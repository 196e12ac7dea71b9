import Mathlib.Data.Finset.Card
import RRPG.Server.Packets

/-!
# Open connections

The server counts its connections in `totalConnections`. Beside it stands what there is to
count: the addresses whose connection is open. RakNet reports a connection that opens with
`ID_NEW_INCOMING_CONNECTION` and one that the remote side closes or loses with
`ID_DISCONNECTION_NOTIFICATION` or `ID_CONNECTION_LOST`; it reports nothing when the server
itself closes one. The server counts down on other identifiers only, those a client gets, so
the counter stays exact just as long as nobody leaves.
-/

open RRPG.Base RRPG.Base.Handler

namespace RRPG

/-- The server with the addresses whose connections are open. -/
structure Line where
  world : World
  up : Finset SystemAddress

/-- The open connections once RakNet has reported what a packet says. -/
def reported (p : Packet) (up : Finset SystemAddress) : Finset SystemAddress :=
  match p.lowLevel with
  | some .idNewIncomingConnection => insert p.systemAddress up
  | some .idDisconnectionNotification | some .idConnectionLost => up.erase p.systemAddress
  | _ => up

/-- The connections that some effects leave open. -/
def notClosed (up : Finset SystemAddress) (es : List Effect) : Finset SystemAddress :=
  up.filter fun a ↦ ∀ e ∈ es, e.act ≠ .closeConnection a

variable (S : Setup)

/-- The line after a packet, whose handler may close connections. -/
def Line.next (n : Line) (e : Event) : Line :=
  let w := (exec (packetHandler S e.chance e.packet) n.world).2
  ⟨w, notClosed (reported e.packet n.up) (w.trace.drop n.world.trace.length)⟩

/-- The line before anybody has connected. -/
def Line.init : Line := ⟨⟨Server.init, []⟩, ∅⟩

/-- The line after some packets. -/
def line (events : List Event) : Line := events.foldl (Line.next S) .init

/-- RakNet reports a connection when it opens and when the other side leaves it. Packets of
clients may be introductions, from whatever address. -/
inductive Delivered (up : Finset SystemAddress) (p : Packet) : Prop
  | opens (h : p.lowLevel = some .idNewIncomingConnection) (hnew : p.systemAddress ∉ up)
  | leaves (h : p.lowLevel = some .idDisconnectionNotification ∨
      p.lowLevel = some .idConnectionLost) (hold : p.systemAddress ∈ up)
  | intro (h : p.kind = some .cIntro)

/-- Every packet is delivered as RakNet does it. -/
def AllDelivered (events : List Event) : Prop :=
  ∀ pre e post, events = pre ++ e :: post → Delivered (line S pre).up e.packet

/-- The counter is the number of open connections. -/
def Line.Counted (n : Line) : Prop := n.world.server.totalConnections.toNat = n.up.card

/-- The counter is exact after every packet. It never wraps, and neither does the difference
`OnClientIntro` takes while no more connections are open than expected. -/
structure CounterExact (events : List Event) : Prop where
  counted : ∀ pre post, events = pre ++ post → (line S pre).Counted
  noWrap : ∀ pre e post, events = pre ++ e :: post →
    (line S (pre ++ [e])).world.server.totalConnections.toNat ≤
      (line S pre).world.server.totalConnections.toNat + 1
  difference : ∀ pre post, events = pre ++ post →
    (line S pre).up.card ≤ S.expectedPlayers.toNat →
    ((line S pre).world.server.missing S).toNat +
      (line S pre).world.server.totalConnections.toNat = S.expectedPlayers.toNat

/-- Nobody leaves; there is room in the counter for who comes; and who introduces itself
while there are more connections than expected has one of them. -/
structure KeepsCount (up : Finset SystemAddress) (p : Packet) : Prop where
  stays : p.lowLevel ≠ some .idDisconnectionNotification ∧ p.lowLevel ≠ some .idConnectionLost
  room : p.lowLevel = some .idNewIncomingConnection → up.card < 65535
  sender : p.kind = some .cIntro → S.expectedPlayers.toNat < up.card → p.systemAddress ∈ up

theorem line_concat (events : List Event) (e : Event) :
    line S (events ++ [e]) = (line S events).next S e := by
  simp [line]

/-- Connections are closed by effects of the game proper only. -/
theorem notClosed_core (up : Finset SystemAddress) (es : List Effect) :
    notClosed up (core es) = notClosed up es := by
  unfold notClosed
  congr 1
  funext a
  apply propext
  constructor
  · rintro h ⟨act, s⟩ he rfl
    exact h ⟨.closeConnection a, s⟩ (List.mem_filter.mpr ⟨he, rfl⟩) rfl
  · exact fun h e he ↦ h e (List.mem_of_mem_filter he)

@[simp] theorem notClosed_nil (up : Finset SystemAddress) : notClosed up [] = up := by
  simp [notClosed]

@[simp] theorem notClosed_singleton (up : Finset SystemAddress) (a : SystemAddress)
    (s : Server) : notClosed up [⟨.closeConnection a, s⟩] = up.erase a := by
  ext b
  simp [notClosed, and_comm, eq_comm]

variable {S}

/-- What a packet does to the line. -/
theorem Line.next_handled (n : Line) (e : Event) : ∃ r es,
    Handled S e.chance e.packet n.world.server r (n.next S e).world.server es ∧
      (n.next S e).up = notClosed (reported e.packet n.up) es := by
  rcases hexec : exec (packetHandler S e.chance e.packet) n.world with ⟨r, ⟨s', trace⟩⟩
  obtain ⟨es, htrace, hhandled⟩ := handled_of_exec S e.chance e.packet n.world _ r hexec
  obtain rfl : trace = n.world.trace ++ es := htrace
  refine ⟨r, core es, ?_, ?_⟩
  · simpa only [Line.next, hexec] using hhandled
  · simp only [Line.next, hexec, List.drop_left, notClosed_core]

/-- A connection that opens is counted, if there is room. -/
theorem Line.Counted.opens {n : Line} (h : n.Counted) (e : Event)
    (hlow : e.packet.lowLevel = some .idNewIncomingConnection)
    (hnew : e.packet.systemAddress ∉ n.up) :
    (n.next S e).Counted ↔ n.up.card < 65535 := by
  obtain ⟨r, es, hhandled, hup⟩ := n.next_handled (S := S) e
  obtain ⟨_, hs, rfl⟩ := hhandled.of_low_level _ hlow
  have hlt := UInt16.toNat_lt n.world.server.totalConnections
  unfold Line.Counted at *
  simp only [hs, hup, notClosed_nil, reported, hlow, DefaultMessageId.count, UInt16.toNat_add,
    Finset.card_insert_of_notMem hnew, ← h, UInt16.toNat_one]
  omega

/-- A connection that the other side leaves is not. -/
theorem Line.Counted.leaves {n : Line} (h : n.Counted) (e : Event)
    (hlow : e.packet.lowLevel = some .idDisconnectionNotification ∨
      e.packet.lowLevel = some .idConnectionLost) (hold : e.packet.systemAddress ∈ n.up) :
    ¬ (n.next S e).Counted := by
  obtain ⟨r, es, hhandled, hup⟩ := n.next_handled (S := S) e
  have hcard := Finset.card_erase_add_one hold
  unfold Line.Counted at *
  rcases hlow with hlow | hlow
  all_goals
    obtain ⟨_, hs, rfl⟩ := hhandled.of_low_level _ hlow
    simp only [hs, hup, notClosed_nil, reported, hlow, DefaultMessageId.count]
    omega

/-- A rejection is counted if it closes a connection. -/
theorem Line.Counted.intro {n : Line} (h : n.Counted) (e : Event)
    (hk : e.packet.kind = some .cIntro) :
    (n.next S e).Counted ↔
      (S.expectedPlayers.toNat < n.up.card → e.packet.systemAddress ∈ n.up) := by
  obtain ⟨r, es, hhandled, hup⟩ := n.next_handled (S := S) e
  obtain ⟨_, hs, rfl⟩ := hhandled.of_intro hk
  have hrep : reported e.packet n.up = n.up := by
    simp [reported, e.packet.lowLevel_of_kind _ hk]
  have hover : S.expectedPlayers < n.world.server.totalConnections.toUInt32 ↔
      S.expectedPlayers.toNat < n.up.card := by
    rw [UInt32.lt_iff_toNat_lt, UInt16.toNat_toUInt32, h]
  unfold Line.Counted at *
  rw [hs, hup, hrep, Server.joined]
  by_cases hmany : S.expectedPlayers.toNat < n.up.card
  · rw [if_pos (hover.mpr hmany), if_pos (hover.mpr hmany), notClosed_singleton]
    have hone : 1 ≤ n.world.server.totalConnections := by
      rw [UInt16.le_iff_toNat_le, h, UInt16.toNat_one]
      omega
    rw [UInt16.toNat_sub_of_le _ _ hone, UInt16.toNat_one, h]
    by_cases hmem : e.packet.systemAddress ∈ n.up
    · simp [hmem, Finset.card_erase_of_mem hmem]
    · simp only [hmem, not_false_eq_true, Finset.erase_eq_of_notMem, hmany, imp_false,
        not_true_eq_false, iff_false]
      omega
  · rw [if_neg (mt hover.mp hmany), if_neg (mt hover.mp hmany), notClosed_nil]
    simp [hmany, h]

/-- A packet keeps the counter exact exactly when it is one of those described. -/
theorem Line.Counted.next_iff {n : Line} (h : n.Counted) (e : Event)
    (hdel : Delivered n.up e.packet) :
    (n.next S e).Counted ↔ KeepsCount S n.up e.packet := by
  cases hdel with
  | opens hlow hnew =>
    have hk : e.packet.kind ≠ some .cIntro := by
      intro hk
      simp [e.packet.lowLevel_of_kind _ hk] at hlow
    rw [h.opens e hlow hnew]
    exact ⟨fun hroom ↦ ⟨by simp [hlow], fun _ ↦ hroom, fun hk' ↦ absurd hk' hk⟩,
      fun hkeep ↦ hkeep.room hlow⟩
  | leaves hlow hold =>
    refine ⟨fun hc ↦ absurd hc (h.leaves e hlow hold), fun hkeep ↦ ?_⟩
    exact (hlow.elim hkeep.stays.1 hkeep.stays.2).elim
  | intro hk =>
    have hlow := e.packet.lowLevel_of_kind _ hk
    rw [h.intro e hk]
    exact ⟨fun hsender ↦ ⟨by simp [hlow], by simp [hlow], fun _ ↦ hsender⟩,
      fun hkeep ↦ hkeep.sender hk⟩

/-- A packet opens at most one connection. -/
theorem Line.card_next_le (n : Line) (e : Event) : (n.next S e).up.card ≤ n.up.card + 1 := by
  obtain ⟨r, es, _, hup⟩ := n.next_handled (S := S) e
  rw [hup]
  refine (Finset.card_filter_le _ _).trans ?_
  unfold reported
  split
  · exact Finset.card_insert_le _ _
  · exact (Finset.card_erase_le).trans (Nat.le_succ _)
  · exact (Finset.card_erase_le).trans (Nat.le_succ _)
  · exact Nat.le_succ _

/-- Where the counter is exact and at most the expected number, the difference is. -/
theorem Line.Counted.difference {n : Line} (h : n.Counted)
    (hle : n.up.card ≤ S.expectedPlayers.toNat) :
    (n.world.server.missing S).toNat + n.world.server.totalConnections.toNat =
      S.expectedPlayers.toNat := by
  rw [← h] at hle
  rw [Server.missing, UInt32.toNat_sub_of_le, UInt16.toNat_toUInt32]
  · omega
  · rwa [UInt32.le_iff_toNat_le, UInt16.toNat_toUInt32]

variable (S)

/-- The counter is exact exactly in the runs whose packets all keep it. -/
theorem counterExact_iff (events : List Event) (h : AllDelivered S events) :
    CounterExact S events ↔
      ∀ pre e post, events = pre ++ e :: post → KeepsCount S (line S pre).up e.packet := by
  constructor
  · intro hexact pre e post hsplit
    have hnext := hexact.counted (pre ++ [e]) post (by simp [hsplit])
    rw [line_concat] at hnext
    exact ((hexact.counted pre _ hsplit).next_iff e (h pre e post hsplit)).mp hnext
  · intro hkeep
    have hcounted (pre post : List Event) (hsplit : events = pre ++ post) :
        (line S pre).Counted := by
      induction pre using List.reverseRecOn generalizing post with
      | nil => rfl
      | append_singleton pre e ih =>
        have hsplit' : events = pre ++ e :: post := by simp [hsplit]
        rw [line_concat]
        exact ((ih _ hsplit').next_iff e (h pre e post hsplit')).mpr (hkeep pre e post hsplit')
    refine ⟨hcounted, ?_, fun pre post hsplit ↦ (hcounted pre post hsplit).difference⟩
    intro pre e post hsplit
    have hpre : (line S pre).Counted := hcounted pre _ hsplit
    have hnext : (line S (pre ++ [e])).Counted := hcounted (pre ++ [e]) post (by simp [hsplit])
    unfold Line.Counted at hpre hnext
    rw [hpre, hnext, line_concat]
    exact Line.card_next_le _ e

/-- A client connects and leaves. -/
def visit : List Event :=
  [clientEvent 1 DefaultMessageId.idNewIncomingConnection.byte [],
    clientEvent 1 DefaultMessageId.idDisconnectionNotification.byte []]

private theorem visit_delivered : AllDelivered (.plain 1) visit := by
  intro pre e post hsplit
  rcases pre with _ | ⟨a, _ | ⟨b, pre⟩⟩ <;> simp only [visit, List.nil_append,
    List.cons_append, List.cons.injEq] at hsplit
  · obtain ⟨rfl, _⟩ := hsplit
    exact .opens (by decide +kernel) (by decide +kernel)
  · obtain ⟨rfl, rfl, _⟩ := hsplit
    exact .leaves (.inl (by decide +kernel)) (by decide +kernel)
  · simp at hsplit

/-- The client is still counted. -/
theorem visit_miscounted : AllDelivered (.plain 1) visit ∧ ¬ CounterExact (.plain 1) visit := by
  refine ⟨visit_delivered, fun h ↦ ?_⟩
  have hcounted : (line (.plain 1) visit).world.server.totalConnections.toNat =
      (line (.plain 1) visit).up.card := h.counted visit [] (by simp)
  exact absurd hcounted (by decide +kernel)

/-- The condition tells the visit from the runs that are counted. -/
theorem visit_counterExact_iff : CounterExact (.plain 1) visit ↔
    ∀ pre e post, visit = pre ++ e :: post →
      KeepsCount (.plain 1) (line (.plain 1) pre).up e.packet :=
  counterExact_iff (.plain 1) visit visit_delivered

end RRPG
