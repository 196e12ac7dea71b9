import RRPG.Server.Malformed

/-!
# Introductions

Until a client has introduced itself, every packet for which the server looks its sender up
fails an assertion. Once it has, it stays known under its first introduction: both maps are
filled with `emplace`, which keeps an entry that is there, while the announcement is built
from the packet at hand.
-/

open RRPG.Base RRPG.Base.Handler

namespace RRPG

variable (S : Setup)

/-! ### Before the introduction -/

/-- The packets whose handlers look their sender up. -/
def RRPGId.ofPlayer : List RRPGId := [cReady, cUnready, cChat, cJobChosen, cActionTaken]

/-- The handler did not abort, and changed nothing that other handlers read. -/
structure Ignored (s : Server) (r : Except Halt Unit) (s' : Server) : Prop
    extends Tolerated s r s' where
  addresses : s'.playerAddresses = s.playerAddresses
  connections : s'.totalConnections = s.totalConnections

theorem exec_getPlayer_none (w : World) (id : UInt32) (h : id ∉ w.server.players) :
    exec (getPlayer id) w = (.error (.abort (.getPlayer id)), w) := by
  simp [getPlayer, (OrdMap.find?_eq_none _ _).mpr h]

/-- In every phase the lookup comes before anything the handler does. -/
theorem exec_packetHandler_stranger (w : World) (c : Chance) (p : Packet) (k : RRPGId)
    (hk : p.kind = some k) (hplayer : k ∈ RRPGId.ofPlayer) (hsender : S.id p ∉ w.server.players) :
    exec (packetHandler S c p) w = (.error (.abort (.getPlayer (S.id p))), w) := by
  have hnone := exec_getPlayer_none w (S.id p) hsender
  rw [exec_packetHandler_kind S c p w k hk]
  unfold dispatch
  rw [RRPGId.ofByte?_byte]
  cases k with
  | cReady =>
    show exec (onPlayerReady S p) w = _
    rw [onPlayerReady, exec_bind, hnone, andThen_error]
  | cUnready =>
    show exec (onPlayerUnready S p) w = _
    rw [onPlayerUnready, exec_bind, hnone, andThen_error]
  | cChat =>
    show exec (onClientChatReceived S p) w = _
    rw [onClientChatReceived, exec_bind, hnone, andThen_error]
  | cJobChosen =>
    show exec (onPlayerJobChosen S p) w = _
    rw [onPlayerJobChosen, exec_bind, hnone, andThen_error]
  | cActionTaken =>
    show exec (onPlayerActionTaken S c p) w = _
    rw [onPlayerActionTaken, exec_bind, exec_getServer, andThen_ok, exec_bind, hnone,
      andThen_error]
  | _ => exact absurd hplayer (by decide)

/-- Whatever the run so far and whatever follows, a client that is not registered ends the
server with any such packet: the assertion in `GetPlayer` fails. -/
theorem stranger_ends_server (before after : List Event) (e : Event) (w : World) (k : RRPGId)
    (hreach : outcome S before = (.ok (), w)) (hk : e.packet.kind = some k)
    (hplayer : k ∈ RRPGId.ofPlayer) (hsender : S.id e.packet ∉ w.server.players) :
    outcome S (before ++ e :: after) = (.error (.abort (.getPlayer (S.id e.packet))), w) ∧
      ¬ Ignored w.server (outcome S (before ++ [e])).1 (outcome S (before ++ [e])).2.server := by
  have hstep := exec_packetHandler_stranger S w e.chance e.packet k hk hplayer hsender
  have hone : outcome S (before ++ [e]) = (.error (.abort (.getPlayer (S.id e.packet))), w) := by
    rw [outcome_concat S before e w hreach, hstep]
  constructor
  · have hsplit : before ++ e :: after = (before ++ [e]) ++ after := by simp
    rw [hsplit, outcome, serve, exec_run_append]
    rw [outcome, serve] at hone
    rw [hone, andThen_error]
  · intro hignored
    exact hignored.sound (.getPlayer (S.id e.packet)) (by rw [hone])

/-- A client of which the server only knows that it is connected. -/
def unintroduced : World :=
  (outcome (.plain 2) [clientEvent 1 DefaultMessageId.idNewIncomingConnection.byte []]).2

/-- It is ready at once. -/
def hasty : Event := clientEvent 1 RRPGId.cReady.byte []

/-- Its readiness is not ignored. -/
theorem hasty_not_ignored :
    (outcome (.plain 2) [clientEvent 1 DefaultMessageId.idNewIncomingConnection.byte []]).1 =
      .ok () ∧
    hasty.packet.kind = some .cReady ∧
    (Setup.plain 2).id hasty.packet ∉ unintroduced.server.players ∧
    ¬ Ignored unintroduced.server
      (exec (packetHandler (.plain 2) hasty.chance hasty.packet) unintroduced).1
      (exec (packetHandler (.plain 2) hasty.chance hasty.packet) unintroduced).2.server := by
  refine ⟨by decide +kernel, by decide +kernel, by decide +kernel, fun h ↦ ?_⟩
  exact h.sound (.getPlayer 1) (by decide +kernel)

/-- Nothing that others send after it is handled. -/
theorem hasty_ends_server :
    outcome (.plain 2) ([clientEvent 1 DefaultMessageId.idNewIncomingConnection.byte []] ++
      hasty :: opening [2, 3]) = (.error (.abort (.getPlayer 1)), unintroduced) :=
  (stranger_ends_server (.plain 2)
    [clientEvent 1 DefaultMessageId.idNewIncomingConnection.byte []] (opening [2, 3]) hasty
    unintroduced .cReady (Prod.ext (by decide +kernel) rfl) (by decide +kernel) (by decide)
    (by decide +kernel)).1

/-! ### What an introduction does -/

/-- Whom the server still waits for. -/
def Server.waitingText (s : Server) : Bytes :=
  snprintf 40 (ascii "Waiting for " ++ formatInt (int32 (s.missing S).toNat) ++
    ascii " more player" ++ (if s.missing S = 1 then ascii "." else ascii "s.") ++ ascii "..")

/-- What `OnClientIntro` does once it has closed the connections it rejects. -/
def joinEffects (name : Name) (s : Server) : List Effect :=
  ⟨.memcpy 256 name.bytes.length 13, s⟩ ::
    (broadcastEffects s (name.bytes ++ ascii " has joined.") ++
      if s.totalConnections.toUInt32 ≠ S.expectedPlayers then
        broadcastEffects s (s.waitingText S)
      else [])

theorem exec_registerClient (w : World) (p : Packet) :
    let s := { w.server with
      playerAddresses := w.server.playerAddresses.emplace (S.id p) p.systemAddress
      players := w.server.players.emplace (S.id p) { name := (S.decodeString 256 p.payload).1 } }
    exec (registerClient S p) w =
      (.ok (), ⟨s, w.trace ++ joinEffects S (S.decodeString 256 p.payload).1 s⟩) := by
  intro s
  unfold registerClient joinEffects
  simp only [exec_bind, exec_update, andThen_ok, exec_emit, exec_broadcastMessage, exec_getServer]
  split
  · rw [exec_broadcastMessage]
    simp [Server.waitingText, s]
  · simp [s]

/-- An introduction registers its sender and announces the name it carries. -/
theorem exec_onClientIntro (w : World) (p : Packet) :
    exec (onClientIntro S p) w = (.ok (), ⟨w.server.joined S p, w.trace ++
      ((if S.expectedPlayers < w.server.totalConnections.toUInt32 then
          [⟨.closeConnection p.systemAddress, w.server⟩] else []) ++
        joinEffects S (S.decodeString 256 p.payload).1 (w.server.joined S p))⟩) := by
  rw [onClientIntro_eq, exec_bind, exec_getServer, andThen_ok]
  by_cases hfull : S.expectedPlayers < w.server.totalConnections.toUInt32
  · rw [if_pos hfull, exec_bind, exec_emit, andThen_ok, exec_bind, exec_update, andThen_ok,
      exec_registerClient]
    simp [Server.joined, hfull]
  · rw [if_neg hfull, exec_registerClient]
    simp [Server.joined, hfull]

theorem exec_packetHandler_intro (w : World) (c : Chance) (p : Packet)
    (hk : p.kind = some .cIntro) :
    exec (packetHandler S c p) w = exec (onClientIntro S p) w := by
  rw [exec_packetHandler_kind S c p w .cIntro hk]
  rfl

/-! ### The latest introduction -/

/-- The packet is an introduction that is not rejected. -/
def Accepts (p : Packet) (s : Server) : Prop :=
  p.kind = some .cIntro ∧ ¬ S.expectedPlayers < s.totalConnections.toUInt32

instance (p : Packet) (s : Server) : Decidable (Accepts S p s) :=
  inferInstanceAs (Decidable (_ ∧ _))

/-- The latest accepted introduction of a client in a run given backwards. -/
def latestOf (id : UInt32) : List Event → Option Packet
  | [] => none
  | e :: earlier =>
    if S.id e.packet = id ∧ Accepts S e.packet (outcome S earlier.reverse).2.server then
      some e.packet
    else latestOf id earlier

/-- The latest accepted introduction of a client in a run. -/
def latest (events : List Event) (id : UInt32) : Option Packet := latestOf S id events.reverse

theorem latest_concat (events : List Event) (e : Event) (id : UInt32) :
    latest S (events ++ [e]) id =
      if S.id e.packet = id ∧ Accepts S e.packet (outcome S events).2.server then some e.packet
      else latest S events id := by
  simp [latest, latestOf]

/-- The client is registered under the name and from the address of the introduction. -/
structure RegisteredAs (s : Server) (id : UInt32) (p : Packet) : Prop where
  name : (s.players.find? id).map Player.name = some (S.decodeString 256 p.payload).1
  address : s.playerAddresses.find? id = some p.systemAddress

/-- The registration of every client is its latest introduction, in every state of a run;
turns go to the addresses and announcements carry the names of these. -/
structure KeepsLatest (events : List Event) : Prop where
  stored : ∀ pre post w id p, events = pre ++ post → outcome S pre = (.ok (), w) →
    latest S pre id = some p → RegisteredAs S w.server id p
  addressed : ∀ pre e post w es t p, events = pre ++ e :: post → outcome S pre = (.ok (), w) →
    (outcome S (pre ++ [e])).2.trace = w.trace ++ es → t ∈ turns es →
    latest S (pre ++ [e]) t.2.currentPlayerTurn = some p → t.1 = p.systemAddress
  announced : ∀ pre e post w, events = pre ++ e :: post → outcome S pre = (.ok (), w) →
    Accepts S e.packet w.server →
    ∃ s' es player, outcome S (pre ++ [e]) = (.ok (), ⟨s', w.trace ++ es⟩) ∧
      s'.players.find? (S.id e.packet) = some player ∧
      broadcastEffects s' (player.name.bytes ++ ascii " has joined.") <:+: es

/-- An accepted introduction of a registered client carries the stored name and comes from
the stored address. -/
def Renews (p : Packet) (s : Server) : Prop :=
  Accepts S p s → ∀ player, s.players.find? (S.id p) = some player →
    player.name = (S.decodeString 256 p.payload).1 ∧
      s.playerAddresses.find? (S.id p) = some p.systemAddress

variable {S}

theorem NextTurnDoes.turn_addressed {s s' : Server} {r : Except Halt Unit} {es : List Effect}
    (h : NextTurnDoes s r s' es) (t : SystemAddress × Server) (ht : t ∈ turns es) :
    r = .ok () ∧ t.2 = s' ∧ s'.playerAddresses.find? s'.currentPlayerTurn = some t.1 := by
  cases h with
  | passes hcur id hnext hmany systemAddress haddr =>
    obtain rfl : t = (systemAddress, { s with currentPlayerTurn := id }) := by simpa using ht
    exact ⟨rfl, rfl, haddr⟩
  | _ => simp at ht

/-- A turn is handed out last, to the stored address of the current player. -/
theorem Handled.turn_addressed {c : Chance} {p : Packet} {s s' : Server} {r : Except Halt Unit}
    {es : List Effect} (h : Handled S c p s r s' es) (t : SystemAddress × Server)
    (ht : t ∈ turns es) :
    r = .ok () ∧ t.2 = s' ∧ s'.playerAddresses.find? s'.currentPlayerTurn = some t.1 := by
  cases h with
  | joins hk =>
    exfalso
    split at ht <;> simp at ht
  | starts _ _ _ r s' es hstart =>
    cases hstart with
    | passes first hb systemAddress haddr =>
      obtain rfl : t = (systemAddress, _) := by simpa using ht
      exact ⟨rfl, rfl, haddr⟩
    | _ => simp at ht
  | chooses _ _ r s' es hchosen =>
    cases hchosen with
    | passes hcur id hnext systemAddress haddr =>
      obtain rfl : t = (systemAddress, _) := by simpa using ht
      exact ⟨rfl, rfl, haddr⟩
    | starts hcur hnext r s' es hturn => exact hturn.turn_addressed t (by simpa using ht)
    | _ => simp at ht
  | acts _ _ id player htarget hp r s' es hturn => exact hturn.turn_addressed t (by simpa using ht)
  | _ => simp at ht

/-- Whatever arrives, a registration stays as it is. -/
theorem RegisteredAs.handled {id : UInt32} {q : Packet} {c : Chance} {p : Packet}
    {s s' : Server} {r : Except Halt Unit} {es : List Effect} (hreg : RegisteredAs S s id q)
    (h : Handled S c p s r s' es) : RegisteredAs S s' id q := by
  by_cases hk : p.kind = some .cIntro
  · obtain ⟨_, rfl, _⟩ := h.of_intro hk
    obtain ⟨player, hp, hname⟩ := Option.map_eq_some_iff.mp hreg.name
    have haddress := hreg.address
    refine ⟨?_, ?_⟩
    · rw [Server.joined, OrdMap.find?_emplace_or, hp]
      simp [hname]
    · rw [Server.joined, OrdMap.find?_emplace_or, haddress]
      simp
  · refine ⟨?_, ?_⟩
    · rw [h.sameNames hk id]
      exact hreg.name
    · rw [h.keeps_addresses hk]
      exact hreg.address

/-- An accepted introduction leaves its sender registered as it says exactly when it renews
what is stored. -/
theorem registeredAs_joined_iff {s : Server} (hv : s.Valid) (p : Packet) (hp : Accepts S p s) :
    RegisteredAs S (s.joined S p) (S.id p) p ↔ Renews S p s := by
  by_cases hmem : S.id p ∈ s.players
  · obtain ⟨player, hplayer⟩ := (OrdMap.mem_iff_find? _ _).mp hmem
    have hplayers : (s.joined S p).players = s.players := OrdMap.emplace_of_mem _ _ _ hmem
    have haddresses : (s.joined S p).playerAddresses = s.playerAddresses :=
      OrdMap.emplace_of_mem _ _ _ ((hv.registered _).mp hmem)
    constructor
    · intro hreg _ player' hplayer'
      have hname := hreg.name
      have haddress := hreg.address
      rw [hplayers, hplayer', Option.map_some] at hname
      rw [haddresses] at haddress
      exact ⟨Option.some.inj hname, haddress⟩
    · intro hrenews
      obtain ⟨hname, haddress⟩ := hrenews hp player hplayer
      refine ⟨?_, ?_⟩
      · rw [hplayers, hplayer, Option.map_some, hname]
      · rw [haddresses, haddress]
  · have hnew : S.id p ∉ s.playerAddresses := fun h ↦ hmem ((hv.registered _).mpr h)
    constructor
    · intro _ _ player hplayer
      exact absurd ((OrdMap.mem_iff_find? _ _).mpr ⟨player, hplayer⟩) hmem
    · intro _
      refine ⟨?_, ?_⟩
      · simp [Server.joined, OrdMap.find?_emplace, hmem]
      · simp [Server.joined, OrdMap.find?_emplace, hnew]

variable (S)

/-- A run that returned returned before its last packet. -/
theorem outcome_concat_ok (events : List Event) (e : Event) (w : World)
    (h : outcome S (events ++ [e]) = (.ok (), w)) :
    ∃ v es, outcome S events = (.ok (), v) ∧
      Handled S e.chance e.packet v.server (.ok ()) w.server es := by
  rcases hv : outcome S events with ⟨halt | u, v⟩
  · rw [outcome_concat_error S events e halt v hv] at h
    simp at h
  · obtain ⟨r, w', es, hconcat, _, hhandled⟩ := handled_of_outcome S events e v hv
    obtain ⟨rfl, rfl⟩ := Prod.mk.inj (hconcat.symm.trans h)
    exact ⟨v, core es, rfl, hhandled⟩

/-- Every accepted introduction of a run renews what is stored. -/
def AllRenew (events : List Event) : Prop :=
  ∀ pre e post w, events = pre ++ e :: post → outcome S pre = (.ok (), w) →
    Renews S e.packet w.server

variable {S}

/-- Then the latest introduction is the registration. -/
theorem AllRenew.registeredAs {events : List Event} (h : AllRenew S events)
    (pre post : List Event) (w : World) (id : UInt32) (p : Packet)
    (hsplit : events = pre ++ post) (hw : outcome S pre = (.ok (), w))
    (hlatest : latest S pre id = some p) : RegisteredAs S w.server id p := by
  induction pre using List.reverseRecOn generalizing post w with
  | nil => simp [latest, latestOf] at hlatest
  | append_singleton pre e ih =>
    obtain ⟨v, es, hv, hhandled⟩ := outcome_concat_ok S pre e w hw
    have hvalid := (pointerHistory S pre).valid
    rw [hv] at hvalid
    have hsplit' : events = pre ++ e :: post := by simp [hsplit]
    rw [latest_concat, hv] at hlatest
    split at hlatest
    · next hnew =>
      obtain ⟨rfl, haccepts⟩ := hnew
      obtain rfl := Option.some.inj hlatest
      rw [(hhandled.of_intro haccepts.1).2.1]
      exact (registeredAs_joined_iff hvalid e.packet haccepts).mpr (h pre e post v hsplit' hv)
    · exact (ih (e :: post) v hsplit' hv hlatest).handled hhandled

/-- And turns go where the current player last introduced itself from. -/
theorem AllRenew.addressed {events : List Event} (h : AllRenew S events) (pre : List Event)
    (e : Event) (post : List Event) (w : World) (es : List Effect) (t : SystemAddress × Server)
    (p : Packet) (hsplit : events = pre ++ e :: post) (hw : outcome S pre = (.ok (), w))
    (htrace : (outcome S (pre ++ [e])).2.trace = w.trace ++ es) (ht : t ∈ turns es)
    (hlatest : latest S (pre ++ [e]) t.2.currentPlayerTurn = some p) :
    t.1 = p.systemAddress := by
  obtain ⟨r, w', es', hconcat, htrace', hhandled⟩ := handled_of_outcome S pre e w hw
  rw [hconcat] at htrace
  obtain rfl := List.append_cancel_left (htrace.symm.trans htrace')
  obtain ⟨rfl, hserver, haddress⟩ := hhandled.turn_addressed t (by rwa [turns_core])
  have hreg := h.registeredAs (pre ++ [e]) post w' _ p (by simp [hsplit]) hconcat hlatest
  have hstored := hreg.address
  rw [hserver, haddress] at hstored
  exact Option.some.inj hstored

/-- And the name announced is the one stored. -/
theorem Renews.announced {pre : List Event} {e : Event} {w : World}
    (h : Renews S e.packet w.server) (hw : outcome S pre = (.ok (), w))
    (haccepts : Accepts S e.packet w.server) :
    ∃ s' es player, outcome S (pre ++ [e]) = (.ok (), ⟨s', w.trace ++ es⟩) ∧
      s'.players.find? (S.id e.packet) = some player ∧
      broadcastEffects s' (player.name.bytes ++ ascii " has joined.") <:+: es := by
  have hvalid := (pointerHistory S pre).valid
  rw [hw] at hvalid
  have hreg := (registeredAs_joined_iff hvalid e.packet haccepts).mpr h
  obtain ⟨player, hplayer, hname⟩ := Option.map_eq_some_iff.mp hreg.name
  rw [outcome_concat S pre e w hw, exec_packetHandler_intro S w e.chance e.packet haccepts.1,
    exec_onClientIntro]
  refine ⟨_, _, player, rfl, hplayer, ?_⟩
  rw [hname, if_neg haccepts.2]
  exact ⟨[⟨.memcpy 256 _ 13, _⟩], _, rfl⟩

/-- Where the registration is the latest introduction, an accepted one renews. -/
theorem KeepsLatest.renews {events : List Event} (h : KeepsLatest S events) (pre : List Event)
    (e : Event) (post : List Event) (w : World) (hsplit : events = pre ++ e :: post)
    (hw : outcome S pre = (.ok (), w)) : Renews S e.packet w.server := by
  intro haccepts
  have hvalid := (pointerHistory S pre).valid
  rw [hw] at hvalid
  have hintro := outcome_concat S pre e w hw
  rw [exec_packetHandler_intro S w e.chance e.packet haccepts.1, exec_onClientIntro] at hintro
  have hreg := h.stored (pre ++ [e]) post _ (S.id e.packet) e.packet (by simp [hsplit]) hintro
    (by rw [latest_concat, hw, if_pos ⟨rfl, haccepts⟩])
  exact (registeredAs_joined_iff hvalid e.packet haccepts).mp hreg haccepts

variable (S)

/-- The registration of a client is its latest introduction exactly in the runs in which
every accepted introduction of a registered client renews what is stored. -/
theorem keepsLatest_iff (events : List Event) :
    KeepsLatest S events ↔ ∀ pre e post w, events = pre ++ e :: post →
      outcome S pre = (.ok (), w) → Renews S e.packet w.server := by
  constructor
  · exact fun h ↦ h.renews
  · intro h
    have hall : AllRenew S events := h
    refine ⟨hall.registeredAs, hall.addressed, ?_⟩
    intro pre e post w hsplit hw haccepts
    exact (h pre e post w hsplit hw).announced hw haccepts

/-- Client 1 has introduced itself as A. -/
def introducedClient : World :=
  (outcome (.plain 2) [clientEvent 1 DefaultMessageId.idNewIncomingConnection.byte [],
    clientEvent 1 RRPGId.cIntro.byte (ascii "A")]).2

/-- A client comes back from another address, under another name, and gets ready. -/
def comeback : List Event :=
  let later (e : Event) : Event :=
    { e with packet := { e.packet with systemAddress := ⟨9, 60000⟩ } }
  [clientEvent 1 DefaultMessageId.idNewIncomingConnection.byte [],
    clientEvent 1 RRPGId.cIntro.byte (ascii "A"),
    later (clientEvent 1 DefaultMessageId.idNewIncomingConnection.byte []),
    later (clientEvent 1 RRPGId.cIntro.byte (ascii "B")),
    later (clientEvent 1 RRPGId.cReady.byte [])]

/-- It is announced as B, stays A, and its turn goes to the address it left. -/
theorem comeback_forgotten : (outcome (.plain 2) comeback).1 = .ok () ∧
    ¬ KeepsLatest (.plain 2) comeback ∧
    (turns (outcome (.plain 2) comeback).2.trace).map Prod.fst = [⟨1, 60000⟩] := by
  refine ⟨by decide +kernel, fun h ↦ ?_, by decide +kernel⟩
  have hlatest : ∃ p, latest (.plain 2) comeback 1 = some p ∧ p.systemAddress = ⟨9, 60000⟩ :=
    Option.map_eq_some_iff.mp (by decide +kernel)
  obtain ⟨p, hp, haddress⟩ := hlatest
  have hreg := h.stored comeback [] _ 1 p (by simp) (Prod.ext (by decide +kernel) rfl) hp
  have hstored := hreg.address
  rw [haddress] at hstored
  exact absurd hstored (by decide +kernel)

end RRPG
