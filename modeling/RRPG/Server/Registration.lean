import Mathlib.Data.Finset.Card
import RRPG.Server.Pointer

/-!
# Registration

Clients connect, leave and introduce themselves. `OnClientIntro` closes the connection of a
client that comes when there are more connections than the server expects, and registers it
all the same: there is no return after `CloseConnection`. Everybody who has sent a `C_INTRO`
is registered, and nobody is ever removed.
-/

open RRPG.Base RRPG.Base.Handler

namespace RRPG

variable (S : Setup)

/-- A packet of the library about a connection, or a `C_INTRO`. -/
def Event.Arrival (e : Event) : Prop := e.packet.lowLevel ≠ none ∨ e.packet.kind = some .cIntro

instance (e : Event) : Decidable e.Arrival := inferInstanceAs (Decidable (_ ∨ _))

/-- The ids that have sent a `C_INTRO`. -/
def introduced (events : List Event) : List UInt32 :=
  (events.filter fun e ↦ e.packet.kind = some .cIntro).map fun e ↦ S.id e.packet

theorem introduced_append (xs ys : List Event) :
    introduced S (xs ++ ys) = introduced S xs ++ introduced S ys := by
  simp [introduced]

variable {S}

/-- An arrival's handler returns; only an introduction registers anybody. -/
theorem Handled.of_arrival {e : Event} {s s' : Server} {r : Except Halt Unit}
    {es : List Effect} (h : Handled S e.chance e.packet s r s' es) (he : e.Arrival) :
    r = .ok () ∧ ∀ id, id ∈ s'.players ↔ id ∈ s.players ∨ id ∈ introduced S [e] := by
  rcases he with hlow | hk
  · obtain ⟨i, hi⟩ := Option.ne_none_iff_exists'.mp hlow
    obtain ⟨hr, hs, _⟩ := h.of_low_level i hi
    have hk : e.packet.kind ≠ some .cIntro := by
      intro hk
      simp [e.packet.lowLevel_of_kind _ hk] at hi
    exact ⟨hr, by simp [hs, introduced, hk]⟩
  · obtain ⟨hr, hs, _⟩ := h.of_intro hk
    refine ⟨hr, fun id ↦ ?_⟩
    rw [hs, Server.joined, OrdMap.mem_emplace]
    simp [introduced, hk, or_comm]

/-- Every run of arrivals returns, and has registered who introduced itself. -/
theorem arrivals_registered (events : List Event) (h : ∀ e ∈ events, e.Arrival) :
    (outcome S events).1 = .ok () ∧
      ∀ id, id ∈ (outcome S events).2.server.players ↔ id ∈ introduced S events := by
  induction events using List.reverseRecOn with
  | nil => exact ⟨rfl, by simp [outcome, serve, Server.init, introduced]⟩
  | append_singleton events e ih =>
    obtain ⟨hr, hmem⟩ := ih fun e he ↦ h e (by simp [he])
    have hw : outcome S events = (.ok (), (outcome S events).2) := Prod.ext hr rfl
    rw [outcome_concat S events e _ hw]
    rcases hexec : exec (packetHandler S e.chance e.packet) (outcome S events).2 with ⟨r, w⟩
    obtain ⟨es, _, hhandled⟩ := handled_of_exec S e.chance e.packet _ w r hexec
    obtain ⟨rfl, hmem'⟩ := hhandled.of_arrival (h e (by simp))
    refine ⟨rfl, fun id ↦ ?_⟩
    rw [hmem' id, hmem id, introduced_append, List.mem_append]

/-- The number of players is the number of ids that introduced themselves. -/
theorem arrivals_size (events : List Event) (h : ∀ e ∈ events, e.Arrival) :
    (outcome S events).2.server.players.size = (introduced S events).toFinset.card := by
  have hmem := (arrivals_registered (S := S) events h).2
  rw [← OrdMap.length_keys, ← List.toFinset_card_of_nodup (OrdMap.keys_nodup _)]
  congr 1
  ext id
  rw [List.mem_toFinset, List.mem_toFinset, ← hmem id, OrdMap.mem_def]

/-- A connection is closed exactly when there are more of them than expected. -/
theorem Handled.closes_iff {c : Chance} {p : Packet} {s s' : Server} {r : Except Halt Unit}
    {es : List Effect} (h : Handled S c p s r s' (core es)) (hk : p.kind = some .cIntro) :
    (∃ t, ⟨.closeConnection p.systemAddress, t⟩ ∈ es) ↔
      S.expectedPlayers < s.totalConnections.toUInt32 := by
  have hcore := (h.of_intro hk).2.2
  have hmem (t : Server) : ⟨.closeConnection p.systemAddress, t⟩ ∈ es ↔
      ⟨.closeConnection p.systemAddress, t⟩ ∈ core es := by
    simp [core]
  simp only [hmem, hcore]
  by_cases hover : S.expectedPlayers < s.totalConnections.toUInt32
  · rw [if_pos hover]
    exact ⟨fun _ ↦ hover, fun _ ↦ ⟨s, List.mem_singleton_self _⟩⟩
  · simp [hover]

/-- An introduction leaves the maps alone exactly when its sender is registered already. -/
theorem Server.joined_keeps_iff {s : Server} (hv : s.Valid) (p : Packet) :
    (s.joined S p).players = s.players ∧ (s.joined S p).playerAddresses = s.playerAddresses ↔
      S.id p ∈ s.players := by
  constructor
  · rintro ⟨hplayers, _⟩
    rw [← hplayers, Server.joined, OrdMap.mem_emplace]
    exact .inl rfl
  · intro hmem
    exact ⟨OrdMap.emplace_of_mem _ _ _ hmem,
      OrdMap.emplace_of_mem _ _ _ ((hv.registered _).mp hmem)⟩

variable (S)

/-- The server keeps to the number of players it expects, and who is rejected leaves no
trace in the maps. -/
structure RegistersExpected (events : List Event) : Prop where
  bounded : ∀ pre post, events = pre ++ post →
    (outcome S pre).2.server.players.size ≤ S.expectedPlayers.toNat
  rejected : ∀ pre e post w r s' es, events = pre ++ e :: post → outcome S pre = (.ok (), w) →
    e.packet.kind = some .cIntro →
    exec (packetHandler S e.chance e.packet) w = (r, ⟨s', w.trace ++ es⟩) →
    (∃ t, ⟨.closeConnection e.packet.systemAddress, t⟩ ∈ es) →
    s'.players = w.server.players ∧ s'.playerAddresses = w.server.playerAddresses

/-- No more clients introduce themselves than expected, and none for the first time while
there are more connections than expected. -/
structure NoSurplus (events : List Event) : Prop where
  few : (introduced S events).toFinset.card ≤ S.expectedPlayers.toNat
  known : ∀ pre e post w, events = pre ++ e :: post → outcome S pre = (.ok (), w) →
    e.packet.kind = some .cIntro →
    S.expectedPlayers < w.server.totalConnections.toUInt32 → S.id e.packet ∈ introduced S pre

/-- Registration does what it should exactly in the runs without surplus clients. -/
theorem registersExpected_iff (events : List Event) (h : ∀ e ∈ events, e.Arrival) :
    RegistersExpected S events ↔ NoSurplus S events := by
  -- a rejection leaves the maps alone exactly when the client was introduced before
  have hstep (pre : List Event) (e : Event) (post : List Event) (w : World)
      (hsplit : events = pre ++ e :: post) (hw : outcome S pre = (.ok (), w)) (s' : Server)
      (r : Except Halt Unit) (es : List Effect) (hk : e.packet.kind = some .cIntro)
      (hhandled : Handled S e.chance e.packet w.server r s' (core es)) :
      (s'.players = w.server.players ∧ s'.playerAddresses = w.server.playerAddresses) ↔
        S.id e.packet ∈ introduced S pre := by
    have hv := (pointerHistory S pre).valid
    have hmem := (arrivals_registered (S := S) pre fun e' he' ↦ h e' (by simp [hsplit, he'])).2
    rw [hw] at hv hmem
    rw [(hhandled.of_intro hk).2.1, Server.joined_keeps_iff hv, hmem]
  constructor
  · intro hreg
    refine ⟨?_, ?_⟩
    · rw [← arrivals_size events h]
      exact hreg.bounded events [] (by simp)
    · intro pre e post w hsplit hw hk hover
      rcases hexec : exec (packetHandler S e.chance e.packet) w with ⟨r, ⟨s', trace⟩⟩
      obtain ⟨es, rfl, hhandled⟩ := handled_of_exec S e.chance e.packet w _ r hexec
      exact (hstep pre e post w hsplit hw s' r es hk hhandled).mp
        (hreg.rejected pre e post w r s' es hsplit hw hk hexec ((hhandled.closes_iff hk).mpr hover))
  · intro hno
    refine ⟨?_, ?_⟩
    · rintro pre post rfl
      rw [arrivals_size pre fun e he ↦ h e (by simp [he])]
      refine le_trans (Finset.card_le_card fun id hid ↦ ?_) hno.few
      rw [List.mem_toFinset] at hid ⊢
      rw [introduced_append]
      exact List.mem_append_left _ hid
    · intro pre e post w r s' es hsplit hw hk hexec hclosed
      have hhandled := handled_of_step S e.chance e.packet w r s' es hexec
      exact (hstep pre e post w hsplit hw s' r es hk hhandled).mpr
        (hno.known pre e post w hsplit hw hk ((hhandled.closes_iff hk).mp hclosed))

/-- The only client a server expects leaves, and another one comes. -/
def turnover : List Event :=
  [clientEvent 1 DefaultMessageId.idNewIncomingConnection.byte [],
    clientEvent 1 RRPGId.cIntro.byte [],
    clientEvent 1 DefaultMessageId.idDisconnectionNotification.byte [],
    clientEvent 2 DefaultMessageId.idNewIncomingConnection.byte [],
    clientEvent 2 RRPGId.cIntro.byte []]

/-- The second client is rejected and registered. -/
theorem turnover_surplus :
    (∀ e ∈ turnover, e.Arrival) ∧ ¬ RegistersExpected (.plain 1) turnover := by
  refine ⟨by decide +kernel, fun h ↦ ?_⟩
  have hsize := h.bounded turnover [] (by simp)
  exact absurd hsize (by decide +kernel)

/-- The condition tells this run from the ones the server survives. -/
theorem turnover_registersExpected_iff :
    RegistersExpected (.plain 1) turnover ↔ NoSurplus (.plain 1) turnover :=
  registersExpected_iff (.plain 1) turnover (by decide +kernel)

end RRPG
