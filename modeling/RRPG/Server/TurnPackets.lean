import RRPG.Server.Termination

/-!
# What a turn's packets change

`OnPlayerJobChosen` and `OnPlayerActionTaken` test neither the game state nor whose turn it
is: turns are kept by the clients. The effect of a `C_JOB_CHOSEN` or `C_ACTION_TAKEN` is
the same from every registered sender in every phase, and so is the way the handler ends:
without a current player it aborts, and with nobody left alive it never returns.
-/

open RRPG.Base RRPG.Base.Handler

namespace RRPG

/-- The server when `NextTurn` has passed the turn on. -/
def Server.afterTurn (s : Server) (id : UInt32) : Server :=
  { s with
    currentPlayerTurn := id
    gameState := if s.living = 1 then .gsGameOver else s.gameState }

/-- Where `NextTurn` returns, the turn is with the next living player, and the game is over
if no other is left. -/
theorem NextTurnDoes.afterTurn {s s' : Server} {es : List Effect}
    (h : NextTurnDoes s (.ok ()) s' es) :
    ∃ id, Next (Alive s.players) s.currentPlayerTurn id ∧ s' = s.afterTurn id := by
  cases h with
  | ends hcur id hnext hone => exact ⟨id, hnext, by rw [Server.afterTurn, if_pos hone]⟩
  | passes hcur id hnext hmany systemAddress haddr =>
    exact ⟨id, hnext, by rw [Server.afterTurn, if_neg hmany]⟩

/-- What a returning `C_JOB_CHOSEN` leaves: the choice is stored, and the turn goes to the
next id, or the main game starts. -/
def JobEffect (p : Packet) (sender : UInt32) (s s' : Server) : Prop :=
  let chosen := s.withPlayer sender (·.chosen p)
  match s.players.next? s.currentPlayerTurn with
  | some id => s' = { chosen with currentPlayerTurn := id }
  | none => ∃ id, Next (Alive chosen.players) s.currentPlayerTurn id ∧
      s' = ({ chosen with gameState := .gsMain } : Server).afterTurn id

/-- What a returning `C_ACTION_TAKEN` leaves: the target is struck, and the turn goes to the
next living player. -/
def ActionEffect (S : Setup) (c : Chance) (p : Packet) (target : UInt32) (s s' : Server) :
    Prop :=
  ∃ id, Next (Alive (s.acted S c p target).players) s.currentPlayerTurn id ∧
    s' = (s.acted S c p target).afterTurn id

theorem ChosenDoes.jobEffect {p : Packet} {s s' : Server} {sender : UInt32} {es : List Effect}
    (h : ChosenDoes (s.withPlayer sender (·.chosen p)) (.ok ()) s' es) :
    JobEffect p sender s s' := by
  unfold JobEffect
  cases h with
  | passes hcur id hnext systemAddress haddr =>
    simp only [Server.withPlayer_players, OrdMap.next?_adjust,
      Server.withPlayer_currentPlayerTurn] at hnext
    simp only [hnext]
  | starts hcur hnext _ s' es hturn =>
    simp only [Server.withPlayer_players, OrdMap.next?_adjust,
      Server.withPlayer_currentPlayerTurn] at hnext
    simp only [hnext]
    exact hturn.afterTurn

/-- How a handler that passes the turn on ends in `s`: it aborts where there is no current
player, and otherwise returns if somebody comes next and loops for ever if nobody does. -/
structure TurnEnds (s : Server) (someNext : Prop) (r : Except Halt Unit) (s' : Server) :
    Prop where
  unset : s.currentPlayerTurn ∉ s.players → r = .error (.abort .advanceEnd)
  returns : s.currentPlayerTurn ∈ s.players → (r = .ok () ↔ someNext)
  hangs : s.currentPlayerTurn ∈ s.players → ¬ someNext → r = .error .hang
  /-- Where it does not return, nobody else has got the turn. -/
  stays : r ≠ .ok () → s'.currentPlayerTurn = s.currentPlayerTurn

section
variable {s s' : Server} {someNext : Prop}

theorem TurnEnds.of_unset (hunset : s.currentPlayerTurn ∉ s.players)
    (hstays : s'.currentPlayerTurn = s.currentPlayerTurn) :
    TurnEnds s someNext (.error (.abort .advanceEnd)) s' :=
  ⟨fun _ ↦ rfl, fun hcur ↦ absurd hcur hunset, fun hcur ↦ absurd hcur hunset, fun _ ↦ hstays⟩

theorem TurnEnds.of_returns (hcur : s.currentPlayerTurn ∈ s.players) (hnext : someNext) :
    TurnEnds s someNext (.ok ()) s' :=
  ⟨fun hunset ↦ absurd hcur hunset, fun _ ↦ iff_of_true rfl hnext,
    fun _ hnone ↦ absurd hnext hnone, fun hr ↦ absurd rfl hr⟩

theorem TurnEnds.of_hangs (hcur : s.currentPlayerTurn ∈ s.players) (hnone : ¬ someNext)
    (hstays : s'.currentPlayerTurn = s.currentPlayerTurn) :
    TurnEnds s someNext (.error .hang) s' :=
  ⟨fun hunset ↦ absurd hcur hunset, fun _ ↦ by simp [hnone], fun _ _ ↦ rfl, fun _ ↦ hstays⟩

end

theorem NextTurnDoes.turnEnds {s s' : Server} {r : Except Halt Unit} {es : List Effect}
    (h : NextTurnDoes s r s' es) (hreg : ∀ id, id ∈ s.players ↔ id ∈ s.playerAddresses) :
    TurnEnds s (∃ id, Alive s.players id) r s' := by
  cases h with
  | unset hunset => exact .of_unset hunset rfl
  | hangs hcur hdead => exact .of_hangs hcur hdead rfl
  | ends hcur id hnext hone => exact .of_returns hcur ⟨id, hnext.living⟩
  | passes hcur id hnext hmany systemAddress haddr => exact .of_returns hcur ⟨id, hnext.living⟩
  | lost hcur id hnext hmany haddr => exact absurd ((hreg id).mp hnext.living.mem) haddr

/-- Whoever is chosen for, the turn can go on if there is a later id, or somebody alive. -/
theorem ChosenDoes.turnEnds {p : Packet} {s s' : Server} {sender : UInt32}
    {r : Except Halt Unit} {es : List Effect}
    (h : ChosenDoes (s.withPlayer sender (·.chosen p)) r s' es)
    (hreg : ∀ id, id ∈ s.players ↔ id ∈ s.playerAddresses) :
    TurnEnds s (s.players.next? s.currentPlayerTurn ≠ none ∨ ∃ id, Alive s.players id) r s' := by
  have hmem : (s.withPlayer sender (·.chosen p)).currentPlayerTurn ∈
      (s.withPlayer sender (·.chosen p)).players ↔ s.currentPlayerTurn ∈ s.players := by
    rw [Server.withPlayer_players, OrdMap.mem_adjust, Server.withPlayer_currentPlayerTurn]
  have hlater : (s.withPlayer sender (·.chosen p)).players.next?
      (s.withPlayer sender (·.chosen p)).currentPlayerTurn =
        s.players.next? s.currentPlayerTurn := by
    rw [Server.withPlayer_players, OrdMap.next?_adjust, Server.withPlayer_currentPlayerTurn]
  have hreg' (id : UInt32) : id ∈ (s.withPlayer sender (·.chosen p)).players ↔
      id ∈ (s.withPlayer sender (·.chosen p)).playerAddresses := by
    rw [Server.withPlayer_players, OrdMap.mem_adjust]
    exact hreg id
  cases h with
  | unset hunset => exact .of_unset (mt hmem.mpr hunset) rfl
  | passes hcur id hnext systemAddress haddr =>
    rw [hlater] at hnext
    exact .of_returns (hmem.mp hcur) (.inl (by simp [hnext]))
  | lost hcur id hnext haddr =>
    have hid := ((OrdMap.next?_eq_some _ _ id).mp hnext).1
    exact absurd ((hreg' id).mp hid) haddr
  | starts hcur hnext r s' es hturn =>
    rw [hlater] at hnext
    obtain ⟨_, hreturns, hhangs, hstays⟩ := hturn.turnEnds hreg'
    have halive : (∃ id, Alive (s.withPlayer sender (·.chosen p)).players id) ↔
        (s.players.next? s.currentPlayerTurn ≠ none ∨ ∃ id, Alive s.players id) := by
      simp only [alive_chosen, hnext, ne_eq, not_true_eq_false, false_or]
    have hreg := hmem.mp hcur
    exact ⟨fun hunset ↦ absurd hreg hunset, fun _ ↦ (hreturns hcur).trans halive,
      fun _ hnone ↦ hhangs hcur (mt halive.mp hnone), hstays⟩

/-- From a registered sender, whoever's turn it is and whatever the game state, a
`C_JOB_CHOSEN` changes only its sender, the pointer and the game state, and a
`C_ACTION_TAKEN` only its target, the pointer and the game state; what they leave when they
return depends on nothing else. Where the maps agree they return exactly when there is a
current player and somebody to come next: a later id for a choice, or somebody alive. -/
theorem turn_packets_effect (S : Setup) (e : Event) (w w' : World) (r : Except Halt Unit)
    (hsender : S.id e.packet ∈ w.server.players)
    (h : exec (packetHandler S e.chance e.packet) w = (r, w')) :
    (e.packet.kind = some .cJobChosen →
      w'.server.players = w.server.players.adjust (S.id e.packet) (·.chosen e.packet) ∧
      (r = .ok () → JobEffect e.packet (S.id e.packet) w.server w'.server) ∧
      ((∀ id, id ∈ w.server.players ↔ id ∈ w.server.playerAddresses) → TurnEnds w.server
        (w.server.players.next? w.server.currentPlayerTurn ≠ none ∨
          ∃ id, Alive w.server.players id) r w'.server)) ∧
    (e.packet.kind = some .cActionTaken →
      match target? S e.chance e.packet w.server with
      | none => r = .error (.abort .target) ∧ w'.server = w.server
      | some target =>
        w'.server.players = (w.server.acted S e.chance e.packet target).players ∧
        (r = .ok () → ActionEffect S e.chance e.packet target w.server w'.server) ∧
        ((∀ id, id ∈ w.server.players ↔ id ∈ w.server.playerAddresses) → TurnEnds w.server
          (∃ id, Alive (w.server.acted S e.chance e.packet target).players id)
          r w'.server)) := by
  obtain ⟨es, _, hhandled⟩ := handled_of_exec S e.chance e.packet w w' r h
  constructor
  · intro hk
    have hchosen := hhandled.of_job_chosen hk hsender
    refine ⟨hchosen.players, ?_, hchosen.turnEnds⟩
    rintro rfl
    exact hchosen.jobEffect
  · intro hk
    rcases hhandled.of_action_taken hk hsender with
      ⟨htarget, hr, hs, _⟩ | ⟨id, player, es', htarget, hp, hturn, _⟩
    · simp only [htarget]
      exact ⟨hr, hs⟩
    · simp only [htarget]
      refine ⟨hturn.players, ?_, fun hreg ↦ ?_⟩
      · rintro rfl
        obtain ⟨next, hnext, hs⟩ := hturn.afterTurn
        rw [Server.acted_currentPlayerTurn] at hnext
        exact ⟨next, hnext, hs⟩
      · obtain ⟨hunset, hreturns, hhangs, hstays⟩ := hturn.turnEnds (by simpa using hreg)
        rw [Server.acted_currentPlayerTurn, Server.mem_acted_players] at hunset hreturns hhangs
        rw [Server.acted_currentPlayerTurn] at hstays
        exact ⟨hunset, hreturns, hhangs, hstays⟩

/-- Two players are in the main game and the first one has the turn. -/
def firstTurn : World := (outcome (.plain 2) (opening [1, 2])).2

/-- An attack of the second player. -/
def outOfTurn : Event := clientEvent 2 RRPGId.cActionTaken.byte [2]

/-- The attack is out of turn and changes the players. -/
theorem outOfTurn_changes :
    (outcome (.plain 2) (opening [1, 2])).1 = .ok () ∧
    firstTurn.server.gameState = .gsMain ∧
    (Setup.plain 2).id outOfTurn.packet ∈ firstTurn.server.players ∧
    (Setup.plain 2).id outOfTurn.packet ≠ firstTurn.server.currentPlayerTurn ∧
    outOfTurn.packet.kind = some .cActionTaken ∧
    (exec (packetHandler (.plain 2) outOfTurn.chance outOfTurn.packet) firstTurn).2.server.players
      ≠ firstTurn.server.players := by
  decide +kernel

/-- The attack returns, and does what it does in turn. -/
theorem outOfTurn_effect :
    (exec (packetHandler (.plain 2) outOfTurn.chance outOfTurn.packet) firstTurn).1 = .ok () ∧
    ActionEffect (.plain 2) outOfTurn.chance outOfTurn.packet 1 firstTurn.server
      (exec (packetHandler (.plain 2) outOfTurn.chance outOfTurn.packet) firstTurn).2.server := by
  have heffect := (turn_packets_effect (.plain 2) outOfTurn firstTurn _ _ (by decide +kernel)
    rfl).2 (by decide +kernel)
  have htarget : target? (.plain 2) outOfTurn.chance outOfTurn.packet firstTurn.server =
      some 1 := by
    decide +kernel
  rw [htarget] at heffect
  obtain ⟨_, heffect, hends⟩ := heffect
  have halive : ∃ id, Alive
      (firstTurn.server.acted (.plain 2) outOfTurn.chance outOfTurn.packet 1).players id :=
    ⟨2, { name := .ofBytes 256 [], ready := true }, by decide +kernel, rfl⟩
  have hreturns :=
    ((hends (pointerHistory _ _).valid.registered).returns (by decide +kernel)).mpr halive
  exact ⟨hreturns, heffect hreturns⟩

end RRPG
