import RRPG.Server.TurnPackets
import RRPG.Server.TurnSpec

/-!
# Malformed game packets

Neither `OnPlayerActionTaken` nor `OnPlayerJobChosen` looks at whether `Read` succeeded, at
the range of the byte read or at whose turn it is; a target nobody is registered under fails
an assertion, and the turn is passed on in any case. After the start of a game such a packet
leaves the game as it was only when the game is over and there is nobody to pass the turn to.
-/

open RRPG.Base RRPG.Base.Handler

namespace RRPG

/-- A game packet that does not hold what its handler reads: no action or job, or one out of
range, or the name of nobody. -/
def Malformed (S : Setup) (c : Chance) (p : Packet) (s : Server) : Prop :=
  (p.kind = some .cActionTaken ∧ (target? S c p s = none ∨
    ∀ b rest, p.payload.readByte = some (b, rest) → Action.ofByte? b = none)) ∨
  (p.kind = some .cJobChosen ∧
    ∀ b rest, p.payload.readByte = some (b, rest) → CharacterClass.ofByte? b = none)

/-- The handler did not abort, and left the game as it was. -/
structure Tolerated (s : Server) (r : Except Halt Unit) (s' : Server) : Prop where
  sound : ∀ fault, r ≠ .error (.abort fault)
  players : s'.players = s.players
  pointer : s'.currentPlayerTurn = s.currentPlayerTurn
  gameState : s'.gameState = s.gameState

/-- The game is over and the turn cannot leave the winner; an action names somebody and is
none, a job is chosen again and ends the selection again. -/
structure Absorbed (S : Setup) (c : Chance) (p : Packet) (s : Server) : Prop where
  gameOver : s.gameState = .gsGameOver
  alone : ∀ id, Alive s.players id ↔ id = s.currentPlayerTurn
  action : p.kind = some .cActionTaken →
    target? S c p s ≠ none ∧ Action.ofByte? (readAction S c p).1 = none
  job : p.kind = some .cJobChosen → s.players.next? s.currentPlayerTurn = none ∧
    ∃ player, s.players.find? (S.id p) = some player ∧ player.ready = true ∧
      chosenJob p player.job = player.job

/-! ### What cannot go unnoticed -/

/-- A small blow always changes the health, also where it wraps. -/
theorem Player.struck_ne (player : Player) (diff : Int) (hne : diff ≠ 0) (hlo : -18 ≤ diff)
    (hhi : diff ≤ 15) : player.struck diff ≠ player := by
  intro h
  have hhealth : int32 (player.health + diff) = player.health := congrArg Player.health h
  rw [int32, Int.bmod_def] at hhealth
  omega

theorem Action.amount_ne_zero (c : Chance) (a : Action) : a.amount c ≠ 0 := by
  have h := a.allows_amount c
  cases a <;> simp only [Action.Allows] at h <;> omega

theorem acted_eq_self_iff (S : Setup) (c : Chance) (p : Packet) (s : Server) (id : UInt32)
    (player : Player) (h : s.players.find? id = some player) :
    (s.acted S c p id).players = s.players ↔ Action.ofByte? (readAction S c p).1 = none := by
  unfold Server.acted diff?
  cases Action.ofByte? (readAction S c p).1 with
  | none => simp
  | some a =>
    have hmem := a.amount_mem c
    have hne := player.struck_ne (a.amount c) (a.amount_ne_zero c) hmem.1 hmem.2
    simp only [Option.map_some, Server.withPlayer_players, reduceCtorEq, iff_false]
    rwa [OrdMap.adjust_eq_self_iff _ _ _ _ h]

/-- `NextTurn` leaves the pointer only with a sole survivor, and then the game is over. -/
theorem NextTurnDoes.stays_iff {s s' : Server} {r : Except Halt Unit} {es : List Effect}
    (h : NextTurnDoes s r s' es) (hv : s.Valid) (hcur : s.currentPlayerTurn ∈ s.players)
    (halive : ∃ id, Alive s.players id) (gameState : GameState) :
    r = .ok () ∧ (s'.currentPlayerTurn = s.currentPlayerTurn ∧ s'.gameState = gameState ↔
      gameState = .gsGameOver ∧ ∀ id, Alive s.players id ↔ id = s.currentPlayerTurn) := by
  obtain ⟨hr, id, hnext, hcase⟩ := h.of_alive hv hcur halive
  have hself := hnext.eq_start_iff
  refine ⟨hr, ?_⟩
  rcases hcase with ⟨hone, rfl, _⟩ | ⟨hmany, rfl, _⟩
  · constructor
    · rintro ⟨hid, rfl⟩
      exact ⟨rfl, hself.mp hid⟩
    · rintro ⟨rfl, honly⟩
      exact ⟨hself.mpr honly, rfl⟩
  · have hno (honly : ∀ id, Alive s.players id ↔ id = s.currentPlayerTurn) : False :=
      hmany ((living_eq_one s).mpr ⟨_, honly⟩)
    constructor
    · rintro ⟨hid, _⟩
      exact (hno (hself.mp hid)).elim
    · rintro ⟨_, honly⟩
      exact (hno honly).elim

section
variable {S : Setup} {c : Chance} {p : Packet} {s s' : Server} {r : Except Halt Unit}
  {es : List Effect}

/-- Where `NextTurn` is called last, it decides whether a packet goes unnoticed. -/
theorem tolerated_iff_of_nextTurn {t : Server} (h : NextTurnDoes t r s' es) (hv : t.Valid)
    (hcur : t.currentPlayerTurn ∈ t.players) (halive : ∃ id, Alive t.players id)
    (hpointer : t.currentPlayerTurn = s.currentPlayerTurn) :
    Tolerated s r s' ↔ t.players = s.players ∧ s.gameState = .gsGameOver ∧
      ∀ id, Alive t.players id ↔ id = s.currentPlayerTurn := by
  obtain ⟨hr, hstays⟩ := h.stays_iff hv hcur halive s.gameState
  rw [hpointer] at hstays
  constructor
  · intro ht
    exact ⟨h.players ▸ ht.players, hstays.mp ⟨ht.pointer, ht.gameState⟩⟩
  · rintro ⟨hplayers, hrest⟩
    obtain ⟨hid, hstate⟩ := hstays.mpr hrest
    exact ⟨by simp [hr], h.players.trans hplayers, hid, hstate⟩

/-- An action goes unnoticed exactly when it is absorbed. -/
theorem Handled.action_tolerated_iff (h : Handled S c p s r s' es)
    (hk : p.kind = some .cActionTaken) (hsender : S.id p ∈ s.players) (hv : s.Valid)
    (hcur : s.currentPlayerTurn ∈ s.players) (halive : ∃ id, Alive s.players id) :
    Tolerated s r s' ↔ Absorbed S c p s := by
  have hjob : p.kind ≠ some .cJobChosen := by simp [hk]
  rcases h.of_action_taken hk hsender with
    ⟨htarget, hr, _, _⟩ | ⟨id, player, es', htarget, hp, hturn, _⟩
  · constructor
    · intro ht
      exact absurd hr (ht.sound .target)
    · intro ha
      exact absurd htarget (ha.action hk).1
  · have hacted := acted_eq_self_iff S c p s id player hp
    by_cases ha : Action.ofByte? (readAction S c p).1 = none
    · have hsame := hacted.mpr ha
      rw [tolerated_iff_of_nextTurn hturn (hv.acted S c p id) (by simpa [hsame] using hcur)
        (by rwa [hsame]) (s.acted_currentPlayerTurn S c p id), hsame]
      constructor
      · rintro ⟨_, hover, halone⟩
        exact ⟨hover, halone, fun _ ↦ ⟨by simp [htarget], ha⟩, fun hk ↦ absurd hk hjob⟩
      · intro habsorbed
        exact ⟨rfl, habsorbed.gameOver, habsorbed.alone⟩
    · constructor
      · intro ht
        exact absurd (hacted.mp (hturn.players.symm.trans ht.players)) ha
      · intro habsorbed
        exact absurd (habsorbed.action hk).2 ha

/-- A choice goes unnoticed exactly when it is absorbed. -/
theorem Handled.job_tolerated_iff (h : Handled S c p s r s' es)
    (hk : p.kind = some .cJobChosen) (hsender : S.id p ∈ s.players) (hv : s.Valid)
    (hcur : s.currentPlayerTurn ∈ s.players) (halive : ∃ id, Alive s.players id) :
    Tolerated s r s' ↔ Absorbed S c p s := by
  have haction : p.kind ≠ some .cActionTaken := by simp [hk]
  obtain ⟨player, hp⟩ := (s.players.mem_iff_find? _).mp hsender
  have hchosen := h.of_job_chosen hk hsender
  have hv₁ := hv.withPlayer (S.id p) (·.chosen p)
  cases hchosen with
  | unset hunset => exact absurd (by simpa using hcur) hunset
  | passes hcur' id hnext systemAddress haddr =>
    rw [Server.withPlayer_players, OrdMap.next?_adjust] at hnext
    constructor
    · intro ht
      have hlt := ((s.players.next?_eq_some _ id).mp hnext).2.1
      exact absurd ht.pointer (ne_of_gt hlt)
    · intro habsorbed
      have hnone := (habsorbed.job hk).1
      exact absurd (hnext.symm.trans hnone) (by simp)
  | lost hcur' id hnext haddr =>
    exact absurd (hv₁.next_registered hnext) haddr
  | starts hcur' hnext r s' es hturn =>
    rw [Server.withPlayer_players, OrdMap.next?_adjust] at hnext
    have hsame := OrdMap.adjust_eq_self_iff s.players (S.id p) player (·.chosen p) hp
    have hplayer : player.chosen p = player ↔
        player.ready = true ∧ chosenJob p player.job = player.job := by
      obtain ⟨name, health, ready, job, dead⟩ := player
      simp [Player.chosen, eq_comm]
    have hsome : ∃ id, Alive (s.withPlayer (S.id p) (·.chosen p)).players id := by
      simpa only [alive_chosen] using halive
    have htolerated := tolerated_iff_of_nextTurn (s := s) hturn (hv₁.withGameState .gsMain)
      hcur' hsome rfl
    simp only [alive_chosen] at htolerated
    rw [htolerated, Server.withPlayer_players]
    rw [hsame, hplayer]
    constructor
    · rintro ⟨hready, hover, halone⟩
      exact ⟨hover, halone, fun hk ↦ absurd hk haction, fun _ ↦ ⟨hnext, player, hp, hready⟩⟩
    · intro habsorbed
      obtain ⟨_, player', hp', hready⟩ := habsorbed.job hk
      obtain rfl := Option.some.inj (hp.symm.trans hp')
      exact ⟨hready, habsorbed.gameOver, habsorbed.alone⟩

end

/-- In every state reached after the start of a game, a game packet from a registered player,
malformed or not, neither aborts the handler nor changes players, pointer or game state
exactly when it is absorbed. -/
theorem game_packet_tolerated_iff (S : Setup) (events : List Event) (w w' : World)
    (r : Except Halt Unit) (e : Event) (hreach : outcome S events = (.ok (), w))
    (hstarted : ∃ t, (.startGame, t) ∈ entries w.trace)
    (hsender : S.id e.packet ∈ w.server.players)
    (hk : e.packet.kind = some .cActionTaken ∨ e.packet.kind = some .cJobChosen)
    (h : exec (packetHandler S e.chance e.packet) w = (r, w')) :
    Tolerated w.server r w'.server ↔ Absorbed S e.chance e.packet w.server := by
  have hpointer := pointerHistory S events
  rw [hreach] at hpointer
  have hcur := hpointer.valid.pointer (hpointer.started hstarted)
  have halive := (somebodyAlive_outcome S events w hreach).alive ⟨_, hcur⟩
  obtain ⟨es, _, hhandled⟩ := handled_of_exec S e.chance e.packet w w' r h
  rcases hk with hk | hk
  · exact hhandled.action_tolerated_iff hk hsender hpointer.valid hcur halive
  · exact hhandled.job_tolerated_iff hk hsender hpointer.valid hcur halive

/-- The winner takes an action that is none. -/
def idleWinner : Event := clientEvent 1 RRPGId.cActionTaken.byte [9]

/-- Nothing changes when the winner does so. -/
theorem idleWinner_tolerated : Tolerated won.server
    (exec (packetHandler (.plain 1) idleWinner.chance idleWinner.packet) won).1
    (exec (packetHandler (.plain 1) idleWinner.chance idleWinner.packet) won).2.server := by
  apply (game_packet_tolerated_iff (.plain 1) (opening [1]) won _ _ idleWinner
    (Prod.ext (by decide +kernel) rfl) won_started (by decide +kernel)
    (Or.inl (by decide +kernel)) rfl).mpr
  obtain ⟨id, hid⟩ := (living_eq_one won.server).mp (by decide +kernel)
  have hwinner : Alive won.server.players won.server.currentPlayerTurn := by
    have hplayer : ((won.server.players.find? won.server.currentPlayerTurn).map Player.dead) =
        some false := by
      decide +kernel
    exact Option.map_eq_some_iff.mp hplayer
  obtain rfl := (hid _).mp hwinner
  exact ⟨by decide +kernel, hid, fun _ ↦ by decide +kernel,
    fun hk ↦ absurd hk (by decide +kernel)⟩

/-- An attack on somebody nobody knows. -/
def unknownTarget : Event := clientEvent 1 RRPGId.cActionTaken.byte (2 :: ascii "X")

/-- An action that is none, on somebody. -/
def unknownAction : Event := clientEvent 1 RRPGId.cActionTaken.byte [9]

private theorem firstTurn_started : ∃ t, (.startGame, t) ∈ entries firstTurn.trace :=
  exists_entry (by decide +kernel)

/-- In the main game of two players without names, the one fails the assertion and the other
uses up the turn. -/
theorem malformed_not_tolerated :
    outcome (.plain 2) (opening [1, 2]) = (.ok (), firstTurn) ∧
    (∃ t, (.startGame, t) ∈ entries firstTurn.trace) ∧
    (Setup.plain 2).id unknownTarget.packet ∈ firstTurn.server.players ∧
    Malformed (.plain 2) unknownTarget.chance unknownTarget.packet firstTurn.server ∧
    ¬ Tolerated firstTurn.server
      (exec (packetHandler (.plain 2) unknownTarget.chance unknownTarget.packet) firstTurn).1
      (exec (packetHandler (.plain 2) unknownTarget.chance unknownTarget.packet)
        firstTurn).2.server ∧
    Malformed (.plain 2) unknownAction.chance unknownAction.packet firstTurn.server ∧
    ¬ Tolerated firstTurn.server
      (exec (packetHandler (.plain 2) unknownAction.chance unknownAction.packet) firstTurn).1
      (exec (packetHandler (.plain 2) unknownAction.chance unknownAction.packet)
        firstTurn).2.server := by
  refine ⟨Prod.ext (by decide +kernel) rfl, firstTurn_started, by decide +kernel,
    .inl ⟨by decide +kernel, .inl (by decide +kernel)⟩, fun h ↦ ?_,
    .inl ⟨by decide +kernel, .inr ?_⟩, fun h ↦ ?_⟩
  · exact h.sound .target (by decide +kernel)
  · intro b rest hread
    have hbyte : unknownAction.packet.payload.readByte = some (9, []) := by decide +kernel
    obtain ⟨rfl, -⟩ := Prod.mk.inj (Option.some.inj (hbyte.symm.trans hread))
    rfl
  · exact absurd h.pointer (by decide +kernel)

end RRPG
