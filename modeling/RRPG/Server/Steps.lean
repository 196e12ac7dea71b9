import RRPG.Server.Turn

/-!
# Handling a packet, case by case

What each handler does to the server and for the game proper, as a relation with one
constructor for each way through it. Every packet from every state is covered, and all
facts about runs are derived from these relations.
-/

open RRPG.Base RRPG.Base.Handler

namespace RRPG

/-! ### Changes of state -/

/-- The server after a change to one player. -/
def Server.withPlayer (s : Server) (id : UInt32) (f : Player → Player) : Server :=
  { s with players := s.players.adjust id f }

/-- A player whose health changed; falling to zero or below is remembered for good. -/
def Player.struck (player : Player) (diff : Int) : Player :=
  { player with
    health := int32 (player.health + diff)
    dead := player.dead || decide (int32 (player.health + diff) ≤ 0) }

/-- A player who chose the job in a packet. -/
def Player.chosen (p : Packet) (player : Player) : Player :=
  { player with ready := true, job := chosenJob p player.job }

/-- The server when `StartGame` hands out the first turn. -/
def Server.started (s : Server) (first : UInt32) : Server :=
  { s with
    networkState := .nsGameStarted
    gameState := .gsCharacterSelect
    players := s.players.mapVal fun _ player ↦ { player with ready := false }
    currentPlayerTurn := first }

/-- What an action adds to its target's health. -/
def Action.amount (c : Chance) : Action → Int
  | heal => 10
  | healRng => c.getRandomInteger 5 15
  | attack => -12
  | atkRng => -c.getRandomInteger 6 18

/-- An action takes at most 18 and gives at most 15. -/
theorem Action.amount_mem (c : Chance) (a : Action) : -18 ≤ a.amount c ∧ a.amount c ≤ 15 := by
  have hheal := c.getRandomInteger_mem 5 15 (by omega)
  have hatk := c.getRandomInteger_mem 6 18 (by omega)
  cases a <;> simp only [Action.amount] <;> omega

variable (S : Setup) (c : Chance) (p : Packet)

/-- What the action in a packet adds to its target's health, if it is one. -/
def diff? : Option Int := (Action.ofByte? (readAction S c p).1).map (Action.amount c)

/-- The player the action in a packet is aimed at. -/
def target? (s : Server) : Option UInt32 := s.getPlayerWithName (readAction S c p).2

/-- The server after the action in a packet was applied to a player. -/
def Server.acted (s : Server) (id : UInt32) : Server :=
  match diff? S c p with
  | none => s
  | some diff => s.withPlayer id (·.struck diff)

/-- The server after an introduction. -/
def Server.joined (s : Server) : Server :=
  { s with
    totalConnections :=
      if S.expectedPlayers < s.totalConnections.toUInt32 then s.totalConnections - 1
      else s.totalConnections
    playerAddresses := s.playerAddresses.emplace (S.id p) p.systemAddress
    players := s.players.emplace (S.id p) { name := (S.decodeString 256 p.payload).1 } }

/-- What a low level packet does to the number of connections. -/
def DefaultMessageId.count (i : DefaultMessageId) (totalConnections : UInt16) : UInt16 :=
  match i with
  | idRemoteDisconnectionNotification | idRemoteConnectionLost => totalConnections - 1
  | idNewIncomingConnection | idRemoteNewIncomingConnection => totalConnections + 1
  | _ => totalConnections

section
variable (s : Server) (id : UInt32) (f : Player → Player)

@[simp] theorem Server.withPlayer_players :
    (s.withPlayer id f).players = s.players.adjust id f := rfl

@[simp] theorem Server.withPlayer_playerAddresses :
    (s.withPlayer id f).playerAddresses = s.playerAddresses := rfl

@[simp] theorem Server.withPlayer_currentPlayerTurn :
    (s.withPlayer id f).currentPlayerTurn = s.currentPlayerTurn := rfl

@[simp] theorem Server.withPlayer_networkState :
    (s.withPlayer id f).networkState = s.networkState := rfl

@[simp] theorem Server.withPlayer_gameState :
    (s.withPlayer id f).gameState = s.gameState := rfl

@[simp] theorem Server.withPlayer_totalConnections :
    (s.withPlayer id f).totalConnections = s.totalConnections := rfl

theorem Server.withPlayer_withPlayer (g : Player → Player) :
    (s.withPlayer id f).withPlayer id g = s.withPlayer id (g ∘ f) := by
  unfold withPlayer
  congr 1
  apply OrdMap.ext_find?
  intro k
  by_cases hk : k = id <;> simp [OrdMap.find?_adjust, hk, Option.map_map]

@[simp] theorem Server.acted_playerAddresses :
    (s.acted S c p id).playerAddresses = s.playerAddresses := by
  unfold acted
  split <;> rfl

@[simp] theorem Server.acted_currentPlayerTurn :
    (s.acted S c p id).currentPlayerTurn = s.currentPlayerTurn := by
  unfold acted
  split <;> rfl

@[simp] theorem Server.acted_networkState :
    (s.acted S c p id).networkState = s.networkState := by
  unfold acted
  split <;> rfl

@[simp] theorem Server.acted_gameState :
    (s.acted S c p id).gameState = s.gameState := by
  unfold acted
  split <;> rfl

@[simp] theorem Server.keys_acted_players :
    (s.acted S c p id).players.keys = s.players.keys := by
  unfold acted
  split
  · rfl
  · exact OrdMap.keys_adjust _ _ _

@[simp] theorem Server.mem_acted_players (j : UInt32) :
    j ∈ (s.acted S c p id).players ↔ j ∈ s.players := by
  rw [OrdMap.mem_def, Server.keys_acted_players, OrdMap.mem_def]

end

/-! ### Identifiers -/

/-- The identifier `GetPacketIdentifier` reads, `none` where its assertion fails. -/
def Packet.identifier : Option UInt8 :=
  if p.data.head p.data_ne = idTimestamp then p.data[9]? else some (p.data.head p.data_ne)

/-- The application's identifier of a packet, if it has one. -/
def Packet.kind : Option RRPGId := p.identifier.bind RRPGId.ofByte?

/-- The library's identifier of a packet, if the server tests for it. -/
def Packet.lowLevel : Option DefaultMessageId := p.identifier.bind DefaultMessageId.ofByte?

/-- A packet is the application's or the library's, not both. -/
theorem Packet.lowLevel_of_kind (k : RRPGId) (h : p.kind = some k) : p.lowLevel = none := by
  obtain ⟨b, hb, hk⟩ := Option.bind_eq_some_iff.mp h
  rw [Packet.lowLevel, hb, Option.bind_some, ← (RRPGId.ofByte?_eq_some b k).mp hk]
  exact RRPGId.byte_not_low_level k

theorem exec_getPacketIdentifier (w : World) (b : UInt8) (h : p.identifier = some b) :
    exec (getPacketIdentifier p) w = (.ok b, w) := by
  unfold getPacketIdentifier
  unfold Packet.identifier at h
  split at h
  · next ht =>
    rw [if_pos ht, h]
    exact exec_pure b w
  · next ht =>
    rw [if_neg ht, Option.some.inj h]
    exact exec_pure b w

theorem exec_getPacketIdentifier_none (w : World) (h : p.identifier = none) :
    exec (getPacketIdentifier p) w = (.error (.abort .timestamp), w) := by
  unfold getPacketIdentifier
  unfold Packet.identifier at h
  split at h
  · next ht =>
    rw [if_pos ht, h]
    exact exec_throw _ w
  · next ht => cases h

theorem getPacketIdentifier_does (s : Server) (b : UInt8) (h : p.identifier = some b) :
    Does (getPacketIdentifier p) s (.ok b) s [] :=
  fun trace ↦ ⟨[], by rw [exec_getPacketIdentifier p _ b h, List.append_nil], rfl⟩

theorem getPacketIdentifier_aborts (s : Server) (h : p.identifier = none) :
    Does (getPacketIdentifier p) s (.error (.abort .timestamp)) s [] :=
  fun trace ↦ ⟨[], by rw [exec_getPacketIdentifier_none p _ h, List.append_nil], rfl⟩

theorem isLowLevelPacketHandled_does (s : Server) (b : UInt8) (i : DefaultMessageId)
    (h : DefaultMessageId.ofByte? b = some i) :
    Does (isLowLevelPacketHandled b) s (.ok true)
      { s with totalConnections := i.count s.totalConnections } [] := by
  unfold isLowLevelPacketHandled
  rw [h]
  cases i
  case idRemoteDisconnectionNotification | idRemoteConnectionLost |
      idNewIncomingConnection | idRemoteNewIncomingConnection =>
    exact (does_update _ s).bind (Does.pure true _)
  all_goals exact Does.pure true s

theorem isLowLevelPacketHandled_passes (s : Server) (b : UInt8)
    (h : DefaultMessageId.ofByte? b = none) :
    Does (isLowLevelPacketHandled b) s (.ok false) s [] := by
  unfold isLowLevelPacketHandled
  rw [h]
  exact Does.pure false s

/-! ### The game -/

/-- Losing health and dying of it are one change of the player. -/
theorem Server.withPlayer_struck (s : Server) (id : UInt32) (player : Player) (diff : Int)
    (h : s.players.find? id = some player) :
    s.withPlayer id (·.struck diff) = s.withPlayer id fun q ↦
      { q with
        health := int32 (q.health + diff)
        dead := if int32 (player.health + diff) ≤ 0 then true else q.dead } := by
  unfold Server.withPlayer
  congr 1
  apply OrdMap.ext_find?
  intro k
  by_cases hk : k = id
  · subst hk
    by_cases hdead : int32 (player.health + diff) ≤ 0 <;> simp [h, Player.struck, hdead]
  · simp [OrdMap.find?_adjust, hk]

theorem exec_updatePlayer (w : World) (id : UInt32) (f : Player → Player) :
    exec (updatePlayer id f) w = (.ok (), { w with server := w.server.withPlayer id f }) := by
  simp [updatePlayer, Server.withPlayer]

/-- `ModifyHealth` strikes the player and reports the health it leaves. -/
theorem exec_modifyHealth (w : World) (id : UInt32) (player : Player) (diff : Int)
    (h : w.server.players.find? id = some player) :
    exec (modifyHealth id diff) w = (.ok (), ⟨w.server.withPlayer id (·.struck diff),
      w.trace ++ [⟨.send .all (.updatePlayerHp player.name (player.struck diff).health),
        w.server.withPlayer id (·.struck diff)⟩]⟩) := by
  let hit : Player → Player := fun q ↦ { q with health := int32 (q.health + diff) }
  have hderef : exec (deref (some id)) ⟨w.server.withPlayer id hit, w.trace⟩ =
      (.ok (id, hit player), ⟨w.server.withPlayer id hit, w.trace⟩) := by
    simp [deref, h]
  rw [w.server.withPlayer_struck id player diff h]
  unfold modifyHealth
  rw [exec_bind, exec_updatePlayer, andThen_ok, exec_bind, hderef, andThen_ok]
  show exec (if int32 (player.health + diff) ≤ 0 then
      updatePlayer id (fun q ↦ { q with dead := true }) >>= fun _ ↦
        send .all (.updatePlayerHp player.name (player.struck diff).health)
    else send .all (.updatePlayerHp player.name (player.struck diff).health)) _ = _
  by_cases hdead : int32 (player.health + diff) ≤ 0
  · simp only [if_pos hdead]
    rw [exec_bind, exec_updatePlayer, andThen_ok, send, exec_emit, Server.withPlayer_withPlayer]
    rfl
  · simp only [if_neg hdead]
    rw [send, exec_emit]

theorem modifyHealth_does (s : Server) (id : UInt32) (player : Player) (diff : Int)
    (h : s.players.find? id = some player) :
    Does (modifyHealth id diff) s (.ok ()) (s.withPlayer id (·.struck diff))
      [⟨.send .all (.updatePlayerHp player.name (player.struck diff).health),
        s.withPlayer id (·.struck diff)⟩] :=
  fun trace ↦ ⟨_, exec_modifyHealth ⟨s, trace⟩ id player diff h, by simp⟩

/-- `StartMainGame` reports the table and goes on with `NextTurn`. -/
theorem startMainGame_does (s : Server) : ∃ r s' es,
    NextTurnDoes { s with gameState := .gsMain } r s' es ∧
    Does startMainGame s r s' (⟨.enter .startMainGame, s⟩ ::
      ⟨.send .all (.updateGameState .gsMain (some s.records)), { s with gameState := .gsMain }⟩ ::
      ⟨.enter .nextTurn, { s with gameState := .gsMain }⟩ :: es) := by
  obtain ⟨r, s', es, hturn, hdoes⟩ := nextTurn_does { s with gameState := .gsMain }
  exact ⟨r, s', es, hturn, (does_emit _ s).bind <| (does_update _ s).bind <|
    (does_getServer _).bind <| (does_send _ _ _).bind hdoes⟩

/-- What `StartGame` can do from `s`. -/
inductive StartGameDoes (s : Server) : Except Halt Unit → Server → List Effect → Prop
  | empty (h : s.players.begin? = none) :
    StartGameDoes s (.error (.abort .derefEnd)) { s with
        networkState := .nsGameStarted
        gameState := .gsCharacterSelect
        players := s.players.mapVal fun _ player ↦ { player with ready := false } }
      [⟨.enter .startGame, s⟩,
        ⟨.send .all .gameStarted,
          { s with networkState := .nsGameStarted, gameState := .gsCharacterSelect }⟩]
  | passes (first : UInt32) (h : s.players.begin? = some first)
      (systemAddress : SystemAddress)
      (haddr : s.playerAddresses.find? first = some systemAddress) :
    StartGameDoes s (.ok ()) (s.started first)
      [⟨.enter .startGame, s⟩,
        ⟨.send .all .gameStarted,
          { s with networkState := .nsGameStarted, gameState := .gsCharacterSelect }⟩,
        ⟨.send (.system systemAddress) .takeTurn, s.started first⟩]
  | lost (first : UInt32) (h : s.players.begin? = some first)
      (haddr : first ∉ s.playerAddresses) :
    StartGameDoes s (.error (.abort (.getAddressFromID first))) (s.started first)
      [⟨.enter .startGame, s⟩,
        ⟨.send .all .gameStarted,
          { s with networkState := .nsGameStarted, gameState := .gsCharacterSelect }⟩]

theorem StartGameDoes.entries {s s' : Server} {r : Except Halt Unit} {es : List Effect}
    (h : StartGameDoes s r s' es) : entries es = [(.startGame, s)] := by
  cases h <;> simp

/-- `StartGame` has one outcome. -/
theorem StartGameDoes.unique {s s₁ s₂ : Server} {r₁ r₂ : Except Halt Unit}
    {es₁ es₂ : List Effect} (h₁ : StartGameDoes s r₁ s₁ es₁) (h₂ : StartGameDoes s r₂ s₂ es₂) :
    r₁ = r₂ ∧ s₁ = s₂ := by
  have hmem {id : UInt32} {systemAddress : SystemAddress}
      (h : s.playerAddresses.find? id = some systemAddress) : id ∈ s.playerAddresses :=
    (OrdMap.mem_iff_find? _ _).mpr ⟨_, h⟩
  cases h₁ with
  | empty hb =>
    cases h₂ with
    | empty _ => exact ⟨rfl, rfl⟩
    | passes first hb' | lost first hb' => simp [hb] at hb'
  | passes first hb systemAddress haddr =>
    cases h₂ with
    | empty hb' => simp [hb] at hb'
    | passes first' hb' systemAddress' haddr' =>
      obtain rfl := Option.some.inj (hb.symm.trans hb')
      exact ⟨rfl, rfl⟩
    | lost first' hb' haddr' =>
      obtain rfl := Option.some.inj (hb.symm.trans hb')
      exact absurd (hmem haddr) haddr'
  | lost first hb haddr =>
    cases h₂ with
    | empty hb' => simp [hb] at hb'
    | passes first' hb' systemAddress' haddr' =>
      obtain rfl := Option.some.inj (hb.symm.trans hb')
      exact absurd (hmem haddr') haddr
    | lost first' hb' haddr' =>
      obtain rfl := Option.some.inj (hb.symm.trans hb')
      exact ⟨rfl, rfl⟩

theorem startGame_does (s : Server) : ∃ r s' es, StartGameDoes s r s' es ∧
    Does startGame s r s' es := by
  let reset : OrdMap UInt32 Player :=
    s.players.mapVal fun _ player ↦ { player with ready := false }
  let s₁ : Server := { s with networkState := .nsGameStarted, gameState := .gsCharacterSelect }
  let s₂ : Server := { s₁ with players := reset }
  have hbegin : s₂.players.begin? = s.players.begin? := by simp [s₂, reset]
  cases hb : s.players.begin? with
  | none =>
    refine ⟨_, _, _, .empty hb, ?_⟩
    apply (does_emit _ s).bind
    apply (does_update _ s).bind
    apply (does_send _ _ s₁).bind
    apply (does_update _ s₁).bind
    apply (does_getServer s₂).bind
    rw [hbegin, hb]
    exact (does_deref_none s₂).bind_error
  | some first =>
    obtain ⟨player, hp⟩ := (s₂.players.mem_iff_find? first).mp
      ((s₂.players.begin?_eq_some first).mp (hbegin.trans hb)).1
    -- what comes before the turn is handed out
    have hstarted {r : Except Halt Unit} {s' : Server} {es : List Effect}
        (hturn : Does sendTakeTurn (s.started first) r s' es) :
        Does startGame s r s'
          (⟨.enter .startGame, s⟩ :: ⟨.send .all .gameStarted, s₁⟩ :: es) := by
      apply (does_emit _ s).bind
      apply (does_update _ s).bind
      apply (does_send _ _ s₁).bind
      apply (does_update _ s₁).bind
      apply (does_getServer s₂).bind
      rw [hbegin, hb]
      apply (does_deref_some first player s₂ hp).bind
      apply (does_update _ s₂).bind
      exact hturn
    by_cases haddr : first ∈ s.playerAddresses
    · obtain ⟨systemAddress, haddr⟩ := (s.playerAddresses.mem_iff_find? first).mp haddr
      exact ⟨_, _, _, .passes first hb systemAddress haddr,
        hstarted (sendTakeTurn_does (s.started first) systemAddress haddr)⟩
    · exact ⟨_, _, _, .lost first hb haddr,
        hstarted (sendTakeTurn_aborts (s.started first) haddr)⟩

/-- What `OnPlayerJobChosen` can do once the choice is stored. -/
inductive ChosenDoes (s : Server) : Except Halt Unit → Server → List Effect → Prop
  | unset (hcur : s.currentPlayerTurn ∉ s.players) :
    ChosenDoes s (.error (.abort .advanceEnd)) s []
  | passes (hcur : s.currentPlayerTurn ∈ s.players) (id : UInt32)
      (hnext : s.players.next? s.currentPlayerTurn = some id)
      (systemAddress : SystemAddress)
      (haddr : s.playerAddresses.find? id = some systemAddress) :
    ChosenDoes s (.ok ()) { s with currentPlayerTurn := id }
      [⟨.send (.system systemAddress) .takeTurn, { s with currentPlayerTurn := id }⟩]
  | lost (hcur : s.currentPlayerTurn ∈ s.players) (id : UInt32)
      (hnext : s.players.next? s.currentPlayerTurn = some id)
      (haddr : id ∉ s.playerAddresses) :
    ChosenDoes s (.error (.abort (.getAddressFromID id))) { s with currentPlayerTurn := id } []
  | starts (hcur : s.currentPlayerTurn ∈ s.players)
      (hnext : s.players.next? s.currentPlayerTurn = none)
      (r : Except Halt Unit) (s' : Server) (es : List Effect)
      (hturn : NextTurnDoes { s with gameState := .gsMain } r s' es) :
    ChosenDoes s r s' (⟨.enter .startMainGame, s⟩ ::
      ⟨.send .all (.updateGameState .gsMain (some s.records)), { s with gameState := .gsMain }⟩ ::
      ⟨.enter .nextTurn, { s with gameState := .gsMain }⟩ :: es)

theorem onPlayerJobChosen_does (s : Server) (player : Player)
    (h : s.players.find? (S.id p) = some player) : ∃ r s' es,
    ChosenDoes (s.withPlayer (S.id p) (·.chosen p)) r s' es ∧
    Does (onPlayerJobChosen S p) s r s' es := by
  let s₁ := s.withPlayer (S.id p) (·.chosen p)
  have hs : (s.withPlayer (S.id p) fun player ↦ { player with ready := true }).withPlayer
      (S.id p) (fun player ↦ { player with job := chosenJob p player.job }) = s₁ :=
    Server.withPlayer_withPlayer s (S.id p) _ _
  have hp : s₁.players.find? (S.id p) = some (player.chosen p) := by simp [s₁, h]
  -- what comes before the pointer is read
  have hstore {r : Except Halt Unit} {s' : Server} {es : List Effect} (text : Player → Bytes)
      (rest : ServerM Unit) (hrest : Does rest s₁ r s' es) :
      Does (do
        let _ ← getPlayer (S.id p)
        updatePlayer (S.id p) fun player ↦ { player with ready := true }
        updatePlayer (S.id p) fun player ↦ { player with job := chosenJob p player.job }
        let player ← getPlayer (S.id p)
        broadcastMessage (text player)
        rest) s r s' es := by
    apply (does_getPlayer _ player s h).bind
    apply (does_updatePlayer _ _ s).bind
    apply (does_updatePlayer _ _ _).bind
    show Does _ ((s.withPlayer (S.id p) fun player ↦ { player with ready := true }).withPlayer
      (S.id p) (fun player ↦ { player with job := chosenJob p player.job })) _ _ _
    rw [hs]
    exact (does_getPlayer _ _ s₁ hp).bind <| (does_broadcastMessage _ s₁).bind hrest
  have hfind := does_findPlayer s₁.currentPlayerTurn s₁
  by_cases hcur : s₁.currentPlayerTurn ∈ s₁.players
  · rw [if_pos hcur] at hfind
    cases hnext : s₁.players.next? s₁.currentPlayerTurn with
    | none =>
      obtain ⟨r, s', es, hturn, hdoes⟩ := startMainGame_does s₁
      refine ⟨r, s', _, .starts hcur hnext r s' es hturn, hstore _ _ ?_⟩
      apply (does_getServer s₁).bind
      apply hfind.bind
      apply (does_increment_some _ s₁).bind
      rw [hnext]
      exact hdoes
    | some id =>
      by_cases haddr : id ∈ s₁.playerAddresses
      · obtain ⟨systemAddress, haddr⟩ := (s₁.playerAddresses.mem_iff_find? id).mp haddr
        refine ⟨_, _, _, .passes hcur id hnext systemAddress haddr, hstore _ _ ?_⟩
        apply (does_getServer s₁).bind
        apply hfind.bind
        apply (does_increment_some _ s₁).bind
        rw [hnext]
        exact (does_update _ s₁).bind <|
          sendTakeTurn_does { s₁ with currentPlayerTurn := id } systemAddress haddr
      · refine ⟨_, _, _, .lost hcur id hnext haddr, hstore _ _ ?_⟩
        apply (does_getServer s₁).bind
        apply hfind.bind
        apply (does_increment_some _ s₁).bind
        rw [hnext]
        exact (does_update _ s₁).bind <|
          sendTakeTurn_aborts { s₁ with currentPlayerTurn := id } haddr
  · rw [if_neg hcur] at hfind
    refine ⟨_, _, _, .unset hcur, hstore _ _ ?_⟩
    exact (does_getServer s₁).bind <| hfind.bind (does_increment_none s₁).bind_error

/-- A target is registered under the name sent. -/
theorem target?_eq_some (s : Server) (id : UInt32) (h : target? S c p s = some id) :
    ∃ player, s.players.find? id = some player ∧ player.name = (readAction S c p).2 := by
  obtain ⟨⟨player, hp, hname⟩, _⟩ := (OrdMap.findKey?_eq_some s.players
    (fun player ↦ player.name = (readAction S c p).2) id).mp h
  exact ⟨player, hp, by simpa using hname⟩

/-- What an action reports. -/
def actionReport (s : Server) (id : UInt32) (player : Player) : List Effect :=
  match diff? S c p with
  | none => []
  | some diff =>
    [⟨.send .all (.updatePlayerHp player.name (player.struck diff).health), s.acted S c p id⟩]

@[simp] theorem turns_actionReport (s : Server) (id : UInt32) (player : Player) :
    turns (actionReport S c p s id player) = [] := by
  unfold actionReport
  split <;> simp

@[simp] theorem entries_actionReport (s : Server) (id : UInt32) (player : Player) :
    entries (actionReport S c p s id player) = [] := by
  unfold actionReport
  split <;> simp

/-- `OnPlayerActionTaken` reports the new health, if the action is one, and goes on with
`NextTurn`. -/
theorem onPlayerActionTaken_does (s : Server) (hsender : S.id p ∈ s.players) (id : UInt32)
    (player : Player) (htarget : target? S c p s = some id)
    (hp : s.players.find? id = some player) : ∃ r s' es,
    NextTurnDoes (s.acted S c p id) r s' es ∧
    Does (onPlayerActionTaken S c p) s r s'
      (actionReport S c p s id player ++ ⟨.enter .nextTurn, s.acted S c p id⟩ :: es) := by
  obtain ⟨r, s', es, hturn, hdoes⟩ := nextTurn_does (s.acted S c p id)
  refine ⟨r, s', es, hturn, ?_⟩
  obtain ⟨origin, ho⟩ := (s.players.mem_iff_find? _).mp hsender
  unfold Server.acted diff? at hdoes
  unfold target? at htarget
  unfold onPlayerActionTaken actionReport Server.acted diff?
  rcases hread : readAction S c p with ⟨action, tname⟩
  rw [hread] at htarget hdoes
  apply (does_getServer s).bind
  simp only at htarget hdoes ⊢
  rw [htarget]
  apply (does_getPlayer _ origin s ho).bind
  apply (does_deref_some id player s hp).bind
  cases ha : Action.ofByte? action with
  | none =>
    rw [ha] at hdoes
    exact hdoes
  | some a =>
    rw [ha] at hdoes
    cases a <;>
      exact (does_broadcastMessage _ s).bind <| (modifyHealth_does s id player _ hp).bind hdoes

/-- On an unregistered name the assertion fails. -/
theorem exec_onPlayerActionTaken_misses (w : World) (origin : Player)
    (ho : w.server.players.find? (S.id p) = some origin)
    (htarget : target? S c p w.server = none) :
    exec (onPlayerActionTaken S c p) w = (.error (.abort .target), w) := by
  have horigin : exec (getPlayer (S.id p)) w = (.ok origin, w) := by simp [getPlayer, ho]
  unfold target? at htarget
  unfold onPlayerActionTaken
  rcases hread : readAction S c p with ⟨action, tname⟩
  rw [hread] at htarget
  rw [exec_bind, exec_getServer, andThen_ok]
  simp only at htarget ⊢
  rw [htarget, exec_bind, horigin, andThen_ok]
  rfl

theorem onPlayerActionTaken_misses (s : Server) (hsender : S.id p ∈ s.players)
    (htarget : target? S c p s = none) :
    Does (onPlayerActionTaken S c p) s (.error (.abort .target)) s [] := by
  obtain ⟨origin, ho⟩ := (s.players.mem_iff_find? _).mp hsender
  intro trace
  refine ⟨[], ?_, rfl⟩
  rw [exec_onPlayerActionTaken_misses S c p ⟨s, trace⟩ origin ho htarget, List.append_nil]

end RRPG
