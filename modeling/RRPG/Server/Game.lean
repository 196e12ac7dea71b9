import RRPG.Base.While
import RRPG.Server.State

/-!
# The game

`Server::StartGame`, `OnPlayerJobChosen`, `StartMainGame`, `OnPlayerActionTaken`,
`ModifyHealth`, `NextTurn` and `GameOver` (`RRPG Server/server.cpp`).
-/

open RRPG.Base

namespace RRPG

/-- `std::count_if` over `players` in `NextTurn`. -/
def Server.living (s : Server) : Nat := s.players.count (fun player ↦ player.dead == false)

/-- `Server::GameOver`. -/
def gameOver (winnerId : UInt32) : ServerM Unit := do
  emit (.enter (.gameOver winnerId))
  update fun s ↦ { s with gameState := .gsGameOver }
  let player ← getPlayer winnerId
  broadcastMessage (snprintf 256 (player.name.bytes ++ ascii " wins!"))
  send .all (.updateGameState .gsGameOver none)

/-- Send `S_TAKE_TURN` to `GetAddressFromID(currentPlayerTurn)`. -/
def sendTakeTurn : ServerM Unit := do
  let systemAddress ← getAddressFromID (← getServer).currentPlayerTurn
  send (.system systemAddress) .takeTurn

/-- The condition of `NextTurn`'s loop: the iterator is at the end, or at a dead player. -/
def endOrDead (players : OrdMap UInt32 Player) : Option UInt32 → Bool
  | none => true
  | some id => (players.find? id).any Player.dead

/-- The body of `NextTurn`'s loop. -/
def advance (players : OrdMap UInt32 Player) : Option UInt32 → Option UInt32
  | none => players.begin?
  | some id => players.next? id

/-- `Server::NextTurn`. Its loop has no bound; the number of passes allowed here reaches
every position twice, and running out of them means that the loop never ends
(`nextTurn_hang_iff`). -/
def nextTurn : ServerM Unit := do
  emit (.enter .nextTurn)
  let it ← findPlayer (← getServer).currentPlayerTurn
  let it ← increment it
  let players := (← getServer).players
  match runWhile (endOrDead players) (advance players) (2 * players.size + 1) it with
  | none => throw .hang
  | some it => do
    let (id, player) ← deref it
    update fun s ↦ { s with currentPlayerTurn := id }
    let s ← getServer
    if s.living = 1 then
      gameOver s.currentPlayerTurn
    else do
      broadcastMessage (snprintf 256 (player.name.bytes ++ ascii "'s turn"))
      sendTakeTurn

/-- The table `StartMainGame` writes. -/
def Server.records (s : Server) : List PlayerRecord :=
  s.players.entries.map fun e ↦ ⟨e.2.name, e.2.health, e.2.ready, e.2.job⟩

/-- `Server::StartMainGame`. -/
def startMainGame : ServerM Unit := do
  emit (.enter .startMainGame)
  update fun s ↦ { s with gameState := .gsMain }
  send .all (.updateGameState .gsMain (some (← getServer).records))
  nextTurn

/-- `Server::StartGame`. -/
def startGame : ServerM Unit := do
  emit (.enter .startGame)
  update fun s ↦ { s with networkState := .nsGameStarted, gameState := .gsCharacterSelect }
  send .all .gameStarted
  update fun s ↦ { s with players := s.players.mapVal (fun _ p ↦ { p with ready := false }) }
  let (id, _) ← deref (← getServer).players.begin?
  update fun s ↦ { s with currentPlayerTurn := id }
  sendTakeTurn

/-- `Server::ModifyHealth`; the player is given by its key. A dead player stays dead. -/
def modifyHealth (id : UInt32) (diff : Int) : ServerM Unit := do
  updatePlayer id fun p ↦ { p with health := int32 (p.health + diff) }
  let (_, player) ← deref (some id)
  if player.health ≤ 0 then
    updatePlayer id fun p ↦ { p with dead := true }
  send .all (.updatePlayerHp player.name player.health)

variable (S : Setup)

/-- The job a `C_JOB_CHOSEN` carries; a packet without one leaves the player's job. -/
def chosenJob (p : Packet) (job : UInt8) : UInt8 := ((p.payload.readByte).map Prod.fst).getD job

/-- `Server::OnPlayerJobChosen`. -/
def onPlayerJobChosen (p : Packet) : ServerM Unit := do
  let _ ← getPlayer (S.id p)
  updatePlayer (S.id p) fun player ↦ { player with ready := true }
  updatePlayer (S.id p) fun player ↦ { player with job := chosenJob p player.job }
  let player ← getPlayer (S.id p)
  broadcastMessage (snprintf 1024
    (player.name.bytes ++ ascii " has chosen to be a " ++ getStringFromClass player.job
      ++ ascii "\n"))
  let it ← findPlayer (← getServer).currentPlayerTurn
  let it ← increment it
  match it with
  | none => startMainGame
  | some id => do
    update fun s ↦ { s with currentPlayerTurn := id }
    sendTakeTurn

/-- The action byte and the target name of a `C_ACTION_TAKEN`: `Read` leaves the local
`action` as it was when the packet is too short. -/
def readAction (c : Chance) (p : Packet) : UInt8 × Name :=
  match p.payload.readByte with
  | some (action, bs) => (action, (S.decodeString 256 bs).1)
  | none => (c.action, (S.decodeString 256 p.payload).1)

/-- `GetPlayerWithName`: the first player in key order. -/
def Server.getPlayerWithName (s : Server) (name : Name) : Option UInt32 :=
  s.players.findKey? (fun player ↦ player.name = name)

/-- The announcement of an action. -/
def actionText (origin target : Player) (verb : String) (amount : Int) : Bytes :=
  snprintf 256 (origin.name.bytes ++ ascii " The " ++ getStringFromClass origin.job
    ++ ascii verb ++ target.name.bytes ++ ascii " The " ++ getStringFromClass target.job
    ++ ascii " for " ++ formatInt amount)

/-- `Server::OnPlayerActionTaken`. -/
def onPlayerActionTaken (c : Chance) (p : Packet) : ServerM Unit := do
  let (action, tname) := readAction S c p
  let it := (← getServer).getPlayerWithName tname
  let origin ← getPlayer (S.id p)
  match it with
  | none => throw (.abort .target)
  | some id => do
    let (_, target) ← deref (some id)
    match Action.ofByte? action with
    | some .heal => do
      broadcastMessage (actionText origin target " healed " 10)
      modifyHealth id 10
    | some .healRng => do
      let healAmount := c.getRandomInteger 5 15
      broadcastMessage (actionText origin target " randomly healed " healAmount)
      modifyHealth id healAmount
    | some .attack => do
      broadcastMessage (actionText origin target " attacked " 12)
      modifyHealth id (-12)
    | some .atkRng => do
      let atkAmount := -c.getRandomInteger 6 18
      broadcastMessage (actionText origin target " randomly attacked " (-atkAmount))
      modifyHealth id atkAmount
    | none => pure ()
    nextTurn

end RRPG
