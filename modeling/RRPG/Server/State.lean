import RRPG.Base.Handler
import RRPG.Base.OrdMap
import RRPG.Protocol.Identifiers
import RRPG.Protocol.Player
import RRPG.Protocol.RakNet

/-!
# Server state

The members of `Server` (`RRPG Server/server.h`) that the packet handlers read and write,
what a handler does to the outside, and the primitive steps the handlers are built from.
The messages carry the fields the source writes, in its order. Console output is left out.
-/

open RRPG.Base

namespace RRPG

/-- The order of `unsigned long` keys. -/
instance linearOrderUInt32 : LinearOrder UInt32 where
  le_refl := UInt32.le_refl
  le_trans _ _ _ := UInt32.le_trans
  le_antisymm _ _ := UInt32.le_antisymm
  le_total := UInt32.le_total
  lt_iff_le_not_ge a b := by
    simp only [UInt32.lt_iff_toNat_lt, UInt32.le_iff_toNat_le]
    omega
  toDecidableLE := inferInstance
  toDecidableLT := inferInstance
  toDecidableEq := inferInstance

/-- What is fixed while the server runs: the library it is linked with and the static
member `EXPECTED_PLAYERS`. -/
structure Setup extends RakNet where
  expectedPlayers : UInt32

/-- A client's key in the server's maps. -/
def Setup.id (S : Setup) (p : Packet) : UInt32 := S.toUint32 p.guid

/-- What a handler meets that its packet does not determine. -/
structure Chance where
  /-- `GetRandomInteger`. -/
  getRandomInteger : Int → Int → Int
  getRandomInteger_mem : ∀ min max, min ≤ max →
    min ≤ getRandomInteger min max ∧ getRandomInteger min max ≤ max
  /-- What the local `action` of `OnPlayerActionTaken` holds before it is read. -/
  action : UInt8

/-- A server with the uncompressed library. -/
def Setup.plain (expectedPlayers : UInt32) : Setup :=
  { RakNet.plain with expectedPlayers := expectedPlayers }

/-- Every random integer the least allowed. -/
def Chance.least : Chance where
  getRandomInteger min _ := min
  getRandomInteger_mem _ _ h := ⟨Int.le_refl _, h⟩
  action := 0

/-- The members the packet handlers work on. -/
structure Server where
  networkState : NetworkState
  gameState : GameState
  totalConnections : UInt16
  players : OrdMap UInt32 Player
  playerAddresses : OrdMap UInt32 SystemAddress
  currentPlayerTurn : UInt32

/-- The server waiting in the lobby, with the members the constructor leaves unset zero. -/
def Server.init : Server where
  networkState := .nsLobby
  gameState := .gsPending
  totalConnections := 0
  players := .empty
  playerAddresses := .empty
  currentPlayerTurn := 0

/-- One record of the table in `S_UPDATE_GAME_STATE`. -/
structure PlayerRecord where
  name : Name
  health : Int
  ready : Bool
  job : UInt8
  deriving DecidableEq, Repr

/-- What the server sends: a text without identifier, or an identifier and its fields.
Counts are the lengths of the lists. -/
inductive Message where
  | text (message : Bytes)
  | gameStarted
  | replyPlayerListRequest (players : List (Name × Bool))
  | takeTurn
  | updateGameState (gameState : GameState) (players : Option (List PlayerRecord))
  | updatePlayerHp (name : Name) (health : Int)
  | replyPlayerStatsRequest (players : List (Name × UInt8 × Int))
  deriving DecidableEq

/-- The destination of `Send`: every connected system, or one. -/
inductive Dest where
  | all
  | system (systemAddress : SystemAddress)
  deriving DecidableEq, Repr

/-- Member functions whose calls are recorded. -/
inductive Routine where
  | startGame
  | startMainGame
  | nextTurn
  | gameOver (winnerId : UInt32)
  deriving DecidableEq, Repr

/-- What a handler does. `enter` and `memcpy` are history: nothing reads them. -/
inductive Act where
  | send (dest : Dest) (message : Message)
  | closeConnection (systemAddress : SystemAddress)
  | memcpy (size offset count : Nat)
  | enter (routine : Routine)
  deriving DecidableEq

/-- An act, with the server as it was then. -/
structure Effect where
  act : Act
  server : Server

/-- A failed assertion, an access past the end of a map, or a timestamped packet too short
for its identifier. -/
inductive Fault where
  | getPlayer (id : UInt32)
  | getAddressFromID (id : UInt32)
  | target
  | advanceEnd
  | derefEnd
  | timestamp
  deriving DecidableEq, Repr

/-- Why a handler does not return: the process aborts, or a loop never ends. -/
inductive Halt where
  | abort (fault : Fault)
  | hang
  deriving DecidableEq, Repr

/-- The server and everything it has done so far, oldest first. -/
structure World where
  server : Server
  trace : List Effect

abbrev ServerM (α : Type) : Type := Handler World Halt α

/-! ### Primitive steps -/

def getServer : ServerM Server := do
  return (← get).server

def update (f : Server → Server) : ServerM Unit :=
  modify fun w ↦ { w with server := f w.server }

def emit (act : Act) : ServerM Unit :=
  modify fun w ↦ { w with trace := w.trace ++ [⟨act, w.server⟩] }

def send (dest : Dest) (message : Message) : ServerM Unit := emit (.send dest message)

/-- `players.find(id)`, as an iterator. -/
def findPlayer (id : UInt32) : ServerM (Option UInt32) := do
  return if id ∈ (← getServer).players then some id else none

/-- `it++` on an iterator of `players`. -/
def increment : Option UInt32 → ServerM (Option UInt32)
  | none => throw (.abort .advanceEnd)
  | some id => do return (← getServer).players.next? id

/-- `*it` on an iterator of `players`. -/
def deref (it : Option UInt32) : ServerM (UInt32 × Player) := do
  match it with
  | none => throw (.abort .derefEnd)
  | some id =>
    match (← getServer).players.find? id with
    | none => throw (.abort .derefEnd)
    | some player => return (id, player)

/-- `GetPlayer`, which asserts that the id is registered. -/
def getPlayer (id : UInt32) : ServerM Player := do
  match (← getServer).players.find? id with
  | none => throw (.abort (.getPlayer id))
  | some player => return player

/-- `GetAddressFromID`, which asserts that the id is registered. -/
def getAddressFromID (id : UInt32) : ServerM SystemAddress := do
  match (← getServer).playerAddresses.find? id with
  | none => throw (.abort (.getAddressFromID id))
  | some systemAddress => return systemAddress

/-- Write through a reference to a stored player. -/
def updatePlayer (id : UInt32) (f : Player → Player) : ServerM Unit :=
  update fun s ↦ { s with players := s.players.adjust id f }

/-- `BroadcastMessage`: nothing for the empty string, else the prefixed text to everybody,
built with two copies into `2048 + strlen(prefix)` bytes. -/
def broadcastMessage (input : Bytes) : ServerM Unit := do
  if input.length = 0 then return
  let pre := ascii "[Server] "
  emit (.memcpy (2048 + pre.length) 0 pre.length)
  emit (.memcpy (2048 + pre.length) pre.length (input.length + 1))
  send .all (.text (pre ++ input))

end RRPG
