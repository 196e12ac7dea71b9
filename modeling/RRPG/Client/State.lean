import RRPG.Base.Handler
import RRPG.Protocol.Identifiers
import RRPG.Protocol.Packing

/-!
# Client state

The members of class `RRPG` (`RRPG/RRPG.h`) that the client's handlers read and write, what a
handler does to the outside, and the primitive steps the handlers are built from. Other
players' names come from buffers of 256 bytes, the client's own name has any length.
-/

open RRPG.Base

namespace RRPG

/-- `RRPG::NetworkState`. -/
inductive ClientNetworkState where
  | nsInitialization
  | nsCreateSocket
  | nsPendingConnection
  | nsConnected
  | nsRunning
  | nsLobby
  | nsGameStarted
  deriving DecidableEq, Repr

/-- The identifiers of `DefaultMessageIDTypes` that the client's `IsLowLevelPacketHandled`
switches on. -/
inductive ClientMessageId where
  | idConnectedPing
  | idUnconnectedPing
  | idConnectionRequestAccepted
  | idConnectionAttemptFailed
  | idAlreadyConnected
  | idNoFreeIncomingConnections
  | idDisconnectionNotification
  | idConnectionLost
  | idConnectionBanned
  | idInvalidPassword
  | idIncompatibleProtocolVersion
  deriving DecidableEq, Repr

namespace ClientMessageId

/-- Position in the enumeration. -/
def byte : ClientMessageId → UInt8
  | idConnectedPing => 0
  | idUnconnectedPing => 1
  | idConnectionRequestAccepted => 16
  | idConnectionAttemptFailed => 17
  | idAlreadyConnected => 18
  | idNoFreeIncomingConnections => 20
  | idDisconnectionNotification => 21
  | idConnectionLost => 22
  | idConnectionBanned => 23
  | idInvalidPassword => 24
  | idIncompatibleProtocolVersion => 25

def all : List ClientMessageId :=
  [idConnectedPing, idUnconnectedPing, idConnectionRequestAccepted, idConnectionAttemptFailed,
    idAlreadyConnected, idNoFreeIncomingConnections, idDisconnectionNotification,
    idConnectionLost, idConnectionBanned, idInvalidPassword, idIncompatibleProtocolVersion]

/-- The identifier of a byte, if the switch has a case for it. -/
def ofByte? (b : UInt8) : Option ClientMessageId := all.find? (fun i ↦ i.byte == b)

end ClientMessageId

/-- The enumerator as it is sent and stored. -/
def GameState.byte (gameState : GameState) : UInt8 := gameState.phase.toUInt8

/-- The enumerator as it is sent. -/
def CharacterClass.byte : CharacterClass → UInt8
  | wizard => 0
  | warrior => 1
  | assassin => 2

/-- The enumerator as it is sent. -/
def Action.byte : Action → UInt8
  | heal => 0
  | healRng => 1
  | attack => 2
  | atkRng => 3

/-- `Player`, as a client keeps it. -/
structure LocalPlayer where
  name : Bytes
  health : Int := 100
  ready : Bool := false
  job : UInt8 := 0
  dead : Bool := false
  deriving DecidableEq, Repr

/-- The members the handlers work on. The game state is any byte a message carried. -/
structure GameClient where
  networkState : ClientNetworkState
  gameState : UInt8
  player : LocalPlayer
  players : List LocalPlayer
  myTurn : Bool
  deriving DecidableEq, Repr

/-- What the local variables of a packet handler hold before they are read. -/
structure Locals where
  numPlayers : Int
  ready : Bool
  health : Int
  job : UInt8

/-- What a handler does: it writes to the console, or sends a stream to the server. -/
inductive ClientAct where
  | print (text : Bytes)
  | send (bs : BitStream)
  deriving DecidableEq

/-- Why a client's program stops: an assertion on a timestamped packet too short for its
identifier, the exception `reserve` throws for a negative number of players, a loop that never
ends, or the library's assertion on a stream without bits. -/
inductive ClientFault where
  | timestamp
  | reserve
  | hang
  | emptySend
  deriving DecidableEq, Repr

/-- The client and everything it has done so far, oldest first. -/
structure ClientWorld where
  client : GameClient
  acts : List ClientAct

abbrev ClientM (α : Type) : Type := Handler ClientWorld ClientFault α

namespace GameClient

/-! ### Primitive steps -/

def getClient : ClientM GameClient := do
  return (← get).client

def update (f : GameClient → GameClient) : ClientM Unit :=
  modify fun w ↦ { w with client := f w.client }

def print (text : Bytes) : ClientM Unit :=
  modify fun w ↦ { w with acts := w.acts ++ [.print text] }

/-- `Send`, which asserts that there is something to send. -/
def send (bs : BitStream) : ClientM Unit :=
  if bs = [] then throw .emptySend
  else modify fun w ↦ { w with acts := w.acts ++ [.send bs] }

/-- `EncodeString` of a `std::string` as the client calls it: the string up to its first
terminator, with its length as the limit. -/
def writeString {R : RakNet} (C : StringCompressor R) (s : Bytes) : BitStream :=
  C.encodeString (s.length + 1) (stringBefore 0 s)

/-- The lines `RRPG::PrintInstructions` chooses. -/
def instructions (s : GameClient) : List Bytes :=
  if s.networkState = .nsLobby then
    [ascii "You can either...\n.ready\n.notready\n.players\n.whoami\n"]
  else if s.networkState = .nsGameStarted then
    if s.gameState = GameState.gsCharacterSelect.byte then
      [ascii "Select a character.\n",
        ascii "1. .wizard\n2. .warrior\n3. .assassin\n",
        ascii "Prepend with a period (.) for example: .1/.wizard or .2/.warrior\n"]
    else if s.gameState = GameState.gsMain.byte then
      [ascii "Select an action.\n",
        ascii "1. .heal(10)\n2. .healrng(5~15)\n3. .atk(12)\n4. .atkrng(6~18)\n",
        ascii ".stats/.localstats\n",
        ascii "Prepend with a period (.) for example: .1/.heal [name] or .4/.atkrng [name]\n"]
    else []
  else []

/-- `RRPG::PrintInstructions`. -/
def printInstructions : ClientM Unit := do
  (← getClient).instructions.forM print

end GameClient

end RRPG
