/-!
# Packet identifiers and states

`Include/MessageIdentifiers.h` (the identifiers the server tests) and
`Include/RRPG_MessageIdentifiers.h`. `ID_USER_PACKET_ENUM` is 134 by the enumeration.
-/

namespace RRPG

/-- The identifiers of `DefaultMessageIDTypes` that `IsLowLevelPacketHandled` switches on. -/
inductive DefaultMessageId where
  | idConnectedPing
  | idUnconnectedPing
  | idConnectionAttemptFailed
  | idAlreadyConnected
  | idNewIncomingConnection
  | idDisconnectionNotification
  | idConnectionLost
  | idIncompatibleProtocolVersion
  | idRemoteDisconnectionNotification
  | idRemoteConnectionLost
  | idRemoteNewIncomingConnection
  deriving DecidableEq, Repr

namespace DefaultMessageId

/-- Position in the enumeration. -/
def byte : DefaultMessageId → UInt8
  | idConnectedPing => 0
  | idUnconnectedPing => 1
  | idConnectionAttemptFailed => 17
  | idAlreadyConnected => 18
  | idNewIncomingConnection => 19
  | idDisconnectionNotification => 21
  | idConnectionLost => 22
  | idIncompatibleProtocolVersion => 25
  | idRemoteDisconnectionNotification => 31
  | idRemoteConnectionLost => 32
  | idRemoteNewIncomingConnection => 33

def all : List DefaultMessageId :=
  [idConnectedPing, idUnconnectedPing, idConnectionAttemptFailed, idAlreadyConnected,
    idNewIncomingConnection, idDisconnectionNotification, idConnectionLost,
    idIncompatibleProtocolVersion, idRemoteDisconnectionNotification,
    idRemoteConnectionLost, idRemoteNewIncomingConnection]

/-- The identifier of a byte, if the switch has a case for it. -/
def ofByte? (b : UInt8) : Option DefaultMessageId := all.find? (fun i ↦ i.byte == b)

end DefaultMessageId

/-- `ID_TIMESTAMP`, which moves the identifier behind a time value. -/
def idTimestamp : UInt8 := 27

/-- `ID_USER_PACKET_ENUM`, the first identifier left to the application. -/
def idUserPacketEnum : UInt8 := 134

/-- `RRPG_ID`. Server messages come first, then the client packets. -/
inductive RRPGId where
  | sGameStarted
  | sReplyPlayerListRequest
  | sBroadcastChat
  | sTakeTurn
  | sUpdateGameState
  | sUpdatePlayerHp
  | sReplyPlayerStatsRequest
  | cIntro
  | cReady
  | cUnready
  | cPlayerListRequest
  | cPlayerStatsRequest
  | cChat
  | cJobChosen
  | cActionTaken
  deriving DecidableEq, Repr

namespace RRPGId

def all : List RRPGId :=
  [sGameStarted, sReplyPlayerListRequest, sBroadcastChat, sTakeTurn, sUpdateGameState,
    sUpdatePlayerHp, sReplyPlayerStatsRequest, cIntro, cReady, cUnready, cPlayerListRequest,
    cPlayerStatsRequest, cChat, cJobChosen, cActionTaken]

/-- The enumerators count up from `ID_USER_PACKET_ENUM`. -/
def byte (i : RRPGId) : UInt8 := idUserPacketEnum + (all.idxOf i).toUInt8

/-- The identifier of a byte, if the enumeration has one. -/
def ofByte? (b : UInt8) : Option RRPGId := all.find? (fun i ↦ i.byte == b)

/-- Every identifier is recovered from its byte. -/
theorem ofByte?_byte (i : RRPGId) : ofByte? i.byte = some i := by
  cases i <;> rfl

/-- A byte stands for at most the identifier whose byte it is. -/
theorem ofByte?_eq_some (b : UInt8) (i : RRPGId) : ofByte? b = some i ↔ i.byte = b := by
  constructor
  · intro h
    simpa using List.find?_some h
  · rintro rfl
    exact ofByte?_byte i

/-- No application identifier is one of the low level identifiers. -/
theorem byte_not_low_level (i : RRPGId) : DefaultMessageId.ofByte? i.byte = none := by
  cases i <;> rfl

end RRPGId

/-- `GameState`. -/
inductive GameState where
  | gsPending
  | gsCharacterSelect
  | gsMain
  | gsGameOver
  deriving DecidableEq, Repr

/-- The enumerators' values: the order in which a game goes through its phases. -/
def GameState.phase : GameState → Nat
  | gsPending => 0
  | gsCharacterSelect => 1
  | gsMain => 2
  | gsGameOver => 3

/-- `Server::NetworkState`. -/
inductive NetworkState where
  | nsInitialization
  | nsCreateSocket
  | nsLobby
  | nsGameStarted
  deriving DecidableEq, Repr

end RRPG
