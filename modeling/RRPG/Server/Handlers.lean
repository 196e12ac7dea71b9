import RRPG.Server.Game

/-!
# Lobby handlers and dispatch

The remaining packet handlers of `RRPG Server/server.cpp`, `IsLowLevelPacketHandled`, and
the dispatch of one packet in `PacketHandler`. A run is a list of packets, each with the
chance its handler meets, handled one after the other.
-/

open RRPG.Base

namespace RRPG

variable (S : Setup)

/-- `Server::OnIncomingConnection`. -/
def onIncomingConnection : ServerM Unit :=
  update fun s ↦ { s with totalConnections := s.totalConnections + 1 }

/-- `EXPECTED_PLAYERS - totalConnections`, an unsigned difference. -/
def Server.missing (s : Server) : UInt32 := S.expectedPlayers - s.totalConnections.toUInt32

/-- `Server::OnClientIntro`. A rejected client goes through the rest of the handler too. -/
def onClientIntro (p : Packet) : ServerM Unit := do
  if S.expectedPlayers < (← getServer).totalConnections.toUInt32 then
    emit (.closeConnection p.systemAddress)
    update fun s ↦ { s with totalConnections := s.totalConnections - 1 }
  update fun s ↦
    { s with playerAddresses := s.playerAddresses.emplace (S.id p) p.systemAddress }
  let name : Name := (S.decodeString 256 p.payload).1
  update fun s ↦ { s with players := s.players.emplace (S.id p) { name := name } }
  emit (.memcpy 256 name.bytes.length 13)
  broadcastMessage (name.bytes ++ ascii " has joined.")
  let s ← getServer
  if s.totalConnections.toUInt32 ≠ S.expectedPlayers then
    broadcastMessage (snprintf 40
      (ascii "Waiting for " ++ formatInt (int32 (s.missing S).toNat) ++ ascii " more player"
        ++ (if s.missing S = 1 then ascii "." else ascii "s.") ++ ascii ".."))

/-- `Server::OnClientChatReceived`. -/
def onClientChatReceived (p : Packet) : ServerM Unit := do
  let player ← getPlayer (S.id p)
  let cmsg : CString 2048 := (S.decodeString 2048 p.payload).1
  let size := 2048 + player.name.bytes.length
  emit (.memcpy size 0 player.name.bytes.length)
  emit (.memcpy size player.name.bytes.length 2)
  emit (.memcpy size (player.name.bytes.length + 2) (cmsg.bytes.length + 1))
  send .all (.text (player.name.bytes ++ ascii ": " ++ cmsg.bytes))

/-- `Server::OnPlayerReady`. -/
def onPlayerReady (p : Packet) : ServerM Unit := do
  let player ← getPlayer (S.id p)
  updatePlayer (S.id p) fun player ↦ { player with ready := true }
  broadcastMessage (player.name.bytes ++ ascii " is ready.")
  let s ← getServer
  if s.players.all Player.ready then
    if s.totalConnections.toUInt32 = S.expectedPlayers then
      startGame

/-- `Server::OnPlayerUnready`. -/
def onPlayerUnready (p : Packet) : ServerM Unit := do
  let player ← getPlayer (S.id p)
  updatePlayer (S.id p) fun player ↦ { player with ready := false }
  broadcastMessage (player.name.bytes ++ ascii " is not ready.")

/-- `Server::OnPlayerListRequest`. -/
def onPlayerListRequest (p : Packet) : ServerM Unit := do
  let s ← getServer
  send (.system p.systemAddress) (.replyPlayerListRequest
    (s.players.entries.map fun e ↦ (e.2.name, e.2.ready)))

/-- `Server::OnPlayerStatsRequest`. -/
def onPlayerStatsRequest (p : Packet) : ServerM Unit := do
  let s ← getServer
  send (.system p.systemAddress) (.replyPlayerStatsRequest
    (s.players.entries.map fun e ↦ (e.2.name, e.2.job, e.2.health)))

/-- `GetPacketIdentifier`, whose assertion a timestamped packet without identifier fails.
`RakNet::Time` has eight bytes. -/
def getPacketIdentifier (p : Packet) : ServerM UInt8 :=
  if p.data.head p.data_ne = idTimestamp then
    match p.data[9]? with
    | none => throw (.abort .timestamp)
    | some b => return b
  else return p.data.head p.data_ne

/-- `Server::IsLowLevelPacketHandled`, on the identifier it has read. -/
def isLowLevelPacketHandled (packetIdentifier : UInt8) : ServerM Bool := do
  match DefaultMessageId.ofByte? packetIdentifier with
  | some .idRemoteDisconnectionNotification | some .idRemoteConnectionLost => do
    update fun s ↦ { s with totalConnections := s.totalConnections - 1 }
    return true
  | some .idNewIncomingConnection | some .idRemoteNewIncomingConnection => do
    onIncomingConnection
    return true
  | some .idConnectedPing | some .idUnconnectedPing | some .idConnectionAttemptFailed
  | some .idAlreadyConnected | some .idDisconnectionNotification | some .idConnectionLost
  | some .idIncompatibleProtocolVersion => return true
  | none => return false

/-- The switch of `PacketHandler` on an application packet. -/
def dispatch (c : Chance) (p : Packet) (packetIdentifier : UInt8) : ServerM Unit :=
  match RRPGId.ofByte? packetIdentifier with
  | some .cIntro => onClientIntro S p
  | some .cReady => onPlayerReady S p
  | some .cUnready => onPlayerUnready S p
  | some .cPlayerListRequest => onPlayerListRequest p
  | some .cPlayerStatsRequest => onPlayerStatsRequest p
  | some .cChat => onClientChatReceived S p
  | some .cJobChosen => onPlayerJobChosen S p
  | some .cActionTaken => onPlayerActionTaken S c p
  | _ => pure ()

/-- `Server::PacketHandler` on one received packet. -/
def packetHandler (c : Chance) (p : Packet) : ServerM Unit := do
  let packetIdentifier ← getPacketIdentifier p
  if !(← isLowLevelPacketHandled packetIdentifier) then
    dispatch S c p packetIdentifier

/-- A received packet and the chance its handler meets. -/
structure Event where
  packet : Packet
  chance : Chance

/-- A packet of a client, met with the least chance. -/
def clientEvent (client : UInt64) (identifier : UInt8) (payload : Bytes) : Event where
  packet := ⟨⟨client.toUInt32, 60000⟩, ⟨client⟩, identifier :: payload, by simp⟩
  chance := .least

/-- The same packet of several clients. -/
def everybody (clients : List UInt64) (identifier : UInt8) (payload : Bytes) : List Event :=
  clients.map fun client ↦ clientEvent client identifier payload

/-- Clients without names connect, introduce themselves, get ready and become wizards. -/
def opening (clients : List UInt64) : List Event :=
  everybody clients DefaultMessageId.idNewIncomingConnection.byte [] ++
    everybody clients RRPGId.cIntro.byte [] ++ everybody clients RRPGId.cReady.byte [] ++
    everybody clients RRPGId.cJobChosen.byte [0]

/-- The server handling packets one after the other, until one stops it. -/
def serve (events : List Event) : ServerM Unit :=
  Handler.run (fun e ↦ packetHandler S e.chance e.packet) events

/-- Why a handler stopped, if it did. -/
def haltOf : Except Halt Unit → Option Halt
  | .ok () => none
  | .error h => some h

/-- How a run from the lobby ends, and where. -/
def outcome (events : List Event) : Except Halt Unit × World :=
  Handler.exec (serve S events) ⟨Server.init, []⟩

end RRPG
