import RRPG.Base.While
import RRPG.Client.Input
import RRPG.Server.State

/-!
# The client's packet handlers

`RRPG::PacketHandler` on one packet, and what it calls (`RRPG/RRPG.cpp`). A packet may be any
bytes: a `Read` that fails leaves its variable as it was. Of the library's notices the ones
that print an address or a guid are left out.
-/

open RRPG.Base

namespace RRPG

/-- What is printed for an identifier of the library. -/
def ClientMessageId.notice : ClientMessageId → Bytes
  | idDisconnectionNotification => ascii "ID_DISCONNECTION_NOTIFICATION\n"
  | idIncompatibleProtocolVersion => ascii "ID_INCOMPATIBLE_PROTOCOL_VERSION\n"
  | idConnectionBanned => ascii "We are banned from this server.\n"
  | idConnectionAttemptFailed => ascii "Connection attempt failed\n"
  | idNoFreeIncomingConnections => ascii "Server is full.\n"
  | idInvalidPassword => ascii "ID_INVALID_PASSWORD\n"
  | idConnectionLost => ascii "ID_CONNECTION_LOST\n"
  | idConnectionRequestAccepted => ascii "Connection accepted!\n"
  | idAlreadyConnected | idConnectedPing | idUnconnectedPing => []

/-- A player as a client enters it into its vector. -/
def LocalPlayer.ofRecord (record : PlayerRecord) : LocalPlayer where
  name := record.name.bytes
  health := record.health
  ready := record.ready
  job := record.job

/-- A player of the given name after a report of its health; who has none left is dead for
good. -/
def LocalPlayer.updated (name : Bytes) (newHp : Int) (player : LocalPlayer) : LocalPlayer :=
  if player.name = name then
    { player with health := newHp, dead := player.dead || decide (newHp ≤ 0) }
  else player

namespace GameClient

variable {R : RakNet} (C : StringCompressor R)

/-- `RRPG::OnConnectionAccepted`. -/
def onConnectionAccepted : ClientM Unit := do
  update fun s ↦ { s with networkState := .nsLobby }
  printInstructions
  let s ← getClient
  send (BitStream.ofByte RRPGId.cIntro.byte ++
    (writeString C s.player.name ++ BitStream.writeBool s.player.ready))

/-- One pass of the loop in `OnPlayersListReceived`. -/
def readListed (R : RakNet) (locals : (Name × Bool) × BitStream) : (Name × Bool) × BitStream :=
  let (name, bs) := R.decodeString 256 locals.2
  let (ready, bs) := readInto boolField locals.1.2 bs
  ((name, ready), bs)

/-- One pass of the loop in `OnPlayersStatsReceived`. -/
def readStats (R : RakNet) (locals : (Name × UInt8 × Int) × BitStream) :
    (Name × UInt8 × Int) × BitStream :=
  let (name, bs) := R.decodeString 256 locals.2
  let (cc, bs) := readInto byteField locals.1.2.1 bs
  let (health, bs) := readInto intField locals.1.2.2 bs
  ((name, cc, health), bs)

/-- What one pass of the loop in `OnMainGameStart` reads. -/
def readRecord (R : RakNet) (locals : PlayerRecord × BitStream) : PlayerRecord × BitStream :=
  let (name, bs) := R.decodeString 256 locals.2
  let (health, bs) := readInto intField locals.1.health bs
  let (ready, bs) := readInto boolField locals.1.ready bs
  let (job, bs) := readInto byteField locals.1.job bs
  (⟨name, health, ready, job⟩, bs)

/-- A buffer that nothing has been decoded into. -/
def blank : Name := ⟨[], by decide, by decide⟩

/-- The loop `for (int i = 1; i <= numPlayers; i++)` never ends: its counter wraps before it
gets past the bound. -/
def Endless (numPlayers : Int) : Prop :=
  ¬ Terminates (fun i : Int ↦ decide (i ≤ numPlayers)) (fun i ↦ int32 (i + 1)) 1

theorem counter_eq (n : Nat) (h : n < 2 ^ 31 - 1) :
    (fun i : Int ↦ int32 (i + 1))^[n] 1 = n + 1 := by
  induction n with
  | zero => rfl
  | succ n ih =>
    rw [Function.iterate_succ_apply', ih (by omega), int32_eq_self _ (by omega) (by omega)]
    omega

theorem counter_le (n : Nat) : (fun i : Int ↦ int32 (i + 1))^[n] 1 ≤ 2 ^ 31 - 1 := by
  cases n with
  | zero => decide
  | succ n =>
    rw [Function.iterate_succ_apply']
    have hrange := int32_mem ((fun i : Int ↦ int32 (i + 1))^[n] 1 + 1)
    omega

/-- It takes the greatest `int` for that. -/
theorem endless_iff (numPlayers : Int) : Endless numPlayers ↔ 2 ^ 31 - 1 ≤ numPlayers := by
  constructor
  · intro hendless
    by_contra hlt
    have hlast := counter_eq numPlayers.toNat (by omega)
    exact hendless ⟨numPlayers.toNat, by rw [hlast, decide_eq_false_iff_not]; omega⟩
  · rintro hle ⟨n, hn⟩
    have hcounter := counter_le n
    rw [decide_eq_false_iff_not] at hn
    omega

instance (numPlayers : Int) : Decidable (Endless numPlayers) :=
  decidable_of_iff _ (endless_iff numPlayers).symm

/-- A line of the list of players. -/
def listedText (i : Nat) (e : Name × Bool) : Bytes :=
  formatInt i ++ ascii ". " ++ e.1.bytes ++ ascii " | " ++
    (if e.2 = true then ascii "Ready" else ascii "Not Ready") ++ ascii "\n"

/-- `RRPG::OnPlayersListReceived`. Of a loop that never ends only the passes before its counter
wraps are written out. -/
def onPlayersListReceived (R : RakNet) (locals : Locals) (p : Packet) : ClientM Unit := do
  let (numPlayers, bs) := readInto intField locals.numPlayers p.payload
  let players := passes (readListed R) numPlayers.toNat ((blank, locals.ready), bs)
  players.zipIdx.forM fun e ↦ print (listedText (e.2 + 1) e.1.1)
  if Endless numPlayers then throw .hang

/-- `RRPG::OnPlayersStatsReceived`, with the same loop. -/
def onPlayersStatsReceived (R : RakNet) (locals : Locals) (p : Packet) : ClientM Unit := do
  let (numPlayers, bs) := readInto intField locals.numPlayers p.payload
  let players := passes (readStats R) numPlayers.toNat ((blank, locals.job, locals.health), bs)
  players.zipIdx.forM fun e ↦ print (formatInt (e.2 + 1) ++ ascii ". " ++
    statsText e.1.1.1.bytes e.1.1.2.1 e.1.1.2.2)
  if Endless numPlayers then throw .hang

/-- `RRPG::OnGameStart`. -/
def onGameStart : ClientM Unit := do
  update fun s ↦ { s with
    networkState := .nsGameStarted
    gameState := GameState.gsCharacterSelect.byte }
  print (ascii "WE HAVE BEEGUNN!!!\n")

/-- The rest of a pass of the loop in `OnMainGameStart`. -/
def enter (s : GameClient) (record : PlayerRecord) : GameClient :=
  { s with
    players := s.players ++ [.ofRecord record]
    player :=
      if record.name.bytes = s.player.name then { s.player with job := record.job }
      else s.player }

/-- `RRPG::OnMainGameStart`. -/
def onMainGameStart (R : RakNet) (locals : Locals) (p : Packet) : ClientM Unit := do
  let (numPlayers, bs) := readInto intField locals.numPlayers (p.payload.drop 8)
  if numPlayers < 0 then throw .reserve
  let records := passes (readRecord R) numPlayers.toNat
    (⟨blank, locals.health, locals.ready, locals.job⟩, bs)
  update fun s ↦ (records.map Prod.fst).foldl enter s

/-- `RRPG::OnGameOver`. -/
def onGameOver : ClientM Unit := do
  update fun s ↦ { s with gameState := GameState.gsGameOver.byte }
  print (ascii "Game over.\n")

/-- `RRPG::OnTakeTurn`. -/
def onTakeTurn : ClientM Unit := do
  update fun s ↦ { s with myTurn := true }
  printInstructions

/-- `RRPG::OnGameStateUpdate`. -/
def onGameStateUpdate (R : RakNet) (locals : Locals) (p : Packet) : ClientM Unit := do
  update fun s ↦ { s with gameState := (readInto byteField s.gameState p.payload).1 }
  if (← getClient).gameState = GameState.gsMain.byte then onMainGameStart R locals p
  if (← getClient).gameState = GameState.gsGameOver.byte then onGameOver

/-- What `OnPlayersHealthUpdated` prints for a player of the name. -/
def healthText (newHp : Int) (player : LocalPlayer) : Bytes :=
  if 0 < newHp then player.name ++ ascii " is now at " ++ formatInt newHp ++ ascii " health\n\n"
  else player.name ++ ascii " is dead\n\n"

/-- `RRPG::OnPlayersHealthUpdated`. -/
def onPlayersHealthUpdated (R : RakNet) (locals : Locals) (p : Packet) : ClientM Unit := do
  let (name, bs) := R.decodeString 256 p.payload
  let (newHp, _) := readInto intField locals.health bs
  let s ← getClient
  (s.players.filter fun player ↦ player.name = name.bytes).forM fun player ↦
    print (healthText newHp player)
  update fun s ↦ { s with
    players := s.players.map (·.updated name.bytes newHp)
    player := s.player.updated name.bytes newHp }
  if s.player.name = name.bytes ∧ newHp < 1 then print (ascii "You are dead.\n")

/-- `GetPacketIdentifier`, whose assertion a timestamped packet without identifier fails. -/
def getPacketIdentifier (p : Packet) : ClientM UInt8 :=
  if p.data.head p.data_ne = idTimestamp then
    match p.data[9]? with
    | none => throw .timestamp
    | some b => return b
  else return p.data.head p.data_ne

/-- `RRPG::IsLowLevelPacketHandled`, on the identifier it has read. -/
def isLowLevelPacketHandled (packetIdentifier : UInt8) : ClientM Bool := do
  match ClientMessageId.ofByte? packetIdentifier with
  | some i => do
    print i.notice
    if i = .idConnectionRequestAccepted then onConnectionAccepted C
    return true
  | none => return false

/-- The switch of `PacketHandler` on an application packet. -/
def dispatch (R : RakNet) (locals : Locals) (p : Packet) (packetIdentifier : UInt8) :
    ClientM Unit :=
  match RRPGId.ofByte? packetIdentifier with
  | some .sReplyPlayerListRequest => onPlayersListReceived R locals p
  | some .sReplyPlayerStatsRequest => onPlayersStatsReceived R locals p
  | some .sGameStarted => onGameStart
  | some .sTakeTurn => onTakeTurn
  | some .sUpdateGameState => onGameStateUpdate R locals p
  | some .sUpdatePlayerHp => onPlayersHealthUpdated R locals p
  | _ => print (stringBefore 0 p.data ++ ascii "\n")

/-- `RRPG::PacketHandler` on one received packet. -/
def packetHandler (locals : Locals) (p : Packet) : ClientM Unit := do
  let packetIdentifier ← getPacketIdentifier p
  if !(← isLowLevelPacketHandled C packetIdentifier) then
    dispatch R locals p packetIdentifier

end GameClient

end RRPG
