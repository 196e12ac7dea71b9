import RRPG.Client.Console
import RRPG.Server.Tables

/-!
# What the client makes of the server's messages

The state a message leaves and the texts it prints, as functions of the message, and the proof
that the client's handlers compute them from the bytes the server sends.
-/

open RRPG.Base RRPG.Base.Handler

namespace RRPG

/-! ### Packets made of a stream -/

/-- The data of a packet that starts with an identifier of the application. -/
theorem Packet.kind_of_data {p : Packet} {k : RRPGId} {rest : Bytes} (h : p.data = k.byte :: rest) :
    p.identifier = some k.byte ∧ p.kind = some k := by
  have hhead : p.data.head p.data_ne = k.byte := by simp [h]
  have hid : p.identifier = some k.byte := by
    rw [Packet.identifier, hhead, if_neg (by cases k <;> decide)]
  exact ⟨hid, by rw [Packet.kind, hid, Option.bind_some, RRPGId.ofByte?_byte]⟩

/-- The receiver of a stream behind an identifier reads the stream, and what filled it up. -/
theorem Packet.payload_of_pack {p : Packet} {k : RRPGId} {bs : BitStream}
    (h : p.data = (BitStream.ofByte k.byte ++ bs).pack) :
    p.identifier = some k.byte ∧ p.kind = some k ∧ p.payload = bs ++ bs.padding := by
  rw [BitStream.pack_ofByte_append] at h
  obtain ⟨hid, hk⟩ := Packet.kind_of_data h
  refine ⟨hid, hk, ?_⟩
  rw [Packet.payload, h, List.drop_one, List.tail_cons, BitStream.ofBytes_pack]

namespace GameClient

/-! ### Any packet -/

section
variable {R : RakNet} (C : StringCompressor R) (locals : Locals) (p : Packet) (s : GameClient)

theorem performs_getPacketIdentifier (b : UInt8) (h : p.identifier = some b) :
    Performs (getPacketIdentifier p) s b s [] := by
  unfold getPacketIdentifier
  unfold Packet.identifier at h
  split at h
  · next ht =>
    rw [if_pos ht, h]
    exact .pure b s
  · next ht =>
    rw [if_neg ht, Option.some.inj h]
    exact .pure b s

theorem performs_onConnectionAccepted :
    Performs (onConnectionAccepted C) s () { s with networkState := .nsLobby }
      (({ s with networkState := .nsLobby } : GameClient).instructions.map .print ++
        [.send ((ClientPacket.intro s.player.name s.player.ready).bits C)]) :=
  (performs_update s _).after <| (performs_printInstructions _).bind <|
    (performs_getClient _).after ((ClientPacket.intro _ _).performs_send_bits C _)

/-- What the library's notices do. -/
theorem performs_notice (i : ClientMessageId) (b : UInt8) (hi : ClientMessageId.ofByte? b = some i)
    (hne : i ≠ .idConnectionRequestAccepted) :
    Performs (isLowLevelPacketHandled C b) s true s [.print i.notice] := by
  unfold isLowLevelPacketHandled
  simp only [hi]
  apply (performs_print s i.notice).bind
  rw [if_neg hne]
  exact .pure true s

theorem performs_accepted (b : UInt8)
    (hb : ClientMessageId.ofByte? b = some .idConnectionRequestAccepted) :
    Performs (isLowLevelPacketHandled C b) s true { s with networkState := .nsLobby }
      (.print (ascii "Connection accepted!\n") ::
        ({ s with networkState := .nsLobby } : GameClient).instructions.map .print ++
        [.send ((ClientPacket.intro s.player.name s.player.ready).bits C)]) := by
  unfold isLowLevelPacketHandled
  simp only [hb]
  apply (performs_print s _).bind
  rw [if_true]
  have h := (s.performs_onConnectionAccepted C).bind (f := fun _ ↦ pure true) (.pure true _)
  rwa [List.append_nil] at h

/-- A client whose connection is accepted introduces itself. -/
theorem performs_acceptance
    (h : p.identifier = some ClientMessageId.idConnectionRequestAccepted.byte) :
    ∃ texts : List Bytes,
      Performs (packetHandler C locals p) s () { s with networkState := .nsLobby }
        (texts.map .print ++
          [.send ((ClientPacket.intro s.player.name s.player.ready).bits C)]) := by
  refine ⟨ascii "Connection accepted!\n" ::
    ({ s with networkState := .nsLobby } : GameClient).instructions, ?_⟩
  apply (performs_getPacketIdentifier p s _ h).after
  have hlow := s.performs_accepted C ClientMessageId.idConnectionRequestAccepted.byte rfl
  have h := hlow.bind (f := fun b ↦ if !b then
    dispatch R locals p ClientMessageId.idConnectionRequestAccepted.byte else pure ()) (.pure () _)
  rwa [List.append_nil] at h

/-- A packet of the application goes to the switch. -/
theorem performs_packetHandler (b : UInt8) (hb : p.identifier = some b)
    (hlow : ClientMessageId.ofByte? b = none) {s' : GameClient} {acts : List ClientAct}
    (h : Performs (dispatch R locals p b) s () s' acts) :
    Performs (packetHandler C locals p) s () s' acts := by
  apply (performs_getPacketIdentifier p s b hb).after
  have hpass : Performs (isLowLevelPacketHandled C b) s false s [] := by
    unfold isLowLevelPacketHandled
    simp only [hlow]
    exact .pure false s
  exact hpass.after h

theorem byte_no_notice (k : RRPGId) : ClientMessageId.ofByte? k.byte = none := by
  cases k <;> rfl

end

/-! ### What a message means -/

section
variable (s : GameClient)

/-- The client once a message has been handled. -/
def heard : Message → GameClient
  | .gameStarted =>
    { s with networkState := .nsGameStarted, gameState := GameState.gsCharacterSelect.byte }
  | .takeTurn => { s with myTurn := true }
  | .updateGameState gameState records =>
    (records.getD []).foldl enter { s with gameState := gameState.byte }
  | .updatePlayerHp name health =>
    { s with
      players := s.players.map (·.updated name.bytes health)
      player := s.player.updated name.bytes health }
  | .text _ | .replyPlayerListRequest _ | .replyPlayerStatsRequest _ => s

/-- The lines of the table of healths. -/
def statsLine (i : Nat) (e : Name × UInt8 × Int) : Bytes :=
  formatInt i ++ ascii ". " ++ statsText e.1.bytes e.2.1 e.2.2

/-- What is printed for a message. -/
def shown : Message → List Bytes
  | .text message => [stringBefore 0 message ++ ascii "\n"]
  | .gameStarted => [ascii "WE HAVE BEEGUNN!!!\n"]
  | .replyPlayerListRequest players => players.zipIdx.map fun e ↦ listedText (e.2 + 1) e.1
  | .replyPlayerStatsRequest players => players.zipIdx.map fun e ↦ statsLine (e.2 + 1) e.1
  | .takeTurn => s.instructions
  | .updateGameState gameState _ =>
    if gameState = .gsGameOver then [ascii "Game over.\n"] else []
  | .updatePlayerHp name health =>
    (s.players.filter fun player ↦ player.name = name.bytes).map (healthText health) ++
      if s.player.name = name.bytes ∧ health < 1 then [ascii "You are dead.\n"] else []

end

/-- The client's switches have a case for an identifier. -/
def hasCase (b : UInt8) : Bool :=
  b == idTimestamp || (ClientMessageId.ofByte? b).isSome ||
    (RRPGId.ofByte? b).any fun k ↦ k ∈ [.sGameStarted, .sReplyPlayerListRequest, .sTakeTurn,
      .sUpdateGameState, .sUpdatePlayerHp, .sReplyPlayerStatsRequest]

end GameClient

/-- A message the client reads as it is meant: a text is not taken for anything else, counts
and healths are `int`s, a table comes exactly with the start of the main game, and no list is
so long that its loop never ends. -/
def Message.Readable : Message → Prop
  | .text message => ∃ b rest, message = b :: rest ∧ GameClient.hasCase b = false
  | .gameStarted | .takeTurn => True
  | .replyPlayerListRequest players => players.length < 2 ^ 31 - 1
  | .replyPlayerStatsRequest players =>
    players.length < 2 ^ 31 - 1 ∧ ∀ e ∈ players, InRange e.2.2
  | .updateGameState gameState none => gameState = .gsGameOver
  | .updateGameState gameState (some records) =>
    gameState = .gsMain ∧ records.length < 2 ^ 31 ∧ ∀ record ∈ records, InRange record.health
  | .updatePlayerHp _ health => InRange health

namespace GameClient

/-! ### Reading the messages -/

/-- Every message is sent as something. -/
theorem bits_message_ne {R : RakNet} (C : StringCompressor R) (m : Message) : m.bits C ≠ [] := by
  cases m with
  | text message =>
    rw [Message.bits, BitStream.ofBytes, List.flatMap_append, List.flatMap_singleton]
    exact List.append_ne_nil_of_right_ne_nil _ (by decide)
  | gameStarted | takeTurn =>
    rw [Message.bits]
    decide
  | updateGameState gameState records =>
    cases records <;> exact BitStream.ofByte_append_ne _ _
  | _ => exact BitStream.ofByte_append_ne _ _

section
variable {R : RakNet} (C : StringCodec R) (locals : Locals) {p : Packet} (s : GameClient)

/-- A loop that reads records and prints each of them prints the records written. -/
theorem performs_numbered {α : Type} (body : α × BitStream → α × BitStream)
    (write : α → BitStream) (text : Nat → α → Bytes) (xs : List α)
    (hrecord : ∀ x ∈ xs, ∀ old rest, body (old, write x ++ rest) = (x, rest)) (old : α)
    (rest : BitStream) :
    Performs ((passes body xs.length (old, xs.flatMap write ++ rest)).zipIdx.forM
        fun e ↦ print (text (e.2 + 1) e.1.1)) s () s
      ((xs.zipIdx.map fun e ↦ text (e.2 + 1) e.1).map .print) := by
  have hread := passes_reads body write xs hrecord old rest
  generalize passes body xs.length (old, xs.flatMap write ++ rest) = ys at hread ⊢
  rw [← hread, List.zipIdx_map, List.map_map, List.map_map]
  exact performs_prints s _ ys.zipIdx

/-- A list printed in a loop that ends. -/
theorem performs_ends {x : ClientM Unit} {acts : List ClientAct} {numPlayers : Int}
    (h : Performs x s () s acts) (hends : ¬ Endless numPlayers) :
    Performs (do x; if Endless numPlayers then throw .hang) s () s acts := by
  have hrest := h.bind (f := fun _ ↦ pure ()) (.pure () s)
  rw [List.append_nil] at hrest
  simpa only [if_neg hends] using hrest

theorem not_endless {n : Nat} (h : n < 2 ^ 31 - 1) : ¬ Endless n := by
  rw [endless_iff]
  omega

theorem performs_onPlayersListReceived (players : List (Name × Bool))
    (hlength : players.length < 2 ^ 31 - 1) (rest : BitStream)
    (hp : p.payload = BitStream.writeInt players.length ++
      players.flatMap (writeListed C.toStringCompressor) ++ rest) :
    Performs (onPlayersListReceived R locals p) s () s
      ((s.shown (.replyPlayerListRequest players)).map .print) := by
  have hcount : readInto intField locals.numPlayers p.payload =
      ((players.length : Int), players.flatMap (writeListed C.toStringCompressor) ++ rest) := by
    rw [hp, List.append_assoc]
    exact (reads_int players.length (by omega) (by omega)).into _ _
  have hrecord (e : Name × Bool) (_ : e ∈ players) (old : Name × Bool) (rest : BitStream) :
      readListed R (old, writeListed C.toStringCompressor e ++ rest) = (e, rest) := by
    simp only [readListed, writeListed, List.append_assoc, C.decode_encode,
      (reads_bool e.2).into]
  unfold onPlayersListReceived
  simp only [hcount, Int.toNat_natCast]
  exact s.performs_ends (s.performs_numbered _ _ listedText players hrecord _ rest)
    (not_endless hlength)

theorem performs_onPlayersStatsReceived (players : List (Name × UInt8 × Int))
    (hlength : players.length < 2 ^ 31 - 1) (hhealth : ∀ e ∈ players, InRange e.2.2)
    (rest : BitStream) (hp : p.payload = BitStream.writeInt players.length ++
      players.flatMap (writeStats C.toStringCompressor) ++ rest) :
    Performs (onPlayersStatsReceived R locals p) s () s
      ((s.shown (.replyPlayerStatsRequest players)).map .print) := by
  have hcount : readInto intField locals.numPlayers p.payload =
      ((players.length : Int), players.flatMap (writeStats C.toStringCompressor) ++ rest) := by
    rw [hp, List.append_assoc]
    exact (reads_int players.length (by omega) (by omega)).into _ _
  have hrecord (e : Name × UInt8 × Int) (he : e ∈ players) (old : Name × UInt8 × Int)
      (rest : BitStream) :
      readStats R (old, writeStats C.toStringCompressor e ++ rest) = (e, rest) := by
    simp only [readStats, writeStats, List.append_assoc, C.decode_encode,
      (reads_byte e.2.1).into, (reads_int e.2.2 (hhealth e he).1 (hhealth e he).2).into]
  unfold onPlayersStatsReceived
  simp only [hcount, Int.toNat_natCast]
  exact s.performs_ends (s.performs_numbered _ _ statsLine players hrecord _ rest)
    (not_endless hlength)

theorem performs_onMainGameStart (records : List PlayerRecord)
    (hlength : records.length < 2 ^ 31) (hhealth : ∀ record ∈ records, InRange record.health)
    (rest : BitStream) (hp : p.payload.drop 8 = BitStream.writeInt records.length ++
      records.flatMap (writeRecord C.toStringCompressor) ++ rest) :
    Performs (onMainGameStart R locals p) s () (records.foldl enter s) [] := by
  have hcount : readInto intField locals.numPlayers (p.payload.drop 8) =
      ((records.length : Int), records.flatMap (writeRecord C.toStringCompressor) ++ rest) := by
    rw [hp, List.append_assoc]
    exact (reads_int records.length (by omega) (by omega)).into _ _
  have hrecord (record : PlayerRecord) (he : record ∈ records) (old : PlayerRecord)
      (rest : BitStream) :
      readRecord R (old, writeRecord C.toStringCompressor record ++ rest) = (record, rest) := by
    have hint := reads_int record.health (hhealth record he).1 (hhealth record he).2
    simp only [readRecord, writeRecord, List.append_assoc, C.decode_encode, hint.into,
      (reads_bool record.ready).into, (reads_byte record.job).into]
  have hread := passes_reads (readRecord R) (writeRecord C.toStringCompressor) records hrecord
    ⟨blank, locals.health, locals.ready, locals.job⟩ rest
  unfold onMainGameStart
  simp only [hcount, Int.toNat_natCast, hread]
  rw [if_neg (by omega)]
  exact performs_update s _

/-- The state of the game is read first. -/
theorem readInto_gameState (gameState : GameState) (bs : BitStream)
    (hp : p.payload = BitStream.ofByte gameState.byte ++ bs) :
    readInto byteField s.gameState p.payload = (gameState.byte, bs) := by
  rw [hp]
  exact (reads_byte _).into _ _

theorem performs_gameOver (bs : BitStream)
    (hp : p.payload = BitStream.ofByte GameState.gsGameOver.byte ++ bs) :
    Performs (onGameStateUpdate R locals p) s () (s.heard (.updateGameState .gsGameOver none))
      [.print (ascii "Game over.\n")] := by
  have hne : GameState.gsGameOver.byte ≠ GameState.gsMain.byte := by decide
  unfold onGameStateUpdate
  apply (performs_update s _).after
  simp only [s.readInto_gameState .gsGameOver bs hp]
  apply (performs_getClient _).after
  rw [if_neg hne]
  apply (performs_getClient _).after
  rw [if_pos rfl]
  exact (performs_update _ _).after (performs_print _ _)

/-- A table adds its players, and sets the client's own job. -/
theorem foldl_enter (records : List PlayerRecord) : ∃ job, records.foldl enter s =
    { s with
      players := s.players ++ records.map .ofRecord
      player := { s.player with job := job } } := by
  induction records generalizing s with
  | nil => exact ⟨s.player.job, by rw [List.map_nil, List.append_nil, List.foldl_nil]⟩
  | cons record rest ih =>
    obtain ⟨job, h⟩ := ih (s.enter record)
    refine ⟨job, ?_⟩
    rw [List.foldl_cons, h, enter]
    split <;> simp

theorem performs_mainGame (records : List PlayerRecord) (hlength : records.length < 2 ^ 31)
    (hhealth : ∀ record ∈ records, InRange record.health) (rest : BitStream)
    (hp : p.payload = BitStream.ofByte GameState.gsMain.byte ++
      (BitStream.writeInt records.length ++
        records.flatMap (writeRecord C.toStringCompressor) ++ rest)) :
    Performs (onGameStateUpdate R locals p) s ()
      (s.heard (.updateGameState .gsMain (some records))) [] := by
  have hne : GameState.gsMain.byte ≠ GameState.gsGameOver.byte := by decide
  have hdrop : p.payload.drop 8 = BitStream.writeInt records.length ++
      records.flatMap (writeRecord C.toStringCompressor) ++ rest := by
    rw [hp, List.drop_left' (BitStream.length_ofByte _)]
  unfold onGameStateUpdate
  apply (performs_update s _).after
  simp only [s.readInto_gameState .gsMain _ hp]
  apply (performs_getClient _).after
  rw [if_pos rfl]
  apply (performs_onMainGameStart C locals _ records hlength hhealth rest hdrop).after
  apply (performs_getClient _).after
  obtain ⟨job, h⟩ := foldl_enter { s with gameState := GameState.gsMain.byte } records
  rw [h, if_neg hne, heard, Option.getD_some, h]
  exact .pure () _

theorem performs_onPlayersHealthUpdated (name : Name) (health : Int) (hhealth : InRange health)
    (rest : BitStream) (hp : p.payload =
      C.encodeString (name.bytes.length + 1) name.bytes ++ BitStream.writeInt health ++ rest) :
    Performs (onPlayersHealthUpdated R locals p) s () (s.heard (.updatePlayerHp name health))
      ((s.shown (.updatePlayerHp name health)).map .print) := by
  have hname : R.decodeString 256 p.payload = (name, BitStream.writeInt health ++ rest) := by
    have hfits := C.decode_fits (name.bytes.length + 1) 256 name.bytes
      (BitStream.writeInt health ++ rest) name.nul_free (by omega) (by
        have := name.length_lt
        omega)
    rwa [CString.ofBytes_bytes, ← List.append_assoc, ← hp] at hfits
  have hint : readInto intField locals.health (BitStream.writeInt health ++ rest) =
      (health, rest) :=
    (reads_int health hhealth.1 hhealth.2).into _ _
  unfold onPlayersHealthUpdated
  simp only [hname, hint]
  apply (performs_getClient s).after
  rw [shown, List.map_append, List.map_map]
  apply (performs_prints s _ _).bind
  apply (performs_update s _).after
  split
  · exact performs_print _ _
  · exact .pure () _

/-- What the switches have no case for is printed up to its first terminator. -/
theorem performs_text (b : UInt8) (rest : Bytes) (hb : hasCase b = false)
    (hp : p.data = b :: rest) :
    Performs (packetHandler C.toStringCompressor locals p) s () s
      [.print (stringBefore 0 p.data ++ ascii "\n")] := by
  simp only [hasCase, Bool.or_eq_false_iff, beq_eq_false_iff_ne, ne_eq] at hb
  obtain ⟨⟨htime, hlow⟩, hcase⟩ := hb
  have hid : p.identifier = some b := by
    have hhead : p.data.head p.data_ne = b := by simp [hp]
    rw [Packet.identifier, hhead, if_neg htime]
  apply performs_packetHandler C.toStringCompressor locals p s b hid (by simpa using hlow)
  have hprint : dispatch R locals p b = print (stringBefore 0 p.data ++ ascii "\n") := by
    unfold dispatch
    cases hk : RRPGId.ofByte? b with
    | none => rfl
    | some k => cases k <;> simp_all
  rw [hprint]
  exact performs_print s _

/-- The bytes of a readable message make a client do what the message means, whatever its
local variables hold. -/
theorem performs_message (m : Message) (hm : m.Readable)
    (hp : p.data = (m.bits C.toStringCompressor).pack) :
    Performs (packetHandler C.toStringCompressor locals p) s () (s.heard m)
      ((s.shown m).map .print) := by
  have hdispatch (k : RRPGId) (bs : BitStream) {s' : GameClient} {acts : List ClientAct}
      (hdata : p.data = (BitStream.ofByte k.byte ++ bs).pack)
      (h : Performs (dispatch R locals p k.byte) s () s' acts) :
      Performs (packetHandler C.toStringCompressor locals p) s () s' acts :=
    performs_packetHandler C.toStringCompressor locals p s k.byte
      (Packet.payload_of_pack hdata).1 (byte_no_notice k) h
  cases m with
  | text message =>
    obtain ⟨b, rest, rfl, hb⟩ := hm
    have hdata : p.data = b :: (rest ++ [0]) := hp.trans (BitStream.pack_ofBytes _)
    have hend : stringBefore 0 p.data = stringBefore 0 (b :: rest) := by
      rw [hdata]
      exact stringBefore_concat 0 (b :: rest)
    have h := performs_text C locals s b (rest ++ [0]) hb hdata
    rwa [hend] at h
  | gameStarted =>
    apply hdispatch .sGameStarted [] (by rwa [List.append_nil])
    exact (performs_update s _).after (performs_print _ _)
  | takeTurn =>
    apply hdispatch .sTakeTurn [] (by rwa [List.append_nil])
    exact (performs_update s _).after (performs_printInstructions _)
  | replyPlayerListRequest players =>
    obtain ⟨_, _, hpayload⟩ := Packet.payload_of_pack hp
    exact hdispatch _ _ hp (performs_onPlayersListReceived C locals s players hm _ hpayload)
  | replyPlayerStatsRequest players =>
    obtain ⟨_, _, hpayload⟩ := Packet.payload_of_pack hp
    exact hdispatch _ _ hp (performs_onPlayersStatsReceived C locals s players hm.1 hm.2 _ hpayload)
  | updateGameState gameState records =>
    cases records with
    | none =>
      obtain rfl : gameState = .gsGameOver := hm
      obtain ⟨_, _, hpayload⟩ := Packet.payload_of_pack hp
      exact hdispatch _ _ hp (performs_gameOver locals s _ hpayload)
    | some records =>
      obtain ⟨rfl, hlength, hhealth⟩ := hm
      obtain ⟨_, _, hpayload⟩ := Packet.payload_of_pack hp
      rw [List.append_assoc] at hpayload
      exact hdispatch _ _ hp (performs_mainGame C locals s records hlength hhealth _ hpayload)
  | updatePlayerHp name health =>
    obtain ⟨_, _, hpayload⟩ := Packet.payload_of_pack hp
    exact hdispatch _ _ hp (performs_onPlayersHealthUpdated C locals s name health hm _ hpayload)

end

end GameClient

end RRPG
