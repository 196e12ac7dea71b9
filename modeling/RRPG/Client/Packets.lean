import RRPG.Client.Messages

/-!
# Client packets at the server

What the client's program writes for a line or an introduction, the server's handlers read back:
the identifier, the class or the action, and every string as far as the server's buffer goes.
-/

open RRPG.Base RRPG.Base.Handler

namespace RRPG

theorem CharacterClass.ofByte?_byte (cc : CharacterClass) :
    CharacterClass.ofByte? cc.byte = some cc := by
  cases cc <;> rfl

theorem Action.ofByte?_byte (action : Action) : Action.ofByte? action.byte = some action := by
  cases action <;> rfl

/-- A string is cut at its first terminator when it is written, and again when it is read. -/
theorem CString.ofBytes_stringBefore (limit : Nat) [NeZero limit] (s : Bytes) :
    CString.ofBytes limit (stringBefore 0 s) = CString.ofBytes limit s := by
  ext1
  show ((stringBefore 0 s).takeWhile (· ≠ 0)).take (limit - 1) = _
  rw [show (stringBefore 0 s).takeWhile (· ≠ 0) = stringBefore 0 s from
    (stringBefore_eq_self 0 _).mpr (not_mem_stringBefore 0 s)]
  rfl

variable {R : RakNet} (C : StringCodec R)

/-- A string of the client is read as far as the limit goes. -/
theorem StringCodec.decode_writeString (limit : Nat) [NeZero limit] (s : Bytes)
    (hs : s.length + 1 < 2 ^ 31) (rest : BitStream) :
    R.decodeString limit (GameClient.writeString C.toStringCompressor s ++ rest) =
      (CString.ofBytes limit s, rest) := by
  have hlength := length_stringBefore_le 0 s
  rw [GameClient.writeString, C.decode_fits (s.length + 1) limit (stringBefore 0 s) rest
    (not_mem_stringBefore 0 s) (by omega) hs, CString.ofBytes_stringBefore]

namespace ClientPacket

/-- The string a packet carries. -/
def string : ClientPacket → Bytes
  | .intro name _ => name
  | .chat message => message
  | .actionTaken _ name => name
  | .ready | .unready | .playerListRequest | .playerStatsRequest | .jobChosen _ => []

/-- The server's handlers read the fields of the packet. -/
def Understood (S : Setup) (p : Packet) : ClientPacket → Prop
  | .intro name _ => (S.decodeString 256 p.payload).1 = CString.ofBytes 256 name
  | .chat message => (S.decodeString 2048 p.payload).1 = CString.ofBytes 2048 message
  | .jobChosen cc => ∀ job, CharacterClass.ofByte? (chosenJob p job) = some cc
  | .actionTaken action name => ∀ c, Action.ofByte? (readAction S c p).1 = some action ∧
      (readAction S c p).2 = CString.ofBytes 256 name
  | .ready | .unready | .playerListRequest | .playerStatsRequest => True

/-- What was written is understood. -/
theorem understood {S : Setup} (C : StringCodec S.toRakNet) (packet : ClientPacket)
    (hstring : packet.string.length + 1 < 2 ^ 31) (p : Packet)
    (hp : p.data = (packet.bits C.toStringCompressor).pack) :
    p.kind = some packet.kind ∧ packet.Understood S p := by
  obtain ⟨-, hk, hpayload⟩ := Packet.payload_of_pack hp
  refine ⟨hk, ?_⟩
  cases packet with
  | intro name isReady =>
    rw [fields, List.append_assoc] at hpayload
    rw [Understood, hpayload, C.decode_writeString 256 name hstring]
  | chat message =>
    rw [fields] at hpayload
    rw [Understood, hpayload, C.decode_writeString 2048 message hstring]
  | jobChosen cc =>
    rw [fields] at hpayload
    intro job
    have hread : p.payload.readByte = _ := hpayload ▸ reads_byte cc.byte _
    rw [chosenJob, hread]
    exact cc.ofByte?_byte
  | actionTaken action name =>
    rw [fields, List.append_assoc] at hpayload
    intro c
    have hread : p.payload.readByte = _ := hpayload ▸ reads_byte action.byte _
    rw [readAction, hread]
    exact ⟨action.ofByte?_byte, congrArg Prod.fst (C.decode_writeString 256 name hstring _)⟩
  | _ => trivial

end ClientPacket

namespace GameClient

/-- What is sent for a line is no longer than the line or the client's name. -/
theorem Typed.length_string {s s' : GameClient} {line : Bytes} {packet : ClientPacket}
    (h : s.Typed line s' (some packet)) :
    packet.string.length ≤ max line.length s.player.name.length := by
  cases h with
  | chats => exact Nat.le_max_left _ _
  | answers hstate hturn answer hanswer =>
    cases hanswer with
    | job => exact Nat.zero_le _
    | action hstate command word rest hwords action haction name htarget =>
      have hword : word ∈ words isspace (line.map tolower) := by simp [hwords]
      have hle := (sublist_of_mem_words isspace _ word hword).length_le
      rw [List.length_map] at hle
      show name.length ≤ _
      unfold target? at htarget
      split at htarget
      · obtain rfl := Option.some.inj htarget
        omega
      · split at htarget
        · obtain rfl := Option.some.inj htarget
          omega
        · cases htarget
  | _ => exact Nat.zero_le _

/-- Whatever is typed in whatever state of the client: what is sent has the identifier of what
the line means, and the server's handlers read its fields. -/
theorem typed_understood {S : Setup} (C : StringCodec S.toRakNet) (s : GameClient) (line : Bytes)
    (hline : line.length + 1 < 2 ^ 31) (hname : s.player.name.length + 1 < 2 ^ 31)
    (bs : BitStream)
    (hbs : bs ∈ posted (exec (inputHandler C.toStringCompressor line) ⟨s, []⟩).2.acts)
    (p : Packet) (hp : p.data = bs.pack) :
    ∃ packet, s.Typed line (exec (inputHandler C.toStringCompressor line) ⟨s, []⟩).2.client
        (some packet) ∧ p.kind = some packet.kind ∧ packet.Understood S p := by
  rcases s.inputHandler_does C.toStringCompressor line with
    ⟨s', acts, sent, h, htyped, hposted⟩ | ⟨_, h⟩
  · rw [h []] at hbs ⊢
    cases sent with
    | none => simp [hposted] at hbs
    | some packet =>
      obtain rfl : bs = packet.bits C.toStringCompressor := by simpa [hposted] using hbs
      have hle := htyped.length_string
      exact ⟨packet, htyped, packet.understood C (by omega) p hp⟩
  · rw [h []] at hbs
    cases hbs

/-- A client on turn in the main game, whose opponent is called `b`. -/
def facing : GameClient where
  networkState := .nsGameStarted
  gameState := GameState.gsMain.byte
  player := { name := ascii "A" }
  players := [{ name := ascii "A" }, { name := ascii "b" }]
  myTurn := true

/-- It types `.ATK B`. -/
theorem facing_understood :
    let p : Packet := ⟨⟨1, 60000⟩, ⟨1⟩,
      [RRPGId.cActionTaken.byte, Action.attack.byte, 0, 0, 0, 1, 98], by decide⟩
    ∃ packet, facing.Typed (ascii ".ATK B")
        (exec (inputHandler StringCompressor.counted (ascii ".ATK B")) ⟨facing, []⟩).2.client
        (some packet) ∧
      p.kind = some packet.kind ∧ packet.Understood (.counted 2) p :=
  typed_understood (S := .counted 2) .counted facing (ascii ".ATK B") (by decide) (by decide)
    ((ClientPacket.actionTaken .attack (ascii "b")).bits StringCompressor.counted)
    (by decide +kernel) _ (by decide +kernel)

end GameClient

end RRPG
