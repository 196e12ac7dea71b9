import RRPG.Protocol.Wire

/-!
# Streams as packet data

`Send` takes whole bytes from a bit stream: the last one is filled up. The receiver opens a
stream on these bytes, which is the stream sent and the bits that filled it up.
-/

open RRPG.Base

namespace RRPG

namespace BitStream

/-- The bits that fill up the last byte. -/
def padding (bs : BitStream) : BitStream := List.replicate ((8 - bs.length % 8) % 8) false

/-- The bytes `Send` takes from a stream. -/
def pack (bs : BitStream) : Bytes := toBytes (bs ++ bs.padding)

theorem ofByte_toNat (b₇ b₆ b₅ b₄ b₃ b₂ b₁ b₀ : Bool) :
    ofByte (toNat [b₇, b₆, b₅, b₄, b₃, b₂, b₁, b₀]).toUInt8 =
      [b₇, b₆, b₅, b₄, b₃, b₂, b₁, b₀] := by
  revert b₇ b₆ b₅ b₄ b₃ b₂ b₁ b₀
  decide +kernel

@[simp] theorem length_ofByte (b : UInt8) : (ofByte b).length = 8 := by
  rw [ofByte_eq, length_toBits]

/-- Whole bytes are read back. -/
theorem ofBytes_toBytes (bs : BitStream) (h : bs.length % 8 = 0) : ofBytes (toBytes bs) = bs := by
  fun_induction toBytes bs with
  | case1 b₇ b₆ b₅ b₄ b₃ b₂ b₁ b₀ rest ih =>
    have hrest : rest.length % 8 = 0 := by
      simp only [List.length_cons] at h
      omega
    show ofByte _ ++ ofBytes (toBytes rest) = _
    rw [ofByte_toNat, ih hrest]
    rfl
  | case2 bs hshort =>
    -- fewer than eight bits, so none
    match bs, h, hshort with
    | [], _, _ => rfl
    | [_], h, _ | [_, _], h, _ | [_, _, _], h, _ | [_, _, _, _], h, _ | [_, _, _, _, _], h, _
    | [_, _, _, _, _, _], h, _ | [_, _, _, _, _, _, _], h, _ => simp at h
    | b₇ :: b₆ :: b₅ :: b₄ :: b₃ :: b₂ :: b₁ :: b₀ :: rest, _, hshort =>
      exact absurd rfl (hshort b₇ b₆ b₅ b₄ b₃ b₂ b₁ b₀ rest)

/-- The receiver reads the stream, and what filled up its last byte. -/
theorem ofBytes_pack (bs : BitStream) : ofBytes bs.pack = bs ++ bs.padding := by
  apply ofBytes_toBytes
  rw [List.length_append, padding, List.length_replicate]
  omega

/-- Something to send is some bytes. -/
theorem pack_ne (bs : BitStream) (h : bs ≠ []) : bs.pack ≠ [] := by
  intro hpack
  have hnone := ofBytes_pack bs
  rw [hpack] at hnone
  exact h (List.append_eq_nil_iff.mp hnone.symm).1

theorem ofByte_append_ne (b : UInt8) (bs : BitStream) : ofByte b ++ bs ≠ [] := by
  intro h
  have := congrArg List.length h
  rw [List.length_append, length_ofByte, List.length_nil] at this
  omega

theorem padding_ofByte_append (b : UInt8) (bs : BitStream) :
    (ofByte b ++ bs).padding = bs.padding := by
  unfold padding
  congr 1
  rw [List.length_append, length_ofByte]
  omega

/-- A byte written first is the first byte of the data. -/
theorem pack_ofByte_append (b : UInt8) (bs : BitStream) :
    (ofByte b ++ bs).pack = b :: bs.pack := by
  unfold pack
  rw [padding_ofByte_append, List.append_assoc]
  show (toNat (ofByte b)).toUInt8 :: toBytes (bs ++ bs.padding) = _
  rw [toNat_ofByte]

theorem pack_nil : pack [] = [] := rfl

/-- Bytes are taken as they are. -/
theorem pack_ofBytes (bytes : Bytes) : (ofBytes bytes).pack = bytes := by
  induction bytes with
  | nil => exact pack_nil
  | cons b rest ih =>
    show (ofByte b ++ ofBytes rest).pack = b :: rest
    rw [pack_ofByte_append, ih]

end BitStream

/-! ### Strings of any length -/

/-- A compressor whose strings are cut off by the reader: what `EncodeString` writes of a
string that fits its own limit, `DecodeString` reads back as far as its limit goes. -/
structure StringCodec (R : RakNet) extends StringCompressor R where
  decode_fits : ∀ (written limit : Nat) [NeZero limit] (s : Bytes) (rest : BitStream),
    0 ∉ s → s.length < written → written < 2 ^ 31 →
    R.decodeString limit (encodeString written s ++ rest) = (CString.ofBytes limit s, rest)

theorem RakNet.counted_fits (written limit : Nat) [NeZero limit] (s : Bytes) (rest : BitStream)
    (hlength : s.length < written) (hwritten : written < 2 ^ 31) :
    RakNet.counted.decodeString limit (StringCompressor.counted.encodeString written s ++ rest) =
      (CString.ofBytes limit s, rest) := by
  have hreads := reads_counted byteField BitStream.ofByte s (by omega) fun b _ ↦ reads_byte b
  have hrun : bytesField.run (encodeCounted written s ++ rest) = some (s, rest) := by
    rw [encodeCounted, List.take_of_length_le (by omega)]
    exact hreads rest
  have hencode : StringCompressor.counted.encodeString written s = encodeCounted written s := rfl
  rw [RakNet.counted_decodeString, hencode, decodeCounted, hrun]

def StringCodec.counted : StringCodec RakNet.counted where
  toStringCompressor := .counted
  decode_fits written limit _ s rest _ := RakNet.counted_fits written limit s rest

end RRPG
