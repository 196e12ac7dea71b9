import RRPG.Base.Stream
import RRPG.Protocol.Player
import RRPG.Protocol.RakNet

/-!
# The wire format

What `BitStream::Write` puts on a stream for a byte, an `int` and a `bool`, what `Read` takes
off it again, and strings as `StringCompressor` writes them. An `int` goes in network order,
a `bool` is one bit, and nothing is aligned.
-/

open RRPG.Base

namespace RRPG

namespace BitStream

/-- `Write` of an `int`. -/
def writeInt (n : Int) : BitStream := toBits 32 (n % 2 ^ 32).toNat

/-- `Write` of a `bool`. -/
def writeBool (b : Bool) : BitStream := [b]

/-- `Read` into an `int`. -/
def readInt (bs : BitStream) : Option (Int × BitStream) :=
  if 32 ≤ bs.length then some (int32 (toNat (bs.take 32)), bs.drop 32) else none

/-- `Read` into a `bool`. -/
def readBool : BitStream → Option (Bool × BitStream)
  | [] => none
  | b :: rest => some (b, rest)

theorem toNat_eq (bs : BitStream) : toNat bs = ofBits bs := rfl

theorem ofByte_eq (b : UInt8) : ofByte b = toBits 8 b.toNat := rfl

end BitStream

/-- Readers of the fields of a packet. -/
abbrev Field (α : Type) : Type := Reader Bool α

def byteField : Field UInt8 := BitStream.readByte

def intField : Field Int := BitStream.readInt

def boolField : Field Bool := BitStream.readBool

/-- The string compressor without code in the repository: what `EncodeString` writes,
`DecodeString` with the same limit reads back, and it reads nothing else. -/
structure StringCompressor (R : RakNet) where
  /-- `StringCompressor::EncodeString`, given the limit. -/
  encodeString : Nat → Bytes → BitStream
  decode_encode : ∀ (name : Name) (rest : BitStream),
    R.decodeString 256 (encodeString 256 name.bytes ++ rest) = (name, rest)

variable {R : RakNet}

def nameField (_ : StringCompressor R) : Field Name := fun bs ↦ some (R.decodeString 256 bs)

/-! ### Reading what was written -/

theorem reads_byte (b : UInt8) : Reads byteField (BitStream.ofByte b) b := by
  intro rest
  have hlength : (BitStream.ofByte b).length = 8 := by
    rw [BitStream.ofByte_eq, length_toBits]
  have hbyte : (BitStream.toNat (BitStream.ofByte b)).toUInt8 = b := by
    rw [BitStream.toNat_eq, BitStream.ofByte_eq, ofBits_toBits,
      Nat.mod_eq_of_lt (show b.toNat < 2 ^ 8 from b.toNat_lt)]
    exact UInt8.ofNat_toNat
  show BitStream.readByte (BitStream.ofByte b ++ rest) = some (b, rest)
  rw [BitStream.readByte, if_pos (by simp [hlength]), List.take_left' hlength,
    List.drop_left' hlength, hbyte]

theorem reads_int (n : Int) (hlo : -2 ^ 31 ≤ n) (hhi : n < 2 ^ 31) :
    Reads intField (BitStream.writeInt n) n := by
  intro rest
  have hlength : (BitStream.writeInt n).length = 32 := length_toBits _ _
  have hint : int32 (BitStream.toNat (BitStream.writeInt n)) = n := by
    rw [BitStream.toNat_eq, BitStream.writeInt, ofBits_toBits]
    rw [int32, Int.bmod_def]
    omega
  show BitStream.readInt (BitStream.writeInt n ++ rest) = some (n, rest)
  rw [BitStream.readInt, if_pos (by simp [hlength]), List.take_left' hlength,
    List.drop_left' hlength, hint]

theorem reads_bool (b : Bool) : Reads boolField (BitStream.writeBool b) b := fun _ ↦ rfl

/-- A count and as many records are read back. -/
theorem reads_counted {α : Type} (r : Field α) (write : α → BitStream) (xs : List α)
    (hlength : xs.length < 2 ^ 31) (h : ∀ x ∈ xs, Reads r (write x) x) :
    Reads (do
      let count ← intField
      readMany r count.toNat) (BitStream.writeInt xs.length ++ xs.flatMap write) xs := by
  have hcount := reads_int xs.length (by omega) (by omega)
  exact hcount.bind (Reads.many write xs h)

theorem reads_name (C : StringCompressor R) (name : Name) :
    Reads (nameField C) (C.encodeString 256 name.bytes) name := by
  intro rest
  show some (R.decodeString 256 (C.encodeString 256 name.bytes ++ rest)) = some (name, rest)
  rw [C.decode_encode]

/-! ### A concrete compressor -/

/-- A count and as many bytes. -/
def bytesField : Field Bytes := do
  let count ← intField
  readMany byteField count.toNat

/-- Like `DecodeString` it returns the empty string where the stream is too short. -/
def decodeCounted (limit : Nat) [NeZero limit] (bs : BitStream) : CString limit × BitStream :=
  match bytesField.run bs with
  | some (bytes, rest) => (CString.ofBytes limit bytes, rest)
  | none => (CString.ofBytes limit [], [])

/-- What fits a buffer is sent as its length and its bytes. -/
def encodeCounted (limit : Nat) (bytes : Bytes) : BitStream :=
  BitStream.writeInt (bytes.take (limit - 1)).length ++ BitStream.ofBytes (bytes.take (limit - 1))

theorem decodeCounted_encodeCounted (limit : Nat) [NeZero limit] (hlimit : limit ≤ 2 ^ 31)
    (s : CString limit) (rest : BitStream) :
    decodeCounted limit (encodeCounted limit s.bytes ++ rest) = (s, rest) := by
  have hlength := s.length_lt
  have hreads := reads_counted byteField BitStream.ofByte s.bytes (by omega) fun b _ ↦ reads_byte b
  have hrun : bytesField.run (encodeCounted limit s.bytes ++ rest) = some (s.bytes, rest) := by
    rw [encodeCounted, List.take_of_length_le (by omega)]
    exact hreads rest
  rw [decodeCounted, hrun]
  show (CString.ofBytes limit s.bytes, rest) = (s, rest)
  rw [CString.ofBytes_bytes]

/-- A library that sends strings as they are, behind their length. -/
def RakNet.counted : RakNet where
  toUint32 := RakNet.plain.toUint32
  decodeString := decodeCounted

theorem RakNet.counted_decodeString (limit : Nat) [NeZero limit] (bs : BitStream) :
    RakNet.counted.decodeString limit bs = decodeCounted limit bs := rfl

def StringCompressor.counted : StringCompressor RakNet.counted where
  encodeString := encodeCounted
  decode_encode name rest := by
    rw [RakNet.counted_decodeString, decodeCounted_encodeCounted 256 (by omega)]

end RRPG
