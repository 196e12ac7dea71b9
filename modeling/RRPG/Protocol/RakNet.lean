import RRPG.Base.Buffer
import RRPG.Protocol.Text

/-!
# The network library

What the server uses of RakNet. Packets are byte arrays; a bit stream is the list of its
unread bits, most significant bit of a byte first. The functions whose code is not part of
the repository are the fields of `RakNet`, typed by their documentation.
-/

namespace RRPG

structure RakNetGUID where
  g : UInt64
  deriving DecidableEq, Repr

structure SystemAddress where
  address : UInt32
  port : UInt16
  deriving DecidableEq, Repr

/-- `RakNet::Packet`. A received packet holds at least its identifier. -/
structure Packet where
  systemAddress : SystemAddress
  guid : RakNetGUID
  data : Bytes
  data_ne : data ≠ []
  deriving DecidableEq

/-- The unread bits of a `RakNet::BitStream`. -/
abbrev BitStream : Type := List Bool

namespace BitStream

/-- The eight bits of a byte. -/
def ofByte (b : UInt8) : BitStream := (List.range 8).map (fun i ↦ b.toNat.testBit (7 - i))

def ofBytes (bs : Bytes) : BitStream := bs.flatMap ofByte

/-- The number a list of bits denotes. -/
def toNat (bs : BitStream) : Nat := bs.foldl (fun n b ↦ 2 * n + b.toNat) 0

/-- `Read` into a variable of one byte: it fails, and reads nothing, on fewer than eight
unread bits. -/
def readByte (bs : BitStream) : Option (UInt8 × BitStream) :=
  if 8 ≤ bs.length then some ((toNat (bs.take 8)).toUInt8, bs.drop 8) else none

end BitStream

/-- The stream every handler opens on a packet: `IgnoreBits(8)` skips the first byte. -/
def Packet.payload (p : Packet) : BitStream := BitStream.ofBytes (p.data.drop 1)

/-- The library functions without code in the repository. -/
structure RakNet where
  /-- `RakNetGUID::ToUint32`. -/
  toUint32 : RakNetGUID → UInt32
  /-- `StringCompressor::DecodeString`: a terminator is always appended, and a longer
  string is truncated to the limit. The second component is the stream left unread. -/
  decodeString : (limit : Nat) → [NeZero limit] → BitStream → CString limit × BitStream

/-! ### A concrete library -/

/-- The bytes of a stream, as far as they are whole. -/
def BitStream.toBytes : BitStream → Bytes
  | b₇ :: b₆ :: b₅ :: b₄ :: b₃ :: b₂ :: b₁ :: b₀ :: rest =>
    (BitStream.toNat [b₇, b₆, b₅, b₄, b₃, b₂, b₁, b₀]).toUInt8 :: BitStream.toBytes rest
  | _ => []

/-- The longest string at the front of a list of bytes that fits the limit. -/
def CString.ofBytes (limit : Nat) [NeZero limit] (bs : Bytes) : CString limit where
  bytes := (bs.takeWhile (· ≠ 0)).take (limit - 1)
  nul_free h := by
    have := List.all_eq_true.mp List.all_takeWhile 0 (List.mem_of_mem_take h)
    simp at this
  length_lt := by
    have := Nat.pos_of_neZero limit
    simp only [List.length_take]
    omega

/-- A library whose strings are not compressed. On an empty stream it decodes the empty
string, as the real one does. -/
def RakNet.plain : RakNet where
  toUint32 guid := (guid.g >>> 32).toUInt32 ^^^ guid.g.toUInt32
  decodeString limit _ bs := (CString.ofBytes limit bs.toBytes, [])

theorem BitStream.toNat_ofByte (b : UInt8) : (toNat (ofByte b)).toUInt8 = b := by
  have h : ∀ n : Fin 256, (toNat (ofByte (.ofNat n))).toUInt8 = .ofNat n := by decide +kernel
  have hb := h ⟨b.toNat, b.toNat_lt⟩
  rwa [UInt8.ofNat_toNat] at hb

/-- The bytes written are read back. -/
theorem BitStream.toBytes_ofBytes (bs : Bytes) : toBytes (ofBytes bs) = bs := by
  induction bs with
  | nil => rfl
  | cons b bs ih =>
    show (toNat (ofByte b)).toUInt8 :: toBytes (ofBytes bs) = b :: bs
    rw [toNat_ofByte, ih]

/-- Nothing is cut off a string that fits. -/
theorem CString.ofBytes_bytes (limit : Nat) [NeZero limit] (s : CString limit) :
    CString.ofBytes limit s.bytes = s := by
  have hnul : s.bytes.takeWhile (· ≠ 0) = s.bytes :=
    (Base.stringBefore_eq_self 0 s.bytes).mpr s.nul_free
  have hlength := s.length_lt
  apply CString.ext
  show (s.bytes.takeWhile (· ≠ 0)).take (limit - 1) = s.bytes
  rw [hnul, List.take_of_length_le (by omega)]

/-- A text that fits the limit is decoded as it is. -/
theorem RakNet.plain_decodeString (limit : Nat) [NeZero limit] (text : Bytes) (hnul : 0 ∉ text)
    (hlength : text.length < limit) :
    (RakNet.plain.decodeString limit (BitStream.ofBytes text)).1.bytes = text := by
  show (CString.ofBytes limit (BitStream.toBytes (BitStream.ofBytes text))).bytes = text
  rw [BitStream.toBytes_ofBytes]
  exact congrArg CString.bytes (CString.ofBytes_bytes limit ⟨text, hnul, hlength⟩)

end RRPG
