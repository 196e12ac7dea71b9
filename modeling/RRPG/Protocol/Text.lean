import Mathlib.Algebra.Order.Ring.Nat

/-!
# Text

Byte strings as the server formats and stores them. `CString limit` is what a buffer of
`limit` bytes holds up to its terminator.
-/

namespace RRPG

abbrev Bytes : Type := List UInt8

/-- The bytes of a string literal. -/
def ascii (s : String) : Bytes := s.toList.map (fun c ↦ c.toNat.toUInt8)

/-- A NUL-terminated string that fits a buffer of `limit` bytes, terminator included. -/
structure CString (limit : Nat) where
  bytes : Bytes
  nul_free : 0 ∉ bytes
  length_lt : bytes.length < limit
  deriving DecidableEq, Repr

/-- Equal bytes determine equal strings. -/
@[ext] theorem CString.ext {limit : Nat} {s t : CString limit} (h : s.bytes = t.bytes) :
    s = t := by
  cases s
  cases t
  simp_all

/-- What `snprintf` leaves in a buffer of `size` bytes. -/
def snprintf (size : Nat) (text : Bytes) : Bytes := text.take (size - 1)

/-- The conversion `%i`. -/
def formatInt (n : Int) : Bytes := ascii (toString n)

end RRPG
