import RRPG.Protocol.Text

/-!
# Players

`Include/RRPG_Player.h`. A stored class is any byte a client sent: the enumeration's type
is `unsigned char` and nothing checks its range.
-/

namespace RRPG

/-- `CharacterClass`. -/
inductive CharacterClass where
  | wizard
  | warrior
  | assassin
  deriving DecidableEq, Repr

/-- The enumerator a byte stands for. -/
def CharacterClass.ofByte? : UInt8 → Option CharacterClass
  | 0 => some wizard
  | 1 => some warrior
  | 2 => some assassin
  | _ => none

/-- `GetStringFromClass`. -/
def getStringFromClass (cc : UInt8) : Bytes :=
  match CharacterClass.ofByte? cc with
  | some .wizard => ascii "Wizard"
  | some .warrior => ascii "Warrior"
  | some .assassin => ascii "Assassin"
  | none => ascii "Jobless"

/-- `Action`. -/
inductive Action where
  | heal
  | healRng
  | attack
  | atkRng
  deriving DecidableEq, Repr

/-- The enumerator a byte stands for. The server's switch has no default case. -/
def Action.ofByte? : UInt8 → Option Action
  | 0 => some heal
  | 1 => some healRng
  | 2 => some attack
  | 3 => some atkRng
  | _ => none

/-- A player's name, as decoded into a buffer of 256 bytes. -/
abbrev Name : Type := CString 256

instance neZeroNameLimit : NeZero 256 := ⟨by decide⟩

/-- The limit of a chat. -/
instance neZeroChatLimit : NeZero 2048 := ⟨by decide⟩

/-- `Player`. Aggregate initialisation leaves `job` zero. -/
structure Player where
  name : Name
  health : Int := 100
  ready : Bool := false
  job : UInt8 := 0
  dead : Bool := false
  deriving DecidableEq, Repr

/-- The range of a 32-bit `int`, in which `health` is stored. -/
def int32 (x : Int) : Int := x.bmod (2 ^ 32)

theorem int32_mem (x : Int) : -2 ^ 31 ≤ int32 x ∧ int32 x < 2 ^ 31 := by
  have hlo := Int.le_bmod (x := x) (m := 2 ^ 32) (by omega)
  have hhi := Int.bmod_lt (x := x) (m := 2 ^ 32) (by omega)
  unfold int32
  omega

/-- Nothing wraps within the range. -/
theorem int32_eq_self (x : Int) (hlo : -2 ^ 31 ≤ x) (hhi : x < 2 ^ 31) : int32 x = x := by
  rw [int32, Int.bmod_def]
  omega

end RRPG
