import Mathlib.Algebra.Order.Ring.Nat

/-!
# Streams

A reader takes a value off the front of a stream of tokens, or fails. It reads a value from
some tokens if it returns the value and leaves what follows them untouched, whatever that is;
so the readers of the parts of a record read the record, and a reader called as often as a
count says reads a list. Numbers are written as bits, the most significant one first.
-/

namespace RRPG.Base

/-- A reader of values of type `α` from a stream of tokens. -/
abbrev Reader (τ α : Type) : Type := StateT (List τ) Option α

variable {τ α β : Type}

/-- The reader gets `a` from the tokens, and reads nothing more. -/
def Reads (r : Reader τ α) (tokens : List τ) (a : α) : Prop :=
  ∀ rest, r.run (tokens ++ rest) = some (a, rest)

theorem Reads.pure (a : α) : Reads (pure a : Reader τ α) [] a := fun _ ↦ rfl

/-- One part after the other. -/
theorem Reads.bind {r : Reader τ α} {f : α → Reader τ β} {u v : List τ} {a : α} {b : β}
    (hr : Reads r u a) (hf : Reads (f a) v b) : Reads (r >>= f) (u ++ v) b := by
  intro rest
  rw [StateT.run_bind, List.append_assoc, hr (v ++ rest)]
  exact hf rest

/-- The last part. -/
theorem Reads.last {r : Reader τ α} {f : α → Reader τ β} {u : List τ} {a : α} {b : β}
    (hr : Reads r u a) (hf : Reads (f a) [] b) : Reads (r >>= f) u b := by
  have h := hr.bind hf
  rwa [List.append_nil] at h

/-- A stream of nothing else is read to its end. -/
theorem Reads.run_eq {r : Reader τ α} {tokens : List τ} {a : α} (h : Reads r tokens a) :
    r.run tokens = some (a, []) := by
  have := h []
  rwa [List.append_nil] at this

/-- Call a reader so many times. -/
def readMany (r : Reader τ α) : Nat → Reader τ (List α)
  | 0 => pure []
  | n + 1 => do
    let a ← r
    let rest ← readMany r n
    return a :: rest

/-- A list is read by as many calls as it has elements. -/
theorem Reads.many {r : Reader τ α} (write : α → List τ) (xs : List α)
    (h : ∀ x ∈ xs, Reads r (write x) x) : Reads (readMany r xs.length) (xs.flatMap write) xs := by
  induction xs with
  | nil => exact Reads.pure []
  | cons x rest ih =>
    have hx := h x (by simp)
    have hrest := ih fun y hy ↦ h y (List.mem_cons_of_mem x hy)
    rw [List.flatMap_cons]
    exact hx.bind (hrest.last (Reads.pure _))

/-! ### Reading into variables -/

/-- Read into a variable, which keeps its value where the reader fails. -/
def readInto (r : Reader τ α) (a : α) (tokens : List τ) : α × List τ :=
  (r.run tokens).getD (a, tokens)

theorem Reads.into {r : Reader τ α} {u : List τ} {a : α} (h : Reads r u a) (old : α)
    (rest : List τ) : readInto r old (u ++ rest) = (a, rest) := by
  rw [readInto, h rest, Option.getD_some]

/-- What each pass of a loop leaves in its variables. -/
def passes (body : α → α) : Nat → α → List α
  | 0, _ => []
  | n + 1, a => body a :: passes body n (body a)

/-- A loop whose body reads one record leaves the records of a list one after the other. -/
theorem passes_reads (body : α × List τ → α × List τ) (write : α → List τ) (xs : List α)
    (h : ∀ x ∈ xs, ∀ old rest, body (old, write x ++ rest) = (x, rest)) (old : α)
    (rest : List τ) :
    (passes body xs.length (old, xs.flatMap write ++ rest)).map Prod.fst = xs := by
  induction xs generalizing old with
  | nil => rfl
  | cons x xs ih =>
    have hx := h x List.mem_cons_self old (xs.flatMap write ++ rest)
    have hxs := ih (fun y hy ↦ h y (List.mem_cons_of_mem x hy)) x
    rw [List.flatMap_cons, List.append_assoc, List.length_cons, passes, hx, List.map_cons, hxs]

/-! ### Numbers as bits -/

/-- The last `width` bits of a number. -/
def toBits : (width n : Nat) → List Bool
  | 0, _ => []
  | width + 1, n => n.testBit width :: toBits width n

/-- The number a list of bits denotes. -/
def ofBits (bits : List Bool) : Nat := bits.foldl (fun n b ↦ 2 * n + b.toNat) 0

@[simp] theorem length_toBits (width n : Nat) : (toBits width n).length = width := by
  induction width with
  | zero => rfl
  | succ width ih => rw [toBits, List.length_cons, ih]

/-- Each bit read doubles what was read before. -/
theorem foldl_bits (n : Nat) (bits : List Bool) :
    bits.foldl (fun n b ↦ 2 * n + b.toNat) n = 2 ^ bits.length * n + ofBits bits := by
  induction bits generalizing n with
  | nil => simp [ofBits]
  | cons b rest ih =>
    have hcons : ofBits (b :: rest) = 2 ^ rest.length * b.toNat + ofBits rest := by
      rw [← ih, ofBits, List.foldl_cons, Nat.mul_zero, Nat.zero_add]
    rw [List.foldl_cons, ih, hcons, List.length_cons, Nat.pow_succ, Nat.mul_add, Nat.mul_assoc,
      Nat.add_assoc]

theorem ofBits_cons (b : Bool) (bits : List Bool) :
    ofBits (b :: bits) = 2 ^ bits.length * b.toNat + ofBits bits := by
  rw [ofBits, List.foldl_cons, foldl_bits, Nat.mul_zero, Nat.zero_add]

/-- The bits kept denote the number up to what they leave out. -/
theorem ofBits_toBits (width n : Nat) : ofBits (toBits width n) = n % 2 ^ width := by
  induction width with
  | zero => simp [toBits, ofBits, Nat.mod_one]
  | succ width ih =>
    rw [toBits, ofBits_cons, ih, length_toBits, Nat.toNat_testBit, Nat.mod_pow_succ, Nat.add_comm]

end RRPG.Base
