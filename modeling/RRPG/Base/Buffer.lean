import Mathlib.Data.List.TakeWhile

/-!
# Buffers

A buffer is the list of its cells. A copy into it is defined only where all of it falls
inside; copies that start where the one before ended amount to one copy. A string in a buffer
ends before the first terminator.
-/

namespace RRPG.Base

variable {α : Type}

/-- Copy the source into the buffer from the offset on; `none` if a cell falls outside. -/
def memcpy (offset : Nat) (source buffer : List α) : Option (List α) :=
  if offset + source.length ≤ buffer.length then
    some (buffer.take offset ++ (source ++ buffer.drop (offset + source.length)))
  else none

/-- What comes before the offset stays as it is. -/
theorem memcpy_append (front source rest : List α) :
    memcpy front.length source (front ++ rest) = (memcpy 0 source rest).map (front ++ ·) := by
  unfold memcpy
  by_cases h : source.length ≤ rest.length
  · rw [if_pos (by rw [List.length_append]; omega), if_pos (by omega), Option.map_some,
      List.take_left, List.drop_length_add_append, List.take_zero, Nat.zero_add, List.nil_append]
  · rw [if_neg (by rw [List.length_append]; omega), if_neg (by omega), Option.map_none]

/-- A copy to the start of the buffer is found there. -/
theorem memcpy_zero_eq_some (source buffer buffer' : List α) :
    memcpy 0 source buffer = some buffer' ↔
      source.length ≤ buffer.length ∧ buffer' = source ++ buffer.drop source.length := by
  unfold memcpy
  by_cases h : source.length ≤ buffer.length
  · simp [h, eq_comm]
  · simp [h]

/-- A copy over the end of the one before replaces it from there on. -/
theorem memcpy_bind_memcpy (xs ys zs buffer : List α) (h : ys.length ≤ zs.length) :
    (memcpy 0 (xs ++ ys) buffer).bind (memcpy xs.length zs) = memcpy 0 (xs ++ zs) buffer := by
  apply Option.ext
  intro result
  rw [Option.bind_eq_some_iff, memcpy_zero_eq_some]
  have hstep : memcpy xs.length zs ((xs ++ ys) ++ buffer.drop (xs ++ ys).length) = some result ↔
      zs.length ≤ ys.length + (buffer.length - (xs ++ ys).length) ∧
        xs ++ (zs ++ buffer.drop ((xs ++ ys).length + (zs.length - ys.length))) = result := by
    rw [List.append_assoc, memcpy_append, Option.map_eq_some_iff]
    simp only [memcpy_zero_eq_some, List.length_append, List.length_drop, List.drop_append,
      List.drop_of_length_le h, List.nil_append, List.drop_drop, and_assoc, exists_and_left,
      exists_eq_left]
  rw [List.length_append] at hstep
  rw [List.length_append]
  constructor
  · rintro ⟨buffer', hcopy, hresult⟩
    obtain ⟨hfits, rfl⟩ := (memcpy_zero_eq_some _ _ _).mp hcopy
    rw [List.length_append] at hfits hresult
    obtain ⟨hle, rfl⟩ := hstep.mp hresult
    refine ⟨by omega, ?_⟩
    rw [List.append_assoc]
    congr 3
    omega
  · rintro ⟨hfits, rfl⟩
    have hcopy := (memcpy_zero_eq_some (xs ++ ys) buffer _).mpr
      ⟨by rw [List.length_append]; omega, rfl⟩
    refine ⟨_, hcopy, ?_⟩
    rw [List.length_append, hstep]
    refine ⟨by omega, ?_⟩
    rw [List.append_assoc]
    congr 3
    omega

/-- A copy that starts where the one before ended continues it. -/
theorem memcpy_bind_append (xs ys buffer : List α) :
    (memcpy 0 xs buffer).bind (memcpy xs.length ys) = memcpy 0 (xs ++ ys) buffer := by
  have h := memcpy_bind_memcpy xs [] ys buffer (Nat.zero_le _)
  rwa [List.append_nil] at h

variable [DecidableEq α]

/-- The string at the start of the cells, up to the first terminator. -/
def stringBefore (terminator : α) (cells : List α) : List α :=
  cells.takeWhile (· ≠ terminator)

/-- Cells without terminator are all read. -/
theorem stringBefore_eq_self (terminator : α) (cells : List α) :
    stringBefore terminator cells = cells ↔ terminator ∉ cells := by
  unfold stringBefore
  rw [List.takeWhile_eq_self_iff]
  constructor
  · intro h hmem
    simpa using h terminator hmem
  · intro h c hc
    have hne : c ≠ terminator := by
      rintro rfl
      exact h hc
    simpa using hne

/-- A string is read back from where it was stored with its terminator. -/
theorem stringBefore_append (terminator : α) (text rest : List α) (h : terminator ∉ text) :
    stringBefore terminator (text ++ terminator :: rest) = text := by
  have hwhole := (stringBefore_eq_self terminator text).mpr h
  unfold stringBefore at hwhole ⊢
  rw [List.takeWhile_append_of_pos (List.takeWhile_eq_self_iff.mp hwhole)]
  simp

/-- One more terminator changes nothing. -/
theorem stringBefore_concat (terminator : α) (text : List α) :
    stringBefore terminator (text ++ [terminator]) = stringBefore terminator text := by
  induction text with
  | nil => simp [stringBefore]
  | cons c rest ih =>
    unfold stringBefore at ih ⊢
    rw [List.cons_append, List.takeWhile_cons, List.takeWhile_cons, ih]

/-- What comes before the first terminator contains none. -/
theorem not_mem_stringBefore (terminator : α) (cells : List α) :
    terminator ∉ stringBefore terminator cells := by
  intro h
  have := List.all_eq_true.mp List.all_takeWhile terminator h
  simp at this

theorem length_stringBefore_le (terminator : α) (cells : List α) :
    (stringBefore terminator cells).length ≤ cells.length :=
  List.Sublist.length_le (List.takeWhile_sublist _)

end RRPG.Base
