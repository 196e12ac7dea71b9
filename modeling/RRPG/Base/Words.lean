import Mathlib.Data.List.Basic

/-!
# Words

The words of a line are its longest parts without separators, in their order: what an input
stream yields when strings are extracted from it one after the other.
-/

namespace RRPG.Base

variable {α : Type} (separator : α → Bool)

/-- The words of a line. -/
def words (line : List α) : List (List α) :=
  (line.splitOnP separator).filter fun word ↦ !word.isEmpty

/-- The parts between separators are parts of the line. -/
theorem sublist_of_mem_splitOnP (line part : List α) (h : part ∈ line.splitOnP separator) :
    part.Sublist line := by
  induction line generalizing part with
  | nil =>
    rw [List.splitOnP_nil, List.mem_singleton] at h
    exact h ▸ List.Sublist.slnil
  | cons b rest ih =>
    obtain ⟨first, parts, hparts⟩ := List.exists_cons_of_ne_nil (rest.splitOnP_ne_nil separator)
    rw [List.splitOnP_cons_eq_if_modifyHead] at h
    rw [hparts] at h ih
    by_cases hb : separator b = true
    · rw [if_pos hb, List.mem_cons] at h
      cases h with
      | inl h => exact h ▸ List.nil_sublist _
      | inr h => exact (ih part h).cons b
    · rw [if_neg hb, List.modifyHead_cons, List.mem_cons] at h
      cases h with
      | inl h => exact h ▸ (ih first List.mem_cons_self).cons_cons b
      | inr h => exact (ih part (List.mem_cons_of_mem first h)).cons b

/-- Every word of a line is a part of it. -/
theorem sublist_of_mem_words (line word : List α) (h : word ∈ words separator line) :
    word.Sublist line :=
  sublist_of_mem_splitOnP separator line word (List.mem_of_mem_filter h)

end RRPG.Base
