import Mathlib.Data.List.Basic
import Mathlib.Data.List.Count

/-!
# Interleavings

Several parties follow one script, each at its own pace. A schedule lists who does what, in
the order in which it happens; it interleaves the script when every party has done exactly
the script, in its order.
-/

namespace RRPG.Base

variable {Party Stage : Type} [DecidableEq Party]

/-- What a party has done. -/
def past (done : List (Party × Stage)) (k : Party) : List Stage :=
  (done.filter (fun e ↦ e.1 = k)).map Prod.snd

/-- Every party has followed the script. -/
def Interleaves (script : List Stage) (schedule : List (Party × Stage)) : Prop :=
  ∀ k, past schedule k = script

theorem mem_past (done : List (Party × Stage)) (k : Party) (stage : Stage) :
    stage ∈ past done k ↔ (k, stage) ∈ done := by
  simp [past]

theorem past_append (xs ys : List (Party × Stage)) (k : Party) :
    past (xs ++ ys) k = past xs k ++ past ys k := by
  simp [past]

theorem past_cons_self (k : Party) (stage : Stage) (rest : List (Party × Stage)) :
    past ((k, stage) :: rest) k = stage :: past rest k := by
  simp [past]

theorem past_concat_self (done : List (Party × Stage)) (k : Party) (stage : Stage) :
    past (done ++ [(k, stage)]) k = past done k ++ [stage] := by
  simp [past]

theorem past_concat_ne (done : List (Party × Stage)) (j k : Party) (stage : Stage)
    (h : k ≠ j) : past (done ++ [(j, stage)]) k = past done k := by
  simp [past, h.symm]

/-- How often something was done is how often its party did it. -/
theorem count_past [DecidableEq Stage] (done : List (Party × Stage)) (k : Party)
    (stage : Stage) : (past done k).count stage = done.count (k, stage) := by
  induction done with
  | nil => rfl
  | cons e rest ih =>
    obtain ⟨j, stage'⟩ := e
    by_cases hj : j = k
    · subst hj
      rw [past_cons_self, List.count_cons, List.count_cons, ih]
      simp
    · have hpast : past ((j, stage') :: rest) k = past rest k := by simp [past, hj]
      rw [hpast, ih, List.count_cons_of_ne]
      simp [hj]

/-- Schedules in which every party has done the same are made of the same steps. -/
theorem perm_of_past [DecidableEq Stage] (xs ys : List (Party × Stage))
    (h : ∀ k, past xs k = past ys k) : xs.Perm ys := by
  rw [List.perm_iff_count]
  rintro ⟨k, stage⟩
  rw [← count_past, ← count_past, h k]

/-- A party about to take a step of the script has taken exactly the steps before it. -/
theorem Interleaves.split {script : List Stage} {done rest : List (Party × Stage)} {k : Party}
    {stage : Stage} (h : Interleaves script (done ++ (k, stage) :: rest)) :
    script = past done k ++ stage :: past rest k := by
  rw [← h k, past_append, past_cons_self]

/-- Every party takes every step of the script. -/
theorem Interleaves.mem {script : List Stage} {schedule : List (Party × Stage)}
    (h : Interleaves script schedule) (k : Party) {stage : Stage} (hs : stage ∈ script) :
    (k, stage) ∈ schedule := by
  rw [← mem_past, h k]
  exact hs

/-- A schedule ends with the last step of the script. -/
theorem Interleaves.last {script : List Stage} {done : List (Party × Stage)} {k : Party}
    {stage : Stage} (h : Interleaves script (done ++ [(k, stage)])) :
    script = past done k ++ [stage] := by
  rw [← h k, past_append, past_cons_self]
  rfl

end RRPG.Base
