import Mathlib.Logic.Function.Iterate

/-!
# While loops

A loop over a state, with its condition and body as functions. `runWhile` runs at most a
given number of passes. The loop terminates when some pass meets a false condition; with
enough passes `runWhile` then returns that state, and it never returns one otherwise.
-/

namespace RRPG.Base

variable {α : Type}

/-- Run the body while the condition holds, for at most `fuel` passes; `none` when the
condition still holds then. -/
def runWhile (cond : α → Bool) (body : α → α) : Nat → α → Option α
  | 0, x => if cond x then none else some x
  | fuel + 1, x => if cond x then runWhile cond body fuel (body x) else some x

/-- The loop leaves its body after finitely many passes. -/
def Terminates (cond : α → Bool) (body : α → α) (x : α) : Prop :=
  ∃ n, cond (body^[n] x) = false

theorem runWhile_of_not (cond : α → Bool) (body : α → α) (fuel : Nat) (x : α)
    (h : cond x = false) : runWhile cond body fuel x = some x := by
  cases fuel <;> simp [runWhile, h]

theorem runWhile_succ (cond : α → Bool) (body : α → α) (fuel : Nat) (x : α)
    (h : cond x = true) : runWhile cond body (fuel + 1) x = runWhile cond body fuel (body x) := by
  simp [runWhile, h]

/-- A bounded run that gives up met a true condition at every pass. -/
theorem runWhile_eq_none (cond : α → Bool) (body : α → α) (fuel : Nat) (x : α) :
    runWhile cond body fuel x = none ↔ ∀ n ≤ fuel, cond (body^[n] x) = true := by
  induction fuel generalizing x with
  | zero => simp [runWhile]
  | succ fuel ih =>
    by_cases h : cond x = true
    · rw [runWhile_succ cond body fuel x h, ih]
      constructor
      · intro hs n hn
        cases n with
        | zero => exact h
        | succ n => exact hs n (by omega)
      · intro hs n hn
        exact hs (n + 1) (by omega)
    · have hf : cond x = false := by simpa using h
      rw [runWhile_of_not cond body _ x hf]
      constructor
      · intro hn
        cases hn
      · intro hs
        exact absurd (hs 0 (Nat.zero_le _)) h

/-- A bounded run returns the first state with a false condition, if it gets that far. -/
theorem runWhile_eq_some (cond : α → Bool) (body : α → α) (fuel : Nat) (x y : α) :
    runWhile cond body fuel x = some y ↔
      ∃ n ≤ fuel, (∀ m < n, cond (body^[m] x) = true) ∧ cond (body^[n] x) = false ∧
        body^[n] x = y := by
  induction fuel generalizing x with
  | zero =>
    by_cases h : cond x = true
    · simp [runWhile, h]
    · simp [runWhile, h]
  | succ fuel ih =>
    by_cases h : cond x = true
    · rw [runWhile_succ cond body fuel x h, ih]
      constructor
      · rintro ⟨n, hn, hpasses, hstop, hy⟩
        refine ⟨n + 1, by omega, ?_, hstop, hy⟩
        intro m hm
        cases m with
        | zero => exact h
        | succ m => exact hpasses m (by omega)
      · rintro ⟨n, hn, hpasses, hstop, hy⟩
        cases n with
        | zero => simp [h] at hstop
        | succ n => exact ⟨n, by omega, fun m hm ↦ hpasses (m + 1) (by omega), hstop, hy⟩
    · have hf : cond x = false := by simpa using h
      rw [runWhile_of_not cond body _ x hf, Option.some.injEq]
      constructor
      · intro hy
        exact ⟨0, by omega, by omega, hf, hy⟩
      · rintro ⟨n, _, hpasses, _, hy⟩
        cases n with
        | zero => exact hy
        | succ n =>
          have hfirst := hpasses 0 (by omega)
          simp [hf] at hfirst

/-- The loop terminates exactly when some bounded run returns. -/
theorem terminates_iff (cond : α → Bool) (body : α → α) (x : α) :
    Terminates cond body x ↔ ∃ fuel y, runWhile cond body fuel x = some y := by
  constructor
  · rintro ⟨n, hn⟩
    cases hr : runWhile cond body n x with
    | none =>
      have := (runWhile_eq_none cond body n x).mp hr n (Nat.le_refl n)
      simp [hn] at this
    | some y => exact ⟨n, y, hr⟩
  · rintro ⟨fuel, y, hr⟩
    by_contra hn
    have : runWhile cond body fuel x = none := by
      rw [runWhile_eq_none]
      intro n _
      by_contra hc
      exact hn ⟨n, by simpa using hc⟩
    simp [this] at hr

/-! ### Rules -/

/-- Total correctness: an invariant kept by the body, and a measure the body lowers, give a
result within as many passes as the measure allows. -/
theorem runWhile_total (cond : α → Bool) (body : α → α) (I : α → Prop) (μ : α → Nat)
    (hstep : ∀ x, I x → cond x = true → I (body x) ∧ μ (body x) < μ x)
    (fuel : Nat) (x : α) (hx : I x) (hμ : μ x ≤ fuel) :
    ∃ y, runWhile cond body fuel x = some y ∧ I y ∧ cond y = false := by
  induction fuel generalizing x with
  | zero =>
    by_cases hc : cond x = true
    · have := (hstep x hx hc).2
      omega
    · have hf : cond x = false := by simpa using hc
      exact ⟨x, runWhile_of_not cond body 0 x hf, hx, hf⟩
  | succ fuel ih =>
    by_cases hc : cond x = true
    · obtain ⟨hi, hlt⟩ := hstep x hx hc
      rw [runWhile_succ cond body fuel x hc]
      exact ih (body x) hi (by omega)
    · have hf : cond x = false := by simpa using hc
      exact ⟨x, runWhile_of_not cond body _ x hf, hx, hf⟩

/-- Divergence: where the condition keeps holding, no number of passes gives a result. -/
theorem runWhile_diverges (cond : α → Bool) (body : α → α) (I : α → Prop)
    (hstep : ∀ x, I x → cond x = true ∧ I (body x)) (fuel : Nat) (x : α) (hx : I x) :
    runWhile cond body fuel x = none := by
  induction fuel generalizing x with
  | zero => simp [runWhile, (hstep x hx).1]
  | succ fuel ih =>
    rw [runWhile_succ cond body fuel x (hstep x hx).1]
    exact ih (body x) (hstep x hx).2

/-- A loop seen through a map is the loop on what is seen, where condition and body are. -/
theorem runWhile_map {β : Type} (f : α → β) (cond : α → Bool) (body : α → α) (cond' : β → Bool)
    (body' : β → β) (hcond : ∀ x, cond' (f x) = cond x) (hbody : ∀ x, body' (f x) = f (body x))
    (fuel : Nat) (x : α) :
    (runWhile cond body fuel x).map f = runWhile cond' body' fuel (f x) := by
  induction fuel generalizing x with
  | zero =>
    rw [runWhile, runWhile, hcond]
    split <;> rfl
  | succ fuel ih =>
    rw [runWhile, runWhile, hcond, hbody]
    split
    · exact ih (body x)
    · rfl

end RRPG.Base
