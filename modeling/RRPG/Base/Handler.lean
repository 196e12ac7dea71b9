import Mathlib.Data.List.Induction
import Mathlib.Order.Defs.Unbundled

/-!
# Handlers

A handler reads and writes a state and may stop early. Stopping keeps the state reached
so far, so what a handler did before it stopped stays observable. A run feeds a list of
inputs to one handler, in order, and ends at the first input that stops it.
-/

namespace RRPG.Base

/-- A computation over the state `σ` that may stop with a reason in `ε`. -/
abbrev Handler (σ ε α : Type) : Type := ExceptT ε (StateM σ) α

namespace Handler

variable {σ ε α β ι : Type}

/-- Outcome and final state of a handler started in `w`. -/
def exec (x : Handler σ ε α) (w : σ) : Except ε α × σ := StateT.run (ExceptT.run x) w

/-- Continue from an outcome: run `f` after a return, stop with the state reached otherwise. -/
def andThen (r : Except ε α × σ) (f : α → Handler σ ε β) : Except ε β × σ :=
  match r with
  | (.ok a, w) => exec (f a) w
  | (.error e, w) => (.error e, w)

@[simp] theorem andThen_ok (a : α) (w : σ) (f : α → Handler σ ε β) :
    andThen (.ok a, w) f = exec (f a) w := rfl

@[simp] theorem andThen_error (e : ε) (w : σ) (f : α → Handler σ ε β) :
    andThen (.error e, w) f = (.error e, w) := rfl

@[simp] theorem exec_pure (a : α) (w : σ) :
    exec (pure a : Handler σ ε α) w = (.ok a, w) := rfl

@[simp] theorem exec_bind (x : Handler σ ε α) (f : α → Handler σ ε β) (w : σ) :
    exec (x >>= f) w = andThen (exec x w) f := by
  simp only [exec, ExceptT.run_bind, StateT.run_bind]
  rcases StateT.run (ExceptT.run x) w with ⟨_ | _, w'⟩ <;> rfl

@[simp] theorem exec_map (g : α → β) (x : Handler σ ε α) (w : σ) :
    exec (g <$> x) w = andThen (exec x w) (fun a ↦ pure (g a)) := by
  rw [map_eq_pure_bind, exec_bind]

@[simp] theorem exec_throw (e : ε) (w : σ) :
    exec (throw e : Handler σ ε α) w = (.error e, w) := rfl

@[simp] theorem exec_get (w : σ) : exec (get : Handler σ ε σ) w = (.ok w, w) := rfl

@[simp] theorem exec_modify (f : σ → σ) (w : σ) :
    exec (modify f : Handler σ ε PUnit) w = (.ok ⟨⟩, f w) := rfl

/-! ### Relations between start and end -/

/-- Wherever the handler starts, it ends in relation with the start, stopped or not. -/
def Within (R : σ → σ → Prop) (x : Handler σ ε α) : Prop := ∀ w, R w (exec x w).2

section
variable {R : σ → σ → Prop} [Std.Refl R] [IsTrans σ R]

omit [IsTrans σ R] in
theorem Within.pure (a : α) : Within R (pure a : Handler σ ε α) :=
  fun w ↦ refl_of R w

omit [IsTrans σ R] in
theorem Within.throw (e : ε) : Within R (throw e : Handler σ ε α) :=
  fun w ↦ refl_of R w

omit [Std.Refl R] in
/-- Steps compose, wherever they stop. -/
theorem Within.bind {x : Handler σ ε α} {f : α → Handler σ ε β} (hx : Within R x)
    (hf : ∀ a, Within R (f a)) : Within R (x >>= f) := by
  intro w
  have hw := hx w
  rw [exec_bind]
  rcases hexec : exec x w with ⟨e | a, w'⟩
  · rwa [hexec] at hw
  · rw [hexec] at hw
    exact trans_of R hw (hf a w')

end

/-! ### Handlers built from primitive ones -/

/-- The handler is composed of returns, stops and primitive handlers. -/
inductive Built (Primitive : (α : Type) → Handler σ ε α → Prop) :
    (α : Type) → Handler σ ε α → Prop
  | pure {α : Type} (a : α) : Built Primitive α (pure a)
  | throw {α : Type} (e : ε) : Built Primitive α (throw e)
  | primitive {α : Type} {x : Handler σ ε α} (h : Primitive α x) : Built Primitive α x
  | bind {α β : Type} {x : Handler σ ε α} {f : α → Handler σ ε β} (hx : Built Primitive α x)
      (hf : ∀ a, Built Primitive β (f a)) : Built Primitive β (x >>= f)

section
variable {Primitive : (α : Type) → Handler σ ε α → Prop}

theorem Built.ite {c : Prop} [Decidable c] {x y : Handler σ ε α} (hx : Built Primitive α x)
    (hy : Built Primitive α y) : Built Primitive α (if c then x else y) := by
  split
  · exact hx
  · exact hy

/-- A relation that the primitives keep is kept by everything built from them. -/
theorem Built.within {R : σ → σ → Prop} [Std.Refl R] [IsTrans σ R] {x : Handler σ ε α}
    (hx : Built Primitive α x) (h : ∀ β (y : Handler σ ε β), Primitive β y → Within R y) :
    Within R x := by
  induction hx with
  | pure a => exact Within.pure a
  | throw e => exact Within.throw e
  | primitive hp => exact h _ _ hp
  | bind hx hf ihx ihf => exact ihx.bind ihf

end

/-! ### Runs -/

variable (f : ι → Handler σ ε Unit)

/-- Feed the inputs to the handler in order, until one stops it. -/
def run (inputs : List ι) : Handler σ ε Unit := inputs.forM f

@[simp] theorem exec_run_nil (w : σ) : exec (run f []) w = (.ok (), w) := rfl

theorem exec_run_cons (i : ι) (rest : List ι) (w : σ) :
    exec (run f (i :: rest)) w = andThen (exec (f i) w) (fun _ ↦ run f rest) := by
  simp [run, List.forM_cons]

/-- A run of a concatenation continues the first run if nothing stopped it. -/
theorem exec_run_append (xs ys : List ι) (w : σ) :
    exec (run f (xs ++ ys)) w = andThen (exec (run f xs) w) (fun _ ↦ run f ys) := by
  induction xs generalizing w with
  | nil => simp
  | cons i rest ih =>
    rw [List.cons_append, exec_run_cons, exec_run_cons]
    rcases exec (f i) w with ⟨e | u, w'⟩
    · simp
    · simp [ih]

/-- A run of one more input. -/
theorem exec_run_concat (xs : List ι) (i : ι) (w : σ) :
    exec (run f (xs ++ [i])) w = andThen (exec (run f xs) w) (fun _ ↦ f i) := by
  rw [exec_run_append]
  rcases exec (run f xs) w with ⟨e | u, w'⟩
  · simp
  · simp only [andThen_ok, exec_run_cons]
    rcases exec (f i) w' with ⟨e | u, w''⟩ <;> simp

/-- What every input preserves, stopped or not, holds where a run ends. -/
theorem run_invariant (I : σ → Prop) (xs : List ι) (w : σ) (h0 : I w)
    (hstep : ∀ i ∈ xs, ∀ v, I v → I (exec (f i) v).2) : I (exec (run f xs) w).2 := by
  induction xs generalizing w with
  | nil => exact h0
  | cons i rest ih =>
    have hi := hstep i (by simp) w h0
    rw [exec_run_cons]
    rcases hw : exec (f i) w with ⟨e | u, w'⟩
    · simpa [hw] using hi
    · rw [hw] at hi
      exact ih w' hi (fun j hj ↦ hstep j (by simp [hj]))

/-- The invariant rule that remembers the inputs, those after a stop among them. -/
theorem run_history (I : List ι → σ → Prop) (w : σ) (h0 : I [] w)
    (hstep : ∀ xs i v, I xs v → I (xs ++ [i]) (exec (f i) v).2)
    (hskip : ∀ xs i v, I xs v → I (xs ++ [i]) v) (xs : List ι) : I xs (exec (run f xs) w).2 := by
  induction xs using List.reverseRecOn with
  | nil => exact h0
  | append_singleton xs i ih =>
    rw [exec_run_concat]
    rcases hw : exec (run f xs) w with ⟨e | u, v⟩
    · rw [hw] at ih
      exact hskip xs i v ih
    · rw [hw] at ih
      exact hstep xs i v ih

/-- The invariant rule for inputs that are only guaranteed to behave from states the run
reaches. Inputs after a stop are never fed. -/
theorem run_induction (I : List ι → σ → Prop) (w : σ) (h0 : I [] w)
    (hstep : ∀ xs i v v', exec (run f xs) w = (.ok (), v) → I xs v →
      exec (f i) v = (.ok (), v') → I (xs ++ [i]) v') (xs : List ι) (v : σ)
    (hv : exec (run f xs) w = (.ok (), v)) : I xs v := by
  induction xs using List.reverseRecOn generalizing v with
  | nil =>
    obtain rfl : w = v := (Prod.mk.inj hv).2
    exact h0
  | append_singleton xs i ih =>
    rw [exec_run_concat] at hv
    rcases hw : exec (run f xs) w with ⟨e | u, w'⟩
    · simp [hw] at hv
    · rw [hw, andThen_ok] at hv
      exact hstep xs i w' v hw (ih w' hw) hv

/-- A run that was stopped was stopped by one of its inputs, after the ones before it
returned. -/
theorem run_stopped (xs : List ι) (w v : σ) (e : ε) (h : exec (run f xs) w = (.error e, v)) :
    ∃ pre i post u, xs = pre ++ i :: post ∧ exec (run f pre) w = (.ok (), u) ∧
      exec (f i) u = (.error e, v) := by
  induction xs generalizing w with
  | nil => simp at h
  | cons i rest ih =>
    rw [exec_run_cons] at h
    rcases hi : exec (f i) w with ⟨e' | u, w'⟩
    · rw [hi, andThen_error] at h
      exact ⟨[], i, rest, w, rfl, rfl, h ▸ hi⟩
    · rw [hi, andThen_ok] at h
      obtain ⟨pre, j, post, u', rfl, hpre, hj⟩ := ih w' h
      exact ⟨i :: pre, j, post, u', rfl, by rw [exec_run_cons, hi, andThen_ok, hpre], hj⟩

/-- Where an input keeps the invariant exactly when it is harmless, the invariant holds
after every part of a run exactly when every input that is reached is harmless. -/
theorem run_invariant_iff (I : σ → Prop) (Harmless : ι → σ → Prop) (xs : List ι) (w : σ)
    (h0 : I w) (hstep : ∀ i v, I v → (I (exec (f i) v).2 ↔ Harmless i v)) :
    (∀ pre post, xs = pre ++ post → I (exec (run f pre) w).2) ↔
      ∀ pre i post v, xs = pre ++ i :: post → exec (run f pre) w = (.ok (), v) →
        Harmless i v := by
  constructor
  · intro h pre i post v hsplit hv
    have hpre := h pre (i :: post) hsplit
    rw [hv] at hpre
    have hi := h (pre ++ [i]) post (by simp [hsplit])
    rw [exec_run_concat, hv, andThen_ok] at hi
    exact (hstep i v hpre).mp hi
  · intro h pre
    induction pre using List.reverseRecOn with
    | nil => exact fun _ _ ↦ h0
    | append_singleton pre i ih =>
      intro post hsplit
      have hpre := ih (i :: post) (by simp [hsplit])
      rw [exec_run_concat]
      rcases hv : exec (run f pre) w with ⟨e | u, v⟩
      · rw [hv] at hpre
        exact hpre
      · rw [hv] at hpre
        exact (hstep i v hpre).mpr (h pre i post v (by simp [hsplit]) hv)

/-- Where an allowed input returns, keeping the invariant, exactly when it is harmless, a
run returns exactly when every input that is reached is harmless. -/
theorem run_returns_iff (I : σ → Prop) (Harmless : ι → σ → Prop) (xs : List ι) (w : σ)
    (h0 : I w)
    (hgood : ∀ i ∈ xs, ∀ v, I v → Harmless i v → ∃ v', exec (f i) v = (.ok (), v') ∧ I v')
    (hbad : ∀ i ∈ xs, ∀ v, I v → ¬ Harmless i v → ∃ e v', exec (f i) v = (.error e, v')) :
    (exec (run f xs) w).1 = .ok () ↔
      ∀ pre i post v, xs = pre ++ i :: post → exec (run f pre) w = (.ok (), v) →
        Harmless i v := by
  induction xs generalizing w with
  | nil => simp
  | cons i rest ih =>
    rw [exec_run_cons]
    by_cases hi : Harmless i w
    · obtain ⟨w', hw', hI⟩ := hgood i (by simp) w h0 hi
      rw [hw', andThen_ok, ih w' hI (fun j hj ↦ hgood j (by simp [hj]))
        (fun j hj ↦ hbad j (by simp [hj]))]
      constructor
      · intro h pre j post v hsplit hv
        cases pre with
        | nil =>
          obtain ⟨rfl, -⟩ := List.cons.inj hsplit
          obtain rfl : w = v := (Prod.mk.inj hv).2
          exact hi
        | cons i' pre =>
          obtain ⟨rfl, hrest⟩ := List.cons.inj hsplit
          rw [exec_run_cons, hw', andThen_ok] at hv
          exact h pre j post v hrest hv
      · intro h pre j post v hsplit hv
        exact h (i :: pre) j post v (by simp [hsplit]) (by rw [exec_run_cons, hw', andThen_ok, hv])
    · obtain ⟨e, w', hw'⟩ := hbad i (by simp) w h0 hi
      rw [hw', andThen_error]
      constructor
      · intro h
        cases h
      · intro h
        exact absurd (h [] i rest w rfl rfl) hi

end Handler
end RRPG.Base
