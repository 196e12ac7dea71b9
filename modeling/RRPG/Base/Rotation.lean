import Mathlib.Data.List.Chain
import Mathlib.Data.List.Count
import Mathlib.Order.Lattice

/-!
# Rotation

Going round a linear order: from a point upwards, from the greatest element on to the
least, and up to the point itself. `Before p x y` orders two elements by this tour from
`p`, and `Next alive p x` says that `x` is the first living element met. A sequence of
such moves under a shrinking set of living elements serves everybody in turn.
-/

namespace RRPG.Base

variable {K : Type} [LinearOrder K]

/-- On the tour from `p`, `x` is met before `y`; `p` itself is met last. -/
def Before (p x y : K) : Prop := (p < x ∧ y ≤ p) ∨ (x < y ∧ (p < x ↔ p < y))

/-- `x` is the first living element on the tour from `p`. -/
structure Next (alive : K → Prop) (p x : K) : Prop where
  living : alive x
  first : ∀ y, alive y → y ≠ x → Before p x y

theorem before_asymm (p x y : K) (h : Before p x y) : ¬ Before p y x := by
  unfold Before at *
  grind

theorem before_trans (p x y z : K) (hxy : Before p x y) (hyz : Before p y z) :
    Before p x z := by
  unfold Before at *
  grind

theorem before_total (p x y : K) (h : x ≠ y) : Before p x y ∨ Before p y x := by
  unfold Before
  grind

/-- The starting point is the last element of its own tour. -/
theorem before_self (p x : K) (h : x ≠ p) : Before p x p := by
  unfold Before
  grind

/-- Two tours agree on what lies between their starting points. -/
theorem before_rotate (p c x : K) (hc : c ≠ p) (h : Before c x p) : Before p c x := by
  unfold Before at *
  grind

/-- What a tour from `c` meets before `y`, the tour from `p` meets before `y` as well, if it
reaches `c` before `y`. -/
theorem before_advance (p c x y : K) (hxy : Before c x y) (hy : Before p c y) :
    Before p x y := by
  unfold Before at *
  grind

/-- A tour through finitely many elements meets a living one if there is one. -/
theorem exists_next (ks : List K) (alive : K → Prop) (p : K) (h : ∃ k ∈ ks, alive k) :
    ∃ x, Next (fun k ↦ k ∈ ks ∧ alive k) p x := by
  induction ks with
  | nil => simp at h
  | cons a rest ih =>
    by_cases hr : ∃ k ∈ rest, alive k
    · obtain ⟨x, hx⟩ := ih hr
      by_cases ha : alive a ∧ Before p a x
      · refine ⟨a, ⟨by simp, ha.1⟩, ?_⟩
        rintro y ⟨hy, hya⟩ hne
        rcases List.mem_cons.mp hy with rfl | hy
        · exact absurd rfl hne
        · by_cases hxy : y = x
          · exact hxy ▸ ha.2
          · exact before_trans p _ _ _ ha.2 (hx.first y ⟨hy, hya⟩ hxy)
      · refine ⟨x, ⟨by simp [hx.living.1], hx.living.2⟩, ?_⟩
        rintro y ⟨hy, hya⟩ hne
        rcases List.mem_cons.mp hy with rfl | hy
        · rcases before_total p y x hne with hb | hb
          · exact absurd ⟨hya, hb⟩ ha
          · exact hb
        · exact hx.first y ⟨hy, hya⟩ hne
    · obtain ⟨k, hk, hka⟩ := h
      obtain rfl : k = a := by
        rcases List.mem_cons.mp hk with rfl | hk
        · rfl
        · exact absurd ⟨k, hk, hka⟩ hr
      refine ⟨k, ⟨hk, hka⟩, ?_⟩
      rintro y ⟨hy, hya⟩ hne
      rcases List.mem_cons.mp hy with rfl | hy
      · exact absurd rfl hne
      · exact absurd ⟨y, hy, hya⟩ hr

/-- The starting point comes first on its own tour only if no other element is living. -/
theorem Next.eq_start_iff {alive : K → Prop} {p x : K} (h : Next alive p x) :
    x = p ↔ ∀ y, alive y ↔ y = p := by
  constructor
  · rintro rfl y
    constructor
    · intro hy
      by_contra hne
      exact before_asymm x x y (h.first y hy hne) (before_self x y hne)
    · rintro rfl
      exact h.living
  · intro honly
    exact (honly x).mp h.living

/-! ### Sequences of turns -/

variable {T : Type} (pos : T → K) (alive : T → K → Prop)

/-- One turn after another: nobody comes back to life and the turn passes to the first
living element. -/
structure Passes (s t : T) : Prop where
  shrink : ∀ x, alive t x → alive s x
  next : Next (alive t) (pos s) (pos t)

/-- Along a chain of turns, who lives at the end lived all the time. -/
theorem alive_of_chain (seg : List T) (c b : T)
    (hc : (c :: (seg ++ [b])).IsChain (Passes pos alive)) (x : K) (hx : alive b x) :
    alive c x ∧ ∀ d ∈ seg, alive d x := by
  induction seg generalizing c with
  | nil =>
    have h := (List.isChain_cons_cons.mp hc).1
    exact ⟨h.shrink x hx, by simp⟩
  | cons d rest ih =>
    obtain ⟨h, hr⟩ := List.isChain_cons_cons.mp hc
    obtain ⟨hd, hrest⟩ := ih d hr
    refine ⟨h.shrink x hd, ?_⟩
    intro e he
    rcases List.mem_cons.mp he with rfl | he
    · exact hd
    · exact hrest e he

/-- The last turn of a chain goes to somebody living. -/
theorem living_of_chain (seg : List T) (c b : T)
    (hc : (c :: (seg ++ [b])).IsChain (Passes pos alive)) : alive b (pos b) := by
  induction seg generalizing c with
  | nil => exact (List.isChain_cons_cons.mp hc).1.next.living
  | cons d rest ih => exact ih d (List.isChain_cons_cons.mp hc).2

/-- On the way from `c` to the next turn of `p`, a survivor other than `p` has one turn if
the tour from `p` meets it after `c`, and none otherwise. -/
theorem count_until [DecidableEq K] (p k : K) (hk : k ≠ p) (seg : List T) (c b : T)
    (hc : (c :: (seg ++ [b])).IsChain (Passes pos alive)) (hb : pos b = p)
    (hseg : ∀ d ∈ seg, pos d ≠ p) (hkb : alive b k) :
    ((pos c = p ∨ Before p (pos c) k) → (seg.map pos).count k = 1) ∧
      ((pos c ≠ p ∧ ¬ Before p (pos c) k) → (seg.map pos).count k = 0) := by
  induction seg generalizing c with
  | nil =>
    have h := (List.isChain_cons_cons.mp hc).1
    have hf := h.next.first k hkb (by rwa [hb])
    rw [hb] at hf
    refine ⟨?_, fun _ ↦ rfl⟩
    rintro (hcp | hck)
    · rw [hcp] at hf
      exact absurd hf (before_asymm p k p (before_self p k hk))
    · exfalso
      unfold Before at *
      grind
  | cons d rest ih =>
    obtain ⟨h, hr⟩ := List.isChain_cons_cons.mp hc
    have hd : pos d ≠ p := hseg d (by simp)
    have hpb : alive b p := hb ▸ living_of_chain pos alive rest d b hr
    have hpd := (alive_of_chain pos alive rest d b hr p hpb).1
    have hkd := (alive_of_chain pos alive rest d b hr k hkb).1
    have hdp := h.next.first p hpd (Ne.symm hd)
    have ih' := ih d hr (fun e he ↦ hseg e (by simp [he]))
    by_cases hdk : pos d = k
    · subst hdk
      have hz : (rest.map pos).count (pos d) = 0 :=
        ih'.2 ⟨hd, fun hn ↦ before_asymm p _ _ hn hn⟩
      refine ⟨fun _ ↦ by simp [hz], ?_⟩
      rintro ⟨hcp, hck⟩
      exact absurd (before_rotate p (pos c) (pos d) hcp hdp) hck
    · have hdk' := h.next.first k hkd (Ne.symm hdk)
      have hcount : ((d :: rest).map pos).count k = (rest.map pos).count k := by
        simp [hdk]
      rw [hcount]
      constructor
      · rintro (hcp | hck)
        · exact ih'.1 (Or.inr (hcp ▸ hdk'))
        · by_cases hcp : pos c = p
          · exact ih'.1 (Or.inr (hcp ▸ hdk'))
          · exact ih'.1 (Or.inr (before_advance p (pos c) (pos d) k hdk' hck))
      · rintro ⟨hcp, hck⟩
        refine ih'.2 ⟨hd, fun hn ↦ hck ?_⟩
        exact before_trans p _ _ _ (before_rotate p (pos c) (pos d) hcp hdp) hn

/-- Between two consecutive turns of one element, everybody else alive at the second has
exactly one turn. -/
theorem count_between [DecidableEq K] (seg : List T) (a b : T)
    (hc : (a :: (seg ++ [b])).IsChain (Passes pos alive)) (hab : pos a = pos b)
    (hseg : ∀ d ∈ seg, pos d ≠ pos a) (k : K) (hk : k ≠ pos a) (hkb : alive b k) :
    (seg.map pos).count k = 1 :=
  (count_until pos alive (pos a) k hk seg a b hc hab.symm hseg hkb).1 (Or.inl rfl)

end RRPG.Base
