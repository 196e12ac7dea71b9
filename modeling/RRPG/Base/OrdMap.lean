import Mathlib.Order.Lattice
import Mathlib.Data.List.Pairwise
import Mathlib.Data.List.Nodup
import Mathlib.Data.List.Perm.Subperm
import Mathlib.Data.Option.Basic

/-!
# Ordered finite maps

A finite map stored as its entries in strictly ascending key order, with the
operations of an ordered associative container: lookup, insert-if-absent, update in
place, and iteration. An iterator is an `Option` key whose `none` is the end position.
-/

namespace RRPG.Base

/-- A finite map whose entry list is strictly sorted by key. -/
structure OrdMap (K V : Type) [LinearOrder K] where
  entries : List (K × V)
  sorted : entries.Pairwise (fun a b ↦ a.1 < b.1)

namespace OrdMap

variable {K V : Type} [LinearOrder K]

/-- Equal entry lists determine equal maps. -/
@[ext] theorem ext {m n : OrdMap K V} (h : m.entries = n.entries) : m = n := by
  cases m
  cases n
  simp_all

instance [DecidableEq V] : DecidableEq (OrdMap K V) := fun m n ↦
  decidable_of_iff (m.entries = n.entries) ⟨ext, fun h ↦ h ▸ rfl⟩

/-- The map without entries. -/
def empty : OrdMap K V := ⟨[], List.Pairwise.nil⟩

/-- The keys in ascending order. -/
def keys (m : OrdMap K V) : List K := m.entries.map Prod.fst

/-- The number of entries. -/
def size (m : OrdMap K V) : Nat := m.entries.length

instance : Membership K (OrdMap K V) := ⟨fun m k ↦ k ∈ m.keys⟩

theorem mem_def (m : OrdMap K V) (k : K) : k ∈ m ↔ k ∈ m.keys := Iff.rfl

instance (m : OrdMap K V) (k : K) : Decidable (k ∈ m) :=
  inferInstanceAs (Decidable (k ∈ m.keys))

/-- The value stored under a key. -/
def find? (m : OrdMap K V) (k : K) : Option V :=
  (m.entries.find? (fun e ↦ e.1 = k)).map Prod.snd

private def insertNew (k : K) (v : V) : List (K × V) → List (K × V)
  | [] => [(k, v)]
  | e :: rest => if k < e.1 then (k, v) :: e :: rest else e :: insertNew k v rest

private theorem mem_insertNew (k : K) (v : V) (es : List (K × V)) (e : K × V) :
    e ∈ insertNew k v es ↔ e = (k, v) ∨ e ∈ es := by
  induction es with
  | nil => simp [insertNew]
  | cons a rest ih =>
    simp only [insertNew]
    split
    · simp
    · simp only [List.mem_cons, ih]
      tauto

private theorem sorted_insertNew (k : K) (v : V) (es : List (K × V))
    (hs : es.Pairwise (fun a b ↦ a.1 < b.1)) (hk : ∀ e ∈ es, e.1 ≠ k) :
    (insertNew k v es).Pairwise (fun a b ↦ a.1 < b.1) := by
  induction es with
  | nil => simp [insertNew]
  | cons a rest ih =>
    have ha := List.pairwise_cons.mp hs
    simp only [insertNew]
    split
    · next hlt =>
      refine List.pairwise_cons.mpr ⟨?_, hs⟩
      intro e he
      rcases List.mem_cons.mp he with rfl | he
      · exact hlt
      · exact hlt.trans (ha.1 e he)
    · next hlt =>
      refine List.pairwise_cons.mpr ⟨?_, ih ha.2 (fun e he ↦ hk e (by simp [he]))⟩
      intro e he
      rcases (mem_insertNew k v rest e).mp he with rfl | he
      · exact lt_of_le_of_ne (not_lt.mp hlt) (hk a (by simp))
      · exact ha.1 e he

/-- Insert an entry unless its key is already present (`std::map::emplace`). -/
def emplace (m : OrdMap K V) (k : K) (v : V) : OrdMap K V :=
  if h : k ∈ m then m
  else ⟨insertNew k v m.entries, sorted_insertNew k v m.entries m.sorted (by
    intro e he hk
    exact h (List.mem_map.mpr ⟨e, he, hk⟩))⟩

/-- Rewrite every value, keeping the keys. -/
def mapVal (m : OrdMap K V) (f : K → V → V) : OrdMap K V :=
  ⟨m.entries.map (fun e ↦ (e.1, f e.1 e.2)), by
    rw [List.pairwise_map]
    exact m.sorted⟩

/-- Update the value stored under one key, if it is present. -/
def adjust (m : OrdMap K V) (k : K) (f : V → V) : OrdMap K V :=
  m.mapVal (fun j v ↦ if j = k then f v else v)

/-- The first position, `none` when the map is empty. -/
def begin? (m : OrdMap K V) : Option K := m.keys.head?

/-- The position after a key, `none` at the end. -/
def next? (m : OrdMap K V) (k : K) : Option K := m.keys.find? (fun j ↦ k < j)

/-- The first key in order whose value satisfies `p`. -/
def findKey? (m : OrdMap K V) (p : V → Bool) : Option K :=
  (m.entries.find? (fun e ↦ p e.2)).map Prod.fst

/-- Whether every value satisfies `p`. -/
def all (m : OrdMap K V) (p : V → Bool) : Bool := m.entries.all (fun e ↦ p e.2)

/-- How many values satisfy `p`. -/
def count (m : OrdMap K V) (p : V → Bool) : Nat := m.entries.countP (fun e ↦ p e.2)

/-! ### Keys and lookup -/

/-- Keys ascend strictly. -/
theorem keys_sorted (m : OrdMap K V) : m.keys.Pairwise (· < ·) := by
  rw [keys, List.pairwise_map]
  exact m.sorted

/-- No key occurs twice. -/
theorem keys_nodup (m : OrdMap K V) : m.keys.Nodup :=
  m.keys_sorted.imp (fun h ↦ ne_of_lt h)

theorem length_keys (m : OrdMap K V) : m.keys.length = m.size := by
  simp [keys, size]

/-- There are no more entries than keys to choose from. -/
theorem size_le_of_subset (m : OrdMap K V) (ks : List K) (h : m.keys ⊆ ks) :
    m.size ≤ ks.length := by
  rw [← m.length_keys]
  exact (List.subperm_of_subset m.keys_nodup h).length_le

private theorem mem_entries_iff_aux (k : K) (v : V) (es : List (K × V))
    (hs : es.Pairwise (fun a b ↦ a.1 < b.1)) :
    (es.find? (fun e ↦ e.1 = k)).map Prod.snd = some v ↔ (k, v) ∈ es := by
  induction es with
  | nil => simp
  | cons a rest ih =>
    have ha := List.pairwise_cons.mp hs
    rcases a with ⟨j, w⟩
    by_cases hj : j = k
    · subst j
      have hn : (k, v) ∉ rest := fun hm ↦ lt_irrefl k (ha.1 (k, v) hm)
      simp [hn, eq_comm]
    · have hk : ¬ k = j := fun h ↦ hj h.symm
      simp only [List.find?_cons, hj, decide_false, ih ha.2, List.mem_cons, Prod.mk.injEq,
        hk, false_and, false_or]

/-- Lookup finds exactly the stored entries. -/
theorem find?_eq_some (m : OrdMap K V) (k : K) (v : V) :
    m.find? k = some v ↔ (k, v) ∈ m.entries :=
  mem_entries_iff_aux k v m.entries m.sorted

/-- A key is present exactly when lookup succeeds. -/
theorem mem_iff_find? (m : OrdMap K V) (k : K) : k ∈ m ↔ ∃ v, m.find? k = some v := by
  constructor
  · intro h
    obtain ⟨⟨j, v⟩, he, hj⟩ := List.mem_map.mp h
    change j = k at hj
    subst j
    exact ⟨v, (m.find?_eq_some k v).mpr he⟩
  · rintro ⟨v, hv⟩
    exact List.mem_map.mpr ⟨(k, v), (m.find?_eq_some k v).mp hv, rfl⟩

/-- Lookup fails exactly at absent keys. -/
theorem find?_eq_none (m : OrdMap K V) (k : K) : m.find? k = none ↔ k ∉ m := by
  rw [mem_iff_find?]
  cases m.find? k <;> simp

@[simp] theorem keys_empty : (empty : OrdMap K V).keys = [] := rfl

@[simp] theorem not_mem_empty (k : K) : k ∉ (empty : OrdMap K V) := by
  simp [mem_def]

@[simp] theorem find?_empty (k : K) : (empty : OrdMap K V).find? k = none := rfl

/-- Lookup determines the map. -/
theorem ext_find? {m n : OrdMap K V} (h : ∀ k, m.find? k = n.find? k) : m = n := by
  apply ext
  refine List.Perm.eq_of_pairwise
    (fun a b _ _ hab hba ↦ absurd hab (not_lt.mpr hba.le)) m.sorted n.sorted ?_
  have nodup (p : OrdMap K V) : p.entries.Nodup := by
    refine List.Pairwise.imp ?_ p.sorted
    rintro a b hab rfl
    exact lt_irrefl a.1 hab
  rw [List.perm_ext_iff_of_nodup (nodup m) (nodup n)]
  rintro ⟨k, v⟩
  rw [← find?_eq_some, ← find?_eq_some, h k]

/-! ### Insertion -/

theorem emplace_of_mem (m : OrdMap K V) (k : K) (v : V) (h : k ∈ m) : m.emplace k v = m := by
  simp [emplace, h]

private theorem entries_emplace (m : OrdMap K V) (k : K) (v : V) (h : k ∉ m) (e : K × V) :
    e ∈ (m.emplace k v).entries ↔ e = (k, v) ∨ e ∈ m.entries := by
  simp only [emplace, dif_neg h]
  exact mem_insertNew k v m.entries e

/-- Insertion adds exactly its key. -/
@[simp] theorem mem_emplace (m : OrdMap K V) (k : K) (v : V) (j : K) :
    j ∈ m.emplace k v ↔ j = k ∨ j ∈ m := by
  by_cases h : k ∈ m
  · rw [emplace_of_mem m k v h]
    constructor
    · exact Or.inr
    · rintro (rfl | hj)
      · exact h
      · exact hj
  · simp only [mem_def, keys, List.mem_map, entries_emplace m k v h]
    constructor
    · rintro ⟨e, rfl | he, rfl⟩
      · exact Or.inl rfl
      · exact Or.inr ⟨e, he, rfl⟩
    · rintro (rfl | ⟨e, he, rfl⟩)
      · exact ⟨(j, v), Or.inl rfl, rfl⟩
      · exact ⟨e, Or.inr he, rfl⟩

/-- An insertion keeps every stored value and adds the new one only at an absent key. -/
theorem find?_emplace (m : OrdMap K V) (k : K) (v : V) (j : K) :
    (m.emplace k v).find? j = if j = k ∧ k ∉ m then some v else m.find? j := by
  by_cases h : k ∈ m
  · simp [emplace_of_mem m k v h, h]
  · apply Option.ext
    intro w
    rw [find?_eq_some, entries_emplace m k v h]
    by_cases hj : j = k
    · subst j
      have hn : (k, w) ∉ m.entries := by
        rw [← find?_eq_some, (m.find?_eq_none k).mpr h]
        simp
      simp [h, hn, eq_comm]
    · simp [hj, find?_eq_some]

/-- An insertion falls back on the new value at its key. -/
theorem find?_emplace_or (m : OrdMap K V) (k : K) (v : V) (j : K) :
    (m.emplace k v).find? j = if j = k then (m.find? j).or (some v) else m.find? j := by
  rw [find?_emplace]
  by_cases hj : j = k
  · subst hj
    cases hm : m.find? j with
    | none => simp [(m.find?_eq_none j).mp hm]
    | some w => simp [(m.mem_iff_find? j).mpr ⟨w, hm⟩]
  · simp [hj]

/-! ### Updates in place -/

@[simp] theorem keys_mapVal (m : OrdMap K V) (f : K → V → V) : (m.mapVal f).keys = m.keys := by
  simp [keys, mapVal]

@[simp] theorem mem_mapVal (m : OrdMap K V) (f : K → V → V) (k : K) :
    k ∈ m.mapVal f ↔ k ∈ m := by
  simp [mem_def]

@[simp] theorem find?_mapVal (m : OrdMap K V) (f : K → V → V) (k : K) :
    (m.mapVal f).find? k = (m.find? k).map (f k) := by
  apply Option.ext
  intro v
  rw [find?_eq_some, Option.map_eq_some_iff]
  simp only [mapVal, List.mem_map, Prod.mk.injEq, find?_eq_some]
  constructor
  · rintro ⟨⟨j, w⟩, he, rfl, rfl⟩
    exact ⟨w, he, rfl⟩
  · rintro ⟨w, he, rfl⟩
    exact ⟨(k, w), he, rfl, rfl⟩

/-- Mapping the identity changes nothing. -/
@[simp] theorem mapVal_self (m : OrdMap K V) : m.mapVal (fun _ v ↦ v) = m :=
  ext_find? fun k ↦ by simp

@[simp] theorem begin?_mapVal (m : OrdMap K V) (f : K → V → V) :
    (m.mapVal f).begin? = m.begin? := by
  simp [begin?]

@[simp] theorem next?_mapVal (m : OrdMap K V) (f : K → V → V) (k : K) :
    (m.mapVal f).next? k = m.next? k := by
  simp [next?]

@[simp] theorem keys_adjust (m : OrdMap K V) (k : K) (f : V → V) :
    (m.adjust k f).keys = m.keys := keys_mapVal m _

@[simp] theorem mem_adjust (m : OrdMap K V) (k : K) (f : V → V) (j : K) :
    j ∈ m.adjust k f ↔ j ∈ m := mem_mapVal m _ j

@[simp] theorem next?_adjust (m : OrdMap K V) (k : K) (f : V → V) (j : K) :
    (m.adjust k f).next? j = m.next? j := next?_mapVal m _ j

/-- An update is seen at its own key and nowhere else. -/
theorem find?_adjust (m : OrdMap K V) (k : K) (f : V → V) (j : K) :
    (m.adjust k f).find? j = if j = k then (m.find? j).map f else m.find? j := by
  rw [adjust, find?_mapVal]
  by_cases h : j = k
  · simp [h]
  · simp [h]

/-- Where the stored value is known, the update is known. -/
theorem find?_adjust_of_find? (m : OrdMap K V) (k : K) (v : V) (f : V → V)
    (h : m.find? k = some v) (j : K) :
    (m.adjust k f).find? j = if j = k then some (f v) else m.find? j := by
  rw [find?_adjust]
  split
  · next hj => rw [hj, h, Option.map_some]
  · rfl

@[simp] theorem find?_adjust_self (m : OrdMap K V) (k : K) (f : V → V) :
    (m.adjust k f).find? k = (m.find? k).map f := by
  simp [find?_adjust]

/-- Two updates leave the same map exactly when they leave the same value. -/
theorem adjust_eq_adjust_iff (m : OrdMap K V) (k : K) (v : V) (f g : V → V)
    (h : m.find? k = some v) : m.adjust k f = m.adjust k g ↔ f v = g v := by
  constructor
  · intro heq
    have hk := m.find?_adjust_self k f
    rw [heq, find?_adjust_self, h] at hk
    exact (Option.some.inj hk).symm
  · intro hv
    apply ext_find?
    intro j
    rw [find?_adjust_of_find? m k v f h, find?_adjust_of_find? m k v g h, hv]

/-- Changing a stored value changes the map, unless the value stays the same. -/
theorem adjust_eq_self_iff (m : OrdMap K V) (k : K) (v : V) (f : V → V)
    (h : m.find? k = some v) : m.adjust k f = m ↔ f v = v := by
  have hself : m.adjust k (fun v ↦ v) = m := by
    apply ext_find?
    intro j
    rw [find?_adjust_of_find? m k v _ h]
    split
    · next hj => rw [hj, h]
    · rfl
  have hiff := m.adjust_eq_adjust_iff k v f (fun v ↦ v) h
  rwa [hself] at hiff

/-! ### Iteration -/

/-- A nonempty map has a first position. -/
theorem begin?_isSome (m : OrdMap K V) {k : K} (h : k ∈ m) : ∃ b, m.begin? = some b := by
  cases hk : m.keys with
  | nil => simp [mem_def, hk] at h
  | cons b rest => exact ⟨b, by simp [begin?, hk]⟩

/-- The first position holds the least key. -/
theorem begin?_eq_some (m : OrdMap K V) (b : K) :
    m.begin? = some b ↔ b ∈ m ∧ ∀ k ∈ m, b ≤ k := by
  have hs := m.keys_sorted
  simp only [begin?, mem_def]
  cases hk : m.keys with
  | nil => simp
  | cons a rest =>
    rw [hk] at hs
    have ha := (List.pairwise_cons.mp hs).1
    simp only [List.head?_cons, Option.some.injEq, List.mem_cons]
    constructor
    · rintro rfl
      refine ⟨Or.inl rfl, ?_⟩
      rintro k (rfl | hr)
      · exact le_refl _
      · exact (ha k hr).le
    · rintro ⟨rfl | hr, hb⟩
      · rfl
      · exact absurd (ha b hr) (not_lt.mpr (hb a (Or.inl rfl)))

private theorem find?_sorted_eq_some (p : K → Bool) (ks : List K) (hs : ks.Pairwise (· < ·))
    (j : K) : ks.find? p = some j ↔ j ∈ ks ∧ p j ∧ ∀ i ∈ ks, p i → j ≤ i := by
  induction ks with
  | nil => simp
  | cons a rest ih =>
    have ha := List.pairwise_cons.mp hs
    by_cases hp : p a
    · simp only [List.find?_cons, hp, Option.some.injEq, List.mem_cons]
      constructor
      · rintro rfl
        refine ⟨Or.inl rfl, hp, ?_⟩
        rintro i (rfl | hi) _
        · exact le_refl _
        · exact (ha.1 i hi).le
      · rintro ⟨rfl | hj, _, hm⟩
        · rfl
        · exact absurd (ha.1 j hj) (not_lt.mpr (hm a (Or.inl rfl) hp))
    · simp only [List.find?_cons, hp, ih ha.2, List.mem_cons]
      constructor
      · rintro ⟨hj, hpj, hm⟩
        refine ⟨Or.inr hj, hpj, ?_⟩
        rintro i (rfl | hi) hpi
        · exact absurd hpi hp
        · exact hm i hi hpi
      · rintro ⟨rfl | hj, hpj, hm⟩
        · exact absurd hpj hp
        · exact ⟨hj, hpj, fun i hi ↦ hm i (Or.inr hi)⟩

/-- The next position is the least greater key. -/
theorem next?_eq_some (m : OrdMap K V) (k j : K) :
    m.next? k = some j ↔ j ∈ m ∧ k < j ∧ ∀ i ∈ m, k < i → j ≤ i := by
  rw [next?, find?_sorted_eq_some _ m.keys m.keys_sorted]
  simp [mem_def]

/-- The end follows exactly the greatest keys. -/
theorem next?_eq_none (m : OrdMap K V) (k : K) : m.next? k = none ↔ ∀ i ∈ m, i ≤ k := by
  simp [next?, mem_def]

/-- The position after a key is the first of the keys after it. -/
theorem next?_of_keys (m : OrdMap K V) (before after : List K) (k : K)
    (h : m.keys = before ++ k :: after) : m.next? k = after.head? := by
  have hs := m.keys_sorted
  rw [h, List.pairwise_append, List.pairwise_cons] at hs
  obtain ⟨_, ⟨hafter, _⟩, hbefore⟩ := hs
  have hnone : before.find? (fun j ↦ decide (k < j)) = none := by
    rw [List.find?_eq_none]
    intro j hj
    simpa using le_of_lt (hbefore j hj k (by simp))
  rw [next?, h, List.find?_append, hnone, Option.none_or, List.find?_cons]
  cases after with
  | nil => simp
  | cons j rest => simp [hafter j]

/-- How many positions lie between a key and the end. -/
def above (m : OrdMap K V) (k : K) : Nat := (m.keys.filter (fun j ↦ k < j)).length

private theorem above_lt_aux (m : OrdMap K V) (k : K) (ks : List K) (hk : k ∈ ks)
    (hsub : ∀ j ∈ m.keys, k < j → j ∈ ks) : m.above k < ks.length := by
  have hnd : (k :: m.keys.filter (fun j ↦ k < j)).Nodup := by
    refine List.nodup_cons.mpr ⟨by simp, m.keys_nodup.filter _⟩
  have hs : k :: m.keys.filter (fun j ↦ k < j) ⊆ ks := by
    intro j hj
    rcases List.mem_cons.mp hj with rfl | hj
    · exact hk
    · simp only [List.mem_filter, decide_eq_true_eq] at hj
      exact hsub j hj.1 hj.2
  have := (List.subperm_of_subset hnd hs).length_le
  simp only [List.length_cons] at this
  exact this

theorem above_lt_size (m : OrdMap K V) (k : K) (h : k ∈ m) : m.above k < m.size := by
  rw [← length_keys]
  exact above_lt_aux m k m.keys h (fun j hj _ ↦ hj)

/-- Moving on leaves fewer positions. -/
theorem above_next? (m : OrdMap K V) (k j : K) (h : m.next? k = some j) :
    m.above j < m.above k := by
  obtain ⟨hj, hlt, _⟩ := (m.next?_eq_some k j).mp h
  apply above_lt_aux m j (m.keys.filter (fun i ↦ k < i))
  · exact List.mem_filter.mpr ⟨hj, by simpa using hlt⟩
  · intro i hi hji
    exact List.mem_filter.mpr ⟨hi, by simpa using hlt.trans hji⟩

private theorem find?_map_entries (p : V → Bool) (es : List (K × V))
    (hs : es.Pairwise (fun a b ↦ a.1 < b.1)) (k : K) :
    (es.find? (fun e ↦ p e.2)).map Prod.fst = some k ↔
      (∃ v, (k, v) ∈ es ∧ p v) ∧ ∀ e ∈ es, p e.2 → k ≤ e.1 := by
  induction es with
  | nil => simp
  | cons a rest ih =>
    have ha := List.pairwise_cons.mp hs
    rcases a with ⟨j, w⟩
    by_cases hp : p w
    · simp only [List.find?_cons, hp, Option.map_some, Option.some.injEq, List.mem_cons]
      constructor
      · rintro rfl
        refine ⟨⟨w, Or.inl rfl, hp⟩, ?_⟩
        rintro e (rfl | he) _
        · exact le_refl _
        · exact (ha.1 e he).le
      · rintro ⟨⟨v, hv | hv, _⟩, hm⟩
        · exact (congrArg Prod.fst hv).symm
        · exact absurd (ha.1 (k, v) hv) (not_lt.mpr (hm (j, w) (Or.inl rfl) hp))
    · simp only [List.find?_cons, hp, ih ha.2, List.mem_cons]
      constructor
      · rintro ⟨⟨v, hv, hpv⟩, hm⟩
        refine ⟨⟨v, Or.inr hv, hpv⟩, ?_⟩
        rintro e (rfl | he) hpe
        · exact absurd hpe hp
        · exact hm e he hpe
      · rintro ⟨⟨v, hv | hv, hpv⟩, hm⟩
        · obtain ⟨rfl, rfl⟩ := Prod.mk.inj hv
          exact absurd hpv hp
        · exact ⟨⟨v, hv, hpv⟩, fun e he ↦ hm e (Or.inr he)⟩

/-- A search returns the least key whose value satisfies the predicate. -/
theorem findKey?_eq_some (m : OrdMap K V) (p : V → Bool) (k : K) :
    m.findKey? p = some k ↔
      (∃ v, m.find? k = some v ∧ p v) ∧ ∀ j w, m.find? j = some w → p w → k ≤ j := by
  rw [findKey?, find?_map_entries p m.entries m.sorted]
  simp only [find?_eq_some]
  constructor
  · rintro ⟨h, hm⟩
    exact ⟨h, fun j w hj ↦ hm (j, w) hj⟩
  · rintro ⟨h, hm⟩
    exact ⟨h, fun e he ↦ hm e.1 e.2 he⟩

/-- A search only sees at which keys the predicate holds. -/
theorem findKey?_congr (m m' : OrdMap K V) (p : V → Bool)
    (h : ∀ k, (m.find? k).any p = (m'.find? k).any p) : m.findKey? p = m'.findKey? p := by
  have hmatch (m : OrdMap K V) (k : K) : m.findKey? p = some k ↔
      (m.find? k).any p = true ∧ ∀ j, (m.find? j).any p = true → k ≤ j := by
    simp only [findKey?_eq_some, Option.any_eq_true, forall_exists_index, and_imp]
  apply Option.ext
  intro k
  simp only [hmatch, h]

/-! ### Counting -/

/-- The keys whose values satisfy `p`, in ascending order. -/
def keysWhere (m : OrdMap K V) (p : V → Bool) : List K :=
  (m.entries.filter (fun e ↦ p e.2)).map Prod.fst

theorem mem_keysWhere (m : OrdMap K V) (p : V → Bool) (k : K) :
    k ∈ m.keysWhere p ↔ ∃ v, m.find? k = some v ∧ p v = true := by
  simp only [keysWhere, List.mem_map, List.mem_filter, find?_eq_some]
  constructor
  · rintro ⟨⟨j, v⟩, ⟨he, hp⟩, rfl⟩
    exact ⟨v, he, hp⟩
  · rintro ⟨v, he, hp⟩
    exact ⟨(k, v), ⟨he, hp⟩, rfl⟩

theorem nodup_keysWhere (m : OrdMap K V) (p : V → Bool) : (m.keysWhere p).Nodup :=
  m.keys_nodup.sublist (List.filter_sublist.map Prod.fst)

theorem length_keysWhere (m : OrdMap K V) (p : V → Bool) :
    (m.keysWhere p).length = m.count p := by
  simp [keysWhere, count, List.countP_eq_length_filter]

/-- Nothing is counted exactly when no value satisfies the predicate. -/
theorem count_eq_zero (m : OrdMap K V) (p : V → Bool) :
    m.count p = 0 ↔ ∀ k v, m.find? k = some v → p v = false := by
  simp only [count, List.countP_eq_zero, find?_eq_some, Prod.forall, Bool.not_eq_true]

/-- One counted value belongs to one key. -/
theorem count_eq_one (m : OrdMap K V) (p : V → Bool) :
    m.count p = 1 ↔ ∃ k, ∀ j, j ∈ m.keysWhere p ↔ j = k := by
  rw [← length_keysWhere, List.length_eq_one_iff]
  constructor
  · rintro ⟨k, hk⟩
    exact ⟨k, by simp [hk]⟩
  · rintro ⟨k, hk⟩
    refine ⟨k, List.perm_singleton.mp ?_⟩
    rw [List.perm_ext_iff_of_nodup (m.nodup_keysWhere p) (by simp)]
    simpa using hk

/-- Counting is monotone in the keys counted, up to a single exception. -/
theorem count_le_succ {W : Type} (m : OrdMap K V) (n : OrdMap K W) (p : V → Bool)
    (q : W → Bool) (k : K) (h : ∀ j ≠ k, j ∈ m.keysWhere p → j ∈ n.keysWhere q) :
    m.count p ≤ n.count q + 1 := by
  rw [← length_keysWhere, ← length_keysWhere]
  have hs : m.keysWhere p ⊆ k :: n.keysWhere q := by
    intro j hj
    by_cases hk : j = k
    · simp [hk]
    · exact List.mem_cons_of_mem k (h j hk hj)
  exact (List.subperm_of_subset (m.nodup_keysWhere p) hs).length_le

theorem count_le {W : Type} (m : OrdMap K V) (n : OrdMap K W) (p : V → Bool) (q : W → Bool)
    (h : ∀ j, j ∈ m.keysWhere p → j ∈ n.keysWhere q) : m.count p ≤ n.count q := by
  rw [← length_keysWhere, ← length_keysWhere]
  exact (List.subperm_of_subset (m.nodup_keysWhere p) h).length_le

/-- Everything is counted where every value satisfies the predicate. -/
theorem count_eq_size (m : OrdMap K V) (p : V → Bool)
    (h : ∀ k v, m.find? k = some v → p v = true) : m.count p = m.size := by
  rw [count, size, List.countP_eq_length]
  exact fun e he ↦ h e.1 e.2 ((m.find?_eq_some e.1 e.2).mpr he)

/-- The universal test ranges over the stored values. -/
theorem all_eq_true (m : OrdMap K V) (p : V → Bool) :
    m.all p = true ↔ ∀ k v, m.find? k = some v → p v = true := by
  simp only [all, List.all_eq_true, find?_eq_some, Prod.forall]

end OrdMap
end RRPG.Base
