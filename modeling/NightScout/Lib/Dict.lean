import Mathlib.Data.List.Nodup
import Mathlib.Algebra.Order.BigOperators.Group.List
import Mathlib.Tactic.Abel

/-!
# Keyed tables

A `Dict` is a Python dictionary, and equally a table with a primary key: entries in insertion
order, each key once. That a key occurs once is a field of the structure, so no proof about a
store has to carry it.

`set` keeps the place of a key that is present and appends one that is not, which is what
`dict[k] = v` does. The read-back lemmas (`get?_set`, `get?_erase`) are the whole interface for
the stores' state; `sumBy` with its `set` lemmas is what the ledgers are summed with.
-/

namespace NightScout.Lib

/-- An insertion-ordered finite map. -/
structure Dict (K V : Type*) where
  entries : List (K × V)
  nodup_keys : (entries.map Prod.fst).Nodup

namespace Dict

variable {K V : Type*} {A : Type*}

/-- The dictionary with no entry. -/
def empty : Dict K V := ⟨[], List.nodup_nil⟩

instance : Inhabited (Dict K V) := ⟨empty⟩

/-- The keys, in insertion order. -/
def keys (d : Dict K V) : List K := d.entries.map Prod.fst

/-- The values, in insertion order. -/
def values (d : Dict K V) : List V := d.entries.map Prod.snd

section Ops

variable [DecidableEq K]

/-- `dict.get(k)`. -/
def get? (d : Dict K V) (k : K) : Option V := (d.entries.find? (·.1 = k)).map Prod.snd

/-- The entries after `dict[k] = v`. -/
def setEntries (k : K) (v : V) : List (K × V) → List (K × V)
  | [] => [(k, v)]
  | e :: es => if e.1 = k then (k, v) :: es else e :: setEntries k v es

theorem mem_keys_setEntries {k j : K} {v : V} : ∀ es : List (K × V),
    j ∈ (setEntries k v es).map Prod.fst ↔ j = k ∨ j ∈ es.map Prod.fst
  | [] => by simp [setEntries]
  | e :: es => by
    by_cases h : e.1 = k
    · simp [setEntries, h]
    · simp only [setEntries, h, if_false, List.map_cons, List.mem_cons, mem_keys_setEntries es]
      exact or_left_comm

theorem nodup_setEntries {k : K} {v : V} : ∀ {es : List (K × V)},
    (es.map Prod.fst).Nodup → ((setEntries k v es).map Prod.fst).Nodup
  | [], _ => by simp [setEntries]
  | e :: es, h => by
    obtain ⟨hne, hes⟩ := List.nodup_cons.mp h
    by_cases hk : e.1 = k
    · subst hk
      simpa [setEntries] using ⟨by simpa using hne, hes⟩
    · simp only [setEntries, hk, if_false, List.map_cons, List.nodup_cons]
      refine ⟨fun hm => ?_, nodup_setEntries hes⟩
      rcases (mem_keys_setEntries es).mp hm with h1 | h1
      · exact hk h1
      · exact hne h1

/-- `dict[k] = v`: in place when `k` is present, else at the end. -/
def set (d : Dict K V) (k : K) (v : V) : Dict K V :=
  ⟨setEntries k v d.entries, nodup_setEntries d.nodup_keys⟩

/-- `dict.pop(k, None)`. -/
def erase (d : Dict K V) (k : K) : Dict K V :=
  ⟨d.entries.filter (·.1 ≠ k),
    d.nodup_keys.sublist (List.filter_sublist.map Prod.fst)⟩

/-! ## Reading back -/

@[simp] theorem get?_empty (k : K) : (empty : Dict K V).get? k = none := rfl

theorem find?_setEntries {k j : K} {v : V} : ∀ {es : List (K × V)},
    ((setEntries k v es).find? (·.1 = j)).map Prod.snd
      = if j = k then some v else (es.find? (·.1 = j)).map Prod.snd
  | [] => by
    by_cases h : j = k
    · simp [setEntries, h]
    · simp [setEntries, h, Ne.symm h]
  | e :: es => by
    by_cases hk : e.1 = k
    · by_cases hj : j = k
      · subst hj; simp [setEntries, hk]
      · simp [setEntries, hk, hj, Ne.symm hj]
    · by_cases hej : e.1 = j
      · have hj : j ≠ k := fun h => hk (hej.trans h)
        simp [setEntries, hej, hj]
      · simp only [setEntries, hk, if_false, List.find?_cons, hej, decide_false]
        exact find?_setEntries

/-- **What a write leaves**: the written key reads the new value, every other key what it read. -/
@[simp] theorem get?_set (d : Dict K V) (k j : K) (v : V) :
    (d.set k v).get? j = if j = k then some v else d.get? j := find?_setEntries

theorem get?_set_self (d : Dict K V) (k : K) (v : V) : (d.set k v).get? k = some v := by simp

theorem get?_set_ne (d : Dict K V) {k j : K} (v : V) (h : j ≠ k) :
    (d.set k v).get? j = d.get? j := by simp [h]

theorem mem_entries_iff {d : Dict K V} {k : K} {v : V} : (k, v) ∈ d.entries ↔ d.get? k = some v := by
  obtain ⟨es, hnd⟩ := d
  simp only [get?]
  induction es with
  | nil => simp
  | cons e es ih =>
    obtain ⟨hne, hes⟩ := List.nodup_cons.mp hnd
    by_cases hk : e.1 = k
    · subst hk
      have hnot : (e.1, v) ∉ es := fun h =>
        hne (List.mem_map.mpr ⟨(e.1, v), h, rfl⟩)
      simp only [List.mem_cons, hnot, or_false, List.find?_cons, decide_true, Option.map_some,
        Option.some.injEq]
      constructor
      · intro h; rw [← h]
      · intro h; rw [← h]
    · have hke : (k, v) ≠ e := fun h => hk (by rw [← h])
      simp only [List.mem_cons, hke, false_or, List.find?_cons, hk, decide_false]
      exact ih hes

theorem mem_values_iff {d : Dict K V} {v : V} : v ∈ d.values ↔ ∃ k, d.get? k = some v := by
  simp only [values, List.mem_map, Prod.exists, exists_eq_right, mem_entries_iff]

theorem mem_keys_iff {d : Dict K V} {k : K} : k ∈ d.keys ↔ ∃ v, d.get? k = some v := by
  simp only [keys, List.mem_map, Prod.exists, exists_and_right, exists_eq_right, mem_entries_iff]

theorem get?_eq_none_iff {d : Dict K V} {k : K} : d.get? k = none ↔ k ∉ d.keys := by
  rw [mem_keys_iff]
  cases d.get? k <;> simp

@[simp] theorem get?_erase (d : Dict K V) (k j : K) :
    (d.erase k).get? j = if j = k then none else d.get? j := by
  by_cases h : j = k
  · subst h
    rw [if_pos rfl, get?_eq_none_iff]
    simp [keys, erase]
  · rw [if_neg h]
    refine Option.ext fun v => ?_
    rw [← mem_entries_iff, ← mem_entries_iff]
    simp [erase, h]

theorem setEntries_of_not_mem {k : K} {v : V} : ∀ {es : List (K × V)},
    k ∉ es.map Prod.fst → setEntries k v es = es ++ [(k, v)]
  | [], _ => rfl
  | e :: es, h => by
    simp only [List.map_cons, List.mem_cons, not_or] at h
    simp only [setEntries, Ne.symm h.1, if_false, setEntries_of_not_mem h.2, List.cons_append]

theorem setEntries_setEntries {k : K} {v w : V} : ∀ es : List (K × V),
    setEntries k w (setEntries k v es) = setEntries k w es
  | [] => by simp [setEntries]
  | e :: es => by
    by_cases hk : e.1 = k
    · simp [setEntries, hk]
    · simp [setEntries, hk, setEntries_setEntries es]

/-- The last write counts. -/
theorem set_set (d : Dict K V) (k : K) (v w : V) : (d.set k v).set k w = d.set k w := by
  simp only [set, setEntries_setEntries]

theorem setEntries_mem {k : K} {v : V} : ∀ {es : List (K × V)},
    (es.find? (·.1 = k)).map Prod.snd = some v → setEntries k v es = es
  | [], h => by cases h
  | e :: es, h => by
    by_cases hk : e.1 = k
    · simp only [List.find?_cons, hk, decide_true, Option.map_some, Option.some.injEq] at h
      subst hk h
      simp [setEntries]
    · simp only [List.find?_cons, hk, decide_false] at h
      simp only [setEntries, hk, if_false, setEntries_mem h]

/-- To write what is there changes nothing. -/
theorem set_get? {d : Dict K V} {k : K} {v : V} (h : d.get? k = some v) : d.set k v = d := by
  simp only [set, setEntries_mem h]

/-- A new key goes to the end. -/
theorem entries_set_none {d : Dict K V} {k : K} {v : V} (h : d.get? k = none) :
    (d.set k v).entries = d.entries ++ [(k, v)] :=
  setEntries_of_not_mem (get?_eq_none_iff.mp h)

/-! ## Two tables, row by row -/

section Rows

variable {W : Type*} {R : K → V → W → Prop} {d : Dict K V} {d' : Dict K W}

/-- The tables hold related values under the same keys, in the same order. -/
def Rows (R : K → V → W → Prop) (d : Dict K V) (d' : Dict K W) : Prop :=
  List.Forall₂ (fun e f => e.1 = f.1 ∧ R e.1 e.2 f.2) d.entries d'.entries

omit [DecidableEq K] in
theorem Rows.empty : Rows R (empty : Dict K V) (Dict.empty : Dict K W) := List.Forall₂.nil

/-- A key is in both tables or in neither. -/
theorem Rows.get? (h : Rows R d d') (k : K) : (d.get? k = none ∧ d'.get? k = none) ∨
      ∃ v w, d.get? k = some v ∧ d'.get? k = some w ∧ R k v w := by
  unfold Rows at h
  unfold Dict.get?
  generalize d.entries = es, d'.entries = fs at h
  induction h with
  | nil => exact .inl ⟨rfl, rfl⟩
  | @cons e f es fs hrow _ ih =>
    obtain ⟨hkey, hrow⟩ := hrow
    by_cases hk : e.1 = k
    · right
      refine ⟨e.2, f.2, ?_, ?_, hk ▸ hrow⟩
      · rw [List.find?_cons_of_pos (by simpa using hk), Option.map_some]
      · rw [List.find?_cons_of_pos (by simpa [← hkey] using hk), Option.map_some]
    · rw [List.find?_cons_of_neg (by simpa using hk),
        List.find?_cons_of_neg (by simpa [← hkey] using hk)]
      exact ih

/-- A new key in both. -/
theorem Rows.set (h : Rows R d d') {k : K} {v : V} {w : W} (hnew : d.get? k = none) (hrow : R k v w) :
    Rows R (d.set k v) (d'.set k w) := by
  have hnew' : d'.get? k = none := by
    rcases h.get? k with ⟨_, hnone⟩ | ⟨_, _, hsome, _⟩
    · exact hnone
    · rw [hnew] at hsome
      cases hsome
  unfold Rows
  rw [entries_set_none hnew, entries_set_none hnew']
  exact List.rel_append h (.cons ⟨rfl, hrow⟩ .nil)

omit [DecidableEq K] in
theorem Rows.values {R : V → W → Prop} (h : Rows (fun _ => R) d d') :
    List.Forall₂ R d.values d'.values := by
  unfold Dict.values
  rw [List.forall₂_map_left_iff, List.forall₂_map_right_iff]
  exact h.imp fun _ _ hrow => hrow.2

end Rows

/-- `dict.update(other)`. -/
def update (d other : Dict K V) : Dict K V := other.entries.foldl (fun d e => d.set e.1 e.2) d

/-- `dict(pairs)`. -/
def ofPairs (pairs : List (K × V)) : Dict K V := pairs.foldl (fun d e => d.set e.1 e.2) empty

theorem get?_foldl_set {k : K} : ∀ (es : List (K × V)) (d : Dict K V),
    (es.map Prod.fst).Nodup →
      (es.foldl (fun d e => d.set e.1 e.2) d).get? k =
        ((es.find? (·.1 = k)).map Prod.snd).or (d.get? k)
  | [], _, _ => by simp
  | e :: es, d, h => by
    obtain ⟨hne, hes⟩ := List.nodup_cons.mp h
    rw [List.foldl_cons, get?_foldl_set es _ hes, get?_set]
    by_cases hk : e.1 = k
    · have hnone : es.find? (·.1 = k) = none := by
        rw [List.find?_eq_none]
        intro e' he' hek
        have hsame : e'.1 = e.1 := (of_decide_eq_true hek).trans hk.symm
        exact hne (hsame ▸ List.mem_map_of_mem (f := Prod.fst) he')
      simp [hk, hnone]
    · simp [hk, Ne.symm hk]

/-- A pair with a key of its own is read back. -/
theorem get?_ofPairs {pairs : List (K × V)} (hkeys : (pairs.map Prod.fst).Nodup) {k : K} {v : V}
    (h : (k, v) ∈ pairs) : (ofPairs pairs).get? k = some v := by
  have hfind : pairs.find? (·.1 = k) = some (k, v) := by
    induction pairs with
    | nil => cases h
    | cons e es ih =>
      obtain ⟨hne, hes⟩ := List.nodup_cons.mp hkeys
      rcases List.mem_cons.mp h with rfl | hmem
      · exact List.find?_cons_of_pos (decide_eq_true rfl)
      · have hk : e.1 ≠ k := fun hk => hne (hk ▸ List.mem_map_of_mem hmem)
        rw [List.find?_cons_of_neg (by simpa using hk), ih hes hmem]
  unfold ofPairs
  rw [get?_foldl_set pairs empty hkeys, hfind]
  rfl

/-- The second dictionary is read first. -/
@[simp] theorem get?_update (d other : Dict K V) (k : K) : (d.update other).get? k = (other.get? k).or (d.get? k) :=
  get?_foldl_set other.entries d other.nodup_keys

/-- The dictionary with `f` applied to each value. -/
def mapValues {W : Type*} (f : V → W) (d : Dict K V) : Dict K W :=
  ⟨d.entries.map fun e => (e.1, f e.2), by
    simpa only [List.map_map, Function.comp_def] using d.nodup_keys⟩

@[simp] theorem get?_mapValues {W : Type*} (f : V → W) (d : Dict K V) (k : K) :
    (d.mapValues f).get? k = (d.get? k).map f := by
  simp only [get?, mapValues, List.find?_map, Option.map_map, Function.comp_def]

theorem map_setEntries {W : Type*} (f : V → W) (k : K) (v : V) : ∀ es : List (K × V),
    (setEntries k v es).map (fun e => (e.1, f e.2)) =
      setEntries k (f v) (es.map fun e => (e.1, f e.2))
  | [] => rfl
  | e :: es => by
    by_cases hk : e.1 = k
    · simp [setEntries, hk]
    · simp [setEntries, hk, map_setEntries f k v es]

/-- A write, seen through `f`. -/
theorem mapValues_set {W : Type*} (f : V → W) (d : Dict K V) (k : K) (v : V) :
    (d.set k v).mapValues f = (d.mapValues f).set k (f v) := by
  have hentries := map_setEntries f k v d.entries
  unfold mapValues set
  simp only [hentries]

/-! ## Sums over the entries -/

variable [AddCommMonoid A]

/-- The sum of `f` over the entries. -/
def sumBy (f : K → V → A) (d : Dict K V) : A := (d.entries.map fun e => f e.1 e.2).sum

omit [DecidableEq K] in
@[simp] theorem sumBy_empty (f : K → V → A) : sumBy f (empty : Dict K V) = 0 := rfl

/-- A new key adds its own term. -/
theorem sumBy_set_none {f : K → V → A} {d : Dict K V} {k : K} {v : V} (h : d.get? k = none) :
    sumBy f (d.set k v) = sumBy f d + f k v := by
  simp only [sumBy, entries_set_none h, List.map_append, List.sum_append, List.map_cons,
    List.map_nil, List.sum_cons, List.sum_nil, add_zero]

theorem sum_setEntries_some {f : K → V → A} {k : K} {v v' : V} : ∀ {es : List (K × V)},
    (es.map Prod.fst).Nodup → (k, v) ∈ es →
      ((setEntries k v' es).map fun e => f e.1 e.2).sum + f k v
        = (es.map fun e => f e.1 e.2).sum + f k v'
  | [], _, h => by simp at h
  | e :: es, hnd, h => by
    obtain ⟨hne, hes⟩ := List.nodup_cons.mp hnd
    by_cases hk : e.1 = k
    · have he : e = (k, v) := by
        rcases List.mem_cons.mp h with h | h
        · exact h.symm
        · exact absurd (List.mem_map_of_mem (f := Prod.fst) h) (hk ▸ hne)
      subst he
      simp only [setEntries, if_true, List.map_cons, List.sum_cons]
      abel
    · have hm : (k, v) ∈ es := by
        rcases List.mem_cons.mp h with h | h
        · exact absurd (congrArg Prod.fst h).symm hk
        · exact h
      simp only [setEntries, hk, if_false, List.map_cons, List.sum_cons, add_assoc,
        sum_setEntries_some hes hm]

/-- A rewritten key trades its old term for the new one. -/
theorem sumBy_set_some {f : K → V → A} {d : Dict K V} {k : K} {v v' : V}
    (h : d.get? k = some v) : sumBy f (d.set k v') + f k v = sumBy f d + f k v' :=
  sum_setEntries_some d.nodup_keys (mem_entries_iff.mpr h)

theorem sumBy_congr {f g : K → V → A} {d : Dict K V}
    (h : ∀ k v, d.get? k = some v → f k v = g k v) : sumBy f d = sumBy g d := by
  refine congrArg List.sum (List.map_congr_left fun e he => ?_)
  exact h e.1 e.2 (mem_entries_iff.mp he)

theorem sumBy_eq_zero {f : K → V → A} {d : Dict K V} (h : ∀ k v, d.get? k = some v → f k v = 0) : sumBy f d = 0 := by
  apply List.sum_eq_zero
  intro x hx
  obtain ⟨e, he, rfl⟩ := List.mem_map.mp hx
  exact h e.1 e.2 (mem_entries_iff.mp he)

theorem sumBy_nonneg [PartialOrder A] [IsOrderedAddMonoid A] {f : K → V → A} {d : Dict K V}
    (hf : ∀ k v, d.get? k = some v → 0 ≤ f k v) : 0 ≤ sumBy f d := by
  apply List.sum_nonneg
  intro x hx
  obtain ⟨e, he, rfl⟩ := List.mem_map.mp hx
  exact hf e.1 e.2 (mem_entries_iff.mp he)

/-- With terms that are not negative, each is at most the sum. -/
theorem le_sumBy [PartialOrder A] [IsOrderedAddMonoid A] {f : K → V → A} {d : Dict K V} {k : K}
    {v : V} (h : d.get? k = some v) (hf : ∀ k v, d.get? k = some v → 0 ≤ f k v) : f k v ≤ sumBy f d := by
  refine List.single_le_sum (fun x hx => ?_) _
    (List.mem_map_of_mem (f := fun e : K × V => f e.1 e.2) (mem_entries_iff.mpr h))
  obtain ⟨e, he, rfl⟩ := List.mem_map.mp hx
  exact hf e.1 e.2 (mem_entries_iff.mp he)

end Ops

end Dict

end NightScout.Lib
