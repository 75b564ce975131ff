import NightScout.Lib.Dict
import Mathlib.Data.List.Dedup
import Mathlib.Data.List.Induction
import Mathlib.Data.List.Sort

/-!
# Sets as lists

Python keeps a set in order in two ways: `sorted({...})`, and `dict.fromkeys(...)`, which keeps the first
occurrence of each element. `sortedSet` depends on the members only (`sortedSet_eq`); of `fromkeys` we
need that what an element stands for may be looked up before or after (`fromkeys_map_fromkeys`), and how
the values of a dictionary that is filled from a list look through a function of the keys
(`map_values_ofList`).
-/

namespace NightScout.Lib

variable {α β κ : Type*}

/-- Sorting does not depend on the order. -/
theorem insertionSort_eq_of_perm [LinearOrder α] {xs ys : List α} (h : xs.Perm ys) :
    xs.insertionSort (· ≤ ·) = ys.insertionSort (· ≤ ·) := by
  have hperm : (xs.insertionSort (· ≤ ·)).Perm (ys.insertionSort (· ≤ ·)) :=
    (List.perm_insertionSort _ _).trans (h.trans (List.perm_insertionSort _ _).symm)
  exact hperm.eq_of_pairwise (fun a b _ _ hab hba => le_antisymm hab hba)
    (List.pairwise_insertionSort _ _) (List.pairwise_insertionSort _ _)

/-- Nor does sorting by a key that no two elements share. -/
theorem insertionSort_key_eq_of_perm [LinearOrder κ] {key : α → κ} {xs ys : List α} (h : xs.Perm ys)
    (hkeys : (xs.map key).Nodup) :
    xs.insertionSort (fun a b => key a ≤ key b) = ys.insertionSort (fun a b => key a ≤ key b) := by
  have hsorted (zs : List α) : (zs.insertionSort fun a b => key a ≤ key b).Pairwise
      fun a b => key a ≤ key b := by
    have : IsTrans α fun a b => key a ≤ key b := ⟨fun _ _ _ => le_trans⟩
    have : Std.Total fun a b : α => key a ≤ key b := ⟨fun _ _ => le_total _ _⟩
    exact List.pairwise_insertionSort _ _
  have hperm : (xs.insertionSort fun a b => key a ≤ key b).Perm
      (ys.insertionSort fun a b => key a ≤ key b) :=
    (List.perm_insertionSort _ _).trans (h.trans (List.perm_insertionSort _ _).symm)
  refine hperm.eq_of_pairwise (fun a b ha hb hab hba => ?_) (hsorted xs) (hsorted ys)
  apply List.inj_on_of_nodup_map hkeys
  · exact (List.mem_insertionSort _).mp ha
  · exact h.mem_iff.mpr ((List.mem_insertionSort _).mp hb)
  · exact le_antisymm hab hba

/-! ## `sorted(set(...), key=...)` -/

section SortedSet

variable [DecidableEq α] [LinearOrder κ] {key : α → κ} {xs ys : List α} {a : α}

/-- `sorted(set(xs), key=key)`. -/
def sortedSet (key : α → κ) (xs : List α) : List α :=
  xs.dedup.insertionSort fun a b => key a ≤ key b

@[simp] theorem mem_sortedSet : a ∈ sortedSet key xs ↔ a ∈ xs := by
  rw [sortedSet, List.mem_insertionSort, List.mem_dedup]

theorem sortedSet_ne_nil (h : xs ≠ []) : sortedSet key xs ≠ [] := by
  obtain ⟨x, hx⟩ := List.exists_mem_of_ne_nil xs h
  exact List.ne_nil_of_mem (mem_sortedSet.mpr hx)

theorem sortedSet_sorted : (sortedSet key xs).Pairwise fun a b => key a ≤ key b := by
  have : Std.Total fun a b : α => key a ≤ key b := ⟨fun a b => le_total (key a) (key b)⟩
  have : IsTrans α fun a b => key a ≤ key b := ⟨fun a b c hab hbc => le_trans hab hbc⟩
  exact List.pairwise_insertionSort _ _

/-- **Only the members count.** -/
theorem sortedSet_eq (hinj : Function.Injective key) (h : ∀ a, a ∈ xs ↔ a ∈ ys) :
    sortedSet key xs = sortedSet key ys := by
  have hdedup : xs.dedup.Perm ys.dedup := by
    rw [List.perm_ext_iff_of_nodup xs.nodup_dedup ys.nodup_dedup]
    intro a
    rw [List.mem_dedup, List.mem_dedup, h]
  have hperm : (sortedSet key xs).Perm (sortedSet key ys) :=
    (List.perm_insertionSort _ _).trans (hdedup.trans (List.perm_insertionSort _ _).symm)
  exact hperm.eq_of_pairwise (fun a b _ _ hab hba => hinj (le_antisymm hab hba)) sortedSet_sorted
    sortedSet_sorted

end SortedSet

/-! ## `dict.fromkeys(...)` -/

section Fromkeys

variable [DecidableEq α] [DecidableEq β] {xs : List α} {a : α}

/-- `tuple(dict.fromkeys(xs))`. -/
def fromkeys (xs : List α) : List α := xs.foldl (fun keys x => if x ∈ keys then keys else keys ++ [x]) []

omit [DecidableEq β] in
theorem fromkeys_concat (xs : List α) (x : α) : fromkeys (xs ++ [x]) =
    if x ∈ fromkeys xs then fromkeys xs else fromkeys xs ++ [x] := by
  unfold fromkeys
  rw [List.foldl_append, List.foldl_cons, List.foldl_nil]

@[simp] theorem mem_fromkeys : a ∈ fromkeys xs ↔ a ∈ xs := by
  induction xs using List.reverseRecOn with
  | nil => simp [fromkeys]
  | append_singleton xs x ih =>
    rw [fromkeys_concat]
    split
    next hx =>
      rw [List.mem_append, List.mem_singleton, ih]
      constructor
      · exact .inl
      · intro h
        rcases h with h | rfl
        · exact h
        · exact ih.mp hx
    next => rw [List.mem_append, List.mem_append, ih]

theorem nodup_fromkeys (xs : List α) : (fromkeys xs).Nodup := by
  induction xs using List.reverseRecOn with
  | nil => exact List.nodup_nil
  | append_singleton xs x ih =>
    rw [fromkeys_concat]
    split
    next => exact ih
    next hx => exact List.nodup_append.mpr ⟨ih, List.nodup_singleton x, fun a ha b hb => by
      rw [List.mem_singleton.mp hb]
      exact fun heq => hx (heq ▸ ha)⟩

/-- Sorted, either way of keeping a set is the same list. -/
theorem insertionSort_fromkeys [LinearOrder α] (xs : List α) :
    (fromkeys xs).insertionSort (· ≤ ·) = sortedSet id xs := by
  have hperm : (fromkeys xs).Perm xs.dedup := by
    rw [List.perm_ext_iff_of_nodup (nodup_fromkeys xs) xs.nodup_dedup]
    intro a
    rw [mem_fromkeys, List.mem_dedup]
  exact insertionSort_eq_of_perm hperm

/-- What the elements stand for may be looked up before or after. -/
theorem fromkeys_map_fromkeys (f : α → β) (xs : List α) : fromkeys ((fromkeys xs).map f) = fromkeys (xs.map f) := by
  induction xs using List.reverseRecOn with
  | nil => rfl
  | append_singleton xs x ih =>
    rw [fromkeys_concat, List.map_append, List.map_singleton, fromkeys_concat]
    split
    next hx =>
      rw [ih, if_pos (mem_fromkeys.mpr (List.mem_map_of_mem (mem_fromkeys.mp hx)))]
    next => rw [List.map_append, List.map_singleton, fromkeys_concat, ih]

end Fromkeys

/-! ## A dictionary filled from a list -/

section OfList

variable [DecidableEq κ]

/-- `{key(x): x for x in xs}`. -/
def ofList (key : α → κ) (xs : List α) : Dict κ α :=
  xs.foldl (fun d x => d.set (key x) x) .empty

theorem ofList_concat (key : α → κ) (xs : List α) (x : α) : ofList key (xs ++ [x]) = (ofList key xs).set (key x) x := by
  unfold ofList
  rw [List.foldl_append, List.foldl_cons, List.foldl_nil]

theorem mem_values_ofList {key : α → κ} {xs : List α} {a : α} (h : a ∈ (ofList key xs).values) : a ∈ xs := by
  obtain ⟨k, hk⟩ := Dict.mem_values_iff.mp h
  clear h
  induction xs using List.reverseRecOn with
  | nil => cases hk
  | append_singleton xs x ih =>
    rw [ofList_concat, Dict.get?_set] at hk
    split at hk
    · cases hk
      exact List.mem_append_right _ List.mem_cons_self
    · exact List.mem_append_left _ (ih hk)

theorem ofList_key {key : α → κ} {xs : List α} {k : κ} {a : α}
    (h : (ofList key xs).get? k = some a) : a ∈ xs ∧ key a = k := by
  refine ⟨mem_values_ofList (Dict.mem_values_iff.mpr ⟨k, h⟩), ?_⟩
  induction xs using List.reverseRecOn with
  | nil => cases h
  | append_singleton xs x ih =>
    rw [ofList_concat, Dict.get?_set] at h
    split at h
    next hk =>
      cases h
      exact hk.symm
    next => exact ih h

/-- What is found after more elements were set is one of them, or was there before. -/
theorem get?_foldl_set_cases {key : α → κ} {xs : List α} {d : Dict κ α} {k : κ} {a : α}
    (h : (xs.foldl (fun d x => d.set (key x) x) d).get? k = some a) : a ∈ xs ∨ d.get? k = some a := by
  induction xs generalizing d with
  | nil => exact .inr h
  | cons x xs ih =>
    rcases ih h with hmem | hold
    · exact .inl (List.mem_cons_of_mem x hmem)
    · rw [Dict.get?_set] at hold
      split at hold
      · obtain rfl := Option.some.inj hold
        exact .inl List.mem_cons_self
      · exact .inr hold

/-- With distinct keys every element is found under its own. -/
theorem exists_get?_ofList {key : α → κ} {xs : List α} {a : α} (h : a ∈ xs) :
    ∃ b, (ofList key xs).get? (key a) = some b := by
  induction xs using List.reverseRecOn with
  | nil => cases h
  | append_singleton xs x ih =>
    rw [ofList_concat, Dict.get?_set]
    split
    · exact ⟨x, rfl⟩
    next hne =>
      refine ih ((List.mem_append.mp h).resolve_right fun ha => hne ?_)
      rw [List.mem_singleton.mp ha]

theorem get?_ofList {key : α → κ} {xs : List α} (h : (xs.map key).Nodup) {a : α} (ha : a ∈ xs) :
    (ofList key xs).get? (key a) = some a := by
  induction xs using List.reverseRecOn with
  | nil => cases ha
  | append_singleton xs x ih =>
    rw [List.map_append, List.map_singleton] at h
    obtain ⟨hxs, _, hdisjoint⟩ := List.nodup_append.mp h
    rw [ofList_concat, Dict.get?_set]
    rcases List.mem_append.mp ha with ha | ha
    · have hne : key a ≠ key x :=
        hdisjoint _ (List.mem_map_of_mem ha) _ List.mem_cons_self
      rw [if_neg hne]
      exact ih hxs ha
    · rw [List.mem_singleton.mp ha, if_pos rfl]

/-- Writing a function's value into its graph. -/
theorem setEntries_graph (f : κ → β) (k : κ) : ∀ ks : List κ,
    Dict.setEntries k (f k) (ks.map fun k => (k, f k)) =
      (if k ∈ ks then ks else ks ++ [k]).map fun k => (k, f k)
  | [] => rfl
  | j :: ks => by
    by_cases hj : j = k
    · subst hj
      simp [Dict.setEntries]
    · have ih := setEntries_graph f k ks
      simp only [List.map_cons, Dict.setEntries, hj, if_false, ih]
      by_cases hk : k ∈ ks
      · simp [hk]
      · simp [hk, Ne.symm hj]

/-- **A dictionary filled from a list**, seen through what its keys decide. -/
theorem map_values_ofList {key : α → κ} {g : α → β} {f : κ → β} {xs : List α} (h : ∀ x ∈ xs, g x = f (key x)) :
    (ofList key xs).values.map g = (fromkeys (xs.map key)).map f := by
  have hentries : (ofList key xs).entries.map (fun e => (e.1, g e.2)) =
      (fromkeys (xs.map key)).map fun k => (k, f k) := by
    induction xs using List.reverseRecOn with
    | nil => rfl
    | append_singleton xs x ih =>
      have ih := ih fun y hy => h y (List.mem_append_left _ hy)
      have hx := h x (List.mem_append_right _ List.mem_cons_self)
      rw [ofList_concat, List.map_append, List.map_singleton, fromkeys_concat]
      show (Dict.setEntries (key x) x (ofList key xs).entries).map _ = _
      rw [Dict.map_setEntries, ih, hx, setEntries_graph]
  have hsnd := congrArg (List.map Prod.snd) hentries
  rw [List.map_map, List.map_map] at hsnd
  unfold Dict.values
  rw [List.map_map]
  exact hsnd

end OfList

/-- What does not look at the index. -/
theorem map_mapIdx_eq {f : ℕ → α → β} {g : β → κ} {h : α → κ} (hg : ∀ i a, g (f i a) = h a)
    (xs : List α) : (xs.mapIdx f).map g = xs.map h := by
  apply List.ext_getElem
  · simp
  · intro i _ _
    simp [hg]

/-! ## What the elements decide of their keys -/

/-- What is the same for elements of one key is a function of the key. -/
theorem exists_factor {key : α → κ} {g : α → β} {xs : List α}
    (h : ∀ x ∈ xs, ∀ y ∈ xs, key x = key y → g x = g y) (hne : xs ≠ []) : ∃ f : κ → β, ∀ x ∈ xs, g x = f (key x) := by
  classical
  obtain ⟨x₀, _⟩ := List.exists_mem_of_ne_nil xs hne
  refine ⟨fun k => if hk : ∃ x ∈ xs, key x = k then g hk.choose else g x₀, ?_⟩
  intro x hx
  have hk : ∃ y ∈ xs, key y = key x := ⟨x, hx, rfl⟩
  dsimp only
  rw [dif_pos hk]
  exact h x hx _ hk.choose_spec.1 hk.choose_spec.2.symm

end NightScout.Lib
