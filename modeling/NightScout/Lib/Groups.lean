import Mathlib.Data.List.Induction
import NightScout.Lib.Dict

/-!
# Grouping

`defaultdict(list)` filled by appending: a group is what came with its key, in the order it came
(`mem_groupPairs`).
-/

namespace NightScout.Lib

variable {K V : Type*} [DecidableEq K]

/-- `groups[key].append(value)` for each pair. -/
def groupPairs (pairs : List (K × V)) : Dict K (List V) :=
  pairs.foldl (fun groups pair => groups.set pair.1 ((groups.get? pair.1).getD [] ++ [pair.2])) .empty

theorem groupPairs_concat (pairs : List (K × V)) (pair : K × V) : groupPairs (pairs ++ [pair]) =
      (groupPairs pairs).set pair.1 (((groupPairs pairs).get? pair.1).getD [] ++ [pair.2]) := by
  unfold groupPairs
  rw [List.foldl_append, List.foldl_cons, List.foldl_nil]

/-- What came with a key. -/
def membersOf (pairs : List (K × V)) (k : K) : List V := (pairs.filter fun pair => pair.1 = k).map Prod.snd

theorem mem_membersOf {pairs : List (K × V)} {k : K} {v : V} : v ∈ membersOf pairs k ↔ (k, v) ∈ pairs := by
  simp [membersOf]

theorem get?_groupPairs (pairs : List (K × V)) (k : K) :
    (groupPairs pairs).get? k = if membersOf pairs k = [] then none else some (membersOf pairs k) := by
  induction pairs using List.reverseRecOn with
  | nil => simp [groupPairs, membersOf]
  | append_singleton pairs pair ih =>
    have hmembers : membersOf (pairs ++ [pair]) k =
        membersOf pairs k ++ if pair.1 = k then [pair.2] else [] := by
      by_cases hk : pair.1 = k
      · simp [membersOf, hk]
      · simp [membersOf, hk]
    rw [groupPairs_concat, Dict.get?_set, hmembers]
    by_cases hk : pair.1 = k
    · subst hk
      rw [if_pos rfl, if_pos rfl, ih]
      by_cases hnil : membersOf pairs pair.1 = []
      · simp [hnil]
      · simp [hnil]
    · rw [if_neg (Ne.symm hk), if_neg hk, List.append_nil, ih]

/-- **The groups**: to each key that came with something, everything that came with it. -/
theorem mem_groupPairs {pairs : List (K × V)} {k : K} {members : List V} :
    (k, members) ∈ (groupPairs pairs).entries ↔ members = membersOf pairs k ∧ members ≠ [] := by
  rw [Dict.mem_entries_iff, get?_groupPairs]
  by_cases hnil : membersOf pairs k = []
  · simp [hnil]
  · simp only [if_neg hnil, Option.some.injEq]
    constructor
    · rintro rfl
      exact ⟨rfl, hnil⟩
    · rintro ⟨rfl, -⟩
      rfl

theorem Dict.map_fst_setEntries {k : K} {v : V} : ∀ {es : List (K × V)}, k ∈ es.map Prod.fst →
    (Dict.setEntries k v es).map Prod.fst = es.map Prod.fst
  | [], h => absurd h List.not_mem_nil
  | e :: es, h => by
    unfold Dict.setEntries
    split
    next hk => rw [List.map_cons, List.map_cons, hk]
    next hk =>
      rw [List.map_cons, List.mem_cons] at h
      rw [List.map_cons, List.map_cons, Dict.map_fst_setEntries (h.resolve_left (Ne.symm hk))]

/-- Writing to a key that is there keeps the keys. -/
theorem Dict.keys_set_mem {d : Dict K V} {k : K} (h : k ∈ d.keys) (v : V) : (d.set k v).keys = d.keys :=
  Dict.map_fst_setEntries h

/-- What is read was there before or was written. -/
theorem Dict.get?_foldl_pairs {pairs : List (K × V)} {k : K} {v : V} :
    ∀ {d : Dict K V}, (pairs.foldl (fun d e => d.set e.1 e.2) d).get? k = some v →
      (k, v) ∈ pairs ∨ d.get? k = some v := by
  induction pairs with
  | nil => exact fun h => .inr h
  | cons pair pairs ih =>
    intro d h
    rcases ih h with h | h
    · exact .inl (List.mem_cons_of_mem _ h)
    · rw [Dict.get?_set] at h
      split at h
      next hk =>
        cases h
        exact .inl (hk ▸ List.mem_cons_self)
      · exact .inr h

/-- Tables that read alike have the same values, in some order. -/
theorem Dict.values_perm {d d' : Dict K V} (h : ∀ k, d.get? k = d'.get? k) : d.values.Perm d'.values := by
  apply List.Perm.map
  apply (List.perm_ext_iff_of_nodup d.nodup_keys.of_map d'.nodup_keys.of_map).mpr
  rintro ⟨k, v⟩
  rw [Dict.mem_entries_iff, Dict.mem_entries_iff, h]

theorem Dict.mem_values_set {d : Dict K V} {k : K} {v w : V} (h : v ∈ (d.set k w).values) : v ∈ d.values ∨ v = w := by
  obtain ⟨j, hget⟩ := Dict.mem_values_iff.mp h
  rw [Dict.get?_set] at hget
  split at hget
  next => exact .inr (Option.some.inj hget).symm
  next => exact .inl (Dict.mem_values_iff.mpr ⟨j, hget⟩)

/-- A table that keeps some of its inputs. -/
theorem Dict.mem_values_foldl {step : Dict K V → V → Dict K V}
    (hstep : ∀ d w v, v ∈ (step d w).values → v ∈ d.values ∨ v = w) {xs : List V} {v : V}
    (h : v ∈ (xs.foldl step .empty).values) : v ∈ xs := by
  induction xs using List.reverseRecOn with
  | nil => cases h
  | append_singleton xs w ih =>
    rw [List.foldl_append, List.foldl_cons, List.foldl_nil] at h
    rcases hstep _ _ _ h with h | rfl
    · exact List.mem_append_left _ (ih h)
    · exact List.mem_append_right _ (List.mem_singleton.mpr rfl)

/-- Where each value is kept under its own key, no two values share one. -/
theorem Dict.nodup_values_map {d : Dict K V} {key : V → K} (h : ∀ k v, d.get? k = some v → key v = k) :
    (d.values.map key).Nodup := by
  have hkeys : d.values.map key = d.entries.map Prod.fst := by
    rw [Dict.values, List.map_map]
    apply List.map_congr_left
    rintro ⟨k, v⟩ hmem
    exact h k v (Dict.mem_entries_iff.mp hmem)
  rw [hkeys]
  exact d.nodup_keys

/-- The groups do not depend on the order, if what is made of a group does not. -/
theorem map_groupPairs_perm {W : Type*} {pairs pairs' : List (K × V)} {f : K × List V → W} (h : pairs.Perm pairs')
    (hf : ∀ k, f (k, membersOf pairs k) = f (k, membersOf pairs' k)) :
    ((groupPairs pairs).entries.map f).Perm ((groupPairs pairs').entries.map f) := by
  have hmembers : ∀ k, (membersOf pairs k).Perm (membersOf pairs' k) := fun k => (h.filter _).map _
  have hkeys : ∀ pairs : List (K × V), (groupPairs pairs).entries.map f =
      (groupPairs pairs).keys.map fun k => f (k, membersOf pairs k) := by
    intro pairs
    rw [Dict.keys, List.map_map]
    apply List.map_congr_left
    rintro ⟨k, members⟩ hmem
    rw [(mem_groupPairs.mp hmem).1]
    rfl
  rw [hkeys, hkeys]
  have hperm : (groupPairs pairs).keys.Perm (groupPairs pairs').keys := by
    apply (List.perm_ext_iff_of_nodup (groupPairs pairs).nodup_keys (groupPairs pairs').nodup_keys).mpr
    intro k
    have hmem : ∀ pairs : List (K × V), k ∈ (groupPairs pairs).keys ↔ membersOf pairs k ≠ [] := by
      intro pairs
      rw [Dict.mem_keys_iff, get?_groupPairs]
      by_cases hnil : membersOf pairs k = []
      · simp [hnil]
      · simp [hnil]
    show k ∈ (groupPairs pairs).keys ↔ k ∈ (groupPairs pairs').keys
    rw [hmem, hmem, ← List.length_pos_iff, ← List.length_pos_iff, (hmembers k).length_eq]
  have hcongr : (fun k => f (k, membersOf pairs k)) = fun k => f (k, membersOf pairs' k) := funext hf
  rw [hcongr]
  exact hperm.map _

end NightScout.Lib
