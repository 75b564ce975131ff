import Mathlib.Data.List.Dedup
import Mathlib.Data.List.TakeWhile
import NightScout.Lib.Merging
import NightScout.Lib.StableSort

/-!
# The best of each name

Elements are put in a table by name, the least of each name is kept, and the first few of what is kept are taken. A name
is among them when fewer other names go before it (`mem_bestRanked`), whatever the order the elements came in.
-/

namespace NightScout.Lib

variable {A K O : Type*} [DecidableEq K] [LinearOrder O]

section Defs

variable (name : A → K) (order : A → O) (merge : A → A → A)

/-- Some element of the other name comes before all of the name. -/
def GoesBefore (xs : List A) (k other : K) : Prop :=
  ∃ y ∈ xs, name y = other ∧ ∀ x ∈ xs, name x = k → order y < order x

instance (xs : List A) (k other : K) : Decidable (GoesBefore name order xs k other) :=
  inferInstanceAs (Decidable (∃ y ∈ xs, name y = other ∧ ∀ x ∈ xs, name x = k → order y < order x))

/-- How many names go before a name. -/
def namesAhead (xs : List A) (k : K) : ℕ := (xs.map name).dedup.countP fun other => GoesBefore name order xs k other

/-- The first of what is kept. -/
def bestRanked (n : ℕ) (xs : List A) : List A := (sortBy order (mergeAll name merge xs).values).take n

end Defs

section Best

variable {name : A → K} {order : A → O} {merge : A → A → A} {xs : List A} {k : K} {v : A} {n : ℕ}

/-- A merge that takes the lesser of two elements of one name. -/
def TakesLess (name : A → K) (order : A → O) (merge : A → A → A) : Prop :=
  ∀ a b, name a = name b → merge a b = if order b < order a then b else a

omit [DecidableEq K] in
theorem TakesLess.name_eq (h : TakesLess name order merge) {a b : A} (hname : name a = name b) :
    name (merge a b) = name a := by
  rw [h a b hname]
  split
  · exact hname.symm
  · rfl

/-- What is kept is the least of its name. -/
theorem TakesLess.kept_least (h : TakesLess name order merge) (hv : v ∈ (mergeAll name merge xs).values) :
    v ∈ xs ∧ ∀ x ∈ xs, name x = name v → order v ≤ order x := by
  obtain ⟨k, hk⟩ := mem_values_mergeAll.mp hv
  have hleast : (∀ x ∈ xs.filter fun x => name x = k, name x = k) →
      v ∈ (xs.filter fun x => name x = k) ∧ ∀ x ∈ xs.filter fun x => name x = k, order v ≤ order x := by
    refine mergeList_induction
      (motive := fun ys r => (∀ y ∈ ys, name y = k) → r ∈ ys ∧ ∀ y ∈ ys, order r ≤ order y) ?_ ?_ hk
    · intro x _
      simp
    · intro ys r x ih hnames
      obtain ⟨hr, hle⟩ := ih fun y hy => hnames y (List.mem_append_left _ hy)
      have hrx : name r = name x :=
        (hnames r (List.mem_append_left _ hr)).trans (hnames x (List.mem_append_right _ (by simp))).symm
      rw [h r x hrx]
      split
      next hlt =>
        refine ⟨by simp, fun y hy => ?_⟩
        rcases List.mem_append.mp hy with hy | hy
        · exact hlt.le.trans (hle y hy)
        · rw [List.mem_singleton.mp hy]
      next hge =>
        refine ⟨List.mem_append_left _ hr, fun y hy => ?_⟩
        rcases List.mem_append.mp hy with hy | hy
        · exact hle y hy
        · rw [List.mem_singleton.mp hy]
          exact not_lt.mp hge
  obtain ⟨hmem, hle⟩ := hleast fun x hx => by simpa using (List.mem_filter.mp hx).2
  obtain ⟨hv, hname⟩ := List.mem_filter.mp hmem
  refine ⟨hv, fun x hx hxv => hle x (List.mem_filter.mpr ⟨hx, ?_⟩)⟩
  simpa [hxv] using hname

theorem TakesLess.nodup (h : TakesLess name order merge) (xs : List A) :
    ((mergeAll name merge xs).values.map name).Nodup :=
  nodup_mergeAll (fun _ _ => h.name_eq) xs

/-- The names that are kept are the names of the elements. -/
theorem TakesLess.names_perm (h : TakesLess name order merge) (xs : List A) :
    ((mergeAll name merge xs).values.map name).Perm (xs.map name).dedup := by
  rw [List.perm_ext_iff_of_nodup (h.nodup xs) (List.nodup_dedup _)]
  intro k
  rw [List.mem_dedup]
  constructor
  · intro hk
    obtain ⟨v, hv, rfl⟩ := List.mem_map.mp hk
    exact List.mem_map_of_mem (h.kept_least hv).1
  · intro hk
    obtain ⟨x, hx, rfl⟩ := List.mem_map.mp hk
    obtain ⟨r, hr⟩ : ∃ r, mergeList merge (xs.filter fun y => name y = name x) = some r := exists_kept hx
    exact List.mem_map.mpr ⟨r, mem_values_mergeAll.mpr ⟨_, hr⟩, key_of_kept (fun _ _ => h.name_eq) hr⟩

/-- One name goes before another when what is kept of it is less. -/
theorem TakesLess.goesBefore_iff (h : TakesLess name order merge) {w : A} (hv : v ∈ (mergeAll name merge xs).values)
    (hw : w ∈ (mergeAll name merge xs).values) : GoesBefore name order xs (name v) (name w) ↔ order w < order v := by
  obtain ⟨hvxs, hvleast⟩ := h.kept_least hv
  obtain ⟨hwxs, hwleast⟩ := h.kept_least hw
  constructor
  · rintro ⟨y, hy, hyw, hbefore⟩
    exact (hwleast y hy hyw).trans_lt (hbefore v hvxs rfl)
  · intro hlt
    exact ⟨w, hwxs, rfl, fun x hx hxv => hlt.trans_le (hvleast x hx hxv)⟩

theorem TakesLess.count_eq (h : TakesLess name order merge) (hv : v ∈ (mergeAll name merge xs).values) :
    (mergeAll name merge xs).values.countP (fun w => order w < order v) = namesAhead name order xs (name v) := by
  rw [namesAhead, ← (h.names_perm xs).countP_eq, List.countP_map]
  refine List.countP_congr fun w hw => ?_
  simpa using (h.goesBefore_iff hv hw).symm

theorem nodup_bestRanked (h : TakesLess name order merge) (n : ℕ) (xs : List A) :
    ((bestRanked name order merge n xs).map name).Nodup := by
  have hsorted : ((sortBy order (mergeAll name merge xs).values).map name).Nodup :=
    ((perm_sortBy _).map name).nodup_iff.mpr (h.nodup xs)
  exact hsorted.sublist ((List.take_sublist _ _).map name)

theorem bestRanked_nil (n : ℕ) : bestRanked name order merge n [] = [] := List.take_nil

theorem length_bestRanked (n : ℕ) (xs : List A) : (bestRanked name order merge n xs).length ≤ n := List.length_take_le _ _

/-- **A name is among the first** when fewer other names go before it. -/
theorem mem_bestRanked (h : TakesLess name order merge) (horder : ∀ a b, order a = order b → name a = name b) :
    k ∈ (bestRanked name order merge n xs).map name ↔ k ∈ xs.map name ∧ namesAhead name order xs k < n := by
  classical
  have hplaces : ∀ v ∈ (mergeAll name merge xs).values,
      placesBefore order (mergeAll name merge xs).values v = namesAhead name order xs (name v) := by
    intro v hv
    have hnone : ((mergeAll name merge xs).values.takeWhile (· ≠ v)).countP (fun w => order w = order v) = 0 := by
      refine List.countP_eq_zero.mpr fun w hw heq => ?_
      have hmem : w ∈ (mergeAll name merge xs).values := (List.takeWhile_prefix _).subset hw
      have hsame : w = v :=
        List.inj_on_of_nodup_map (h.nodup xs) hmem hv (horder w v (by simpa using heq))
      simpa [hsame] using List.mem_takeWhile_imp hw
    rw [placesBefore, hnone, Nat.add_zero, h.count_eq hv]
  constructor
  · intro hk
    obtain ⟨v, hv, rfl⟩ := List.mem_map.mp hk
    have hkept : v ∈ (mergeAll name merge xs).values := mem_sortBy.mp (List.mem_of_mem_take hv)
    exact ⟨List.mem_map_of_mem (h.kept_least hkept).1, hplaces v hkept ▸ (mem_take_sortBy hkept).mp hv⟩
  · rintro ⟨hk, hahead⟩
    rw [← List.mem_dedup, ← (h.names_perm xs).mem_iff] at hk
    obtain ⟨v, hv, rfl⟩ := List.mem_map.mp hk
    exact List.mem_map_of_mem ((mem_take_sortBy hv).mpr (by rw [hplaces v hv]; exact hahead))

end Best

end NightScout.Lib
