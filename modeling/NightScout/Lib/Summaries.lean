import NightScout.Lib.Dict
import Mathlib.Data.Set.Finite.Lemmas

/-!
# Summaries of rows

A summary row keeps, next to the rows it summarizes, the join of what they say: a minimum or a maximum
a column, a union, the worst of some states. All of it is one element of a semilattice, and that the
summary is right is that it is the least upper bound `IsLUB` of what the rows say. Least upper bounds
are unique, so a right summary does not depend on the order the rows came in.

Two steps keep it right: a new row is joined in, and a row that becomes its join with something is
joined in too. In a linear order the summary of finitely many rows is what one of them says
(`isGreatest_of_isLUB`).
-/

namespace NightScout.Lib

section Rows

variable {K V α : Type*} [DecidableEq K] {d : Dict K V} {p : V → Prop} {k : K} {v v' : V}

/-- The rows that satisfy a condition. -/
def rowsWhere (d : Dict K V) (p : V → Prop) : Set V := {v | ∃ k, d.get? k = some v ∧ p v}

@[simp] theorem rowsWhere_empty : rowsWhere (.empty : Dict K V) p = ∅ := by
  ext v
  simp [rowsWhere]

theorem rowsWhere_finite (d : Dict K V) (p : V → Prop) : (rowsWhere d p).Finite := by
  apply d.values.finite_toSet.subset
  intro v ⟨k, hk, _⟩
  exact Dict.mem_values_iff.mpr ⟨k, hk⟩

theorem mem_rowsWhere_set : v' ∈ rowsWhere (d.set k v) p ↔ v' = v ∧ p v ∨ ∃ j, j ≠ k ∧ d.get? j = some v' ∧ p v' := by
  constructor
  · intro ⟨j, hj, hp⟩
    rw [Dict.get?_set] at hj
    split at hj
    next =>
      cases hj
      exact .inl ⟨rfl, hp⟩
    next hne => exact .inr ⟨j, hne, hj, hp⟩
  · rintro (⟨rfl, hp⟩ | ⟨j, hne, hj, hp⟩)
    · exact ⟨k, Dict.get?_set_self d k v', hp⟩
    · exact ⟨j, (Dict.get?_set_ne d v hne).trans hj, hp⟩

/-- A new row leaves the others. -/
theorem subset_rowsWhere_set (h : d.get? k = none) : rowsWhere d p ⊆ rowsWhere (d.set k v) p := by
  intro w ⟨j, hj, hp⟩
  refine mem_rowsWhere_set.mpr (.inr ⟨j, ?_, hj, hp⟩)
  intro hjk
  rw [hjk, h] at hj
  cases hj

/-- A row that is not among them before or after. -/
theorem rowsWhere_set_other (hold : ∀ v, d.get? k = some v → ¬ p v) (hnew : ¬ p v) :
    rowsWhere (d.set k v) p = rowsWhere d p := by
  ext w
  rw [mem_rowsWhere_set]
  constructor
  · rintro (⟨_, hp⟩ | ⟨j, _, hj, hp⟩)
    · exact absurd hp hnew
    · exact ⟨j, hj, hp⟩
  · intro ⟨j, hj, hp⟩
    refine .inr ⟨j, ?_, hj, hp⟩
    intro hjk
    exact hold w (hjk ▸ hj) hp

/-- A new row. -/
theorem rowsWhere_set_none (h : d.get? k = none) (hp : p v) : rowsWhere (d.set k v) p = insert v (rowsWhere d p) := by
  ext w
  rw [mem_rowsWhere_set, Set.mem_insert_iff]
  constructor
  · rintro (⟨rfl, _⟩ | ⟨j, _, hj, hpw⟩)
    · exact .inl rfl
    · exact .inr ⟨j, hj, hpw⟩
  · rintro (rfl | ⟨j, hj, hpw⟩)
    · exact .inl ⟨rfl, hp⟩
    · refine .inr ⟨j, ?_, hj, hpw⟩
      intro hjk
      rw [hjk, h] at hj
      cases hj

/-- **A row is joined with something**, and so is its summary. -/
theorem isLUB_set_some [SemilatticeSup α] {f : V → α} {b x : α}
    (hb : IsLUB (f '' rowsWhere d p) b) (hk : d.get? k = some v) (hp : p v) (hp' : p v')
    (hf : f v' = f v ⊔ x) : IsLUB (f '' rowsWhere (d.set k v') p) (b ⊔ x) := by
  have hv : f v ≤ b := hb.1 ⟨v, ⟨k, hk, hp⟩, rfl⟩
  constructor
  · rintro _ ⟨w, hw, rfl⟩
    rcases mem_rowsWhere_set.mp hw with ⟨rfl, _⟩ | ⟨j, _, hj, hpw⟩
    · rw [hf]
      exact sup_le_sup_right hv x
    · exact (hb.1 ⟨w, ⟨j, hj, hpw⟩, rfl⟩).trans le_sup_left
  · intro c hc
    have hnew : f v' ≤ c := hc ⟨v', mem_rowsWhere_set.mpr (.inl ⟨rfl, hp'⟩), rfl⟩
    rw [hf, sup_le_iff] at hnew
    apply sup_le _ hnew.2
    -- the old row is below its join, the others are still there
    apply hb.2
    rintro _ ⟨w, ⟨j, hj, hpw⟩, rfl⟩
    by_cases hjk : j = k
    · rw [hjk, hk] at hj
      cases hj
      exact hnew.1
    · exact hc ⟨w, mem_rowsWhere_set.mpr (.inr ⟨j, hjk, hj, hpw⟩), rfl⟩

/-- **A new row is joined in.** -/
theorem isLUB_set_none [SemilatticeSup α] {f : V → α} {b : α} (hb : IsLUB (f '' rowsWhere d p) b)
    (hk : d.get? k = none) (hp : p v) : IsLUB (f '' rowsWhere (d.set k v) p) (b ⊔ f v) := by
  rw [rowsWhere_set_none hk hp, Set.image_insert_eq, sup_comm]
  exact IsLUB.insert (f v) hb

end Rows

/-- In a linear order finitely many elements have their least upper bound among them. -/
theorem isGreatest_of_isLUB {α : Type*} [LinearOrder α] {s : Set α} {a : α} (h : IsLUB s a)
    (hfin : s.Finite) (hne : s.Nonempty) : IsGreatest s a := by
  obtain ⟨m, hm, hmax⟩ := Set.exists_max_image s id hfin hne
  have hgreatest : IsGreatest s m := ⟨hm, hmax⟩
  rw [h.unique hgreatest.isLUB]
  exact hgreatest

/-! ## Columns -/

section Columns

variable {V α β : Type*} [LinearOrder α] {s : Set V} {a : α}

/-- A maximum. -/
theorem isLUB_image_iff {f : V → α} (hfin : s.Finite) (hne : s.Nonempty) : IsLUB (f '' s) a ↔ IsGreatest (f '' s) a :=
  ⟨fun h => isGreatest_of_isLUB h (hfin.image f) (hne.image f), fun h => h.isLUB⟩

/-- A minimum. -/
theorem isLUB_image_dual_iff {f : V → α} (hfin : s.Finite) (hne : s.Nonempty) :
    IsLUB ((fun v => OrderDual.toDual (f v)) '' s) (OrderDual.toDual a) ↔ IsLeast (f '' s) a := by
  rw [isLUB_image_iff hfin hne]
  constructor
  · intro ⟨⟨v, hv, hva⟩, hmax⟩
    refine ⟨⟨v, hv, OrderDual.toDual.injective hva⟩, ?_⟩
    rintro _ ⟨w, hw, rfl⟩
    exact hmax ⟨w, hw, rfl⟩
  · intro ⟨⟨v, hv, hva⟩, hmin⟩
    refine ⟨⟨v, hv, congrArg _ hva⟩, ?_⟩
    rintro _ ⟨w, hw, rfl⟩
    exact hmin ⟨w, hw, rfl⟩

/-- A union. -/
theorem isLUB_image_finset_iff {f : V → Finset β} {t : Finset β} :
    IsLUB (f '' s) t ↔ ∀ b, b ∈ t ↔ ∃ v ∈ s, b ∈ f v := by
  classical
  constructor
  · intro h b
    constructor
    · intro hb
      -- the members some row has are an upper bound
      have hbound : t.filter (fun b => ∃ v ∈ s, b ∈ f v) ∈ upperBounds (f '' s) := by
        rintro _ ⟨v, hv, rfl⟩ c hc
        exact Finset.mem_filter.mpr ⟨h.1 ⟨v, hv, rfl⟩ hc, v, hv, hc⟩
      exact (Finset.mem_filter.mp (h.2 hbound hb)).2
    · intro ⟨v, hv, hb⟩
      exact h.1 ⟨v, hv, rfl⟩ hb
  · intro h
    constructor
    · rintro _ ⟨v, hv, rfl⟩ b hb
      exact (h b).mpr ⟨v, hv, hb⟩
    · intro u hu b hb
      obtain ⟨v, hv, hb⟩ := (h b).mp hb
      exact hu ⟨v, hv, rfl⟩ hb

end Columns

/-- The columns of a summary are summaries. -/
theorem isLUB_image_prod_iff {V α β : Type*} [Preorder α] [Preorder β] {s : Set V} {f : V → α × β}
    {a : α} {b : β} : IsLUB (f '' s) (a, b) ↔
      IsLUB ((fun v => (f v).1) '' s) a ∧ IsLUB ((fun v => (f v).2) '' s) b := by
  rw [isLUB_prod, Set.image_image, Set.image_image]

end NightScout.Lib
