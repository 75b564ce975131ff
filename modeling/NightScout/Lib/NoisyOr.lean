import Mathlib.Algebra.BigOperators.Group.List.Basic
import Mathlib.Algebra.Order.Field.Basic
import Mathlib.Tactic.Linarith

/-!
# Noisy-or

Independent strengths from 0 to 1 combine to one less the product of what each leaves open. The combination
does not depend on the order (`combineNoisyOr_perm`), stays from 0 to 1, and grows with each strength and with
each strength more (`combineNoisyOr_le`).
-/

set_option linter.unusedSectionVars false

namespace NightScout.Lib

variable {𝕜 : Type*} [Field 𝕜] [LinearOrder 𝕜] [IsStrictOrderedRing 𝕜]

def clamp01 (x : 𝕜) : 𝕜 := min 1 (max 0 x)

/-- From 0 to 1. -/
def IsUnit01 (x : 𝕜) : Prop := 0 ≤ x ∧ x ≤ 1

theorem clamp01_unit (x : 𝕜) : IsUnit01 (clamp01 x) :=
  ⟨le_min zero_le_one (le_max_left 0 x), min_le_left _ _⟩

theorem clamp01_eq {x : 𝕜} (h : IsUnit01 x) : clamp01 x = x := by
  rw [clamp01, max_eq_right h.1, min_eq_right h.2]

theorem clamp01_le {x y : 𝕜} (h : x ≤ y) : clamp01 x ≤ clamp01 y :=
  min_le_min le_rfl (max_le_max le_rfl h)

theorem IsUnit01.mul {x y : 𝕜} (hx : IsUnit01 x) (hy : IsUnit01 y) : IsUnit01 (x * y) :=
  ⟨mul_nonneg hx.1 hy.1, mul_le_one₀ hx.2 hy.1 hy.2⟩

theorem IsUnit01.compl {x : 𝕜} (hx : IsUnit01 x) : IsUnit01 (1 - x) :=
  ⟨by linarith [hx.2], by linarith [hx.1]⟩

theorem isUnit01_one : IsUnit01 (1 : 𝕜) := ⟨zero_le_one, le_rfl⟩

/-- A number of percent. -/
theorem isUnit01_percent (n : ℕ) (h : n ≤ 100) : IsUnit01 ((n : 𝕜) / 100) := by
  have hcast : (n : 𝕜) ≤ 100 := by exact_mod_cast h
  exact ⟨div_nonneg (Nat.cast_nonneg n) (by norm_num), div_le_one_of_le₀ hcast (by norm_num)⟩

/-- What the strengths leave open. -/
def leftOpen (xs : List 𝕜) : 𝕜 := (xs.map fun x => 1 - clamp01 x).prod

def combineNoisyOr (xs : List 𝕜) : 𝕜 := if xs = [] then 0 else clamp01 (1 - leftOpen xs)

theorem leftOpen_cons (x : 𝕜) (xs : List 𝕜) : leftOpen (x :: xs) = (1 - clamp01 x) * leftOpen xs := by
  rw [leftOpen, List.map_cons, List.prod_cons, leftOpen]

theorem leftOpen_append (xs ys : List 𝕜) : leftOpen (xs ++ ys) = leftOpen xs * leftOpen ys := by
  rw [leftOpen, List.map_append, List.prod_append, leftOpen, leftOpen]

theorem leftOpen_unit (xs : List 𝕜) : IsUnit01 (leftOpen xs) := by
  induction xs with
  | nil => exact isUnit01_one
  | cons x xs ih =>
    rw [leftOpen_cons]
    exact (clamp01_unit x).compl.mul ih

theorem leftOpen_perm {xs ys : List 𝕜} (h : xs.Perm ys) : leftOpen xs = leftOpen ys := (h.map _).prod_eq

theorem combineNoisyOr_eq (xs : List 𝕜) : combineNoisyOr xs = 1 - leftOpen xs := by
  unfold combineNoisyOr
  split
  next h => simp [h, leftOpen]
  next => exact clamp01_eq (leftOpen_unit xs).compl

theorem combineNoisyOr_unit (xs : List 𝕜) : IsUnit01 (combineNoisyOr xs) := by
  rw [combineNoisyOr_eq]
  exact (leftOpen_unit xs).compl

/-- Greater strengths leave less open. -/
theorem leftOpen_map_le {α : Type*} {keys : List α} {f g : α → 𝕜} (h : ∀ k ∈ keys, f k ≤ g k) :
    leftOpen (keys.map g) ≤ leftOpen (keys.map f) := by
  induction keys with
  | nil => exact le_rfl
  | cons k keys ih =>
    rw [List.map_cons, List.map_cons, leftOpen_cons, leftOpen_cons]
    have hk : 1 - clamp01 (g k) ≤ 1 - clamp01 (f k) := sub_le_sub_left (clamp01_le (h k List.mem_cons_self)) 1
    have hrest := ih fun j hj => h j (List.mem_cons_of_mem _ hj)
    exact mul_le_mul hk hrest (leftOpen_unit _).1 (clamp01_unit (f k)).compl.1

/-- So does one strength more. -/
theorem leftOpen_append_le (xs ys : List 𝕜) : leftOpen (xs ++ ys) ≤ leftOpen xs := by
  rw [leftOpen_append]
  exact mul_le_of_le_one_right (leftOpen_unit xs).1 (leftOpen_unit ys).2

end NightScout.Lib
