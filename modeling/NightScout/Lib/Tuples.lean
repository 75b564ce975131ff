import Mathlib.Algebra.Group.Nat.Defs
import Mathlib.Data.List.Nodup

/-!
# Tuples of values

`itertools.product` of finite domains, the last one varying fastest, and the number of places where two tuples of one
length differ. Tuples at distance one are those with one place set to another value (`hamming_eq_one`).
-/

namespace NightScout.Lib

variable {α : Type*}

def product : List (List α) → List (List α)
  | [] => [[]]
  | domain :: domains => domain.flatMap fun value => (product domains).map fun rest => value :: rest

/-- A combination takes each of its values from the domain of its place. -/
theorem mem_product {domains : List (List α)} {combination : List α} :
    combination ∈ product domains ↔ List.Forall₂ (fun value domain => value ∈ domain) combination domains := by
  induction domains generalizing combination with
  | nil => simp [product]
  | cons domain domains ih =>
    rw [product, List.mem_flatMap]
    constructor
    · intro ⟨value, hvalue, hmem⟩
      obtain ⟨rest, hrest, rfl⟩ := List.mem_map.mp hmem
      exact .cons hvalue (ih.mp hrest)
    · intro h
      cases h with
      | cons hvalue hrest => exact ⟨_, hvalue, List.mem_map.mpr ⟨_, ih.mpr hrest, rfl⟩⟩

theorem nodup_product {domains : List (List α)} (h : ∀ domain ∈ domains, domain.Nodup) : (product domains).Nodup := by
  induction domains with
  | nil => exact List.nodup_singleton []
  | cons domain domains ih =>
    have hrest := ih fun d hd => h d (List.mem_cons_of_mem domain hd)
    rw [product, List.nodup_flatMap]
    constructor
    · intro value _
      exact hrest.map fun a b heq => (List.cons.inj heq).2
    · refine (h domain List.mem_cons_self).imp fun {a b} hne => ?_
      intro combination ha hb
      obtain ⟨rest, -, rfl⟩ := List.mem_map.mp ha
      obtain ⟨rest', -, heq⟩ := List.mem_map.mp hb
      exact hne (List.cons.inj heq).1.symm

theorem length_product (domains : List (List α)) : (product domains).length = (domains.map List.length).prod := by
  induction domains with
  | nil => rfl
  | cons domain domains ih =>
    rw [product, List.length_flatMap]
    simp [ih]

section Hamming

variable [DecidableEq α]

/-- In how many places two tuples differ. -/
def hamming : List α → List α → ℕ
  | a :: left, b :: right => (if a = b then 0 else 1) + hamming left right
  | _, _ => 0

@[simp] theorem hamming_self (tuple : List α) : hamming tuple tuple = 0 := by
  induction tuple with
  | nil => rfl
  | cons a tuple ih => simp [hamming, ih]

theorem hamming_eq_zero {left right : List α} (h : left.length = right.length) :
    hamming left right = 0 ↔ left = right := by
  induction left generalizing right with
  | nil => simp [hamming, List.length_eq_zero_iff.mp h.symm]
  | cons a left ih =>
    cases right with
    | nil => cases h
    | cons b right =>
      by_cases hab : a = b
      · simp [hamming, hab, ih (Nat.succ.inj h)]
      · simp [hamming, hab]

/-- Setting one place to another value. -/
theorem hamming_set {tuple : List α} {i : ℕ} {value : α} (hi : i < tuple.length) (hne : value ≠ tuple[i]) :
    hamming (tuple.set i value) tuple = 1 := by
  induction tuple generalizing i with
  | nil => cases hi
  | cons a tuple ih =>
    cases i with
    | zero => simpa [hamming] using hne
    | succ i =>
      have hrest := ih (Nat.lt_of_succ_lt_succ hi) hne
      simp [hamming, hrest]

theorem hamming_eq_one {left right : List α} (h : left.length = right.length) (hone : hamming left right = 1) :
    ∃ i, ∃ hi : i < right.length, ∃ value, value ≠ right[i] ∧ left = right.set i value := by
  induction left generalizing right with
  | nil => cases hone
  | cons a left ih =>
    cases right with
    | nil => cases h
    | cons b right =>
      have hlength : left.length = right.length := Nat.succ.inj h
      by_cases hab : a = b
      · have hrest : hamming left right = 1 := by simpa [hamming, hab] using hone
        obtain ⟨i, hi, value, hne, rfl⟩ := ih hlength hrest
        exact ⟨i + 1, Nat.succ_lt_succ hi, value, hne, by rw [hab]; rfl⟩
      · have hrest : hamming left right = 0 := by simpa [hamming, hab] using hone
        obtain rfl := (hamming_eq_zero hlength).mp hrest
        exact ⟨0, Nat.succ_pos _, a, hab, rfl⟩

end Hamming

end NightScout.Lib
