import Mathlib.Data.List.Sort

/-!
# Places in a stable sort

Sorting by a key is stable: elements of one key keep their order. The place an element is sorted to is the number of
elements of a smaller key, and of those of its key that stand before it (`idxOf_sortBy`).
-/

namespace NightScout.Lib

variable {A K : Type*} [LinearOrder K] (key : A → K)

def sortBy (xs : List A) : List A := xs.insertionSort fun a b => key a ≤ key b

/-- How many come before `x`. -/
def placesBefore [DecidableEq A] (xs : List A) (x : A) : ℕ :=
  xs.countP (fun y => key y < key x) + (xs.takeWhile (· ≠ x)).countP fun y => key y = key x

variable {key} {xs : List A} {a x y : A} {n : ℕ}

theorem sorted_sortBy (xs : List A) : (sortBy key xs).Pairwise fun a b => key a ≤ key b :=
  List.pairwise_insertionSort _ _

theorem perm_sortBy (xs : List A) : (sortBy key xs).Perm xs := List.perm_insertionSort _ _

theorem mem_sortBy : x ∈ sortBy key xs ↔ x ∈ xs := List.mem_insertionSort _

/-- What is not among the first comes after each of them. -/
theorem le_of_take (hx : x ∈ (sortBy key xs).take n) (hy : y ∈ xs) (hnot : y ∉ (sortBy key xs).take n) :
    key x ≤ key y := by
  have hsorted : (sortBy key xs).Pairwise fun a b => key a ≤ key b := sorted_sortBy xs
  rw [← List.take_append_drop n (sortBy key xs), List.pairwise_append] at hsorted
  have hmem : y ∈ sortBy key xs := mem_sortBy.mpr hy
  rw [← List.take_append_drop n (sortBy key xs), List.mem_append] at hmem
  exact hsorted.2.2 x hx y (hmem.resolve_left hnot)

section Places

variable [DecidableEq A]

/-- The new element is put behind those of a smaller key. -/
theorem idxOf_orderedInsert_self (h : xs.Pairwise fun a b => key a ≤ key b) :
    (xs.orderedInsert (fun a b => key a ≤ key b) a).idxOf a = xs.countP fun y => key y < key a := by
  induction xs with
  | nil => simp
  | cons b xs ih =>
    obtain ⟨hb, hxs⟩ := List.pairwise_cons.mp h
    by_cases hle : key a ≤ key b
    · have hnone : (b :: xs).countP (fun y => key y < key a) = 0 := by
        rw [List.countP_eq_zero]
        intro y hy
        rcases List.mem_cons.mp hy with rfl | hy
        · simpa using hle
        · simpa using hle.trans (hb y hy)
      rw [List.orderedInsert_cons, if_pos hle, List.idxOf_cons_self, hnone]
    · have hne : b ≠ a := by
        rintro rfl
        exact hle le_rfl
      rw [List.orderedInsert_cons, if_neg hle, List.idxOf_cons_ne _ hne, ih hxs,
        List.countP_cons_of_pos (by simpa using hle)]

/-- An element of a key as large moves back by one. -/
theorem idxOf_orderedInsert_ne (h : xs.Pairwise fun a b => key a ≤ key b) (hx : x ∈ xs) (hne : a ≠ x) :
    (xs.orderedInsert (fun a b => key a ≤ key b) a).idxOf x = xs.idxOf x + if key a ≤ key x then 1 else 0 := by
  induction xs with
  | nil => cases hx
  | cons b xs ih =>
    obtain ⟨hb, hxs⟩ := List.pairwise_cons.mp h
    by_cases hle : key a ≤ key b
    · have hlex : key a ≤ key x := by
        rcases List.mem_cons.mp hx with rfl | hx
        · exact hle
        · exact hle.trans (hb x hx)
      rw [List.orderedInsert_cons, if_pos hle, List.idxOf_cons_ne _ hne, if_pos hlex]
    · rw [List.orderedInsert_cons, if_neg hle]
      by_cases hbx : b = x
      · subst hbx
        rw [List.idxOf_cons_self, List.idxOf_cons_self, if_neg hle]
      · rw [List.idxOf_cons_ne _ hbx, List.idxOf_cons_ne _ hbx,
          ih hxs ((List.mem_cons.mp hx).resolve_left (Ne.symm hbx))]
        omega

/-- **The place of an element in the sort.** -/
theorem idxOf_sortBy (hx : x ∈ xs) : (sortBy key xs).idxOf x = placesBefore key xs x := by
  induction xs with
  | nil => cases hx
  | cons a xs ih =>
    have hsorted : (sortBy key xs).Pairwise fun a b => key a ≤ key b := sorted_sortBy xs
    have hstep : sortBy key (a :: xs) = (sortBy key xs).orderedInsert (fun a b => key a ≤ key b) a :=
      List.insertionSort_cons _ _ _
    rw [hstep]
    by_cases hax : a = x
    · subst hax
      rw [idxOf_orderedInsert_self hsorted, (perm_sortBy xs).countP_eq, placesBefore,
        List.countP_cons_of_neg (by simp), List.takeWhile_cons_of_neg (by simp), List.countP_nil]
      rfl
    · have hmem : x ∈ xs := (List.mem_cons.mp hx).resolve_left (Ne.symm hax)
      rw [idxOf_orderedInsert_ne hsorted (mem_sortBy.mpr hmem) hax, ih hmem, placesBefore, placesBefore,
        List.takeWhile_cons_of_pos (by simpa using hax), List.countP_cons, List.countP_cons]
      rcases lt_trichotomy (key a) (key x) with hlt | heq | hgt
      · simp [hlt, hlt.le, hlt.ne]
        omega
      · simp [heq]
        omega
      · simp [hgt.not_ge, hgt.not_gt, hgt.ne']

theorem mem_take_sortBy (hx : x ∈ xs) : x ∈ (sortBy key xs).take n ↔ placesBefore key xs x < n := by
  rw [List.mem_take_iff_idxOf_lt (mem_sortBy.mpr hx), idxOf_sortBy hx]

end Places

end NightScout.Lib
