import Mathlib.Data.List.Basic

/-!
# The first of each key

Elements are taken in their order, one for each key. A loop that stops once it has enough of them has the first of all
it would have taken (`takeSeen_eq`), and whether it ever reads an element depends only on what stands before it.
-/

namespace NightScout.Lib

variable {A K : Type*} [DecidableEq K] (key : A → K)

/-- One element more, if its key is new. -/
def addSeen (out : List A) (x : A) : List A := if key x ∈ out.map key then out else out ++ [x]

/-- What is taken behind what is taken already. -/
def seenAfter (out xs : List A) : List A := xs.foldl (addSeen key) out

/-- The first element of each key, in order. -/
def firstSeen (xs : List A) : List A := seenAfter key [] xs

/-- The loop that stops at a limit. -/
def takeSeen (limit : ℕ) (out : List A) : List A → List A
  | [] => out
  | x :: xs =>
    if key x ∈ out.map key then takeSeen limit out xs
    else if limit ≤ (out ++ [x]).length then out ++ [x]
    else takeSeen limit (out ++ [x]) xs

variable {key} {out xs ys : List A} {x : A} {limit : ℕ}

theorem seenAfter_append (out xs ys : List A) : seenAfter key out (xs ++ ys) = seenAfter key (seenAfter key out xs) ys :=
  List.foldl_append

/-- Nothing that is taken is given back. -/
theorem prefix_seenAfter (out xs : List A) : out <+: seenAfter key out xs := by
  induction xs generalizing out with
  | nil => exact List.prefix_refl out
  | cons x xs ih =>
    refine List.IsPrefix.trans ?_ (ih (addSeen key out x))
    unfold addSeen
    split
    · exact List.prefix_refl out
    · exact List.prefix_append out [x]

theorem length_le_seenAfter (out xs : List A) : out.length ≤ (seenAfter key out xs).length :=
  (prefix_seenAfter out xs).length_le

/-- A full list stays as it is, whatever comes after. -/
theorem take_seenAfter (h : limit ≤ out.length) (xs : List A) : (seenAfter key out xs).take limit = out.take limit := by
  have hfront : out <+: seenAfter key out xs := prefix_seenAfter out xs
  obtain ⟨rest, hrest⟩ := hfront
  rw [← hrest, List.take_append_of_le_length h]

/-- **The loop takes the first of all there are.** -/
theorem takeSeen_eq (h : out.length < limit) : takeSeen key limit out xs = (seenAfter key out xs).take limit := by
  induction xs generalizing out with
  | nil => exact (List.take_of_length_le (Nat.le_of_lt h)).symm
  | cons x xs ih =>
    unfold takeSeen
    show _ = (seenAfter key (addSeen key out x) xs).take limit
    unfold addSeen
    split
    · exact ih h
    · split
      next hfull =>
        have hlength : (out ++ [x]).length ≤ limit := by
          rw [List.length_append]
          exact h
        rw [take_seenAfter hfull, List.take_of_length_le hlength]
      next hroom => exact ih (Nat.not_le.mp hroom)

/-- The first element there is has a new key. -/
theorem firstSeen_ne_nil (h : xs ≠ []) : firstSeen key xs ≠ [] := by
  cases xs with
  | nil => exact absurd rfl h
  | cons x xs =>
    have hfront : addSeen key [] x <+: seenAfter key (addSeen key [] x) xs := prefix_seenAfter _ xs
    obtain ⟨rest, hrest⟩ := hfront
    intro hnil
    have hempty : addSeen key [] x ++ rest = [] := hrest.trans hnil
    rw [addSeen, if_neg (by simp)] at hempty
    cases hempty

end NightScout.Lib
