import Mathlib.Data.List.Lex
import Mathlib.Data.Nat.Digits.Defs

/-!
# Texts of fixed width

Numbers that are written with a fixed number of digits each, and fixed texts between them. Such a text is read back as
its numbers (`readFields_written`), and of two of them that comes first whose numbers come first
(`written_lt_iff`): no digit of one number ever stands beside a digit of another.
-/

namespace NightScout.Lib

/-- `%0*d` of a number that has no more digits than that. -/
def padded : ℕ → ℕ → List Char
  | 0, _ => []
  | width + 1, n => padded width (n / 10) ++ [Nat.digitChar (n % 10)]

def digitValue (c : Char) : Option ℕ := if c.isDigit then some (c.toNat - 48) else none

/-- The number that some digits write, behind the digits that are read already. -/
def readDigits : ℕ → ℕ → List Char → Option (ℕ × List Char)
  | 0, read, rest => some (read, rest)
  | _ + 1, _, [] => none
  | width + 1, read, c :: rest =>
    match digitValue c with
    | none => none
    | some d => readDigits width (10 * read + d) rest

/-- A fixed text, taken off the front. -/
def skipText : List Char → List Char → Option (List Char)
  | [], rest => some rest
  | _ :: _, [] => none
  | c :: fixed, d :: rest => if c = d then skipText fixed rest else none

/-- The widths of the numbers, each with the text that follows it. -/
abbrev Layout := List (ℕ × List Char)

def written : Layout → List ℕ → List Char
  | [], _ => []
  | _ :: _, [] => []
  | (width, fixed) :: layout, n :: ns => padded width n ++ (fixed ++ written layout ns)

def readFields : Layout → List Char → Option (List ℕ × List Char)
  | [], rest => some ([], rest)
  | (width, fixed) :: layout, text => do
    let (n, rest) ← readDigits width 0 text
    let rest ← skipText fixed rest
    let (ns, rest) ← readFields layout rest
    return (n :: ns, rest)

/-- Every number has its place. -/
def Fits (layout : Layout) (ns : List ℕ) : Prop := List.Forall₂ (fun place n => n < 10 ^ place.1) layout ns

/-! ## One number -/

section Numbers

variable {width m n : ℕ} {rest : List Char}

@[simp] theorem length_padded (width n : ℕ) : (padded width n).length = width := by
  induction width generalizing n with
  | zero => rfl
  | succ width ih => rw [padded, List.length_append, ih, List.length_singleton]

theorem digitValue_digitChar : ∀ d < 10, digitValue (Nat.digitChar d) = some d := by decide

theorem digitChar_lt : ∀ c < 10, ∀ d < 10, Nat.digitChar c < Nat.digitChar d ↔ c < d := by decide

/-- The last digit is read last. -/
theorem readDigits_succ (width read : ℕ) (cs : List Char) :
    readDigits (width + 1) read cs = (readDigits width read cs).bind fun p => readDigits 1 p.1 p.2 := by
  induction width generalizing read cs with
  | zero => rfl
  | succ width ih =>
    cases cs with
    | nil => rfl
    | cons c rest =>
      rw [readDigits, readDigits]
      cases digitValue c with
      | none => rfl
      | some d => exact ih (10 * read + d) rest

theorem readDigits_padded (h : n < 10 ^ width) (read : ℕ) (rest : List Char) :
    readDigits width read (padded width n ++ rest) = some (10 ^ width * read + n, rest) := by
  induction width generalizing n rest with
  | zero =>
    rw [pow_zero, Nat.lt_one_iff] at h
    rw [h, pow_zero, one_mul]
    rfl
  | succ width ih =>
    have hshorter : n / 10 < 10 ^ width := Nat.div_lt_of_lt_mul (by rwa [pow_succ, mul_comm] at h)
    have hdigit : n % 10 < 10 := Nat.mod_lt _ (by decide)
    rw [padded, List.append_assoc, List.singleton_append, readDigits_succ, ih hshorter, Option.bind_some, readDigits,
      digitValue_digitChar _ hdigit]
    show some (10 * (10 ^ width * read + n / 10) + n % 10, rest) = _
    have hsum : 10 * (10 ^ width * read + n / 10) + n % 10 = 10 ^ (width + 1) * read + n := by
      rw [Nat.mul_add, Nat.add_assoc, Nat.div_add_mod, pow_succ, mul_comm (10 ^ width) 10, mul_assoc]
    rw [hsum]

theorem padded_inj (hm : m < 10 ^ width) (hn : n < 10 ^ width) (h : padded width m = padded width n) : m = n := by
  have hread := readDigits_padded hm 0 []
  rw [h, readDigits_padded hn 0 []] at hread
  simpa using hread.symm

/-- Behind texts of one length, what comes first is decided by those texts first. -/
theorem append_lt_append_iff {a b x y : List Char} (hlength : a.length = b.length) :
    a ++ x < b ++ y ↔ a < b ∨ a = b ∧ x < y := by
  induction a generalizing b with
  | nil =>
    obtain rfl := List.length_eq_zero_iff.mp hlength.symm
    simp
  | cons c a ih =>
    cases b with
    | nil => cases hlength
    | cons d b =>
      rw [List.cons_append, List.cons_append, List.cons_lt_cons_iff, List.cons_lt_cons_iff, ih (Nat.succ.inj hlength),
        List.cons.injEq]
      constructor
      · rintro (hlt | ⟨rfl, hlt | ⟨rfl, hlt⟩⟩)
        · exact .inl (.inl hlt)
        · exact .inl (.inr ⟨rfl, hlt⟩)
        · exact .inr ⟨⟨rfl, rfl⟩, hlt⟩
      · rintro ((hlt | ⟨rfl, hlt⟩) | ⟨⟨rfl, rfl⟩, hlt⟩)
        · exact .inl hlt
        · exact .inr ⟨rfl, .inl hlt⟩
        · exact .inr ⟨rfl, .inr ⟨rfl, hlt⟩⟩

/-- **Numbers of one width come in the order of their texts.** -/
theorem padded_lt_iff (hm : m < 10 ^ width) (hn : n < 10 ^ width) : padded width m < padded width n ↔ m < n := by
  induction width generalizing m n with
  | zero =>
    rw [pow_zero, Nat.lt_one_iff] at hm hn
    rw [hm, hn]
    exact iff_of_false (List.lt_irrefl _) (lt_irrefl _)
  | succ width ih =>
    have hm' : m / 10 < 10 ^ width := Nat.div_lt_of_lt_mul (by rwa [pow_succ, mul_comm] at hm)
    have hn' : n / 10 < 10 ^ width := Nat.div_lt_of_lt_mul (by rwa [pow_succ, mul_comm] at hn)
    have hsame : padded width (m / 10) = padded width (n / 10) ↔ m / 10 = n / 10 :=
      ⟨padded_inj hm' hn', fun h => by rw [h]⟩
    have hlast : [Nat.digitChar (m % 10)] < [Nat.digitChar (n % 10)] ↔ m % 10 < n % 10 := by
      rw [List.cons_lt_cons_iff, digitChar_lt _ (Nat.mod_lt _ (by decide)) _ (Nat.mod_lt _ (by decide))]
      simp
    rw [padded, padded, append_lt_append_iff (by rw [length_padded, length_padded]), ih hm' hn', hsame, hlast]
    omega

end Numbers

/-! ## All the numbers -/

section Fields

variable {layout : Layout} {ns ms : List ℕ}

theorem skipText_append (fixed rest : List Char) : skipText fixed (fixed ++ rest) = some rest := by
  induction fixed with
  | nil => rfl
  | cons c fixed ih =>
    rw [List.cons_append, skipText, if_pos rfl]
    exact ih

/-- **What is written is read.** -/
theorem readFields_written (h : Fits layout ns) : readFields layout (written layout ns) = some (ns, []) := by
  induction h with
  | nil => rfl
  | cons hn _ ih =>
    rw [written, readFields, readDigits_padded hn, mul_zero, zero_add, Option.bind_eq_bind, Option.bind_some]
    simp only [skipText_append, ih, Option.bind_eq_bind, Option.bind_some, Option.pure_def]

/-- **The texts come in the order of the numbers.** -/
theorem written_lt_iff (hn : Fits layout ns) (hm : Fits layout ms) : written layout ns < written layout ms ↔ ns < ms := by
  induction hn generalizing ms with
  | nil =>
    cases hm
    exact iff_of_false (List.lt_irrefl _) (List.lt_irrefl _)
  | cons hfirst _ ih =>
    cases hm with
    | cons hfirst' hrest' =>
      have hfixed : ∀ (fixed : List Char) {a b : List Char}, fixed ++ a < fixed ++ b ↔ a < b := by
        intro fixed a b
        rw [append_lt_append_iff rfl]
        simp
      rw [written, written, append_lt_append_iff (by rw [length_padded, length_padded]), padded_lt_iff hfirst hfirst',
        hfixed, ih hrest', List.cons_lt_cons_iff]
      have hsame := fun h => padded_inj hfirst hfirst' h
      exact or_congr_right (and_congr_left fun _ => ⟨hsame, fun h => by rw [h]⟩)

end Fields

end NightScout.Lib
