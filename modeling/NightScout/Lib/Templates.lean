import Mathlib.Algebra.Order.BigOperators.Group.List
import Mathlib.Data.List.DropRight
import Mathlib.Tactic.Linarith

/-!
# Texts with holes

A template is a text with holes, all filled by one word. Two words of one length fill it alike at every
place (`forall₂_fill`), so a template with a hole tells them apart, also after its blanks are stripped
(`fill_injective`, `eq_of_stripped`). Any two words fill it to the same runs of blanks and words
(`runs_fill`), whatever their lengths are.
-/

namespace NightScout.Lib

variable {α : Type}

inductive Piece (α : Type) where
  | text (t : List α)
  | hole
  deriving DecidableEq, Repr

abbrev Template (α : Type) := List (Piece α)

namespace Template

/-- The text, with a word in each of its holes. -/
def fill (word : List α) : Template α → List α
  | [] => []
  | .text t :: rest => t ++ fill word rest
  | .hole :: rest => word ++ fill word rest

/-- How many holes there are. -/
def holes : Template α → ℕ
  | [] => 0
  | .text _ :: rest => holes rest
  | .hole :: rest => holes rest + 1

variable {word word' : List α}

theorem fill_of_no_holes (word word' : List α) :
    ∀ {template : Template α}, holes template = 0 → fill word template = fill word' template
  | [], _ => rfl
  | .text t :: rest, h => by
    have ih : fill word rest = fill word' rest := fill_of_no_holes word word' h
    rw [fill, fill, ih]
  | .hole :: rest, h => absurd h (Nat.succ_ne_zero _)

theorem fill_injective (hlength : word.length = word'.length) :
    ∀ {template : Template α}, holes template ≠ 0 → fill word template = fill word' template →
      word = word'
  | [], hholes, _ => absurd rfl hholes
  | .text t :: rest, hholes, h => by
    have hrest : fill word rest = fill word' rest := List.append_cancel_left h
    have hholesRest : holes rest ≠ 0 := hholes
    exact fill_injective hlength hholesRest hrest
  | .hole :: rest, _, h => (List.append_inj h hlength).1

/-- A sum over the filled text: what the text brings, and what the word brings in each hole. -/
theorem sum_fill (weight : α → ℕ) (word : List α) : ∀ template : Template α,
    ((fill word template).map weight).sum =
      ((fill [] template).map weight).sum + holes template * (word.map weight).sum
  | [] => by simp [fill, holes]
  | .text t :: rest => by
    have ih := sum_fill weight word rest
    simp only [fill, holes, List.map_append, List.sum_append]
    omega
  | .hole :: rest => by
    have ih := sum_fill weight word rest
    simp only [fill, holes, List.map_append, List.sum_append, List.map_nil, List.sum_nil,
      Nat.add_mul, Nat.one_mul]
    omega

end Template

/-! ## Blanks -/

section Blanks

variable (blank : α → Bool)

/-- The same blank, or two characters that are none. -/
def SameBlanks (a b : α) : Prop := a = b ∨ (blank a = false ∧ blank b = false)

/-- A word: it has characters, and none is a blank. -/
def IsWord (word : List α) : Prop := word ≠ [] ∧ ∀ c ∈ word, blank c = false

variable {blank} {word word' l l' : List α}

theorem SameBlanks.blank_eq {a b : α} (h : SameBlanks blank a b) : blank a = blank b := by
  rcases h with rfl | ⟨ha, hb⟩
  · rfl
  · rw [ha, hb]

theorem forall₂_sameBlanks_self : ∀ l : List α, List.Forall₂ (SameBlanks blank) l l
  | [] => .nil
  | _ :: l => .cons (.inl rfl) (forall₂_sameBlanks_self l)

theorem forall₂_sameBlanks_words (hlength : word.length = word'.length) (h : ∀ c ∈ word, blank c = false)
    (h' : ∀ c ∈ word', blank c = false) : List.Forall₂ (SameBlanks blank) word word' := by
  induction word generalizing word' with
  | nil =>
    cases word' with
    | nil => exact .nil
    | cons c word' => cases hlength
  | cons c word ih =>
    cases word' with
    | nil => cases hlength
    | cons c' word' =>
      apply List.Forall₂.cons (.inr ⟨h c List.mem_cons_self, h' c' List.mem_cons_self⟩)
      apply ih (Nat.succ.inj hlength)
      · exact fun x hx => h x (List.mem_cons_of_mem c hx)
      · exact fun x hx => h' x (List.mem_cons_of_mem c' hx)

/-- Words of one length fill a template alike. -/
theorem forall₂_fill (hlength : word.length = word'.length) (h : IsWord blank word)
    (h' : IsWord blank word') : ∀ template : Template α,
    List.Forall₂ (SameBlanks blank) (template.fill word) (template.fill word')
  | [] => .nil
  | .text t :: rest => List.rel_append (forall₂_sameBlanks_self t) (forall₂_fill hlength h h' rest)
  | .hole :: rest =>
    List.rel_append (forall₂_sameBlanks_words hlength h.2 h'.2) (forall₂_fill hlength h h' rest)

theorem eq_of_dropWhile (h : List.Forall₂ (SameBlanks blank) l l')
    (heq : l.dropWhile blank = l'.dropWhile blank) : l = l' := by
  induction h with
  | nil => rfl
  | @cons a b l l' hab hrest ih =>
    cases hblank : blank a with
    | true =>
      have hsame : a = b := by
        rcases hab with rfl | ⟨ha, -⟩
        · rfl
        · rw [ha] at hblank
          cases hblank
      subst hsame
      rw [List.dropWhile_cons_of_pos hblank, List.dropWhile_cons_of_pos hblank] at heq
      rw [ih heq]
    | false =>
      have hblank' : blank b = false := hab.blank_eq ▸ hblank
      rwa [List.dropWhile_cons_of_neg (by simp [hblank]), List.dropWhile_cons_of_neg (by simp [hblank'])]
        at heq

theorem forall₂_dropWhile (h : List.Forall₂ (SameBlanks blank) l l') :
    List.Forall₂ (SameBlanks blank) (l.dropWhile blank) (l'.dropWhile blank) := by
  induction h with
  | nil => exact .nil
  | @cons a b l l' hab hrest ih =>
    cases hblank : blank a with
    | true =>
      have hblank' : blank b = true := hab.blank_eq ▸ hblank
      rwa [List.dropWhile_cons_of_pos hblank, List.dropWhile_cons_of_pos hblank']
    | false =>
      have hblank' : blank b = false := hab.blank_eq ▸ hblank
      rw [List.dropWhile_cons_of_neg (by simp [hblank]), List.dropWhile_cons_of_neg (by simp [hblank'])]
      exact .cons hab hrest

/-- Texts that are alike and the same without the blanks around them are the same. -/
theorem eq_of_stripped (h : List.Forall₂ (SameBlanks blank) l l')
    (heq : (l.dropWhile blank).rdropWhile blank = (l'.dropWhile blank).rdropWhile blank) : l = l' := by
  apply eq_of_dropWhile h
  have hreverse := List.forall₂_reverse_iff.mpr (forall₂_dropWhile h)
  apply List.reverse_injective
  apply eq_of_dropWhile hreverse
  exact List.reverse_injective heq

/-! ### Runs -/

/-- A text with each of its words written as one `none`; `inside` a word, its rest is left out. -/
def runs (blank : α → Bool) : Bool → List α → List (Option α)
  | _, [] => []
  | inside, c :: cs =>
    if blank c then some c :: runs blank false cs
    else if inside then runs blank true cs
    else none :: runs blank true cs

theorem runs_inside (h : ∀ c ∈ word, blank c = false) (rest : List α) :
    runs blank true (word ++ rest) = runs blank true rest := by
  induction word with
  | nil => rfl
  | cons c word ih =>
    have hc : blank c = false := h c List.mem_cons_self
    rw [List.cons_append, runs, hc]
    exact ih fun x hx => h x (List.mem_cons_of_mem c hx)

/-- A word is one run, or none if it goes on with one. -/
theorem runs_word (h : IsWord blank word) (inside : Bool) (rest : List α) : runs blank inside (word ++ rest) =
      (if inside then [] else [none]) ++ runs blank true rest := by
  obtain ⟨hne, hword⟩ := h
  cases word with
  | nil => exact absurd rfl hne
  | cons c word =>
    have hc : blank c = false := hword c List.mem_cons_self
    have hrest := runs_inside (fun x hx => hword x (List.mem_cons_of_mem c hx)) rest
    rw [List.cons_append, runs, hc]
    cases inside with
    | true => exact hrest
    | false =>
      rw [hrest]
      rfl

theorem runs_append_congr {a b : List α} (h : ∀ inside, runs blank inside a = runs blank inside b)
    (t : List α) (inside : Bool) : runs blank inside (t ++ a) = runs blank inside (t ++ b) := by
  induction t generalizing inside with
  | nil => exact h inside
  | cons c t ih => simp only [List.cons_append, runs, ih]

/-- The runs of a filled template do not depend on the word. -/
theorem runs_fill (h : IsWord blank word) (h' : IsWord blank word') :
    ∀ (template : Template α) (inside : Bool),
      runs blank inside (template.fill word) = runs blank inside (template.fill word')
  | [], _ => rfl
  | .text t :: rest, inside => runs_append_congr (runs_fill h h' rest) t inside
  | .hole :: rest, inside => by
    have ih := runs_fill h h' rest true
    rw [Template.fill, Template.fill, runs_word h, runs_word h', ih]

end Blanks

end NightScout.Lib
