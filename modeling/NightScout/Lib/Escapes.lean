import Mathlib.Data.List.Basic

/-!
# Escaped pieces between separators

Pieces are written one after the other with a separator in between, and what could be taken for a separator is
escaped in them. Splitting keeps the escapes; a piece is `Whole` if splitting never stops inside it.
-/

namespace NightScout.Lib

variable {α : Type*} [DecidableEq α] (esc sep : α)

/-- The text with an escape before everything special. -/
def escapeText (special : α → Bool) (text : List α) : List α :=
  text.flatMap fun c => if special c then [esc, c] else [c]

/-- The text without its escapes, after an escape or not. An escape at the end stands for itself. -/
def unescapeText : Bool → List α → List α
  | escaped, [] => if escaped then [esc] else []
  | true, c :: rest => c :: unescapeText false rest
  | false, c :: rest => if c = esc then unescapeText true rest else c :: unescapeText false rest

/-- The pieces between separators that are not escaped, with their escapes; the piece so far comes first. -/
def splitEscaped : Bool → List α → List α → List (List α)
  | escaped, piece, [] => if escaped then [piece ++ [esc]] else [piece]
  | true, piece, c :: rest => splitEscaped false (piece ++ [esc, c]) rest
  | false, piece, c :: rest =>
    if c = esc then splitEscaped true piece rest
    else if c = sep then piece :: splitEscaped false [] rest
    else splitEscaped false (piece ++ [c]) rest

section Unescaping

variable {esc sep} {special : α → Bool}

/-- **An escaped text is unescaped to the text.** -/
theorem unescapeText_escapeText (hesc : special esc = true) (text : List α) :
    unescapeText esc false (escapeText esc special text) = text := by
  induction text with
  | nil => rfl
  | cons c text ih =>
    unfold escapeText at ih ⊢
    rw [List.flatMap_cons]
    cases hc : special c with
    | true => simpa [unescapeText] using ih
    | false =>
      have hne : c ≠ esc := by
        rintro rfl
        rw [hesc] at hc
        cases hc
      simpa [unescapeText, hne] using ih

end Unescaping

section Splitting

/-- Splitting runs through the piece. -/
def Whole (piece : List α) : Prop :=
  ∀ before rest, splitEscaped esc sep false before (piece ++ rest) = splitEscaped esc sep false (before ++ piece) rest

variable {esc sep} {special : α → Bool}

theorem whole_nil : Whole esc sep [] := by
  intro before rest
  rw [List.append_nil, List.nil_append]

theorem Whole.append {piece piece' : List α} (h : Whole esc sep piece) (h' : Whole esc sep piece') :
    Whole esc sep (piece ++ piece') := by
  intro before rest
  rw [List.append_assoc, h, h', List.append_assoc]

theorem whole_singleton {c : α} (hesc : c ≠ esc) (hsep : c ≠ sep) : Whole esc sep [c] := by
  intro before rest
  rw [List.singleton_append, splitEscaped, if_neg hesc, if_neg hsep]

theorem whole_escaped (c : α) : Whole esc sep [esc, c] := by
  intro before rest
  simp only [List.cons_append, List.nil_append, splitEscaped, if_true]

/-- A piece without escapes and separators. -/
theorem whole_of_plain {piece : List α} (hesc : esc ∉ piece) (hsep : sep ∉ piece) : Whole esc sep piece := by
  induction piece with
  | nil => exact whole_nil
  | cons c piece ih =>
    rw [List.mem_cons, not_or] at hesc hsep
    have hc : Whole esc sep [c] := whole_singleton (Ne.symm hesc.1) (Ne.symm hsep.1)
    exact hc.append (ih hesc.2 hsep.2)

theorem whole_escapeText (hesc : special esc = true) (hsep : special sep = true) (text : List α) :
    Whole esc sep (escapeText esc special text) := by
  induction text with
  | nil => exact whole_nil
  | cons c text ih =>
    unfold escapeText at ih ⊢
    rw [List.flatMap_cons]
    apply Whole.append _ ih
    cases hc : special c with
    | true => exact whole_escaped c
    | false =>
      apply whole_singleton
      · rintro rfl
        rw [hesc] at hc
        cases hc
      · rintro rfl
        rw [hsep] at hc
        cases hc

/-- **Joined pieces are split again.** -/
theorem splitEscaped_intercalate (hne : esc ≠ sep) {piece : List α} {pieces : List (List α)}
    (h : ∀ p ∈ piece :: pieces, Whole esc sep p) :
    splitEscaped esc sep false [] (List.intercalate [sep] (piece :: pieces)) = piece :: pieces := by
  induction pieces generalizing piece with
  | nil =>
    have hwhole := h piece List.mem_cons_self [] []
    rw [List.append_nil, List.nil_append] at hwhole
    rw [List.intercalate_singleton, hwhole]
    rfl
  | cons next pieces ih =>
    have hwhole := h piece List.mem_cons_self
    rw [List.intercalate_cons_of_ne_nil (List.cons_ne_nil next pieces), List.append_assoc, List.singleton_append,
      hwhole, List.nil_append, splitEscaped, if_neg hne.symm, if_pos rfl,
      ih fun p hp => h p (List.mem_cons_of_mem piece hp)]

end Splitting

end NightScout.Lib
