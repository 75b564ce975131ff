import Mathlib.Data.List.Infix

/-!
# Texts inside texts

A text is a list. `replaceAll` is the replacement of all occurrences of one text, from the left and without
overlaps; `after` is what follows the first occurrence. Both go past elements that the text does not have, so a
text that is put together from pieces is treated piece by piece (`replaceAll_cons_of_notMem`,
`replaceAll_append_cons`).
-/

namespace NightScout.Lib

variable {α β : Type*} [DecidableEq α]

/-! ## Occurrences -/

omit [DecidableEq α] in
theorem prefix_append_iff {l a b : List α} : l <+: a ++ b ↔ l <+: a ∨ ∃ rest, l = a ++ rest ∧ rest <+: b := by
  constructor
  · rintro ⟨after, h⟩
    rcases List.append_eq_append_iff.mp h with ⟨rest, rfl, _⟩ | ⟨rest, rfl, rfl⟩
    · exact .inl (List.prefix_append l rest)
    · exact .inr ⟨rest, rfl, List.prefix_append rest after⟩
  · rintro (h | ⟨rest, rfl, h⟩)
    · exact h.trans (List.prefix_append a b)
    · exact (List.prefix_append_right_inj a).mpr h

section Write

variable {old : List α} {write : α → List α} (hsame : ∀ c ∈ old, write c = [c])
    (hother : ∀ c ∉ old, write c ≠ [] ∧ ∀ d ∈ write c, d ∉ old)

include hsame hother

omit [DecidableEq α] in
/-- Where each element is written in a way of its own, the elements of a text as they are and no others with them,
    the text starts where it did. -/
theorem prefix_flatMap_iff (cs : List α) {t : List α} (ht : ∀ c ∈ t, c ∈ old) : t <+: cs.flatMap write ↔ t <+: cs := by
  induction cs generalizing t with
  | nil => rfl
  | cons c cs ih =>
    cases t with
    | nil => exact iff_of_true List.nil_prefix List.nil_prefix
    | cons d t =>
      have htail := ih fun c hc => ht c (List.mem_cons_of_mem _ hc)
      rw [List.flatMap_cons]
      by_cases hc : c ∈ old
      · rw [hsame c hc, List.singleton_append, List.cons_prefix_cons, List.cons_prefix_cons, htail]
      · obtain ⟨hne, hnot⟩ := hother c hc
        obtain ⟨e, es, he⟩ := List.exists_cons_of_ne_nil hne
        rw [he, List.cons_append, List.cons_prefix_cons, List.cons_prefix_cons]
        refine iff_of_false ?_ ?_
        · rintro ⟨rfl, _⟩
          exact hnot d (he ▸ List.mem_cons_self) (ht d List.mem_cons_self)
        · rintro ⟨rfl, _⟩
          exact hc (ht d List.mem_cons_self)

omit [DecidableEq α] in
/-- The text occurs there if it did. -/
theorem infix_flatMap_iff (cs : List α) : old <:+: cs.flatMap write ↔ old <:+: cs := by
  cases hold : old with
  | nil => exact iff_of_true List.nil_infix List.nil_infix
  | cons o rest =>
    rw [← hold]
    induction cs with
    | nil => rfl
    | cons c cs ih =>
      refine Iff.trans ?_ List.infix_cons_iff.symm
      rw [List.flatMap_cons]
      by_cases hc : c ∈ old
      · have hhere := prefix_flatMap_iff hsame hother (c :: cs) fun _ h => h
        rw [List.flatMap_cons, hsame c hc, List.singleton_append] at hhere
        rw [hsame c hc, List.singleton_append]
        exact List.infix_cons_iff.trans (or_congr hhere ih)
      · have hnot : ¬ old <+: c :: cs := by
          rw [hold, List.cons_prefix_cons]
          rintro ⟨rfl, _⟩
          exact hc (hold ▸ List.mem_cons_self)
        rw [or_iff_right hnot, ← ih]
        have hpast (l : List α) (hl : ∀ d ∈ l, d ∉ old) (m : List α) : old <:+: l ++ m ↔ old <:+: m := by
          induction l with
          | nil => rfl
          | cons d l ihl =>
            refine List.infix_cons_iff.trans ((or_iff_right ?_).trans
              (ihl fun e he => hl e (List.mem_cons_of_mem _ he)))
            rw [hold, List.cons_prefix_cons]
            rintro ⟨rfl, _⟩
            exact hl o List.mem_cons_self (hold ▸ List.mem_cons_self)
        exact hpast _ (hother c hc).2 _

end Write

/-! ## Replacing -/

/-- Replacing, with `skip` elements of an occurrence still to drop. -/
def replaceFrom (old new : List α) : ℕ → List α → List α
  | _, [] => []
  | skip + 1, _ :: cs => replaceFrom old new skip cs
  | 0, c :: cs =>
    if old <+: c :: cs then new ++ replaceFrom old new (old.length - 1) cs
    else c :: replaceFrom old new 0 cs

/-- All occurrences of `old`, which is not empty, replaced from the left. -/
def replaceAll (old new : List α) : List α → List α := replaceFrom old new 0

variable {old new : List α}

@[simp] theorem replaceAll_nil : replaceAll old new [] = [] := rfl

theorem replaceAll_cons (c : α) (cs : List α) : replaceAll old new (c :: cs) =
    if old <+: c :: cs then new ++ replaceFrom old new (old.length - 1) cs
    else c :: replaceAll old new cs := rfl

theorem replaceFrom_eq (skip : ℕ) (cs : List α) : replaceFrom old new skip cs = replaceAll old new (cs.drop skip) := by
  induction cs generalizing skip with
  | nil => simp [replaceFrom]
  | cons c cs ih =>
    cases skip with
    | zero => rfl
    | succ skip => exact ih skip

/-- The first occurrence is here. -/
theorem replaceAll_append (hold : old ≠ []) (cs : List α) :
    replaceAll old new (old ++ cs) = new ++ replaceAll old new cs := by
  obtain ⟨o, rest, rfl⟩ := List.exists_cons_of_ne_nil hold
  rw [List.cons_append, replaceAll_cons, if_pos ⟨cs, rfl⟩, replaceFrom_eq]
  simp

theorem replaceAll_cons_of_not_start {c : α} {cs : List α} (h : ¬ old <+: c :: cs) :
    replaceAll old new (c :: cs) = c :: replaceAll old new cs := by
  rw [replaceAll_cons, if_neg h]

theorem replaceAll_eq_self {cs : List α} (h : ¬ old <:+: cs) : replaceAll old new cs = cs := by
  induction cs with
  | nil => rfl
  | cons c cs ih =>
    rw [List.infix_cons_iff, not_or] at h
    rw [replaceAll_cons_of_not_start h.1, ih h.2]

/-- An occurrence starts with the first element of the text. -/
theorem replaceAll_append_of_notMem {o : α} {rest : List α} (hold : old = o :: rest) {a : List α}
    (ha : o ∉ a) (cs : List α) : replaceAll old new (a ++ cs) = a ++ replaceAll old new cs := by
  induction a with
  | nil => rfl
  | cons c a ih =>
    have hhere : ¬ old <+: c :: (a ++ cs) := by
      rw [hold, List.cons_prefix_cons]
      rintro ⟨rfl, _⟩
      exact ha List.mem_cons_self
    rw [List.cons_append, replaceAll_cons_of_not_start hhere,
      ih fun h => ha (List.mem_cons_of_mem _ h)]
    rfl

/-- Replacing goes piece by piece, past an element that the text does not have. -/
theorem replaceAll_append_cons (hold : old ≠ []) {s : α} (hs : s ∉ old) (a b : List α) :
    replaceAll old new (a ++ s :: b) = replaceAll old new a ++ s :: replaceAll old new b := by
  have hstep (b : List α) : replaceAll old new (s :: b) = s :: replaceAll old new b := by
    refine replaceAll_cons_of_not_start ?_
    rintro ⟨rest, h⟩
    cases old with
    | nil => exact hold rfl
    | cons o old =>
      obtain ⟨rfl, _⟩ := List.cons.inj h
      exact hs List.mem_cons_self
  induction hn : a.length using Nat.strong_induction_on generalizing a with
  | _ n ih =>
    cases a with
    | nil => exact hstep b
    | cons c a =>
      have hiff : old <+: c :: (a ++ s :: b) ↔ old <+: c :: a := by
        constructor
        · intro h
          rcases prefix_append_iff.mp (show old <+: (c :: a) ++ s :: b from h) with h | ⟨rest, rfl, hrest⟩
          · exact h
          · cases rest with
            | nil => exact ⟨[], by rw [List.append_nil, List.append_nil]⟩
            | cons d rest =>
              obtain ⟨rfl, _⟩ := List.cons_prefix_cons.mp hrest
              exact absurd (List.mem_append_right _ List.mem_cons_self) hs
        · exact fun h => h.trans (List.prefix_append (c :: a) (s :: b))
      by_cases hhere : old <+: c :: a
      · obtain ⟨rest, hrest⟩ := hhere
        have hlt : rest.length < n := by
          have hlen := congrArg List.length hrest
          rw [List.length_append] at hlen
          have := List.length_pos_iff.mpr hold
          omega
        rw [← hrest, List.append_assoc, replaceAll_append hold, replaceAll_append hold,
          ih rest.length hlt rest rfl, List.append_assoc]
      · have hlt : a.length < n := by
          rw [← hn, List.length_cons]
          omega
        rw [List.cons_append, replaceAll_cons_of_not_start (hiff.not.mpr hhere),
          replaceAll_cons_of_not_start hhere, ih a.length hlt a rfl]
        rfl

/-- What stands in the text afterwards stood in it before, or in what was put in. -/
theorem mem_replaceFrom {skip : ℕ} {cs : List α} {c : α} (h : c ∈ replaceFrom old new skip cs) : c ∈ new ∨ c ∈ cs := by
  induction cs generalizing skip with
  | nil => cases h
  | cons d cs ih =>
    have hlater {skip : ℕ} (h : c ∈ replaceFrom old new skip cs) : c ∈ new ∨ c ∈ d :: cs :=
      (ih h).imp_right (List.mem_cons_of_mem d)
    cases skip with
    | succ skip => exact hlater h
    | zero =>
      unfold replaceFrom at h
      split at h
      · exact (List.mem_append.mp h).elim .inl hlater
      · rcases List.mem_cons.mp h with rfl | h
        · exact .inr List.mem_cons_self
        · exact hlater h

theorem mem_replaceAll {cs : List α} {c : α} (h : c ∈ replaceAll old new cs) : c ∈ new ∨ c ∈ cs :=
  mem_replaceFrom h

/-- Replacing one element is writing it in another way. -/
theorem replaceAll_singleton (c : α) (cs : List α) :
    replaceAll [c] new cs = cs.flatMap fun d => if d = c then new else [d] := by
  induction cs with
  | nil => rfl
  | cons d cs ih =>
    rw [List.flatMap_cons, ← ih]
    split
    next h =>
      rw [h]
      exact replaceAll_append (List.cons_ne_nil c []) cs
    next h =>
      refine replaceAll_cons_of_not_start ?_
      rw [List.cons_prefix_cons]
      exact fun hc => h hc.1.symm

/-- The first occurrence in what is written is where the text occurs first. -/
theorem exists_replaceAll_flatMap {write : α → List α} (hold : old ≠ []) (hsame : ∀ c ∈ old, write c = [c])
    (hother : ∀ c ∉ old, write c ≠ [] ∧ ∀ d ∈ write c, d ∉ old) {cs : List α} (h : old <:+: cs) :
    ∃ a b, cs = a ++ (old ++ b) ∧
      replaceAll old new (cs.flatMap write) = a.flatMap write ++ (new ++ replaceAll old new (b.flatMap write)) := by
  have hwritten : old.flatMap write = old := by
    rw [List.flatMap_congr hsame, List.flatMap_singleton']
  induction cs with
  | nil => exact absurd (List.infix_nil.mp h) hold
  | cons c cs ih =>
    by_cases hhere : old <+: c :: cs
    · obtain ⟨b, hb⟩ := hhere
      refine ⟨[], b, hb.symm, ?_⟩
      rw [← hb, List.flatMap_append, hwritten, replaceAll_append hold]
      rfl
    · obtain ⟨a, b, rfl, hreplace⟩ := ih ((List.infix_cons_iff.mp h).resolve_left hhere)
      refine ⟨c :: a, b, rfl, ?_⟩
      rw [List.flatMap_cons, List.flatMap_cons, List.append_assoc, ← hreplace]
      by_cases hc : c ∈ old
      · have hnot : ¬ old <+: c :: (a ++ (old ++ b)).flatMap write := by
          have hiff := prefix_flatMap_iff hsame hother (c :: (a ++ (old ++ b))) fun _ h => h
          rw [List.flatMap_cons, hsame c hc, List.singleton_append] at hiff
          exact hiff.not.mpr hhere
        rw [hsame c hc, List.singleton_append, replaceAll_cons_of_not_start hnot, List.singleton_append]
      · obtain ⟨o, rest, ho⟩ := List.exists_cons_of_ne_nil hold
        exact replaceAll_append_of_notMem ho
          (fun hmem => (hother c hc).2 o hmem (ho ▸ List.mem_cons_self)) _

/-! ## What follows an occurrence -/

/-- What follows the first occurrence of a text. -/
def after (tag : List α) : List α → Option (List α)
  | [] => none
  | c :: cs => if tag <+: c :: cs then some ((c :: cs).drop tag.length) else after tag cs

section After

variable {s : α} {rest : List α}

/-- A text that has its first element only there does not start before the next of them. -/
theorem after_append_cons (hs : s ∉ rest) {a : List α} (ha : ¬ (s :: rest) <:+: a) (b : List α) :
    after (s :: rest) (a ++ s :: b) = after (s :: rest) (s :: b) := by
  induction a with
  | nil => rfl
  | cons c a ih =>
    rw [List.infix_cons_iff, not_or] at ha
    refine (if_neg ?_).trans (ih ha.2)
    intro h
    rcases prefix_append_iff.mp (show s :: rest <+: (c :: a) ++ s :: b from h) with h | ⟨rest', hsplit, hrest'⟩
    · exact ha.1 h
    · -- the rest of it would have to start with its first element
      cases rest' with
      | nil => exact ha.1 ⟨[], by rw [hsplit, List.append_nil, List.append_nil]⟩
      | cons d rest' =>
        obtain ⟨rfl, _⟩ := List.cons_prefix_cons.mp hrest'
        obtain ⟨_, hmem⟩ := List.cons.inj hsplit
        exact hs (hmem ▸ List.mem_append_right _ List.mem_cons_self)

theorem after_append_of_notMem {a : List α} (ha : s ∉ a) (b : List α) :
    after (s :: rest) (a ++ b) = after (s :: rest) b := by
  induction a with
  | nil => rfl
  | cons c a ih =>
    refine (if_neg ?_).trans (ih fun h => ha (List.mem_cons_of_mem _ h))
    rw [List.cons_prefix_cons]
    rintro ⟨rfl, _⟩
    exact ha List.mem_cons_self

theorem after_cons_of_not_start {c : α} {b : List α} {tag : List α} (h : ¬ tag <+: c :: b) :
    after tag (c :: b) = after tag b := if_neg h

theorem after_self (b : List α) : after (s :: rest) (s :: rest ++ b) = some b := by
  refine (if_pos ⟨b, rfl⟩).trans ?_
  simp

/-- An occurrence has a first one. -/
theorem exists_first {tag a : List α} (htag : tag ≠ []) (h : tag <:+: a) :
    ∃ body rest, a = body ++ (tag ++ rest) ∧ ¬ tag <:+: body := by
  induction a with
  | nil => exact absurd (List.infix_nil.mp h) htag
  | cons c a ih =>
    by_cases hstart : tag <+: c :: a
    · obtain ⟨rest, hrest⟩ := hstart
      exact ⟨[], rest, hrest.symm, fun h => htag (List.infix_nil.mp h)⟩
    · obtain ⟨body, rest, rfl, hbody⟩ := ih ((List.infix_cons_iff.mp h).resolve_left hstart)
      refine ⟨c :: body, rest, rfl, fun h => ?_⟩
      rcases List.infix_cons_iff.mp h with h | h
      · exact hstart (h.trans (List.prefix_append (c :: body) (tag ++ rest)))
      · exact hbody h

/-- An element that the text does not have is gone past. -/
theorem after_append_notMem_cons {tag a b : List α} {s : α} (hs : s ∉ tag) (htag : tag ≠ []) (ha : ¬ tag <:+: a) :
    after tag (a ++ s :: b) = after tag b := by
  induction a with
  | nil =>
    refine after_cons_of_not_start fun h => ?_
    obtain ⟨o, rest, rfl⟩ := List.exists_cons_of_ne_nil htag
    exact hs ((List.cons_prefix_cons.mp h).1 ▸ List.mem_cons_self)
  | cons c a ih =>
    rw [List.infix_cons_iff, not_or] at ha
    refine (after_cons_of_not_start fun h => ?_).trans (ih ha.2)
    rcases prefix_append_iff.mp (show tag <+: (c :: a) ++ s :: b from h) with h | ⟨rest, hsplit, hrest⟩
    · exact ha.1 h
    · cases rest with
      | nil => exact ha.1 ⟨[], by rw [hsplit, List.append_nil, List.append_nil]⟩
      | cons d rest =>
        obtain ⟨rfl, _⟩ := List.cons_prefix_cons.mp hrest
        exact hs (hsplit ▸ List.mem_append_right _ List.mem_cons_self)

/-- What follows an occurrence is no longer than the text. -/
theorem after_length {tag a b : List α} (h : after tag a = some b) : b.length ≤ a.length := by
  induction a with
  | nil => cases h
  | cons c a ih =>
    rw [after] at h
    split at h
    · cases h
      rw [List.length_drop]
      omega
    · exact (ih h).trans (by simp)

end After

/-! ## Lines -/

/-- The lines of a text, with what the last one has so far. -/
def linesFrom (line : List Char) : List Char → List (List Char)
  | [] => if line = [] then [] else [line]
  | c :: cs => if c = '\n' then line :: linesFrom [] cs else linesFrom (line ++ [c]) cs

/-- The lines of a text. A newline ends a line. -/
def textLines : List Char → List (List Char) := linesFrom []

theorem linesFrom_append {a : List Char} (ha : '\n' ∉ a) (line cs : List Char) :
    linesFrom line (a ++ '\n' :: cs) = (line ++ a) :: textLines cs := by
  induction a generalizing line with
  | nil =>
    rw [List.append_nil]
    exact if_pos rfl
  | cons c a ih =>
    rw [List.mem_cons, not_or] at ha
    rw [List.cons_append, linesFrom, if_neg fun h => ha.1 h.symm, ih ha.2, List.append_assoc]
    rfl

/-- Lines that are written one after the other are read as they were. -/
theorem textLines_flatMap {lines : List (List Char)} (hlines : ∀ line ∈ lines, '\n' ∉ line) :
    textLines (lines.flatMap fun line => line ++ ['\n']) = lines := by
  induction lines with
  | nil => rfl
  | cons line lines ih =>
    rw [List.flatMap_cons, List.append_assoc, List.singleton_append, textLines,
      linesFrom_append (hlines line List.mem_cons_self), ih fun l hl => hlines l (List.mem_cons_of_mem _ hl)]
    rfl

end NightScout.Lib
