import Mathlib.Data.List.Basic

/-!
# Splitting, joining and reading lists

What `List.splitOn` and `List.intercalate` do to elements and lengths, and how reading the elements
of a list with `mapM` goes wrong or right.
-/

namespace NightScout.Lib

/-! ## Reading every element -/

section Reading

variable {α β : Type*}

theorem mapM_concat (f : α → Option β) (xs : List α) (x : α) :
    (xs ++ [x]).mapM f = (xs.mapM f).bind fun ys => (f x).map fun y => ys ++ [y] := by
  induction xs with
  | nil => cases hx : f x <;> simp [hx]
  | cons y ys ih =>
    cases hy : f y with
    | none => simp [hy]
    | some b =>
      simp only [List.cons_append, List.mapM_cons, hy, ih, Option.bind_eq_bind, Option.bind_some]
      cases ys.mapM f with
      | none => rfl
      | some bs => cases f x <;> rfl

theorem ne_none_of_mapM {f : α → Option β} {xs : List α} {ys : List β} (h : xs.mapM f = some ys)
    {x : α} (hx : x ∈ xs) : f x ≠ none := by
  intro hnone
  induction xs generalizing ys with
  | nil => cases hx
  | cons y xs ih =>
    rw [List.mapM_cons] at h
    obtain ⟨b, hb, h⟩ := Option.bind_eq_some_iff.mp h
    obtain ⟨bs, hbs, -⟩ := Option.bind_eq_some_iff.mp h
    rcases List.mem_cons.mp hx with rfl | hx
    · rw [hnone] at hb
      cases hb
    · exact ih hbs hx

/-- Written and read, element by element. -/
theorem mapM_map {read : β → Option α} {write : α → β} {xs : List α}
    (h : ∀ x ∈ xs, read (write x) = some x) : (xs.map write).mapM read = some xs := by
  induction xs with
  | nil => rfl
  | cons x xs ih =>
    simp [h x List.mem_cons_self, ih fun y hy => h y (List.mem_cons_of_mem x hy)]

/-- What is read has the length of the list, and what every element is read as. -/
theorem mapM_some {f : α → Option β} {P : β → Prop} {xs : List α} {ys : List β}
    (hP : ∀ x ∈ xs, ∀ y, f x = some y → P y) (h : xs.mapM f = some ys) : ys.length = xs.length ∧ ∀ y ∈ ys, P y := by
  induction xs generalizing ys with
  | nil =>
    obtain rfl := Option.some.inj h
    simp
  | cons x xs ih =>
    rw [List.mapM_cons] at h
    obtain ⟨b, hb, h⟩ := Option.bind_eq_some_iff.mp h
    obtain ⟨bs, hbs, h⟩ := Option.bind_eq_some_iff.mp h
    obtain rfl := Option.some.inj h
    obtain ⟨hlength, hall⟩ := ih (fun z hz => hP z (List.mem_cons_of_mem x hz)) hbs
    refine ⟨by simp [hlength], ?_⟩
    intro y hy
    rcases List.mem_cons.mp hy with rfl | hy
    · exact hP x List.mem_cons_self y hb
    · exact hall y hy

end Reading

/-! ## Joining -/

section Joining

variable {α : Type*} {sep : List α}

theorem mem_intercalate {texts : List (List α)} {c : α} (h : c ∈ sep.intercalate texts) :
    c ∈ sep ∨ ∃ text ∈ texts, c ∈ text := by
  induction texts with
  | nil => cases h
  | cons text texts ih =>
    by_cases hnil : texts = []
    · rw [hnil, List.intercalate_singleton] at h
      exact .inr ⟨text, List.mem_cons_self, h⟩
    · rw [List.intercalate_cons_of_ne_nil hnil, List.append_assoc] at h
      rcases List.mem_append.mp h with h | h
      · exact .inr ⟨text, List.mem_cons_self, h⟩
      rcases List.mem_append.mp h with h | h
      · exact .inl h
      rcases ih h with hsep | ⟨other, hother, hc⟩
      · exact .inl hsep
      · exact .inr ⟨other, List.mem_cons_of_mem text hother, hc⟩

theorem intercalate_append {front back : List (List α)} (hfront : front ≠ []) (hback : back ≠ []) :
    sep.intercalate (front ++ back) = sep.intercalate front ++ sep ++ sep.intercalate back := by
  induction front with
  | nil => exact absurd rfl hfront
  | cons label front ih =>
    by_cases hnil : front = []
    · rw [hnil, List.singleton_append, List.intercalate_cons_of_ne_nil hback, List.intercalate_singleton]
    · rw [List.cons_append, List.intercalate_cons_of_ne_nil (by simp [hnil]),
        List.intercalate_cons_of_ne_nil hnil, ih hnil]
      simp only [List.append_assoc]

end Joining

/-! ## Splitting -/

section Splitting

variable {α : Type*} {p : α → Bool}

/-- A piece is made of elements of the list, and no longer than it. -/
theorem piece_sublist {xs piece : List α} (h : piece ∈ xs.splitOnP p) : piece.Sublist xs := by
  induction xs generalizing piece with
  | nil =>
    rw [List.splitOnP_nil, List.mem_singleton] at h
    rw [h]
  | cons x xs ih =>
    rw [List.splitOnP_cons_eq_if_modifyHead] at h
    split at h
    · rcases List.mem_cons.mp h with rfl | h
      · exact List.nil_sublist _
      · exact (ih h).cons x
    · cases hsplit : xs.splitOnP p with
      | nil => exact absurd hsplit (List.splitOnP_ne_nil p xs)
      | cons first rest =>
        rw [hsplit, List.modifyHead_cons] at h
        rw [hsplit] at ih
        rcases List.mem_cons.mp h with rfl | h
        · exact (ih List.mem_cons_self).cons_cons x
        · exact (ih (List.mem_cons_of_mem first h)).cons x

/-- A piece has no separator. -/
theorem piece_free {xs piece : List α} (h : piece ∈ xs.splitOnP p) : ∀ x ∈ piece, p x = false := by
  induction xs generalizing piece with
  | nil =>
    rw [List.splitOnP_nil, List.mem_singleton] at h
    rw [h]
    exact fun x hx => by cases hx
  | cons y xs ih =>
    rw [List.splitOnP_cons_eq_if_modifyHead] at h
    split at h
    · rcases List.mem_cons.mp h with rfl | h
      · exact fun x hx => by cases hx
      · exact ih h
    next hy =>
      cases hsplit : xs.splitOnP p with
      | nil => exact absurd hsplit (List.splitOnP_ne_nil p xs)
      | cons first rest =>
        rw [hsplit, List.modifyHead_cons] at h
        rw [hsplit] at ih
        rcases List.mem_cons.mp h with rfl | h
        · exact List.forall_mem_cons.mpr ⟨by simpa using hy, ih List.mem_cons_self⟩
        · exact ih (List.mem_cons_of_mem first h)

/-- The pieces of a joined list are the pieces of its parts. -/
theorem splitOnP_intercalate {sep : α} (hsep : p sep = true) {parts : List (List α)} (hne : parts ≠ []) :
    (List.intercalate [sep] parts).splitOnP p = parts.flatMap (List.splitOnP p) := by
  induction parts with
  | nil => exact absurd rfl hne
  | cons part parts ih =>
    by_cases hnil : parts = []
    · simp [hnil, List.intercalate_singleton]
    · rw [List.intercalate_cons_of_ne_nil hnil, List.append_assoc, List.singleton_append,
        List.splitOnP_append_cons part _ hsep, ih hnil, List.flatMap_cons]

variable [BEq α]

theorem splitOn_sublist {sep : α} {xs piece : List α} (h : piece ∈ xs.splitOn sep) : piece.Sublist xs := by
  rw [List.splitOn_eq_splitOnP] at h
  exact piece_sublist h

theorem splitOn_ne_nil (xs : List α) (sep : α) : xs.splitOn sep ≠ [] := by
  rw [List.splitOn_eq_splitOnP]
  exact List.splitOnP_ne_nil _ _

variable [LawfulBEq α]

theorem splitOn_append_cons (a b : List α) (sep : α) :
    (a ++ sep :: b).splitOn sep = a.splitOn sep ++ b.splitOn sep := by
  simp only [List.splitOn_eq_splitOnP]
  exact List.splitOnP_append_cons a b (by simp)

theorem splitOn_join {sep : α} {parts : List (List α)} (hne : parts ≠ []) :
    (List.intercalate [sep] parts).splitOn sep = parts.flatMap fun part => part.splitOn sep := by
  simp only [List.splitOn_eq_splitOnP]
  exact splitOnP_intercalate (by simp) hne

end Splitting

/-!
## Reading lines until one fails

A stream of lines is read one by one: a line gives a result or none, and a line that fails ends the stream, so that what
comes after it is lost. All results are kept exactly if no line fails (`keepsAll_iff`).
-/

variable {ι α ε : Type*}

/-- The results, and the failure that ended the stream. -/
def readLines (read : ι → Except ε (Option α)) : List ι → List α × Option ε
  | [] => ([], none)
  | line :: lines =>
    match read line with
    | .error e => ([], some e)
    | .ok result => (result.toList ++ (readLines read lines).1, (readLines read lines).2)

/-- The result of a line, if it has one. -/
def validResult (read : ι → Except ε (Option α)) (line : ι) : Option α :=
  match read line with
  | .ok result => result
  | .error _ => none

/-- Nothing is lost, and nothing fails. -/
def KeepsAll (read : ι → Except ε (Option α)) (lines : List ι) : Prop :=
  readLines read lines = (lines.filterMap (validResult read), none)

variable {read : ι → Except ε (Option α)}

theorem keepsAll_iff {lines : List ι} : KeepsAll read lines ↔ ∀ line ∈ lines, ∃ result, read line = .ok result := by
  unfold KeepsAll
  induction lines with
  | nil => simp [readLines]
  | cons line lines ih =>
    rw [List.forall_mem_cons, ← ih]
    cases hread : read line with
    | error e => simp [readLines, hread]
    | ok result => cases result <;> simp [readLines, validResult, hread, Prod.ext_iff]

end NightScout.Lib
