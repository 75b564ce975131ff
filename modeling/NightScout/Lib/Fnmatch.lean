import Mathlib.Data.List.Basic

/-!
# `fnmatch.fnmatchcase`

The shell patterns of Python's `fnmatch`: `*`, `?`, `[seq]` and `[!seq]`. CPython translates a
pattern to a regular expression. Here it is translated to a list of tokens, by the same scan; the
tokens are what the regular expression means.

The scan of a bracket is the odd part. A bracket that is never closed is a literal `[`, a hyphen
makes a range only where a character stands on both sides of it, and a range that runs backwards is
cut out, which can leave a bracket that matches nothing, or one that matches everything.
-/

namespace NightScout.Lib

namespace Fnmatch

/-- What one piece of a pattern matches. -/
inductive Token where
  | star
  | any
  | char (c : Char)
  /-- One character in (not in, if `negated`) one of the ranges. -/
  | range (negated : Bool) (ranges : List (Char × Char))
  deriving DecidableEq, Repr

/-! ## Brackets -/

/-- The pieces of a bracket between the hyphens that may make ranges. The first `skip` characters
    of a piece cannot be such a hyphen. -/
def chunks (skip : ℕ) (chunk : List Char) : List Char → List (List Char)
  | [] => [chunk.reverse]
  | c :: cs =>
    if skip = 0 ∧ c = '-' then chunk.reverse :: chunks 2 [] cs
    else chunks (skip - 1) (c :: chunk) cs

/-- A hyphen at the very end is a character of the piece before it. -/
def closeChunks : List (List Char) → List (List Char)
  | [chunk, []] => [chunk ++ ['-']]
  | chunk :: rest => chunk :: closeChunks rest
  | [] => []

/-- Removes the ranges that run backwards, from the last one on. -/
def dropEmptyRanges : List (List Char) → List (List Char)
  | [] => []
  | chunk :: rest =>
    match dropEmptyRanges rest with
    | [] => [chunk]
    | next :: others =>
      if next.headD ' ' < chunk.getLastD ' ' then (chunk.dropLast ++ next.tail) :: others
      else chunk :: next :: others

/-- The ranges a list of pieces stands for: one between each piece and the next, and every other
    character by itself. -/
def rangesOf : List Char → List (List Char) → List (Char × Char)
  | chunk, [] => chunk.map fun c => (c, c)
  | chunk, next :: rest =>
    chunk.dropLast.map (fun c => (c, c)) ++
      (chunk.getLastD ' ', next.headD ' ') :: rangesOf next.tail rest

/-- What a closed bracket matches. -/
def bracket (stuff : List Char) : Token :=
  let pieces :=
    if '-' ∈ stuff then
      dropEmptyRanges (closeChunks (chunks (if stuff.head? = some '!' then 2 else 1) [] stuff))
    else [stuff]
  match pieces with
  | [] => .range false []
  | ('!' :: chunk) :: rest => .range true (rangesOf chunk rest)
  | chunk :: rest => .range false (rangesOf chunk rest)

/-- The text of a bracket and what follows it, if the bracket is closed. -/
def closeBracket : List Char → Option (List Char × List Char)
  | [] => none
  | ']' :: cs => some ([], cs)
  | c :: cs => (closeBracket cs).map fun (stuff, rest) => (c :: stuff, rest)

/-- A `!` and a `]` at the start of a bracket do not close it. -/
def scanBracket : List Char → Option (List Char × List Char)
  | '!' :: ']' :: cs => (closeBracket cs).map fun (stuff, rest) => ('!' :: ']' :: stuff, rest)
  | '!' :: cs => (closeBracket cs).map fun (stuff, rest) => ('!' :: stuff, rest)
  | ']' :: cs => (closeBracket cs).map fun (stuff, rest) => (']' :: stuff, rest)
  | cs => closeBracket cs

/-! ## Translating and matching -/

/-- `translate`. `fuel` bounds the characters left to scan. -/
def translateFrom : ℕ → List Char → List Token
  | 0, _ => []
  | _ + 1, [] => []
  | fuel + 1, '*' :: cs => .star :: translateFrom fuel cs
  | fuel + 1, '?' :: cs => .any :: translateFrom fuel cs
  | fuel + 1, '[' :: cs =>
    match scanBracket cs with
    | some (stuff, rest) => bracket stuff :: translateFrom fuel rest
    | none => .char '[' :: translateFrom fuel cs
  | fuel + 1, c :: cs => .char c :: translateFrom fuel cs

def translate (pattern : String) : List Token :=
  translateFrom pattern.toList.length pattern.toList

/-- Whether one character is matched by a token that takes one. -/
def Token.accepts : Token → Char → Bool
  | .star, _ => false
  | .any, _ => true
  | .char c, d => c = d
  | .range negated ranges, d => ranges.any (fun r => r.1 ≤ d && d ≤ r.2) != negated

/-- Whether the tokens match the whole text. -/
def matchTokens : List Token → List Char → Bool
  | [], cs => cs.isEmpty
  | .star :: ts, cs => cs.tails.any (matchTokens ts)
  | t :: ts, cs =>
    match cs with
    | [] => false
    | c :: cs => t.accepts c && matchTokens ts cs

end Fnmatch

/-- `fnmatchcase(name, pattern)`. -/
def fnmatchcase (name pattern : String) : Bool :=
  Fnmatch.matchTokens (Fnmatch.translate pattern) name.toList

/-! ## Literal beginnings

A pattern that is literal up to a star at its end asks for a beginning of the text. -/

namespace Fnmatch

/-- A character that stands for itself. -/
def isLiteral (c : Char) : Bool := c ≠ '*' ∧ c ≠ '?' ∧ c ≠ '['

theorem translateFrom_cons {c : Char} (h : isLiteral c = true) (fuel : ℕ) (cs : List Char) :
    translateFrom (fuel + 1) (c :: cs) = .char c :: translateFrom fuel cs := by
  simp only [isLiteral, decide_eq_true_eq] at h
  obtain ⟨hstar, hany, hbracket⟩ := h
  rw [translateFrom]
  · exact fun hc => hstar hc
  · exact fun hc => hany hc
  · exact fun hc => hbracket hc

theorem translateFrom_literal {cs : List Char} (h : ∀ c ∈ cs, isLiteral c = true) (fuel : ℕ) (rest : List Char) :
    translateFrom (cs.length + fuel) (cs ++ rest) = cs.map Token.char ++ translateFrom fuel rest := by
  induction cs with
  | nil => simp
  | cons c cs ih =>
    have hcs := ih fun d hd => h d (List.mem_cons_of_mem c hd)
    rw [List.length_cons, Nat.add_right_comm, List.cons_append,
      translateFrom_cons (h c List.mem_cons_self), hcs]
    rfl

theorem matchTokens_star (text : List Char) : matchTokens [.star] text = true := by
  rw [matchTokens, List.any_eq_true]
  refine ⟨[], ?_, rfl⟩
  induction text with
  | nil => exact List.mem_singleton_self []
  | cons c text ih => exact List.mem_cons_of_mem _ ih

theorem matchTokens_literal_star (cs text : List Char) :
    matchTokens (cs.map Token.char ++ [.star]) text = true ↔ cs <+: text := by
  induction cs generalizing text with
  | nil => simp [matchTokens_star]
  | cons c cs ih =>
    cases text with
    | nil => simp [matchTokens]
    | cons d text => simp [matchTokens, Token.accepts, ih]

end Fnmatch

theorem fnmatchcase_literal_star {name pattern : String} {cs : List Char}
    (hpattern : pattern.toList = cs ++ ['*']) (h : ∀ c ∈ cs, Fnmatch.isLiteral c = true) :
    fnmatchcase name pattern = true ↔ cs <+: name.toList := by
  have htokens : Fnmatch.translate pattern = cs.map Fnmatch.Token.char ++ [.star] := by
    rw [Fnmatch.translate, hpattern, List.length_append]
    exact Fnmatch.translateFrom_literal h 1 ['*']
  rw [fnmatchcase, htokens]
  exact Fnmatch.matchTokens_literal_star cs name.toList

example : fnmatchcase "host:api.example.com" "host:*.example.com" = true := by decide +kernel

end NightScout.Lib
