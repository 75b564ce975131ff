import NightScout.Core.Events

/-!
# The text of a JSON value

`json.dumps` with `ensure_ascii=False` and compact separators. A text is held as its characters. How a string is
written between its quotes is a parameter of the writer, since some exporters rewrite the text afterwards; so are
the digits of a `float`, which the language chooses and reads back.
-/

-- a mutual block takes the hypotheses of its section together
set_option linter.unusedSectionVars false

namespace NightScout

open Lib

/-! ## Strings -/

/-- `ESCAPE_DCT`. -/
def escapeChar (c : Char) : List Char :=
  if c = '"' then ['\\', '"']
  else if c = '\\' then ['\\', '\\']
  else if c = '\n' then ['\\', 'n']
  else if c = '\r' then ['\\', 'r']
  else if c = '\t' then ['\\', 't']
  else if c.toNat = 8 then ['\\', 'b']
  else if c.toNat = 12 then ['\\', 'f']
  else if c.toNat < 32 then
    ['\\', 'u', '0', '0', Nat.digitChar (c.toNat / 16), Nat.digitChar (c.toNat % 16)]
  else [c]

/-- The texts that a character is written as. -/
theorem escapeChar_cases (c : Char) : escapeChar c = [c] ∨
    escapeChar c ∈ [['\\', '"'], ['\\', '\\'], ['\\', 'n'], ['\\', 'r'], ['\\', 't'], ['\\', 'b'], ['\\', 'f']] ∨
    ∃ high < 16, ∃ low < 16, escapeChar c = ['\\', 'u', '0', '0', Nat.digitChar high, Nat.digitChar low] := by
  unfold escapeChar
  split
  · exact .inr (.inl (by decide))
  split
  · exact .inr (.inl (by decide))
  split
  · exact .inr (.inl (by decide))
  split
  · exact .inr (.inl (by decide))
  split
  · exact .inr (.inl (by decide))
  split
  · exact .inr (.inl (by decide))
  split
  · exact .inr (.inl (by decide))
  split
  · exact .inr (.inr ⟨c.toNat / 16, by omega, c.toNat % 16, by omega, rfl⟩)
  · exact .inl rfl

/-- What stands between the quotes. -/
def escaped (s : String) : List Char := s.toList.flatMap escapeChar

def hexValue (c : Char) : Option ℕ :=
  if '0' ≤ c ∧ c ≤ '9' then some (c.toNat - 48)
  else if 'a' ≤ c ∧ c ≤ 'f' then some (c.toNat - 87)
  else if 'A' ≤ c ∧ c ≤ 'F' then some (c.toNat - 55)
  else none

def unescape (c : Char) : Option Char :=
  if c = '"' ∨ c = '\\' ∨ c = '/' then some c
  else if c = 'b' then some (Char.ofNat 8)
  else if c = 'f' then some (Char.ofNat 12)
  else if c = 'n' then some '\n'
  else if c = 'r' then some '\r'
  else if c = 't' then some '\t'
  else none

/-- Where a reader of a string is: between characters, after a backslash, in the digits of a `\\u`, or where the
    second half of a surrogate pair has to start. -/
inductive StringState where
  | plain
  | escape
  | hex (high : Option ℕ) (count n : ℕ)
  | pair (high : ℕ)
  | pairEscape (high : ℕ)

/-- A string up to its closing quote, and what follows. -/
def readString : StringState → List Char → Option (List Char × List Char)
  | _, [] => none
  | .plain, c :: rest =>
    if c = '"' then some ([], rest)
    else if c = '\\' then readString .escape rest
    else if c.toNat < 32 then none
    else (readString .plain rest).map fun p => (c :: p.1, p.2)
  | .escape, c :: rest =>
    if c = 'u' then readString (.hex none 0 0) rest
    else match unescape c with
      | none => none
      | some d => (readString .plain rest).map fun p => (d :: p.1, p.2)
  | .hex high count n, c :: rest =>
    match hexValue c with
    | none => none
    | some d =>
      let n := 16 * n + d
      if count < 3 then readString (.hex high (count + 1) n) rest
      else match high with
        | none =>
          if 0xD800 ≤ n ∧ n < 0xDC00 then readString (.pair n) rest
          else if 0xDC00 ≤ n ∧ n < 0xE000 then none
          else (readString .plain rest).map fun p => (Char.ofNat n :: p.1, p.2)
        | some high =>
          if 0xDC00 ≤ n ∧ n < 0xE000 then
            (readString .plain rest).map fun p =>
              (Char.ofNat (0x10000 + 1024 * (high - 0xD800) + (n - 0xDC00)) :: p.1, p.2)
          else none
  | .pair high, c :: rest => if c = '\\' then readString (.pairEscape high) rest else none
  | .pairEscape high, c :: rest => if c = 'u' then readString (.hex (some high) 0 0) rest else none

theorem hexValue_digitChar : ∀ n < 16, hexValue (Nat.digitChar n) = some n := by decide

/-- What a character is written as is read back as the character. -/
theorem readString_escapeChar (c : Char) (rest : List Char) :
    readString .plain (escapeChar c ++ rest) = (readString .plain rest).map fun p => (c :: p.1, p.2) := by
  unfold escapeChar
  split
  next h =>
    subst h
    rfl
  split
  next h =>
    subst h
    rfl
  split
  next h =>
    subst h
    rfl
  split
  next h =>
    subst h
    rfl
  split
  next h =>
    subst h
    rfl
  split
  next h =>
    rw [← Char.ofNat_toNat c, h]
    rfl
  split
  next h =>
    rw [← Char.ofNat_toNat c, h]
    rfl
  split
  next hlt =>
    -- the reader comes to the last two digits with a zero
    show readString (.hex none 2 0) (Nat.digitChar (c.toNat / 16) :: Nat.digitChar (c.toNat % 16) :: rest) = _
    simp only [readString, hexValue_digitChar (c.toNat / 16) (by omega),
      hexValue_digitChar (c.toNat % 16) (by omega)]
    have hvalue : 16 * (16 * 0 + c.toNat / 16) + c.toNat % 16 = c.toNat := by omega
    rw [hvalue, if_pos (by omega), if_neg (by omega), if_neg (by omega), if_neg (by omega), Char.ofNat_toNat]
  next hquote hslash _ _ _ _ _ hlt =>
    rw [List.singleton_append, readString, if_neg hquote, if_neg hslash, if_neg hlt]

theorem readString_flatMap {write : Char → List Char} (hwrite : ∀ c rest,
      readString .plain (write c ++ rest) = (readString .plain rest).map fun p => (c :: p.1, p.2))
    (cs rest : List Char) : readString .plain (cs.flatMap write ++ '"' :: rest) = some (cs, rest) := by
  induction cs with
  | nil => rfl
  | cons c cs ih => rw [List.flatMap_cons, List.append_assoc, hwrite, ih, Option.map_some]

/-! ## Numbers -/

def isNumberChar (c : Char) : Bool := c.isDigit || c = '-' || c = '+' || c = '.' || c = 'e' || c = 'E'

def intText : ℤ → List Char
  | .ofNat n => Nat.toDigits 10 n
  | .negSucc n => '-' :: Nat.toDigits 10 (n + 1)

/-- Digits, and no `0` before others. -/
def isNatText (cs : List Char) : Bool :=
  cs ≠ [] && (cs.all Char.isDigit && (cs.head? ≠ some '0' || cs.length = 1))

def dropSign : List Char → List Char
  | '-' :: cs => cs
  | cs => cs

/-- The digits after a point, if there are. -/
def dropFraction : List Char → Option (List Char)
  | '.' :: cs => if cs.takeWhile Char.isDigit = [] then none else some (cs.dropWhile Char.isDigit)
  | cs => some cs

def dropExponentSign : List Char → List Char
  | '+' :: cs => cs
  | '-' :: cs => cs
  | cs => cs

def dropExponent : List Char → Option (List Char)
  | [] => some []
  | c :: cs =>
    let digits := dropExponentSign cs
    if (c = 'e' ∨ c = 'E') ∧ digits.takeWhile Char.isDigit ≠ [] then some (digits.dropWhile Char.isDigit)
    else none

/-- A number with a fraction or an exponent. -/
def isRealText (cs : List Char) : Bool :=
  let cs := dropSign cs
  let rest := cs.dropWhile Char.isDigit
  isNatText (cs.takeWhile Char.isDigit) && (rest ≠ [] && (dropFraction rest).bind dropExponent = some [])

def readInt : List Char → ℤ
  | '-' :: cs => -(Nat.ofDigitChars 10 cs 0 : ℤ)
  | cs => (Nat.ofDigitChars 10 cs 0 : ℤ)

/-- How the language writes a finite `float`, and reads it back. -/
structure FloatText where
  repr : ℚ → List Char
  read : List Char → ℚ
  chars : ∀ x, ∀ c ∈ repr x, isNumberChar c = true
  real : ∀ x, isRealText (repr x) = true
  read_repr : ∀ x, read (repr x) = x

def readNumber (F : FloatText) (cs : List Char) : Option JsonValue :=
  if isNatText (dropSign cs) then some (.int (readInt cs))
  else if isRealText cs then some (.float (F.read cs))
  else none

theorem isNumberChar_of_isDigit {c : Char} (h : c.isDigit = true) : isNumberChar c = true := by
  simp [isNumberChar, h]

theorem isNatText_toDigits (n : ℕ) : isNatText (Nat.toDigits 10 n) = true := by
  have hdigits : (Nat.toDigits 10 n).all Char.isDigit = true :=
    List.all_eq_true.mpr fun c hc => Nat.isDigit_of_mem_toDigits (by decide) (by decide) hc
  -- a leading zero would be a digit too many
  have hzero : (Nat.toDigits 10 n).head? = some '0' → (Nat.toDigits 10 n).length = 1 := by
    induction n using Nat.strong_induction_on with
    | _ n ih =>
      by_cases hlt : n < 10
      · rw [Nat.toDigits_of_lt_base hlt]
        exact fun _ => rfl
      · rw [Nat.toDigits_of_base_le (by decide) (by omega)]
        intro hhead
        have hne : Nat.toDigits 10 (n / 10) ≠ [] := Nat.toDigits_ne_nil
        rw [List.head?_append_of_ne_nil _ hne] at hhead
        have hlength := ih (n / 10) (by omega) (List.all_eq_true.mpr fun c hc =>
          Nat.isDigit_of_mem_toDigits (by decide) (by decide) hc) hhead
        -- then the digits before the last are the text of zero
        have hvalue : Nat.ofDigitChars 10 (Nat.toDigits 10 (n / 10)) 0 = n / 10 :=
          Nat.ofDigitChars_ten_toDigits
        obtain ⟨d, hd⟩ := List.length_eq_one_iff.mp hlength
        rw [hd] at hhead hvalue
        cases hhead
        have : n / 10 = 0 := hvalue.symm
        omega
  unfold isNatText
  simp only [hdigits, Nat.toDigits_ne_nil, ne_eq, not_false_eq_true, decide_true, Bool.true_and,
    Bool.or_eq_true, decide_eq_true_eq]
  by_cases hhead : (Nat.toDigits 10 n).head? = some '0'
  · exact .inr (hzero hhead)
  · exact .inl hhead

theorem dropSign_toDigits (n : ℕ) : dropSign (Nat.toDigits 10 n) = Nat.toDigits 10 n := by
  cases hd : Nat.toDigits 10 n with
  | nil => rfl
  | cons c cs =>
    have hdigit : c.isDigit = true :=
      Nat.isDigit_of_mem_toDigits (by decide) (by decide) (hd ▸ List.mem_cons_self)
    unfold dropSign
    split
    next h =>
      obtain ⟨rfl, _⟩ := List.cons.inj h
      cases hdigit
    next => rfl

theorem readInt_toDigits (n : ℕ) : readInt (Nat.toDigits 10 n) = n := by
  cases hd : Nat.toDigits 10 n with
  | nil => exact absurd hd Nat.toDigits_ne_nil
  | cons c cs =>
    have hdigit : c.isDigit = true :=
      Nat.isDigit_of_mem_toDigits (by decide) (by decide) (hd ▸ List.mem_cons_self)
    unfold readInt
    split
    next h =>
      obtain ⟨rfl, _⟩ := List.cons.inj h
      cases hdigit
    next => rw [← hd, Nat.ofDigitChars_ten_toDigits]

theorem readNumber_intText (F : FloatText) (n : ℤ) : readNumber F (intText n) = some (.int n) := by
  cases n with
  | ofNat n =>
    unfold readNumber
    rw [intText, dropSign_toDigits, if_pos (isNatText_toDigits n), readInt_toDigits]
    rfl
  | negSucc n =>
    unfold readNumber
    rw [intText, dropSign, if_pos (isNatText_toDigits (n + 1)), readInt, Nat.ofDigitChars_ten_toDigits]
    rfl

theorem isNumberChar_intText (n : ℤ) : ∀ c ∈ intText n, isNumberChar c = true := by
  intro c hc
  cases n with
  | ofNat n => exact isNumberChar_of_isDigit (Nat.isDigit_of_mem_toDigits (by decide) (by decide) hc)
  | negSucc n =>
    rcases List.mem_cons.mp hc with rfl | hc
    · rfl
    · exact isNumberChar_of_isDigit (Nat.isDigit_of_mem_toDigits (by decide) (by decide) hc)

/-- A text with a fraction or an exponent is not that of a whole number. -/
theorem not_isNatText_of_isRealText {cs : List Char} (h : isRealText cs = true) : isNatText (dropSign cs) = false := by
  unfold isRealText at h
  simp only [Bool.and_eq_true, decide_eq_true_eq] at h
  obtain ⟨_, hrest, _⟩ := h
  by_contra hnat
  rw [Bool.not_eq_false] at hnat
  unfold isNatText at hnat
  simp only [Bool.and_eq_true, List.all_eq_true] at hnat
  exact hrest (List.dropWhile_eq_nil_iff.mpr hnat.2.1)

theorem readNumber_repr (F : FloatText) (x : ℚ) : readNumber F (F.repr x) = some (.float x) := by
  unfold readNumber
  rw [not_isNatText_of_isRealText (F.real x), if_neg (by decide), if_pos (F.real x), F.read_repr]

theorem repr_ne_nil (F : FloatText) (x : ℚ) : F.repr x ≠ [] := by
  intro h
  have hreal := F.real x
  rw [h] at hreal
  cases hreal

/-! ## A text for every rational -/

/-- `1.0` and `0.0` as the language writes them, and a quotient as its terms with an `e` between. -/
def quotientText (x : ℚ) : List Char :=
  if x = 1 then ['1', '.', '0']
  else if x = 0 then ['0', '.', '0']
  else intText x.num ++ 'e' :: Nat.toDigits 10 x.den

def readQuotient (cs : List Char) : ℚ :=
  if cs = ['1', '.', '0'] then 1
  else if cs = ['0', '.', '0'] then 0
  else readInt (cs.takeWhile fun c => c ≠ 'e') / readInt (cs.dropWhile fun c => c ≠ 'e').tail

theorem readInt_intText (n : ℤ) : readInt (intText n) = n := by
  cases n with
  | ofNat n => exact readInt_toDigits n
  | negSucc n =>
    show -(Nat.ofDigitChars 10 (Nat.toDigits 10 (n + 1)) 0 : ℤ) = _
    rw [Nat.ofDigitChars_ten_toDigits]
    rfl

theorem not_exp_mem_intText (n : ℤ) : 'e' ∉ intText n := by
  intro h
  cases n with
  | ofNat n =>
    have := Nat.isDigit_of_mem_toDigits (by decide) (by decide) h
    exact absurd this (by decide)
  | negSucc n =>
    rcases List.mem_cons.mp h with heq | h
    · cases heq
    · have := Nat.isDigit_of_mem_toDigits (by decide) (by decide) h
      exact absurd this (by decide)

theorem toDigits_all_digits (n : ℕ) : ∀ c ∈ Nat.toDigits 10 n, c.isDigit = true := fun _ hc =>
  Nat.isDigit_of_mem_toDigits (by decide) (by decide) hc

theorem dropSign_intText_append (n : ℤ) (cs : List Char) :
    dropSign (intText n ++ cs) = Nat.toDigits 10 n.natAbs ++ cs := by
  cases n with
  | ofNat n =>
    show dropSign (Nat.toDigits 10 n ++ cs) = _
    cases hd : Nat.toDigits 10 n with
    | nil => exact absurd hd Nat.toDigits_ne_nil
    | cons c rest =>
      have hdigit : c.isDigit = true := toDigits_all_digits n c (hd ▸ List.mem_cons_self)
      have hminus : c ≠ '-' := fun h => absurd (h ▸ hdigit) (by decide)
      rw [Int.ofNat_eq_natCast, Int.natAbs_natCast, hd]
      unfold dropSign
      split
      next h => exact absurd (List.cons.inj h).1 hminus
      next => rfl
  | negSucc n => rfl

theorem isRealText_quotient (n : ℤ) (d : ℕ) : isRealText (intText n ++ 'e' :: Nat.toDigits 10 d) = true := by
  have hdigits := toDigits_all_digits n.natAbs
  have htake : (Nat.toDigits 10 n.natAbs ++ 'e' :: Nat.toDigits 10 d).takeWhile Char.isDigit =
      Nat.toDigits 10 n.natAbs := by
    rw [List.takeWhile_append_of_pos hdigits, List.takeWhile_cons_of_neg (by decide), List.append_nil]
  have hdrop : (Nat.toDigits 10 n.natAbs ++ 'e' :: Nat.toDigits 10 d).dropWhile Char.isDigit =
      'e' :: Nat.toDigits 10 d := by
    rw [List.dropWhile_append_of_pos hdigits, List.dropWhile_cons_of_neg (by decide)]
  unfold isRealText
  rw [dropSign_intText_append]
  simp only
  rw [htake, hdrop, isNatText_toDigits]
  have hexp : dropExponent ('e' :: Nat.toDigits 10 d) = some [] := by
    have hall := toDigits_all_digits d
    cases hd : Nat.toDigits 10 d with
    | nil => exact absurd hd Nat.toDigits_ne_nil
    | cons c rest =>
      rw [hd] at hall
      have hdigit := hall c List.mem_cons_self
      have htakeAll : (c :: rest).takeWhile Char.isDigit ≠ [] := by
        rw [List.takeWhile_cons_of_pos hdigit]
        exact List.cons_ne_nil _ _
      have hdropAll : (c :: rest).dropWhile Char.isDigit = [] := List.dropWhile_eq_nil_iff.mpr hall
      have hunsigned : dropExponentSign (c :: rest) = c :: rest := by
        unfold dropExponentSign
        split
        next h => exact absurd ((List.cons.inj h).1 ▸ hdigit) (by decide)
        next h => exact absurd ((List.cons.inj h).1 ▸ hdigit) (by decide)
        next => rfl
      unfold dropExponent
      simp only
      rw [hunsigned, if_pos ⟨.inl trivial, htakeAll⟩, hdropAll]
  have hfraction : dropFraction ('e' :: Nat.toDigits 10 d) = some ('e' :: Nat.toDigits 10 d) := rfl
  rw [hfraction, Option.bind_some, hexp]
  rfl

def FloatText.quotients : FloatText where
  repr := quotientText
  read := readQuotient
  chars := by
    intro x c hc
    unfold quotientText at hc
    split at hc
    · exact List.all_eq_true.mp (show List.all _ isNumberChar = true by decide) c hc
    split at hc
    · exact List.all_eq_true.mp (show List.all _ isNumberChar = true by decide) c hc
    rcases List.mem_append.mp hc with hc | hc
    · exact isNumberChar_intText _ c hc
    rcases List.mem_cons.mp hc with rfl | hc
    · rfl
    · exact isNumberChar_of_isDigit (toDigits_all_digits _ c hc)
  real := by
    intro x
    unfold quotientText
    split
    · decide
    split
    · decide
    · exact isRealText_quotient _ _
  read_repr := by
    intro x
    unfold quotientText
    split
    next h =>
      rw [h]
      decide
    split
    next h =>
      rw [h]
      decide
    -- the terms stand before and after the letter
    have hmem : 'e' ∈ intText x.num ++ 'e' :: Nat.toDigits 10 x.den :=
      List.mem_append_right _ List.mem_cons_self
    have hbefore : ∀ c ∈ intText x.num, decide (c ≠ 'e') = true := fun c hc =>
      decide_eq_true fun h => not_exp_mem_intText x.num (h ▸ hc)
    unfold readQuotient
    rw [if_neg fun h => absurd (h ▸ hmem) (by decide), if_neg fun h => absurd (h ▸ hmem) (by decide),
      List.takeWhile_append_of_pos hbefore, List.dropWhile_append_of_pos hbefore,
      List.takeWhile_cons_of_neg (by decide), List.dropWhile_cons_of_neg (by decide), List.append_nil,
      readInt_intText, List.tail_cons, readInt_toDigits, Int.cast_natCast, Rat.num_div_den]

/-! ## Times and lists of texts -/

/-- `datetime.isoformat`, and how pydantic writes a `datetime`. -/
structure TimeText where
  isoformat : Instant → String
  json : Instant → String
  isoformat_plain : ∀ t, '_' ∉ (isoformat t).toList
  json_plain : ∀ t, '_' ∉ (json t).toList

/-- The texts of the epoch, for whatever time. -/
def TimeText.atEpoch : TimeText where
  isoformat := fun _ => "1970-01-01T00:00:00+00:00"
  json := fun _ => "1970-01-01T00:00:00Z"
  isoformat_plain := fun _ => by decide
  json_plain := fun _ => by decide

def JsonValue.strings (texts : List String) : JsonValue := .array (texts.map .string)

/-! ## Writing values -/

section Writing

variable (F : FloatText) (body : String → List Char)

mutual

/-- `json.dumps`, with strings written by `body` between their quotes. -/
def dumpsWith : JsonValue → List Char
  | .null => ['n', 'u', 'l', 'l']
  | .bool true => ['t', 'r', 'u', 'e']
  | .bool false => ['f', 'a', 'l', 's', 'e']
  | .int n => intText n
  | .float x => F.repr x
  | .nan => ['N', 'a', 'N']
  | .infinity false => ['I', 'n', 'f', 'i', 'n', 'i', 't', 'y']
  | .infinity true => ['-', 'I', 'n', 'f', 'i', 'n', 'i', 't', 'y']
  | .string s => '"' :: (body s ++ ['"'])
  | .array [] => ['[', ']']
  | .array (v :: vs) => '[' :: (dumpsWith v ++ dumpsItems vs)
  | .object [] => ['{', '}']
  | .object ((k, v) :: es) => '{' :: '"' :: (body k ++ '"' :: ':' :: (dumpsWith v ++ dumpsEntries es))

def dumpsItems : List JsonValue → List Char
  | [] => [']']
  | v :: vs => ',' :: (dumpsWith v ++ dumpsItems vs)

def dumpsEntries : List (String × JsonValue) → List Char
  | [] => ['}']
  | (k, v) :: es => ',' :: '"' :: (body k ++ '"' :: ':' :: (dumpsWith v ++ dumpsEntries es))

end

end Writing

/-- `json.dumps` with `ensure_ascii=False` and the separators `,` and `:`. -/
def dumps (F : FloatText) (v : JsonValue) : List Char := dumpsWith F escaped v

namespace JsonValue

mutual

def sortKeys : JsonValue → JsonValue
  | .array items => .array (sortItems items)
  | .object entries => .object ((sortEntries entries).insertionSort fun a b => a.1 ≤ b.1)
  | v => v

def sortItems : List JsonValue → List JsonValue
  | [] => []
  | v :: vs => sortKeys v :: sortItems vs

def sortEntries : List (String × JsonValue) → List (String × JsonValue)
  | [] => []
  | (k, v) :: es => (k, sortKeys v) :: sortEntries es

end

mutual

/-- Every string in it, the keys among them. -/
def texts : JsonValue → List String
  | .string s => [s]
  | .array items => itemTexts items
  | .object entries => entryTexts entries
  | _ => []

def itemTexts : List JsonValue → List String
  | [] => []
  | v :: vs => texts v ++ itemTexts vs

def entryTexts : List (String × JsonValue) → List String
  | [] => []
  | (k, v) :: es => k :: (texts v ++ entryTexts es)

end

mutual

/-- Without `nan` and infinities, which JSON does not have. -/
def finite : JsonValue → Bool
  | .nan => false
  | .infinity _ => false
  | .array items => itemsFinite items
  | .object entries => entriesFinite entries
  | _ => true

def itemsFinite : List JsonValue → Bool
  | [] => true
  | v :: vs => finite v && itemsFinite vs

def entriesFinite : List (String × JsonValue) → Bool
  | [] => true
  | (_, v) :: es => finite v && entriesFinite es

end

mutual

/-- How deep the reader has to go. -/
def size : JsonValue → ℕ
  | .array [] => 1
  | .array (v :: vs) => 1 + (size v + itemsSize vs)
  | .object [] => 1
  | .object ((_, v) :: es) => 1 + (size v + entriesSize es)
  | _ => 1

def itemsSize : List JsonValue → ℕ
  | [] => 1
  | v :: vs => 1 + (size v + itemsSize vs)

def entriesSize : List (String × JsonValue) → ℕ
  | [] => 1
  | (_, v) :: es => 1 + (size v + entriesSize es)

end

end JsonValue

/-! ## Going over a text -/

/-- What a text has outside its strings, and the quotes. -/
def isSyntaxChar (c : Char) : Bool :=
  isNumberChar c || c ∈ "nulltruefalseNaNInfinity[]\x7b\x7d,:\"".toList

section Transform

variable (F : FloatText) {body body' : String → List Char} {t : List Char → List Char}
    (hchar : ∀ c, isSyntaxChar c = true → ∀ cs, t (c :: cs) = c :: t cs)
    (hbody : ∀ s cs, t (body s ++ '"' :: cs) = body' s ++ t ('"' :: cs))

include hchar

theorem transform_append (a : List Char) (ha : a.all isSyntaxChar = true) (cs : List Char) :
    t (a ++ cs) = a ++ t cs := by
  induction a with
  | nil => rfl
  | cons c a ih =>
    rw [List.all_cons, Bool.and_eq_true] at ha
    rw [List.cons_append, hchar c ha.1, ih ha.2]
    rfl

theorem transform_number {a : List Char} (ha : ∀ c ∈ a, isNumberChar c = true) (cs : List Char) :
    t (a ++ cs) = a ++ t cs :=
  transform_append hchar a (List.all_eq_true.mpr fun c hc => by unfold isSyntaxChar; rw [ha c hc]; rfl) cs

include hbody

mutual

/-- What keeps the syntax and changes the strings changes the text of a value in its strings only. -/
theorem transform_dumpsWith : ∀ (v : JsonValue) (cs : List Char),
    t (dumpsWith F body v ++ cs) = dumpsWith F body' v ++ t cs
  | .null, cs => transform_append hchar ['n', 'u', 'l', 'l'] (by decide) cs
  | .bool true, cs => transform_append hchar ['t', 'r', 'u', 'e'] (by decide) cs
  | .bool false, cs => transform_append hchar ['f', 'a', 'l', 's', 'e'] (by decide) cs
  | .int n, cs => transform_number hchar (isNumberChar_intText n) cs
  | .float x, cs => transform_number hchar (F.chars x) cs
  | .nan, cs => transform_append hchar ['N', 'a', 'N'] (by decide) cs
  | .infinity false, cs => transform_append hchar ['I', 'n', 'f', 'i', 'n', 'i', 't', 'y'] (by decide) cs
  | .infinity true, cs => transform_append hchar ['-', 'I', 'n', 'f', 'i', 'n', 'i', 't', 'y'] (by decide) cs
  | .string s, cs => by
    show t ('"' :: (body s ++ ['"'] ++ cs)) = '"' :: (body' s ++ ['"'] ++ t cs)
    rw [hchar _ (by decide), List.append_assoc, List.singleton_append, hbody, hchar _ (by decide),
      List.append_assoc, List.singleton_append]
  | .array [], cs => transform_append hchar ['[', ']'] (by decide) cs
  | .array (v :: vs), cs => by
    show t ('[' :: (dumpsWith F body v ++ dumpsItems F body vs ++ cs)) =
      '[' :: (dumpsWith F body' v ++ dumpsItems F body' vs ++ t cs)
    rw [hchar _ (by decide), List.append_assoc, transform_dumpsWith v, transform_dumpsItems vs,
      List.append_assoc]
  | .object [], cs => transform_append hchar ['{', '}'] (by decide) cs
  | .object ((k, v) :: es), cs => by
    show t ('{' :: '"' :: (body k ++ '"' :: ':' :: (dumpsWith F body v ++ dumpsEntries F body es) ++ cs)) =
      '{' :: '"' :: (body' k ++ '"' :: ':' :: (dumpsWith F body' v ++ dumpsEntries F body' es) ++ t cs)
    simp only [List.append_assoc, List.cons_append]
    rw [hchar _ (by decide), hchar _ (by decide), hbody, hchar _ (by decide), hchar _ (by decide),
      transform_dumpsWith v, transform_dumpsEntries es]

theorem transform_dumpsItems : ∀ (vs : List JsonValue) (cs : List Char),
    t (dumpsItems F body vs ++ cs) = dumpsItems F body' vs ++ t cs
  | [], cs => transform_append hchar [']'] (by decide) cs
  | v :: vs, cs => by
    show t (',' :: (dumpsWith F body v ++ dumpsItems F body vs ++ cs)) =
      ',' :: (dumpsWith F body' v ++ dumpsItems F body' vs ++ t cs)
    rw [hchar _ (by decide), List.append_assoc, transform_dumpsWith v, transform_dumpsItems vs,
      List.append_assoc]

theorem transform_dumpsEntries : ∀ (es : List (String × JsonValue)) (cs : List Char),
    t (dumpsEntries F body es ++ cs) = dumpsEntries F body' es ++ t cs
  | [], cs => transform_append hchar ['}'] (by decide) cs
  | (k, v) :: es, cs => by
    show t (',' :: '"' :: (body k ++ '"' :: ':' :: (dumpsWith F body v ++ dumpsEntries F body es) ++ cs)) =
      ',' :: '"' :: (body' k ++ '"' :: ':' :: (dumpsWith F body' v ++ dumpsEntries F body' es) ++ t cs)
    simp only [List.append_assoc, List.cons_append]
    rw [hchar _ (by decide), hchar _ (by decide), hbody, hchar _ (by decide), hchar _ (by decide),
      transform_dumpsWith v, transform_dumpsEntries es]

end

end Transform

/-! ## Sorted keys -/

namespace JsonValue

theorem itemTexts_eq (vs : List JsonValue) : itemTexts vs = vs.flatMap texts := by
  induction vs with
  | nil => rfl
  | cons v vs ih => rw [itemTexts, ih, List.flatMap_cons]

theorem entryTexts_eq (es : List (String × JsonValue)) :
    entryTexts es = es.flatMap fun e => e.1 :: e.2.texts := by
  induction es with
  | nil => rfl
  | cons e es ih => rw [entryTexts, ih, List.flatMap_cons]; rfl

theorem entriesFinite_eq (es : List (String × JsonValue)) :
    entriesFinite es = es.all fun e => e.2.finite := by
  induction es with
  | nil => rfl
  | cons e es ih => rw [entriesFinite, ih, List.all_cons]

theorem itemsFinite_eq (vs : List JsonValue) : itemsFinite vs = vs.all finite := by
  induction vs with
  | nil => rfl
  | cons v vs ih => rw [itemsFinite, ih, List.all_cons]

mutual

theorem texts_sortKeys : ∀ v : JsonValue, v.sortKeys.texts.Perm v.texts
  | .null | .bool _ | .int _ | .float _ | .nan | .infinity _ | .string _ => .refl _
  | .array vs => texts_sortItems vs
  | .object es => by
    show (entryTexts ((sortEntries es).insertionSort _)).Perm (entryTexts es)
    refine List.Perm.trans ?_ (texts_sortEntries es)
    rw [entryTexts_eq, entryTexts_eq]
    exact (List.perm_insertionSort _ _).flatMap_right _

theorem texts_sortItems : ∀ vs : List JsonValue, (itemTexts (sortItems vs)).Perm (itemTexts vs)
  | [] => .refl _
  | v :: vs => (texts_sortKeys v).append (texts_sortItems vs)

theorem texts_sortEntries : ∀ es : List (String × JsonValue),
    (entryTexts (sortEntries es)).Perm (entryTexts es)
  | [] => .refl _
  | (k, v) :: es => ((texts_sortKeys v).append (texts_sortEntries es)).cons k

end

mutual

theorem finite_sortKeys : ∀ v : JsonValue, v.sortKeys.finite = v.finite
  | .null | .bool _ | .int _ | .float _ | .nan | .infinity _ | .string _ => rfl
  | .array vs => finite_sortItems vs
  | .object es => by
    show entriesFinite ((sortEntries es).insertionSort _) = entriesFinite es
    rw [← finite_sortEntries es, entriesFinite_eq, entriesFinite_eq]
    exact (List.perm_insertionSort _ _).all_eq

theorem finite_sortItems : ∀ vs : List JsonValue, itemsFinite (sortItems vs) = itemsFinite vs
  | [] => rfl
  | v :: vs => by rw [sortItems, itemsFinite, finite_sortKeys v, finite_sortItems vs, itemsFinite]

theorem finite_sortEntries : ∀ es : List (String × JsonValue),
    entriesFinite (sortEntries es) = entriesFinite es
  | [] => rfl
  | (k, v) :: es => by
    rw [sortEntries, entriesFinite, finite_sortKeys v, finite_sortEntries es, entriesFinite]

end

end JsonValue

/-! ## Strings written alike -/

section Congr

variable (F : FloatText) {body body' : String → List Char}

mutual

/-- Only the strings of a value are written by `body`. -/
theorem dumpsWith_congr : ∀ v : JsonValue, (∀ s ∈ v.texts, body s = body' s) →
    dumpsWith F body v = dumpsWith F body' v
  | .null, _ | .bool true, _ | .bool false, _ | .int _, _ | .float _, _ | .nan, _ | .infinity true, _
  | .infinity false, _ => rfl
  | .string s, h => by rw [dumpsWith, h s List.mem_cons_self, dumpsWith]
  | .array [], _ => rfl
  | .array (v :: vs), h => by
    rw [dumpsWith, dumpsWith_congr v fun s hs => h s (List.mem_append_left _ hs),
      dumpsItems_congr vs fun s hs => h s (List.mem_append_right _ hs), dumpsWith]
  | .object [], _ => rfl
  | .object ((k, v) :: es), h => by
    rw [dumpsWith, h k List.mem_cons_self,
      dumpsWith_congr v fun s hs => h s (List.mem_cons_of_mem _ (List.mem_append_left _ hs)),
      dumpsEntries_congr es fun s hs => h s (List.mem_cons_of_mem _ (List.mem_append_right _ hs)), dumpsWith]

theorem dumpsItems_congr : ∀ vs : List JsonValue, (∀ s ∈ JsonValue.itemTexts vs, body s = body' s) →
    dumpsItems F body vs = dumpsItems F body' vs
  | [], _ => rfl
  | v :: vs, h => by
    rw [dumpsItems, dumpsWith_congr v fun s hs => h s (List.mem_append_left _ hs),
      dumpsItems_congr vs fun s hs => h s (List.mem_append_right _ hs), dumpsItems]

theorem dumpsEntries_congr : ∀ es : List (String × JsonValue),
    (∀ s ∈ JsonValue.entryTexts es, body s = body' s) → dumpsEntries F body es = dumpsEntries F body' es
  | [], _ => rfl
  | (k, v) :: es, h => by
    rw [dumpsEntries, h k List.mem_cons_self,
      dumpsWith_congr v fun s hs => h s (List.mem_cons_of_mem _ (List.mem_append_left _ hs)),
      dumpsEntries_congr es fun s hs => h s (List.mem_cons_of_mem _ (List.mem_append_right _ hs)), dumpsEntries]

end

end Congr

/-! ## What the text does not have -/

theorem toNat_of_mem_escapeChar {c d : Char} (hd : d ∈ escapeChar c) : 32 ≤ d.toNat := by
  rcases escapeChar_cases c with heq | hmem | ⟨high, hhigh, low, hlow, heq⟩
  · rw [heq] at hd
    obtain rfl := List.mem_singleton.mp hd
    by_contra hlt
    have hne : escapeChar d ≠ [d] := by
      have hsmall : ∀ n < 32, escapeChar (Char.ofNat n) ≠ [Char.ofNat n] := by decide
      have := hsmall d.toNat (by omega)
      rwa [Char.ofNat_toNat] at this
    exact hne heq
  · have hshort : ∀ text ∈ [['\\', '"'], ['\\', '\\'], ['\\', 'n'], ['\\', 'r'], ['\\', 't'], ['\\', 'b'],
        ['\\', 'f']], text.all (fun d => 32 ≤ d.toNat) = true := by decide
    exact of_decide_eq_true (List.all_eq_true.mp (hshort _ hmem) d hd)
  · have hdigit : ∀ n < 16, 32 ≤ (Nat.digitChar n).toNat := by decide
    rw [heq] at hd
    simp only [List.mem_cons, List.not_mem_nil, or_false] at hd
    rcases hd with rfl | rfl | rfl | rfl | rfl | rfl
    · decide
    · decide
    · decide
    · decide
    · exact hdigit high hhigh
    · exact hdigit low hlow

theorem toNat_of_mem_escaped {s : String} {d : Char} (hd : d ∈ escaped s) : 32 ≤ d.toNat := by
  obtain ⟨c, _, hc⟩ := List.mem_flatMap.mp hd
  exact toNat_of_mem_escapeChar hc

/-- What the syntax does not have and no string is written with is nowhere in the text. -/
theorem not_mem_dumpsWith (F : FloatText) {body : String → List Char} {c : Char} (hgrammar : isSyntaxChar c = false)
    (hbody : ∀ s, c ∉ body s) (v : JsonValue) : c ∉ dumpsWith F body v := by
  have hkeep (a cs : List Char) (ha : c ∉ a) : (a ++ cs).filter (· ≠ c) = a ++ cs.filter (· ≠ c) := by
    have hself : a.filter (· ≠ c) = a := List.filter_eq_self.mpr fun d hd =>
      decide_eq_true fun heq : d = c => ha (heq ▸ hd)
    rw [List.filter_append, hself]
  have hchar (d : Char) (hd : isSyntaxChar d = true) (cs : List Char) :
      (d :: cs).filter (· ≠ c) = d :: cs.filter (· ≠ c) := by
    refine List.filter_cons_of_pos (decide_eq_true ?_)
    rintro rfl
    rw [hgrammar] at hd
    cases hd
  have htext := transform_dumpsWith F (t := fun cs => cs.filter (· ≠ c)) hchar
    (fun s cs => hkeep (body s) ('"' :: cs) (hbody s)) v []
  rw [List.append_nil] at htext
  simp only [List.filter_nil, List.append_nil] at htext
  exact fun h => of_decide_eq_true (List.filter_eq_self.mp htext c h) rfl

/-- A record is one line. -/
theorem newline_not_mem_dumps (F : FloatText) (v : JsonValue) : '\n' ∉ dumps F v :=
  not_mem_dumpsWith F (by decide) (fun _ hs => absurd (toNat_of_mem_escaped hs) (by decide)) v

/-! ## Reading a sorted object -/

namespace JsonValue

theorem sortEntries_eq (es : List (String × JsonValue)) :
    sortEntries es = es.map fun e => (e.1, e.2.sortKeys) := by
  induction es with
  | nil => rfl
  | cons e es ih => rw [sortEntries, ih, List.map_cons]

/-- A field is read whatever the order of the entries. -/
theorem get?_sortKeys {es : List (String × JsonValue)} (hkeys : (es.map Prod.fst).Nodup) {name : String}
    {v : JsonValue} (h : (name, v) ∈ es) :
    (Dict.ofPairs ((sortEntries es).insertionSort fun a b => a.1 ≤ b.1)).get? name = some v.sortKeys := by
  have hperm := List.perm_insertionSort (fun a b : String × JsonValue => a.1 ≤ b.1) (sortEntries es)
  refine Dict.get?_ofPairs ((hperm.map Prod.fst).nodup_iff.mpr ?_) (hperm.mem_iff.mpr ?_)
  · rw [sortEntries_eq, List.map_map]
    exact hkeys
  · rw [sortEntries_eq]
    exact List.mem_map_of_mem (f := fun e => (e.1, e.2.sortKeys)) h

end JsonValue

end NightScout
