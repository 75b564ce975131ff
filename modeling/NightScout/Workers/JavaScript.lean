import NightScout.Lib.IpAddress
import NightScout.Lib.Texts

/-!
# Reading the literals of a script

`extract_javascript_strings` reads a script without parsing it: comments are skipped, and what stands between two
quotes of one kind is a literal. Texts are what is left of the script from the index on, so that an offset is the length
of the script less what is left.
-/

namespace NightScout

open Lib

structure JavaScriptString where
  value : String
  offset : ℕ
  quote : Char
  dynamicTemplate : Bool
deriving DecidableEq, Repr

/-- The characters that open a literal. -/
def quotes : List Char := ['\x27', '"', '\x60']

/-! ## Escapes -/

/-- `simple` of `_translate_static_escape`. -/
def simpleEscapes : List (Char × Char) :=
  [('/', '/'), ('\\', '\\'), ('\x27', '\x27'), ('"', '"'), ('\x60', '\x60'), ('n', '\n'), ('r', '\r'), ('t', '\t'),
    ('b', '\x08'), ('f', '\x0c'), ('v', '\x0b'), ('0', '\x00')]

/-- `int(raw, 16)` for the next `count` characters, when there are so many and all are hexadecimal digits. -/
def hexEscape (count : ℕ) (rest : List Char) : Option ℕ :=
  let raw := rest.take count
  if raw.length = count then (raw.mapM hexDigit).map (ofDigitList 16) else none

/-- `_translate_static_escape`, for the character after the backslash and what follows it. -/
def translateStaticEscape (char : Char) (rest : List Char) : Char × ℕ :=
  match simpleEscapes.lookup char with
  | some translated => (translated, 0)
  | none =>
    if char = 'x' then
      match hexEscape 2 rest with
      | some codepoint => (Char.ofNat codepoint, 2)
      | none => (char, 0)
    else if char = 'u' then
      match hexEscape 4 rest with
      | some codepoint =>
        -- no isolated surrogates
        if 0xD800 ≤ codepoint ∧ codepoint ≤ 0xDFFF then (char, 0) else (Char.ofNat codepoint, 4)
      | none => (char, 0)
    else (char, 0)

/-! ## Literals -/

/-- A character more in a buffer that is not full. -/
def bufferAppend (maxStringLength : ℕ) (buffer : List Char) (c : Char) : List Char :=
  if buffer.length < maxStringLength then buffer ++ [c] else buffer

/-- The inner loop: what the literal holds, whether it is a dynamic template, and what follows it; nothing when it is
    not terminated. -/
def readQuoted (quote : Char) (maxStringLength : ℕ) (buffer : List Char) (dynamicTemplate escaped : Bool) :
    List Char → Option (List Char × Bool × List Char)
  | [] => none
  | current :: rest =>
    if escaped then
      let (translated, extraConsumed) := translateStaticEscape current rest
      readQuoted quote maxStringLength (bufferAppend maxStringLength buffer translated) dynamicTemplate false
        (rest.drop extraConsumed)
    else if current = '\\' then readQuoted quote maxStringLength buffer dynamicTemplate true rest
    else if current = quote then some (buffer, dynamicTemplate, rest)
    else
      readQuoted quote maxStringLength (bufferAppend maxStringLength buffer current)
        (dynamicTemplate || (quote = '\x60' && current = '$' && rest.head? = some '\x7b')) false rest
termination_by text => text.length
decreasing_by all_goals simp only [List.length_cons, List.length_drop]; omega

variable {quote : Char} {maxStringLength : ℕ} {buffer : List Char} {dynamicTemplate escaped : Bool}

theorem readQuoted_shorter {text value rest : List Char} {dynamic : Bool}
    (h : readQuoted quote maxStringLength buffer dynamicTemplate escaped text = some (value, dynamic, rest)) :
    rest.length < text.length := by
  fun_induction readQuoted quote maxStringLength buffer dynamicTemplate escaped text with
  | case1 => cases h
  | case2 buffer dynamicTemplate current rest' translated extraConsumed hescape ih =>
    have hshort := ih h
    rw [List.length_drop] at hshort
    rw [List.length_cons]
    omega
  | case3 buffer dynamicTemplate escaped rest' _ ih => exact (ih h).trans (by simp)
  | case4 buffer dynamicTemplate escaped rest' _ _ =>
    cases h
    simp
  | case5 buffer dynamicTemplate escaped current rest' _ _ _ ih => exact (ih h).trans (by simp)

/-! ## The script -/

/-- The outer loop, for a script of `length` characters. -/
def extractFrom (length maxStrings maxStringLength : ℕ) (result : List JavaScriptString) :
    List Char → List JavaScriptString
  | [] => result
  | char :: rest =>
    if maxStrings ≤ result.length then result
    else if char = '/' ∧ rest.head? = some '/' then
      match _h : after ['\n'] (rest.drop 1) with
      | none => result
      | some text => extractFrom length maxStrings maxStringLength result text
    else if char = '/' ∧ rest.head? = some '*' then
      match _h : after ['*', '/'] (rest.drop 1) with
      | none => result
      | some text => extractFrom length maxStrings maxStringLength result text
    else if char ∉ quotes then extractFrom length maxStrings maxStringLength result rest
    else
      match _h : readQuoted char maxStringLength [] false false rest with
      -- the index is at the end of the script
      | none => result
      | some (buffer, dynamicTemplate, text) =>
        let found : JavaScriptString :=
          { value := String.ofList buffer, offset := length - (char :: rest).length, quote := char, dynamicTemplate }
        extractFrom length maxStrings maxStringLength (result ++ [found]) text
termination_by text => text.length
decreasing_by
  · exact Nat.lt_succ_of_le ((after_length _h).trans (by simp))
  · exact Nat.lt_succ_of_le ((after_length _h).trans (by simp))
  · simp
  · exact (readQuoted_shorter _h).trans (by simp)

def extractJavascriptStrings (content : String) (maxStrings maxStringLength : ℕ) : List JavaScriptString :=
  extractFrom content.toList.length maxStrings maxStringLength [] content.toList

/-!
## Literals are read back

A script is made of literals with separators between them. What stands between two literals is gone past
(`extractFrom_code`), a literal is read as the value that was written (`readQuoted_written`), and so a script gives its
values in order, as many as are asked for (`literals_read_back`).
-/

/-! ## One literal -/

section Literal

variable {quote c : Char} {k : ℕ} {value text rest : List Char} {dynamic : Bool}

/-- A text that writes a value between two quotes: plain characters, the simple escapes, and those by number. -/
inductive WrittenLiteral (quote : Char) : List Char → List Char → Prop
  | nil : WrittenLiteral quote [] []
  | plain {c : Char} {value text : List Char} : c ≠ quote → c ≠ '\\' → WrittenLiteral quote value text →
      WrittenLiteral quote (c :: value) (c :: text)
  | simple {code c : Char} {value text : List Char} : (code, c) ∈ simpleEscapes → WrittenLiteral quote value text →
      WrittenLiteral quote (c :: value) ('\\' :: code :: text)
  | hex {raw value text : List Char} {digits : List ℕ} : raw.length = 2 → raw.mapM hexDigit = some digits →
      WrittenLiteral quote value text →
      WrittenLiteral quote (Char.ofNat (ofDigitList 16 digits) :: value) ('\\' :: 'x' :: (raw ++ text))
  | unicode {raw value text : List Char} {digits : List ℕ} : raw.length = 4 → raw.mapM hexDigit = some digits →
      ¬ (0xD800 ≤ ofDigitList 16 digits ∧ ofDigitList 16 digits ≤ 0xDFFF) → WrittenLiteral quote value text →
      WrittenLiteral quote (Char.ofNat (ofDigitList 16 digits) :: value) ('\\' :: 'u' :: (raw ++ text))

/-- A `${` that is not escaped. -/
def holdsPlaceholder : List Char → Bool
  | [] => false
  | ['\\'] => false
  | '\\' :: _ :: rest => holdsPlaceholder rest
  | c :: rest => (c = '$' && rest.head? = some '\x7b') || holdsPlaceholder rest

@[simp] theorem holdsPlaceholder_escape (c : Char) (rest : List Char) :
    holdsPlaceholder ('\\' :: c :: rest) = holdsPlaceholder rest := rfl

theorem holdsPlaceholder_cons (h : c ≠ '\\') :
    holdsPlaceholder (c :: rest) = ((c = '$' && rest.head? = some '\x7b') || holdsPlaceholder rest) := by
  rw [holdsPlaceholder]
  · rintro rfl
    exact absurd rfl h
  · rintro _ _ rfl
    exact absurd rfl h

theorem holdsPlaceholder_hex {raw : List Char} (h : ∀ c ∈ raw, hexDigit c ≠ none) :
    holdsPlaceholder (raw ++ text) = holdsPlaceholder text := by
  induction raw with
  | nil => rfl
  | cons d raw ih =>
    have hd := h d List.mem_cons_self
    have hslash : d ≠ '\\' := fun he => hd (he ▸ by decide)
    have hdollar : d ≠ '$' := fun he => hd (he ▸ by decide)
    rw [List.cons_append, holdsPlaceholder_cons hslash, ih fun c hc => h c (List.mem_cons_of_mem _ hc)]
    simp [hdollar]

theorem bufferAppend_take (k : ℕ) (value : List Char) (c : Char) :
    bufferAppend k (value.take k) c = (value ++ [c]).take k := by
  unfold bufferAppend
  split
  next h =>
    rw [List.length_take] at h
    have hshort : value.length < k := by omega
    have hroom : (value ++ [c]).length ≤ k := by
      rw [List.length_append, List.length_singleton]
      omega
    rw [List.take_of_length_le hshort.le, List.take_of_length_le hroom]
  next h =>
    rw [List.length_take] at h
    rw [List.take_append_of_le_length (by omega)]

theorem translateStaticEscape_simple {code : Char} (h : (code, c) ∈ simpleEscapes) :
    translateStaticEscape code rest = (c, 0) := by
  have hlookup : ∀ p ∈ simpleEscapes, simpleEscapes.lookup p.1 = some p.2 := by decide
  rw [translateStaticEscape, hlookup _ h]

theorem hexEscape_append {raw : List Char} {digits : List ℕ} (hdigits : raw.mapM hexDigit = some digits)
    (rest : List Char) : hexEscape raw.length (raw ++ rest) = some (ofDigitList 16 digits) := by
  simp [hexEscape, hdigits]

theorem translateStaticEscape_hex {raw : List Char} {digits : List ℕ} (hlength : raw.length = 2)
    (hdigits : raw.mapM hexDigit = some digits) :
    translateStaticEscape 'x' (raw ++ rest) = (Char.ofNat (ofDigitList 16 digits), 2) := by
  have hread := hexEscape_append hdigits rest
  rw [hlength] at hread
  have hlookup : simpleEscapes.lookup 'x' = none := by decide
  rw [translateStaticEscape, hlookup]
  simp only [if_true, hread]

theorem translateStaticEscape_unicode {raw : List Char} {digits : List ℕ} (hlength : raw.length = 4)
    (hdigits : raw.mapM hexDigit = some digits)
    (hsurrogate : ¬ (0xD800 ≤ ofDigitList 16 digits ∧ ofDigitList 16 digits ≤ 0xDFFF)) :
    translateStaticEscape 'u' (raw ++ rest) = (Char.ofNat (ofDigitList 16 digits), 4) := by
  have hread := hexEscape_append hdigits rest
  rw [hlength] at hread
  have hlookup : simpleEscapes.lookup 'u' = none := by decide
  have hx : 'u' ≠ 'x' := by decide
  rw [translateStaticEscape, hlookup]
  simp only [if_neg hx, if_true, hread, if_neg hsurrogate]

theorem readQuoted_escape {buffer : List Char} {extra : ℕ} {code : Char}
    (h : translateStaticEscape code rest = (c, extra)) :
    readQuoted quote k buffer dynamic false ('\\' :: code :: rest) =
      readQuoted quote k (bufferAppend k buffer c) dynamic false (rest.drop extra) := by
  rw [readQuoted, if_neg Bool.false_ne_true, if_pos rfl, readQuoted, if_pos rfl, h]

/-- **A literal is read as the value it writes**, cut to the length that is kept. -/
theorem readQuoted_written (hquote : quote ∈ quotes) (h : WrittenLiteral quote value text) (before : List Char)
    (dynamic : Bool) (rest : List Char) : readQuoted quote k (before.take k) dynamic false (text ++ quote :: rest) =
      some ((before ++ value).take k, dynamic || (quote = '\x60' && holdsPlaceholder text), rest) := by
  induction h generalizing before dynamic with
  | nil =>
    have hslash : quote ≠ '\\' := fun he => absurd hquote (he ▸ by decide)
    rw [List.nil_append, readQuoted, if_neg Bool.false_ne_true, if_neg hslash, if_pos rfl]
    simp [holdsPlaceholder]
  | @plain c value text hne hslash _ ih =>
    have hbrace : quote ≠ '\x7b' := fun he => absurd hquote (he ▸ by decide)
    have hhead : ((text ++ quote :: rest).head? = some '\x7b') ↔ text.head? = some '\x7b' := by
      cases text <;> simp [hbrace]
    rw [List.cons_append, readQuoted, if_neg Bool.false_ne_true, if_neg hslash, if_neg hne, bufferAppend_take, ih,
      holdsPlaceholder_cons hslash, List.append_assoc, List.singleton_append]
    simp only [hhead, Bool.or_assoc, Bool.and_or_distrib_left, Bool.and_assoc]
  | @simple code c value text hsimple _ ih =>
    rw [List.cons_append, List.cons_append, readQuoted_escape (translateStaticEscape_simple hsimple), bufferAppend_take,
      List.drop_zero, ih, List.append_assoc, List.singleton_append, holdsPlaceholder_escape]
  | @hex raw value text digits hlength hdigits _ ih =>
    have hdrop : (raw ++ (text ++ quote :: rest)).drop 2 = text ++ quote :: rest := List.drop_left' hlength
    rw [List.cons_append, List.cons_append, List.append_assoc,
      readQuoted_escape (translateStaticEscape_hex hlength hdigits), bufferAppend_take, hdrop, ih, List.append_assoc,
      List.singleton_append, holdsPlaceholder_escape, holdsPlaceholder_hex fun c => ne_none_of_mapM hdigits]
  | @unicode raw value text digits hlength hdigits hsurrogate _ ih =>
    have hdrop : (raw ++ (text ++ quote :: rest)).drop 4 = text ++ quote :: rest := List.drop_left' hlength
    rw [List.cons_append, List.cons_append, List.append_assoc,
      readQuoted_escape (translateStaticEscape_unicode hlength hdigits hsurrogate), bufferAppend_take, hdrop, ih,
      List.append_assoc, List.singleton_append, holdsPlaceholder_escape, holdsPlaceholder_hex fun c => ne_none_of_mapM hdigits]

end Literal

/-! ## Between literals -/

section Code

variable {closed : Char → List Char → Prop} {c : Char} {body text rest : List Char} {length m k : ℕ}
  {result : List JavaScriptString}

/-- A text that starts a comment. -/
def OpensComment (text : List Char) : Prop := ['/', '/'] <+: text ∨ ['/', '*'] <+: text

/-- A text made of whole comments, whole literals, of those that are `closed`, and other characters. -/
inductive Code (closed : Char → List Char → Prop) : List Char → Prop
  | nil : Code closed []
  | plain {c : Char} {rest : List Char} : c ∉ quotes → ¬ OpensComment (c :: rest) → Code closed rest →
      Code closed (c :: rest)
  | lineComment {body rest : List Char} : '\n' ∉ body → Code closed rest →
      Code closed ('/' :: '/' :: (body ++ '\n' :: rest))
  | blockComment {body rest : List Char} : ¬ ['*', '/'] <:+: body → Code closed rest →
      Code closed ('/' :: '*' :: (body ++ '*' :: '/' :: rest))
  | literal {quote : Char} {text rest : List Char} : quote ∈ quotes → closed quote text → Code closed rest →
      Code closed (quote :: (text ++ rest))

theorem extractFrom_full (h : m ≤ result.length) : extractFrom length m k result text = result := by
  cases text with
  | nil => rw [extractFrom]
  | cons c rest => rw [extractFrom, if_pos h]

theorem extractFrom_plain (hquote : c ∉ quotes) (hopen : ¬ OpensComment (c :: rest)) :
    extractFrom length m k result (c :: rest) = extractFrom length m k result rest := by
  have hopens : ∀ d, c = '/' ∧ rest.head? = some d → ['/', d] <+: c :: rest := by
    rintro d ⟨rfl, h⟩
    obtain ⟨tail, rfl⟩ := List.head?_eq_some_iff.mp h
    exact ⟨tail, rfl⟩
  have hline : ¬ (c = '/' ∧ rest.head? = some '/') := fun h => hopen (.inl (hopens _ h))
  have hblock : ¬ (c = '/' ∧ rest.head? = some '*') := fun h => hopen (.inr (hopens _ h))
  by_cases hfull : m ≤ result.length
  · rw [extractFrom_full hfull, extractFrom_full hfull]
  · rw [extractFrom, if_neg hfull, if_neg hline, if_neg hblock, if_pos hquote]

theorem after_newline (h : '\n' ∉ body) : after ['\n'] (body ++ '\n' :: rest) = some rest :=
  (after_append_of_notMem h _).trans (after_self rest)

theorem after_blockEnd (h : ¬ ['*', '/'] <:+: body) : after ['*', '/'] (body ++ '*' :: '/' :: rest) = some rest :=
  (after_append_cons (by decide) h _).trans (after_self rest)

theorem extractFrom_lineComment (h : '\n' ∉ body) :
    extractFrom length m k result ('/' :: '/' :: (body ++ '\n' :: rest)) = extractFrom length m k result rest := by
  by_cases hfull : m ≤ result.length
  · rw [extractFrom_full hfull, extractFrom_full hfull]
  · rw [extractFrom, if_neg hfull, if_pos ⟨rfl, rfl⟩]
    split
    next hafter => cases hafter.symm.trans (after_newline h)
    next hafter => cases hafter.symm.trans (after_newline h); rfl

theorem extractFrom_blockComment (h : ¬ ['*', '/'] <:+: body) :
    extractFrom length m k result ('/' :: '*' :: (body ++ '*' :: '/' :: rest)) = extractFrom length m k result rest := by
  have hline : ¬ ('/' = '/' ∧ ('*' :: (body ++ '*' :: '/' :: rest)).head? = some '/') := by simp
  by_cases hfull : m ≤ result.length
  · rw [extractFrom_full hfull, extractFrom_full hfull]
  · rw [extractFrom, if_neg hfull, if_neg hline, if_pos ⟨rfl, rfl⟩]
    split
    next hafter => cases hafter.symm.trans (after_blockEnd h)
    next hafter => cases hafter.symm.trans (after_blockEnd h); rfl

/-- What a literal that is read adds. -/
theorem extractFrom_literal {quote : Char} {buffer : List Char} {dynamic : Bool} (hquote : quote ∈ quotes)
    (hroom : result.length < m) (hread : readQuoted quote k [] false false text = some (buffer, dynamic, rest)) :
    extractFrom length m k result (quote :: text) = extractFrom length m k
      (result ++ [⟨String.ofList buffer, length - (quote :: text).length, quote, dynamic⟩]) rest := by
  have hslash : quote ≠ '/' := fun he => absurd hquote (he ▸ by decide)
  rw [extractFrom, if_neg (by omega), if_neg (fun h => hslash h.1), if_neg (fun h => hslash h.1), if_neg (not_not.mpr hquote)]
  split
  next hnone => cases hnone.symm.trans hread
  next hsome => cases hsome.symm.trans hread; rfl

theorem extractFrom_unread {quote : Char} (hquote : quote ∈ quotes)
    (hread : readQuoted quote k [] false false text = none) :
    extractFrom length m k result (quote :: text) = result := by
  have hslash : quote ≠ '/' := fun he => absurd hquote (he ▸ by decide)
  by_cases hfull : m ≤ result.length
  · exact extractFrom_full hfull
  · rw [extractFrom, if_neg hfull, if_neg (fun h => hslash h.1), if_neg (fun h => hslash h.1), if_neg (not_not.mpr hquote)]
    split
    · rfl
    next hsome => cases hsome.symm.trans hread

/-- A comment opens before what follows where it opens in the text with what follows, unless that goes on with one of
    its characters. -/
theorem opensComment_append (hnext : ∀ d, rest.head? = some d → d ≠ '/' ∧ d ≠ '*')
    (h : OpensComment (c :: (text ++ rest))) : OpensComment (c :: text) := by
  cases text with
  | nil =>
    cases rest with
    | nil => exact h
    | cons d rest =>
      obtain ⟨hline, hblock⟩ := hnext d rfl
      simp [OpensComment, List.cons_prefix_cons, hline.symm, hblock.symm] at h
  | cons d text => simpa [OpensComment, List.cons_prefix_cons] using h

/-- Comments and plain characters are gone past. -/
theorem extractFrom_code (h : Code (fun _ _ => False) text) (hnext : ∀ d, rest.head? = some d → d ≠ '/' ∧ d ≠ '*') :
    extractFrom length m k result (text ++ rest) = extractFrom length m k result rest := by
  induction h with
  | nil => rfl
  | plain hquote hopen _ ih =>
    exact (extractFrom_plain hquote fun h => hopen (opensComment_append hnext h)).trans ih
  | @lineComment body more hbody _ ih =>
    rw [List.cons_append, List.cons_append, List.append_assoc, List.cons_append, extractFrom_lineComment hbody, ih]
  | @blockComment body more hbody _ ih =>
    rw [List.cons_append, List.cons_append, List.append_assoc, List.cons_append, List.cons_append,
      extractFrom_blockComment hbody, ih]
  | literal _ hclosed _ _ => exact hclosed.elim

end Code

/-! ## Scripts -/

section Script

variable {length m k : ℕ} {result : List JavaScriptString}

/-- What may stand between two literals: a text without quotes and comment openers, or a whole comment. -/
inductive IsSeparator : List Char → Prop
  | text {cs : List Char} : (∀ c ∈ cs, c ∉ quotes) → ¬ ['/', '/'] <:+: cs → ¬ ['/', '*'] <:+: cs → IsSeparator cs
  | lineComment {body : List Char} : '\n' ∉ body → IsSeparator ('/' :: '/' :: (body ++ ['\n']))
  | blockComment {body : List Char} : ¬ ['*', '/'] <:+: body → IsSeparator ('/' :: '*' :: (body ++ ['*', '/']))

abbrev Separator := { text : List Char // IsSeparator text }

/-- A value as it is written in a script. -/
structure JsLiteral where
  quote : Char
  value : String
  text : List Char
  quote_mem : quote ∈ quotes
  written : WrittenLiteral quote value.toList text

/-- The literals, each after its separator. -/
def writtenScript : List (Separator × JsLiteral) → List Char
  | [] => []
  | (separator, literal) :: rest => separator.1 ++ literal.quote :: (literal.text ++ literal.quote :: writtenScript rest)

/-- What the literals of a script are read as, from an offset on. -/
def readings (maxStringLength : ℕ) : ℕ → List (Separator × JsLiteral) → List JavaScriptString
  | _, [] => []
  | offset, (separator, literal) :: rest =>
    let start := offset + separator.1.length
    { value := String.ofList (literal.value.toList.take maxStringLength)
      offset := start
      quote := literal.quote
      dynamicTemplate := literal.quote = '\x60' && holdsPlaceholder literal.text } ::
      readings maxStringLength (start + literal.text.length + 2) rest

theorem IsSeparator.code {text : List Char} (h : IsSeparator text) : Code (fun _ _ => False) text := by
  cases h with
  | text hquotes hline hblock =>
    induction text with
    | nil => exact .nil
    | cons c text ih =>
      rw [List.infix_cons_iff, not_or] at hline hblock
      have hopen : ¬ OpensComment (c :: text) := not_or.mpr ⟨hline.1, hblock.1⟩
      exact .plain (hquotes c List.mem_cons_self) hopen
        (ih (fun d hd => hquotes d (List.mem_cons_of_mem _ hd)) hline.2 hblock.2)
  | lineComment hbody => exact .lineComment hbody .nil
  | blockComment hbody => exact .blockComment hbody .nil

theorem quote_opens_no_comment {quote : Char} (h : quote ∈ quotes) (rest : List Char) :
    ∀ d, (quote :: rest).head? = some d → d ≠ '/' ∧ d ≠ '*' := by
  have hall : ∀ d ∈ quotes, d ≠ '/' ∧ d ≠ '*' := by decide
  rintro d hd
  cases hd
  exact hall _ h

theorem extractFrom_script (items : List (Separator × JsLiteral)) (last : Separator) (offset : ℕ)
    (hoffset : length = offset + (writtenScript items ++ last.1).length) (hroom : result.length ≤ m) :
    extractFrom length m k result (writtenScript items ++ last.1) = (result ++ readings k offset items).take m := by
  induction items generalizing offset result with
  | nil =>
    have hgap : extractFrom length m k result (last.1 ++ []) = extractFrom length m k result [] :=
      extractFrom_code last.2.code fun d hd => nomatch hd
    rw [List.append_nil] at hgap
    rw [writtenScript, List.nil_append, hgap, readings, List.append_nil, List.take_of_length_le hroom, extractFrom]
  | cons item items ih =>
    obtain ⟨separator, literal⟩ := item
    have htext : writtenScript ((separator, literal) :: items) ++ last.1 =
        separator.1 ++ literal.quote :: (literal.text ++ literal.quote :: (writtenScript items ++ last.1)) := by
      simp [writtenScript]
    rw [htext] at hoffset ⊢
    rw [extractFrom_code separator.2.code (quote_opens_no_comment literal.quote_mem _)]
    by_cases hfull : m ≤ result.length
    · rw [extractFrom_full hfull, List.take_append_of_le_length hfull, List.take_of_length_le hroom]
    · have hread := readQuoted_written (k := k) literal.quote_mem literal.written [] false
        (writtenScript items ++ last.1)
      rw [List.take_nil, List.nil_append] at hread
      rw [extractFrom_literal literal.quote_mem (by omega) hread]
      -- the script goes on after the closing quote
      simp only [List.length_append, List.length_cons] at hoffset
      have hstart : length - (literal.quote :: (literal.text ++ literal.quote :: (writtenScript items ++ last.1))).length =
          offset + separator.1.length := by
        simp only [List.length_append, List.length_cons]
        omega
      have hroom' : (result ++ [(⟨String.ofList (literal.value.toList.take k), offset + separator.1.length, literal.quote,
          literal.quote = '\x60' && holdsPlaceholder literal.text⟩ : JavaScriptString)]).length ≤ m := by
        rw [List.length_append, List.length_singleton]
        omega
      have hrest := ih (offset + separator.1.length + literal.text.length + 2)
        (by rw [List.length_append]; omega) hroom'
      rw [hstart, Bool.false_or, hrest, List.append_assoc, List.singleton_append]
      rfl

theorem extractFrom_length {text : List Char} (hroom : result.length ≤ m) :
    (extractFrom length m k result text).length ≤ m := by
  fun_induction extractFrom length m k result text with
  | case1 => exact hroom
  | case2 => exact hroom
  | case3 => exact hroom
  | case4 result rest _ _ text _ _ ih => exact ih hroom
  | case5 => exact hroom
  | case6 result rest _ _ _ text _ _ ih => exact ih hroom
  | case7 result char rest _ _ _ _ ih => exact ih hroom
  | case8 => exact hroom
  | case9 result char rest hfull _ _ _ buffer dynamic text _ found ih =>
    refine ih ?_
    rw [List.length_append, List.length_singleton]
    omega

/-- **Literals are read back exactly**: a script gives the values that are written in it, in order and as many as are
asked for, and no script gives more than that. -/
theorem literals_read_back :
    (∀ (items : List (Separator × JsLiteral)) (last : Separator) (maxStrings maxStringLength : ℕ),
      extractJavascriptStrings (String.ofList (writtenScript items ++ last.1)) maxStrings maxStringLength =
        (readings maxStringLength 0 items).take maxStrings) ∧ ∀ (content : String) (maxStrings maxStringLength : ℕ),
      (extractJavascriptStrings content maxStrings maxStringLength).length ≤ maxStrings := by
  constructor
  · intro items last maxStrings maxStringLength
    rw [extractJavascriptStrings, String.toList_ofList]
    exact extractFrom_script items last 0 (Nat.zero_add _).symm (Nat.zero_le _)
  · intro content maxStrings maxStringLength
    exact extractFrom_length (Nat.zero_le _)

end Script

end NightScout
