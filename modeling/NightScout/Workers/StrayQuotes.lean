import NightScout.Workers.JavaScript

/-!
# A stray quote

A literal between single or double quotes cannot hold a line break, so a quote that no other closes before the end of
its line is not one of a literal. The lexer reads on to the next quote of its kind, over any number of lines, and the
literals on these are lost: a literal is found exactly where what stands before it splits into whole comments, literals
that may hold line breaks, and other characters (`kept_iff_code`).
-/

namespace NightScout

open Lib

/-! ## Where a literal ends -/

section Ends

variable {quote c : Char} {k : ℕ} {stops body text rest value raw : List Char} {dynamic : Bool}

/-- None of the characters stands in the text but after a backslash. -/
inductive Free (stops : List Char) : List Char → Prop
  | nil : Free stops []
  | plain {c : Char} {text : List Char} : c ∉ stops → c ≠ '\\' → Free stops text → Free stops (c :: text)
  | escaped {text : List Char} (c : Char) : Free stops text → Free stops ('\\' :: c :: text)

theorem Free.cons_hex (hquote : hexDigit quote = none) (hraw : ∀ c ∈ raw, hexDigit c ≠ none) :
    Free [quote] (raw ++ text) ↔ Free [quote] text := by
  induction raw with
  | nil => exact Iff.rfl
  | cons c raw ih =>
    have hc := hraw c List.mem_cons_self
    have hslash : c ≠ '\\' := fun he => hc (he ▸ by decide)
    have hne : c ∉ [quote] := fun hmem => hc (List.mem_singleton.mp hmem ▸ hquote)
    rw [← ih fun d hd => hraw d (List.mem_cons_of_mem _ hd), List.cons_append]
    generalize raw ++ text = more
    constructor
    · intro h
      cases h with
      | plain _ _ h => exact h
      | escaped _ _ => exact absurd rfl hslash
    · exact .plain hne hslash

theorem hexDigit_quote (h : quote ∈ quotes) : hexDigit quote = none := by
  have hall : ∀ q ∈ quotes, hexDigit q = none := by decide
  exact hall quote h

theorem hexEscape_hex {count n : ℕ} (h : hexEscape count text = some n) :
    (text.take count).length = count ∧ ∀ c ∈ text.take count, hexDigit c ≠ none := by
  unfold hexEscape at h
  simp only at h
  split at h
  next hlength =>
    obtain ⟨digits, hdigits, -⟩ := Option.map_eq_some_iff.mp h
    exact ⟨hlength, fun c => ne_none_of_mapM hdigits⟩
  next => cases h

/-- An escape takes hexadecimal digits only. -/
theorem translateStaticEscape_takes (c : Char) (text : List Char) : ∃ raw rest, text = raw ++ rest ∧
    (translateStaticEscape c text).2 = raw.length ∧ ∀ d ∈ raw, hexDigit d ≠ none := by
  have hnone : ∃ raw rest, text = raw ++ rest ∧ 0 = raw.length ∧ ∀ d ∈ raw, hexDigit d ≠ none :=
    ⟨[], text, rfl, rfl, fun _ hd => absurd hd List.not_mem_nil⟩
  unfold translateStaticEscape
  split
  · exact hnone
  split
  · split
    next hread =>
      obtain ⟨hlength, hhex⟩ := hexEscape_hex hread
      exact ⟨_, _, (List.take_append_drop 2 text).symm, hlength.symm, hhex⟩
    · exact hnone
  split
  · split
    next hread =>
      obtain ⟨hlength, hhex⟩ := hexEscape_hex hread
      split
      · exact hnone
      · exact ⟨_, _, (List.take_append_drop 4 text).symm, hlength.symm, hhex⟩
    · exact hnone
  · exact hnone

/-- Nothing is read past a closing quote. -/
theorem hexEscape_quote {count : ℕ} (hquote : hexDigit quote = none) :
    hexEscape count (text ++ quote :: rest) = hexEscape count text := by
  by_cases hcount : count ≤ text.length
  · rw [hexEscape, hexEscape, List.take_append_of_le_length hcount]
  · have hlong : hexEscape count (text ++ quote :: rest) = none := by
      cases hread : hexEscape count (text ++ quote :: rest) with
      | none => rfl
      | some n =>
        refine absurd hquote ((hexEscape_hex hread).2 quote ?_)
        obtain ⟨more, hmore⟩ : ∃ more, count = text.length + (more + 1) := ⟨count - text.length - 1, by omega⟩
        rw [hmore, List.take_length_add_append, List.take_succ_cons]
        exact List.mem_append_right _ List.mem_cons_self
    have hshort : (text.take count).length ≠ count := by
      rw [List.length_take]
      omega
    rw [hlong, hexEscape]
    simp only [if_neg hshort]

theorem translateStaticEscape_quote (hquote : hexDigit quote = none) :
    translateStaticEscape c (text ++ quote :: rest) = translateStaticEscape c text := by
  unfold translateStaticEscape
  rw [hexEscape_quote hquote, hexEscape_quote hquote]

/-- A literal ends at the first quote that is not escaped, whatever follows it. -/
theorem readQuoted_free (hquote : quote ∈ quotes) (body : List Char) (h : Free [quote] body) (buffer : List Char)
    (dynamic : Bool) : ∃ value dynamic', ∀ rest,
      readQuoted quote k buffer dynamic false (body ++ quote :: rest) = some (value, dynamic', rest) := by
  have hhex := hexDigit_quote hquote
  have hslash : quote ≠ '\\' := fun he => absurd hquote (he ▸ by decide)
  induction hn : body.length using Nat.strong_induction_on generalizing body buffer dynamic with
  | _ n ih =>
    cases h with
    | nil =>
      refine ⟨buffer, dynamic, fun rest => ?_⟩
      rw [List.nil_append, readQuoted, if_neg Bool.false_ne_true, if_neg hslash, if_pos rfl]
    | @plain c text hstop hne htext =>
      have hbrace : quote ≠ '\x7b' := fun he => absurd hquote (he ▸ by decide)
      have hhead : ∀ rest, ((text ++ quote :: rest).head? = some '\x7b') ↔ text.head? = some '\x7b' := by
        intro rest
        cases text <;> simp [hbrace]
      obtain ⟨value, dynamic', hread⟩ := ih text.length (by rw [← hn]; simp) text htext (bufferAppend k buffer c)
        (dynamic || (quote = '\x60' && c = '$' && text.head? = some '\x7b')) rfl
      refine ⟨value, dynamic', fun rest => ?_⟩
      rw [List.cons_append, readQuoted, if_neg Bool.false_ne_true, if_neg hne, if_neg fun he => hstop (by simp [he])]
      simp only [hhead]
      exact hread rest
    | @escaped text c htext =>
      obtain ⟨raw, more, rfl, hextra, hraw⟩ := translateStaticEscape_takes c text
      have hmore : Free [quote] more := (Free.cons_hex hhex hraw).mp htext
      rw [List.length_cons, List.length_cons, List.length_append] at hn
      obtain ⟨value, dynamic', hread⟩ := ih more.length (by omega) more hmore
        (bufferAppend k buffer (translateStaticEscape c (raw ++ more)).1) dynamic rfl
      refine ⟨value, dynamic', fun rest => ?_⟩
      have htranslate : translateStaticEscape c (raw ++ more ++ quote :: rest) =
          ((translateStaticEscape c (raw ++ more)).1, raw.length) := by
        rw [translateStaticEscape_quote hhex, ← hextra]
      rw [List.cons_append, List.cons_append, readQuoted_escape htranslate, List.append_assoc, List.drop_left, hread]

/-- A literal that is read ended at the first quote that is not escaped. -/
theorem free_of_readQuoted (hquote : hexDigit quote = none) {buffer : List Char} {escaped dynamic' : Bool}
    (h : readQuoted quote k buffer dynamic escaped text = some (value, dynamic', rest)) :
    ∃ body, text = body ++ quote :: rest ∧ Free [quote] (if escaped then '\\' :: body else body) := by
  fun_induction readQuoted quote k buffer dynamic escaped text with
  | case1 => cases h
  | case2 buffer dynamic current more translated extra htranslate ih =>
    obtain ⟨body, hbody, hfree⟩ := ih h
    obtain ⟨raw, tail, rfl, hextra, hraw⟩ := translateStaticEscape_takes current more
    rw [htranslate] at hextra
    rw [show extra = raw.length from hextra, List.drop_left] at hbody
    refine ⟨current :: (raw ++ body), by rw [hbody]; simp, ?_⟩
    exact .escaped current ((Free.cons_hex hquote hraw).mpr hfree)
  | case3 buffer dynamic escaped more hescaped ih =>
    obtain ⟨body, rfl, hfree⟩ := ih h
    refine ⟨'\\' :: body, rfl, ?_⟩
    rw [if_neg hescaped]
    exact hfree
  | case4 buffer dynamic escaped more hescaped hslash =>
    cases h
    refine ⟨[], rfl, ?_⟩
    rw [if_neg hescaped]
    exact .nil
  | case5 buffer dynamic escaped current more hescaped hslash hne ih =>
    obtain ⟨body, rfl, hfree⟩ := ih h
    refine ⟨current :: body, rfl, ?_⟩
    rw [if_neg hescaped]
    exact .plain (by simpa using hne) hslash hfree

end Ends

/-! ## What is reached -/

section Reached

variable {quote : Char} {length m k : ℕ} {before body text rest : List Char} {result : List JavaScriptString}
  {s : JavaScriptString}

/-- A literal that is closed, on its line or on a later one. -/
def Closed (quote : Char) (text : List Char) : Prop := ∃ body, Free [quote] body ∧ text = body ++ [quote]

/-- What is found in a text is added at the end, is no more than there are characters, and stands where they do. -/
def Adds (length : ℕ) (result : List JavaScriptString) (text : List Char) (final : List JavaScriptString) : Prop :=
  ∃ more, final = result ++ more ∧ more.length ≤ text.length ∧ ∀ s ∈ more, length - text.length ≤ s.offset

theorem Adds.refl : Adds length result text result :=
  ⟨[], (List.append_nil _).symm, Nat.zero_le _, fun _ hs => absurd hs List.not_mem_nil⟩

theorem Adds.later {final : List JavaScriptString} (h : Adds length result rest final) (hlength : rest.length ≤ text.length) :
    Adds length result text final := by
  obtain ⟨more, rfl, hcount, hoffset⟩ := h
  exact ⟨more, rfl, hcount.trans hlength, fun s hs => (Nat.sub_le_sub_left hlength length).trans (hoffset s hs)⟩

theorem Adds.found {final : List JavaScriptString} (h : Adds length (result ++ [s]) rest final)
    (hlength : rest.length < text.length) (hs : length - text.length ≤ s.offset) : Adds length result text final := by
  obtain ⟨more, rfl, hcount, hoffset⟩ := h
  refine ⟨s :: more, by simp, ?_, fun t ht => ?_⟩
  · rw [List.length_cons]
    omega
  · rcases List.mem_cons.mp ht with rfl | ht
    · exact hs
    · exact (Nat.sub_le_sub_left hlength.le length).trans (hoffset t ht)

theorem extractFrom_adds (length m k : ℕ) (result : List JavaScriptString) (text : List Char) :
    Adds length result text (extractFrom length m k result text) := by
  fun_induction extractFrom length m k result text with
  | case1 => exact .refl
  | case2 => exact .refl
  | case3 => exact .refl
  | case4 result rest _ _ _ text hafter ih =>
    refine ih.later ((after_length hafter).trans ?_)
    rw [List.length_drop, List.length_cons]
    omega
  | case5 => exact .refl
  | case6 result rest _ _ _ _ text hafter ih =>
    refine ih.later ((after_length hafter).trans ?_)
    rw [List.length_drop, List.length_cons]
    omega
  | case7 result char rest _ _ _ _ ih => exact ih.later (Nat.le_succ _)
  | case8 => exact .refl
  | case9 result char rest _ _ _ _ buffer dynamic text hread found ih =>
    exact ih.found ((readQuoted_shorter hread).trans (Nat.lt_succ_self _)) le_rfl

/-- After whole comments, closed literals and other characters the next quote opens a literal. -/
theorem reached (hbefore : Code Closed before) (hquote : quote ∈ quotes)
    (hroom : (extractFrom length m k result (before ++ quote :: rest)).length < m) :
    ∃ found : List JavaScriptString, extractFrom length m k result (before ++ quote :: rest) =
      extractFrom length m k found (quote :: rest) := by
  induction hbefore generalizing result with
  | nil => exact ⟨result, rfl⟩
  | plain hplain hopen _ ih =>
    have hopen' := fun h => hopen (opensComment_append (quote_opens_no_comment hquote rest) h)
    rw [List.cons_append, extractFrom_plain hplain hopen'] at hroom ⊢
    exact ih hroom
  | lineComment hbody _ ih =>
    rw [List.cons_append, List.cons_append, List.append_assoc, List.cons_append, extractFrom_lineComment hbody] at hroom ⊢
    exact ih hroom
  | blockComment hbody _ ih =>
    rw [List.cons_append, List.cons_append, List.append_assoc, List.cons_append, List.cons_append,
      extractFrom_blockComment hbody] at hroom ⊢
    exact ih hroom
  | @literal opening text more hopening hclosed _ ih =>
    obtain ⟨body, hfree, rfl⟩ := hclosed
    obtain ⟨value, dynamic, hread⟩ := readQuoted_free (k := k) hopening body hfree [] false
    have hfull : result.length < m := by
      by_contra hfull
      rw [extractFrom_full (not_lt.mp hfull)] at hroom
      exact hfull hroom
    rw [List.cons_append, List.append_assoc, List.append_assoc, List.singleton_append,
      extractFrom_literal hopening hfull (hread _)] at hroom ⊢
    exact ih hroom

theorem extractFrom_line : extractFrom length m k result ('/' :: '/' :: text) = result ∨
    ∃ t, after ['\n'] text = some t ∧ extractFrom length m k result ('/' :: '/' :: text) = extractFrom length m k result t := by
  by_cases hfull : m ≤ result.length
  · exact .inl (extractFrom_full hfull)
  · rw [extractFrom, if_neg hfull, if_pos ⟨rfl, rfl⟩]
    split
    next => exact .inl rfl
    next t hafter => exact .inr ⟨t, hafter, rfl⟩

theorem extractFrom_block : extractFrom length m k result ('/' :: '*' :: text) = result ∨
    ∃ t, after ['*', '/'] text = some t ∧
      extractFrom length m k result ('/' :: '*' :: text) = extractFrom length m k result t := by
  have hline : ¬ ('/' = '/' ∧ ('*' :: text).head? = some '/') := by simp
  by_cases hfull : m ≤ result.length
  · exact .inl (extractFrom_full hfull)
  · rw [extractFrom, if_neg hfull, if_neg hline, if_pos ⟨rfl, rfl⟩]
    split
    next => exact .inl rfl
    next t hafter => exact .inr ⟨t, hafter, rfl⟩

theorem extractFrom_quote (hquote : quote ∈ quotes) : extractFrom length m k result (quote :: text) = result ∨
    ∃ buffer dynamic t, readQuoted quote k [] false false text = some (buffer, dynamic, t) ∧
      extractFrom length m k result (quote :: text) = extractFrom length m k
        (result ++ [⟨String.ofList buffer, length - (quote :: text).length, quote, dynamic⟩]) t := by
  by_cases hfull : m ≤ result.length
  · exact .inl (extractFrom_full hfull)
  · cases hread : readQuoted quote k [] false false text with
    | none => exact .inl (extractFrom_unread hquote hread)
    | some found =>
      obtain ⟨buffer, dynamic, t⟩ := found
      exact .inr ⟨buffer, dynamic, t, rfl, extractFrom_literal hquote (not_le.mp hfull) hread⟩

/-- Nothing is found at a quote that was gone past. -/
theorem passed (hlength : (quote :: rest).length ≤ length) (htext : text.length ≤ rest.length)
    (hs : s ∈ extractFrom length m k result text) : s ∈ result ∨ s.offset ≠ length - (quote :: rest).length := by
  obtain ⟨more, hmore, -, hoffset⟩ := extractFrom_adds length m k result text
  rw [hmore] at hs
  refine (List.mem_append.mp hs).imp_right fun hs => ?_
  have hlate := hoffset s hs
  rw [List.length_cons] at hlength ⊢
  omega

theorem quote_notMem (h : quote ∈ quotes) : quote ∉ ['\n'] ∧ quote ∉ ['*', '/'] := by
  have hall : ∀ q ∈ quotes, q ∉ ['\n'] ∧ q ∉ ['*', '/'] := by decide
  exact hall quote h

/-- After anything else the next quote opens none. -/
theorem not_reached (hquote : quote ∈ quotes) (hbefore : ¬ Code Closed before)
    (hlength : (before ++ quote :: rest).length ≤ length)
    (hs : s ∈ extractFrom length m k result (before ++ quote :: rest)) :
    s ∈ result ∨ s.offset ≠ length - (quote :: rest).length := by
  rw [List.length_append] at hlength
  have htail : (quote :: rest).length ≤ length := by omega
  obtain ⟨hnewline, hblockEnd⟩ := quote_notMem hquote
  induction hn : before.length using Nat.strong_induction_on generalizing before result with
  | _ n ih =>
    cases before with
    | nil => exact absurd .nil hbefore
    | cons c before =>
      rw [List.length_cons] at hn hlength
      by_cases hopen : OpensComment (c :: before)
      · rcases hopen with ⟨b, hb⟩ | ⟨b, hb⟩
        · obtain ⟨rfl, rfl⟩ : c = '/' ∧ before = '/' :: b := by simpa [eq_comm] using hb
          rw [List.length_cons] at hn hlength
          rw [List.cons_append, List.cons_append] at hs
          by_cases hend : ['\n'] <:+: b
          · -- the comment ends before the quote
            obtain ⟨body, more, rfl, hbody⟩ := exists_first (by simp) hend
            have hmem : '\n' ∉ body := fun h => hbody ((List.singleton_infix_iff _ _).mpr h)
            rw [List.length_append, List.length_append] at hn hlength
            rw [List.append_assoc, List.append_assoc, List.singleton_append, extractFrom_lineComment hmem] at hs
            have hmore : more.length + (quote :: rest).length ≤ length := by omega
            exact ih more.length (by omega) (fun h => hbefore (.lineComment hmem h)) hmore hs rfl
          · -- the comment goes on past it
            rcases extractFrom_line.imp_left (fun h => h ▸ hs) with hs | ⟨t, hafter, heq⟩
            · exact .inl hs
            · rw [after_append_notMem_cons hnewline (by simp) hend] at hafter
              exact passed htail (after_length hafter) (heq ▸ hs)
        · obtain ⟨rfl, rfl⟩ : c = '/' ∧ before = '*' :: b := by simpa [eq_comm] using hb
          rw [List.length_cons] at hn hlength
          rw [List.cons_append, List.cons_append] at hs
          by_cases hend : ['*', '/'] <:+: b
          · obtain ⟨body, more, rfl, hbody⟩ := exists_first (by simp) hend
            rw [List.length_append, List.length_append] at hn hlength
            rw [List.append_assoc, List.append_assoc, List.cons_append, List.singleton_append,
              extractFrom_blockComment hbody] at hs
            have hmore : more.length + (quote :: rest).length ≤ length := by omega
            exact ih more.length (by omega) (fun h => hbefore (.blockComment hbody h)) hmore hs rfl
          · rcases extractFrom_block.imp_left (fun h => h ▸ hs) with hs | ⟨t, hafter, heq⟩
            · exact .inl hs
            · rw [after_append_notMem_cons hblockEnd (by simp) hend] at hafter
              exact passed htail (after_length hafter) (heq ▸ hs)
      · by_cases hopening : c ∈ quotes
        · rw [List.cons_append] at hs
          rcases (extractFrom_quote hopening).imp_left (fun h => h ▸ hs) with hs | ⟨buffer, dynamic, t, hread, heq⟩
          · exact .inl hs
          rw [heq] at hs
          obtain ⟨body, hsplit, hfree⟩ := free_of_readQuoted (hexDigit_quote hopening) hread
          -- the literal that is found opens before the quote
          generalize hfound : JavaScriptString.mk _ _ c dynamic = found at hs
          have hoffset : found.offset = length - (c :: (before ++ quote :: rest)).length := hfound ▸ rfl
          have hlater : s ∈ result ++ [found] ∨ s.offset ≠ length - (quote :: rest).length := by
            rcases List.append_eq_append_iff.mp hsplit with ⟨more, rfl, hmore⟩ | ⟨more, rfl, hmore⟩
            · have hshort := congrArg List.length hmore
              simp only [List.length_append, List.length_cons] at hshort
              exact passed htail (by omega) hs
            · cases more with
              | nil =>
                obtain ⟨rfl, rfl⟩ := List.cons.inj hmore
                exact passed htail le_rfl hs
              | cons d more =>
                obtain ⟨rfl, rfl⟩ := List.cons.inj hmore
                rw [List.length_append, List.length_cons] at hn hlength
                refine ih more.length (by omega) (fun h => hbefore ?_) (by omega) hs rfl
                have hliteral := Code.literal hopening ⟨body, hfree, rfl⟩ h
                rwa [List.append_assoc] at hliteral
          rcases hlater with hmem | hlater
          · refine (List.mem_append.mp hmem).imp_right fun hmem => ?_
            rw [List.mem_singleton.mp hmem, hoffset]
            simp only [List.length_append, List.length_cons] at hlength ⊢
            omega
          · exact .inr hlater
        · have hopen' := fun h => hopen (opensComment_append (quote_opens_no_comment hquote rest) h)
          rw [List.cons_append, extractFrom_plain hopening hopen'] at hs
          exact ih before.length (by omega) (fun h => hbefore (.plain hopening hopen h)) (by omega) hs rfl

end Reached

/-! ## Literals after a stray quote -/

section Stray

variable {quote : Char} {before body text rest : List Char} {content : String}

/-- What a quote opens when a literal ends with its line: a template, a literal on its line, or nothing but the rest of
    the line. -/
def LineClosed (quote : Char) (text : List Char) : Prop :=
  if quote = '\x60' then Closed quote text
  else ∃ body, Free [quote, '\n'] body ∧ (text = body ++ [quote] ∨ text = body ++ ['\n'])

/-- A quote that is not closed on its line stands on an earlier line, and no comment or template is open. -/
def AfterStray (before : List Char) : Prop :=
  ∃ lead stray line more, before = lead ++ stray :: (line ++ '\n' :: more) ∧ Code LineClosed lead ∧
    stray ∈ ['\x27', '"'] ∧ Free [stray, '\n'] line ∧ Code LineClosed more

/-- A quoted literal that lies on one line, after the line of a stray quote. -/
structure LiteralAfterStray (content : String) (before : List Char) (quote : Char) (body : List Char) : Prop where
  stands : ∃ rest, content.toList = before ++ quote :: (body ++ quote :: rest)
  quoted : quote ∈ ['\x27', '"']
  ends : Free [quote] body
  line : '\n' ∉ body
  stray : AfterStray before

/-- The literal is found as it is found alone, whenever the limit leaves room. -/
def Returned (content : String) (before : List Char) (quote : Char) (body : List Char) : Prop :=
  ∀ maxStrings maxStringLength, (extractJavascriptStrings content maxStrings maxStringLength).length < maxStrings →
    ∃ s ∈ extractJavascriptStrings (String.ofList (quote :: (body ++ [quote]))) 1 maxStringLength,
      { s with offset := before.length } ∈ extractJavascriptStrings content maxStrings maxStringLength

/-- A literal is found exactly when what stands before it is whole. -/
theorem kept_iff_code (hcontent : content.toList = before ++ quote :: (body ++ quote :: rest)) (hquote : quote ∈ quotes)
    (hbody : Free [quote] body) : Returned content before quote body ↔ Code Closed before := by
  have hstart : content.toList.length - (quote :: (body ++ quote :: rest)).length = before.length := by
    rw [hcontent, List.length_append, Nat.add_sub_cancel_right]
  constructor
  · intro h
    by_contra hbefore
    have hroom : (extractJavascriptStrings content (content.toList.length + 1) 0).length < content.toList.length + 1 := by
      obtain ⟨more, hmore, hcount, -⟩ := extractFrom_adds content.toList.length (content.toList.length + 1) 0 []
        content.toList
      rw [extractJavascriptStrings, hmore, List.nil_append]
      exact Nat.lt_succ_of_le hcount
    obtain ⟨s, -, hs⟩ := h _ _ hroom
    rw [extractJavascriptStrings, hcontent] at hs
    rcases not_reached hquote hbefore le_rfl hs with hmem | hne
    · exact absurd hmem List.not_mem_nil
    · rw [hcontent] at hstart
      exact hne hstart.symm
  · intro hbefore maxStrings maxStringLength hroom
    obtain ⟨value, dynamic, hread⟩ := readQuoted_free (k := maxStringLength) hquote body hbody [] false
    -- the literal alone
    have halone : extractJavascriptStrings (String.ofList (quote :: (body ++ [quote]))) 1 maxStringLength =
        [⟨String.ofList value, 0, quote, dynamic⟩] := by
      rw [extractJavascriptStrings, String.toList_ofList, extractFrom_literal hquote Nat.zero_lt_one (hread []), extractFrom,
        Nat.sub_self, List.nil_append]
    refine ⟨_, halone ▸ List.mem_singleton_self _, ?_⟩
    rw [extractJavascriptStrings, hcontent] at hroom ⊢
    obtain ⟨found, hfound⟩ := reached hbefore hquote hroom
    rw [hfound] at hroom ⊢
    have hfull : found.length < maxStrings := by
      by_contra hfull
      rw [extractFrom_full (not_lt.mp hfull)] at hroom
      exact hfull hroom
    rw [← hcontent] at hroom ⊢
    rw [extractFrom_literal hquote hfull (hread rest), hstart]
    obtain ⟨more, hmore, -, -⟩ := extractFrom_adds content.toList.length maxStrings maxStringLength
      (found ++ [⟨String.ofList value, before.length, quote, dynamic⟩]) rest
    rw [hmore, List.append_assoc]
    exact List.mem_append_right _ (List.mem_append_left _ (List.mem_singleton_self _))

/-- A stray quote costs no literal on a later line. -/
def KeepsLiterals (content : String) : Prop :=
  ∀ before quote body, LiteralAfterStray content before quote body → Returned content before quote body

/-- **The literals after a stray quote are kept** exactly where what stands before each of them splits into whole
comments, closed literals, which may go over lines, and other characters. -/
theorem keepsLiterals_iff (content : String) : KeepsLiterals content ↔
    ∀ before quote body, LiteralAfterStray content before quote body → Code Closed before := by
  refine forall₃_congr fun before quote body => forall_congr' fun h => ?_
  obtain ⟨rest, hcontent⟩ := h.stands
  have hquoted : ∀ q ∈ ['\x27', '"'], q ∈ quotes := by decide
  exact kept_iff_code hcontent (hquoted quote h.quoted) h.ends

theorem Code.mono {closed closed' : Char → List Char → Prop} (h : ∀ quote text, closed quote text → closed' quote text)
    {text : List Char} (hcode : Code closed text) : Code closed' text := by
  induction hcode with
  | nil => exact .nil
  | plain hquote hopen _ ih => exact .plain hquote hopen ih
  | lineComment hbody _ ih => exact .lineComment hbody ih
  | blockComment hbody _ ih => exact .blockComment hbody ih
  | literal hquote hclosed _ ih => exact .literal hquote (h _ _ hclosed) ih

theorem IsSeparator.lineClosed {text : List Char} (h : IsSeparator text) : Code LineClosed text :=
  h.code.mono fun _ _ => False.elim

/-- An apostrophe in a regular expression, and a literal on the next line. -/
def regexScript : String := "x = /'/;\ny = \"a\";"

theorem regex_hides_literal : ¬ KeepsLiterals regexScript := by
  intro h
  have hliteral : LiteralAfterStray regexScript "x = /'/;\ny = ".toList '"' ['a'] := by
    refine ⟨⟨[';'], by decide⟩, by decide, .plain (by decide) (by decide) .nil, by decide, ?_⟩
    have hlead : IsSeparator "x = /".toList := .text (by decide) (by decide) (by decide)
    have hmore : IsSeparator "y = ".toList := .text (by decide) (by decide) (by decide)
    have hline : Free ['\x27', '\n'] "/;".toList := .plain (by decide) (by decide) (.plain (by decide) (by decide) .nil)
    exact ⟨_, '\x27', _, _, by decide, hlead.lineClosed, by decide, hline, hmore.lineClosed⟩
  have hnone : extractJavascriptStrings regexScript 1 1 = [] := by decide +kernel
  obtain ⟨s, -, hs⟩ := h _ _ _ hliteral 1 1 (by rw [hnone]; exact Nat.zero_lt_one)
  rw [hnone] at hs
  exact absurd hs List.not_mem_nil

end Stray

end NightScout
