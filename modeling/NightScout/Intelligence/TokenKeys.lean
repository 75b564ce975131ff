import Mathlib.Data.List.Chain
import NightScout.Intelligence.YieldModel
import NightScout.Policy.CanonicalSubjects
import NightScout.Workers.EvidenceStore

/-!
# Token keys

A token that was normalized for a category is the canonical key of what it was (`canonicalTokenKey_normalized`), so
tokens of one key are spelled alike. The letters of a token are ASCII but for tokens of digits, of which `str.lower`
leaves every one as it is.
-/

namespace NightScout

open Lib

/-- What `str.lower` and `str.strip` do to digits. -/
structure DigitLaws (tables : TokenTables) : Prop where
  lower : ∀ text : String, text.toList.all tables.isDigit = true → strLower tables.toTables text = text
  space : ∀ c, tables.isDigit c = true → isSpace c = false

/-- A character of a label: a small letter, a digit or a hyphen. -/
def labelChar (c : Char) : Bool := ('a' ≤ c && c ≤ 'z') || ('0' ≤ c && c ≤ '9') || c = '-'

/-- A character of a general token. -/
def generalChar (c : Char) : Bool :=
  ('a' ≤ c && c ≤ 'z') || ('0' ≤ c && c ≤ '9') || c = '_' || c = '.' || c = '-' || c = '[' || c = ']'

section Runs

variable {p : Char → Bool} {cs : List Char}

theorem subRuns_self (h : ∀ c ∈ cs, p c = false) (inRun : Bool) : subRuns p inRun cs = cs := by
  induction cs generalizing inRun with
  | nil => rfl
  | cons c cs ih =>
    obtain ⟨hc, hcs⟩ := List.forall_mem_cons.mp h
    rw [subRuns, if_neg (by rw [hc]; exact Bool.false_ne_true), ih hcs]

/-- What is left is a hyphen, or was no character of a run. -/
theorem mem_subRuns {c : Char} {inRun : Bool} (h : c ∈ subRuns p inRun cs) : c = '-' ∨ c ∈ cs ∧ p c = false := by
  induction cs generalizing inRun with
  | nil => cases h
  | cons d cs ih =>
    have hrest : ∀ {b : Bool}, c ∈ subRuns p b cs → c = '-' ∨ c ∈ d :: cs ∧ p c = false := by
      intro b hmem
      rcases ih hmem with hc | ⟨hc, hp⟩
      · exact .inl hc
      · exact .inr ⟨List.mem_cons_of_mem d hc, hp⟩
    unfold subRuns at h
    split at h
    next =>
      split at h
      · exact hrest h
      · rcases List.mem_cons.mp h with rfl | h
        · exact .inl rfl
        · exact hrest h
    next hd =>
      rcases List.mem_cons.mp h with rfl | h
      · exact .inr ⟨List.mem_cons_self, Bool.not_eq_true _ ▸ hd⟩
      · exact hrest h

/-- No two hyphens next to each other. -/
def SingleHyphens (cs : List Char) : Prop := cs.IsChain fun a b => ¬ (a = '-' ∧ b = '-')

theorem singleHyphens_subRuns (inRun : Bool) :
    SingleHyphens (subRuns (fun c => c = '-') inRun cs) ∧
      (inRun = true → ∀ c ∈ (subRuns (fun c => c = '-') inRun cs).head?, c ≠ '-') := by
  induction cs generalizing inRun with
  | nil => exact ⟨List.isChain_nil, fun _ c hc => by cases hc⟩
  | cons d cs ih =>
    by_cases hd : d = '-'
    · subst hd
      cases inRun with
      | true => exact ih true
      | false =>
        obtain ⟨hchain, hhead⟩ := ih true
        refine ⟨List.isChain_cons.mpr ⟨fun c hc h => hhead rfl c hc h.2, hchain⟩, nofun⟩
    · have hsub : subRuns (fun c => c = '-') inRun (d :: cs) = d :: subRuns (fun c => c = '-') false cs := by
        rw [subRuns, if_neg (by simp [hd])]
      rw [hsub]
      refine ⟨List.isChain_cons.mpr ⟨fun c _ h => hd h.1, (ih false).1⟩, fun _ c hc => ?_⟩
      obtain rfl := Option.some.inj hc
      exact hd

theorem subRuns_singleHyphens (h : SingleHyphens cs) (inRun : Bool) (hhead : inRun = true → ∀ c ∈ cs.head?, c ≠ '-') :
    subRuns (fun c => c = '-') inRun cs = cs := by
  induction cs generalizing inRun with
  | nil => rfl
  | cons d cs ih =>
    obtain ⟨hnext, hchain⟩ := List.isChain_cons.mp h
    by_cases hd : d = '-'
    · subst hd
      cases inRun with
      | true => exact absurd rfl (hhead rfl '-' rfl)
      | false =>
        have hrest := ih hchain true fun _ c hc heq => hnext c hc ⟨rfl, heq⟩
        simp [subRuns, hrest]
    · have hrest := ih hchain false nofun
      simp [subRuns, hd, hrest]

theorem stripHyphens_infix (cs : List Char) : stripHyphens cs <:+: cs :=
  (List.rdropWhile_prefix _ _).isInfix.trans (List.dropWhile_suffix _).isInfix

theorem stripHyphens_idem (cs : List Char) : stripHyphens (stripHyphens cs) = stripHyphens cs := by
  have hleft : (stripHyphens cs).dropWhile (fun c => decide (c = '-')) = stripHyphens cs := by
    rw [List.dropWhile_eq_self_iff]
    intro hl
    have hpre : stripHyphens cs <+: cs.dropWhile fun c => decide (c = '-') := List.rdropWhile_prefix _ _
    have hlen : 0 < (cs.dropWhile fun c => decide (c = '-')).length := lt_of_lt_of_le hl hpre.length_le
    rw [hpre.getElem hl]
    exact List.dropWhile_get_zero_not _ cs hlen
  rw [stripHyphens, hleft, stripHyphens, List.rdropWhile_idempotent]

end Runs

section Keys

variable {tables : TokenTables} {category : CorpusCategory} {value token : String}

theorem generalChar_of_labelChar {c : Char} (h : labelChar c = true) : generalChar c = true := by
  unfold labelChar at h
  unfold generalChar
  simp only [Bool.or_eq_true, Bool.and_eq_true, decide_eq_true_eq] at h ⊢
  tauto

/-- The codes of such characters. -/
theorem generalChar_range {c : Char} (h : generalChar c = true) :
    97 ≤ c.toNat ∧ c.toNat ≤ 122 ∨ 48 ≤ c.toNat ∧ c.toNat ≤ 57 ∨ c.toNat = 95 ∨ c.toNat = 46 ∨ c.toNat = 45 ∨
      c.toNat = 91 ∨ c.toNat = 93 := by
  unfold generalChar at h
  simp only [Bool.or_eq_true, Bool.and_eq_true, decide_eq_true_eq] at h
  rcases h with ((((((⟨ha, hz⟩ | ⟨ha, hz⟩) | rfl) | rfl) | rfl) | rfl) | rfl)
  · exact .inl ⟨UInt32.le_iff_toNat_le.mp ha, UInt32.le_iff_toNat_le.mp hz⟩
  · exact .inr (.inl ⟨UInt32.le_iff_toNat_le.mp ha, UInt32.le_iff_toNat_le.mp hz⟩)
  all_goals decide

theorem isSpace_of_generalChar {c : Char} (h : generalChar c = true) : isSpace c = false := by
  have hrange := generalChar_range h
  unfold isSpace
  simp only [Bool.or_eq_false_iff, Bool.and_eq_false_iff, decide_eq_false_iff_not]
  omega

theorem toLower_of_generalChar {c : Char} (h : generalChar c = true) : c.toLower = c := by
  have hrange := generalChar_range h
  exact toLower_of_not_upper (by omega)

theorem strip_generalChars (h : ∀ c ∈ value.toList, generalChar c = true) : strip value = value :=
  strip_of_no_space fun c hc => isSpace_of_generalChar (h c hc)

theorem strLower_generalChars {tables : Tables} (h : ∀ c ∈ value.toList, generalChar c = true) :
    strLower tables value = value := by
  refine strLower_of_isLowered ?_ fun c hc => toLower_of_generalChar (h c hc)
  unfold isAscii
  rw [List.all_eq_true]
  intro c hc
  have hrange := generalChar_range (h c hc)
  exact decide_eq_true (by omega)

/-! ## Labels -/

/-- What a label looks like. -/
structure IsLabel (label : List Char) : Prop where
  chars : ∀ c ∈ label, labelChar c = true
  single : SingleHyphens label
  stripped : stripHyphens label = label
  nonempty : label ≠ []
  short : label.length ≤ 63

theorem normalizeCandidateLabel_isLabel {tables : Tables} (h : normalizeCandidateLabel tables value = some token) :
    IsLabel token.toList := by
  unfold normalizeCandidateLabel at h
  simp only at h
  generalize hplain : subRuns (fun c => !(('a' ≤ c && c ≤ 'z') || ('0' ≤ c && c ≤ '9') || c = '-')) false _ = plain at h
  have hchars : ∀ c ∈ plain, labelChar c = true := by
    intro c hc
    rw [← hplain] at hc
    rcases mem_subRuns hc with rfl | ⟨-, hc⟩
    · decide
    · have hkept : (!labelChar c) = false := hc
      rwa [Bool.not_eq_false'] at hkept
  split at h
  · cases h
  next hnot =>
    obtain ⟨hnonempty, hshort⟩ := not_or.mp hnot
    obtain rfl := Option.some.inj h
    rw [String.toList_ofList]
    have hinside := stripHyphens_infix (subRuns (fun c => c = '-') false plain)
    have hsingle : SingleHyphens (stripHyphens (subRuns (fun c => c = '-') false plain)) := by
      obtain ⟨before, after, heq⟩ := hinside
      have hchain : SingleHyphens (before ++ stripHyphens (subRuns (fun c => c = '-') false plain) ++ after) := by
        rw [heq]
        exact (singleHyphens_subRuns false).1
      exact hchain.left_of_append.right_of_append
    refine ⟨fun c hc => ?_, hsingle, stripHyphens_idem _, hnonempty, by omega⟩
    rcases mem_subRuns (hinside.subset hc) with rfl | ⟨hc, -⟩
    · decide
    · exact hchars c hc

/-- A label stays what it is. -/
theorem normalizeCandidateLabel_of_isLabel {tables : Tables} (h : IsLabel token.toList) :
    normalizeCandidateLabel tables token = some token := by
  have hgeneral : ∀ c ∈ token.toList, generalChar c = true := fun c hc => generalChar_of_labelChar (h.chars c hc)
  have hseparators : ∀ c ∈ token.toList, (decide (c = '_') || isSpace c) = false := by
    intro c hc
    rw [isSpace_of_generalChar (hgeneral c hc), Bool.or_false]
    refine decide_eq_false ?_
    rintro rfl
    exact absurd (h.chars _ hc) (by decide)
  have hothers : ∀ c ∈ token.toList,
      (!(('a' ≤ c && c ≤ 'z') || ('0' ≤ c && c ≤ '9') || c = '-')) = false := by
    intro c hc
    rw [Bool.not_eq_false']
    exact h.chars c hc
  unfold normalizeCandidateLabel
  simp only [strip_generalChars hgeneral, strLower_generalChars hgeneral, subRuns_self hseparators,
    subRuns_self hothers, subRuns_singleHyphens h.single false nofun, h.stripped]
  rw [if_neg, String.ofList_toList]
  have hshort := h.short
  exact not_or.mpr ⟨h.nonempty, by omega⟩

/-! ## Keys -/

theorem normalizeParameterName_idem {name : String} (h : normalizeParameterName value = .ok name) :
    normalizeParameterName name = .ok name := by
  unfold normalizeParameterName at h ⊢
  simp only at h ⊢
  split at h
  · cases h
  next hblank =>
    split at h
    next hchars =>
      obtain rfl := Except.ok.inj h
      rw [strip_strip, if_neg hblank, if_pos hchars]
    next => cases h

/-- A general token is plain, or a few digits. -/
theorem normalizeGeneralToken_cases (h : normalizeGeneralToken tables value = some token) :
    token = strLower tables.toTables (strip value) ∧
      (token.toList.all tables.isDigit = true ∨ ∀ c ∈ token.toList, generalChar c = true) := by
  unfold normalizeGeneralToken at h
  simp only at h
  split at h
  · cases h
  split at h
  next hdigits =>
    split at h
    · obtain rfl := Option.some.inj h
      exact ⟨rfl, .inl hdigits⟩
    · cases h
  split at h
  · cases h
  split at h
  · cases h
  split at h
  next hchars =>
    obtain rfl := Option.some.inj h
    exact ⟨rfl, .inr (List.all_eq_true.mp hchars)⟩
  next => cases h

/-- A general token has nothing to strip and no case. -/
theorem general_plain (hlaws : DigitLaws tables) (h : normalizeGeneralToken tables value = some token) :
    strip token = token ∧ strLower tables.toTables token = token := by
  rcases (normalizeGeneralToken_cases h).2 with hdigits | hchars
  · refine ⟨strip_of_no_space fun c hc => hlaws.space c (List.all_eq_true.mp hdigits c hc), ?_⟩
    exact hlaws.lower token hdigits
  · exact ⟨strip_generalChars hchars, strLower_generalChars hchars⟩

theorem normalizeGeneralToken_idem (hlaws : DigitLaws tables) (h : normalizeGeneralToken tables value = some token) :
    normalizeGeneralToken tables token = some token := by
  obtain ⟨hstrip, hlower⟩ := general_plain hlaws h
  obtain ⟨htoken, -⟩ := normalizeGeneralToken_cases h
  have hsame : strLower tables.toTables (strip token) = strLower tables.toTables (strip value) := by
    rw [hstrip, hlower, htoken]
  unfold normalizeGeneralToken at h ⊢
  rw [hsame]
  exact h

/-- **A normalized token is its key.** -/
theorem canonicalTokenKey_normalized (hlaws : DigitLaws tables)
    (h : normalizeTokenForCategory tables category value = some token) :
    canonicalTokenKey tables category token = token := by
  have hlabel : normalizeCandidateLabel tables.toTables value = some token →
      normalizeCandidateLabel tables.toTables token = some token ∧ strLower tables.toTables token = token := by
    intro h
    have hlabel := normalizeCandidateLabel_isLabel h
    refine ⟨normalizeCandidateLabel_of_isLabel hlabel, strLower_generalChars fun c hc => ?_⟩
    exact generalChar_of_labelChar (hlabel.chars c hc)
  have hgeneral : normalizeGeneralToken tables value = some token →
      normalizeGeneralToken tables token = some token ∧ strLower tables.toTables token = token :=
    fun h => ⟨normalizeGeneralToken_idem hlaws h, (general_plain hlaws h).2⟩
  have hparameter : (normalizeParameterName value).toOption = some token →
      (normalizeParameterName token).toOption = some token := by
    intro h
    cases hname : normalizeParameterName value with
    | error e =>
      rw [hname] at h
      cases h
    | ok name =>
      rw [hname] at h
      obtain rfl := Option.some.inj h
      rw [normalizeParameterName_idem hname]
      rfl
  obtain ⟨hkey, hlower⟩ : normalizeTokenForCategory tables category token = some token ∧
      (category ≠ .parameter → strLower tables.toTables token = token) := by
    cases category with
    | parameter => exact ⟨hparameter h, fun hne => absurd rfl hne⟩
    | dns => exact ⟨(hlabel h).1, fun _ => (hlabel h).2⟩
    | vhost => exact ⟨(hlabel h).1, fun _ => (hlabel h).2⟩
    | general => exact ⟨(hgeneral h).1, fun _ => (hgeneral h).2⟩
    | path => exact ⟨(hgeneral h).1, fun _ => (hgeneral h).2⟩
    | api => exact ⟨(hgeneral h).1, fun _ => (hgeneral h).2⟩
    | project => exact ⟨(hgeneral h).1, fun _ => (hgeneral h).2⟩
    | technology => exact ⟨(hgeneral h).1, fun _ => (hgeneral h).2⟩
  unfold canonicalTokenKey
  rw [hkey]
  simp only
  split
  next => rfl
  next hne => exact hlower hne

end Keys

end NightScout
