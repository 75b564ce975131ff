import NightScout.Policy.CanonicalSubjects
import NightScout.Surface.Identity

/-!
# What is known of the Unicode tables

The identities rest on `str.lower`, `str.upper` and `str.casefold`, and on the NFKC check of `urlsplit`.
`CaseTables` says what is used of them: each works character by character, leaves alone what it has written, and
neither makes nor unmakes white space and ASCII punctuation; and a separator hides in single characters, none of
which `str.lower` makes.
-/

namespace NightScout

open Lib

/-- White space, and ASCII without the letters. -/
def IsPlain (c : Char) : Prop := isSpace c = true ∨ (c.toNat < 128 ∧ c.isAlpha = false)

/-- A case mapping. -/
def MapsCase (f : String → String) : Prop :=
  ∃ image, CaseImage IsPlain image ∧ ∀ text : String, Mapped image text.toList (f text).toList

structure CaseTables (lib : IdentityLib) : Prop where
  lower : MapsCase (strLower lib.toTables)
  upper : MapsCase (strUpper lib)
  casefold : MapsCase (strCasefold lib)
  checked : ∃ hides : Char → Prop, (∀ c, c.toNat < 128 → ¬ hides c) ∧
    (∀ netloc : String, (∀ c ∈ netloc.toList, endsNetloc c = false) →
      (checkNetloc lib.toTables netloc = true ↔ ∀ c ∈ netloc.toList, ¬ hides c)) ∧
    ∀ text : String, ∀ c ∈ (strLower lib.toTables text).toList, hides c → ∃ d ∈ text.toList, hides d

/-! ## The ends of a text -/

section Ends

variable {cs : List Char} {text : String}

theorem dropWhile_eq_self {p : Char → Bool} (h : cs.head?.any p = false) : cs.dropWhile p = cs := by
  cases cs with
  | nil => rfl
  | cons c cs => exact List.dropWhile_cons_of_neg (by simpa using h)

theorem rdropWhile_eq_self {p : Char → Bool} (h : cs.getLast?.any p = false) : cs.rdropWhile p = cs := by
  cases cs using List.reverseRecOn with
  | nil => rfl
  | append_singleton cs c =>
    apply List.rdropWhile_concat_neg
    simpa using h

theorem rdropWhile_ne_self {p : Char → Bool} (h : cs.getLast?.any p = true) : (cs.rdropWhile p).length < cs.length := by
  cases cs using List.reverseRecOn with
  | nil => cases h
  | append_singleton cs c =>
    rw [List.rdropWhile_concat_pos _ _ _ (by simpa using h), List.length_append]
    have hle := (List.rdropWhile_prefix p cs).length_le
    simp only [List.length_singleton]
    omega

theorem getLast?_rdropWhile (p : Char → Bool) (cs : List Char) : (cs.rdropWhile p).getLast?.any p = false := by
  induction cs using List.reverseRecOn with
  | nil => rfl
  | append_singleton cs c ih =>
    cases hc : p c with
    | true => rwa [List.rdropWhile_concat_pos _ _ _ hc]
    | false =>
      rw [List.rdropWhile_concat_neg _ _ _ (by rw [hc]; decide)]
      simpa using hc

/-- An element that is not cut off stays, with what stands before it. -/
theorem rdropWhile_append_cons {p : Char → Bool} (front rest : List Char) {c : Char} (hc : p c = false) :
    (front ++ c :: rest).rdropWhile p = front ++ c :: rest.rdropWhile p := by
  induction rest using List.reverseRecOn with
  | nil => exact List.rdropWhile_concat_neg p front c (by rw [hc]; decide)
  | append_singleton rest d ih =>
    rw [← List.cons_append, ← List.append_assoc]
    cases hd : p d with
    | true => rw [List.rdropWhile_concat_pos _ _ _ hd, List.rdropWhile_concat_pos _ _ _ hd, ih]
    | false =>
      have hneg : ¬ p d = true := by rw [hd]; decide
      rw [List.rdropWhile_concat_neg _ _ _ hneg, List.rdropWhile_concat_neg _ _ _ hneg, List.append_assoc]
      rfl

theorem rdropWhile_cons {p : Char → Bool} {c : Char} (hc : p c = false) (rest : List Char) :
    (c :: rest).rdropWhile p = c :: rest.rdropWhile p := rdropWhile_append_cons [] rest hc

/-- A text that does not start with white space is only cut at its end. -/
theorem stripChars_of_head (h : cs.head?.any isSpace = false) : stripChars cs = cs.rdropWhile isSpace := by
  rw [stripChars_eq_rdropWhile, dropWhile_eq_self h]

theorem stripChars_eq_self_iff :
    stripChars cs = cs ↔ cs.head?.any isSpace = false ∧ cs.getLast?.any isSpace = false := by
  constructor
  · intro h
    have hends : (stripChars cs).getLast?.any isSpace = false := getLast?_rdropWhile _ _
    rw [h] at hends
    refine ⟨?_, hends⟩
    by_contra hspace
    rw [Bool.not_eq_false] at hspace
    have hlength := congrArg List.length h
    cases cs with
    | nil => cases hspace
    | cons c cs =>
      rw [stripChars_eq_rdropWhile, List.dropWhile_cons_of_pos (by simpa using hspace)] at hlength
      have hprefix := (List.rdropWhile_prefix isSpace (cs.dropWhile isSpace)).length_le
      have hsuffix := (List.dropWhile_suffix isSpace : cs.dropWhile isSpace <:+ cs).length_le
      simp only [List.length_cons] at hlength
      omega
  · rintro ⟨hhead, hlast⟩
    rw [stripChars_of_head hhead, rdropWhile_eq_self hlast]

theorem strip_eq_self_iff : strip text = text ↔
    text.toList.head?.any isSpace = false ∧ text.toList.getLast?.any isSpace = false := by
  rw [← stripChars_eq_self_iff, ← String.toList_inj, toList_strip]

end Ends

/-! ## Case mappings -/

namespace MapsCase

variable {f : String → String}

/-- What a case mapping has written, it leaves as it is. -/
theorem fixed (h : MapsCase f) {text : String} (hwritten : ∀ c ∈ text.toList, ∃ s, c ∈ (f s).toList) :
    f text = text := by
  obtain ⟨image, himage, hmapped⟩ := h
  apply String.toList_inj.mp
  apply (hmapped text).eq_self
  intro c hc again hagain
  obtain ⟨s, hs⟩ := hwritten c hc
  obtain ⟨d, -, piece, hpiece, hin⟩ := (hmapped s).exists_image hs
  exact himage.settled d piece hpiece c hin again hagain

theorem idem (h : MapsCase f) (text : String) : f (f text) = f text := h.fixed fun _ hc => ⟨text, hc⟩

theorem eq_empty_iff (h : MapsCase f) {text : String} : f text = "" ↔ text = "" := by
  obtain ⟨image, himage, hmapped⟩ := h
  rw [← String.toList_eq_nil_iff, ← String.toList_eq_nil_iff]
  exact (hmapped text).eq_nil_iff himage

theorem mem_of_plain (h : MapsCase f) {text : String} {c : Char} (hc : c ∈ (f text).toList)
    (hplain : IsPlain c) : c ∈ text.toList := by
  obtain ⟨image, himage, hmapped⟩ := h
  exact (hmapped text).mem_of_plain himage hc hplain

/-- A stripped text stays stripped. -/
theorem strip_eq_self (h : MapsCase f) {text : String} (hstrip : strip text = text) : strip (f text) = f text := by
  obtain ⟨image, himage, hmapped⟩ := h
  have hspace : ∀ c, isSpace c = true → IsPlain c := fun c hc => .inl hc
  rw [strip_eq_self_iff] at hstrip ⊢
  rwa [(hmapped text).head?_any himage hspace, (hmapped text).getLast?_any himage hspace]

end MapsCase

theorem isPlain_ascii {c : Char} (hlt : c.toNat < 128) (halpha : c.isAlpha = false) : IsPlain c :=
  .inr ⟨hlt, halpha⟩

theorem toList_rstripDots (s : String) : (rstripDots s).toList = s.toList.rdropWhile (· = '.') :=
  String.toList_ofList

theorem toList_rstripSlashes (s : String) : (rstripSlashes s).toList = s.toList.rdropWhile (· = '/') :=
  String.toList_ofList

end NightScout
