import NightScout.Lib.Lists
import NightScout.Policy.Domains

/-!
# Host names

`normalize_dns_name` of `recon/workers/passive_domains.py`: the name a host candidate is published under. It
rejects what is not a concrete host, and what it gives is its own normal form
(`normalizeDnsName_normal`).
-/

namespace NightScout

open Lib

/-- `"://" in raw`. -/
def hasSchemeSeparator : List Char → Bool
  | [] => false
  | c :: cs => (c :: cs).take 3 = [':', '/', '/'] || hasSchemeSeparator cs

-- otherwise a statement about the characters of a label is decided over all characters
instance decidableForallMemChar (cs : List Char) (p : Char → Prop) [DecidablePred p] :
    Decidable (∀ c ∈ cs, p c) :=
  List.decidableBAll p cs

/-- `_ASCII_HOST_LABEL_RE`, and that no hyphen stands at either end. -/
def HostLabel (label : List Char) : Prop :=
  label.length ≤ 63 ∧ (∀ c ∈ label, ('a' ≤ c ∧ c ≤ 'z') ∨ ('0' ≤ c ∧ c ≤ '9') ∨ c = '-') ∧
    label ≠ [] ∧ label.head? ≠ some '-' ∧ label.getLast? ≠ some '-'

instance (label : List Char) : Decidable (HostLabel label) :=
  inferInstanceAs (Decidable (_ ∧ _ ∧ _ ∧ _ ∧ _))

variable (tables : Tables)

/-- A label in its ASCII form. -/
def encodeHostLabel (label : List Char) : Except PyError (List Char) :=
  if label = [] then .error (.valueError "DNS name contains an empty label")
  else
    match idnaEncode tables (String.ofList label) with
    | none => .error (.valueError s!"invalid IDNA label: '{String.ofList label}'")
    | some encoded =>
      let asciiLabel := (strLower tables encoded).toList
      if HostLabel asciiLabel then .ok asciiLabel
      else if asciiLabel.length ≤ 63 ∧ asciiLabel ≠ [] ∧
          ∀ c ∈ asciiLabel, ('a' ≤ c ∧ c ≤ 'z') ∨ ('0' ≤ c ∧ c ≤ '9') ∨ c = '-' then
        .error (.valueError
          s!"hostname label cannot start/end with '-': '{String.ofList label}'")
      else .error (.valueError s!"invalid hostname label: '{String.ofList label}'")

def normalizeDnsName (value : String) : Except PyError String :=
  let raw := rstripDots (strLower tables (strip value))
  if raw = "" then .error (.valueError "DNS name is blank")
  else if isWildcard raw then
    .error (.valueError "wildcard DNS names are not concrete host candidates")
  else if hasSchemeSeparator raw.toList then
    .error (.valueError "URL supplied where DNS name was expected")
  else if raw.toList.any isSpace then
    .error (.valueError "DNS names cannot contain whitespace")
  else if '/' ∈ raw.toList ∨ '@' ∈ raw.toList then
    .error (.valueError "invalid hostname delimiter")
  else if ':' ∈ raw.toList then
    .error (.valueError "ports/IP literals are not DNS hostname candidates")
  else if (labels raw).length < 2 then
    .error (.valueError "DNS name must contain at least two labels")
  else do
    let encodedLabels ← (labels raw).mapM (encodeHostLabel tables)
    let normalized := ['.'].intercalate encodedLabels
    if normalized.length > 253 then .error (.valueError "DNS name exceeds 253 characters")
    else .ok (String.ofList normalized)

/-! ## Normal names -/

section Normal

variable {tables}

/-- A character of a normal name. -/
def HostChar (c : Char) : Prop :=
  (97 ≤ c.toNat ∧ c.toNat ≤ 122) ∨ (48 ≤ c.toNat ∧ c.toNat ≤ 57) ∨ c = '-' ∨ c = '.'

theorem HostLabel.dot_notMem {label : List Char} (h : HostLabel label) : '.' ∉ label := by
  intro hmem
  rcases h.2.1 '.' hmem with hc | hc | hc
  · exact absurd hc (by decide)
  · exact absurd hc (by decide)
  · cases hc

theorem HostLabel.hostChar {label : List Char} (h : HostLabel label) {c : Char} (hc : c ∈ label) : HostChar c := by
  rcases h.2.1 c hc with ⟨ha, hz⟩ | ⟨ha, hz⟩ | rfl
  · exact .inl ⟨UInt32.le_iff_toNat_le.mp ha, UInt32.le_iff_toNat_le.mp hz⟩
  · exact .inr (.inl ⟨UInt32.le_iff_toNat_le.mp ha, UInt32.le_iff_toNat_le.mp hz⟩)
  · exact .inr (.inr (.inl rfl))

theorem HostChar.range {c : Char} (h : HostChar c) :
    (97 ≤ c.toNat ∧ c.toNat ≤ 122) ∨ (48 ≤ c.toNat ∧ c.toNat ≤ 57) ∨ c.toNat = 45 ∨ c.toNat = 46 := by
  rcases h with h | h | rfl | rfl
  · exact .inl h
  · exact .inr (.inl h)
  · exact .inr (.inr (.inl rfl))
  · exact .inr (.inr (.inr rfl))

theorem HostChar.not_isSpace {c : Char} (h : HostChar c) : isSpace c = false := by
  have hrange := h.range
  unfold isSpace
  simp only [Bool.or_eq_false_iff, Bool.and_eq_false_iff, decide_eq_false_iff_not]
  omega

theorem HostChar.lt {c : Char} (h : HostChar c) : c.toNat < 128 := by
  have hrange := h.range
  omega

theorem HostChar.toLower {c : Char} (h : HostChar c) : c.toLower = c := by
  have hrange := h.range
  exact toLower_of_not_upper (by omega)

/-- No delimiter is a character of a normal name. -/
theorem HostChar.ne {c d : Char} (h : HostChar c) (hd : d.toNat ∈ [42, 47, 58, 64]) : c ≠ d := by
  rintro rfl
  have hrange := h.range
  simp only [List.mem_cons, List.not_mem_nil, or_false] at hd
  omega

/-- A text of such characters has nothing to strip, and is in lower case. -/
theorem strLower_hostChars {cs : List Char} (h : ∀ c ∈ cs, HostChar c) :
    strLower tables (String.ofList cs) = String.ofList cs := by
  have hascii : isAscii (String.ofList cs) = true := by
    simp only [isAscii, String.toList_ofList, List.all_eq_true, decide_eq_true_eq]
    exact fun c hc => (h c hc).lt
  rw [strLower, if_pos hascii, String.toList_ofList]
  congr 1
  exact (List.map_congr_left fun c hc => (h c hc).toLower).trans (List.map_id cs)

theorem strip_hostChars {cs : List Char} (h : ∀ c ∈ cs, HostChar c) : strip (String.ofList cs) = String.ofList cs := by
  have hdrop : cs.dropWhile isSpace = cs := by
    rw [List.dropWhile_eq_self_iff]
    intro hl
    rw [Bool.not_eq_true]
    exact (h _ (List.getElem_mem hl)).not_isSpace
  unfold strip
  rw [String.toList_ofList, stripChars_eq_rdropWhile, hdrop, List.rdropWhile_eq_self_iff.mpr]
  intro hne
  rw [Bool.not_eq_true]
  exact (h _ (List.getLast_mem hne)).not_isSpace

/-- The labels of a normal name. -/
structure HostLabels (ls : List (List Char)) : Prop where
  two : 2 ≤ ls.length
  label : ∀ l ∈ ls, HostLabel l
  short : (['.'].intercalate ls).length ≤ 253

theorem HostLabels.ne_nil {ls : List (List Char)} (h : HostLabels ls) : ls ≠ [] := by
  rintro rfl
  exact absurd h.two (by decide)

theorem mem_intercalate {sep c : Char} : ∀ {ls : List (List Char)},
    c ∈ [sep].intercalate ls → c = sep ∨ ∃ l ∈ ls, c ∈ l
  | [], h => nomatch h
  | [l], h => by
    rw [List.intercalate_singleton] at h
    exact .inr ⟨l, List.mem_cons_self, h⟩
  | l :: l' :: ls, h => by
    rw [List.intercalate_cons_cons, List.append_assoc, List.mem_append, List.mem_append] at h
    rcases h with h | h | h
    · exact .inr ⟨l, List.mem_cons_self, h⟩
    · exact .inl (List.mem_singleton.mp h)
    · rcases mem_intercalate h with h | ⟨l'', hl, h⟩
      · exact .inl h
      · exact .inr ⟨l'', List.mem_cons_of_mem _ hl, h⟩

theorem hostChar_joined {ls : List (List Char)} (h : ∀ l ∈ ls, HostLabel l) {c : Char}
    (hc : c ∈ ['.'].intercalate ls) : HostChar c := by
  rcases mem_intercalate hc with rfl | ⟨l, hl, hc⟩
  · exact .inr (.inr (.inr rfl))
  · exact (h l hl).hostChar hc

theorem HostLabels.hostChar {ls : List (List Char)} (h : HostLabels ls) {c : Char}
    (hc : c ∈ ['.'].intercalate ls) : HostChar c :=
  hostChar_joined h.label hc

theorem encodeHostLabel_ok {label encoded : List Char}
    (h : encodeHostLabel tables label = .ok encoded) : HostLabel encoded := by
  unfold encodeHostLabel at h
  split at h
  · cases h
  · split at h
    · cases h
    · simp only at h
      split at h
      next hlabel =>
        cases h
        exact hlabel
      next =>
        split at h
        · cases h
        · cases h

/-- A normal label is kept. -/
theorem encodeHostLabel_hostLabel {label : List Char} (h : HostLabel label) :
    encodeHostLabel tables label = .ok label := by
  have hchars : ∀ c ∈ label, HostChar c := fun c hc => h.hostChar hc
  have hencode : idnaEncode tables (String.ofList label) = some (String.ofList label) := by
    have hascii : isAscii (String.ofList label) = true := by
      simp only [isAscii, String.toList_ofList, List.all_eq_true, decide_eq_true_eq]
      exact fun c hc => (hchars c hc).lt
    have hlabels : labels (String.ofList label) = [label] := by
      unfold labels
      rw [String.toList_ofList]
      exact List.splitOn_eq_singleton h.dot_notMem
    unfold idnaEncode
    rw [if_pos hascii, hlabels, if_pos]
    have hlength := h.1
    simp only [idnaLengthsOk, decide_eq_true_eq]
    omega
  unfold encodeHostLabel
  rw [if_neg h.2.2.1, hencode]
  simp only [strLower_hostChars hchars, String.toList_ofList, h, if_true]

/-- The dots of a normal name are between its labels. -/
theorem labels_joined {ls : List (List Char)} (h : ∀ l ∈ ls, HostLabel l) (hne : ls ≠ []) :
    labels (String.ofList (['.'].intercalate ls)) = ls := by
  unfold labels
  rw [String.toList_ofList]
  exact List.splitOn_intercalate '.' (fun l hl => (h l hl).dot_notMem) hne

theorem HostLabels.labels_eq {ls : List (List Char)} (h : HostLabels ls) :
    labels (String.ofList (['.'].intercalate ls)) = ls :=
  labels_joined h.label h.ne_nil

theorem getLast?_intercalate (sep : Char) : ∀ {ls : List (List Char)},
    (∀ l ∈ ls, l ≠ []) → ∀ hne : ls ≠ [], ([sep].intercalate ls).getLast? = (ls.getLast hne).getLast?
  | [l], _, _ => by rw [List.intercalate_singleton, List.getLast_singleton]
  | l :: l' :: ls, hall, _ => by
    have ih := getLast?_intercalate sep (fun x hx => hall x (List.mem_cons_of_mem l hx))
      (List.cons_ne_nil l' ls)
    have hnil : (l' :: ls).getLast (List.cons_ne_nil l' ls) ≠ [] :=
      hall _ (List.mem_cons_of_mem l (List.getLast_mem _))
    have hsome : (([sep].intercalate (l' :: ls)).getLast?).isSome = true := by
      rw [ih]
      simpa using hnil
    rw [List.intercalate_cons_cons, List.getLast?_append, Option.or_of_isSome hsome, ih,
      List.getLast_cons (List.cons_ne_nil l' ls)]

theorem rstripDots_joined {ls : List (List Char)} (h : ∀ l ∈ ls, HostLabel l) (hne : ls ≠ []) :
    rstripDots (String.ofList (['.'].intercalate ls)) = String.ofList (['.'].intercalate ls) := by
  have hlast := getLast?_intercalate '.' (fun l hl => (h l hl).2.2.1) hne
  unfold rstripDots
  rw [String.toList_ofList, List.rdropWhile_eq_self_iff.mpr]
  intro hcs hdot
  rw [List.getLast?_eq_getLast_of_ne_nil hcs] at hlast
  have hmem := List.mem_of_getLast? hlast.symm
  rw [of_decide_eq_true hdot] at hmem
  exact (h _ (List.getLast_mem hne)).dot_notMem hmem

theorem HostLabels.rstripDots_eq {ls : List (List Char)} (h : HostLabels ls) :
    rstripDots (String.ofList (['.'].intercalate ls)) = String.ofList (['.'].intercalate ls) :=
  rstripDots_joined h.label h.ne_nil

/-- What a name is normalized to: its encoded labels, joined. -/
theorem normalizeDnsName_encoded {value host : String} (h : normalizeDnsName tables value = .ok host) :
    ∃ encoded, (labels (rstripDots (strLower tables (strip value)))).mapM (encodeHostLabel tables) =
        .ok encoded ∧ 2 ≤ encoded.length ∧ (['.'].intercalate encoded).length ≤ 253 ∧
      host = String.ofList (['.'].intercalate encoded) := by
  unfold normalizeDnsName at h
  simp only at h
  obtain ⟨_, h⟩ := guard_ok h
  obtain ⟨_, h⟩ := guard_ok h
  obtain ⟨_, h⟩ := guard_ok h
  obtain ⟨_, h⟩ := guard_ok h
  obtain ⟨_, h⟩ := guard_ok h
  obtain ⟨_, h⟩ := guard_ok h
  obtain ⟨htwo, h⟩ := guard_ok h
  obtain ⟨encoded, hencoded, h⟩ := bind_ok h
  obtain ⟨hshort, h⟩ := guard_ok h
  cases h
  have hlength := (forall₂_of_mapM_ok hencoded).length_eq
  exact ⟨encoded, hencoded, by omega, by omega, rfl⟩

/-- A name that was normalized is made of normal labels. -/
theorem normalizeDnsName_ok {value host : String} (h : normalizeDnsName tables value = .ok host) :
    ∃ ls, HostLabels ls ∧ host = String.ofList (['.'].intercalate ls) := by
  obtain ⟨encoded, hencoded, htwo, hshort, hhost⟩ := normalizeDnsName_encoded h
  refine ⟨encoded, ⟨htwo, ?_, hshort⟩, hhost⟩
  intro l hl
  obtain ⟨_, _, hlabel⟩ := mem_of_forall₂_right (forall₂_of_mapM_ok hencoded) hl
  exact encodeHostLabel_ok hlabel

theorem HostLabels.isWildcard_eq {ls : List (List Char)} (h : HostLabels ls) :
    isWildcard (String.ofList (['.'].intercalate ls)) = false := by
  have hstar : '*' ∉ ['.'].intercalate ls := fun hc => (h.hostChar hc).ne (by decide) rfl
  unfold isWildcard
  rw [String.toList_ofList, decide_eq_false_iff_not]
  intro htake
  apply hstar
  have hmem : '*' ∈ (['.'].intercalate ls).take 2 := by
    rw [htake]
    exact List.mem_cons_self
  exact List.mem_of_mem_take hmem

theorem hasSchemeSeparator_of_notMem : ∀ {cs : List Char}, ':' ∉ cs → hasSchemeSeparator cs = false
  | [], _ => rfl
  | c :: cs, h => by
    unfold hasSchemeSeparator
    rw [hasSchemeSeparator_of_notMem fun hc => h (List.mem_cons_of_mem c hc), Bool.or_false,
      decide_eq_false_iff_not]
    intro htake
    apply h
    have hmem : ':' ∈ (c :: cs).take 3 := by
      rw [htake]
      exact List.mem_cons_self
    exact List.mem_of_mem_take hmem

theorem HostLabels.ne_empty {ls : List (List Char)} (h : HostLabels ls) :
    String.ofList (['.'].intercalate ls) ≠ "" := by
  intro hempty
  have hlabels := h.labels_eq
  rw [hempty] at hlabels
  have hone : (labels "").length = 1 := by decide
  have htwo := h.two
  rw [← hlabels] at htwo
  omega

theorem mapM_encodeHostLabel {ls : List (List Char)} (h : ∀ l ∈ ls, HostLabel l) :
    ls.mapM (encodeHostLabel tables) = .ok ls := by
  induction ls with
  | nil => rfl
  | cons l ls ih =>
    rw [List.mapM_cons, encodeHostLabel_hostLabel (h l List.mem_cons_self), ok_bind,
      ih fun x hx => h x (List.mem_cons_of_mem l hx)]
    rfl

/-- Joined labels are not changed when they are accepted. -/
theorem normalizeDnsName_joined {ls : List (List Char)} (h : ∀ l ∈ ls, HostLabel l) (hne : ls ≠ [])
    {host : String} (hok : normalizeDnsName tables (String.ofList (['.'].intercalate ls)) = .ok host) :
    host = String.ofList (['.'].intercalate ls) := by
  have hchars : ∀ c ∈ ['.'].intercalate ls, HostChar c := fun c hc => hostChar_joined h hc
  obtain ⟨encoded, hencoded, -, -, hhost⟩ := normalizeDnsName_encoded hok
  rw [strip_hostChars hchars, strLower_hostChars hchars, rstripDots_joined h hne, labels_joined h hne,
    mapM_encodeHostLabel h] at hencoded
  cases hencoded
  exact hhost

/-- Normal labels make a name that is its own normal form. -/
theorem HostLabels.normal {ls : List (List Char)} (hls : HostLabels ls) :
    normalizeDnsName tables (String.ofList (['.'].intercalate ls)) = .ok (String.ofList (['.'].intercalate ls)) := by
  have hchars : ∀ c ∈ ['.'].intercalate ls, HostChar c := fun c hc => hls.hostChar hc
  have hnot : ∀ d : Char, d.toNat ∈ [42, 47, 58, 64] → d ∉ ['.'].intercalate ls :=
    fun d hd hmem => (hchars d hmem).ne hd rfl
  have hspace : (['.'].intercalate ls).any isSpace = false := by
    rw [List.any_eq_false]
    intro c hc
    rw [(hchars c hc).not_isSpace]
    decide
  have htwo := hls.two
  have hshort := hls.short
  unfold normalizeDnsName
  rw [strip_hostChars hchars, strLower_hostChars hchars, hls.rstripDots_eq]
  simp only [hls.labels_eq, mapM_encodeHostLabel hls.label, String.toList_ofList, hls.ne_empty,
    hls.isWildcard_eq, hspace, hasSchemeSeparator_of_notMem (hnot ':' (by decide)), hnot '/' (by decide),
    hnot '@' (by decide), hnot ':' (by decide), or_self, if_false, ok_bind, Bool.false_eq_true]
  rw [if_neg (by omega), if_neg (by omega)]

/-- **What a name is normalized to is its own normal form.** -/
theorem normalizeDnsName_normal {value host : String} (h : normalizeDnsName tables value = .ok host) :
    normalizeDnsName tables host = .ok host := by
  obtain ⟨ls, hls, rfl⟩ := normalizeDnsName_ok h
  exact hls.normal

end Normal

end NightScout
