import NightScout.Lib.CaseMaps
import NightScout.Core.Python

/-!
# Domain names

`_canonical_domain` and `_match_domain_pattern` of `recon/policy/scope.py`, with what they take from
`str.lower` and the `idna` codec. On ASCII text both are computed here. What the Unicode tables say of
other text is a parameter, `Tables`, and nothing proved of a scope depends on it.

The name a domain is compared by is its canonical form. Canonicalizing twice is not always
canonicalizing once (`"x.com\t."` loses its dot first and its tab after that), so a value is `Stable`
when it is.
-/

namespace NightScout

/-- What the standard library reads off the Unicode tables. -/
structure Tables where
  /-- `str.lower` of a text that is not ASCII. -/
  lower : String → String
  /-- `encodings.idna.ToASCII` of one label; `none` is a `UnicodeError`. -/
  toASCII : String → Option String
  /-- `unicodedata.normalize("NFKC", text)`. -/
  nfkc : String → String
  /-- Whether `urlsplit` takes a network location with brackets: it holds an IP address. -/
  bracketed : String → Bool

/-- Tables that leave a text as it is. -/
def plainTables : Tables := ⟨id, some, id, fun _ => true⟩

def isAscii (s : String) : Bool := s.toList.all fun c => c.toNat < 128

/-- `str.lower`. -/
def strLower (tables : Tables) (s : String) : String :=
  if isAscii s then String.ofList (s.toList.map Char.toLower) else tables.lower s

/-- `str.rstrip(".")`. -/
def rstripDots (s : String) : String := String.ofList (s.toList.rdropWhile (· = '.'))

/-- `str.split(".")`. -/
def labels (s : String) : List (List Char) := s.toList.splitOn '.'

/-- The separators of the `idna` codec. -/
def isIdnaDot (c : Char) : Bool :=
  c = '.' || c.toNat = 0x3002 || c.toNat = 0xFF0E || c.toNat = 0xFF61

/-- What the codec asks of the labels of an ASCII name: only the last may be empty. -/
def idnaLengthsOk : List (List Char) → Bool
  | [] => true
  | [last] => last.length < 64
  | label :: rest => 0 < label.length && label.length < 64 && idnaLengthsOk rest

/-- `s.encode("idna").decode("ascii")`. -/
def idnaEncode (tables : Tables) (s : String) : Option String :=
  if isAscii s then
    if idnaLengthsOk (labels s) then some s else none
  else
    let pieces := s.toList.splitOnP isIdnaDot
    let trailing := pieces.getLast? = some []
    let pieces := if trailing then pieces.dropLast else pieces
    let encoded := (pieces.mapM fun piece => tables.toASCII (String.ofList piece)).map fun encoded =>
      String.intercalate "." encoded ++ (if trailing then "." else "")
    encoded.filter isAscii

def canonicalDomain (tables : Tables) (value : String) : Except PyError String :=
  let domain := strLower tables (rstripDots (strip value))
  if domain = "" then .error (.valueError "domain must not be blank")
  else
    match idnaEncode tables domain with
    | none => .error (.valueError s!"invalid internationalized domain: {value}")
    | some asciiDomain =>
      if [] ∈ labels asciiDomain then .error (.valueError s!"invalid domain: {value}")
      else .ok asciiDomain

/-- `value.startswith("*.")`. -/
def isWildcard (pattern : String) : Bool := pattern.toList.take 2 = ['*', '.']

/-- `value[2:]`. -/
def suffixOf (pattern : String) : String := String.ofList (pattern.toList.drop 2)

/-- Contains `*` or `?`. -/
def hasGlob (s : String) : Bool := '*' ∈ s.toList || '?' ∈ s.toList

/-- `host.endswith("." + suffix)`: a strict subdomain of `suffix`. -/
def isSubdomain (host suffix : String) : Bool :=
  ('.' :: suffix.toList).isSuffixOf host.toList

/-- The comparison of `_match_domain_pattern`, on a canonical host. -/
def matchesHost (host pattern : String) : Bool :=
  if isWildcard pattern then host ≠ suffixOf pattern && isSubdomain host (suffixOf pattern)
  else host = pattern

def matchDomainPattern (tables : Tables) (host pattern : String) : Except PyError Bool := do
  let host ← canonicalDomain tables host
  return matchesHost host pattern

/-- A value that is its own canonical form. -/
def Stable (tables : Tables) (value : String) : Prop := canonicalDomain tables value = .ok value

instance (tables : Tables) (value : String) : Decidable (Stable tables value) :=
  inferInstanceAs (Decidable (_ = _))

/-! ## Stable names -/

section Stable

variable {tables : Tables} {value host : String}

/-- What a canonical form comes from. -/
theorem canonicalDomain_ok_iff : canonicalDomain tables value = .ok host ↔
    strLower tables (rstripDots (strip value)) ≠ "" ∧
      idnaEncode tables (strLower tables (rstripDots (strip value))) = some host ∧ [] ∉ labels host := by
  unfold canonicalDomain
  simp only
  split
  next h => simp [h]
  next h =>
    cases hencode : idnaEncode tables (strLower tables (rstripDots (strip value))) with
    | none => simp
    | some asciiDomain =>
      simp only [Option.some.injEq]
      split
      next hempty =>
        constructor
        · intro hok
          cases hok
        · rintro ⟨-, rfl, hne⟩
          exact absurd hempty hne
      next hne =>
        constructor
        · intro hok
          cases hok
          exact ⟨h, rfl, hne⟩
        · rintro ⟨-, rfl, -⟩
          rfl

theorem idnaEncode_ascii (h : idnaEncode tables value = some host) : isAscii host := by
  unfold idnaEncode at h
  split at h
  next hascii =>
    split at h
    · cases h
      exact hascii
    · cases h
  next => exact (Option.filter_eq_some_iff.mp h).2

/-- A canonical name is ASCII. -/
theorem canonicalDomain_ascii (h : canonicalDomain tables value = .ok host) : isAscii host :=
  idnaEncode_ascii (canonicalDomain_ok_iff.mp h).2.1

theorem idnaEncode_of_ascii (hascii : isAscii value) (h : idnaEncode tables value = some host) : host = value := by
  unfold idnaEncode at h
  rw [if_pos hascii] at h
  split at h
  · exact (Option.some.inj h).symm
  · cases h

theorem toList_strip (s : String) : (strip s).toList = stripChars s.toList := String.toList_ofList

theorem stripChars_sublist (cs : List Char) : (stripChars cs).Sublist cs := by
  rw [stripChars_eq_rdropWhile]
  exact (List.rdropWhile_prefix _ _).sublist.trans (List.dropWhile_suffix _).sublist

theorem isAscii_sublist {s t : String} (h : s.toList.Sublist t.toList) (ht : isAscii t) : isAscii s := by
  simp only [isAscii, List.all_eq_true] at ht ⊢
  exact fun c hc => ht c (h.subset hc)

theorem rstripDots_sublist (s : String) : (rstripDots s).toList.Sublist s.toList := by
  rw [rstripDots, String.toList_ofList]
  exact (List.rdropWhile_prefix _ _).sublist

theorem toLower_lt {c : Char} (h : c.toNat < 128) : c.toLower.toNat < 128 := by
  by_cases hupper : 65 ≤ c.toNat ∧ c.toNat ≤ 90
  · rw [Lib.toNat_toLower hupper]
    omega
  · rwa [Lib.toLower_of_not_upper hupper]

theorem isAscii_strLower (h : isAscii value) : isAscii (strLower tables value) := by
  rw [strLower, if_pos h]
  simp only [isAscii, List.all_eq_true, String.toList_ofList, List.mem_map,
    decide_eq_true_eq] at h ⊢
  rintro _ ⟨c, hc, rfl⟩
  exact toLower_lt (h c hc)

/-- A stable name has nothing to strip. -/
theorem Stable.strip_eq (h : Stable tables value) : strip value = value := by
  have hascii := canonicalDomain_ascii h
  have hsub : (rstripDots (strip value)).toList.Sublist (strip value).toList :=
    rstripDots_sublist _
  have hstrip : (strip value).toList.Sublist value.toList := by
    rw [toList_strip]
    exact stripChars_sublist _
  have hplain : isAscii (rstripDots (strip value)) :=
    isAscii_sublist (hsub.trans hstrip) hascii
  have hvalue := idnaEncode_of_ascii (isAscii_strLower hplain)
    (canonicalDomain_ok_iff.mp h).2.1
  -- lower case keeps the length, so nothing was dropped
  have hlen : value.toList.length = (rstripDots (strip value)).toList.length := by
    conv_lhs => rw [hvalue]
    rw [strLower, if_pos hplain, String.toList_ofList, List.length_map]
  have heq : (strip value).toList = value.toList := by
    apply hstrip.eq_of_length
    have h1 := hsub.length_le
    have h2 := hstrip.length_le
    omega
  exact String.toList_inj.mp heq

theorem Stable.ne_empty (h : Stable tables value) : value ≠ "" := by
  intro hempty
  have hok := canonicalDomain_ok_iff.mp h
  subst hempty
  exact hok.1 rfl

/-- The wildcard of a stable name has nothing to strip either. -/
theorem Stable.strip_wildcard (h : Stable tables value) :
    strip ("*." ++ value) = "*." ++ value := by
  have hright : List.rdropWhile isSpace value.toList = value.toList := by
    have hstripped : stripChars value.toList = value.toList := by
      rw [← toList_strip, h.strip_eq]
    rw [stripChars_eq_rdropWhile] at hstripped
    have hleft : (value.toList.dropWhile isSpace) = value.toList := by
      apply (List.dropWhile_suffix _).sublist.eq_of_length
      have hle := (List.rdropWhile_prefix isSpace (value.toList.dropWhile isSpace)).sublist.length_le
      rw [hstripped] at hle
      exact le_antisymm (List.dropWhile_suffix _).sublist.length_le hle
    rw [hleft] at hstripped
    exact hstripped
  have hne : value.toList ≠ [] := fun hnil => h.ne_empty (String.toList_eq_nil_iff.mp hnil)
  apply String.toList_inj.mp
  rw [toList_strip, stripChars_eq_rdropWhile, String.toList_append]
  have hstar : ("*.".toList ++ value.toList).dropWhile isSpace = "*.".toList ++ value.toList := by
    rfl
  rw [hstar, List.rdropWhile_eq_self_iff]
  intro hcons
  rw [List.getLast_append_of_ne_nil hcons hne]
  exact List.rdropWhile_eq_self_iff.mp hright hne

end Stable

/-! ## Wildcards -/

section Wildcards

variable {value host : String}

@[simp] theorem isWildcard_star (value : String) : isWildcard ("*." ++ value) = true := by
  simp [isWildcard, String.toList_append]

@[simp] theorem suffixOf_star (value : String) : suffixOf ("*." ++ value) = value := by
  simp [suffixOf, String.toList_append]

theorem isWildcard_of_not_hasGlob (h : hasGlob value = false) : isWildcard value = false := by
  by_contra hwild
  have htake : value.toList.take 2 = ['*', '.'] := by simpa [isWildcard] using hwild
  have hmem : '*' ∈ value.toList := List.mem_of_mem_take (by rw [htake]; exact List.mem_cons_self)
  simp [hasGlob, hmem] at h

theorem matchesHost_plain (h : hasGlob value = false) : matchesHost host value = true ↔ host = value := by
  simp [matchesHost, isWildcard_of_not_hasGlob h]

theorem matchesHost_star : matchesHost host ("*." ++ value) = true ↔
    host ≠ value ∧ isSubdomain host value = true := by
  simp [matchesHost]

end Wildcards

end NightScout
