import NightScout.Policy.ScopeAddresses
import NightScout.Policy.UrlPaths

/-!
# Canonical subjects

A subject is made canonical once, when it is built, and its value is parsed again by every rule. So
the canonical value should be a fixed point, and no rule should raise on it. Names and URLs fall
short of this: `_canonical_domain` strips white space before the trailing dots and not after them,
and `_canonical_url` puts a bracketed host back without its brackets.

What is used of the Unicode tables is stated as `IdnaTables`.
-/

namespace NightScout

open Lib

/-! ## Lower case -/

/-- `str.lower` leaves the text as it is, as far as ASCII goes. -/
def IsLowered (text : List Char) : Prop := ∀ c ∈ text, c.toLower = c

theorem isLowered_map (text : List Char) : IsLowered (text.map Char.toLower) := by
  intro c hc
  obtain ⟨d, -, rfl⟩ := List.mem_map.mp hc
  exact toLower_toLower d

theorem map_toLower_of_isLowered {text : List Char} (h : IsLowered text) : text.map Char.toLower = text := by
  rw [List.map_congr_left h, List.map_id']

theorem strLower_of_isLowered {tables : Tables} {text : String} (hascii : isAscii text = true)
    (h : IsLowered text.toList) : strLower tables text = text := by
  rw [strLower, if_pos hascii, map_toLower_of_isLowered h, String.ofList_toList]

/-! ## Names -/

/-- What is known of the Unicode tables: `str.lower` and nameprep leave no upper case letters, a label
    of `ToASCII` is shorter than 64, and a delimiter in the IDNA form of a host that `_checknetloc` has
    let pass was in the network location. -/
structure IdnaTables (tables : Tables) : Prop where
  lower : ∀ text, IsLowered (tables.lower text).toList
  toASCII_lower : ∀ label out, tables.toASCII label = some out → IsLowered label.toList →
    IsLowered out.toList
  toASCII_length : ∀ label out, tables.toASCII label = some out → out.toList.length < 64
  checked : ∀ (parts : SplitResult) host name, checkNetloc tables parts.netloc = true →
    parts.hostname tables = some host → canonicalDomain tables host = .ok name →
    ∀ c ∈ name.toList, endsNetloc c = true ∨ isRemoved c = true ∨ c = '@' → c ∈ parts.netloc.toList

section Names

variable {tables : Tables} {value name : String}

theorem isLowered_strLower (h : IdnaTables tables) (text : String) : IsLowered (strLower tables text).toList := by
  unfold strLower
  split
  · rw [String.toList_ofList]
    exact isLowered_map _
  · exact h.lower text

/-- What the codec makes of a name that is not ASCII: its encoded labels, joined. -/
theorem idnaEncode_pieces (hascii : isAscii value = false) (hencode : idnaEncode tables value = some name)
    (hlabels : [] ∉ labels name) :
    ∃ (pieces : List (List Char)) (encoded : List String), (∀ piece ∈ pieces, piece.Sublist value.toList) ∧
      pieces.mapM (fun piece => tables.toASCII (String.ofList piece)) = some encoded ∧
      name.toList = List.intercalate ['.'] (encoded.map String.toList) := by
  unfold idnaEncode at hencode
  rw [hascii] at hencode
  simp only [Bool.false_eq_true, if_false] at hencode
  obtain ⟨hmap, -⟩ := Option.filter_eq_some_iff.mp hencode
  obtain ⟨encoded, hencoded, hname⟩ := Option.map_eq_some_iff.mp hmap
  have hjoin : (String.intercalate "." encoded).toList =
      List.intercalate ['.'] (encoded.map String.toList) := String.toList_intercalate
  by_cases htrailing : (value.toList.splitOnP isIdnaDot).getLast? = some []
  · -- a trailing dot would leave an empty label
    rw [if_pos htrailing] at hname
    exfalso
    apply hlabels
    have hdot : name.toList = (String.intercalate "." encoded).toList ++ '.' :: [] := by
      rw [← hname, String.toList_append]
      rfl
    rw [labels, hdot, splitOn_append_cons]
    simp
  · rw [if_neg htrailing] at hencoded hname
    refine ⟨value.toList.splitOnP isIdnaDot, encoded, fun piece h => piece_sublist h, hencoded, ?_⟩
    rw [← hname, String.append_empty, hjoin]

theorem idnaEncode_isLowered (h : IdnaTables tables) (hvalue : IsLowered value.toList)
    (hencode : idnaEncode tables value = some name) (hlabels : [] ∉ labels name) : IsLowered name.toList := by
  cases hascii : isAscii value with
  | true => exact idnaEncode_of_ascii hascii hencode ▸ hvalue
  | false =>
    obtain ⟨pieces, encoded, hsub, hread, hname⟩ := idnaEncode_pieces hascii hencode hlabels
    have houts : ∀ out ∈ encoded, IsLowered out.toList := by
      refine (mapM_some (P := fun out : String => IsLowered out.toList) ?_ hread).2
      intro piece hpiece out hout
      apply h.toASCII_lower _ _ hout
      rw [String.toList_ofList]
      exact fun c hc => hvalue c ((hsub piece hpiece).subset hc)
    intro c hc
    rw [hname] at hc
    rcases mem_intercalate hc with hdot | ⟨text, htext, hc⟩
    · rw [List.mem_singleton.mp hdot]
      decide
    · obtain ⟨out, hout, rfl⟩ := List.mem_map.mp htext
      exact houts out hout c hc

theorem idnaLengthsOk_iff {names : List (List Char)} (h : [] ∉ names) :
    idnaLengthsOk names = true ↔ ∀ label ∈ names, label.length < 64 := by
  induction names with
  | nil => simp [idnaLengthsOk]
  | cons label rest ih =>
    rw [List.mem_cons, not_or] at h
    have hpos : 0 < label.length := List.length_pos_iff.mpr fun hnil => h.1 hnil.symm
    cases rest with
    | nil => simp [idnaLengthsOk]
    | cons next rest =>
      rw [idnaLengthsOk, Bool.and_eq_true, Bool.and_eq_true, decide_eq_true_eq, decide_eq_true_eq,
        ih h.2, List.forall_mem_cons (a := label)]
      · exact ⟨fun ⟨⟨_, hlt⟩, hrest⟩ => ⟨hlt, hrest⟩, fun ⟨hlt, hrest⟩ => ⟨⟨hpos, hlt⟩, hrest⟩⟩
      · exact fun heq => by cases heq

/-- The labels of an encoded name are short. -/
theorem idnaEncode_lengths (h : IdnaTables tables) (hencode : idnaEncode tables value = some name)
    (hlabels : [] ∉ labels name) : ∀ label ∈ labels name, label.length < 64 := by
  cases hascii : isAscii value with
  | true =>
    have hsame := idnaEncode_of_ascii hascii hencode
    unfold idnaEncode at hencode
    rw [if_pos hascii] at hencode
    split at hencode
    next hok =>
      rw [hsame] at hlabels ⊢
      exact (idnaLengthsOk_iff hlabels).mp hok
    · cases hencode
  | false =>
    obtain ⟨pieces, encoded, -, hread, hname⟩ := idnaEncode_pieces hascii hencode hlabels
    have houts : ∀ out ∈ encoded, out.toList.length < 64 := by
      refine (mapM_some (P := fun out : String => out.toList.length < 64) ?_ hread).2
      intro piece _ out hout
      exact h.toASCII_length _ _ hout
    intro label hlabel
    by_cases hnil : encoded.map String.toList = []
    · rw [labels, hname, hnil] at hlabel
      simp at hlabel
      simp [hlabel]
    · rw [labels, hname, splitOn_join hnil] at hlabel
      obtain ⟨text, htext, hlabel⟩ := List.mem_flatMap.mp hlabel
      obtain ⟨out, hout, rfl⟩ := List.mem_map.mp htext
      exact lt_of_le_of_lt (splitOn_sublist hlabel).length_le (houts out hout)

theorem rstripDots_eq_self (h : [] ∉ labels name) : rstripDots name = name := by
  apply String.toList_inj.mp
  rw [rstripDots, String.toList_ofList, List.rdropWhile_eq_self_iff]
  intro hne hdot
  apply h
  obtain ⟨front, hfront⟩ : ∃ front, name.toList = front ++ '.' :: [] := by
    refine ⟨name.toList.dropLast, ?_⟩
    rw [← of_decide_eq_true hdot]
    exact (List.dropLast_append_getLast hne).symm
  rw [labels, hfront, splitOn_append_cons]
  simp

theorem ne_empty_of_labels (h : [] ∉ labels name) : name ≠ "" := by
  rintro rfl
  apply h
  decide

/-- A name in lower case, with nonempty short labels and nothing to strip, is stable. -/
theorem stable_of {name : String} (hascii : isAscii name = true) (hlower : IsLowered name.toList)
    (hlabels : [] ∉ labels name) (hlengths : ∀ label ∈ labels name, label.length < 64)
    (hstrip : strip name = name) : Stable tables name := by
  have hsame : strLower tables (rstripDots (strip name)) = name := by
    rw [hstrip, rstripDots_eq_self hlabels, strLower_of_isLowered hascii hlower]
  apply canonicalDomain_ok_iff.mpr
  rw [hsame]
  refine ⟨ne_empty_of_labels hlabels, ?_, hlabels⟩
  rw [idnaEncode, if_pos hascii, if_pos ((idnaLengthsOk_iff hlabels).mpr hlengths)]

/-- What a canonical name is. -/
structure CanonicalName (name : String) : Prop where
  ascii : isAscii name = true
  lower : IsLowered name.toList
  nonempty : [] ∉ NightScout.labels name
  lengths : ∀ label ∈ NightScout.labels name, label.length < 64

theorem canonicalDomain_name (h : IdnaTables tables) (hname : canonicalDomain tables value = .ok name) :
    CanonicalName name := by
  obtain ⟨-, hencode, hlabels⟩ := canonicalDomain_ok_iff.mp hname
  exact ⟨idnaEncode_ascii hencode, idnaEncode_isLowered h (isLowered_strLower h _) hencode hlabels,
    hlabels, idnaEncode_lengths h hencode hlabels⟩

/-- **A canonical name is a fixed point exactly if it has nothing to strip.** -/
theorem stable_iff (h : CanonicalName name) : Stable tables name ↔ strip name = name :=
  ⟨Stable.strip_eq, stable_of h.ascii h.lower h.nonempty h.lengths⟩

end Names

/-! ## Network locations -/

/-- The port as a canonical network location shows it. -/
def shownPort (scheme : String) (port : Option ℕ) : Option ℕ :=
  port.filter fun port => !isDefaultPort scheme port

/-- A port behind a host. -/
def portText : Option ℕ → List Char
  | none => []
  | some port => ':' :: Nat.toDigits 10 port

theorem canonicalNetloc_toList (scheme host : String) (port : Option ℕ) :
    (canonicalNetloc scheme host port).toList = host.toList ++ portText (shownPort scheme port) := by
  cases port with
  | none => simp [canonicalNetloc, shownPort, portText]
  | some port =>
    cases hdefault : isDefaultPort scheme port with
    | true => simp [canonicalNetloc, shownPort, portText, hdefault, Option.filter]
    | false =>
      simp [canonicalNetloc, shownPort, portText, hdefault, Option.filter, String.toList_append]
      rfl

/-- A host that is read back from a network location. -/
structure PlainHost (host : String) : Prop extends CanonicalName host where
  stripped : strip host = host
  plain : ∀ c ∈ host.toList, c ≠ ':' ∧ c ≠ '[' ∧ c ≠ ']'

/-- A network location that is put together from a plain host and a port. -/
def PlainNetloc (scheme netloc : String) : Prop :=
  ∃ host port, PlainHost host ∧ (∀ p ∈ port, p ≤ 65535) ∧ netloc = canonicalNetloc scheme host port

section Netlocs

variable {tables : Tables} {scheme host : String} {port : Option ℕ} {parts : SplitResult}

theorem isDigit_portText {c : Char} (h : c ∈ portText port) : c = ':' ∨ c.isDigit = true := by
  cases port with
  | none => cases h
  | some port =>
    rcases List.mem_cons.mp h with hcolon | hdigit
    · exact .inl hcolon
    · exact .inr (Nat.isDigit_of_mem_toDigits (by decide) (by decide) hdigit)

theorem rpartition_of_notMem {sep : Char} {text : List Char} (h : sep ∉ text) : (rpartition sep text).2.2 = text := by
  have hall : (text.reverse.takeWhile (· ≠ sep)) = text.reverse := by
    rw [List.takeWhile_eq_self_iff]
    intro c hc
    rw [decide_eq_true_eq]
    rintro rfl
    exact h (List.mem_reverse.mp hc)
  simp only [rpartition, hall, List.reverse_reverse]

/-- Host and port of a network location without user information and brackets. -/
theorem hostInfo_plain (huser : '@' ∉ parts.netloc.toList) (hbracket : '[' ∉ parts.netloc.toList) :
    parts.hostInfo = ((partition ':' parts.netloc.toList).1, (partition ':' parts.netloc.toList).2.2) := by
  unfold SplitResult.hostInfo
  simp only [rpartition_of_notMem huser, partition_of_notMem hbracket, Bool.false_eq_true, if_false]

/-- A bracketed host ends where the bracket is closed. -/
theorem hostInfo_bracketed (hbracket : '[' ∈ (rpartition '@' parts.netloc.toList).2.2) : ']' ∉ parts.hostInfo.1 := by
  intro hin
  unfold SplitResult.hostInfo at hin
  have hfound : (partition '[' (rpartition '@' parts.netloc.toList).2.2).2.1 = true :=
    decide_eq_true hbracket
  simp only [hfound, if_true] at hin
  exact (mem_partition.1 hin).1 rfl

theorem hostInfo_canonical (hnetloc : parts.netloc.toList = host.toList ++ portText port)
    (huser : '@' ∉ parts.netloc.toList) (hplain : ∀ c ∈ host.toList, c ≠ ':' ∧ c ≠ '[' ∧ c ≠ ']') :
    parts.hostInfo = (host.toList, (portText port).tail) := by
  have hcolon : ':' ∉ host.toList := fun hc => (hplain _ hc).1 rfl
  have hbracket : '[' ∉ parts.netloc.toList := by
    rw [hnetloc]
    intro hc
    rcases List.mem_append.mp hc with hc | hc
    · exact (hplain _ hc).2.1 rfl
    · rcases isDigit_portText hc with hc | hc
      · cases hc
      · cases hc
  rw [hostInfo_plain huser hbracket, hnetloc]
  cases port with
  | none =>
    rw [portText, List.append_nil, partition_of_notMem hcolon]
    rfl
  | some port =>
    rw [portText, partition_eq hcolon]
    rfl

/-- A port that is shown is read back. -/
theorem port_canonical (hinfo : parts.hostInfo.2 = (portText port).tail) (hport : ∀ p ∈ port, p ≤ 65535) :
    parts.port = .ok port := by
  unfold SplitResult.port
  rw [hinfo]
  cases port with
  | none => rfl
  | some port =>
    have hdigits : (Nat.toDigits 10 port).all Char.isDigit = true :=
      List.all_eq_true.mpr fun c hc => Nat.isDigit_of_mem_toDigits (by decide) (by decide) hc
    have hvalue : (Nat.toDigits 10 port).foldl (fun n c => 10 * n + (c.toNat - 48)) 0 = port :=
      Nat.ofDigitChars_ten_toDigits
    simp [portText, Nat.toDigits_ne_nil, hdigits, hvalue, hport port rfl]

theorem hostname_lowered (hhost : parts.hostInfo.1 = host.toList) (hne : host ≠ "")
    (hascii : isAscii host = true) (hlower : IsLowered host.toList) : parts.hostname tables = some host := by
  have hne' : host.toList ≠ [] := fun hnil => hne (String.toList_eq_nil_iff.mp hnil)
  unfold SplitResult.hostname
  rw [hhost, if_neg hne']
  have hpart : ∀ {text : List Char}, text.Sublist host.toList →
      strLower tables (String.ofList text) = String.ofList text := by
    intro text hsub
    apply strLower_of_isLowered
    · exact isAscii_sublist (by rwa [String.toList_ofList]) hascii
    · rw [String.toList_ofList]
      exact fun c hc => hlower c (hsub.subset hc)
  by_cases hpercent : '%' ∈ host.toList
  · obtain ⟨name, zone, hsplit, hname⟩ := List.eq_append_cons_of_mem hpercent
    have hsub : name.Sublist host.toList := by
      rw [hsplit]
      exact List.sublist_append_left _ _
    rw [hsplit, partition_eq hname]
    simp only [hpart hsub, if_true]
    congr 1
    apply String.toList_inj.mp
    rw [hsplit]
    simp [String.toList_append]
  · have hself := hpart (List.Sublist.refl host.toList)
    rw [String.ofList_toList] at hself
    rw [partition_of_notMem hpercent]
    simp only [String.ofList_toList, hself, Bool.false_eq_true, if_false, String.append_empty]

/-- What a URL with a canonical form is read as. -/
structure UrlRead (tables : Tables) (value : String) (parsed : SplitResult) (rawHost host : String)
    (port : Option ℕ) : Prop where
  split : urlsplit tables value = .ok parsed
  http : IsHttp parsed.scheme
  hostname : parsed.hostname tables = some rawHost
  userinfo : parsed.hasUserinfo = false
  canonical : canonicalDomain tables rawHost = .ok host
  port : parsed.port = .ok port

theorem canonicalUrl_read {value url : String} : canonicalUrl tables value = .ok url ↔
    ∃ parsed rawHost host port, UrlRead tables value parsed rawHost host port ∧
      url = canonicalParts parsed host port := by
  rw [canonicalUrl_ok_iff]
  constructor
  · rintro ⟨parsed, rawHost, host, port, hsplit, hhttp, hname, huser, hcanonical, hport, hurl⟩
    exact ⟨parsed, rawHost, host, port, ⟨hsplit, hhttp, hname, huser, hcanonical, hport⟩, hurl⟩
  · rintro ⟨parsed, rawHost, host, port, ⟨hsplit, hhttp, hname, huser, hcanonical, hport⟩, hurl⟩
    exact ⟨parsed, rawHost, host, port, hsplit, hhttp, hname, huser, hcanonical, hport, hurl⟩

variable {value rawHost : String} {parsed : SplitResult}

theorem netloc_ne_empty_of_hostname (h : parsed.hostname tables = some rawHost) : parsed.netloc ≠ "" := by
  intro hempty
  unfold SplitResult.hostname SplitResult.hostInfo at h
  rw [hempty] at h
  cases h

/-- The parts a canonical URL is put together from. -/
def canonicalOf (parsed : SplitResult) (host : String) (port : Option ℕ) : SplitResult :=
  { parsed with netloc := canonicalNetloc parsed.scheme host port, path := pathOf parsed, fragment := "" }

theorem canonicalParts_eq (parsed : SplitResult) (host : String) (port : Option ℕ) :
    canonicalParts parsed host port = urlunsplit (canonicalOf parsed host port) := rfl

theorem digit_clean {c : Char} (h : c.isDigit = true) :
    endsNetloc c = false ∧ isRemoved c = false ∧ c ≠ '@' ∧ c ≠ '[' ∧ c ≠ ']' ∧ c ≠ ':' := by
  have hne : ∀ d : Char, d.isDigit = false → c ≠ d := by
    rintro d hd rfl
    rw [hd] at h
    cases h
  refine ⟨?_, ?_, hne _ (by decide), hne _ (by decide), hne _ (by decide), hne _ (by decide)⟩
  · simp [endsNetloc, hne '/' (by decide), hne '?' (by decide), hne '#' (by decide)]
  · simp [isRemoved, hne '\t' (by decide), hne '\r' (by decide), hne '\n' (by decide)]

theorem portText_clean {c : Char} (h : c ∈ portText port) :
    endsNetloc c = false ∧ isRemoved c = false ∧ c ≠ '@' ∧ c ≠ '[' ∧ c ≠ ']' := by
  rcases isDigit_portText h with rfl | hdigit
  · decide
  · obtain ⟨hends, hremoved, hat, hopen, hclose, -⟩ := digit_clean hdigit
    exact ⟨hends, hremoved, hat, hopen, hclose⟩

/-- The canonical host brings no delimiter into the network location. -/
theorem UrlRead.netloc_clean (h : UrlRead tables value parsed rawHost host port) (htables : IdnaTables tables) :
    (∀ c ∈ (canonicalNetloc parsed.scheme host port).toList, endsNetloc c = false ∧ isRemoved c = false ∧ c ≠ '@') ∧
    (∀ c ∈ host.toList, endsNetloc c = false ∧ isRemoved c = false ∧ c ≠ '@') := by
  obtain ⟨rest, hrest, hafter⟩ := urlsplit_ok h.split (netloc_ne_empty_of_hostname h.hostname)
  obtain ⟨hnetloc, hcheck, -⟩ := splitAfter_clean hrest hafter
  have hat : '@' ∉ parsed.netloc.toList := of_decide_eq_false h.userinfo
  have hhost : ∀ c ∈ host.toList, endsNetloc c = false ∧ isRemoved c = false ∧ c ≠ '@' := by
    intro c hc
    have hin := htables.checked parsed rawHost host hcheck h.hostname h.canonical c hc
    refine ⟨?_, ?_, ?_⟩
    · by_contra hends
      rw [Bool.not_eq_false] at hends
      have hnot := (hnetloc c (hin (.inl hends))).1
      rw [hends] at hnot
      cases hnot
    · by_contra hremoved
      rw [Bool.not_eq_false] at hremoved
      have hnot := (hnetloc c (hin (.inr (.inl hremoved)))).2
      rw [hremoved] at hnot
      cases hnot
    · rintro rfl
      exact hat (hin (.inr (.inr rfl)))
  refine ⟨?_, hhost⟩
  intro c hc
  rw [canonicalNetloc_toList] at hc
  rcases List.mem_append.mp hc with hc | hc
  · exact hhost c hc
  · obtain ⟨hends, hremoved, hat, -⟩ := portText_clean hc
    exact ⟨hends, hremoved, hat⟩

theorem isAscii_iff {text : String} : isAscii text = true ↔ ∀ c ∈ text.toList, c.toNat < 128 := by
  simp [isAscii]

theorem portText_ascii {c : Char} (h : c ∈ portText port) : c.toNat < 128 := by
  rcases isDigit_portText h with rfl | hdigit
  · decide
  · simp only [Char.isDigit, Bool.and_eq_true, decide_eq_true_eq] at hdigit
    have hle : c.toNat ≤ 57 := UInt32.le_iff_toNat_le.mp hdigit.2
    omega

theorem isAscii_canonicalNetloc (h : isAscii host = true) : isAscii (canonicalNetloc scheme host port) = true := by
  rw [isAscii_iff] at h ⊢
  intro c hc
  rw [canonicalNetloc_toList] at hc
  rcases List.mem_append.mp hc with hc | hc
  · exact h c hc
  · exact portText_ascii hc

theorem shownPort_shownPort (scheme : String) (port : Option ℕ) :
    shownPort scheme (shownPort scheme port) = shownPort scheme port := by
  cases port with
  | none => rfl
  | some port => cases h : isDefaultPort scheme port <;> simp [shownPort, Option.filter, h]

theorem canonicalNetloc_shownPort (scheme host : String) (port : Option ℕ) :
    canonicalNetloc scheme host (shownPort scheme port) = canonicalNetloc scheme host port := by
  apply String.toList_inj.mp
  rw [canonicalNetloc_toList, canonicalNetloc_toList, shownPort_shownPort]

theorem pathOf_ne_empty (parts : SplitResult) : pathOf parts ≠ "" := by
  unfold pathOf
  split
  · decide
  next h => exact h

/-- The rest of a URL with a host is clean whatever its host is. -/
theorem rest_clean_of_split (hsplit : urlsplit tables value = .ok parsed) (hhost : parsed.hostname tables = some rawHost) :
    (pathOf parsed).toList.head? = some '/' ∧ (∀ c ∈ (pathOf parsed).toList, c ≠ '?' ∧ c ≠ '#' ∧ isRemoved c = false) ∧
    (∀ c ∈ parsed.query.toList, c ≠ '#' ∧ isRemoved c = false) := by
  obtain ⟨rest, hrest, hafter⟩ := urlsplit_ok hsplit (netloc_ne_empty_of_hostname hhost)
  obtain ⟨-, -, hpath, hquery⟩ := splitAfter_clean hrest hafter
  refine ⟨?_, ?_, hquery⟩
  · unfold pathOf
    split
    · rfl
    next hne => exact (splitAfter_path hafter).resolve_left hne
  · unfold pathOf
    split
    · intro c hc
      obtain rfl := List.mem_singleton.mp hc
      decide
    · exact hpath

theorem plainNetloc_chars {netloc : String} (h : PlainNetloc scheme netloc) :
    isAscii netloc = true ∧ ∀ c ∈ netloc.toList, c ≠ '[' ∧ c ≠ ']' := by
  obtain ⟨host, port, hhost, -, rfl⟩ := h
  refine ⟨isAscii_canonicalNetloc hhost.ascii, ?_⟩
  intro c hc
  rw [canonicalNetloc_toList] at hc
  rcases List.mem_append.mp hc with hc | hc
  · exact (hhost.plain c hc).2
  · exact (portText_clean hc).2.2.2

/-- **A canonical URL with a plain network location is read back as the parts it was put together
    from.** -/
theorem UrlRead.split_canonical (h : UrlRead tables value parsed rawHost host port) (htables : IdnaTables tables)
    (hplain : PlainNetloc parsed.scheme (canonicalNetloc parsed.scheme host port)) :
    urlsplit tables (canonicalParts parsed host port) = .ok (canonicalOf parsed host port) := by
  obtain ⟨habs, hpath, hquery⟩ := rest_clean_of_split h.split h.hostname
  obtain ⟨hascii, hbrackets⟩ := plainNetloc_chars hplain
  rw [canonicalParts_eq]
  apply urlsplit_urlunsplit
  refine ⟨h.http, ?_, ?_, .inr habs, hpath, hquery, rfl⟩
  · intro c hc
    obtain ⟨hends, hremoved, -⟩ := (h.netloc_clean htables).1 c hc
    exact ⟨hends, hremoved, hbrackets c hc⟩
  · rw [canonicalOf, checkNetloc, if_pos hascii]

/-- Such a URL is canonical. -/
theorem UrlRead.fixed (h : UrlRead tables value parsed rawHost host port) (htables : IdnaTables tables)
    (hplain : PlainNetloc parsed.scheme (canonicalNetloc parsed.scheme host port)) :
    ∃ name shown, UrlRead tables (canonicalParts parsed host port) (canonicalOf parsed host port)
      name name shown ∧ canonicalParts (canonicalOf parsed host port) name shown = canonicalParts parsed host port := by
  have hsplit := h.split_canonical htables hplain
  obtain ⟨name, shown, hname, hshown, hnetloc⟩ := hplain
  have huser : '@' ∉ (canonicalOf parsed host port).netloc.toList :=
    fun hc => ((h.netloc_clean htables).1 _ hc).2.2 rfl
  have htext : (canonicalOf parsed host port).netloc.toList =
      name.toList ++ portText (shownPort parsed.scheme shown) := by
    rw [canonicalOf, hnetloc, canonicalNetloc_toList]
  have hinfo := hostInfo_canonical htext huser hname.plain
  have hbound : ∀ p ∈ shownPort parsed.scheme shown, p ≤ 65535 := by
    intro p hp
    exact hshown p (Option.filter_eq_some_iff.mp hp).1
  refine ⟨name, shownPort parsed.scheme shown, ⟨hsplit, h.http, ?_, decide_eq_false huser, ?_, ?_⟩, ?_⟩
  · exact hostname_lowered (by rw [hinfo]) (ne_empty_of_labels hname.nonempty) hname.ascii hname.lower
  · exact (stable_iff hname.toCanonicalName).mpr hname.stripped
  · exact port_canonical (by rw [hinfo]) hbound
  · have hpath : pathOf (canonicalOf parsed host port) = pathOf parsed :=
      if_neg (pathOf_ne_empty parsed)
    have hsame : canonicalNetloc parsed.scheme name (shownPort parsed.scheme shown) =
        canonicalNetloc parsed.scheme host port := by
      rw [canonicalNetloc_shownPort, ← hnetloc]
    simp only [canonicalParts, hpath]
    rw [show (canonicalOf parsed host port).scheme = parsed.scheme from rfl, hsame]
    rfl

/-! ### A fixed point has a plain network location -/

/-- A character that no upper case letter is turned into. -/
theorem toLower_inj {c d : Char} (h : d.toLower = c) (hc : c.isLower = false) : d = c := by
  by_cases hupper : 65 ≤ d.toNat ∧ d.toNat ≤ 90
  · have hcode := toNat_toLower hupper
    rw [h] at hcode
    have hlower : c.isLower = true := isLower_iff.mpr (by omega)
    rw [hlower] at hc
    cases hc
  · rwa [toLower_of_not_upper hupper] at h

theorem mem_hostInfo {c : Char} (h : c ∈ parts.hostInfo.1) : c ∈ parts.netloc.toList := by
  have hafter : ∀ {d : Char}, d ∈ (rpartition '@' parts.netloc.toList).2.2 → d ∈ parts.netloc.toList := by
    intro d hd
    exact List.mem_reverse.mp ((List.takeWhile_prefix _).subset (List.mem_reverse.mp hd))
  unfold SplitResult.hostInfo at h
  simp only at h
  split at h
  · exact hafter (mem_partition.2 (mem_partition.1 h).2)
  · exact hafter (mem_partition.1 h).2

/-- `str.lower` on what is taken from a network location is lower case letter by letter. -/
def LowersPlainly (tables : Tables) (netloc : String) : Prop :=
  ∀ text : String, (∀ c ∈ text.toList, c ∈ netloc.toList) →
    (strLower tables text).toList = text.toList.map Char.toLower

theorem lowersPlainly_of_ascii {netloc : String} (h : isAscii netloc = true) : LowersPlainly tables netloc := by
  intro text htext
  have hascii : isAscii text = true := isAscii_iff.mpr fun c hc => isAscii_iff.mp h c (htext c hc)
  rw [strLower, if_pos hascii, String.toList_ofList]

/-- The characters of a host name. -/
theorem mem_hostname (hlowers : LowersPlainly tables parts.netloc)
    (hname : parts.hostname tables = some rawHost) {c : Char} (hc : c ∈ rawHost.toList) :
    c = '%' ∨ ∃ d ∈ parts.hostInfo.1, c = d ∨ d.toLower = c := by
  unfold SplitResult.hostname at hname
  simp only at hname
  split at hname
  · cases hname
  obtain rfl := Option.some.inj hname
  have hplain := hlowers (String.ofList (partition '%' parts.hostInfo.1).1) (by
    intro d hd
    rw [String.toList_ofList] at hd
    exact mem_hostInfo (mem_partition.1 hd).2)
  have hname' : ∀ d, d ∈ (partition '%' parts.hostInfo.1).1 → d ∈ parts.hostInfo.1 :=
    fun d hd => (mem_partition.1 hd).2
  have hzone : ∀ d, d ∈ (partition '%' parts.hostInfo.1).2.2 → d ∈ parts.hostInfo.1 :=
    fun d hd => mem_partition.2 hd
  generalize partition '%' parts.hostInfo.1 = pieces at hc hplain hname' hzone
  obtain ⟨name, percent, zone⟩ := pieces
  simp only at hc hplain hname' hzone
  rw [String.toList_append, hplain, String.toList_ofList] at hc
  rcases List.mem_append.mp hc with hc | hc
  · obtain ⟨d, hd, hlower⟩ := List.mem_map.mp hc
    exact .inr ⟨d, hname' d hd, .inr hlower⟩
  · cases percent with
    | false => simp at hc
    | true =>
      simp only [if_true, String.toList_append, String.toList_ofList] at hc
      rcases List.mem_append.mp hc with hc | hc
      · exact .inl (List.mem_singleton.mp hc)
      · exact .inr ⟨c, hzone c hc, .inl rfl⟩

theorem isAscii_hostname (hascii : isAscii parts.netloc = true)
    (hname : parts.hostname tables = some rawHost) : isAscii rawHost = true := by
  rw [isAscii_iff]
  intro c hc
  rcases mem_hostname (lowersPlainly_of_ascii hascii) hname hc with rfl | ⟨d, hd, hcase⟩
  · decide
  · have hlt := isAscii_iff.mp hascii d (mem_hostInfo hd)
    rcases hcase with rfl | rfl
    · exact hlt
    · exact toLower_lt hlt

/-- What is neither a letter nor `%` comes into a canonical host from the host of the URL. -/
theorem mem_hostInfo_of_canonical (hascii : isAscii parts.netloc = true)
    (hname : parts.hostname tables = some rawHost) (hcanonical : canonicalDomain tables rawHost = .ok host)
    {c : Char} (hc : c ∈ host.toList) (hlower : c.isLower = false) (hpercent : c ≠ '%') : c ∈ parts.hostInfo.1 := by
  have hraw := isAscii_hostname hascii hname
  have hsub : (rstripDots (strip rawHost)).toList.Sublist rawHost.toList := by
    refine (rstripDots_sublist _).trans ?_
    rw [toList_strip]
    exact stripChars_sublist _
  have hplain : isAscii (rstripDots (strip rawHost)) = true := isAscii_sublist hsub hraw
  rw [idnaEncode_of_ascii (isAscii_strLower hplain) (canonicalDomain_ok_iff.mp hcanonical).2.1,
    strLower, if_pos hplain, String.toList_ofList] at hc
  obtain ⟨d, hd, hdc⟩ := List.mem_map.mp hc
  obtain rfl := toLower_inj hdc hlower
  rcases mem_hostname (lowersPlainly_of_ascii hascii) hname (hsub.subset hd) with heq | ⟨e, he, hcase⟩
  · exact absurd heq hpercent
  · rcases hcase with rfl | hcase
    · exact he
    · exact toLower_inj hcase hlower ▸ he

/-- What follows the slashes of a canonical URL. -/
def behindSlashes (parsed : SplitResult) (host : String) (port : Option ℕ) : List Char :=
  (canonicalNetloc parsed.scheme host port).toList ++ tailOf (canonicalOf parsed host port)

theorem canonicalParts_toList (h : UrlRead tables value parsed rawHost host port) : canonicalParts parsed host port =
      String.ofList (parsed.scheme.toList ++ ':' :: '/' :: '/' :: behindSlashes parsed host port) := by
  have habs : (canonicalOf parsed host port).path.toList.head? = some '/' := (rest_clean_of_split h.split h.hostname).1
  have hne : (canonicalOf parsed host port).scheme ≠ "" := h.http.ne_empty
  rw [canonicalParts_eq, urlunsplit_toList hne (.inr habs) rfl, List.append_assoc]
  rfl

theorem takeWhile_behindSlashes (h : UrlRead tables value parsed rawHost host port) (htables : IdnaTables tables) :
    (behindSlashes parsed host port).takeWhile (fun c => !endsNetloc c) =
      (canonicalNetloc parsed.scheme host port).toList := by
  apply takeWhile_append_stop
  · intro c hc
    rw [((h.netloc_clean htables).1 c hc).1]
    rfl
  · right
    have habs := (rest_clean_of_split h.split h.hostname).1
    unfold tailOf
    rw [show (canonicalOf parsed host port).path = pathOf parsed from rfl]
    cases hpath : (pathOf parsed).toList with
    | nil =>
      rw [hpath] at habs
      cases habs
    | cons c path =>
      rw [hpath] at habs
      obtain rfl := Option.some.inj habs
      exact ⟨'/', _, rfl, rfl⟩

/-- A URL of the two schemes tells its scheme. -/
theorem scheme_inj {scheme scheme' : String} (h : IsHttp scheme) (h' : IsHttp scheme')
    {rest rest' : List Char} (heq : scheme.toList ++ ':' :: '/' :: '/' :: rest =
      scheme'.toList ++ ':' :: '/' :: '/' :: rest') : scheme = scheme' ∧ rest = rest' := by
  rcases h with rfl | rfl <;> rcases h' with rfl | rfl <;> simp_all

/-- A canonical URL tells its scheme and its network location. -/
theorem canonicalParts_inj {parsed' : SplitResult} {host' rawHost' value' : String} {port' : Option ℕ}
    (h : UrlRead tables value parsed rawHost host port)
    (h' : UrlRead tables value' parsed' rawHost' host' port') (htables : IdnaTables tables)
    (heq : canonicalParts parsed host port = canonicalParts parsed' host' port') : parsed.scheme = parsed'.scheme ∧
      canonicalNetloc parsed.scheme host port = canonicalNetloc parsed'.scheme host' port' := by
  rw [canonicalParts_toList h, canonicalParts_toList h'] at heq
  obtain ⟨hscheme, hrest⟩ := scheme_inj h.http h'.http (String.ofList_injective heq)
  refine ⟨hscheme, String.toList_inj.mp ?_⟩
  rw [← takeWhile_behindSlashes h htables, ← takeWhile_behindSlashes h' htables, hrest]

/-- The network location that a canonical URL is read with. -/
theorem netloc_of_split (h : UrlRead tables value parsed rawHost host port) (htables : IdnaTables tables)
    (hsplit : urlsplit tables (canonicalParts parsed host port) = .ok parts) :
    parts.netloc = canonicalNetloc parsed.scheme host port ∧ ('[' ∈ parts.netloc.toList ∨ ']' ∈ parts.netloc.toList →
        '[' ∈ parts.netloc.toList ∧ ']' ∈ parts.netloc.toList) := by
  rw [canonicalParts_toList h, urlsplit_http h.http] at hsplit
  have hkept : (behindSlashes parsed host port).filter (fun c => !isRemoved c) =
      behindSlashes parsed host port := by
    obtain ⟨-, hpath, hquery⟩ := rest_clean_of_split h.split h.hostname
    rw [List.filter_eq_self]
    intro c hc
    rw [Bool.not_eq_true']
    rcases List.mem_append.mp hc with hc | hc
    · exact ((h.netloc_clean htables).1 c hc).2.1
    rcases List.mem_append.mp hc with hc | hc
    · exact (hpath c hc).2.2
    · split at hc
      · cases hc
      · rcases List.mem_cons.mp hc with rfl | hc
        · rfl
        · exact (hquery c hc).2
  rw [hkept] at hsplit
  have hnetloc := splitAfter_netloc hsplit
  rw [takeWhile_behindSlashes h htables] at hnetloc
  refine ⟨String.toList_inj.mp hnetloc, ?_⟩
  exact splitAfter_brackets hsplit

theorem port_le {p : ℕ} (h : parts.port = .ok (some p)) : p ≤ 65535 := by
  unfold SplitResult.port at h
  simp only at h
  split at h
  · cases h
  split at h
  · cases h
  split at h
  next hle =>
    obtain rfl := Option.some.inj (Except.ok.inj h)
    exact hle
  · cases h

/-- **A canonical URL that is a fixed point has a plain network location.** -/
theorem UrlRead.plain_of_fixed (h : UrlRead tables value parsed rawHost host port) (htables : IdnaTables tables)
    (hfixed : canonicalUrl tables (canonicalParts parsed host port) = .ok (canonicalParts parsed host port)) :
    PlainNetloc parsed.scheme (canonicalNetloc parsed.scheme host port) := by
  obtain ⟨parts, raw, name, shown, hread, heq⟩ := canonicalUrl_read.mp hfixed
  obtain ⟨hscheme, hsame⟩ := canonicalParts_inj h hread htables heq
  obtain ⟨hnetloc, hpair⟩ := netloc_of_split h htables hread.split
  have hhost := canonicalDomain_name htables h.canonical
  have hname := canonicalDomain_name htables hread.canonical
  have hascii : isAscii parts.netloc = true := by
    rw [hnetloc]
    exact isAscii_canonicalNetloc hhost.ascii
  have htext : parts.netloc.toList = name.toList ++ portText (shownPort parts.scheme shown) := by
    rw [hnetloc, hsame, canonicalNetloc_toList]
  have huser : '@' ∉ parts.netloc.toList := of_decide_eq_false hread.userinfo
  have hfrom : ∀ c ∈ name.toList, c.isLower = false → c ≠ '%' → c ∈ parts.hostInfo.1 :=
    fun c hc hlower hpercent => mem_hostInfo_of_canonical hascii hread.hostname hread.canonical hc hlower hpercent
  -- a bracket would be a pair of them, and the host is read up to the closing one
  have hopen : '[' ∉ parts.netloc.toList := by
    intro hin
    obtain ⟨-, hclose⟩ := hpair (.inl hin)
    rw [htext] at hclose
    rcases List.mem_append.mp hclose with hclose | hclose
    · exact hostInfo_bracketed (by rwa [rpartition_of_notMem huser]) (hfrom _ hclose (by decide) (by decide))
    · exact (portText_clean hclose).2.2.2.2 rfl
  have hclose : ']' ∉ parts.netloc.toList := fun hin => hopen (hpair (.inr hin)).1
  have hinfo := hostInfo_plain huser hopen
  have hcolon : ':' ∉ name.toList := by
    intro hin
    have hmem := hfrom _ hin (by decide) (by decide)
    rw [hinfo] at hmem
    exact (mem_partition.1 hmem).1 rfl
  have hplain : ∀ c ∈ name.toList, c ≠ ':' ∧ c ≠ '[' ∧ c ≠ ']' := by
    intro c hc
    have hin : c ∈ parts.netloc.toList := by
      rw [htext]
      exact List.mem_append_left _ hc
    refine ⟨?_, ?_, ?_⟩
    · rintro rfl
      exact hcolon hc
    · rintro rfl
      exact hopen hin
    · rintro rfl
      exact hclose hin
  have hraw : raw = name := by
    have hinfo' := hostInfo_canonical htext huser hplain
    have hself : parts.hostname tables = some name :=
      hostname_lowered (by rw [hinfo']) (ne_empty_of_labels hname.nonempty) hname.ascii hname.lower
    exact Option.some.inj (hread.hostname.symm.trans hself)
  have hstable : Stable tables name := by
    have hcanonical := hread.canonical
    rw [hraw] at hcanonical
    exact hcanonical
  refine ⟨name, shown, ⟨hname, hstable.strip_eq, hplain⟩, ?_, ?_⟩
  · intro p hp
    exact port_le (hread.port.trans (congrArg Except.ok hp))
  · rw [hsame, hscheme]

end Netlocs

/-! ## Subjects -/

section Subjects

variable {tables : Tables} {kind : ScopeAssetKind} {value : String} {subject : ScopeSubject}
  {rule : ScopeRule} {rules : List ScopeRule}

/-- The value is its own canonical form. -/
def ScopeSubject.Canonical (lib : ScopeLib) (subject : ScopeSubject) : Prop :=
  canonicalizeSubjectValue lib subject.kind subject.value = .ok subject.value

/-- What a value needs for its canonical form to be a fixed point: an encoded name that does not begin
    or end with white space, or a URL whose canonical network location is plain. -/
def PlainValue (lib : ScopeLib) : ScopeAssetKind → String → Prop
  | .domain, value => ∀ name,
      idnaEncode lib.toTables (strLower lib.toTables (rstripDots (strip value))) = some name →
        strip name = name
  | .url, value => ∀ parsed rawHost host port,
      UrlRead lib.toTables (strip value) parsed rawHost host port →
        PlainNetloc parsed.scheme (canonicalNetloc parsed.scheme host port)
  | _, _ => True

/-- The pattern of a URL rule can be taken apart, and its port can be read as far as the scheme and the
    host of the subject make the rule look at it. -/
def ReadableFor (tables : Tables) (subject : ScopeSubject) (rule : ScopeRule) : Prop :=
  ∃ parts, urlsplit tables rule.pattern = .ok parts ∧
    ∀ candidate host ruleHost, urlsplit tables subject.value = .ok candidate →
      candidate.scheme = parts.scheme → candidate.hostname tables = some host →
      parts.hostname tables = some ruleHost → matchesHost host ruleHost = true →
      ∃ port, parts.port = .ok port

theorem modelValidate_subject {lib : ScopeLib} (h : ScopeSubject.modelValidate lib kind value = .ok subject) :
    subject.kind = kind ∧ canonicalizeSubjectValue lib kind (strip value) = .ok subject.value := by
  unfold ScopeSubject.modelValidate at h
  split at h
  · cases h
  obtain ⟨canonical, hcanonical, rfl⟩ := except_map_ok h
  exact ⟨rfl, hcanonical⟩

theorem domain_fixed_iff {tables : Tables} (htables : IdnaTables tables) {name : String}
    (h : canonicalDomain tables value = .ok name) : canonicalDomain tables name = .ok name ↔
      ∀ encoded, idnaEncode tables (strLower tables (rstripDots (strip value))) = some encoded →
        strip encoded = encoded := by
  have hstable : canonicalDomain tables name = .ok name ↔ strip name = name :=
    stable_iff (canonicalDomain_name htables h)
  have hencode := (canonicalDomain_ok_iff.mp h).2.1
  rw [hstable]
  constructor
  · intro hstrip encoded hencoded
    rw [hencode] at hencoded
    exact Option.some.inj hencoded ▸ hstrip
  · intro hplain
    exact hplain name hencode

theorem url_fixed_iff {tables : Tables} (htables : IdnaTables tables) {url : String}
    (h : canonicalUrl tables value = .ok url) : canonicalUrl tables url = .ok url ↔
      ∀ parsed rawHost host port, UrlRead tables value parsed rawHost host port →
        PlainNetloc parsed.scheme (canonicalNetloc parsed.scheme host port) := by
  constructor
  · intro hfixed parsed rawHost host port hread
    have hsame : canonicalUrl tables value = .ok (canonicalParts parsed host port) :=
      canonicalUrl_read.mpr ⟨_, _, _, _, hread, rfl⟩
    obtain rfl : url = canonicalParts parsed host port := Except.ok.inj (h.symm.trans hsame)
    exact hread.plain_of_fixed htables hfixed
  · intro hplain
    obtain ⟨parsed, rawHost, host, port, hread, rfl⟩ := canonicalUrl_read.mp h
    obtain ⟨name, shown, hread', heq⟩ := hread.fixed htables (hplain _ _ _ _ hread)
    exact canonicalUrl_read.mpr ⟨_, _, _, _, hread', heq.symm⟩

/-- **When a canonical value is a fixed point.** -/
theorem canonical_iff (htables : IdnaTables (ipaddressLib tables).toTables)
    (h : ScopeSubject.modelValidate (ipaddressLib tables) kind value = .ok subject) :
    subject.Canonical (ipaddressLib tables) ↔ PlainValue (ipaddressLib tables) kind value := by
  obtain ⟨hkind, hvalue⟩ := modelValidate_subject h
  unfold ScopeSubject.Canonical
  rw [hkind]
  cases kind with
  | domain =>
    have hdomain : canonicalDomain (ipaddressLib tables).toTables (strip value) = .ok subject.value := hvalue
    have hfixed := domain_fixed_iff htables hdomain
    rw [strip_strip] at hfixed
    exact hfixed
  | url =>
    have hurl : canonicalUrl (ipaddressLib tables).toTables (strip value) = .ok subject.value := hvalue
    exact url_fixed_iff htables hurl
  | ipAddress =>
    have hread : ipOr ((ipaddressLib tables).address (strip value)) (strip value) = .ok subject.value := hvalue
    obtain ⟨address, haddress⟩ := address_ok hread
    rw [haddress]
    refine iff_of_true ?_ trivial
    simp only [canonicalizeSubjectValue, address_text, ipOr]
  | cidr =>
    have hread : ipOr ((ipaddressLib tables).network (strip value)) (strip value) = .ok subject.value := hvalue
    obtain ⟨network, hnetwork⟩ := network_ok hread
    rw [hnetwork]
    refine iff_of_true ?_ trivial
    simp only [canonicalizeSubjectValue, network_text, ipOr]
  | mobileApp =>
    refine iff_of_true ?_ trivial
    have hstrip : strip (strip value) = subject.value := Except.ok.inj hvalue
    rw [← hstrip, canonicalizeSubjectValue, strip_strip]

/-- The host of a subject that is its own canonical form has a canonical form too. -/
theorem host_ok_of_canonical (h : subject.Canonical (ipaddressLib tables)) :
    ∃ host?, ScopeRule.subjectHostname (ipaddressLib tables) subject = .ok host? ∧
      ∀ host ∈ host?, ∃ name, canonicalDomain (ipaddressLib tables).toTables host = .ok name := by
  unfold ScopeSubject.Canonical at h
  unfold ScopeRule.subjectHostname
  cases hkind : subject.kind with
  | domain =>
    rw [hkind] at h
    refine ⟨some subject.value, rfl, ?_⟩
    intro host hhost
    obtain rfl := Option.some.inj hhost
    exact ⟨_, h⟩
  | url =>
    rw [hkind] at h
    obtain ⟨parsed, rawHost, host, port, hread, -⟩ := canonicalUrl_read.mp h
    refine ⟨some rawHost, ?_, ?_⟩
    · simp only [hread.split, Except.map, hread.hostname]
    · intro other hother
      obtain rfl := Option.some.inj hother
      exact ⟨host, hread.canonical⟩
  | ipAddress => exact ⟨none, rfl, nofun⟩
  | cidr => exact ⟨none, rfl, nofun⟩
  | mobileApp => exact ⟨none, rfl, nofun⟩

/-- A canonical URL is read with a canonical host. -/
theorem url_read_of_canonical {tables : Tables} (htables : IdnaTables tables) {url : String}
    (h : canonicalUrl tables url = .ok url) : ∃ candidate name port, UrlRead tables url candidate name name port := by
  obtain ⟨candidate, rawHost, host, port, hread, hurl⟩ := canonicalUrl_read.mp h
  have hfixed : canonicalUrl tables (canonicalParts candidate host port) =
      .ok (canonicalParts candidate host port) := by
    rw [← hurl]
    exact h
  obtain ⟨name, shown, hread', -⟩ := hread.fixed htables (hread.plain_of_fixed htables hfixed)
  rw [← hurl] at hread'
  exact ⟨_, name, shown, hread'⟩

theorem effectivePort_ok {parts : SplitResult} :
    (∃ port, effectivePort parts = .ok port) ↔ ∃ port, parts.port = .ok port := by
  unfold effectivePort
  cases hport : parts.port with
  | error e => simp
  | ok port => cases port <;> simp

/-- **When a URL rule does not raise** on a canonical URL. -/
theorem matchUrlPattern_ok_iff {tables : Tables} {url pattern rawHost name : String} {port : Option ℕ}
    {candidate : SplitResult} (hurl : canonicalUrl tables url = .ok url)
    (hread : UrlRead tables url candidate rawHost name port) (hname : canonicalDomain tables rawHost = .ok rawHost) :
    (∃ b, matchUrlPattern tables url pattern = .ok b) ↔ ∃ parts, urlsplit tables pattern = .ok parts ∧
        (candidate.scheme = parts.scheme → ∀ ruleHost, parts.hostname tables = some ruleHost →
          matchesHost rawHost ruleHost = true → ∃ port, parts.port = .ok port) := by
  unfold matchUrlPattern
  simp only [hurl, ok_bind, hread.split]
  cases hpattern : urlsplit tables pattern with
  | error e => simp
  | ok parts =>
    simp only [ok_bind, Except.ok.injEq, exists_eq_left']
    by_cases hscheme : candidate.scheme = parts.scheme
    · simp only [hscheme, ne_eq, not_true_eq_false, if_false, hread.hostname, true_implies]
      cases hruleHost : parts.hostname tables with
      | none => simp
      | some ruleHost =>
        simp only [matchDomainPattern, hname, ok_bind, pure_eq_ok, Option.some.injEq, forall_eq']
        cases hmatch : matchesHost rawHost ruleHost with
        | false => simp
        | true =>
          have hcandidate : ∃ port, effectivePort candidate = .ok port :=
            effectivePort_ok.mpr ⟨port, hread.port⟩
          obtain ⟨candidatePort, hcandidate⟩ := hcandidate
          simp only [if_true, true_implies, matchUrlParts, hcandidate, ok_bind]
          rw [← effectivePort_ok]
          cases hrulePort : effectivePort parts with
          | error e => simp
          | ok rulePort => simp
    · simp [hscheme]

theorem readableFor_iff {tables : Tables} {candidate : SplitResult} {name : String} {port : Option ℕ}
    (hread : UrlRead tables subject.value candidate name name port) :
    ReadableFor tables subject rule ↔ ∃ parts, urlsplit tables rule.pattern = .ok parts ∧
      (candidate.scheme = parts.scheme → ∀ ruleHost, parts.hostname tables = some ruleHost →
        matchesHost name ruleHost = true → ∃ port, parts.port = .ok port) := by
  unfold ReadableFor
  refine exists_congr fun parts => and_congr_right fun _ => ?_
  constructor
  · intro h hscheme ruleHost hruleHost hmatch
    exact h candidate name ruleHost hread.split hscheme hread.hostname hruleHost hmatch
  · intro h candidate' host ruleHost hsplit hscheme hhost hruleHost hmatch
    obtain rfl := Except.ok.inj (hread.split.symm.trans hsplit)
    obtain rfl := Option.some.inj (hread.hostname.symm.trans hhost)
    exact h hscheme ruleHost hruleHost hmatch

/-- **When a rule does not raise** on a subject that is its own canonical form. -/
theorem matchesSubject_ok_iff (htables : IdnaTables (ipaddressLib tables).toTables)
    (hcanonical : subject.Canonical (ipaddressLib tables)) (hsubject : subject.Validated (ipaddressLib tables))
    (hrule : rule.Validated (ipaddressLib tables)) : (∃ b, rule.matchesSubject (ipaddressLib tables) subject = .ok b) ↔
      (rule.kind = .url → subject.kind = .url → ReadableFor (ipaddressLib tables).toTables subject rule) := by
  cases hkind : rule.kind with
  | domain =>
    obtain ⟨host?, hhost, hname⟩ := host_ok_of_canonical hcanonical
    refine iff_of_true ?_ fun h => by cases h
    cases host? with
    | none => exact ⟨false, by simp only [ScopeRule.matchesSubject, hkind, hhost, ok_bind, pure_eq_ok]⟩
    | some host =>
      obtain ⟨name, hname⟩ := hname host rfl
      refine ⟨matchesHost name rule.pattern, ?_⟩
      simp only [ScopeRule.matchesSubject, hkind, hhost, ok_bind, matchDomainPattern, hname, pure_eq_ok]
  | url =>
    by_cases hurlKind : subject.kind = .url
    · have hurl : canonicalUrl (ipaddressLib tables).toTables subject.value = .ok subject.value := by
        have h := hcanonical
        unfold ScopeSubject.Canonical at h
        rw [hurlKind] at h
        exact h
      obtain ⟨candidate, name, port, hread⟩ := url_read_of_canonical htables hurl
      rw [readableFor_iff hread, ← matchUrlPattern_ok_iff hurl hread hread.canonical]
      simp only [ScopeRule.matchesSubject, hkind, hurlKind, ne_eq, not_true_eq_false, if_false,
        true_implies]
    · refine iff_of_true ⟨false, ?_⟩ fun _ h => absurd h hurlKind
      simp [ScopeRule.matchesSubject, hkind, hurlKind]
  | ipAddress =>
    refine iff_of_true ?_ fun h => by cases h
    by_cases hip : subject.kind = .ipAddress
    · obtain ⟨address, haddress⟩ := subject_address hsubject hip
      simp only [ScopeRule.matchesSubject, hkind, hip, ne_eq, not_true_eq_false, if_false, haddress,
        address_text, ipOr, ok_bind, pure_eq_ok]
      exact ⟨_, rfl⟩
    · exact ⟨false, by simp [ScopeRule.matchesSubject, hkind, hip]⟩
  | cidr =>
    refine iff_of_true ?_ fun h => by cases h
    obtain ⟨network, hnetwork⟩ := rule_network hrule hkind
    cases hsubjectKind : subject.kind with
    | ipAddress =>
      obtain ⟨address, haddress⟩ := subject_address hsubject hsubjectKind
      simp only [ScopeRule.matchesSubject, hkind, hsubjectKind, hnetwork, haddress, network_text,
        address_text, ipOr, ok_bind, pure_eq_ok]
      exact ⟨_, rfl⟩
    | cidr =>
      obtain ⟨candidate, hcandidate⟩ := subject_network hsubject hsubjectKind
      simp only [ScopeRule.matchesSubject, hkind, hsubjectKind, hnetwork, hcandidate, network_text,
        ipOr, ok_bind, pure_eq_ok]
      exact ⟨_, rfl⟩
    | domain =>
      exact ⟨false, by simp [ScopeRule.matchesSubject, hkind, hsubjectKind, hnetwork, network_text, ipOr]⟩
    | url =>
      exact ⟨false, by simp [ScopeRule.matchesSubject, hkind, hsubjectKind, hnetwork, network_text, ipOr]⟩
    | mobileApp =>
      exact ⟨false, by simp [ScopeRule.matchesSubject, hkind, hsubjectKind, hnetwork, network_text, ipOr]⟩
  | mobileApp =>
    refine iff_of_true ?_ fun h => by cases h
    by_cases hmobile : subject.kind = .mobileApp
    · exact ⟨_, by simp only [ScopeRule.matchesSubject, hkind, hmobile, ne_eq, not_true_eq_false, if_false, pure_eq_ok]; rfl⟩
    · exact ⟨false, by simp [ScopeRule.matchesSubject, hkind, hmobile]⟩

/-- `ScopeEngine(rules).evaluate(subject)` does not raise. -/
def Evaluable (lib : ScopeLib) (rules : List ScopeRule) (subject : ScopeSubject) : Prop :=
  ∃ d, classify lib rules subject = .ok d

theorem evaluable_iff {lib : ScopeLib} (hnd : DistinctIds rules) :
    Evaluable lib rules subject ↔ ∀ rule ∈ rules, ∃ b, rule.matchesSubject lib subject = .ok b := by
  constructor
  · rintro ⟨d, hd⟩
    exact (classify_ok_iff.mp hd).2.1
  · exact classify_total hnd

end Subjects

/-! ## A rule that no URL survives -/

theorem outOfScope_known : ScopeState.outOfScope ≠ .unknown := by decide

def brokenRaw : RawScopeRule where
  ruleId := "broken"
  kind := .url
  pattern := "https://[v1.[x]/"
  state := .outOfScope

/-- The bracketed host is accepted, and without its brackets it holds half a pair. -/
def brokenRule : ScopeRule where
  ruleId := { text := "broken" }
  kind := .url
  pattern := "https://v1.[x/"
  state := .outOfScope
  priority := 0
  tier := none
  reason := none
  state_known := outOfScope_known

theorem brokenRule_split (tables : Tables) :
    urlsplit tables brokenRule.pattern = .error (.valueError "Invalid IPv6 URL") := rfl

def brokenParts : SplitResult := ⟨"https", "[v1.[x]", "/", "", ""⟩

theorem brokenParts_split (tables : Tables) :
    urlsplit (ipaddressLib tables).toTables "https://[v1.[x]/" = .ok brokenParts := rfl

theorem brokenParts_hostname (tables : Tables) : brokenParts.hostname tables = some "v1.[x" := rfl

theorem brokenHost_canonical : CanonicalName "v1.[x" where
  ascii := by decide
  lower := by
    have hall : ("v1.[x".toList.all fun c => c.toLower = c) = true := by decide
    intro c hc
    exact of_decide_eq_true (List.all_eq_true.mp hall c hc)
  nonempty := by decide +kernel
  lengths := by decide +kernel

theorem brokenRule_validated (tables : Tables) : brokenRule.Validated (ipaddressLib tables) := by
  have hstrip : strip "https://[v1.[x]/" = "https://[v1.[x]/" := by decide
  have hhost : canonicalPatternHost (ipaddressLib tables).toTables "v1.[x" = .ok "v1.[x" :=
    (stable_iff brokenHost_canonical).mpr (by decide)
  have hpattern : canonicalUrlPattern (ipaddressLib tables).toTables "https://[v1.[x]/" =
      .ok "https://v1.[x/" := by
    unfold canonicalUrlPattern
    simp only [brokenParts_split, ok_bind, brokenParts_hostname, hhost]
    rfl
  have hcanonical : canonicalizeRulePattern (ipaddressLib tables) .url "https://[v1.[x]/" =
      .ok "https://v1.[x/" := by
    unfold canonicalizeRulePattern
    simp only [hstrip]
    exact hpattern
  have hid : optionalText brokenRaw.ruleId = some brokenRule.ruleId := by decide
  have hstate : brokenRaw.state ≠ .unknown := outOfScope_known
  refine ⟨brokenRaw, ?_⟩
  unfold ScopeRule.modelValidate
  simp only [hid]
  rw [dif_neg hstate, show canonicalizeRulePattern (ipaddressLib tables) brokenRaw.kind brokenRaw.pattern =
    .ok "https://v1.[x/" from hcanonical]
  rfl

/-- Other letters keep their case, and no label with them is encoded. -/
def asciiTables : Tables where
  lower text := String.ofList (text.toList.map Char.toLower)
  toASCII _ := none
  nfkc := id
  bracketed := checkBracketedNetloc

theorem strLower_ascii (text : String) : (strLower asciiTables text).toList = text.toList.map Char.toLower := by
  unfold strLower
  split
  · exact String.toList_ofList
  · exact String.toList_ofList

theorem idnaEncode_asciiTables {value name : String} (h : idnaEncode asciiTables value = some name)
    (hlabels : [] ∉ labels name) : isAscii value = true := by
  by_contra hascii
  rw [Bool.not_eq_true] at hascii
  obtain ⟨pieces, encoded, -, hread, hname⟩ := idnaEncode_pieces hascii h hlabels
  cases pieces with
  | nil =>
    obtain rfl := Option.some.inj hread
    apply hlabels
    rw [labels, hname]
    decide
  | cons piece pieces => exact ne_none_of_mapM hread List.mem_cons_self rfl

theorem asciiTables_idna : IdnaTables asciiTables where
  lower text := by
    rw [show (asciiTables.lower text).toList = text.toList.map Char.toLower from String.toList_ofList]
    exact isLowered_map _
  toASCII_lower _ _ h := by cases h
  toASCII_length _ _ h := by cases h
  checked parts host name _ hhost hname := by
    intro c hc hdelimiter
    obtain ⟨-, hencode, hlabels⟩ := canonicalDomain_ok_iff.mp hname
    have hsame := idnaEncode_of_ascii (idnaEncode_asciiTables hencode hlabels) hencode
    have hlower : c.isLower = false ∧ c ≠ '%' := by
      rcases hdelimiter with h | h | rfl
      · have hcases : c = '/' ∨ c = '?' ∨ c = '#' := by simpa [endsNetloc] using h
        rcases hcases with rfl | rfl | rfl <;> decide
      · have hcases : c = '\t' ∨ c = '\r' ∨ c = '\n' := by simpa [isRemoved] using h
        rcases hcases with rfl | rfl | rfl <;> decide
      · decide
    rw [hsame, strLower_ascii] at hc
    obtain ⟨d, hd, hdc⟩ := List.mem_map.mp hc
    obtain rfl := toLower_inj hdc hlower.1
    have hin : d ∈ host.toList := by
      have hsub := (stripChars_sublist host.toList).subset
      rw [← toList_strip] at hsub
      exact hsub ((rstripDots_sublist _).subset hd)
    rcases mem_hostname (fun text _ => strLower_ascii text) hhost hin with heq | ⟨e, he, hcase⟩
    · exact absurd heq hlower.2
    · rcases hcase with rfl | hcase
      · exact mem_hostInfo he
      · exact mem_hostInfo (toLower_inj hcase hlower.1 ▸ he)

/-- `ipaddress` with these tables. -/
def asciiIpLib : ScopeLib := ipaddressLib asciiTables

theorem asciiIpLib_idna : IdnaTables (ipaddressLib asciiTables).toTables := asciiTables_idna

def exampleUrlRule : ScopeRule where
  ruleId := { text := "example" }
  kind := .url
  pattern := "https://example.com/*"
  state := .inScope
  priority := 0
  tier := none
  reason := none
  state_known := inScope_known

end NightScout
