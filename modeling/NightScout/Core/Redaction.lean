import NightScout.Core.QueryStrings
import NightScout.Surface.UrlCuts

/-!
# Redaction

`sanitize_url` of `recon/core/redaction.py`: the user information of a URL, the values of sensitive keys in its query
and fragment, and what follows a sensitive segment of its path.
-/

namespace NightScout

open Lib

def redacted : String := "[REDACTED]"

/-- The lower-case letter of a pattern that a character matches under `re.IGNORECASE`. -/
def ignoreCase (c : Char) : Char :=
  if c.toNat = 0x130 ∨ c.toNat = 0x131 then 'i'
  else if c.toNat = 0x17F then 's'
  else if c.toNat = 0x212A then 'k'
  else c.toLower

/-! ## Sensitive keys -/

/-- The words of `_SENSITIVE_QUERY_RE`. -/
def sensitiveQueryWords : List String :=
  ["pass", "password", "passwd", "secret", "token", "key", "auth", "session", "cookie", "code", "credential",
    "signature", "sig", "assertion", "jwt", "sas"]

/-- `_SENSITIVE_QUERY_RE.search`, of a stripped text: one of the words between separators. -/
def sensitiveQueryRe (text : List Char) : Bool :=
  (text.splitOnP fun c => c = '_' || c = '-').any fun piece =>
    String.ofList (piece.map ignoreCase) ∈ sensitiveQueryWords

/-- `re.sub(r"(?<=[a-z0-9])(?=[A-Z])", "_", text)`. -/
def snakeCase : List Char → List Char
  | c :: d :: rest =>
    if (c.isLower || c.isDigit) && d.isUpper then c :: '_' :: snakeCase (d :: rest)
    else c :: snakeCase (d :: rest)
  | text => text

/-- The keys that are sensitive as a whole, without separators. -/
def sensitiveCompactKeys : List String :=
  ["password", "passwd", "pwd", "secret", "token", "accesstoken", "refreshtoken", "idtoken", "apikey",
    "authorization", "auth", "session", "sessionid", "cookie", "code", "credential", "signature", "sig",
    "assertion", "jwt", "sas"]

def isSensitiveQueryKey (tables : Tables) (key : String) : Bool :=
  let snake := snakeCase (strip key).toList
  let compact := (strLower tables (String.ofList snake)).toList.filter fun c => c.isLower || c.isDigit
  sensitiveQueryRe snake || String.ofList compact ∈ sensitiveCompactKeys

/-! ## The parts of a URL -/

/-- The pairs with the values of sensitive keys replaced. -/
def redactPairs (tables : Tables) (pairs : List (String × String)) : List (String × String) :=
  pairs.map fun (key, item) => (key, if isSensitiveQueryKey tables key then redacted else item)

def sanitizeParameterString (tables : Tables) (value : String) : String :=
  if value = "" ∨ '=' ∉ value.toList then value else urlencode (redactPairs tables (parseQsl value))

/-- The segments of `_SENSITIVE_PATH_RE` before the slot. -/
def pathMarkers : List String :=
  ["reset", "verify", "activate", "invite", "magic", "magic-link", "password-reset"]

def isMarker (segment : List Char) : Bool := String.ofList (segment.map ignoreCase) ∈ pathMarkers

/-- `[^/?#]`, of a character that is no slash. -/
def isSlotChar (c : Char) : Bool := c ≠ '?' && c ≠ '#'

/-- `[^/?#]{8,}`. -/
def isSlot (segment : List Char) : Bool := 8 ≤ (segment.takeWhile isSlotChar).length

def redactSlot (segment : List Char) : List Char := redacted.toList ++ segment.dropWhile isSlotChar

/-- The segments behind the first slash. What a match has taken as its slot is no marker of another. -/
def redactSegments : List (List Char) → List (List Char)
  | marker :: slot :: rest =>
    if isMarker marker && isSlot slot then marker :: redactSlot slot :: redactSegments rest
    else marker :: redactSegments (slot :: rest)
  | segments => segments

/-- `_SENSITIVE_PATH_RE.sub`. -/
def redactPath (path : String) : String :=
  match path.toList.splitOn '/' with
  | [] => path
  | first :: segments => String.ofList (List.intercalate ['/'] (first :: redactSegments segments))

/-- The host, in brackets again if it has a colon. -/
def markedHost (tables : Tables) (parts : SplitResult) : String :=
  let host := (parts.hostname tables).getD ""
  if ':' ∈ host.toList ∧ host.toList.head? ≠ some '[' then "[" ++ host ++ "]" else host

/-- The port, unless there is none or it cannot be read. -/
def markedPort (parts : SplitResult) : String :=
  match parts.port with
  | .ok (some port) => s!":{port}"
  | .ok none => ""
  | .error _ => ""

/-- The network location, without its user information. -/
def sanitizedNetloc (tables : Tables) (parts : SplitResult) : String :=
  if parts.hasUserinfo then redacted ++ "@" ++ markedHost tables parts ++ markedPort parts else parts.netloc

def sanitizedParts (tables : Tables) (parts : SplitResult) : SplitResult where
  scheme := parts.scheme
  netloc := sanitizedNetloc tables parts
  path := redactPath parts.path
  query := sanitizeParameterString tables parts.query
  fragment := sanitizeParameterString tables parts.fragment

/-- A reference without a scheme that is no plain text. -/
def isRelativeReference (parts : SplitResult) : Bool :=
  parts.netloc ≠ "" || ['/'] <+: parts.path.toList || ['.', '/'] <+: parts.path.toList ||
    ['.', '.', '/'] <+: parts.path.toList || parts.query ≠ "" || parts.fragment ≠ ""

def sanitizeUrl (tables : Tables) (value : String) : String :=
  match urlsplit tables value with
  | .error _ => value
  | .ok parts =>
    let scheme := strLower tables parts.scheme
    if scheme ∉ ["", "http", "https"] then value
    else if scheme ∈ ["http", "https"] ∧ parts.netloc = "" then value
    else if scheme = "" ∧ isRelativeReference parts = false then value
    else urlunsplitParts (sanitizedParts tables parts)

/-!
## Redacted paths and parameters

What redaction leaves of a path, a query and a fragment is redacted already, and no delimiter has come in. A path
keeps its segments, but for the slots that the marker stands in.
-/

/-! ## Paths -/

section Paths

variable {segments : List (List Char)}

theorem redacted_slot : redacted.toList.all isSlotChar = true := by decide

theorem dropWhile_redactSlot (segment : List Char) :
    (redactSlot segment).dropWhile isSlotChar = segment.dropWhile isSlotChar := by
  have hmarker := List.all_eq_true.mp redacted_slot
  rw [redactSlot, List.dropWhile_append_of_pos hmarker, List.dropWhile_idempotent]

theorem isSlot_redactSlot (segment : List Char) : isSlot (redactSlot segment) = true := by
  have hmarker := List.all_eq_true.mp redacted_slot
  have hlength : redacted.toList.length = 10 := by decide
  rw [isSlot, redactSlot, List.takeWhile_append_of_pos hmarker, List.length_append, hlength, decide_eq_true_eq]
  omega

theorem redactSlot_redactSlot (segment : List Char) : redactSlot (redactSlot segment) = redactSlot segment := by
  rw [redactSlot, dropWhile_redactSlot]
  rfl

/-- The first segment is no slot. -/
theorem redactSegments_cons (first : List Char) (segments : List (List Char)) :
    ∃ rest, redactSegments (first :: segments) = first :: rest := by
  cases segments with
  | nil => exact ⟨[], rfl⟩
  | cons slot rest =>
    unfold redactSegments
    split
    · exact ⟨_, rfl⟩
    · exact ⟨_, rfl⟩

theorem redactSegments_idem (segments : List (List Char)) :
    redactSegments (redactSegments segments) = redactSegments segments := by
  induction segments using redactSegments.induct with
  | case1 marker slot rest hmatch ih =>
    rw [redactSegments, if_pos hmatch, redactSegments, ih, redactSlot_redactSlot]
    rw [Bool.and_eq_true] at hmatch
    rw [hmatch.1, isSlot_redactSlot]
    rfl
  | case2 marker slot rest hmatch ih =>
    rw [redactSegments, if_neg hmatch]
    obtain ⟨others, hothers⟩ := redactSegments_cons slot rest
    rw [hothers] at ih ⊢
    rw [redactSegments, if_neg hmatch, ih]
  | case3 segments hshort =>
    rw [redactSegments.eq_2 _ hshort, redactSegments.eq_2 _ hshort]

/-- Every segment stays, or the marker takes its place. -/
theorem redactSegments_forall₂ (segments : List (List Char)) :
    List.Forall₂ (fun segment segment' => segment' = segment ∨ segment' = redactSlot segment) segments
      (redactSegments segments) := by
  induction segments using redactSegments.induct with
  | case1 marker slot rest hmatch ih =>
    rw [redactSegments, if_pos hmatch]
    exact .cons (.inl rfl) (.cons (.inr rfl) ih)
  | case2 marker slot rest hmatch ih =>
    rw [redactSegments, if_neg hmatch]
    exact .cons (.inl rfl) ih
  | case3 segments hshort =>
    rw [redactSegments.eq_2 _ hshort]
    exact List.forall₂_same.mpr fun _ _ => .inl rfl

theorem mem_redactSegments {segment' : List Char} (h : segment' ∈ redactSegments segments) :
    ∃ segment ∈ segments, segment' = segment ∨ segment' = redactSlot segment := by
  obtain ⟨i, hi, rfl⟩ := List.getElem_of_mem h
  have hforall := redactSegments_forall₂ segments
  have hi' : i < segments.length := hforall.length_eq ▸ hi
  exact ⟨segments[i], List.getElem_mem hi', (List.forall₂_iff_get.mp hforall).2 i hi' hi⟩

/-! ### Texts -/

variable {path : String}

/-- The segments of a path. -/
def segmentsOf (path : String) : List (List Char) := path.toList.splitOn '/'

/-- A text is cut at its first slash. -/
theorem segmentsOf_cons (path : String) :
    ∃ rest, segmentsOf path = firstSegment path :: rest ∧ ('/' ∈ path.toList ↔ rest ≠ []) := by
  unfold segmentsOf firstSegment
  by_cases hslash : '/' ∈ path.toList
  · obtain ⟨a, b, hpath, ha⟩ := List.eq_append_cons_of_mem hslash
    refine ⟨b.splitOn '/', ?_, iff_of_true hslash (splitOn_ne_nil _ _)⟩
    rw [hpath, splitOn_append_cons, List.splitOn_eq_singleton ha, takeWhile_append_stop]
    · rfl
    · intro c hc
      rw [decide_eq_true_eq]
      rintro rfl
      exact ha hc
    · exact .inr ⟨'/', b, rfl, by decide⟩
  · refine ⟨[], ?_, iff_of_false hslash fun hne => hne rfl⟩
    have hwhole : path.toList.takeWhile (· ≠ '/') = path.toList := by
      rw [List.takeWhile_eq_self_iff]
      intro c hc
      rw [decide_eq_true_eq]
      rintro rfl
      exact hslash hc
    rw [List.splitOn_eq_singleton hslash, hwhole]

theorem intercalate_segmentsOf (path : String) : List.intercalate ['/'] (segmentsOf path) = path.toList :=
  List.intercalate_splitOn '/'

theorem toList_redactPath {first : List Char} {rest : List (List Char)} (h : segmentsOf path = first :: rest) :
    (redactPath path).toList = List.intercalate ['/'] (first :: redactSegments rest) := by
  unfold redactPath
  rw [show path.toList.splitOn '/' = first :: rest from h]
  exact String.toList_ofList

theorem slash_not_mem {segment : List Char} (h : segment ∈ segmentsOf path) : '/' ∉ segment := by
  intro hslash
  unfold segmentsOf at h
  rw [List.splitOn_eq_splitOnP] at h
  have hfree := piece_free h '/' hslash
  simp at hfree

theorem mem_of_segment {segment : List Char} (h : segment ∈ segmentsOf path) {c : Char} (hc : c ∈ segment) :
    c ∈ path.toList := (splitOn_sublist h).subset hc

theorem mem_redactSlot {segment : List Char} {c : Char} (h : c ∈ redactSlot segment) :
    c ∈ redacted.toList ∨ c ∈ segment := by
  rcases List.mem_append.mp h with h | h
  · exact .inl h
  · exact .inr ((List.dropWhile_suffix _).subset h)

/-- The segments of a redacted path are the redacted segments. -/
theorem segmentsOf_redactPath {first : List Char} {rest : List (List Char)} (h : segmentsOf path = first :: rest) :
    segmentsOf (redactPath path) = first :: redactSegments rest := by
  have hfree : ∀ segment ∈ first :: redactSegments rest, '/' ∉ segment := by
    intro segment hsegment
    rcases List.mem_cons.mp hsegment with rfl | hsegment
    · exact slash_not_mem (h ▸ List.mem_cons_self)
    · obtain ⟨before, hbefore, hcases⟩ := mem_redactSegments hsegment
      have hslash : '/' ∉ before := slash_not_mem (h ▸ List.mem_cons_of_mem first hbefore)
      rcases hcases with rfl | rfl
      · exact hslash
      · intro hin
        rcases mem_redactSlot hin with hin | hin
        · revert hin
          decide
        · exact hslash hin
  rw [segmentsOf, toList_redactPath h]
  exact List.splitOn_intercalate '/' hfree (List.cons_ne_nil _ _)

theorem firstSegment_redactPath (path : String) : firstSegment (redactPath path) = firstSegment path ∧
    ('/' ∈ (redactPath path).toList ↔ '/' ∈ path.toList) := by
  obtain ⟨rest, hsegments, hslash⟩ := segmentsOf_cons path
  obtain ⟨rest', hsegments', hslash'⟩ := segmentsOf_cons (redactPath path)
  rw [segmentsOf_redactPath hsegments] at hsegments'
  obtain ⟨hfirst, rfl⟩ := List.cons.inj hsegments'
  refine ⟨hfirst.symm, ?_⟩
  rw [hslash, hslash', ← List.length_pos_iff_ne_nil, ← List.length_pos_iff_ne_nil,
    (redactSegments_forall₂ rest).length_eq]

/-- **A path is redacted once.** -/
theorem redactPath_idem (path : String) : redactPath (redactPath path) = redactPath path := by
  obtain ⟨rest, hsegments, -⟩ := segmentsOf_cons path
  apply String.toList_inj.mp
  rw [toList_redactPath (segmentsOf_redactPath hsegments), redactSegments_idem, toList_redactPath hsegments]

theorem mem_redactPath {c : Char} (h : c ∈ (redactPath path).toList) : c ∈ redacted.toList ∨ c ∈ path.toList := by
  obtain ⟨rest, hsegments, -⟩ := segmentsOf_cons path
  rw [← intercalate_segmentsOf, segmentsOf_redactPath hsegments] at h
  rcases mem_intercalate h with hslash | ⟨segment, hsegment, hc⟩
  · right
    obtain rfl := List.mem_singleton.mp hslash
    rw [← (firstSegment_redactPath path).2, ← intercalate_segmentsOf, segmentsOf_redactPath hsegments]
    exact h
  · rcases List.mem_cons.mp hsegment with rfl | hsegment
    · exact .inr (mem_of_segment (hsegments ▸ List.mem_cons_self) hc)
    · obtain ⟨before, hbefore, hcases⟩ := mem_redactSegments hsegment
      have hin : ∀ c ∈ before, c ∈ path.toList :=
        fun c hc => mem_of_segment (hsegments ▸ List.mem_cons_of_mem _ hbefore) hc
      rcases hcases with rfl | rfl
      · exact .inr (hin c hc)
      · exact (mem_redactSlot hc).imp_right (hin c)

/-- What a path starts with, up to its first slash. -/
theorem prefix_slash_iff {front : List Char} (h : '/' ∉ front) :
    front ++ ['/'] <+: path.toList ↔ firstSegment path = front ∧ '/' ∈ path.toList := by
  unfold firstSegment
  constructor
  · rintro ⟨rest, hpath⟩
    rw [← hpath, List.append_assoc]
    refine ⟨?_, by simp⟩
    apply takeWhile_append_stop
    · intro c hc
      rw [decide_eq_true_eq]
      rintro rfl
      exact h hc
    · exact .inr ⟨'/', rest, rfl, by decide⟩
  · rintro ⟨hfront, hslash⟩
    obtain ⟨a, b, hpath, ha⟩ := List.eq_append_cons_of_mem hslash
    have hwhile : path.toList.takeWhile (· ≠ '/') = a := by
      rw [hpath]
      apply takeWhile_append_stop
      · intro c hc
        rw [decide_eq_true_eq]
        rintro rfl
        exact ha hc
      · exact .inr ⟨'/', b, rfl, by decide⟩
    refine ⟨b, ?_⟩
    rw [hpath, ← hfront, hwhile]
    simp

theorem prefix_redactPath {front : List Char} (h : '/' ∉ front) :
    front ++ ['/'] <+: (redactPath path).toList ↔ front ++ ['/'] <+: path.toList := by
  rw [prefix_slash_iff h, prefix_slash_iff h, (firstSegment_redactPath path).1, (firstSegment_redactPath path).2]

theorem redactPath_eq_empty_iff : redactPath path = "" ↔ path = "" := by
  have hempty : ∀ text : String, text = "" ↔ firstSegment text = [] ∧ '/' ∉ text.toList := by
    intro text
    constructor
    · rintro rfl
      exact ⟨rfl, by simp⟩
    · rintro ⟨hfirst, hslash⟩
      rw [← String.toList_eq_nil_iff]
      cases hlist : text.toList with
      | nil => rfl
      | cons c rest =>
        rw [firstSegment, hlist, List.takeWhile_cons] at hfirst
        split at hfirst
        · cases hfirst
        next hc =>
          have hslash' : c = '/' := by simpa using hc
          rw [hlist, hslash'] at hslash
          exact absurd List.mem_cons_self hslash
  rw [hempty, hempty, (firstSegment_redactPath path).1, (firstSegment_redactPath path).2]

/-- Without question marks and hashes a slot is the marker and nothing else. -/
theorem redactSlot_of_clean {segment : List Char} (h : ∀ c ∈ segment, isSlotChar c = true) :
    redactSlot segment = redacted.toList := by
  rw [redactSlot, List.dropWhile_eq_nil_iff.mpr h, List.append_nil]

/-- The same segments, but for those that the marker has taken the place of. -/
def SamePathShape (path path' : String) : Prop :=
  List.Forall₂ (fun segment segment' => segment' = segment ∨ segment' = redacted.toList) (segmentsOf path)
    (segmentsOf path')

theorem samePathShape_refl (path : String) : SamePathShape path path :=
  List.forall₂_same.mpr fun _ _ => .inl rfl

theorem samePathShape_redactPath (h : ∀ c ∈ path.toList, c ≠ '?' ∧ c ≠ '#') : SamePathShape path (redactPath path) := by
  obtain ⟨rest, hsegments, -⟩ := segmentsOf_cons path
  unfold SamePathShape
  rw [segmentsOf_redactPath hsegments, hsegments]
  refine .cons (.inl rfl) ?_
  have hclean : ∀ segment ∈ rest, redactSlot segment = redacted.toList := by
    intro segment hsegment
    apply redactSlot_of_clean
    intro c hc
    obtain ⟨hquestion, hhash⟩ := h c (mem_of_segment (hsegments ▸ List.mem_cons_of_mem _ hsegment) hc)
    simp [isSlotChar, hquestion, hhash]
  have hforall := redactSegments_forall₂ rest
  rw [List.forall₂_iff_get] at hforall ⊢
  refine ⟨hforall.1, fun i hi hi' => ?_⟩
  rcases hforall.2 i hi hi' with hsame | hslot
  · exact .inl hsame
  · right
    rw [hslot]
    exact hclean _ (List.get_mem _ _)

end Paths

/-! ## Parameters -/

section Parameters

variable {tables : Tables} {value : String}

theorem redactPairs_idem (pairs : List (String × String)) :
    redactPairs tables (redactPairs tables pairs) = redactPairs tables pairs := by
  unfold redactPairs
  rw [List.map_map]
  apply List.map_congr_left
  rintro ⟨key, item⟩ -
  by_cases hkey : isSensitiveQueryKey tables key = true
  · simp [hkey]
  · simp [hkey]

theorem urlencode_nonempty {pairs : List (String × String)} (h : pairs ≠ []) :
    urlencode pairs ≠ "" ∧ '=' ∈ (urlencode pairs).toList := by
  have hequals : '=' ∈ (urlencode pairs).toList := by
    rw [toList_urlencode]
    cases pairs with
    | nil => exact absurd rfl h
    | cons pair pairs =>
      have hpair : '=' ∈ pairText pair := by simp [pairText]
      rw [List.map_cons]
      by_cases hnil : pairs.map pairText = []
      · rwa [hnil, List.intercalate_singleton]
      · rw [List.intercalate_cons_of_ne_nil hnil]
        exact List.mem_append_left _ (List.mem_append_left _ hpair)
  refine ⟨?_, hequals⟩
  intro hempty
  rw [hempty] at hequals
  cases hequals

/-- A text with an equals sign has a pair. -/
theorem parseQsl_ne_nil (h : '=' ∈ value.toList) : parseQsl value ≠ [] := by
  intro hnil
  rw [parseQsl, List.map_eq_nil_iff, List.filter_eq_nil_iff] at hnil
  have hall : ∀ piece ∈ value.toList.splitOn '&', piece = [] := by
    intro piece hpiece
    simpa using hnil piece hpiece
  have hjoin : List.intercalate ['&'] (value.toList.splitOn '&') = value.toList := List.intercalate_splitOn '&'
  rw [← hjoin] at h
  rcases mem_intercalate h with hsep | ⟨piece, hpiece, hc⟩
  · revert hsep
    decide
  · rw [hall piece hpiece] at hc
    cases hc

/-- **Parameters are sanitized once.** -/
theorem sanitizeParameterString_idem (value : String) :
    sanitizeParameterString tables (sanitizeParameterString tables value) = sanitizeParameterString tables value := by
  by_cases hplain : value = "" ∨ '=' ∉ value.toList
  · have hsame : sanitizeParameterString tables value = value := if_pos hplain
    rw [hsame, hsame]
  · have hencoded : sanitizeParameterString tables value = urlencode (redactPairs tables (parseQsl value)) :=
      if_neg hplain
    have hequals : '=' ∈ value.toList := by
      by_contra hnot
      exact hplain (.inr hnot)
    have hpairs : redactPairs tables (parseQsl value) ≠ [] := by simpa [redactPairs] using parseQsl_ne_nil hequals
    obtain ⟨hne, hin⟩ := urlencode_nonempty hpairs
    rw [hencoded, sanitizeParameterString, if_neg (by simp [hne, hin]), parseQsl_urlencode, redactPairs_idem]

theorem sanitizeParameterString_eq_empty_iff : sanitizeParameterString tables value = "" ↔ value = "" := by
  unfold sanitizeParameterString
  split
  · rfl
  next hplain =>
    obtain ⟨hne, hequals⟩ := not_or.mp hplain
    rw [not_not] at hequals
    have hpairs : redactPairs tables (parseQsl value) ≠ [] := by simpa [redactPairs] using parseQsl_ne_nil hequals
    exact iff_of_false (urlencode_nonempty hpairs).1 hne

theorem mem_sanitizeParameterString {c : Char} (h : c ∈ (sanitizeParameterString tables value).toList) :
    c ∈ value.toList ∨ c ≠ '#' ∧ isRemoved c = false := by
  unfold sanitizeParameterString at h
  split at h
  · exact .inl h
  · right
    rcases urlencode_quoted h with hdelimiter | hquoted
    · have hcases : c = '&' ∨ c = '=' := by simpa using hdelimiter
      rcases hcases with rfl | rfl <;> decide
    · rw [isQuoted, Bool.and_eq_true, Bool.and_eq_true, decide_eq_true_eq, decide_eq_true_eq] at hquoted
      obtain ⟨⟨hspace, -⟩, hdelimiter⟩ := hquoted
      constructor
      · rintro rfl
        revert hdelimiter
        decide
      · by_contra hremoved
        rw [Bool.not_eq_false] at hremoved
        have hcases : c = '\t' ∨ c = '\r' ∨ c = '\n' := by simpa [isRemoved] using hremoved
        rcases hcases with rfl | rfl | rfl <;> revert hspace <;> decide

end Parameters

end NightScout
