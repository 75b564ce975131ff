import NightScout.Intelligence.TokenKeys
import NightScout.Lib.FirstSeen
import NightScout.Lib.Utf8

/-!
# From a download to a wordlist

The lines of a download and the tokens that `scripts/wordlists_sync.py` makes of them. A line that looks like a URL is
split by `urlsplit`, and what `urlsplit` refuses is raised through the transform (`transform_error_iff`).
-/

namespace NightScout

open Lib

/-! ## The catalogue -/

inductive SourceTransform where
  | words | dnsLabels | parameterNames | pathTokens
  deriving DecidableEq, Repr

def SourceTransform.value : SourceTransform → String
  | words => "words" | dnsLabels => "dns_labels" | parameterNames => "parameter_names" | pathTokens => "path_tokens"

/-- `[a-z0-9]`. -/
def isWordStart (c : Char) : Bool := ('a' ≤ c && c ≤ 'z') || ('0' ≤ c && c ≤ '9')

def isSourceIdChar (c : Char) : Bool := isWordStart c || c ∈ ['_', '.', ':', '-']

/-- `[a-z0-9][a-z0-9_.:-]{0,127}`. -/
def isSourceId (cs : List Char) : Bool :=
  (cs.head?.any isWordStart) && cs.all isSourceIdChar && cs.length ≤ 128

/-- What `validate_local_path` gives. -/
def isCachePath (path : String) : Bool :=
  strip path = path && "cache/".toList.isPrefixOf path.toList && !path.toList.contains '\\' &&
    (path.toList.splitOn '/').all (· ≠ ['.', '.'])

structure CatalogSource where
  sourceId : String
  url : String
  localPath : String
  categories : List CorpusCategory
  transform : SourceTransform
  weight : ℚ
  maxBytes : ℕ
  maxEntries : ℕ
  expectedSha256 : Option String
  license : Option String
  upstream : Option String
  sourceId_ok : isSourceId sourceId.toList = true
  localPath_ok : isCachePath localPath = true
  categories_ne : categories ≠ []
  weight_range : 0 ≤ weight ∧ weight ≤ 100
  maxBytes_ge : 1024 ≤ maxBytes
  maxEntries_pos : 1 ≤ maxEntries

/-! ## Lines -/

def maxLineBytes : ℕ := 16384

/-- The lines of a binary file, each with its line feed, behind the start of a line. -/
def rawLinesFrom (line : List UInt8) : List UInt8 → List (List UInt8)
  | [] => if line = [] then [] else [line]
  | b :: rest => if b = 10 then (line ++ [b]) :: rawLinesFrom [] rest else rawLinesFrom (line ++ [b]) rest

/-- What `iter_text_lines` yields for a line. What is valid UTF-8 reads the same with `errors="ignore"`. -/
def textLine (rawLine : List UInt8) : Option String :=
  if maxLineBytes < rawLine.length then none
  else if 0 ∈ rawLine then none
  else
    let line := strip (String.ofList (utf8Ignore rawLine))
    if line = "" ∨ line.toList.head? = some '#' ∨ line.toList.head? = some ';' then none else some line

def iterTextLines (content : List UInt8) : List String := (rawLinesFrom [] content).filterMap textLine

/-! ## Tokens -/

/-- `[A-Za-z0-9_.\-\[\]]`. -/
def isPathChar (c : Char) : Bool := c.isAlphanum || c ∈ ['_', '.', '-', '[', ']']

/-- `_SAFE_WORD_RE.fullmatch`, that is `[a-z0-9][a-z0-9_.\-\[\]]{0,127}`. -/
def isSafeWord (cs : List Char) : Bool :=
  (cs.head?.any isWordStart) && cs.all generalChar && cs.length ≤ 128

/-- `_SAFE_PARAMETER_RE.fullmatch`. -/
def isSafeParameter (cs : List Char) : Bool :=
  (cs.head?.any fun c => c.isAlpha || c = '_') && cs.all isPathChar && cs.length ≤ 128

variable (tables : Tables)

/-- `normalize_word`. A text of digits that are not ASCII is no safe word. -/
def normalizeWord (value : String) : Option String :=
  let normalized := (strLower tables (strip value)).toList.dropWhile (· = '.')
  if normalized = [] ∨ normalized.length < 2 ∨ 128 < normalized.length then none
  else if normalized.all Char.isDigit ∧ 6 < normalized.length then none
  else if isSafeWord normalized then some (String.ofList normalized) else none

def transformWords (line : String) : List String := (normalizeWord tables line).toList

def transformParameterNames (line : String) : List String :=
  let value := strip line
  if value.length ≤ 128 ∧ isSafeParameter value.toList then [value] else []

/-- The value of a line that `transform_dns_labels` looks at. -/
def dnsValue (line : String) : String :=
  let value := rstripDots (strLower tables (strip line))
  if isWildcard value then suffixOf value else value

/-- The tokens of a host name. -/
def labelTokens (value : String) : List String :=
  let labels := (value.toList.splitOn '.').filter (· ≠ [])
  let labels := if 1 < labels.length then labels.dropLast else labels
  (if labels = [] then [value.toList] else labels).flatMap fun label =>
    (normalizeWord tables (String.ofList label)).toList ++
      (label.splitOn '-').filterMap fun piece => normalizeWord tables (String.ofList piece)

def transformDnsLabels (line : String) : Except PyError (List String) := do
  let value := dnsValue tables line
  if containsText "://" value then
    let parts ← urlsplit tables value
    return labelTokens tables (rstripDots (strLower tables ((parts.hostname tables).getD "")))
  else return labelTokens tables value

/-- The tokens of a path and its query. No piece between two of the characters that part them is a word. -/
def pathPieces (value : String) : List String :=
  let (path, found, query) := partition '?' value.toList
  let names := if found then
      (query.splitOn '&').filterMap fun pair =>
        normalizeWord tables (strip (String.ofList (partition '=' pair).1))
    else []
  names ++ (path.splitOn '/').flatMap fun coarse =>
    (coarse.splitOnP fun c => !isPathChar c).filterMap fun piece => normalizeWord tables (String.ofList piece)

def transformPathTokens (line : String) : Except PyError (List String) := do
  let value := strip line
  if containsText "://" value then
    let parsed ← urlsplit tables value
    return pathPieces tables (if parsed.query ≠ "" then parsed.path ++ "?" ++ parsed.query else parsed.path)
  else return pathPieces tables value

/-- `TRANSFORMS[transform](line)`. -/
def transformLine (line : String) : SourceTransform → Except PyError (List String)
  | .words => .ok (transformWords tables line)
  | .dnsLabels => transformDnsLabels tables line
  | .parameterNames => .ok (transformParameterNames line)
  | .pathTokens => transformPathTokens tables line

/-- A line with `://` that `urlsplit` refuses, under a transform that splits URLs. -/
def Unsplittable (line : String) : SourceTransform → Prop
  | .dnsLabels => containsText "://" (dnsValue tables line) = true ∧ ∃ e, urlsplit tables (dnsValue tables line) = .error e
  | .pathTokens => containsText "://" (strip line) = true ∧ ∃ e, urlsplit tables (strip line) = .error e
  | _ => False

variable {tables}

theorem transform_error_iff (line : String) (transform : SourceTransform) :
    (∃ e, transformLine tables line transform = .error e) ↔ Unsplittable tables line transform := by
  cases transform with
  | words => exact iff_of_false (fun ⟨_, h⟩ => by cases h) id
  | parameterNames => exact iff_of_false (fun ⟨_, h⟩ => by cases h) id
  | dnsLabels =>
    show (∃ e, transformDnsLabels tables line = .error e) ↔ _ ∧ _
    unfold transformDnsLabels
    cases hurl : containsText "://" (dnsValue tables line) with
    | false => simp [hurl]
    | true => cases hsplit : urlsplit tables (dnsValue tables line) <;> simp [hurl, hsplit]
  | pathTokens =>
    show (∃ e, transformPathTokens tables line = .error e) ↔ _ ∧ _
    unfold transformPathTokens
    cases hurl : containsText "://" (strip line) with
    | false => simp [hurl]
    | true => cases hsplit : urlsplit tables (strip line) <;> simp [hurl, hsplit]

/-- A line that stops a sync. -/
example : transformLine plainTables "http://[bad" .pathTokens = .error (.valueError "Invalid IPv6 URL") := by
  decide +kernel

end NightScout
