import NightScout.Policy.Domains
import NightScout.Lib.Fnmatch

/-!
# URLs

`urllib.parse` as far as `recon/policy/scope.py` uses it, and the scope's own canonical URLs and URL
patterns over it.
-/

namespace NightScout

open Lib

/-! ## `urllib.parse` -/

structure SplitResult where
  scheme : String
  netloc : String
  path : String
  query : String
  fragment : String
  deriving DecidableEq, Repr

/-- `text.partition(sep)`: what stands before the separator, whether there is one, and the rest. -/
def partition (sep : Char) (s : List Char) : List Char × Bool × List Char :=
  let before := s.takeWhile (· ≠ sep)
  (before, decide (sep ∈ s), s.drop (before.length + 1))

/-- `text.rpartition(sep)`; without a separator the whole text is what stands after it. -/
def rpartition (sep : Char) (s : List Char) : List Char × Bool × List Char :=
  let after := (s.reverse.takeWhile (· ≠ sep)).reverse
  (s.take (s.length - after.length - 1), decide (sep ∈ s), after)

/-- The scheme of a URL, in lower case, and what follows its colon. -/
def splitScheme (url : List Char) : List Char × List Char :=
  let (scheme, found, rest) := partition ':' url
  if found ∧ (scheme.head?.any fun c => c.isAlpha) ∧
      scheme.all (fun c => c.isAlphanum || c ∈ ['+', '-', '.']) then
    (scheme.map Char.toLower, rest)
  else ([], url)

/-- The network location of a URL, and what follows it. -/
def splitNetloc (url : List Char) : List Char × List Char :=
  if url.take 2 = ['/', '/'] then
    let rest := url.drop 2
    let netloc := rest.takeWhile fun c => c ∉ ['/', '?', '#']
    (netloc, rest.drop netloc.length)
  else ([], url)

/-- `_checknetloc`: no separator hides in a character that NFKC takes apart. -/
def checkNetloc (tables : Tables) (netloc : String) : Bool :=
  if isAscii netloc then true
  else
    let plain := String.ofList (netloc.toList.filter fun c => c ∉ ['@', ':', '#', '?'])
    let folded := tables.nfkc plain
    plain = folded || folded.toList.all fun c => c ∉ ['/', '?', '#', '@', ':']

def urlsplit (tables : Tables) (url : String) : Except PyError SplitResult :=
  let url := (url.toList.dropWhile fun c => c.toNat ≤ 32).filter fun c => c ∉ ['\t', '\r', '\n']
  let (scheme, url) := splitScheme url
  let (netloc, url) := splitNetloc url
  if ('[' ∈ netloc ∨ ']' ∈ netloc) ∧
      ¬ ('[' ∈ netloc ∧ ']' ∈ netloc ∧ tables.bracketed (String.ofList netloc)) then
    .error (.valueError "Invalid IPv6 URL")
  else
    let (url, _, fragment) := partition '#' url
    let (path, _, query) := partition '?' url
    if checkNetloc tables (String.ofList netloc) then
      .ok { scheme := String.ofList scheme, netloc := String.ofList netloc
            path := String.ofList path, query := String.ofList query
            fragment := String.ofList fragment }
    else .error (.valueError (s!"netloc {String.ofList netloc} contains invalid characters under " ++
      "NFKC normalization"))

/-- `urlunsplit`, of parts with a network location. -/
def urlunsplit (parts : SplitResult) : String :=
  let url :=
    if parts.path ≠ "" ∧ parts.path.toList.head? ≠ some '/' then "/" ++ parts.path else parts.path
  let url := "//" ++ parts.netloc ++ url
  let url := if parts.scheme ≠ "" then parts.scheme ++ ":" ++ url else url
  let url := if parts.query ≠ "" then url ++ "?" ++ parts.query else url
  if parts.fragment ≠ "" then url ++ "#" ++ parts.fragment else url

namespace SplitResult

/-- `_hostinfo`: the host and the port, as texts. -/
def hostInfo (parts : SplitResult) : List Char × List Char :=
  let (_, _, hostinfo) := rpartition '@' parts.netloc.toList
  let (_, bracket, bracketed) := partition '[' hostinfo
  if bracket then
    let (host, _, rest) := partition ']' bracketed
    (host, (partition ':' rest).2.2)
  else
    let (host, _, port) := partition ':' hostinfo
    (host, port)

def hostname (tables : Tables) (parts : SplitResult) : Option String :=
  let host := parts.hostInfo.1
  if host = [] then none
  else
    -- the zone of a scoped address keeps its case
    let (name, percent, zone) := partition '%' host
    some (strLower tables (String.ofList name) ++
      (if percent then "%" ++ String.ofList zone else ""))

/-- Whether `username` or `password` is not `None`. -/
def hasUserinfo (parts : SplitResult) : Bool := '@' ∈ parts.netloc.toList

def port (parts : SplitResult) : Except PyError (Option ℕ) :=
  let digits := parts.hostInfo.2
  if digits = [] then .ok none
  else if !digits.all Char.isDigit then
    .error (.valueError "Port could not be cast to integer value")
  else
    let value := digits.foldl (fun n c => 10 * n + (c.toNat - 48)) 0
    if value ≤ 65535 then .ok (some value)
    else .error (.valueError "Port out of range 0-65535")

end SplitResult

/-! ## Canonical URLs -/

def isDefaultPort (scheme : String) (port : ℕ) : Bool :=
  (scheme = "https" && port = 443) || (scheme = "http" && port = 80)

def effectivePort (parts : SplitResult) : Except PyError ℕ := do
  match ← parts.port with
  | some port => return port
  | none => return if parts.scheme = "https" then 443 else 80

/-- The network location of a canonical URL. -/
def canonicalNetloc (scheme host : String) (port : Option ℕ) : String :=
  match port with
  | some port => if isDefaultPort scheme port then host else s!"{host}:{port}"
  | none => host

/-- The path of a URL that may have none. -/
def pathOf (parts : SplitResult) : String := if parts.path = "" then "/" else parts.path

/-- The URL both canonical forms build. -/
def canonicalParts (parsed : SplitResult) (host : String) (port : Option ℕ) : String :=
  urlunsplit
    { scheme := parsed.scheme, netloc := canonicalNetloc parsed.scheme host port
      path := pathOf parsed, query := parsed.query, fragment := "" }

def canonicalUrl (tables : Tables) (value : String) : Except PyError String := do
  let parsed ← urlsplit tables value
  if parsed.scheme ≠ "http" ∧ parsed.scheme ≠ "https" then
    .error (.valueError "scope URLs must use http or https")
  else
    match parsed.hostname tables with
    | none => .error (.valueError "scope URL must contain a hostname")
    | some rawHost =>
      if parsed.hasUserinfo then .error (.valueError "scope URLs must not contain userinfo")
      else do
        let host ← canonicalDomain tables rawHost
        let port ← parsed.port
        return canonicalParts parsed host port

/-- The host of a URL rule, with its wildcard. -/
def canonicalPatternHost (tables : Tables) (rawHost : String) : Except PyError String :=
  if isWildcard rawHost then (canonicalDomain tables (suffixOf rawHost)).map ("*." ++ ·)
  else if hasGlob rawHost then
    .error (.valueError "URL host rules support only the leading '*.' wildcard form")
  else canonicalDomain tables rawHost

def canonicalUrlPattern (tables : Tables) (value : String) : Except PyError String := do
  let parsed ← urlsplit tables value
  if parsed.scheme ≠ "http" ∧ parsed.scheme ≠ "https" then
    .error (.valueError "URL rules must use http or https")
  else
    match parsed.hostname tables with
    | none => .error (.valueError "URL rule must contain a hostname")
    | some rawHost =>
      if parsed.hasUserinfo then .error (.valueError "URL rules must not contain userinfo")
      else do
        let host ← canonicalPatternHost tables rawHost
        let port ← parsed.port
        return canonicalParts parsed host port

/-- The comparison of `_match_url_pattern` after the hosts. -/
def matchUrlParts (candidate rule : SplitResult) : Except PyError Bool := do
  let candidatePort ← effectivePort candidate
  let rulePort ← effectivePort rule
  return candidatePort = rulePort && fnmatchcase (pathOf candidate) (pathOf rule) &&
    (rule.query = "" || fnmatchcase candidate.query rule.query)

def matchUrlPattern (tables : Tables) (value pattern : String) : Except PyError Bool := do
  let url ← canonicalUrl tables value
  let candidate ← urlsplit tables url
  let rule ← urlsplit tables pattern
  if candidate.scheme ≠ rule.scheme then return false
  else
    match candidate.hostname tables, rule.hostname tables with
    | some host, some ruleHost => do
      let sameHost ← matchDomainPattern tables host ruleHost
      if sameHost then matchUrlParts candidate rule else return false
    | _, _ => return false

/-- A URL that has a canonical form has a host, and the host has one too. -/
theorem canonicalUrl_ok {tables : Tables} {value url : String} (h : canonicalUrl tables value = .ok url) :
    ∃ parsed host host', urlsplit tables value = .ok parsed ∧ parsed.hostname tables = some host ∧
      canonicalDomain tables host = .ok host' := by
  obtain ⟨parsed, hparsed, h⟩ := bind_ok h
  obtain ⟨-, h⟩ := guard_ok h
  split at h
  · cases h
  next host hhost =>
    obtain ⟨-, h⟩ := guard_ok h
    obtain ⟨host', hhost', -⟩ := bind_ok h
    exact ⟨parsed, host, host', hparsed, hhost, hhost'⟩

theorem matchUrlPattern_ok {tables : Tables} {value pattern : String} {b : Bool}
    (h : matchUrlPattern tables value pattern = .ok b) : ∃ url, canonicalUrl tables value = .ok url := by
  obtain ⟨url, hurl, -⟩ := bind_ok h
  exact ⟨url, hurl⟩

end NightScout
