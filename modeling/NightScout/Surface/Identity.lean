import NightScout.Policy.ScopeAddresses
import NightScout.Surface.Models

/-!
# Surface identities

`recon/surface/identity.py`: the node an observation belongs to. An identity is a kind and a canonical value;
the same observation read twice is the same node.

On ASCII text upper case and case folding are computed here. What the Unicode tables say of other text, and
the digest of a node's identifier, are parameters.
-/

namespace NightScout

open Lib

/-- What the identities take from the standard library besides what the scope takes. -/
structure IdentityLib extends ScopeLib where
  /-- `str.upper` of a text that is not ASCII. -/
  upper : String → String
  /-- `str.casefold` of a text that is not ASCII. -/
  casefold : String → String
  /-- `hashlib.sha256(text.encode("utf-8")).hexdigest()`. -/
  hexdigest : String → String

def strUpper (lib : IdentityLib) (s : String) : String :=
  if isAscii s then String.ofList (s.toList.map Char.toUpper) else lib.upper s

def strCasefold (lib : IdentityLib) (s : String) : String :=
  if isAscii s then String.ofList (s.toList.map Char.toLower) else lib.casefold s

/-- `text.split()`. -/
def splitSpaces (s : String) : List String :=
  ((s.toList.splitOnP isSpace).filter (· ≠ [])).map String.ofList

/-- `text.rstrip("/")`. -/
def rstripSlashes (s : String) : String := String.ofList (s.toList.rdropWhile (· = '/'))

/-! ## URLs -/

def usesNetloc : List String :=
  ["", "ftp", "http", "gopher", "nntp", "telnet", "imap", "wais", "file", "mms", "https", "shttp", "snews",
    "prospero", "rtsp", "rtsps", "rtspu", "rsync", "svn", "svn+ssh", "sftp", "nfs", "git", "git+ssh", "ws",
    "wss", "itms-services"]

/-- `urlunsplit`, of any parts. -/
def urlunsplitParts (parts : SplitResult) : String :=
  if parts.netloc ≠ "" then urlunsplit parts
  else
    let url := parts.path
    let url :=
      if url.toList.take 2 = ['/', '/'] then "//" ++ url
      else if parts.scheme ≠ "" ∧ parts.scheme ∈ usesNetloc ∧ (url = "" ∨ url.toList.head? = some '/') then
        "//" ++ url
      else url
    let url := if parts.scheme ≠ "" then parts.scheme ++ ":" ++ url else url
    let url := if parts.query ≠ "" then url ++ "?" ++ parts.query else url
    if parts.fragment ≠ "" then url ++ "#" ++ parts.fragment else url

theorem urlunsplitParts_netloc {parts : SplitResult} (h : parts.netloc ≠ "") :
    urlunsplitParts parts = urlunsplit parts := if_pos h

def domainFromUrl (tables : Tables) (value : String) : Option String :=
  match urlsplit tables value with
  | .error _ => none
  | .ok parsed => (parsed.hostname tables).map fun host => rstripDots (strLower tables host)

/-- The port a scheme has by default. -/
def defaultPort (scheme : String) : Option ℕ :=
  if scheme = "https" then some 443 else if scheme = "http" then some 80 else none

/-- The host and the port, unless it is none or the scheme's own. -/
def shownNetloc (scheme host : String) (port : Option ℕ) : String :=
  match port with
  | none => host
  | some n => if some n = defaultPort scheme then host else s!"{host}:{n}"

def serviceFromUrl (tables : Tables) (value : String) : Option String :=
  match urlsplit tables value with
  | .error _ => none
  | .ok parsed =>
    match parsed.hostname tables with
    | none => none
    | some hostname =>
      if parsed.scheme = "" then none
      else
        let scheme := strLower tables parsed.scheme
        let host := rstripDots (strLower tables hostname)
        match parsed.port with
        | .error _ => none
        | .ok port => some s!"{scheme}://{shownNetloc scheme host port}"

/-- `_normalize_domain`. -/
def normalizeDomainValue (tables : Tables) (value : String) : String :=
  let normalized := if isWildcard value then suffixOf value else value
  let normalized := rstripDots (strLower tables (strip normalized))
  if isWildcard value then "*." ++ normalized else normalized

def normalizeService (tables : Tables) (value : String) : String :=
  (serviceFromUrl tables value).getD (rstripSlashes (strLower tables (strip value)))

def normalizeUrl (tables : Tables) (value : String) : Except PyError String := do
  let parsed ← urlsplit tables value
  match parsed.hostname tables with
  | none => return strip value
  | some hostname =>
    if parsed.scheme = "" then return strip value
    else
      let scheme := strLower tables parsed.scheme
      let host := rstripDots (strLower tables hostname)
      let port ← parsed.port
      return urlunsplitParts
        { scheme, netloc := shownNetloc scheme host port, path := pathOf parsed, query := parsed.query
          fragment := "" }

def normalizeUrlIfPossible (tables : Tables) (value : String) : String :=
  match normalizeUrl tables value with
  | .ok url => url
  | .error _ => strip value

/-! ## Identities -/

structure SurfaceIdentity where
  kind : SurfaceNodeKind
  canonicalValue : String
  deriving DecidableEq, Repr

def SurfaceIdentity.key (identity : SurfaceIdentity) : String :=
  s!"{identity.kind.value}:{identity.canonicalValue}"

def SurfaceIdentity.nodeId (lib : IdentityLib) (identity : SurfaceIdentity) : String :=
  "sgn_" ++ String.ofList ((lib.hexdigest identity.key).toList.take 24)

def excludedIntelligence : List EventType := [.projectName, .vocabToken, .namingPattern]

/-- What `ipaddress` reads, or its `ValueError`. -/
def ipValue (read : Option String) (value : String) : Except PyError String :=
  match read with
  | some text => .ok text
  | none => .error (.valueError s!"{value} does not appear to be an IPv4 or IPv6 address")

def asnValue (lib : IdentityLib) (value : String) : String :=
  let canonical := strUpper lib value
  if canonical.toList.take 2 = ['A', 'S'] then canonical else "AS" ++ canonical

/-- The identity of a text that is not blank. -/
def identityOf (lib : IdentityLib) (kind : EventType) (material : String) :
    Except PyError (Option SurfaceIdentity) :=
  match kind with
  | .policyBlock | .humanReview | .relationship | .httpResponse | .urlPath => .ok none
  | .rootDomain | .dnsName | .certSan => .ok (some ⟨.domain, normalizeDomainValue lib.toTables material⟩)
  | .dnsRecord => .ok (some ⟨.dnsRecord, " ".intercalate (splitSpaces material)⟩)
  | .ipAddress => (ipValue (lib.address material) material).map fun value => some ⟨.ipAddress, value⟩
  | .cidr => (ipValue (lib.network material) material).map fun value => some ⟨.cidr, value⟩
  | .asn => .ok (some ⟨.asn, asnValue lib material⟩)
  | .httpService => .ok (some ⟨.httpService, normalizeService lib.toTables material⟩)
  | .url | .apiEndpoint => (normalizeUrl lib.toTables material).map fun value => some ⟨.endpoint, value⟩
  | .javascript => .ok (some ⟨.javascript, normalizeUrlIfPossible lib.toTables material⟩)
  | .certificate => .ok (some ⟨.certificate, strLower lib.toTables material⟩)
  | .technology => .ok (some ⟨.technology, strCasefold lib material⟩)
  | .fingerprint => .ok (some ⟨.fingerprint, strCasefold lib material⟩)
  | .favicon => .ok (some ⟨.favicon, material⟩)
  | .parameterName => .ok (some ⟨.parameter, material⟩)
  | .artifact => .ok (some ⟨.artifact, normalizeUrlIfPossible lib.toTables material⟩)
  | .mobileArtifact => .ok (some ⟨.mobileArtifact, material⟩)
  | .vulnerabilityCandidate => .ok (some ⟨.vulnerabilityCandidate, material⟩)
  | .vulnerabilityFinding => .ok (some ⟨.vulnerabilityFinding, material⟩)
  | .projectName | .vocabToken | .namingPattern => .ok (some ⟨.intelligence, strCasefold lib material⟩)

def surfaceIdentity (lib : IdentityLib) (kind : EventType) (value : String) (includeIntelligence : Bool) :
    Except PyError (Option SurfaceIdentity) :=
  let material := strip value
  if material = "" then .ok none
  else if kind ∈ excludedIntelligence ∧ includeIntelligence = false then .ok none
  else identityOf lib kind material

end NightScout
