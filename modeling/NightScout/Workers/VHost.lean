import NightScout.Lib.Texts
import NightScout.Workers.Permutations
import NightScout.Workers.RoutedInputs

/-!
# Virtual hosts: candidates, signatures and differentials

The pure half of `recon/workers/vhost.py`. A candidate Host value is compared with two controls, names that
no virtual host is expected to have. A dimension of the response is looked at only where the two
controls agree on it (`stableSignatureDimensions`), and each that differs from them scores its weight.

`sha256` is a parameter, and weights and scores are rationals: the weights are multiples of 1/4.
-/

namespace NightScout

open Lib

inductive VHostCandidateMethod where
  | wordSibling | wordChild
  deriving DecidableEq, Repr

structure VHostCandidate (tables : Tables) where
  hostname : String
  lane : CandidateLane
  method : VHostCandidateMethod
  score : ℚ := 0
  confidence : ℚ := 1 / 2
  wordToken : Stripped
  globalSources : Finset String := ∅
  targetSources : Finset String := ∅
  metadata : Metadata := .empty
  hostname_normal : normalizeDnsName tables hostname = .ok hostname
  confidence_unit : 0 ≤ confidence ∧ confidence ≤ 1

/-- One response to one explicit Host-header request. -/
structure VHostProbeResult where
  requestedUrl : String
  transportHostname : String
  hostHeader : String
  statusCode : Option ℕ := none
  title : Option String := none
  bodySha256 : Option String := none
  contentType : Option String := none
  contentLength : Option ℕ := none
  wordCount : Option ℕ := none
  lineCount : Option ℕ := none
  location : Option String := none
  webserver : Option String := none
  responseTime : Option JsonValue := none
  failed : Bool := false
  error : Option String := none
  metadata : Metadata := .empty

structure VHostResponseSignature where
  statusCode : Option ℕ
  bodySha256 : Option String
  contentLength : Option ℕ
  wordCount : Option ℕ
  lineCount : Option ℕ
  title : Option String
  location : Option String
  webserver : Option String
  deriving DecidableEq, Repr

/-- The fields of a signature, by their names. -/
inductive SignatureField where
  | statusCode | bodySha256 | contentLength | wordCount | lineCount | title | location | webserver
  deriving DecidableEq, Repr

/-- A value of a field: a number or a text. -/
inductive SignatureValue where
  | number (n : ℕ)
  | text (s : String)
  deriving DecidableEq, Repr

/-- `getattr(signature, name)`. -/
def VHostResponseSignature.get (s : VHostResponseSignature) : SignatureField → Option SignatureValue
  | .statusCode => s.statusCode.map .number
  | .bodySha256 => s.bodySha256.map .text
  | .contentLength => s.contentLength.map .number
  | .wordCount => s.wordCount.map .number
  | .lineCount => s.lineCount.map .number
  | .title => s.title.map .text
  | .location => s.location.map .text
  | .webserver => s.webserver.map .text

/-- `VHostResponseSignature.model_fields`. -/
def signatureFields : List SignatureField :=
  [.statusCode, .bodySha256, .contentLength, .wordCount, .lineCount, .title, .location, .webserver]

theorem mem_signatureFields (name : SignatureField) : name ∈ signatureFields := by
  cases name <;> decide

/-- The `weights` of `compare_to_baseline`. -/
def SignatureField.weight : SignatureField → ℚ
  | .statusCode => 5 / 2
  | .bodySha256 => 3
  | .contentLength => 5 / 4
  | .wordCount => 1
  | .lineCount => 3 / 4
  | .title => 1
  | .location => 3 / 2
  | .webserver => 3 / 4

structure VHostDifferential where
  stableDimensions : List SignatureField
  changedDimensions : List SignatureField
  score : ℚ
  interesting : Bool
  deriving DecidableEq

section Signatures

variable (tables : Tables)

/-- `normalized.replace(host, "{host}")`, for the names that are host names. -/
def replaceHosts (normalized : List Char) (hostnames : List String) : List Char :=
  hostnames.foldl (fun normalized hostname =>
    match normalizeDnsName tables hostname with
    | .error _ => normalized
    | .ok host => replaceAll host.toList "\x7bhost\x7d".toList normalized) normalized

def normalizeLocationForSignature (value : Option String) (hostnames : List String) : Option String :=
  match value with
  | none => none
  | some value =>
    let normalized := strLower tables (strip value)
    if normalized = "" then none
    else some (String.ofList (replaceHosts tables normalized.toList hostnames))

def responseSignature (result : VHostProbeResult) : VHostResponseSignature where
  statusCode := result.statusCode
  bodySha256 := result.bodySha256
  contentLength := result.contentLength
  wordCount := result.wordCount
  lineCount := result.lineCount
  title := result.title
  location := normalizeLocationForSignature tables result.location
    [result.transportHostname, result.hostHeader]
  webserver := result.webserver

def stableSignatureDimensions (first second : VHostResponseSignature) : List SignatureField :=
  signatureFields.filter fun name => first.get name ≠ none ∧ first.get name = second.get name

/-- The changed dimensions of `compare_to_baseline`. -/
def changedDimensions (baseline candidate : VHostResponseSignature) (stable : List SignatureField) :
    List SignatureField :=
  stable.filter fun name => candidate.get name ≠ none ∧ candidate.get name ≠ baseline.get name

def compareToBaseline (baseline candidate : VHostResponseSignature)
    (stable : List SignatureField) (minScore : ℚ) : VHostDifferential :=
  let changed := changedDimensions baseline candidate stable
  let score := (changed.map SignatureField.weight).sum
  { stableDimensions := stable
    changedDimensions := changed
    score
    interesting := !changed.isEmpty && decide (minScore ≤ score) }

theorem mem_stableSignatureDimensions {first second : VHostResponseSignature}
    {name : SignatureField} : name ∈ stableSignatureDimensions first second ↔
      first.get name ≠ none ∧ first.get name = second.get name := by
  simp [stableSignatureDimensions, mem_signatureFields]

theorem mem_changedDimensions {baseline candidate : VHostResponseSignature}
    {stable : List SignatureField} {name : SignatureField} : name ∈ changedDimensions baseline candidate stable ↔
      name ∈ stable ∧ candidate.get name ≠ none ∧ candidate.get name ≠ baseline.get name := by
  simp [changedDimensions]

/-- The candidate shows a value where the controls agree on another one. -/
def DiffersFromBoth (first second candidate : VHostResponseSignature) (name : SignatureField) : Prop :=
  first.get name ≠ none ∧ first.get name = second.get name ∧ candidate.get name ≠ none ∧
    candidate.get name ≠ first.get name ∧ candidate.get name ≠ second.get name

/-- **An interesting differential is a difference from both controls.** -/
theorem differsFromBoth_of_interesting {first second candidate : VHostResponseSignature} {minScore : ℚ}
    (h : (compareToBaseline first candidate (stableSignatureDimensions first second) minScore).interesting = true) :
    ∃ name, DiffersFromBoth first second candidate name := by
  have hchanged : changedDimensions first candidate (stableSignatureDimensions first second) ≠ [] := by
    intro hnone
    simp [compareToBaseline, hnone] at h
  obtain ⟨name, hname⟩ := List.exists_mem_of_ne_nil _ hchanged
  obtain ⟨hstable, hsome, hne⟩ := mem_changedDimensions.mp hname
  obtain ⟨hfirst, hsame⟩ := mem_stableSignatureDimensions.mp hstable
  exact ⟨name, hfirst, hsame, hsome, hne, hsame ▸ hne⟩

end Signatures

/-! ## The controls of a parent -/

section Controls

variable (tables : Tables) (sha256 : String → String)

def immediateParentDomain (hostname : String) : Except PyError (Option String) := do
  let normalized ← normalizeDnsName tables hostname
  match labels normalized with
  | [] | [_] => return none
  | _ :: rest => return some (String.ofList (['.'].intercalate rest))

/-- The text a control's label is taken from. -/
def controlSeed (service : VHostService) (inputEvent : Event) (parent : String) : String :=
  service.url ++ "\n" ++ inputEvent.eventId ++ "\n" ++ parent

/-- The label of a control: sixteen digits of the digest. -/
def controlLabel (digits : List Char) : String := "ns-vh-" ++ String.ofList digits

def deterministicControlHostnames (parentDomain : String) (service : VHostService) (inputEvent : Event) :
    Except PyError (String × String) := do
  let parent ← normalizeDnsName tables parentDomain
  let digest := (sha256 (controlSeed service inputEvent parent)).toList
  let first ← normalizeDnsName tables (controlLabel (digest.take 16) ++ "." ++ parent)
  let second ← normalizeDnsName tables (controlLabel ((digest.drop 16).take 16) ++ "." ++ parent)
  return (first, second)

end Controls

/-! ## Configuration -/

structure VHostWorkerConfig where
  targetedLimit : ℕ := 250
  explorationLimit : ℕ := 100
  rateLeaseSeconds : ℚ := 30
  defaultRetryAfterSeconds : ℚ := 5
  minDifferentialScore : ℚ := 2
  minStableDimensions : ℕ := 1
  vhostConfidenceBase : ℚ := 18 / 25
  vhostConfidenceCeiling : ℚ := 24 / 25
  defaultRetryAfterSeconds_nonneg : 0 ≤ defaultRetryAfterSeconds

theorem five_nonneg : (0 : ℚ) ≤ 5 := by norm_num

/-- `VHostWorkerConfig()`. -/
def VHostWorkerConfig.default : VHostWorkerConfig where
  defaultRetryAfterSeconds_nonneg := five_nonneg

end NightScout
