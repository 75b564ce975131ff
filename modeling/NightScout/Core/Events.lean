import NightScout.Core.Python
import NightScout.Lib.Dict
import Mathlib.Algebra.Order.Ring.Rat

/-!
# Events

`Event` of `recon/core/events.py`: what every discovery is normalized into before it is stored, scored or
routed. A value and a source are stripped when an event is made; the value may be rewritten afterwards
without its validator, so only the source carries the fact.

Metadata is JSON.
-/

namespace NightScout

open Lib

inductive EventType where
  | rootDomain
  | dnsName | dnsRecord | ipAddress | asn | cidr
  | url | urlPath | httpService | httpResponse
  | certificate | certSan
  | favicon | technology | fingerprint
  | javascript | apiEndpoint | parameterName
  | artifact | mobileArtifact
  | projectName | vocabToken | namingPattern
  | vulnerabilityCandidate | vulnerabilityFinding
  | relationship
  | policyBlock | humanReview
  deriving DecidableEq, Repr

def EventType.value : EventType → String
  | rootDomain => "ROOT_DOMAIN"
  | dnsName => "DNS_NAME" | dnsRecord => "DNS_RECORD" | ipAddress => "IP_ADDRESS"
  | asn => "ASN" | cidr => "CIDR"
  | url => "URL" | urlPath => "URL_PATH" | httpService => "HTTP_SERVICE"
  | httpResponse => "HTTP_RESPONSE"
  | certificate => "CERTIFICATE" | certSan => "CERT_SAN"
  | favicon => "FAVICON" | technology => "TECHNOLOGY" | fingerprint => "FINGERPRINT"
  | javascript => "JAVASCRIPT" | apiEndpoint => "API_ENDPOINT"
  | parameterName => "PARAMETER_NAME"
  | artifact => "ARTIFACT" | mobileArtifact => "MOBILE_ARTIFACT"
  | projectName => "PROJECT_NAME" | vocabToken => "VOCAB_TOKEN"
  | namingPattern => "NAMING_PATTERN"
  | vulnerabilityCandidate => "VULNERABILITY_CANDIDATE"
  | vulnerabilityFinding => "VULNERABILITY_FINDING"
  | relationship => "RELATIONSHIP"
  | policyBlock => "POLICY_BLOCK" | humanReview => "HUMAN_REVIEW"

/-- Authorization state assigned by the scope engine. -/
inductive ScopeState where
  | unknown | inScope | outOfScope | passiveOnly | ambiguous
  deriving DecidableEq, Repr

def ScopeState.value : ScopeState → String
  | unknown => "UNKNOWN" | inScope => "IN_SCOPE" | outOfScope => "OUT_OF_SCOPE"
  | passiveOnly => "PASSIVE_ONLY" | ambiguous => "AMBIGUOUS"

/-- A metadata value. -/
inductive JsonValue where
  | null
  | bool (b : Bool)
  | int (n : ℤ)
  | float (x : ℚ)
  | nan
  | infinity (negative : Bool)
  | string (s : String)
  | array (items : List JsonValue)
  | object (items : List (String × JsonValue))
  deriving BEq

abbrev Metadata := Dict String JsonValue

structure Event where
  eventId : String
  type : EventType
  value : String
  source : Stripped
  parentEventId : Option String := none
  firstSeen : Instant
  lastSeen : Instant
  scopeState : ScopeState := .unknown
  confidence : ℚ := 0
  novelty : ℚ := 0
  depth : ℕ := 0
  tags : Finset String := ∅
  metadata : Metadata := .empty
  confidence_unit : 0 ≤ confidence ∧ confidence ≤ 1 := by decide +kernel
  novelty_unit : 0 ≤ novelty ∧ novelty ≤ 1 := by decide +kernel

theorem zero_unit : (0 : ℚ) ≤ 0 ∧ (0 : ℚ) ≤ 1 := ⟨le_refl 0, zero_le_one⟩

theorem one_unit : (0 : ℚ) ≤ 1 ∧ (1 : ℚ) ≤ 1 := ⟨zero_le_one, le_refl 1⟩

def Event.identityKey (event : Event) : String := s!"{event.type.value}:{event.value}"

/-! ## Sanitizing -/

/-- The text rewriting of `recon/core/redaction.py`. -/
structure Sanitizer where
  sanitizeUrl : String → String
  sanitizeMetadata : Metadata → Metadata

def Sanitizer.sanitizeEventForStorage (lib : Sanitizer) (event : Event) : Event :=
  let safeValue := lib.sanitizeUrl event.value
  let safeMetadata := lib.sanitizeMetadata event.metadata
  if safeValue = event.value ∧ (safeMetadata.entries == event.metadata.entries) = true then event
  else { event with
    value := safeValue
    metadata := safeMetadata
    tags := insert "sensitive-data-redacted" event.tags }

end NightScout
