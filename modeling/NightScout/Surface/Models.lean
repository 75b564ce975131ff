import NightScout.Core.Events

/-!
# The models of the surface graph

`recon/surface/models.py`: nodes, edges and the snapshot that holds them. What pydantic's `Field` bounds is
a field of the structure.

Two edges are compared field by field. Metadata is compared as it is written; Python's `==` would also
equate `1`, `1.0` and `True`.
-/

namespace NightScout

open Lib

/-! ## Comparing metadata -/

mutual

/-- `==` of two JSON values. -/
def JsonValue.same : JsonValue → JsonValue → Bool
  | .null, .null => true
  | .bool a, .bool b => a = b
  | .int a, .int b => a = b
  | .float a, .float b => a = b
  | .nan, .nan => true
  | .infinity a, .infinity b => a = b
  | .string a, .string b => a = b
  | .array as, .array bs => JsonValue.sameItems as bs
  | .object as, .object bs => JsonValue.sameEntries as bs
  | _, _ => false

def JsonValue.sameItems : List JsonValue → List JsonValue → Bool
  | [], [] => true
  | a :: as, b :: bs => JsonValue.same a b && JsonValue.sameItems as bs
  | _, _ => false

def JsonValue.sameEntries : List (String × JsonValue) → List (String × JsonValue) → Bool
  | [], [] => true
  | (k, a) :: as, (l, b) :: bs => k = l && (JsonValue.same a b && JsonValue.sameEntries as bs)
  | _, _ => false

end

mutual

theorem JsonValue.same_iff : ∀ a b : JsonValue, a.same b = true ↔ a = b
  | .null, b => by cases b <;> simp [JsonValue.same]
  | .bool _, b => by cases b <;> simp [JsonValue.same]
  | .int _, b => by cases b <;> simp [JsonValue.same]
  | .float _, b => by cases b <;> simp [JsonValue.same]
  | .nan, b => by cases b <;> simp [JsonValue.same]
  | .infinity _, b => by cases b <;> simp [JsonValue.same]
  | .string _, b => by cases b <;> simp [JsonValue.same]
  | .array as, b => by
    cases b
    case array bs => simp only [JsonValue.same, JsonValue.sameItems_iff as bs, JsonValue.array.injEq]
    all_goals simp [JsonValue.same]
  | .object as, b => by
    cases b
    case object bs =>
      simp only [JsonValue.same, JsonValue.sameEntries_iff as bs, JsonValue.object.injEq]
    all_goals simp [JsonValue.same]

theorem JsonValue.sameItems_iff : ∀ as bs : List JsonValue,
    JsonValue.sameItems as bs = true ↔ as = bs
  | [], bs => by cases bs <;> simp [JsonValue.sameItems]
  | a :: as, bs => by
    cases bs with
    | nil => simp [JsonValue.sameItems]
    | cons b bs =>
      simp only [JsonValue.sameItems, Bool.and_eq_true, JsonValue.same_iff a b,
        JsonValue.sameItems_iff as bs, List.cons.injEq]

theorem JsonValue.sameEntries_iff : ∀ as bs : List (String × JsonValue),
    JsonValue.sameEntries as bs = true ↔ as = bs
  | [], bs => by cases bs <;> simp [JsonValue.sameEntries]
  | (k, a) :: as, bs => by
    cases bs with
    | nil => simp [JsonValue.sameEntries]
    | cons e bs =>
      simp only [JsonValue.sameEntries, Bool.and_eq_true, decide_eq_true_eq, JsonValue.same_iff a e.2,
        JsonValue.sameEntries_iff as bs, List.cons.injEq, Prod.ext_iff, and_assoc]

end

instance : DecidableEq JsonValue := fun a b => decidable_of_iff _ (JsonValue.same_iff a b)

instance {K V : Type} [DecidableEq K] [DecidableEq V] : DecidableEq (Dict K V) := fun a b =>
  decidable_of_iff (a.entries = b.entries) (by
    constructor
    · intro h
      cases a
      cases b
      cases h
      rfl
    · intro h
      rw [h])

/-! ## Nodes -/

inductive SurfaceNodeKind where
  | domain | dnsRecord | ipAddress | cidr | asn
  | httpService | networkService | endpoint
  | javascript | certificate | technology | fingerprint | favicon | parameter
  | intelligence | artifact | mobileArtifact
  | vulnerabilityCandidate | vulnerabilityFinding
  deriving DecidableEq, Repr

def SurfaceNodeKind.value : SurfaceNodeKind → String
  | domain => "DOMAIN" | dnsRecord => "DNS_RECORD" | ipAddress => "IP_ADDRESS"
  | cidr => "CIDR" | asn => "ASN"
  | httpService => "HTTP_SERVICE" | networkService => "NETWORK_SERVICE" | endpoint => "ENDPOINT"
  | javascript => "JAVASCRIPT" | certificate => "CERTIFICATE" | technology => "TECHNOLOGY"
  | fingerprint => "FINGERPRINT" | favicon => "FAVICON" | parameter => "PARAMETER"
  | intelligence => "INTELLIGENCE" | artifact => "ARTIFACT" | mobileArtifact => "MOBILE_ARTIFACT"
  | vulnerabilityCandidate => "VULNERABILITY_CANDIDATE"
  | vulnerabilityFinding => "VULNERABILITY_FINDING"

inductive DiscoveryState where
  | confirmed | hypothesis | historical | observed | stale
  deriving DecidableEq, Repr

def DiscoveryState.value : DiscoveryState → String
  | confirmed => "CONFIRMED" | hypothesis => "HYPOTHESIS" | historical => "HISTORICAL"
  | observed => "OBSERVED" | stale => "STALE"

inductive LivenessState where
  | live | unverified | notObserved | unknown
  deriving DecidableEq, Repr

def LivenessState.value : LivenessState → String
  | live => "LIVE" | unverified => "UNVERIFIED" | notObserved => "NOT_OBSERVED" | unknown => "UNKNOWN"

structure SurfaceEvidenceRef where
  eventId : String
  source : String
  eventType : EventType
  firstSeen : Instant
  deriving DecidableEq

structure SurfaceNode where
  nodeId : String
  kind : SurfaceNodeKind
  value : String
  label : String
  roles : List String := []
  scopeState : ScopeState := .unknown
  discoveryState : DiscoveryState := .observed
  livenessState : LivenessState := .unknown
  confidence : ℚ
  novelty : ℚ
  firstSeen : Instant
  lastSeen : Instant
  observationCount : ℕ
  assetIds : List String
  sources : List String
  tags : List String := []
  evidence : List SurfaceEvidenceRef := []
  metadata : Metadata := .empty
  confidence_unit : 0 ≤ confidence ∧ confidence ≤ 1
  novelty_unit : 0 ≤ novelty ∧ novelty ≤ 1
  observed : 1 ≤ observationCount
  deriving DecidableEq

/-! ## Edges -/

structure SurfaceEdge where
  edgeId : String
  sourceNodeId : String
  targetNodeId : String
  relation : String
  confidence : ℚ
  firstSeen : Instant
  lastSeen : Instant
  supportingEventIds : List String := []
  derived : Bool := false
  metadata : Metadata := .empty
  confidence_unit : 0 ≤ confidence ∧ confidence ≤ 1
  deriving DecidableEq

/-- Source, relation and target. -/
def SurfaceEdge.key (edge : SurfaceEdge) : String × String × String :=
  (edge.sourceNodeId, edge.relation, edge.targetNodeId)

/-! ## Snapshots -/

structure SurfaceGraphStatistics where
  nodeCount : ℕ
  edgeCount : ℕ
  observationsConsidered : ℕ
  observationsExcluded : ℕ
  nodesByKind : Dict String ℕ
  nodesByState : Dict String ℕ
  deriving DecidableEq

structure SurfaceGraphSnapshot where
  schemaVersion : ℕ := 1
  targetId : String
  generatedAt : Instant
  fingerprint : String
  roots : List String
  nodes : List SurfaceNode
  edges : List SurfaceEdge
  statistics : SurfaceGraphStatistics
  warnings : List String := []

/-- Nodes have distinct identifiers, edges distinct sources, relations and targets, and an edge is between
    nodes. -/
structure SurfaceGraphSnapshot.WellFormed (snapshot : SurfaceGraphSnapshot) : Prop where
  nodeIds : (snapshot.nodes.map fun node => node.nodeId).Nodup
  edgeKeys : (snapshot.edges.map fun edge => edge.key).Nodup
  endpoints : ∀ edge ∈ snapshot.edges,
    edge.sourceNodeId ∈ snapshot.nodes.map (fun node => node.nodeId) ∧
      edge.targetNodeId ∈ snapshot.nodes.map fun node => node.nodeId

end NightScout
