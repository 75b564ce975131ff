import NightScout.Core.JsonFields
import NightScout.Intelligence.Confidence
import NightScout.Lib.StableSort
import NightScout.Policy.CanonicalSubjects

/-!
# Novelty

`recon/intelligence/novelty.py`: how different an observation is from what is known of a target. Factors raise the
baseline of the event's type or reduce it; those of one direction are combined by noisy-or.

Numbers are rationals. The logarithm is a parameter with the properties the score relies on; so are `str.upper`, what
`str` makes of a metadata value that is no text, and how a score is written in the explanation. Of a history, what an
assessment does not read (its times, its metadata, the fingerprints of its changes) is left out.
-/

namespace NightScout

open Lib

/-- `log1p`, and the logarithm of 128 that it is divided by. -/
structure Logarithms where
  log1p : ℚ → ℚ
  log128 : ℚ
  log1p_le : ∀ x y : ℚ, 0 ≤ x → x ≤ y → log1p x ≤ log1p y
  log128_pos : 0 < log128

/-! ## Models -/

inductive NoveltyFactorKind where
  | eventTypeBaseline | firstObservation | lowObservationCount | repeatedObservation
  | historicalOnly | liveAfterHistorical
  | newHost | newUrl | newEndpoint | newCertSan | newJavascript | newAsset
  | resurrectedHost | reappearedAsset | disappearedHost | disappearedAsset
  | ipChanged | statusChanged | titleChanged | bodyHashChanged | certificateChanged | scopeChanged | stateChanged
  | environmentSignal | apiVersionSignal
  | rareFingerprint | commonFingerprint | rareTechStack | commonTechStack | rareNaming | commonNaming
  | staticSurface | cdnSurface | marketingSurface
  deriving DecidableEq, Repr

def NoveltyFactorKind.value : NoveltyFactorKind → String
  | eventTypeBaseline => "EVENT_TYPE_BASELINE" | firstObservation => "FIRST_OBSERVATION"
  | lowObservationCount => "LOW_OBSERVATION_COUNT" | repeatedObservation => "REPEATED_OBSERVATION"
  | historicalOnly => "HISTORICAL_ONLY" | liveAfterHistorical => "LIVE_AFTER_HISTORICAL"
  | newHost => "NEW_HOST" | newUrl => "NEW_URL" | newEndpoint => "NEW_ENDPOINT" | newCertSan => "NEW_CERT_SAN"
  | newJavascript => "NEW_JAVASCRIPT" | newAsset => "NEW_ASSET"
  | resurrectedHost => "RESURRECTED_HOST" | reappearedAsset => "REAPPEARED_ASSET"
  | disappearedHost => "DISAPPEARED_HOST" | disappearedAsset => "DISAPPEARED_ASSET"
  | ipChanged => "IP_CHANGED" | statusChanged => "STATUS_CHANGED" | titleChanged => "TITLE_CHANGED"
  | bodyHashChanged => "BODY_HASH_CHANGED" | certificateChanged => "CERTIFICATE_CHANGED"
  | scopeChanged => "SCOPE_CHANGED" | stateChanged => "STATE_CHANGED"
  | environmentSignal => "ENVIRONMENT_SIGNAL" | apiVersionSignal => "API_VERSION_SIGNAL"
  | rareFingerprint => "RARE_FINGERPRINT" | commonFingerprint => "COMMON_FINGERPRINT"
  | rareTechStack => "RARE_TECH_STACK" | commonTechStack => "COMMON_TECH_STACK"
  | rareNaming => "RARE_NAMING" | commonNaming => "COMMON_NAMING"
  | staticSurface => "STATIC_SURFACE" | cdnSurface => "CDN_SURFACE" | marketingSurface => "MARKETING_SURFACE"

inductive NoveltyFactorDirection where
  | positive | negative | neutral
  deriving DecidableEq, Repr

structure NoveltyFactor where
  kind : NoveltyFactorKind
  direction : NoveltyFactorDirection
  weight : ℚ
  value : ℚ
  reason : String
  metadata : Metadata := .empty
  weight_unit : IsUnit01 weight
  value_unit : IsUnit01 value

def NoveltyFactor.contribution (factor : NoveltyFactor) : ℚ :=
  match factor.direction with
  | .negative => -(factor.weight * factor.value)
  | .neutral => 0
  | .positive => factor.weight * factor.value

structure NoveltyHistory where
  subjectKey : Stripped
  observationCount : ℕ := 0
  liveObservationCount : ℕ := 0
  historicalObservationCount : ℕ := 0
  distinctSourceFamilies : ℕ := 0
  changeTypes : Finset String := ∅
  fingerprintPeerCount : ℕ := 0
  fingerprintPeerCountKnown : Bool := false
  technologyPeerCount : ℕ := 0
  technologyPeerCountKnown : Bool := false
  namingFrequency : Option ℚ := none
  historicalOnly : Bool := false
  liveAfterHistorical : Bool := false
  counts : liveObservationCount ≤ observationCount ∧ historicalObservationCount ≤ observationCount := by decide
  naming_unit : ∀ frequency ∈ namingFrequency, IsUnit01 frequency := by simp

structure NoveltyAssessment where
  subjectKey : String
  novelty : ℚ
  baseline : ℚ
  positiveUnion : ℚ
  negativeUnion : ℚ
  observationCount : ℕ
  distinctSourceFamilies : ℕ
  factors : List NoveltyFactor
  explanation : String

structure NoveltyModelConfig where
  defaultBaseline : ℚ
  eventTypeBaselines : Dict EventType ℚ
  firstObservationWeight : ℚ
  lowObservationWeight : ℚ
  historicalOnlyWeight : ℚ
  liveAfterHistoricalWeight : ℚ
  environmentWeight : ℚ
  apiVersionWeight : ℚ
  rareFingerprintWeight : ℚ
  rareTechnologyWeight : ℚ
  rareNamingWeight : ℚ
  repeatedPenaltyWeight : ℚ
  commonFingerprintPenaltyWeight : ℚ
  commonTechnologyPenaltyWeight : ℚ
  commonNamingPenaltyWeight : ℚ
  staticPenaltyWeight : ℚ
  cdnPenaltyWeight : ℚ
  marketingPenaltyWeight : ℚ
  changeWeights : Dict String ℚ
  weights_unit : ∀ weight ∈ [defaultBaseline, firstObservationWeight, lowObservationWeight, historicalOnlyWeight,
    liveAfterHistoricalWeight, environmentWeight, apiVersionWeight, rareFingerprintWeight, rareTechnologyWeight,
    rareNamingWeight, repeatedPenaltyWeight, commonFingerprintPenaltyWeight, commonTechnologyPenaltyWeight,
    commonNamingPenaltyWeight, staticPenaltyWeight, cdnPenaltyWeight, marketingPenaltyWeight], IsUnit01 weight
  baselines_unit : ∀ type baseline, eventTypeBaselines.get? type = some baseline → IsUnit01 baseline
  changes_unit : ∀ change weight, changeWeights.get? change = some weight → IsUnit01 weight

/-- The default of `event_type_baselines`, in percent. -/
def defaultEventTypeBaselines : List (EventType × ℕ) :=
  [(.rootDomain, 15), (.dnsName, 38), (.dnsRecord, 24), (.ipAddress, 22), (.asn, 12), (.cidr, 16), (.url, 38),
    (.urlPath, 28), (.httpService, 34), (.httpResponse, 24), (.certificate, 32), (.certSan, 44), (.favicon, 30),
    (.technology, 18), (.fingerprint, 30), (.javascript, 42), (.apiEndpoint, 52), (.parameterName, 35), (.artifact, 40),
    (.mobileArtifact, 45), (.projectName, 34), (.vocabToken, 16), (.namingPattern, 32), (.vulnerabilityCandidate, 58),
    (.vulnerabilityFinding, 82), (.relationship, 18), (.policyBlock, 5), (.humanReview, 20)]

/-- The default of `change_weights`, in percent. -/
def defaultChangeWeights : List (String × ℕ) :=
  [("NEW_HOST", 58), ("NEW_URL", 48), ("NEW_ENDPOINT", 70), ("NEW_CERT_SAN", 58), ("NEW_JAVASCRIPT", 52),
    ("NEW_ASSET", 45), ("RESURRECTED_HOST", 78), ("REAPPEARED_ASSET", 68), ("DISAPPEARED_HOST", 48),
    ("DISAPPEARED_ASSET", 40), ("IP_CHANGED", 44), ("STATUS_CHANGED", 28), ("TITLE_CHANGED", 24),
    ("BODY_HASH_CHANGED", 42), ("CERTIFICATE_CHANGED", 48), ("SCOPE_CHANGED", 34), ("STATE_CHANGED", 20)]

theorem get?_ofPercents_unit {K : Type} [DecidableEq K] {table : List (K × ℕ)} (h : ∀ entry ∈ table, entry.2 ≤ 100)
    (k : K) (value : ℚ) (hget : (ofPercents table).get? k = some value) : IsUnit01 value :=
  ofPercents_unit h value (Dict.mem_values_iff.mpr ⟨k, hget⟩)

theorem percent_unit (n : ℕ) (h : n ≤ 100 := by decide) : IsUnit01 ((n : ℚ) / 100) := isUnit01_percent n h

/-- The defaults, all of which are in range. -/
def NoveltyModelConfig.standard : NoveltyModelConfig where
  defaultBaseline := (30 : ℕ) / 100
  eventTypeBaselines := ofPercents defaultEventTypeBaselines
  firstObservationWeight := (34 : ℕ) / 100
  lowObservationWeight := (16 : ℕ) / 100
  historicalOnlyWeight := (24 : ℕ) / 100
  liveAfterHistoricalWeight := (38 : ℕ) / 100
  environmentWeight := (20 : ℕ) / 100
  apiVersionWeight := (12 : ℕ) / 100
  rareFingerprintWeight := (24 : ℕ) / 100
  rareTechnologyWeight := (14 : ℕ) / 100
  rareNamingWeight := (18 : ℕ) / 100
  repeatedPenaltyWeight := (42 : ℕ) / 100
  commonFingerprintPenaltyWeight := (28 : ℕ) / 100
  commonTechnologyPenaltyWeight := (16 : ℕ) / 100
  commonNamingPenaltyWeight := (14 : ℕ) / 100
  staticPenaltyWeight := (16 : ℕ) / 100
  cdnPenaltyWeight := (18 : ℕ) / 100
  marketingPenaltyWeight := (14 : ℕ) / 100
  changeWeights := ofPercents defaultChangeWeights
  weights_unit := by
    simp only [List.forall_mem_cons, List.not_mem_nil, false_implies, implies_true, and_true]
    refine ⟨?_, ?_, ?_, ?_, ?_, ?_, ?_, ?_, ?_, ?_, ?_, ?_, ?_, ?_, ?_, ?_, ?_⟩ <;> exact percent_unit _
  baselines_unit := get?_ofPercents_unit (by decide)
  changes_unit := get?_ofPercents_unit (by decide)

/-! ## The subject -/

section Subject

variable (tables : Tables)

/-- `canonical_http_url`; the port is read outside of the `try`. -/
def canonicalHttpUrl (value : String) : Except PyError (Option String) :=
  match urlsplit tables value with
  | .error _ => .ok none
  | .ok parts =>
    if parts.scheme ≠ "http" ∧ parts.scheme ≠ "https" then .ok none
    else
      match parts.hostname tables with
      | none => .ok none
      | some rawHost => do
        let hostname := rstripDots (strLower tables rawHost)
        let port ← parts.port
        let host := match port.filter fun port => !isDefaultPort parts.scheme port with
          | some port => s!"{hostname}:{port}"
          | none => hostname
        return some (urlunsplit { scheme := parts.scheme, netloc := host, path := pathOf parts, query := parts.query
                                  fragment := "" })

def noveltySubjectKey (event : Event) : Except PyError String :=
  let value := strip event.value
  if event.type ∈ [.dnsName, .certSan] then
    let normalized := rstripDots (strLower tables value)
    let normalized := if ['*', '.'] <+: normalized.toList then String.ofList (normalized.toList.drop 2) else normalized
    .ok s!"{event.type.value}:{normalized}"
  else if event.type ∈ [.url, .apiEndpoint, .javascript, .httpService] then do
    let normalizedUrl ← canonicalHttpUrl tables value
    return s!"{event.type.value}:{normalizedUrl.getD value}"
  else .ok s!"{event.type.value}:{value}"

end Subject

/-! ## What a text shows -/

def isNameSeparator (c : Char) : Bool := c ∈ ['.', '_', '/', '-']

/-- What a letter of a pattern matches in a text in lower case, whatever its case is. -/
def matchesLetter (letter c : Char) : Bool :=
  c = letter || (letter = 's' && c = 'ſ') || (letter = 'i' && c = 'ı')

/-- `(?:$|[._/\-])`: what follows the end of a token. -/
def tokenEnd : List Char → Option (List Char)
  | [] => some []
  | c :: rest => if isNameSeparator c then some rest else if c = '\n' ∧ rest = [] then some [c] else none

/-- One of the alternatives, up to its end: the token and what follows. -/
def matchAlternative (alternatives : List String) (text : List Char) : Option (List Char × List Char) :=
  alternatives.findSome? fun alternative =>
    let token := text.take alternative.length
    if token.length = alternative.length ∧ (alternative.toList.zip token).all (fun pair => matchesLetter pair.1 pair.2) then
      (tokenEnd (text.drop alternative.length)).map fun rest => (token, rest)
    else none

/-- `v[0-9]{1,4}`, up to its end. -/
def matchVersion (text : List Char) : Option (List Char × List Char) :=
  match text with
  | 'v' :: rest =>
    let digits := rest.takeWhile Char.isDigit
    if 1 ≤ digits.length ∧ digits.length ≤ 4 then
      (tokenEnd (rest.drop digits.length)).map fun rest => ('v' :: digits, rest)
    else none
  | _ => none

/-- `finditer`, of tokens that start the text or stand behind a separator; a match takes the separators. -/
def scanTokens (token : List Char → Option (List Char × List Char)) : ℕ → Bool → List Char → List (List Char)
  | 0, _, _ => []
  | _, _, [] => []
  | fuel + 1, atStart, c :: cs =>
    match (if atStart then token (c :: cs) else none).or (if isNameSeparator c then token cs else none) with
    | some (found, rest) => found :: scanTokens token fuel false rest
    | none => scanTokens token fuel false cs

def environmentNames : List String :=
  ["prod", "production", "prd", "stage", "staging", "stg", "preprod", "pre-prod", "preproduction", "dev", "development",
    "test", "testing", "qa", "uat", "sandbox", "demo", "beta", "alpha", "canary", "preview"]

section Signals

variable (tables : Tables) (texts : PyTexts)

/-- The texts of an event that are looked at: its value, and metadata of at most 4096 characters. -/
def signalTexts (event : Event) (keys : List String) : List String :=
  event.value :: keys.filterMap fun key =>
    match event.metadata.get? key with
    | some (.string value) => if value.length ≤ 4096 then some value else none
    | _ => none

def signalsOf (token : List Char → Option (List Char × List Char)) (candidates : List String) : List String :=
  sortedSet id (candidates.flatMap fun candidate =>
    let text := (strLower tables candidate).toList
    (scanTokens token (text.length + 1) true text).map fun found => strLower tables (String.ofList found))

def environmentSignals (event : Event) : List String :=
  signalsOf tables (matchAlternative environmentNames)
    (signalTexts event ["hostname", "url", "path", "seed_domain", "host_header", "subject"])

def apiVersionSignals (event : Event) : List String :=
  if event.type ∈ [.apiEndpoint, .url, .urlPath, .javascript] then
    signalsOf tables matchVersion (signalTexts event ["path"])
  else []

/-- The tags of an event, stripped and in lower case. -/
def loweredTags (event : Event) : Finset String :=
  (event.tags.filter fun tag => strip tag ≠ "").image fun tag => strLower tables (strip tag)

/-- The tokens `low_novelty_surface_roles` looks for roles in. -/
def surfaceTokens (event : Event) : List (List Char) :=
  let text := " ".intercalate [strLower tables (strip event.source.text), strLower tables (strip event.value),
    " ".intercalate (sortedTexts (loweredTags tables event)), strLower tables (metadataText texts.str event.metadata "role"),
    strLower tables (metadataText texts.str event.metadata "surface_role")]
  (text.toList.splitOnP fun c => !(('a' ≤ c && c ≤ 'z') || ('0' ≤ c && c ≤ '9'))).filter (· ≠ [])

structure SurfaceRoles where
  isStatic : Bool
  cdn : Bool
  marketing : Bool

local instance lawfulTokens : LawfulBEq (List Char) := inferInstance

def lowNoveltySurfaceRoles (event : Event) : SurfaceRoles :=
  let tokens := surfaceTokens tables texts event
  { isStatic := ["static", "assets", "images", "img", "media"].any (fun word => word.toList ∈ tokens) &&
      event.type ∈ [.dnsName, .url, .urlPath, .httpService, .httpResponse, .javascript]
    cdn := ["cdn", "edge"].any fun word => word.toList ∈ tokens
    marketing := ["marketing", "blog", "landing", "press", "news"].any fun word => word.toList ∈ tokens }

def eventIsHistoricalOnly (event : Event) (history : NoveltyHistory) : Bool :=
  let tags := loweredTags tables event
  let source := strLower tables (strip event.source.text)
  let eventHistorical := "historical" ∈ tags || "archive" ∈ tags || "archived" ∈ tags ||
    "archives".toList.isPrefixOf source.toList || "archive".toList.isPrefixOf source.toList ||
    containsText "wayback" source || containsText "commoncrawl" source
  eventHistorical && history.liveObservationCount ≤ 0

end Signals

/-! ## Factors -/

def changeKinds : List NoveltyFactorKind :=
  [.newHost, .newUrl, .newEndpoint, .newCertSan, .newJavascript, .newAsset, .resurrectedHost, .reappearedAsset,
    .disappearedHost, .disappearedAsset, .ipChanged, .statusChanged, .titleChanged, .bodyHashChanged, .certificateChanged,
    .scopeChanged, .stateChanged]

def noveltyFactorForChange (upper : String → String) (changeType : String) : Option NoveltyFactorKind :=
  changeKinds.find? fun kind => kind.value = upper (strip changeType)

section Factors

variable (logs : Logarithms) (tables : Tables) (texts : PyTexts) (upper : String → String) (cfg : NoveltyModelConfig)

def repetitionPenaltyValue (observationCount : ℕ) : ℚ :=
  if observationCount ≤ 3 then 0 else Lib.clamp01 (logs.log1p ((observationCount - 3 : ℕ) : ℚ) / logs.log128)

def peerCommonness (peerCount pivot : ℕ) : ℚ :=
  if peerCount < pivot then 0 else Lib.clamp01 (logs.log1p ((peerCount - pivot + 1 : ℕ) : ℚ) / logs.log128)

/-- `add_positive`. -/
def positiveFactor (kind : NoveltyFactorKind) (weight value : ℚ) (reason : String) (metadata : Metadata)
    (weight_unit : IsUnit01 weight) : NoveltyFactor where
  kind := kind
  direction := .positive
  weight := weight
  value := Lib.clamp01 value
  reason := reason
  metadata := metadata
  weight_unit := weight_unit
  value_unit := clamp01_unit value

/-- `add_negative`. -/
def negativeFactor (kind : NoveltyFactorKind) (weight value : ℚ) (reason : String) (metadata : Metadata)
    (weight_unit : IsUnit01 weight) : NoveltyFactor where
  kind := kind
  direction := .negative
  weight := weight
  value := Lib.clamp01 value
  reason := reason
  metadata := metadata
  weight_unit := weight_unit
  value_unit := clamp01_unit value

def baselineOf (event : Event) : ℚ := (cfg.eventTypeBaselines.get? event.type).getD cfg.defaultBaseline

theorem baselineOf_unit (event : Event) : IsUnit01 (baselineOf cfg event) := by
  unfold baselineOf
  cases htype : cfg.eventTypeBaselines.get? event.type with
  | none => exact cfg.weights_unit _ (by simp)
  | some baseline => exact cfg.baselines_unit _ _ htype

def baselineFactor (event : Event) : NoveltyFactor where
  kind := .eventTypeBaseline
  direction := .neutral
  weight := 1
  value := baselineOf cfg event
  reason := s!"{event.type.value} baseline novelty"
  weight_unit := isUnit01_one
  value_unit := baselineOf_unit cfg event

def countMetadata (name : String) (count : ℕ) : Metadata := .ofPairs [(name, .int count)]

def observationFactors (history : NoveltyHistory) : List NoveltyFactor :=
  if history.observationCount = 0 then
    [positiveFactor .firstObservation cfg.firstObservationWeight 1 "subject has no prior normalized observations" .empty
      (cfg.weights_unit _ (by simp))]
  else if history.observationCount ≤ 3 then
    [positiveFactor .lowObservationCount cfg.lowObservationWeight ((4 - history.observationCount) / 3)
      "subject has only a small prior observation history" (countMetadata "observation_count" history.observationCount)
      (cfg.weights_unit _ (by simp))]
  else
    [negativeFactor .repeatedObservation cfg.repeatedPenaltyWeight (repetitionPenaltyValue logs history.observationCount)
      "repeated observations reduce marginal novelty" (countMetadata "observation_count" history.observationCount)
      (cfg.weights_unit _ (by simp))]

def historicalFactors (event : Event) (history : NoveltyHistory) : List NoveltyFactor :=
  (if history.historicalOnly || eventIsHistoricalOnly tables event history then
    [positiveFactor .historicalOnly cfg.historicalOnlyWeight 1 "asset is known only from historical/passive history" .empty
      (cfg.weights_unit _ (by simp))] else []) ++
  if history.liveAfterHistorical then
    [positiveFactor .liveAfterHistorical cfg.liveAfterHistoricalWeight 1
      "asset moved from historical-only evidence to live observation" .empty (cfg.weights_unit _ (by simp))] else []

/-- The factor of one change, if it has a weight and a kind. -/
def changeFactor (changeType : String) : Option NoveltyFactor :=
  match hweight : cfg.changeWeights.get? changeType with
  | none => none
  | some weight => (noveltyFactorForChange upper changeType).map fun kind =>
    positiveFactor kind weight 1 s!"snapshot/history reports {changeType}"
      (.ofPairs [("change_type", .string changeType)]) (cfg.changes_unit _ _ hweight)

def changeFactors (history : NoveltyHistory) : List NoveltyFactor :=
  (sortedTexts history.changeTypes).filterMap (changeFactor upper cfg)

def namingSignalFactors (event : Event) : List NoveltyFactor :=
  (if environmentSignals tables event ≠ [] then
    [positiveFactor .environmentSignal cfg.environmentWeight
      (min 1 (11 / 20 + 3 / 20 * (environmentSignals tables event).length))
      "target naming contains non-production/environment vocabulary"
      (.ofPairs [("tokens", .array ((environmentSignals tables event).map JsonValue.string))])
      (cfg.weights_unit _ (by simp))] else []) ++
  if apiVersionSignals tables event ≠ [] then
    [positiveFactor .apiVersionSignal cfg.apiVersionWeight
      (min 1 (3 / 5 + 1 / 10 * (apiVersionSignals tables event).length)) "API version vocabulary is present"
      (.ofPairs [("versions", .array ((apiVersionSignals tables event).map JsonValue.string))])
      (cfg.weights_unit _ (by simp))] else []

/-- What a known number of peers says: few are rare, many are common. -/
def peerFactors (known : Bool) (peers rareUpTo pivot : ℕ) (rareKind commonKind : NoveltyFactorKind)
    (rareWeight commonWeight : ℚ) (rareReason commonReason : String) (rare_unit : IsUnit01 rareWeight)
    (common_unit : IsUnit01 commonWeight) : List NoveltyFactor :=
  if known = false then []
  else if peers ≤ rareUpTo then
    [positiveFactor rareKind rareWeight 1 rareReason (countMetadata "peer_count" peers) rare_unit]
  else if pivot ≤ peers then
    [negativeFactor commonKind commonWeight (peerCommonness logs peers pivot) commonReason
      (countMetadata "peer_count" peers) common_unit]
  else []

def fingerprintFactors (history : NoveltyHistory) : List NoveltyFactor :=
  peerFactors logs history.fingerprintPeerCountKnown history.fingerprintPeerCount 1 8 .rareFingerprint .commonFingerprint
    cfg.rareFingerprintWeight cfg.commonFingerprintPenaltyWeight
    "fingerprint is unique or nearly unique among target peers" "fingerprint is shared by many target peers"
    (cfg.weights_unit _ (by simp)) (cfg.weights_unit _ (by simp))

def technologyFactors (history : NoveltyHistory) : List NoveltyFactor :=
  peerFactors logs history.technologyPeerCountKnown history.technologyPeerCount 2 12 .rareTechStack .commonTechStack
    cfg.rareTechnologyWeight cfg.commonTechnologyPenaltyWeight
    "technology combination is uncommon among target peers" "technology combination is common among target peers"
    (cfg.weights_unit _ (by simp)) (cfg.weights_unit _ (by simp))

def namingFactors (history : NoveltyHistory) : List NoveltyFactor :=
  match history.namingFrequency with
  | none => []
  | some frequency =>
    if frequency ≤ 2 / 25 then
      [positiveFactor .rareNaming cfg.rareNamingWeight (Lib.clamp01 ((2 / 25 - frequency) / (2 / 25)))
        "hostname/path vocabulary is rare in the target genome" (.ofPairs [("naming_frequency", .float frequency)])
        (cfg.weights_unit _ (by simp))]
    else if 11 / 20 ≤ frequency then
      [negativeFactor .commonNaming cfg.commonNamingPenaltyWeight (Lib.clamp01 ((frequency - 11 / 20) / (9 / 20)))
        "hostname/path vocabulary is common in the target genome" (.ofPairs [("naming_frequency", .float frequency)])
        (cfg.weights_unit _ (by simp))]
    else []

def surfaceFactors (event : Event) : List NoveltyFactor :=
  (if (lowNoveltySurfaceRoles tables texts event).isStatic then
    [negativeFactor .staticSurface cfg.staticPenaltyWeight 1 "observation appears to be a routine static-asset surface"
      .empty (cfg.weights_unit _ (by simp))] else []) ++
  (if (lowNoveltySurfaceRoles tables texts event).cdn then
    [negativeFactor .cdnSurface cfg.cdnPenaltyWeight 1 "observation appears to be a routine CDN edge/static surface"
      .empty (cfg.weights_unit _ (by simp))] else []) ++
  if (lowNoveltySurfaceRoles tables texts event).marketing then
    [negativeFactor .marketingSurface cfg.marketingPenaltyWeight 1
      "observation appears to be a routine marketing/content surface" .empty (cfg.weights_unit _ (by simp))] else []

/-- The factors of an event, in their order. -/
def noveltyFactors (event : Event) (history : NoveltyHistory) : List NoveltyFactor :=
  baselineFactor cfg event :: (observationFactors logs cfg history ++ historicalFactors tables cfg event history ++
    changeFactors upper cfg history ++ namingSignalFactors tables cfg event ++ fingerprintFactors logs cfg history ++
    technologyFactors logs cfg history ++ namingFactors cfg history ++ surfaceFactors tables texts cfg event)

end Factors

/-! ## The assessment -/

/-- The strengths of one direction. -/
def strengths (direction : NoveltyFactorDirection) (factors : List NoveltyFactor) : List ℚ :=
  (factors.filter fun factor => factor.direction = direction).map fun factor => Lib.clamp01 (factor.weight * factor.value)

def probabilityUnion (values : List ℚ) : ℚ := Lib.clamp01 (1 - leftOpen values)

/-- What the factors make of the baseline. -/
def noveltyScore (baseline : ℚ) (factors : List NoveltyFactor) : ℚ :=
  Lib.clamp01 ((baseline + (1 - baseline) * probabilityUnion (strengths .positive factors)) *
    (1 - probabilityUnion (strengths .negative factors)))

/-- `novelty_explanation`; `showScore` writes three decimals. -/
def noveltyExplanation (showScore : ℚ → String) (event : Event) (novelty baseline : ℚ) (factors : List NoveltyFactor)
    (history : NoveltyHistory) : String :=
  let positives := sortBy (fun factor => -factor.contribution)
    (factors.filter fun factor => factor.direction = .positive ∧ 0 < factor.contribution)
  let negatives := sortBy (fun factor => -|factor.contribution|)
    (factors.filter fun factor => factor.direction = .negative ∧ factor.contribution < 0)
  let names := fun found : List NoveltyFactor =>
    let text := ", ".intercalate ((found.take 4).map fun factor => factor.kind.value)
    if text = "" then "none" else text
  s!"novelty={showScore novelty}; baseline={showScore baseline}; observations={history.observationCount}; " ++
    s!"positive={names positives}; negative={names negatives}; event_type={event.type.value}. Novelty measures " ++
    "difference from known surface only; it is not severity or authorization."

section Assessment

variable (logs : Logarithms) (tables : Tables) (texts : PyTexts) (upper : String → String) (showScore : ℚ → String)

def assessNovelty (event : Event) (history : NoveltyHistory) (cfg : NoveltyModelConfig) :
    Except PyError NoveltyAssessment := do
  let subjectKey ← noveltySubjectKey tables event
  if history.subjectKey.text ≠ subjectKey then .error (.valueError "history subject_key does not match Event")
  else
    let baseline := baselineOf cfg event
    let factors := noveltyFactors logs tables texts upper cfg event history
    let novelty := noveltyScore baseline factors
    return {
      subjectKey
      novelty
      baseline
      positiveUnion := probabilityUnion (strengths .positive factors)
      negativeUnion := probabilityUnion (strengths .negative factors)
      observationCount := history.observationCount
      distinctSourceFamilies := history.distinctSourceFamilies
      factors
      explanation := strip (noveltyExplanation showScore event novelty baseline factors history) }

end Assessment

end NightScout
