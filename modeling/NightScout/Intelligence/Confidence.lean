import Mathlib.Data.Prod.Lex
import NightScout.Core.Events
import NightScout.Lib.Groups
import NightScout.Lib.NoisyOr
import NightScout.Lib.OrderedSets

/-!
# Confidence

`recon/intelligence/confidence.py`: how strongly the evidence supports one observation. Evidence of one
independence key and polarity is collapsed into a group; a group that shares a source family or an upstream
with one ranked before it is discounted; supporting and contradicting groups are combined by noisy-or.

Numbers are rationals. How a confidence is written in the explanation is a parameter. What an assessment does
not read of a piece of evidence (its source, its time, its tags and its metadata) is left out.
-/

namespace NightScout

open Lib

inductive EvidencePolarity where
  | supports | contradicts
  deriving DecidableEq, Repr

def EvidencePolarity.value : EvidencePolarity → String
  | supports => "SUPPORTS" | contradicts => "CONTRADICTS"

inductive EvidenceClass where
  | userSeed
  | activeConfirmation | activeDifferential
  | passiveObservation | staticExtraction | historicalObservation
  | generatedHypothesis | correlation | reviewSignal
  | other
  deriving DecidableEq, Repr

def EvidenceClass.value : EvidenceClass → String
  | userSeed => "USER_SEED"
  | activeConfirmation => "ACTIVE_CONFIRMATION" | activeDifferential => "ACTIVE_DIFFERENTIAL"
  | passiveObservation => "PASSIVE_OBSERVATION" | staticExtraction => "STATIC_EXTRACTION"
  | historicalObservation => "HISTORICAL_OBSERVATION"
  | generatedHypothesis => "GENERATED_HYPOTHESIS" | correlation => "CORRELATION"
  | reviewSignal => "REVIEW_SIGNAL"
  | other => "OTHER"

structure ConfidenceEvidence where
  evidenceId : String
  subjectKey : String
  polarity : EvidencePolarity
  evidenceClass : EvidenceClass
  sourceFamily : String
  sourceProvider : String
  independenceKey : String
  upstreamKey : Option String := none
  confidence : ℚ
  reliability : ℚ := 1
  confidence_unit : IsUnit01 confidence
  reliability_unit : IsUnit01 reliability

structure ConfidenceGroupAssessment where
  independenceKey : String
  upstreamKey : Option String
  polarity : EvidencePolarity
  sourceFamilies : List String
  sourceProviders : List String
  evidenceClasses : List EvidenceClass
  evidenceIds : List String
  rawStrength : ℚ
  dependencyFactor : ℚ
  effectiveStrength : ℚ
  repeatedObservations : ℕ
  deriving DecidableEq

structure ConfidenceAssessment where
  subjectKey : String
  prior : ℚ
  confidence : ℚ
  supportStrength : ℚ
  contradictionStrength : ℚ
  conflictScore : ℚ
  supportingGroups : ℕ
  contradictingGroups : ℕ
  sourceFamilyDiversity : ℕ
  sourceProviderDiversity : ℕ
  evidenceCount : ℕ
  independentGroupCount : ℕ
  groups : List ConfidenceGroupAssessment
  explanation : String

/-- What an assessment reads of `ConfidenceModelConfig`, within the bounds of its fields. -/
structure ConfidenceModelConfig where
  defaultPrior : ℚ
  eventTypePriors : Dict EventType ℚ
  classWeights : Dict EvidenceClass ℚ
  sameGroupRepeatDiscount : ℚ
  sameSourceFamilyDiscount : ℚ
  sameUpstreamDiscount : ℚ
  contradictionImpact : ℚ
  correlationCeiling : ℚ
  defaultPrior_unit : IsUnit01 defaultPrior
  eventTypePriors_unit : ∀ prior ∈ eventTypePriors.values, IsUnit01 prior
  classWeights_unit : ∀ weight ∈ classWeights.values, IsUnit01 weight
  sameGroupRepeatDiscount_unit : IsUnit01 sameGroupRepeatDiscount
  sameSourceFamilyDiscount_unit : IsUnit01 sameSourceFamilyDiscount
  sameUpstreamDiscount_unit : IsUnit01 sameUpstreamDiscount
  contradictionImpact_unit : IsUnit01 contradictionImpact
  correlationCeiling_unit : IsUnit01 correlationCeiling

/-- A percentage, as a number of hundredths. -/
def hundredths (percent : ℕ) : ℚ := percent / 100

/-- A table of percentages. -/
def ofPercents {K : Type} [DecidableEq K] (table : List (K × ℕ)) : Dict K ℚ :=
  .ofPairs (table.map fun entry => (entry.1, (entry.2 : ℚ) / 100))

theorem ofPercents_unit {K : Type} [DecidableEq K] {table : List (K × ℕ)} (h : ∀ entry ∈ table, entry.2 ≤ 100) :
    ∀ value ∈ (ofPercents table).values, IsUnit01 value := by
  intro value hvalue
  obtain ⟨k, hk⟩ := Dict.mem_values_iff.mp hvalue
  rcases Dict.get?_foldl_pairs hk with hmem | hempty
  · obtain ⟨entry, hentry, hpair⟩ := List.mem_map.mp hmem
    cases hpair
    exact isUnit01_percent entry.2 (h entry hentry)
  · cases hempty

/-- The default of `event_type_priors`, in percent. -/
def defaultEventTypePriors : List (EventType × ℕ) :=
  [(.rootDomain, 45), (.dnsName, 10), (.dnsRecord, 12), (.ipAddress, 10), (.asn, 10), (.cidr, 10), (.url, 8),
    (.urlPath, 8), (.httpService, 12), (.httpResponse, 15), (.certificate, 12), (.certSan, 8), (.favicon, 10),
    (.technology, 10), (.fingerprint, 8), (.javascript, 8), (.apiEndpoint, 8), (.parameterName, 8),
    (.artifact, 8), (.mobileArtifact, 20), (.projectName, 8), (.vocabToken, 6), (.namingPattern, 6),
    (.vulnerabilityCandidate, 18), (.vulnerabilityFinding, 55), (.relationship, 8), (.policyBlock, 90),
    (.humanReview, 15)]

/-- The default of `class_weights`, in percent. -/
def defaultClassWeights : List (EvidenceClass × ℕ) :=
  [(.userSeed, 99), (.activeConfirmation, 100), (.activeDifferential, 90), (.passiveObservation, 78),
    (.staticExtraction, 72), (.historicalObservation, 62), (.generatedHypothesis, 40), (.correlation, 34),
    (.reviewSignal, 70), (.other, 55)]

theorem defaultEventTypePriors_unit : ∀ prior ∈ (ofPercents defaultEventTypePriors).values, IsUnit01 prior :=
  ofPercents_unit (by decide)

theorem defaultClassWeights_unit : ∀ weight ∈ (ofPercents defaultClassWeights).values, IsUnit01 weight :=
  ofPercents_unit (by decide)

/-- `ConfidenceModelConfig()`. -/
def ConfidenceModelConfig.standard : ConfidenceModelConfig where
  defaultPrior := 10 / 100
  eventTypePriors := ofPercents defaultEventTypePriors
  classWeights := ofPercents defaultClassWeights
  sameGroupRepeatDiscount := 15 / 100
  sameSourceFamilyDiscount := 55 / 100
  sameUpstreamDiscount := 40 / 100
  contradictionImpact := 92 / 100
  correlationCeiling := 45 / 100
  defaultPrior_unit := isUnit01_percent 10 (by decide)
  eventTypePriors_unit := defaultEventTypePriors_unit
  classWeights_unit := defaultClassWeights_unit
  sameGroupRepeatDiscount_unit := isUnit01_percent 15 (by decide)
  sameSourceFamilyDiscount_unit := isUnit01_percent 55 (by decide)
  sameUpstreamDiscount_unit := isUnit01_percent 40 (by decide)
  contradictionImpact_unit := isUnit01_percent 92 (by decide)
  correlationCeiling_unit := isUnit01_percent 45 (by decide)

/-! ## Strengths -/

/-- `evidence_raw_strength`, given the weight of the class OTHER, which it always looks up. -/
def evidenceRawStrength (config : ConfidenceModelConfig) (otherWeight : ℚ) (evidence : ConfidenceEvidence) : ℚ :=
  let classWeight := (config.classWeights.get? evidence.evidenceClass).getD otherWeight
  let strength := evidence.confidence * evidence.reliability * classWeight
  clamp01 (if evidence.evidenceClass = .correlation then min strength config.correlationCeiling else strength)

section Assess

variable (config : ConfidenceModelConfig) (strength : ConfidenceEvidence → ℚ)

/-- The evidence about the subject: of two pieces with one id the first, unless the other is stronger. -/
def dedupeEvidence (subjectKey : String) (evidence : List ConfidenceEvidence) : Dict String ConfidenceEvidence :=
  evidence.foldl (fun deduped item =>
    if item.subjectKey ≠ subjectKey then deduped
    else
      match deduped.get? item.evidenceId with
      | none => deduped.set item.evidenceId item
      | some existing =>
        if strength item > strength existing then deduped.set item.evidenceId item else deduped) .empty

/-- Strongest first, then by id. -/
def strongestFirst (members : List ConfidenceEvidence) : List ConfidenceEvidence :=
  members.insertionSort fun a b =>
    toLex (-strength a, a.evidenceId) ≤ toLex (-strength b, b.evidenceId)

/-- The strength of a group; what repeats its strongest observation adds a little. -/
def groupStrength : List ℚ → ℚ
  | [] => 0
  | strongest :: rest =>
    strongest + (1 - strongest) * combineNoisyOr (rest.map (· * config.sameGroupRepeatDiscount))

/-- The upstream of a group that has exactly one. -/
def groupUpstream (ordered : List ConfidenceEvidence) : Option String :=
  match (ordered.filterMap fun item => item.upstreamKey).dedup with
  | [upstream] => some upstream
  | _ => none

def groupAssessment (key : String × EvidencePolarity) (members : List ConfidenceEvidence) :
    ConfidenceGroupAssessment :=
  let ordered := strongestFirst strength members
  let total := groupStrength config (ordered.map strength)
  { independenceKey := key.1
    upstreamKey := groupUpstream ordered
    polarity := key.2
    sourceFamilies := sortedSet id (ordered.map fun item => item.sourceFamily)
    sourceProviders := sortedSet id (ordered.map fun item => item.sourceProvider)
    evidenceClasses := sortedSet EvidenceClass.value (ordered.map fun item => item.evidenceClass)
    evidenceIds := ordered.map fun item => item.evidenceId
    rawStrength := clamp01 total
    dependencyFactor := 1
    effectiveStrength := clamp01 total
    repeatedObservations := ordered.length }

/-- The evidence by independence key and polarity. -/
def groupedEvidence (evidence : List ConfidenceEvidence) :
    Dict (String × EvidencePolarity) (List ConfidenceEvidence) :=
  groupPairs (evidence.map fun item => ((item.independenceKey, item.polarity), item))

def collapseEvidenceGroups (evidence : List ConfidenceEvidence) : List ConfidenceGroupAssessment :=
  ((groupedEvidence evidence).entries.map fun group => groupAssessment config strength group.1 group.2).insertionSort
    fun a b => toLex (a.polarity.value, toLex (-a.rawStrength, a.independenceKey)) ≤
      toLex (b.polarity.value, toLex (-b.rawStrength, b.independenceKey))

/-- The place of a group among those of its polarity. -/
def ConfidenceGroupAssessment.rank (group : ConfidenceGroupAssessment) : ℚ ×ₗ String :=
  toLex (-group.rawStrength, group.independenceKey)

/-- What a group is discounted by after groups with these families and upstreams. -/
def dependencyFactor (seenFamilies seenUpstreams : List String) (group : ConfidenceGroupAssessment) : ℚ :=
  (if ∃ family ∈ group.sourceFamilies, family ∈ seenFamilies then config.sameSourceFamilyDiscount else 1) *
    (if ∃ upstream ∈ group.upstreamKey, upstream ∈ seenUpstreams then config.sameUpstreamDiscount else 1)

def ConfidenceGroupAssessment.discounted (group : ConfidenceGroupAssessment) (factor : ℚ) :
    ConfidenceGroupAssessment :=
  { group with dependencyFactor := factor, effectiveStrength := clamp01 (group.rawStrength * factor) }

/-- The groups of one polarity, each discounted by what came before it. -/
def discountInOrder (seenFamilies seenUpstreams : List String) :
    List ConfidenceGroupAssessment → List ConfidenceGroupAssessment
  | [] => []
  | group :: groups =>
    group.discounted (dependencyFactor config seenFamilies seenUpstreams group) ::
      discountInOrder (seenFamilies ++ group.sourceFamilies) (seenUpstreams ++ group.upstreamKey.toList) groups

/-- The groups of one polarity, in the order in which they are discounted. -/
def relevantGroups (groups : List ConfidenceGroupAssessment) (polarity : EvidencePolarity) :
    List ConfidenceGroupAssessment :=
  (groups.filter fun group => group.polarity = polarity).insertionSort fun a b => a.rank ≤ b.rank

def applyDependencyDiscounts (groups : List ConfidenceGroupAssessment) : List ConfidenceGroupAssessment :=
  ([EvidencePolarity.supports, .contradicts].flatMap fun polarity =>
    discountInOrder config [] [] (relevantGroups groups polarity)).insertionSort
    fun a b => toLex (a.polarity.value, toLex (-a.effectiveStrength, a.independenceKey)) ≤
      toLex (b.polarity.value, toLex (-b.effectiveStrength, b.independenceKey))

/-- The effective strengths of one polarity. -/
def strengthsOf (groups : List ConfidenceGroupAssessment) (polarity : EvidencePolarity) : List ℚ :=
  (groups.filter fun group => group.polarity = polarity).map fun group => group.effectiveStrength

/-- `build_confidence_explanation`; `showConfidence` writes three decimals. -/
def buildConfidenceExplanation (showConfidence : ℚ → String) (confidence : ℚ)
    (supportingGroups contradictingGroups sourceFamilyDiversity : ℕ) (conflictScore : ℚ) : String :=
  if supportingGroups = 0 ∧ contradictingGroups = 0 then "no normalized evidence beyond the configured prior"
  else
    "; ".intercalate <|
      [s!"{supportingGroups} supporting independent group(s)",
        s!"{sourceFamilyDiversity} source family/families"] ++
      (if contradictingGroups ≠ 0 then [s!"{contradictingGroups} contradicting group(s)"] else []) ++
      (if 35 / 100 ≤ conflictScore then ["material evidence conflict"] else []) ++
      [s!"aggregate confidence {showConfidence confidence}"]

/-- The confidence of a prior with so much support and contradiction. -/
def finalConfidence (prior supportStrength contradictionStrength : ℚ) : ℚ :=
  let afterSupport := prior + (1 - prior) * supportStrength
  clamp01 (afterSupport * (1 - contradictionStrength * config.contradictionImpact))

/-- The assessment of deduplicated evidence. -/
def assessDeduped (showConfidence : ℚ → String) (subjectKey : String) (eventType : EventType)
    (deduped : List ConfidenceEvidence) : ConfidenceAssessment :=
  let weightedGroups := applyDependencyDiscounts config (collapseEvidenceGroups config strength deduped)
  let supportStrength := combineNoisyOr (strengthsOf weightedGroups .supports)
  let contradictionStrength := combineNoisyOr (strengthsOf weightedGroups .contradicts)
  let prior := (config.eventTypePriors.get? eventType).getD config.defaultPrior
  let confidence := finalConfidence config prior supportStrength contradictionStrength
  let sourceFamilies := (deduped.map fun item => item.sourceFamily).toFinset.card
  let sourceProviders := (deduped.map fun item => item.sourceProvider).toFinset.card
  let supportingGroups := (weightedGroups.filter fun group => group.polarity = .supports).length
  let contradictingGroups := (weightedGroups.filter fun group => group.polarity = .contradicts).length
  let conflictScore := min supportStrength contradictionStrength
  { subjectKey := strip subjectKey
    prior, confidence, supportStrength, contradictionStrength, conflictScore
    supportingGroups, contradictingGroups
    sourceFamilyDiversity := sourceFamilies
    sourceProviderDiversity := sourceProviders
    evidenceCount := deduped.length
    independentGroupCount := weightedGroups.length
    groups := weightedGroups
    explanation := strip (buildConfidenceExplanation showConfidence confidence supportingGroups
      contradictingGroups sourceFamilies conflictScore) }

end Assess

/-- `assess_confidence`. Without a weight for the class OTHER the first piece of evidence about the subject is a
    `KeyError`; a blank subject is refused when the assessment is built. -/
def assessConfidence (config : ConfidenceModelConfig) (showConfidence : ℚ → String) (subjectKey : String)
    (eventType : EventType) (evidence : List ConfidenceEvidence) : Except PyError ConfidenceAssessment :=
  match config.classWeights.get? .other with
  | none =>
    if ∃ item ∈ evidence, item.subjectKey = subjectKey then .error (.keyError "EvidenceClass.OTHER")
    else if strip subjectKey = "" then .error (.valueError "must not be blank")
    else .ok (assessDeduped config (fun _ => 0) showConfidence subjectKey eventType [])
  | some otherWeight =>
    let strength := evidenceRawStrength config otherWeight
    if strip subjectKey = "" then .error (.valueError "must not be blank")
    else .ok (assessDeduped config strength showConfidence subjectKey eventType
      (dedupeEvidence strength subjectKey evidence).values)

end NightScout
