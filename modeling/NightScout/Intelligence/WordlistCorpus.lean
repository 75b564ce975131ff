import NightScout.Intelligence.TokenKeys
import NightScout.Lib.Merging

/-!
# The merged corpus

`merge_corpus` of `recon/intelligence/wordlists.py`: observations of public lists, evidence of the target and feedback on
past hypotheses fill one table, whose keys are a category and a canonical token; every entry of the table becomes a
`CorpusEntry`, in the order of the keys.

The logarithms of the scores are parameters. A set is a `Finset`; the order in which the categories of one piece of
evidence come does not matter, since each has an entry of its own.
-/

namespace NightScout

open Lib

structure GlobalCorpusObservation where
  token : Stripped
  category : CorpusCategory
  sourceId : Stripped
  rank : ℕ
  sourceWeight : ℚ := 1
  metadata : Metadata := .empty
  rank_pos : 1 ≤ rank := by decide
  weight_nonneg : 0 ≤ sourceWeight := by decide

structure TargetTokenEvidence (tables : TokenTables) where
  token : Stripped
  categories : Finset CorpusCategory
  source : Stripped
  sourceEventIds : Finset String := ∅
  contexts : Finset String := ∅
  frequency : ℕ := 1
  relevance : ℚ := 1 / 2
  confidence : ℚ := 1 / 2
  labels : List String := []
  categories_required : categories ≠ ∅
  frequency_pos : 1 ≤ frequency := by decide
  relevance_unit : 0 ≤ relevance ∧ relevance ≤ 1
  confidence_unit : 0 ≤ confidence ∧ confidence ≤ 1
  labels_normal : PermutationWord.normalizeLabels tables.toTables labels = labels

structure YieldFeedback where
  token : String
  category : CorpusCategory
  attemptedHypotheses : ℕ := 0
  successfulHits : ℕ := 0
  metadata : Metadata := .empty
  hits_le : successfulHits ≤ attemptedHypotheses

/-- One of `target_evidence_samples`. -/
structure EvidenceSample where
  source : String
  eventIds : List String
  contexts : List String
  relevance : ℚ

/-- The metadata of an entry. -/
structure CorpusMetadata where
  globalSourceMetadata : Dict String Metadata := .empty
  targetEvidenceSamples : List EvidenceSample := []
  yieldFeedback : List Metadata := []
  targetSourceFamilies : List String := []

structure CorpusEntry where
  token : String
  category : CorpusCategory
  globalSources : Finset String
  targetSources : Finset String
  sourceEventIds : List String
  contexts : Finset String
  globalRank : Option ℕ
  globalScore : ℚ
  targetFrequency : ℕ
  targetSourceDiversity : ℕ
  targetRelevance : ℚ
  successfulHits : ℕ
  attemptedHypotheses : ℕ
  confidence : ℚ
  labels : List String
  metadata : CorpusMetadata

/-- What `merge_corpus` reads of `WordlistCorpusConfig`. -/
structure WordlistCorpusConfig where
  targetFrequencyLogScale : ℚ := 12 / 100
  targetDiversityScale : ℚ := 8 / 100

/-- An entry of the table. -/
structure CorpusItem where
  token : String
  category : CorpusCategory
  globalSources : Finset String := ∅
  targetSources : Finset String := ∅
  sourceFamilies : Finset String := ∅
  sourceEventIds : Finset String := ∅
  contexts : Finset String := ∅
  globalRank : Option ℕ := none
  globalScore : ℚ := 0
  targetFrequency : ℕ := 0
  baseRelevance : ℚ := 0
  successfulHits : ℕ := 0
  attemptedHypotheses : ℕ := 0
  confidence : ℚ := 1 / 2
  labels : List String := []
  metadata : CorpusMetadata := {}

abbrev CorpusKey := CorpusCategory × String

section Merge

variable (tables : TokenTables) (log2 log1p : ℚ → ℚ)

/-- The key that `ensure` finds for a token; `none` if the token is not valid. -/
def ensureKey (category : CorpusCategory) (token : String) : Option CorpusKey :=
  (normalizeTokenForCategory tables category token).map fun normalized =>
    (category, canonicalTokenKey tables category normalized)

/-- The entry that `ensure` makes. -/
def freshItem (category : CorpusCategory) (token : String) : CorpusItem where
  token := (normalizeTokenForCategory tables category token).getD ""
  category

def globalObservationScore (observation : GlobalCorpusObservation) : ℚ :=
  observation.sourceWeight * (1 / log2 (observation.rank + 1)) * (1 / 2)

def sourceFamily (source : String) : String :=
  let normalized := strLower tables.toTables (strip source)
  if normalized = "" then "unknown"
  else
    let family := String.ofList (normalized.toList.takeWhile (· ≠ ':'))
    if family = "" then "unknown" else family

def lowerRank (current : Option ℕ) (rank : ℕ) : Option ℕ :=
  match current with
  | none => some rank
  | some current => if rank < current then some rank else some current

/-- One turn of the first loop. -/
def addObservation (item : CorpusItem) (observation : GlobalCorpusObservation) : CorpusItem :=
  { item with
    globalSources := insert observation.sourceId.text item.globalSources
    globalRank := lowerRank item.globalRank observation.rank
    globalScore := item.globalScore + globalObservationScore log2 observation
    metadata := { item.metadata with
      globalSourceMetadata := item.metadata.globalSourceMetadata.set observation.sourceId.text observation.metadata } }

/-- One turn of the second loop, for one category. -/
def addEvidence (item : CorpusItem) (evidence : TargetTokenEvidence tables) : CorpusItem :=
  { item with
    targetSources := insert evidence.source.text item.targetSources
    sourceFamilies := insert (sourceFamily tables evidence.source.text) item.sourceFamilies
    sourceEventIds := item.sourceEventIds ∪ evidence.sourceEventIds
    contexts := item.contexts ∪ evidence.contexts
    targetFrequency := item.targetFrequency + evidence.frequency
    baseRelevance := max item.baseRelevance evidence.relevance
    confidence := max item.confidence evidence.confidence
    labels := evidence.labels.foldl (fun labels label => if label ∈ labels then labels else labels ++ [label]) item.labels
    metadata := { item.metadata with
      targetEvidenceSamples :=
        if item.metadata.targetEvidenceSamples.length < 64 then
          item.metadata.targetEvidenceSamples ++
            [{ source := evidence.source.text, eventIds := sortedTexts evidence.sourceEventIds,
               contexts := sortedTexts evidence.contexts, relevance := evidence.relevance }]
        else item.metadata.targetEvidenceSamples } }

/-- One turn of the third loop. -/
def addFeedback (item : CorpusItem) (feedback : YieldFeedback) : CorpusItem :=
  { item with
    successfulHits := item.successfulHits + feedback.successfulHits
    attemptedHypotheses := item.attemptedHypotheses + feedback.attemptedHypotheses
    metadata := { item.metadata with
      yieldFeedback :=
        if item.metadata.yieldFeedback.length < 32 then item.metadata.yieldFeedback ++ [feedback.metadata]
        else item.metadata.yieldFeedback } }

def allCategories : List CorpusCategory := [.general, .dns, .parameter, .path, .api, .vhost, .project, .technology]

/-- Each piece of evidence with each of its categories. -/
def byCategory (targetEvidence : List (TargetTokenEvidence tables)) :
    List (CorpusCategory × TargetTokenEvidence tables) :=
  targetEvidence.flatMap fun evidence =>
    (allCategories.filter fun category => category ∈ evidence.categories).map fun category => (category, evidence)

/-- The three loops. -/
def mergeState (globalObservations : List GlobalCorpusObservation)
    (targetEvidence : List (TargetTokenEvidence tables)) (feedback : List YieldFeedback) : Dict CorpusKey CorpusItem :=
  let state := accumulate (fun o : GlobalCorpusObservation => ensureKey tables o.category o.token.text)
    (fun o => freshItem tables o.category o.token.text) (addObservation log2) .empty globalObservations
  let state := accumulate (fun e : CorpusCategory × TargetTokenEvidence tables => ensureKey tables e.1 e.2.token.text)
    (fun e => freshItem tables e.1 e.2.token.text) (fun item e => addEvidence tables item e.2) state
    (byCategory tables targetEvidence)
  accumulate (fun f : YieldFeedback => ensureKey tables f.category f.token)
    (fun f => freshItem tables f.category f.token) addFeedback state feedback

/-- The entry of an item. -/
def corpusEntry (config : WordlistCorpusConfig) (item : CorpusItem) : CorpusEntry where
  token := item.token
  category := item.category
  globalSources := item.globalSources
  targetSources := item.targetSources
  sourceEventIds := sortedTexts item.sourceEventIds
  contexts := item.contexts
  globalRank := item.globalRank
  globalScore := item.globalScore
  targetFrequency := item.targetFrequency
  targetSourceDiversity := item.sourceFamilies.card
  targetRelevance := min 1 (item.baseRelevance + log1p item.targetFrequency * config.targetFrequencyLogScale +
    item.sourceFamilies.card * config.targetDiversityScale)
  successfulHits := item.successfulHits
  attemptedHypotheses := item.attemptedHypotheses
  confidence := item.confidence
  labels :=
    if item.labels = [] ∧ item.category ∈ [CorpusCategory.general, .dns, .vhost] then
      tokenToCandidateLabels tables.toTables item.token
    else item.labels
  metadata := { item.metadata with targetSourceFamilies := sortedTexts item.sourceFamilies }

/-- What the entries are sorted by. -/
def CorpusEntry.sortKey (entry : CorpusEntry) : String ×ₗ String :=
  toLex (entry.category.value, canonicalTokenKey tables entry.category entry.token)

def mergeCorpus (config : WordlistCorpusConfig) (globalObservations : List GlobalCorpusObservation)
    (targetEvidence : List (TargetTokenEvidence tables)) (feedback : List YieldFeedback) : List CorpusEntry :=
  ((mergeState tables log2 globalObservations targetEvidence feedback).values.map
    (corpusEntry tables log1p config)).insertionSort fun a b => a.sortKey tables ≤ b.sortKey tables

end Merge

end NightScout
