import NightScout.Lib.Rankings
import NightScout.Workers.VHost

/-!
# Host names from the word corpus

`WordlistVHostCandidateProvider` of `recon/workers/vhost.py`: the words of a lane, in the lane's order, are put before
the base domains of a service. In the exploration lane a cursor claims a window of the words, half as many as host names
are asked for, and the best host names of the window are returned.
-/

namespace NightScout

open Lib

/-- A word of the corpus. Its validators keep the confidence between 0 and 1. -/
abbrev CorpusWord := { word : PermutationWord // 0 ≤ word.confidence ∧ word.confidence ≤ 1 }

/-- The settings of `WordlistVHostCandidateProvider`. -/
structure VHostCandidateProvider where
  includeSibling : Bool := true
  includeChild : Bool := true
  maxBaseDomains : ℕ := 4
  some_shape : includeSibling = true ∨ includeChild = true := by decide
  maxBaseDomains_pos : 0 < maxBaseDomains := by decide

section BaseDomains

variable (tables : Tables) (texts : PyTexts)

/-- An item more in a list that does not have it. -/
def addBase (result : List (String × VHostCandidateMethod)) (item : String × VHostCandidateMethod) :
    List (String × VHostCandidateMethod) :=
  if item ∈ result then result else result ++ [item]

/-- The base domains that the metadata of an event names. -/
def explicitBaseValues (event : Event) : List String :=
  let single := ["vhost_base_domain", "seed_domain", "root_domain"].filterMap fun key =>
    match event.metadata.get? key with
    | some (.string value) => if strip value = "" then none else some value
    | _ => none
  let many := match event.metadata.get? "vhost_base_domains" with
    | some (.array values) => (values.map texts.str).filter fun value => strip value ≠ ""
    | _ => []
  single ++ many

def candidateBaseDomains (event : Event) (service : VHostService) (includeSibling includeChild : Bool) :
    List (String × VHostCandidateMethod) :=
  let result := (explicitBaseValues texts event).foldl (fun result raw =>
    match normalizeDnsName tables raw with
    | .error _ => result
    | .ok base => if includeSibling then addBase result (base, .wordSibling) else result) []
  let hostLabels := labels service.transportHostname
  let result := if includeSibling ∧ hostLabels.length ≥ 3 then
      addBase result (String.ofList (['.'].intercalate hostLabels.tail), .wordSibling)
    else result
  if includeChild then addBase result (service.transportHostname, .wordChild) else result

end BaseDomains

section Candidates

variable (tables : Tables) (texts : PyTexts) (log2 log1p : ℚ → ℚ)

/-- The metadata of a candidate. -/
def vhostMetadata (word : PermutationWord) (baseDomain : String) : Metadata :=
  let own : Metadata := .ofPairs [
    ("base_domain", .string baseDomain),
    ("global_rank", match word.globalRank with
      | some rank => .int rank
      | none => .null),
    ("global_score", .float word.globalScore),
    ("target_frequency", .int word.targetFrequency),
    ("target_source_diversity", .int word.targetSourceDiversity),
    ("target_relevance", .float word.targetRelevance),
    ("successful_hits", .int word.successfulHits),
    ("attempted_hypotheses", .int word.attemptedHypotheses)]
  own.update word.metadata

/-- The candidate of a word's label before a base domain, unless it is no host name or the service's own. -/
def vhostCandidate (service : VHostService) (lane : CandidateLane) (word : CorpusWord) (label : String)
    (base : String × VHostCandidateMethod) : Option (VHostCandidate tables) :=
  match h : normalizeDnsName tables s!"{label}.{base.1}" with
  | .error _ => none
  | .ok hostname =>
    if hostname = service.transportHostname then none
    else some {
      hostname, lane
      method := base.2
      score := word.1.rankingScore log2 log1p
      confidence := word.1.confidence
      wordToken := word.1.token
      globalSources := word.1.globalSources.toFinset
      targetSources := word.1.targetSources.toFinset
      metadata := vhostMetadata word.1 base.1
      hostname_normal := normalizeDnsName_normal h
      confidence_unit := word.2 }

/-- The candidates of a word: every label of it, before every base domain. -/
def wordVHostCandidates (service : VHostService) (lane : CandidateLane) (bases : List (String × VHostCandidateMethod))
    (word : CorpusWord) : List (VHostCandidate tables) :=
  (word.1.labelVariants tables).flatMap fun label => bases.filterMap (vhostCandidate tables log2 log1p service lane word label)

/-- The candidate that a table keeps of two of one host name. -/
def betterVHostCandidate (existing candidate : VHostCandidate tables) : VHostCandidate tables :=
  if toLex (existing.score, existing.confidence) < toLex (candidate.score, candidate.confidence) then candidate
  else existing

/-- The key of the order in which candidates are returned. -/
def VHostCandidate.sortKey (candidate : VHostCandidate tables) : ℚ ×ₗ ℚ ×ₗ String :=
  toLex (-candidate.score, toLex (-candidate.confidence, candidate.hostname))

/-- The key of the targeted lane. -/
def vhostTargetedKey (word : CorpusWord) : ℚ ×ₗ String :=
  toLex (-word.1.rankingScore log2 log1p, strLower tables word.1.token.text)

/-- The key of the exploration lane. -/
def vhostExplorationKey (word : CorpusWord) : ℕ ×ₗ ℚ ×ₗ String :=
  toLex (word.1.globalRank.getD (2 ^ 31), toLex (-word.1.globalScore, strLower tables word.1.token.text))

/-- `exploration`, in its order. -/
def vhostExplorationWords (corpus : List CorpusWord) : List CorpusWord :=
  sortBy (vhostExplorationKey tables) (corpus.filter fun word => word.1.lane = .exploration)

/-- `word_window`: `max(1, math.ceil(limit / 2))`. -/
def wordWindow (limit : ℕ) : ℕ := max 1 ((limit + 1) / 2)

def vhostNamespace (service : VHostService) : String := "vhost:exploration:" ++ service.transportHostname

/-- `selected`, with the cursor before and after. -/
def selectVHostWords (service : VHostService) (corpus : List CorpusWord) (lane : CandidateLane) (limit : ℕ)
    (offsets : CursorOffsets) : List CorpusWord × CursorOffsets :=
  match lane with
  | .targeted => (sortBy (vhostTargetedKey tables log2 log1p) (corpus.filter fun word => word.1.lane = .targeted), offsets)
  | .exploration =>
    let exploration := vhostExplorationWords tables corpus
    if exploration = [] then ([], offsets)
    else
      let (indexes, offsets) := claimWindow offsets (vhostNamespace service) exploration.length
        (min (wordWindow limit) exploration.length)
      (indexes.filterMap fun index => exploration[index]?, offsets)

/-- `candidates_for`, with the cursor before and after. -/
def candidatesFor (provider : VHostCandidateProvider) (serviceEvent : Event) (corpus : List CorpusWord)
    (lane : CandidateLane) (limit : ℤ) (offsets : CursorOffsets) :
    Except PyError (List (VHostCandidate tables)) × CursorOffsets :=
  if limit ≤ 0 then (.ok [], offsets)
  else match serviceFromEvent tables texts.intOf serviceEvent with
    | .error e => (.error e, offsets)
    | .ok service =>
      let (selected, offsets) := selectVHostWords tables log2 log1p service corpus lane limit.toNat offsets
      let bases := (candidateBaseDomains tables texts serviceEvent service provider.includeSibling
        provider.includeChild).take provider.maxBaseDomains
      let candidates := selected.flatMap (wordVHostCandidates tables log2 log1p service lane bases)
      (.ok (bestRanked VHostCandidate.hostname (VHostCandidate.sortKey tables) (betterVHostCandidate tables) limit.toNat
        candidates), offsets)

end Candidates

end NightScout
