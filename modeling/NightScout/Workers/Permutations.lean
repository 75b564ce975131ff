import NightScout.Core.Events
import NightScout.Lib.OrderedSets
import NightScout.Lib.RotatingCursor
import NightScout.Workers.DnsNames
import Mathlib.Data.Prod.Lex
import Mathlib.Data.Rat.Floor

/-!
# Permutations

Candidate generation of `recon/workers/permutations.py`: words are merged, ranked and turned into host names
under a seed, in one of two lanes. The exploration lane takes a window of its words, and a cursor moves past
the window.

The logarithms of the ranking score and `sha256` are parameters. A set is kept as its sorted list.
-/

namespace NightScout

open Lib

inductive CandidateLane where
  | targeted | exploration
  deriving DecidableEq, Repr

inductive CandidateTier where
  | micro | small | medium | large | exhaustive
  deriving DecidableEq, Repr

def CandidateTier.value : CandidateTier → String
  | micro => "MICRO" | small => "SMALL" | medium => "MEDIUM" | large => "LARGE"
  | exhaustive => "EXHAUSTIVE"

/-- `DEFAULT_TIER_LIMITS`. -/
def CandidateTier.defaultLimit : CandidateTier → ℕ
  | micro => 250 | small => 2000 | medium => 10000 | large => 50000 | exhaustive => 250000

inductive PermutationMethod where
  | directChild | nestedChild | prefixLeftLabel | suffixLeftLabel | pairwiseHyphen | learnedPattern
  deriving DecidableEq, Repr

/-! ## Labels -/

section Labels

variable (tables : Tables)

/-- `re.sub` of the longest runs of `p`, each by one hyphen; `inRun` is whether the last character was of
    one. -/
def subRuns (p : Char → Bool) : Bool → List Char → List Char
  | _, [] => []
  | inRun, c :: cs =>
    if p c then if inRun then subRuns p true cs else '-' :: subRuns p true cs
    else c :: subRuns p false cs

/-- `raw.strip("-")`. -/
def stripHyphens (cs : List Char) : List Char := (cs.dropWhile (· = '-')).rdropWhile (· = '-')

def normalizeCandidateLabel (value : String) : Option String :=
  let raw := (strLower tables (strip value)).toList
  let raw := subRuns (fun c => c = '_' || isSpace c) false raw
  let raw := subRuns (fun c => !(('a' ≤ c && c ≤ 'z') || ('0' ≤ c && c ≤ '9') || c = '-')) false raw
  let raw := stripHyphens (subRuns (fun c => c = '-') false raw)
  if raw = [] ∨ raw.length > 63 then none else some (String.ofList raw)

def tokenToCandidateLabels (token : String) : List String :=
  match normalizeCandidateLabel tables token with
  | none => []
  | some label =>
    let collapsed := label.toList.filter (· ≠ '-')
    if collapsed ≠ [] ∧ collapsed ≠ label.toList ∧ collapsed.length ≤ 63 then
      [label, String.ofList collapsed]
    else [label]

end Labels

/-! ## Words -/

structure PermutationWord where
  token : Stripped
  globalSources : List String := []
  targetSources : List String := []
  globalScore : ℚ := 0
  globalRank : Option ℕ := none
  targetFrequency : ℕ := 0
  targetSourceDiversity : ℕ := 0
  targetRelevance : ℚ := 0
  successfulHits : ℕ := 0
  attemptedHypotheses : ℕ := 0
  confidence : ℚ := 1 / 2
  labels : List String := []
  metadata : Metadata := .empty

namespace PermutationWord

variable (tables : Tables) (log2 log1p : ℚ → ℚ)

def normalizeSources (values : List String) : List String :=
  sortedSet id (values.filterMap fun value =>
    if strip value = "" then none else some (strLower tables (strip value)))

def normalizeLabels (values : List String) : List String :=
  fromkeys (values.filterMap (normalizeCandidateLabel tables))

/-- The validators of a word. -/
def validated (word : PermutationWord) : PermutationWord :=
  { word with
    globalSources := normalizeSources tables word.globalSources
    targetSources := normalizeSources tables word.targetSources
    labels := normalizeLabels tables word.labels }

def lane (word : PermutationWord) : CandidateLane :=
  if word.targetFrequency > 0 ∨ word.targetSourceDiversity > 0 ∨ word.targetRelevance > 0 ∨
      word.targetSources ≠ [] then .targeted
  else .exploration

def yieldRatio (word : PermutationWord) : ℚ :=
  if word.attemptedHypotheses = 0 then 0 else word.successfulHits / word.attemptedHypotheses

def rankingScore (word : PermutationWord) : ℚ :=
  let rankBonus := match word.globalRank with
    | some rank => 1 / log2 (rank + 1)
    | none => 0
  word.targetRelevance * 4 + log1p word.targetFrequency * (3 / 2) + word.targetSourceDiversity +
    word.targetSources.length / 2 + word.yieldRatio * 3 + word.globalScore + rankBonus +
    word.confidence / 4

def labelVariants (word : PermutationWord) : List String :=
  if word.labels ≠ [] then word.labels else tokenToCandidateLabels tables word.token.text

def bestRank : Option ℕ → Option ℕ → Option ℕ
  | none, rank => rank
  | rank, none => rank
  | some left, some right => some (min left right)

/-- What `_dedupe_words` makes of two words of one token. -/
def merge (existing word : PermutationWord) : PermutationWord :=
  let targetSources := sortedSet id (existing.targetSources ++ word.targetSources)
  validated tables {
    token := existing.token
    globalSources := sortedSet id (existing.globalSources ++ word.globalSources)
    targetSources
    globalScore := max existing.globalScore word.globalScore
    globalRank := bestRank existing.globalRank word.globalRank
    targetFrequency := existing.targetFrequency + word.targetFrequency
    targetSourceDiversity := max (max existing.targetSourceDiversity word.targetSourceDiversity)
      targetSources.length
    targetRelevance := max existing.targetRelevance word.targetRelevance
    successfulHits := existing.successfulHits + word.successfulHits
    attemptedHypotheses := existing.attemptedHypotheses + word.attemptedHypotheses
    confidence := max existing.confidence word.confidence
    labels := fromkeys (existing.labels ++ word.labels)
    metadata := existing.metadata.update word.metadata }

def dedupeWords (words : List PermutationWord) : List PermutationWord :=
  (words.foldl (fun merged word =>
    let key := strLower tables (strip word.token.text)
    match merged.get? key with
    | none => merged.set key word
    | some existing => merged.set key (merge tables existing word))
    (.empty : Dict String PermutationWord)).values

/-- `word.global_rank or 10**12`. -/
def rankOrLast (word : PermutationWord) : ℕ :=
  match word.globalRank with
  | none => 10 ^ 12
  | some rank => if rank = 0 then 10 ^ 12 else rank

/-- `_targeted_word_sort_key`. -/
def targetedSortKey (word : PermutationWord) : ℚ ×ₗ ℕ ×ₗ String :=
  toLex (-word.rankingScore log2 log1p,
    toLex (word.rankOrLast, strLower tables word.token.text))

/-- `_exploration_word_sort_key`. -/
def explorationSortKey (word : PermutationWord) : ℕ ×ₗ ℚ ×ₗ String :=
  toLex (word.rankOrLast, toLex (-word.globalScore, strLower tables word.token.text))

def sourcesJson (sources : List String) : JsonValue := .array (sources.map JsonValue.string)

def wordMetadata (word : PermutationWord) : Metadata :=
  let own : Metadata := .ofPairs [
    ("global_sources", sourcesJson word.globalSources),
    ("target_sources", sourcesJson word.targetSources),
    ("global_rank", match word.globalRank with
      | some rank => .int rank
      | none => .null),
    ("global_score", .float word.globalScore),
    ("target_frequency", .int word.targetFrequency),
    ("target_source_diversity", .int word.targetSourceDiversity),
    ("target_relevance", .float word.targetRelevance),
    ("successful_hits", .int word.successfulHits),
    ("attempted_hypotheses", .int word.attemptedHypotheses),
    ("historical_yield", .float word.yieldRatio)]
  own.update word.metadata

end PermutationWord

/-! ## Configuration -/

theorem no_limit_pos : ∀ n ∈ (none : Option ℕ), 1 ≤ n := by decide

theorem fifth_open : (0 : ℚ) < 1 / 5 ∧ (1 / 5 : ℚ) < 1 := by decide +kernel

theorem minimumExploration_pos : 1 ≤ 25 := by decide

theorem quarters_ordered : (0 : ℚ) ≤ 1 / 4 ∧ (1 / 4 : ℚ) ≤ 3 / 4 ∧ (3 / 4 : ℚ) ≤ 1 := by decide +kernel

structure PermutationsConfig where
  tier : CandidateTier := .small
  maxCandidates : Option ℕ := none
  explorationFraction : ℚ := 1 / 5
  minimumExplorationCandidates : ℕ := 25
  pairwiseTopWords : ℕ := 24
  pairwiseEnabled : Bool := true
  nestedChildren : Bool := true
  siblingMutations : Bool := true
  candidateConfidenceFloor : ℚ := 1 / 4
  candidateConfidenceCeiling : ℚ := 3 / 4
  maxCandidates_pos : ∀ n ∈ maxCandidates, 1 ≤ n := by exact no_limit_pos
  fraction_open : 0 < explorationFraction ∧ explorationFraction < 1 := by exact fifth_open
  minimum_pos : 1 ≤ minimumExplorationCandidates := by exact minimumExploration_pos
  confidences : 0 ≤ candidateConfidenceFloor ∧
    candidateConfidenceFloor ≤ candidateConfidenceCeiling ∧ candidateConfidenceCeiling ≤ 1 := by
      exact quarters_ordered

namespace PermutationsConfig

variable (config : PermutationsConfig)

def effectiveMaxCandidates : ℕ := config.maxCandidates.getD config.tier.defaultLimit

def explorationLimitFor (total : ℕ) : ℕ :=
  min (max config.minimumExplorationCandidates ⌈(total : ℚ) * config.explorationFraction⌉₊) total

def targetedLimitFor (total : ℕ) : ℕ := total - config.explorationLimitFor total

/-- `candidate_limit or self._config.effective_max_candidates`. -/
def totalFor : Option ℕ → ℕ
  | none => config.effectiveMaxCandidates
  | some limit => if limit = 0 then config.effectiveMaxCandidates else limit

def boundedConfidence (value : ℚ) : ℚ :=
  min config.candidateConfidenceCeiling (max config.candidateConfidenceFloor value)

theorem boundedConfidence_unit (value : ℚ) :
    0 ≤ config.boundedConfidence value ∧ config.boundedConfidence value ≤ 1 := by
  obtain ⟨hfloor, hle, hceiling⟩ := config.confidences
  constructor
  · exact le_min (hfloor.trans hle) (hfloor.trans (le_max_left _ _))
  · exact (min_le_left _ _).trans hceiling

end PermutationsConfig

/-! ## Candidates -/

structure PermutationCandidate (tables : Tables) where
  hostname : String
  lane : CandidateLane
  method : PermutationMethod
  score : ℚ
  confidence : ℚ
  wordTokens : List String := []
  sourceEventIds : List String := []
  sourcePattern : Option String := none
  metadata : Metadata := .empty
  hostname_normal : normalizeDnsName tables hostname = .ok hostname
  confidence_unit : 0 ≤ confidence ∧ confidence ≤ 1

structure LearnedHostnameHypothesis (tables : Tables) where
  hostname : String
  score : ℚ := 0
  confidence : ℚ := 1 / 2
  sourceEventIds : List String := []
  sourcePattern : Option String := none
  metadata : Metadata := .empty
  hostname_normal : normalizeDnsName tables hostname = .ok hostname

section Generation

variable (tables : Tables) (log2 log1p : ℚ → ℚ) (config : PermutationsConfig)

/-- A candidate of words, if its host name can be normalized. -/
def wordCandidate (raw : String) (lane : CandidateLane) (method : PermutationMethod) (score : ℚ)
    (confidence : ℚ) (wordTokens : List String) (metadata : Metadata) :
    Option (PermutationCandidate tables) :=
  match h : normalizeDnsName tables raw with
  | .error _ => none
  | .ok hostname =>
    some { hostname, lane, method, score, wordTokens, metadata
           confidence := config.boundedConfidence confidence
           hostname_normal := normalizeDnsName_normal h
           confidence_unit := config.boundedConfidence_unit confidence }

def directWordCandidate (seedEvent : Event) (seed : String) (word : PermutationWord) (label : String)
    (lane : CandidateLane) : Option (PermutationCandidate tables) :=
  if seedEvent.type ≠ .rootDomain ∧ config.nestedChildren = false then none
  else
    wordCandidate tables config s!"{label}.{seed}" lane
      (if seedEvent.type = .rootDomain then .directChild else .nestedChild)
      (word.rankingScore log2 log1p) word.confidence [word.token.text] word.wordMetadata

def siblingCandidates (seed : String) (word : PermutationWord) (label : String)
    (lane : CandidateLane) : List (PermutationCandidate tables) :=
  match labels seed with
  | left :: parent =>
    if parent.length < 2 then []
    else
      let left := String.ofList left
      let parent := String.ofList (['.'].intercalate parent)
      let raw := [(s!"{label}-{left}.{parent}", PermutationMethod.prefixLeftLabel),
        (s!"{left}-{label}.{parent}", PermutationMethod.suffixLeftLabel)]
      (raw.filterMap fun e =>
        wordCandidate tables config e.1 lane e.2 (word.rankingScore log2 log1p * (9 / 10))
          (word.confidence * (9 / 10)) [word.token.text] word.wordMetadata).filter fun candidate =>
            candidate.hostname ≠ seed
  | [] => []

/-- Appends candidates while there is room. -/
def appendWhileRoom {α : Type} (limit : ℕ) (generated : List α) : List α → List α
  | [] => generated
  | candidate :: candidates =>
    if generated.length ≥ limit then generated
    else appendWhileRoom limit (generated ++ [candidate]) candidates

/-- The siblings a label has in this generation. -/
def siblingsOf (seedEvent : Event) (seed : String) (word : PermutationWord) (label : String)
    (lane : CandidateLane) : List (PermutationCandidate tables) :=
  if seedEvent.type = .dnsName ∧ config.siblingMutations = true then
    siblingCandidates tables log2 log1p config seed word label lane
  else []

/-- The labels of one word. -/
def generateLabels (seedEvent : Event) (seed : String) (lane : CandidateLane) (limit : ℕ)
    (word : PermutationWord) : List String → List (PermutationCandidate tables) →
      List (PermutationCandidate tables)
  | [], generated => generated
  | label :: labels, generated =>
    if generated.length ≥ limit then generated
    else
      let generated := generated ++
        (directWordCandidate tables log2 log1p config seedEvent seed word label lane).toList
      if generated.length ≥ limit then generated
      else
        generateLabels seedEvent seed lane limit word labels
          (appendWhileRoom limit generated
            (siblingsOf tables log2 log1p config seedEvent seed word label lane))

/-- The words, one after the other. -/
def generateWords (seedEvent : Event) (seed : String) (lane : CandidateLane) (limit : ℕ) :
    List PermutationWord → List (PermutationCandidate tables) → List (PermutationCandidate tables)
  | [], generated => generated
  | word :: words, generated =>
    let generated := generateLabels tables log2 log1p config seedEvent seed lane limit word
      (word.labelVariants tables) generated
    if generated.length ≥ limit then generated
    else generateWords seedEvent seed lane limit words generated

/-- The better of two candidates of one host name. -/
def betterCandidate (existing candidate : PermutationCandidate tables) :
    PermutationCandidate tables :=
  let key := fun (c : PermutationCandidate tables) =>
    toLex (c.score, decide (c.method = .learnedPattern))
  if key existing < key candidate then candidate else existing

/-- The best candidate of each host name. -/
def bestByHostname (candidates : List (PermutationCandidate tables)) :
    Dict String (PermutationCandidate tables) :=
  candidates.foldl (fun best candidate =>
    match best.get? candidate.hostname with
    | none => best.set candidate.hostname candidate
    | some existing => best.set candidate.hostname (betterCandidate tables existing candidate)) .empty

def rankAndDedupeCandidates (candidates : List (PermutationCandidate tables)) :
    List (PermutationCandidate tables) :=
  (bestByHostname tables candidates).values.insertionSort fun a b =>
    toLex (-a.score, a.hostname) ≤ toLex (-b.score, b.hostname)

/-- The pairs of a list, each once and in order. -/
def orderedPairs {α : Type} : List α → List (α × α)
  | [] => []
  | x :: xs => xs.map (fun y => (x, y)) ++ orderedPairs xs

def pairwiseCandidates (seed : String) (words : List PermutationWord) (remaining : ℕ) :
    List (PermutationCandidate tables) :=
  let primary := words.filterMap fun word =>
    (word.labelVariants tables).head?.map fun label => (word, label)
  let combined := (orderedPairs primary).flatMap fun e =>
    [(e, s!"{e.1.2}-{e.2.2}"), (e, s!"{e.2.2}-{e.1.2}")]
  let candidates := combined.filterMap fun e =>
    let (left, right) := (e.1.1.1, e.1.2.1)
    if e.2.length > 63 then none
    else
      wordCandidate tables config s!"{e.2}.{seed}" .targeted .pairwiseHyphen
        ((left.rankingScore log2 log1p + right.rankingScore log2 log1p) / 2)
        (min left.confidence right.confidence * (4 / 5)) [left.token.text, right.token.text]
        (.ofPairs [("pairwise", .bool true),
          ("global_sources", PermutationWord.sourcesJson
            (sortedSet id (left.globalSources ++ right.globalSources))),
          ("target_sources", PermutationWord.sourcesJson
            (sortedSet id (left.targetSources ++ right.targetSources)))])
  rankAndDedupeCandidates tables (candidates.take remaining)

def generateWordCandidates (seedEvent : Event) (seed : String) (words : List PermutationWord)
    (lane : CandidateLane) (limit : ℕ) : List (PermutationCandidate tables) :=
  if limit = 0 then []
  else
    let generated := generateWords tables log2 log1p config seedEvent seed lane limit words []
    let generated :=
      if seedEvent.type = .rootDomain ∧ lane = .targeted ∧ config.pairwiseEnabled = true ∧
          config.pairwiseTopWords > 1 ∧ generated.length < limit then
        generated ++ pairwiseCandidates tables log2 log1p config seed
          (words.take config.pairwiseTopWords) (limit - generated.length)
      else generated
    (rankAndDedupeCandidates tables generated).take limit

/-! ## Learned hypotheses -/

def candidateWithinSeedBranch (candidate seed : String) (seedType : EventType) :
    Except PyError Bool := do
  let normalizedCandidate ← normalizeDnsName tables candidate
  let normalizedSeed ← normalizeDnsName tables seed
  let below := normalizedCandidate ≠ normalizedSeed && isSubdomain normalizedCandidate normalizedSeed
  if seedType = .rootDomain ∨ below = true then return below
  else
    match labels normalizedSeed with
    | _ :: parent =>
      if parent.length < 2 then return false
      else
        let parent := String.ofList (['.'].intercalate parent)
        return normalizedCandidate ≠ parent && isSubdomain normalizedCandidate parent
    | [] => return false

/-- The hypotheses within the branch of the seed, unless one raises. -/
def withinBranch (seedEvent : Event) (seed : String) :
    List (LearnedHostnameHypothesis tables) → Except PyError (List (LearnedHostnameHypothesis tables))
  | [] => .ok []
  | hypothesis :: hypotheses => do
    let within ← candidateWithinSeedBranch tables hypothesis.hostname seed seedEvent.type
    let rest ← withinBranch seedEvent seed hypotheses
    return if within then hypothesis :: rest else rest

def learnedCandidate (hypothesis : LearnedHostnameHypothesis tables) :
    PermutationCandidate tables where
  hostname := hypothesis.hostname
  lane := .targeted
  method := .learnedPattern
  score := hypothesis.score
  confidence := config.boundedConfidence hypothesis.confidence
  sourceEventIds := hypothesis.sourceEventIds
  sourcePattern := hypothesis.sourcePattern
  metadata := (Dict.ofPairs [("learned_pattern", JsonValue.bool true)]).update hypothesis.metadata
  hostname_normal := hypothesis.hostname_normal
  confidence_unit := config.boundedConfidence_unit hypothesis.confidence

def generateLearnedCandidates (seedEvent : Event) (seed : String)
    (hypotheses : List (LearnedHostnameHypothesis tables)) :
    Except PyError (List (PermutationCandidate tables)) := do
  let kept ← withinBranch tables seedEvent seed hypotheses
  return rankAndDedupeCandidates tables (kept.map (learnedCandidate tables config))

/-! ## The cursor -/

/-- The offsets of `InMemoryExplorationCursorStore`, by namespace. -/
abbrev CursorOffsets := Dict String ℕ

def claimWindow (offsets : CursorOffsets) (cursorNamespace : String) (poolSize windowSize : ℕ) :
    List ℕ × CursorOffsets :=
  if poolSize = 0 ∨ windowSize = 0 then ([], offsets)
  else
    let count := min poolSize windowSize
    let start := (offsets.get? cursorNamespace).getD 0 % poolSize
    (circleWindow poolSize count start, offsets.set cursorNamespace ((start + count) % poolSize))

def explorationNamespace (sha256 : String → String) (seed : String) (tier : CandidateTier) : String :=
  let digest := String.ofList ((sha256 s!"{seed}|{tier.value}").toList.take 16)
  s!"permutations:{strLower tables tier.value}:{digest}"

/-! ## `generate_candidates` -/

/-- `targeted_words`, in order. -/
def targetedWords (corpus : List PermutationWord) : List PermutationWord :=
  ((PermutationWord.dedupeWords tables corpus).filter fun word =>
    word.lane = .targeted).insertionSort fun a b =>
      a.targetedSortKey tables log2 log1p ≤ b.targetedSortKey tables log2 log1p

/-- `exploration_words`, in order. -/
def explorationWords (corpus : List PermutationWord) : List PermutationWord :=
  ((PermutationWord.dedupeWords tables corpus).filter fun word =>
    word.lane = .exploration).insertionSort fun a b =>
      a.explorationSortKey tables ≤ b.explorationSortKey tables

/-- `generate_candidates`, with the cursor before and after. -/
def generateCandidates (sha256 : String → String) (seedEvent : Event) (seed : String)
    (corpus : List PermutationWord) (learned : List (LearnedHostnameHypothesis tables))
    (lane : CandidateLane) (candidateLimit : Option ℕ) (tier : Option CandidateTier)
    (offsets : CursorOffsets) :
    Except PyError (List (PermutationCandidate tables)) × CursorOffsets :=
  let total := config.totalFor candidateLimit
  match lane with
  | .targeted =>
    let limit := config.targetedLimitFor total
    let wordCandidates := generateWordCandidates tables log2 log1p config seedEvent seed
      (targetedWords tables log2 log1p corpus) .targeted limit
    let result := do
      let learnedCandidates ← generateLearnedCandidates tables config seedEvent seed learned
      return (rankAndDedupeCandidates tables (learnedCandidates ++ wordCandidates)).take limit
    (result, offsets)
  | .exploration =>
    let words := explorationWords tables corpus
    let limit := config.explorationLimitFor total
    if words = [] ∨ limit = 0 then (.ok [], offsets)
    else
      let (indexes, offsets) := claimWindow offsets
        (explorationNamespace tables sha256 seed (tier.getD config.tier)) words.length
        (min words.length limit)
      let rotatingWords := indexes.filterMap fun index => words[index]?
      (.ok (generateWordCandidates tables log2 log1p config seedEvent seed rotatingWords
        .exploration limit), offsets)

end Generation

end NightScout
