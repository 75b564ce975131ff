import NightScout.Intelligence.NamingPatterns
import NightScout.Lib.Tuples

/-!
# Hypotheses from a pattern

`generate_pattern_hypotheses` and `hypotheses_for` of `recon/intelligence/patterns.py`, and the event provider of
`recon/storage/intelligence.py`: combinations of observed values that were not observed together become host names,
those one place away from an observation first, then others in the order of their product.
-/

namespace NightScout

open Lib

section Generation

variable (tables : Tables) (config : PatternEngineConfig)

def observedTuples (pattern : NamingPattern) : List (List String) :=
  (fromkeys (pattern.observedLabels.map (splitPatternLabel tables))).filter fun values =>
    values.length = pattern.slots.length

def variableIndexes (pattern : NamingPattern) : List ℕ := (pattern.slots.filter (·.isVariable)).map (·.index)

/-- The candidates of the first phase, in the order they are found. -/
def mutations (pattern : NamingPattern) : List (List String) :=
  (sortedSet id (observedTuples tables pattern)).flatMap fun observed =>
    (variableIndexes pattern).flatMap fun index =>
      ((pattern.slots[index]?.map (·.values)).getD []).filterMap fun value =>
        if some value = observed[index]? then none
        else
          let candidate := observed.set index value
          if candidate ∈ observedTuples tables pattern then none else some candidate

/-- The first phase. -/
def firstPhase (pattern : NamingPattern) : Dict (List String) ℕ :=
  (mutations tables pattern).foldl (fun components candidate =>
    components.set candidate (min ((components.get? candidate).getD (10 ^ 9)) 1)) .empty

def valueDomains (pattern : NamingPattern) : List (List String) :=
  pattern.slots.map fun slot => if slot.kind = .literal then [slot.literal.getD ""] else slot.values

/-- The loop of the second phase. -/
def secondPhase (observed : List (List String)) (limit : ℕ) :
    List (List String) → Dict (List String) ℕ → Except PyError (Dict (List String) ℕ)
  | [], components => .ok components
  | candidate :: rest, components =>
    if candidate ∈ observed ∨ candidate ∈ components.keys then secondPhase observed limit rest components
    else
      match (observed.map (hamming candidate)).min? with
      | none => .error (.valueError "min() iterable argument is empty")
      | some distance =>
        let components := components.set candidate distance
        if components.keys.length ≥ limit then .ok components else secondPhase observed limit rest components

def candidateComponents (pattern : NamingPattern) : Except PyError (Dict (List String) ℕ) :=
  let components := firstPhase tables pattern
  if components.keys.length < config.maxHypothesesPerPattern then
    secondPhase (observedTuples tables pattern) (config.maxHypothesesPerPattern * 8) (product (valueDomains pattern))
      components
  else .ok components

def patternValueFrequencyScore (log1p : ℚ → ℚ) (pattern : NamingPattern) (components : List String) : ℚ :=
  ((pattern.slots.filter (·.isVariable)).map fun slot =>
    log1p ((slot.valueCounts.get? (components.getD slot.index "")).getD 0) * (12 / 100)).sum

def candidateScore (log1p : ℚ → ℚ) (pattern : NamingPattern) (components : List String) (distance : ℕ) : ℚ :=
  pattern.score + patternValueFrequencyScore log1p pattern components + 3 / 2 / max 1 distance +
    pattern.yieldRatio * (3 / 2)

def candidateConfidence (pattern : NamingPattern) (distance : ℕ) : ℚ :=
  min config.candidateConfidenceCeiling
    (max config.candidateConfidenceFloor (pattern.confidence * (96 / 100) ^ (distance - 1)))

/-- The metadata of a hypothesis. -/
def hypothesisMetadata (pattern : NamingPattern) (components : List String) (distance : ℕ) : Metadata :=
  let variableValues : Metadata := .ofPairs ((variableIndexes pattern).map fun index =>
    (((pattern.slots[index]?).map (·.templateName)).getD "", .string (components.getD index "")))
  .ofPairs [
    ("pattern_id", .string pattern.patternId),
    ("pattern_template", .string pattern.template),
    ("label_template", .string pattern.labelTemplate),
    ("pattern_parent_domain", .string pattern.parentDomain),
    ("pattern_root_domain", .string pattern.rootDomain),
    ("pattern_support", .int pattern.support),
    ("pattern_confidence", .float pattern.confidence),
    ("pattern_score", .float pattern.score),
    ("pattern_combination_space", .int pattern.combinationSpace),
    ("hamming_distance_from_observed", .int distance),
    ("variable_values", .object variableValues.entries),
    ("known_values_only", .bool true),
    ("numeric_extrapolation", .bool false),
    ("pattern_feedback_attempts", .int pattern.feedbackAttempts),
    ("pattern_feedback_successes", .int pattern.feedbackSuccesses),
    ("pattern_historical_yield", .float pattern.yieldRatio)]

/-- The hypothesis of one candidate. -/
def patternHypothesis (log1p : ℚ → ℚ) (pattern : NamingPattern) (components : List String) (distance : ℕ)
    (hostname : String) (hnormal : normalizeDnsName tables hostname = .ok hostname) :
    LearnedHostnameHypothesis tables where
  hostname
  score := candidateScore log1p pattern components distance
  confidence := candidateConfidence config pattern distance
  sourceEventIds := pattern.sourceEventIds
  sourcePattern := some pattern.template
  metadata := hypothesisMetadata pattern components distance
  hostname_normal := hnormal

/-- The loop over the candidates. -/
def patternHypotheses (log1p : ℚ → ℚ) (pattern : NamingPattern) (existing : List String) :
    List (List String × ℕ) → Except PyError (List (LearnedHostnameHypothesis tables))
  | [] => .ok []
  | (components, distance) :: rest =>
    let label := joinHyphens components
    if validDnsLabel label = false then patternHypotheses log1p pattern existing rest
    else
      match h : normalizeDnsName tables s!"{label}.{pattern.parentDomain}" with
      | .error e => .error e
      | .ok hostname =>
        if hostname ∈ existing then patternHypotheses log1p pattern existing rest
        else do
          let hypotheses ← patternHypotheses log1p pattern existing rest
          return patternHypothesis tables config log1p pattern components distance hostname
            (normalizeDnsName_normal h) :: hypotheses

variable {tables} in
/-- What hypotheses are sorted by. -/
def hypothesisRank (hypothesis : LearnedHostnameHypothesis tables) : ℚ ×ₗ ℚ ×ₗ String :=
  toLex (-hypothesis.score, toLex (-hypothesis.confidence, hypothesis.hostname))

variable {tables} in
def sortHypotheses (hypotheses : List (LearnedHostnameHypothesis tables)) : List (LearnedHostnameHypothesis tables) :=
  hypotheses.insertionSort fun a b => hypothesisRank a ≤ hypothesisRank b

def generatePatternHypotheses (log1p : ℚ → ℚ) (pattern : NamingPattern) (existing : List String) :
    Except PyError (List (LearnedHostnameHypothesis tables)) :=
  if variableIndexes pattern = [] then .ok []
  else do
    let components ← candidateComponents tables config pattern
    let hypotheses ← patternHypotheses tables config log1p pattern existing components.entries
    return (sortHypotheses hypotheses).take config.maxHypothesesPerPattern

/-! ## The engine -/

def rankAndDedupeHypotheses (hypotheses : List (LearnedHostnameHypothesis tables)) :
    List (LearnedHostnameHypothesis tables) :=
  let strength := fun (h : LearnedHostnameHypothesis tables) => toLex (h.score, h.confidence)
  sortHypotheses (hypotheses.foldl (fun best hypothesis =>
    match best.get? hypothesis.hostname with
    | none => best.set hypothesis.hostname hypothesis
    | some existing =>
      if strength existing < strength hypothesis then best.set hypothesis.hostname hypothesis else best)
    (.empty : Dict String (LearnedHostnameHypothesis tables))).values

/-- The confirmed names among events. -/
def confirmedHostnames (events : List Event) : List String :=
  events.filterMap fun event =>
    if event.type = .dnsName ∧ "confirmed" ∈ event.tags then (normalizeDnsName tables event.value).toOption else none

/-- `candidate_within_seed_branch`. -/
def withinSeedBranch (candidate : String) (seedEvent : Event) : Except PyError Bool :=
  if seedEvent.type = .rootDomain ∨ seedEvent.type = .dnsName then
    candidateWithinSeedBranch tables candidate seedEvent.value seedEvent.type
  else do
    let _ ← normalizeDnsName tables candidate
    let _ ← normalizeDnsName tables seedEvent.value
    return false

/-- Appends the hypotheses within the branch until there are enough. -/
def appendWithinBranch (seedEvent : Event) :
    List (LearnedHostnameHypothesis tables) → List (LearnedHostnameHypothesis tables) →
      Except PyError (List (LearnedHostnameHypothesis tables))
  | [], hypotheses => .ok hypotheses
  | candidate :: rest, hypotheses => do
    let within ← withinSeedBranch tables candidate.hostname seedEvent
    if within = false then appendWithinBranch seedEvent rest hypotheses
    else
      let hypotheses := hypotheses ++ [candidate]
      if hypotheses.length ≥ config.maxHypothesesTotal then return hypotheses
      else appendWithinBranch seedEvent rest hypotheses

/-- The patterns, one after the other. -/
def hypothesesOfPatterns (log1p : ℚ → ℚ) (seedEvent : Event) (existing : List String) :
    List NamingPattern → List (LearnedHostnameHypothesis tables) →
      Except PyError (List (LearnedHostnameHypothesis tables))
  | [], hypotheses => .ok hypotheses
  | pattern :: patterns, hypotheses => do
    let candidates ← generatePatternHypotheses tables config log1p pattern existing
    let hypotheses ← appendWithinBranch tables config seedEvent candidates hypotheses
    if hypotheses.length ≥ config.maxHypothesesTotal then return hypotheses
    else hypothesesOfPatterns log1p seedEvent existing patterns hypotheses

/-- `hypotheses_for`, of what the event provider gives. -/
def hypothesesFor (log2 log1p : ℚ → ℚ) (sha256 : String → String) (seedEvent : Event) (provided : List Event)
    (feedback : List PatternFeedback) : Except PyError (List (LearnedHostnameHypothesis tables)) := do
  let patterns ← patternsFor tables config log2 log1p sha256 seedEvent provided feedback
  let _ ← patternLearningRoot tables seedEvent
  let existing := confirmedHostnames tables (provided.take config.maxTargetEvents)
  let hypotheses ← hypothesesOfPatterns tables config log1p seedEvent existing patterns []
  return (rankAndDedupeHypotheses tables hypotheses).take config.maxHypothesesTotal

end Generation

/-- `SQLiteTargetEventProvider.events_for`: the latest records but for the seed's, in the order they were first seen. -/
def eventsFor (maxEvents : ℕ) (records : List Event) (seedEvent : Event) : List Event :=
  let recent := (records.filter fun record => record.eventId ≠ seedEvent.eventId).insertionSort fun a b =>
    toLex (b.lastSeen, b.eventId) ≤ toLex (a.lastSeen, a.eventId)
  (recent.take maxEvents).insertionSort fun a b =>
    toLex (a.firstSeen, a.eventId) ≤ toLex (b.firstSeen, b.eventId)

end NightScout
