import NightScout.Lib.Groups
import NightScout.Policy.Urls
import NightScout.Workers.Permutations

/-!
# Naming patterns

The learning half of `recon/intelligence/patterns.py`: confirmed host names are grouped by parent and number of
components, and a group whose columns vary in a few places gives a pattern, with the values seen in each place.

Logarithms and `sha256` are parameters. Components consist of small letters and digits, so `isdigit` and `isalpha` are
those of ASCII. The validators of a slot and of a pattern only restate what learning has computed.
-/

namespace NightScout

open Lib

inductive PatternSlotKind where
  | literal | service | environment | region | number | value
  deriving DecidableEq, Repr

def PatternSlotKind.text : PatternSlotKind → String
  | literal => "LITERAL" | service => "SERVICE" | environment => "ENVIRONMENT" | region => "REGION"
  | number => "NUMBER" | value => "VALUE"

structure PatternSlot where
  index : ℕ
  kind : PatternSlotKind
  literal : Option String := none
  values : List String := []
  valueCounts : Dict String ℕ := .empty
  numericWidth : Option ℕ := none
  semanticConfidence : ℚ := 1 / 2

namespace PatternSlot

def isVariable (slot : PatternSlot) : Bool := slot.kind ≠ .literal

/-- Whether a hint about the meaning was found. -/
def semantic (slot : PatternSlot) : Bool := slot.kind ∈ [.service, .environment, .region, .number]

def templateName (slot : PatternSlot) : String :=
  match slot.kind with
  | .literal => "literal"
  | .service => "service"
  | .environment => "env"
  | .region => "region"
  | .number => "number"
  | .value => s!"value{slot.index}"

end PatternSlot

structure NamingPattern where
  patternId : String
  parentDomain : String
  rootDomain : String
  template : String
  labelTemplate : String
  slots : List PatternSlot
  observedLabels : List String
  observedHostnames : List String
  sourceEventIds : List String
  support : ℕ
  combinationSpace : ℕ
  unseenCombinationCount : ℕ
  score : ℚ := 0
  confidence : ℚ := 1 / 2
  literalSlots : ℕ
  variableSlots : ℕ
  feedbackAttempts : ℕ := 0
  feedbackSuccesses : ℕ := 0
  metadata : Metadata := .empty

def NamingPattern.yieldRatio (pattern : NamingPattern) : ℚ :=
  if pattern.feedbackAttempts = 0 then 0 else pattern.feedbackSuccesses / pattern.feedbackAttempts

structure PatternFeedback where
  patternId : String
  attemptedHypotheses : ℕ := 0
  successfulHits : ℕ := 0
  metadata : Metadata := .empty
  hits_le : successfulHits ≤ attemptedHypotheses := by decide

def environmentTokens : List String :=
  ["prod", "production", "prd", "stage", "staging", "stg", "preprod", "pre-prod", "preproduction", "dev",
    "development", "test", "testing", "qa", "uat", "sandbox", "demo", "beta", "alpha", "canary"]

def serviceAnchorTokens : List String :=
  ["api", "rest", "grpc", "web", "app", "svc", "service", "worker", "admin", "internal", "public", "private"]

structure PatternEngineConfig where
  minSupport : ℕ := 3
  maxTargetEvents : ℕ := 250000
  maxConfirmedHostnames : ℕ := 100000
  maxComponentsPerLabel : ℕ := 8
  maxVariableSlots : ℕ := 5
  maxPatterns : ℕ := 256
  maxAnchorClustersPerGroup : ℕ := 32
  maxCombinationSpace : ℕ := 4096
  maxHypothesesPerPattern : ℕ := 128
  maxHypothesesTotal : ℕ := 1000
  minPatternConfidence : ℚ := 52 / 100
  candidateConfidenceFloor : ℚ := 35 / 100
  candidateConfidenceCeiling : ℚ := 92 / 100
  allowUnanchoredSemanticPattern : Bool := true
  environmentTokens : List String := NightScout.environmentTokens
  minSupport_range : 2 ≤ minSupport ∧ minSupport ≤ 1000 := by decide
  maxComponents_range : 2 ≤ maxComponentsPerLabel ∧ maxComponentsPerLabel ≤ 32 := by decide
  perPattern_range : 1 ≤ maxHypothesesPerPattern ∧ maxHypothesesPerPattern ≤ 100000 := by decide
  total_range : 1 ≤ maxHypothesesTotal ∧ maxHypothesesTotal ≤ 1000000 := by decide
  confidences : 0 ≤ candidateConfidenceFloor ∧ candidateConfidenceFloor ≤ candidateConfidenceCeiling ∧
    candidateConfidenceCeiling ≤ 1 := by decide +kernel

/-! ## Components -/

def componentChar (c : Char) : Bool := ('a' ≤ c && c ≤ 'z') || ('0' ≤ c && c ≤ '9')

/-- `"-".join(components)`. -/
def joinHyphens (components : List String) : String :=
  String.ofList (['-'].intercalate (components.map String.toList))

section Components

variable (tables : Tables)

def normalizeLabelComponent (value : String) : Option String :=
  let normalized := strLower tables (strip value)
  if normalized = "" ∨ normalized.length > 63 then none
  else if normalized.toList.all componentChar then some normalized
  else none

def splitPatternLabel (label : String) : List String :=
  let normalized := strLower tables (strip label)
  if normalized = "" ∨ normalized.length > 63 then []
  else
    let parts := ((normalized.toList.splitOn '-').filter (· ≠ [])).map String.ofList
    if joinHyphens parts ≠ normalized then []
    else if parts.any fun part => (normalizeLabelComponent tables part).isNone then []
    else parts

end Components

def validDnsLabel (value : String) : Bool :=
  let chars := value.toList
  chars ≠ [] && chars.length ≤ 63 && chars.head? ≠ some '-' && chars.getLast? ≠ some '-' &&
    chars.all fun c => componentChar c || c = '-'

/-! ## Observations -/

structure HostnameObservation where
  hostname : String
  parentDomain : String
  childLabel : String
  components : List String
  eventId : String
  confidence : ℚ
  source : String

structure PatternCandidateGroup where
  parentDomain : String
  observations : List HostnameObservation
  groupReason : String
  anchorIndex : Option ℕ := none
  anchorValue : Option String := none

section Learning

variable (tables : Tables) (config : PatternEngineConfig)

/-- The observation of an event under a root. -/
def observationOf (root : String) (event : Event) : Option HostnameObservation :=
  if event.type ≠ .dnsName ∨ "confirmed" ∉ event.tags then none
  else
    match normalizeDnsName tables event.value with
    | .error _ => none
    | .ok hostname =>
      if hostname = root ∨ isSubdomain hostname root = false then none
      else
        match labels hostname with
        | child :: parent =>
          if parent.length < 2 then none
          else
            let childLabel := String.ofList child
            let components := splitPatternLabel tables childLabel
            if components.length < 2 ∨ components.length > config.maxComponentsPerLabel then none
            else some {
              hostname, childLabel, components
              parentDomain := String.ofList (['.'].intercalate parent)
              eventId := event.eventId
              confidence := event.confidence
              source := event.source.text }
        | [] => none

local instance lawfulKeys : LawfulBEq (String × String) := inferInstance

/-- The loop of `collect_confirmed_hostname_observations`. -/
def collectObservations (root : String) :
    List Event → List HostnameObservation → List (String × String) → List HostnameObservation
  | [], result, _ => result
  | event :: events, result, seen =>
    if result.length ≥ config.maxConfirmedHostnames then result
    else
      match observationOf tables config root event with
      | none => collectObservations root events result seen
      | some observation =>
        let key := (observation.hostname, observation.eventId)
        if key ∈ seen then collectObservations root events result seen
        else collectObservations root events (result ++ [observation]) (key :: seen)

def collectConfirmedHostnameObservations (events : List Event) (rootDomain : String) :
    Except PyError (List HostnameObservation) := do
  let root ← normalizeDnsName tables rootDomain
  return collectObservations tables config root events [] []

/-! ## Groups -/

/-- `sorted` by label and event. -/
def sortedObservations (observations : List HostnameObservation) : List HostnameObservation :=
  observations.insertionSort fun a b => toLex (a.childLabel, a.eventId) ≤ toLex (b.childLabel, b.eventId)

/-- The observations that share a value in one place, unless they are too few or all. -/
def anchorClusters (group : List HostnameObservation) (arity : ℕ) :
    List (ℕ × String × List HostnameObservation) :=
  let clusters := (List.range arity).flatMap fun index =>
    ((groupPairs (group.map fun o => (o.components.getD index "", o))).entries.filter fun e =>
      ¬ (e.2.length < config.minSupport ∨ e.2.length = group.length)).map fun e =>
        (index, e.1, sortedObservations e.2)
  clusters.insertionSort fun a b =>
    toLex (-(a.2.2.length : ℤ), toLex (a.1, a.2.1)) ≤ toLex (-(b.2.2.length : ℤ), toLex (b.1, b.2.1))

def appendGroupIfNew (groups : List PatternCandidateGroup) (group : PatternCandidateGroup) :
    List PatternCandidateGroup :=
  let key := fun (g : PatternCandidateGroup) => (g.parentDomain, g.observations.map (·.childLabel))
  if key group ∈ groups.map key then groups else groups ++ [group]

def buildPatternCandidateGroups (observations : List HostnameObservation) : List PatternCandidateGroup :=
  let byParentArity := (groupPairs (observations.map fun o =>
    ((o.parentDomain, o.components.length), o))).entries.insertionSort fun a b =>
      toLex a.1 ≤ toLex b.1
  byParentArity.foldl (fun groups entry =>
    let group := sortedObservations (Dict.ofPairs (entry.2.map fun o => (o.childLabel, o))).values
    if group.length < config.minSupport then groups
    else
      let groups := appendGroupIfNew groups
        { parentDomain := entry.1.1, observations := group, groupReason := "parent-arity" }
      let clusters := (anchorClusters config group entry.1.2).take config.maxAnchorClustersPerGroup
      clusters.foldl (fun groups cluster => appendGroupIfNew groups
        { parentDomain := entry.1.1, observations := cluster.2.2, groupReason := "frequent-anchor",
          anchorIndex := some cluster.1, anchorValue := some cluster.2.1 }) groups) []

/-! ## Inference -/

def isDigits (value : String) : Bool := value ≠ "" && value.toList.all fun c => '0' ≤ c && c ≤ '9'

def isLetters (value : String) : Bool := value ≠ "" && value.toList.all fun c => 'a' ≤ c && c ≤ 'z'

/-- `classify_variable_column_preliminary`. -/
def classifyPreliminary (values : List String) : PatternSlotKind :=
  let unique := fromkeys values
  if unique.length ≤ 1 then .literal
  else if unique.all isDigits then .number
  else if unique.all fun value => value ∈ config.environmentTokens then .environment
  else .value

def classifyVariableColumn (columns : List (List String)) (index : ℕ) (preliminaryKinds : List PatternSlotKind) :
    PatternSlotKind :=
  let values := columns.getD index []
  let anchored := (columns.drop 1).any fun column =>
    match fromkeys column with
    | [value] => value ∈ serviceAnchorTokens
    | _ => false
  if values.all isDigits then .number
  else if values.all fun value => value ∈ config.environmentTokens then .environment
  else if index = 0 ∧ values.all isLetters = true ∧ (anchored = true ∨
      (preliminaryKinds.drop 1).any (fun kind => kind ∈ [.environment, .number]) = true) then .service
  else if index + 1 < columns.length ∧ preliminaryKinds[index + 1]? = some .number ∧
      values.all (fun value => isLetters value && 2 ≤ value.length && value.length ≤ 8) = true then .region
  else .value

def semanticConfidenceForKind : PatternSlotKind → ℚ
  | .literal => 1 | .number => 98 / 100 | .environment => 96 / 100 | .service => 80 / 100
  | .region => 72 / 100 | .value => 50 / 100

def counter (values : List String) : Dict String ℕ :=
  values.foldl (fun counts value => counts.set value ((counts.get? value).getD 0 + 1)) .empty

/-- The values of a column, the most frequent first. -/
def columnValues (column : List String) : List String :=
  ((counter column).entries.insertionSort fun a b =>
    toLex (-(a.2 : ℤ), a.1) ≤ toLex (-(b.2 : ℤ), b.1)).map Prod.fst

/-- The slot of a column. -/
def inferSlot (columns : List (List String)) (preliminaryKinds : List PatternSlotKind) (index : ℕ)
    (column : List String) : PatternSlot :=
  let values := columnValues column
  match values with
  | [value] =>
    { index, kind := .literal, literal := some value, values := [value], valueCounts := counter column,
      semanticConfidence := 1 }
  | _ =>
    let kind := classifyVariableColumn config columns index preliminaryKinds
    let numericWidth :=
      match values with
      | first :: rest =>
        if kind = .number ∧ rest.all (fun value => value.length = first.length) = true then some first.length
        else none
      | [] => none
    -- numbers of several widths do not suggest a format
    let kind := if kind = .number ∧ numericWidth = none then .value else kind
    { index, kind, values, valueCounts := counter column, numericWidth,
      semanticConfidence := semanticConfidenceForKind kind }

def renderLabelTemplate (slots : List PatternSlot) : String :=
  let parts := slots.foldl (fun state slot =>
    match slot.literal with
    | some literal => (state.1, state.2 ++ [literal])
    | none =>
      let base := slot.templateName
      let used := (state.1.get? base).getD 0 + 1
      let name := if used > 1 then s!"{base}{used}" else base
      (state.1.set base used, state.2 ++ ["\x7b" ++ name ++ "\x7d"]))
    ((.empty, []) : Dict String ℕ × List String)
  joinHyphens parts.2

def deterministicPatternId (sha256 : String → String) (rootDomain parentDomain : String) (slots : List PatternSlot) :
    String :=
  let parts := [rootDomain, parentDomain] ++ slots.map fun slot =>
    let literal := slot.literal.getD ""
    s!"{slot.index}:{slot.kind.text}:{literal}:" ++ ",".intercalate slot.values
  "pat_" ++ String.ofList ((sha256 ("\n".intercalate parts)).toList.take 24)

def calculatePatternConfidence (log2 : ℚ → ℚ) (support : ℕ) (slots : List PatternSlot)
    (combinationSpace observedCount : ℕ) (groupReason : String) : ℚ :=
  let variableSlots := slots.countP (·.isVariable)
  let semanticSlots := slots.countP (·.semantic)
  let confidence := 38 / 100 + min 1 (support / 8) * (24 / 100) +
    ((slots.length - variableSlots : ℕ) : ℚ) / slots.length * (16 / 100) +
    semanticSlots / max 1 variableSlots * (12 / 100) +
    min (min 1 (observedCount / max 1 combinationSpace)) (1 / 2) * (16 / 100) -
    min (18 / 100) (log2 (max 1 combinationSpace) * (15 / 1000))
  let confidence := if groupReason = "frequent-anchor" then confidence + 3 / 100 else confidence
  min (96 / 100) (max 0 confidence)

def calculatePatternScore (log2 log1p : ℚ → ℚ) (support : ℕ) (slots : List PatternSlot) (combinationSpace : ℕ)
    (confidence : ℚ) (groupReason : String) : ℚ :=
  let variableSlots := slots.countP (·.isVariable)
  let semanticSlots := slots.countP (·.semantic)
  let score := log1p support * (22 / 10) + ((slots.length - variableSlots : ℕ) : ℚ) * (65 / 100) +
    semanticSlots * (45 / 100) + confidence * 2 - variableSlots * (22 / 100) -
    log2 (max 1 combinationSpace) * (12 / 100)
  if groupReason = "frequent-anchor" then score + 15 / 100 else score

/-- `combination_space`, unless it exceeds the limit on the way. -/
def combinationSpaceOf (slots : List PatternSlot) : Option ℕ :=
  slots.foldl (fun space slot =>
    space.bind fun space =>
      if slot.isVariable then
        if space * slot.values.length > config.maxCombinationSpace then none else some (space * slot.values.length)
      else some space) (some 1)

def inferNamingPattern (log2 log1p : ℚ → ℚ) (sha256 : String → String) (group : PatternCandidateGroup)
    (rootDomain : String) : Option NamingPattern :=
  let observations := group.observations
  if observations.length < config.minSupport then none
  else
    let arity := (observations.head?.map (·.components.length)).getD 0
    if arity < 2 ∨ arity > config.maxComponentsPerLabel then none
    else if observations.any fun o => o.components.length ≠ arity then none
    else
      let columns := (List.range arity).map fun index => observations.map fun o => o.components.getD index ""
      let preliminaryKinds := columns.map (classifyPreliminary config)
      let slots := columns.mapIdx (inferSlot config columns preliminaryKinds)
      let variableSlots := slots.countP (·.isVariable)
      let literalSlots := slots.length - variableSlots
      let semanticSlots := slots.countP (·.semantic)
      if variableSlots = 0 ∨ variableSlots > config.maxVariableSlots then none
      else if literalSlots = 0 ∧ (config.allowUnanchoredSemanticPattern = false ∨ semanticSlots = 0 ∨
          observations.length < max config.minSupport 4) then none
      else
        match combinationSpaceOf config slots with
        | none => none
        | some combinationSpace =>
          let observedCount := (fromkeys (observations.map (·.components))).length
          if combinationSpace ≤ observedCount then none
          else
            let labelTemplate := renderLabelTemplate slots
            let confidence := calculatePatternConfidence log2 observations.length slots combinationSpace
              observedCount group.groupReason
            some {
              patternId := deterministicPatternId sha256 rootDomain group.parentDomain slots
              parentDomain := group.parentDomain
              rootDomain
              template := s!"{labelTemplate}.{group.parentDomain}"
              labelTemplate
              slots
              observedLabels := observations.map (·.childLabel)
              observedHostnames := observations.map (·.hostname)
              sourceEventIds := sortedSet id (observations.map (·.eventId))
              support := observations.length
              combinationSpace
              unseenCombinationCount := combinationSpace - observedCount
              score := calculatePatternScore log2 log1p observations.length slots combinationSpace confidence
                group.groupReason
              confidence
              literalSlots
              variableSlots
              metadata := .ofPairs [
                ("group_reason", .string group.groupReason),
                ("anchor_index", (group.anchorIndex.map fun n => JsonValue.int n).getD .null),
                ("anchor_value", (group.anchorValue.map JsonValue.string).getD .null),
                ("semantic_variable_slots", .int semanticSlots),
                ("observed_sources", .array ((sortedSet id (observations.map (·.source))).map .string))] }

def applyPatternFeedback (log1p : ℚ → ℚ) (pattern : NamingPattern) (feedback : PatternFeedback) : NamingPattern :=
  let attempts := feedback.attemptedHypotheses
  let successes := feedback.successfulHits
  let yieldRatio : ℚ := if attempts > 0 then successes / attempts else 0
  let confidenceDelta := (yieldRatio - 1 / 4) * (16 / 100) * min 1 (attempts / 20)
  let scoreDelta := log1p successes * (9 / 10) - log1p ((attempts - successes : ℕ) : ℚ) * (12 / 100)
  let own : Metadata := .ofPairs [("attempts", .int attempts), ("successes", .int successes),
    ("yield_ratio", .float yieldRatio)]
  { pattern with
    feedbackAttempts := attempts
    feedbackSuccesses := successes
    confidence := min (98 / 100) (max 0 (pattern.confidence + confidenceDelta))
    score := pattern.score + scoreDelta
    metadata := pattern.metadata.set "pattern_feedback" (.object (own.update feedback.metadata).entries) }

def dedupeAndRankPatterns (patterns : List NamingPattern) : List NamingPattern :=
  let strength := fun (p : NamingPattern) => toLex (p.score, toLex (p.confidence, p.support))
  let best := patterns.foldl (fun best pattern =>
    let key := (pattern.parentDomain, pattern.labelTemplate)
    match best.get? key with
    | none => best.set key pattern
    | some existing => if strength existing < strength pattern then best.set key pattern else best)
    (.empty : Dict (String × String) NamingPattern)
  let rank := fun (p : NamingPattern) =>
    toLex (-p.score, toLex (-p.confidence, toLex (-(p.support : ℤ), p.template)))
  best.values.insertionSort fun a b => rank a ≤ rank b

/-! ## The engine -/

def inferSeedDomain (event : Event) : Option String :=
  let explicit :=
    match event.metadata.get? "seed_domain" with
    | some (.string text) => (normalizeDnsName tables text).toOption
    | _ => none
  match explicit with
  | some domain => some domain
  | none =>
    if event.type ∈ [EventType.rootDomain, .dnsName] then (normalizeDnsName tables event.value).toOption
    else if event.type ∈ [EventType.url, .apiEndpoint, .javascript, .artifact, .httpService] then
      match urlsplit tables event.value with
      | .error _ => none
      | .ok parts =>
        (parts.hostname tables).bind fun host => (normalizeDnsName tables host).toOption
    else none

def patternLearningRoot (seedEvent : Event) : Except PyError String :=
  if seedEvent.type = .rootDomain then normalizeDnsName tables seedEvent.value
  else
    let explicit :=
      match seedEvent.metadata.get? "seed_domain" with
      | some (.string text) => (normalizeDnsName tables text).toOption
      | _ => none
    match explicit with
    | some domain => .ok domain
    | none =>
      if seedEvent.type = .dnsName then do
        let hostname ← normalizeDnsName tables seedEvent.value
        match labels hostname with
        | _ :: parent =>
          if parent.length < 2 then
            .error (.valueError "confirmed DNS seed has no safe immediate parent branch")
          else .ok (String.ofList (['.'].intercalate parent))
        | [] => .error (.valueError "confirmed DNS seed has no safe immediate parent branch")
      else
        match inferSeedDomain tables seedEvent with
        | none => .error (.valueError "pattern engine requires ROOT_DOMAIN or DNS branch context")
        | some domain => .ok domain

/-- `patterns_for`, of what the event provider gives. -/
def patternsFor (log2 log1p : ℚ → ℚ) (sha256 : String → String) (seedEvent : Event) (provided : List Event)
    (feedback : List PatternFeedback) : Except PyError (List NamingPattern) := do
  let rootDomain ← patternLearningRoot tables seedEvent
  let observations ← collectConfirmedHostnameObservations tables config (provided.take config.maxTargetEvents) rootDomain
  let feedbackByPattern := Dict.ofPairs (feedback.map fun item => (item.patternId, item))
  let patterns := (buildPatternCandidateGroups config observations).filterMap fun group =>
    (inferNamingPattern config log2 log1p sha256 group rootDomain).bind fun pattern =>
      let pattern :=
        match feedbackByPattern.get? pattern.patternId with
        | none => pattern
        | some item => applyPatternFeedback log1p pattern item
      if pattern.confidence < config.minPatternConfidence then none else some pattern
  return (dedupeAndRankPatterns patterns).take config.maxPatterns

end Learning

end NightScout
