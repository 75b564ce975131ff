import NightScout.Workers.Permutations

/-!
# Yield observations

`recon/intelligence/yield_model.py`: what one execution of a worker produced, the query that selects
observations, their aggregation, and the store kept in memory. Token credit is compared by
`canonical_token_key` of `recon/intelligence/wordlists.py`.

What a field's validator makes of a value is a field of the structure. Metadata may hold any object, so its
type stays open; two of its values are equal where Python's `==` says so. A query may name a token without a
category: its validator only refuses a category without a token, and `observationMatchesQuery` asserts the
other.
-/

namespace NightScout

open Lib

/-! ## Tokens -/

inductive CorpusCategory where
  | general | dns | parameter | path | api | vhost | project | technology
  deriving DecidableEq, Repr

def CorpusCategory.value : CorpusCategory → String
  | general => "general" | dns => "dns" | parameter => "parameter" | path => "path"
  | api => "api" | vhost => "vhost" | project => "project" | technology => "technology"

/-- `CorpusCategory(value)`. -/
def CorpusCategory.ofValue (value : String) : Option CorpusCategory :=
  [general, dns, parameter, path, api, vhost, project, technology].find? fun c => c.value = value

theorem CorpusCategory.ofValue_value (category : CorpusCategory) : ofValue category.value = some category := by
  cases category <;> decide

/-- The tables of a character's kind. -/
structure TokenTables extends Tables where
  /-- `str.isdigit` of one character. -/
  isDigit : Char → Bool
  /-- `str.isalpha` of one character. -/
  isAlpha : Char → Bool

/-- A character of `_PARAMETER_RE`. -/
def parameterChar (c : Char) : Bool :=
  ('A' ≤ c && c ≤ 'Z') || ('a' ≤ c && c ≤ 'z') || ('0' ≤ c && c ≤ '9') ||
    c = '_' || c = '.' || c = '-' || c = '[' || c = ']'

def normalizeParameterName (value : String) : Except PyError String :=
  let normalized := strip value
  if normalized = "" then .error (.valueError "parameter name must not be blank")
  else if normalized.toList.all parameterChar ∧ normalized.length ≤ 128 then .ok normalized
  else .error (.valueError "parameter name contains unsupported characters or is too long")

section Tokens

variable (tables : TokenTables)

/-- `looks_hash_like`: nine characters of ten are hexadecimal digits. -/
def looksHashLike (value : String) : Bool :=
  let normalized := (strLower tables.toTables (strip value)).toList
  let hexDigits := normalized.countP fun c => ('0' ≤ c && c ≤ '9') || ('a' ≤ c && c ≤ 'f')
  normalized ≠ [] && 9 * normalized.length ≤ 10 * hexDigits

/-- `re.fullmatch(r"v[0-9]{1,4}", normalized)`. -/
def isVersion : List Char → Bool
  | 'v' :: digits => 1 ≤ digits.length && digits.length ≤ 4 &&
      digits.all fun c => '0' ≤ c && c ≤ '9'
  | _ => false

def normalizeGeneralToken (value : String) : Option String :=
  let normalized := strLower tables.toTables (strip value)
  let chars := normalized.toList
  if chars.length < 2 ∨ chars.length > 128 then none
  else if chars.all tables.isDigit then if chars.length ≤ 6 then some normalized else none
  else if chars.any tables.isAlpha = false ∧ isVersion chars = false then none
  else if 24 ≤ chars.length ∧ looksHashLike tables normalized = true then none
  else if chars.all fun c => ('a' ≤ c && c ≤ 'z') || ('0' ≤ c && c ≤ '9') || c = '_' || c = '.' ||
      c = '-' || c = '[' || c = ']' then some normalized
  else none

/-- `normalize_token_for_category`, which is `normalize_global_token`. -/
def normalizeTokenForCategory (category : CorpusCategory) (value : String) : Option String :=
  match category with
  | .parameter => (normalizeParameterName value).toOption
  | .dns | .vhost => normalizeCandidateLabel tables.toTables value
  | _ => normalizeGeneralToken tables value

def canonicalTokenKey (category : CorpusCategory) (value : String) : String :=
  match normalizeTokenForCategory tables category value with
  | none => strip value
  | some normalized => if category = .parameter then normalized else strLower tables.toTables normalized

end Tokens

/-! ## Models -/

inductive YieldExecutionOutcome where
  | succeeded | retry | failed
  deriving DecidableEq, Repr

def YieldExecutionOutcome.value : YieldExecutionOutcome → String
  | succeeded => "SUCCEEDED" | retry => "RETRY" | failed => "FAILED"

/-- `YieldExecutionOutcome(value)`. -/
def YieldExecutionOutcome.ofValue (value : String) : Option YieldExecutionOutcome :=
  [succeeded, retry, failed].find? fun o => o.value = value

theorem YieldExecutionOutcome.ofValue_value (outcome : YieldExecutionOutcome) :
    ofValue outcome.value = some outcome := by
  cases outcome <;> decide

def normalizeSourceIds (values : Finset String) : Finset String := (values.image strip).erase ""

theorem normalizeSourceIds_idem (values : Finset String) :
    normalizeSourceIds (normalizeSourceIds values) = normalizeSourceIds values := by
  ext source
  simp only [normalizeSourceIds, Finset.mem_erase, Finset.mem_image]
  constructor
  · intro ⟨hne, kept, ⟨_, value, hvalue, hkept⟩, hsource⟩
    refine ⟨hne, value, hvalue, ?_⟩
    rw [← hsource, ← hkept, strip_strip]
  · intro ⟨hne, value, hvalue, hsource⟩
    refine ⟨hne, source, ⟨hne, value, hvalue, hsource⟩, ?_⟩
    rw [← hsource, strip_strip]

theorem normalizeSourceIds_empty : normalizeSourceIds ∅ = ∅ := rfl

structure TokenYieldCredit (tables : TokenTables) (μ : Type) where
  token : Stripped
  category : CorpusCategory
  attemptedHypotheses : ℕ := 1
  successfulHits : ℕ := 0
  newAssets : ℕ := 0
  novelAssets : ℕ := 0
  sourceIds : Finset String := ∅
  metadata : μ
  sources_normal : normalizeSourceIds sourceIds = sourceIds
  hits_le : successfulHits ≤ attemptedHypotheses
  novel_le : novelAssets ≤ newAssets
  valid : normalizeTokenForCategory tables category token.text ≠ none
  deriving DecidableEq

structure PatternYieldCredit (μ : Type) where
  patternId : Stripped
  attemptedHypotheses : ℕ := 1
  successfulHits : ℕ := 0
  newAssets : ℕ := 0
  novelAssets : ℕ := 0
  metadata : μ
  hits_le : successfulHits ≤ attemptedHypotheses
  novel_le : novelAssets ≤ newAssets
  deriving DecidableEq

structure YieldObservation (tables : TokenTables) (μ : Type) where
  observationId : Stripped
  observedAt : Instant
  runId : Option Stripped := none
  taskId : Option Stripped := none
  inputEventId : Option Stripped := none
  targetKey : Option Stripped := none
  branchId : Option Stripped := none
  worker : Stripped
  action : Stripped
  routeRuleId : Option Stripped := none
  inputSource : Option Stripped := none
  sourceIds : Finset String := ∅
  executionOutcome : YieldExecutionOutcome := .succeeded
  attemptedUnits : ℕ := 1
  successfulHits : ℕ := 0
  newAssets : ℕ := 0
  novelAssets : ℕ := 0
  newDomains : ℕ := 0
  newUrls : ℕ := 0
  newEndpoints : ℕ := 0
  newVocabularyTokens : ℕ := 0
  newPatterns : ℕ := 0
  requestCount : ℚ := 0
  runtimeSeconds : ℚ := 0
  costUnits : ℚ := 1
  tokenCredits : List (TokenYieldCredit tables μ) := []
  patternCredits : List (PatternYieldCredit μ) := []
  metadata : μ
  sources_normal : normalizeSourceIds sourceIds = sourceIds
  requests_nonneg : 0 ≤ requestCount
  runtime_nonneg : 0 ≤ runtimeSeconds
  cost_pos : 0 < costUnits
  hits_le : successfulHits ≤ attemptedUnits
  novel_le : novelAssets ≤ newAssets
  deriving DecidableEq

structure YieldQuery where
  targetKey : Option Stripped := none
  branchId : Option Stripped := none
  worker : Option Stripped := none
  action : Option Stripped := none
  routeRuleId : Option Stripped := none
  inputSource : Option Stripped := none
  sourceId : Option Stripped := none
  token : Option Stripped := none
  tokenCategory : Option CorpusCategory := none
  patternId : Option Stripped := none
  since : Option Instant := none
  untilTime : Option Instant := none
  limit : Option ℕ := none
  newestFirst : Bool := false
  limit_pos : ∀ n ∈ limit, 1 ≤ n := by simp
  window : ∀ s ∈ since, ∀ u ∈ untilTime, s ≤ u := by simp
  category_token : tokenCategory ≠ none → token ≠ none := by simp

theorem YieldQuery.no_limit : ∀ n ∈ (none : Option ℕ), 1 ≤ n := fun _ h => (nomatch h)

/-- Sufficient statistics of a selection. -/
structure YieldAggregate where
  observations : ℕ := 0
  executions : ℕ := 0
  executionSucceeded : ℕ := 0
  executionRetry : ℕ := 0
  executionFailed : ℕ := 0
  attemptedUnits : ℕ := 0
  successfulHits : ℕ := 0
  newAssets : ℕ := 0
  novelAssets : ℕ := 0
  newDomains : ℕ := 0
  newUrls : ℕ := 0
  newEndpoints : ℕ := 0
  newVocabularyTokens : ℕ := 0
  newPatterns : ℕ := 0
  requestCount : ℚ := 0
  runtimeSeconds : ℚ := 0
  costUnits : ℚ := 0
  firstObservedAt : Option Instant := none
  lastObservedAt : Option Instant := none
  deriving DecidableEq

/-! ## Matching -/

/-- `assert query.token_category is not None`. -/
def assertionError : PyError := .exception "AssertionError"

/-- `query.field is None`, or the two agree. -/
def agrees {α : Type} [DecidableEq α] (wanted actual : Option α) : Bool :=
  wanted.all fun w => actual = some w

section Matching

variable (tables : TokenTables) {μ : Type} (observation : YieldObservation tables μ) (query : YieldQuery)

/-- The comparisons before the token is looked at. -/
def observationMatchesFilters : Bool :=
  agrees query.targetKey observation.targetKey &&
  agrees query.branchId observation.branchId &&
  agrees query.worker (some observation.worker) &&
  agrees query.action (some observation.action) &&
  agrees query.routeRuleId observation.routeRuleId &&
  agrees query.inputSource observation.inputSource &&
  query.sourceId.all (fun s => s.text ∈ observation.sourceIds) &&
  query.since.all (fun since => since ≤ observation.observedAt) &&
  query.untilTime.all fun untilTime => observation.observedAt ≤ untilTime

/-- The credit is for the token that is asked for. -/
def creditMatches (category : CorpusCategory) (token : Stripped) (credit : TokenYieldCredit tables μ) :
    Bool :=
  credit.category = category &&
    canonicalTokenKey tables credit.category credit.token.text = canonicalTokenKey tables category token.text

/-- The comparison of patterns. -/
def patternMatches : Bool :=
  query.patternId.all fun patternId =>
    observation.patternCredits.any fun credit => credit.patternId = patternId

def observationMatchesQuery : Except PyError Bool :=
  if observationMatchesFilters tables observation query = false then .ok false
  else
    match query.token, query.tokenCategory with
    | none, _ => .ok (patternMatches tables observation query)
    | some _, none => .error assertionError
    | some token, some category =>
      .ok (observation.tokenCredits.any (creditMatches tables category token) &&
        patternMatches tables observation query)

/-- The observations of a list that match. -/
def matchingObservations : List (YieldObservation tables μ) → Except PyError (List (YieldObservation tables μ))
  | [] => .ok []
  | observation :: observations => do
    let found ← observationMatchesQuery tables observation query
    let rest ← matchingObservations observations
    return if found then observation :: rest else rest

/-- `matches.sort(key=(observed_at, observation_id), reverse=query.newest_first)`. -/
def sortObservations (observations : List (YieldObservation tables μ)) : List (YieldObservation tables μ) :=
  observations.insertionSort fun a b =>
    if query.newestFirst then observationKey b ≤ observationKey a
    else observationKey a ≤ observationKey b
where
  observationKey (observation : YieldObservation tables μ) : ℤ ×ₗ String :=
    toLex (observation.observedAt, observation.observationId.text)

/-- `matches[: query.limit]`. -/
def limitObservations (observations : List (YieldObservation tables μ)) :
    List (YieldObservation tables μ) :=
  match query.limit with
  | none => observations
  | some limit => observations.take limit

end Matching

/-! ## Aggregation -/

section Aggregation

variable (tables : TokenTables) {μ : Type}

/-- The counts of the credits that match. -/
structure MatchingCounts where
  attempts : ℕ := 0
  hits : ℕ := 0
  newAssets : ℕ := 0
  novelAssets : ℕ := 0

def matchingTokenCounts (observation : YieldObservation tables μ) (category : CorpusCategory)
    (token : Stripped) : MatchingCounts :=
  let credits := observation.tokenCredits.filter (creditMatches tables category token)
  { attempts := (credits.map fun c => c.attemptedHypotheses).sum
    hits := (credits.map fun c => c.successfulHits).sum
    newAssets := (credits.map fun c => c.newAssets).sum
    novelAssets := (credits.map fun c => c.novelAssets).sum }

def matchingPatternCounts (observation : YieldObservation tables μ) (patternId : Stripped) :
    MatchingCounts :=
  let credits := observation.patternCredits.filter fun c => c.patternId = patternId
  { attempts := (credits.map fun c => c.attemptedHypotheses).sum
    hits := (credits.map fun c => c.successfulHits).sum
    newAssets := (credits.map fun c => c.newAssets).sum
    novelAssets := (credits.map fun c => c.novelAssets).sum }

def matchingCounts (observation : YieldObservation tables μ) (query : YieldQuery) :
    Except PyError MatchingCounts :=
  match query.token, query.tokenCategory, query.patternId with
  | some token, some category, _ => .ok (matchingTokenCounts tables observation category token)
  | some _, none, _ => .error assertionError
  | none, _, some patternId => .ok (matchingPatternCounts tables observation patternId)
  | none, _, none => .ok {}

/-- `a / b` of two integers: the quotient has to be a float. -/
def trueDivide (a b : ℕ) : Except PyError ℚ :=
  if (2 ^ 1024 - 2 ^ 970) * b ≤ a then
    .error (.overflowError "integer division result too large for a float")
  else .ok (a / b)

/-- What an observation adds to the aggregate of a token or a pattern. -/
structure Contribution where
  counts : MatchingCounts
  requestCount : ℚ
  runtimeSeconds : ℚ
  costUnits : ℚ
  observedAt : Instant
  executionOutcome : YieldExecutionOutcome

def contribution (query : YieldQuery) (observation : YieldObservation tables μ) :
    Except PyError (Option Contribution) := do
  let counts ← matchingCounts tables observation query
  if counts.attempts = 0 ∧ counts.hits = 0 then return none
  let ratio ← trueDivide counts.attempts (max 1 observation.attemptedUnits)
  let fraction := min 1 ratio
  return some {
    counts
    requestCount := observation.requestCount * fraction
    runtimeSeconds := observation.runtimeSeconds * fraction
    costUnits := observation.costUnits * fraction
    observedAt := observation.observedAt
    executionOutcome := observation.executionOutcome }

def aggregateObservations (observations : List (YieldObservation tables μ)) : YieldAggregate :=
  let total {α : Type} [AddCommMonoid α] (f : YieldObservation tables μ → α) : α :=
    (observations.map f).sum
  { observations := observations.length
    executions := observations.length
    executionSucceeded := observations.countP fun o => o.executionOutcome = .succeeded
    executionRetry := observations.countP fun o => o.executionOutcome = .retry
    executionFailed := observations.countP fun o => o.executionOutcome = .failed
    attemptedUnits := total fun o => o.attemptedUnits
    successfulHits := total fun o => o.successfulHits
    newAssets := total fun o => o.newAssets
    novelAssets := total fun o => o.novelAssets
    newDomains := total fun o => o.newDomains
    newUrls := total fun o => o.newUrls
    newEndpoints := total fun o => o.newEndpoints
    newVocabularyTokens := total fun o => o.newVocabularyTokens
    newPatterns := total fun o => o.newPatterns
    requestCount := total fun o => o.requestCount
    runtimeSeconds := total fun o => o.runtimeSeconds
    costUnits := total fun o => o.costUnits
    firstObservedAt := (observations.map fun o => o.observedAt).min?
    lastObservedAt := (observations.map fun o => o.observedAt).max? }

def aggregateObservationsForQuery (query : YieldQuery)
    (observations : List (YieldObservation tables μ)) : Except PyError YieldAggregate :=
  if query.token = none ∧ query.patternId = none then .ok (aggregateObservations tables observations)
  else do
    let contributions ← observations.mapM (contribution tables query)
    let parts := contributions.filterMap id
    return {
      observations := parts.length
      executions := parts.length
      executionSucceeded := parts.countP fun p => p.executionOutcome = .succeeded
      executionRetry := parts.countP fun p => p.executionOutcome = .retry
      executionFailed := parts.countP fun p => p.executionOutcome = .failed
      attemptedUnits := (parts.map fun p => p.counts.attempts).sum
      successfulHits := (parts.map fun p => p.counts.hits).sum
      newAssets := (parts.map fun p => p.counts.newAssets).sum
      novelAssets := (parts.map fun p => p.counts.novelAssets).sum
      requestCount := (parts.map fun p => p.requestCount).sum
      runtimeSeconds := (parts.map fun p => p.runtimeSeconds).sum
      costUnits := (parts.map fun p => p.costUnits).sum
      firstObservedAt := (parts.map fun p => p.observedAt).min?
      lastObservedAt := (parts.map fun p => p.observedAt).max? }

end Aggregation

/-! ## The store in memory -/

structure InMemoryYieldStore (tables : TokenTables) (μ : Type) where
  observations : Dict String (YieldObservation tables μ)

namespace InMemoryYieldStore

variable {tables : TokenTables} {μ : Type} (store : InMemoryYieldStore tables μ)

def empty : InMemoryYieldStore tables μ := ⟨.empty⟩

def append (observation : YieldObservation tables μ) :
    Except PyError Bool × InMemoryYieldStore tables μ :=
  if store.observations.get? observation.observationId.text ≠ none then (.ok false, store)
  else (.ok true, ⟨store.observations.set observation.observationId.text observation⟩)

def query (query : YieldQuery) : Except PyError (List (YieldObservation tables μ)) := do
  let found ← matchingObservations tables query store.observations.values
  return limitObservations tables query (sortObservations tables query found)

def aggregate (query : YieldQuery) : Except PyError YieldAggregate := do
  let observations ← store.query { query with limit := none, limit_pos := YieldQuery.no_limit }
  aggregateObservationsForQuery tables query observations

end InMemoryYieldStore

end NightScout
