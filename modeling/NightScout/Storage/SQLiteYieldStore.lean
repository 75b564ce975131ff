import NightScout.Intelligence.YieldModel

/-!
# `SQLiteYieldStore`

The durable store of `recon/storage/intelligence.py`. An observation is a row; its sources, credits and
metadata are JSON columns, and reading a row validates it again. A query filters by its scalar fields in SQL
and by `observationMatchesQuery` afterwards.

What JSON makes of a metadata object is a parameter (`JsonColumns`), and so is which rows the parent tables
hold (`ParentRows`): no call of the store changes them.
-/

namespace NightScout

open Lib

/-- What the JSON encoders make of metadata. -/
structure JsonColumns (μ : Type) where
  /-- `model_dump(mode="json")`. -/
  dump : μ → Except PyError μ
  /-- What a JSON column gives back. -/
  column : μ → Except PyError μ

/-- The rows the foreign keys of an observation can name. -/
structure ParentRows where
  runs : String → Bool
  tasks : String → Bool
  events : String → Bool

/-! ## Rows -/

structure TokenCreditJson (μ : Type) where
  token : String
  category : String
  attemptedHypotheses : ℕ
  successfulHits : ℕ
  newAssets : ℕ
  novelAssets : ℕ
  sourceIds : List String
  metadata : μ

structure PatternCreditJson (μ : Type) where
  patternId : String
  attemptedHypotheses : ℕ
  successfulHits : ℕ
  newAssets : ℕ
  novelAssets : ℕ
  metadata : μ

/-- A row of `yield_observations`. -/
structure YieldObservationRecord (μ : Type) where
  observationId : String
  observedAt : Instant
  runId : Option String
  taskId : Option String
  inputEventId : Option String
  targetKey : Option String
  branchId : Option String
  worker : String
  action : String
  routeRuleId : Option String
  inputSource : Option String
  executionOutcome : String
  attemptedUnits : ℕ
  successfulHits : ℕ
  newAssets : ℕ
  novelAssets : ℕ
  newDomains : ℕ
  newUrls : ℕ
  newEndpoints : ℕ
  newVocabularyTokens : ℕ
  newPatterns : ℕ
  requestCount : ℚ
  runtimeSeconds : ℚ
  costUnits : ℚ
  sourceIdsJson : List String
  tokenCreditsJson : List (TokenCreditJson μ)
  patternCreditsJson : List (PatternCreditJson μ)
  metadataJson : μ

/-! ## Writing -/

section Writing

variable {tables : TokenTables} {μ : Type} (json : JsonColumns μ)

/-- `sorted(source_ids)`. -/
def sourceIdsColumn (sourceIds : Finset String) : List String := sortedTexts sourceIds

/-- A token credit, dumped and stored. -/
def TokenYieldCredit.toJson (credit : TokenYieldCredit tables μ) :
    Except PyError (TokenCreditJson μ) := do
  let metadata ← json.column (← json.dump credit.metadata)
  return {
    token := credit.token.text
    category := credit.category.value
    attemptedHypotheses := credit.attemptedHypotheses
    successfulHits := credit.successfulHits
    newAssets := credit.newAssets
    novelAssets := credit.novelAssets
    sourceIds := sourceIdsColumn credit.sourceIds
    metadata }

/-- A pattern credit, dumped and stored. -/
def PatternYieldCredit.toJson (credit : PatternYieldCredit μ) : Except PyError (PatternCreditJson μ) := do
  let metadata ← json.column (← json.dump credit.metadata)
  return {
    patternId := credit.patternId.text
    attemptedHypotheses := credit.attemptedHypotheses
    successfulHits := credit.successfulHits
    newAssets := credit.newAssets
    novelAssets := credit.novelAssets
    metadata }

/-- The row of an observation, with what is in its JSON columns. -/
def YieldObservation.row (observation : YieldObservation tables μ)
    (tokenCreditsJson : List (TokenCreditJson μ)) (patternCreditsJson : List (PatternCreditJson μ))
    (metadataJson : μ) : YieldObservationRecord μ where
  observationId := observation.observationId.text
  observedAt := observation.observedAt
  runId := observation.runId.map fun t => t.text
  taskId := observation.taskId.map fun t => t.text
  inputEventId := observation.inputEventId.map fun t => t.text
  targetKey := observation.targetKey.map fun t => t.text
  branchId := observation.branchId.map fun t => t.text
  worker := observation.worker.text
  action := observation.action.text
  routeRuleId := observation.routeRuleId.map fun t => t.text
  inputSource := observation.inputSource.map fun t => t.text
  executionOutcome := observation.executionOutcome.value
  attemptedUnits := observation.attemptedUnits
  successfulHits := observation.successfulHits
  newAssets := observation.newAssets
  novelAssets := observation.novelAssets
  newDomains := observation.newDomains
  newUrls := observation.newUrls
  newEndpoints := observation.newEndpoints
  newVocabularyTokens := observation.newVocabularyTokens
  newPatterns := observation.newPatterns
  requestCount := observation.requestCount
  runtimeSeconds := observation.runtimeSeconds
  costUnits := observation.costUnits
  sourceIdsJson := sourceIdsColumn observation.sourceIds
  tokenCreditsJson
  patternCreditsJson
  metadataJson

/-- `_yield_to_record`, with what the JSON columns give back. -/
def YieldObservation.toRecord (observation : YieldObservation tables μ) :
    Except PyError (YieldObservationRecord μ) := do
  let tokenCreditsJson ← observation.tokenCredits.mapM (TokenYieldCredit.toJson json)
  let patternCreditsJson ← observation.patternCredits.mapM (PatternYieldCredit.toJson json)
  let metadataJson ← json.column observation.metadata
  return observation.row tokenCreditsJson patternCreditsJson metadataJson

end Writing

/-! ## Reading -/

section Reading

variable (tables : TokenTables) {μ : Type}

/-- A validator of required text. -/
def requiredText (message value : String) : Except PyError Stripped :=
  match optionalText value with
  | none => .error (.valueError message)
  | some text => .ok text

def TokenYieldCredit.modelValidate (payload : TokenCreditJson μ) :
    Except PyError (TokenYieldCredit tables μ) := do
  let token ← requiredText "token must not be blank" payload.token
  match CorpusCategory.ofValue payload.category with
  | none => .error (.valueError "Input should be a corpus category")
  | some category =>
    if hhits : payload.attemptedHypotheses < payload.successfulHits then
      .error (.valueError "token successful_hits cannot exceed attempted_hypotheses")
    else if hnovel : payload.newAssets < payload.novelAssets then
      .error (.valueError "token novel_assets cannot exceed new_assets")
    else if hvalid : normalizeTokenForCategory tables category token.text = none then
      .error (.valueError "token is invalid for its corpus category")
    else
      .ok { token, category
            attemptedHypotheses := payload.attemptedHypotheses
            successfulHits := payload.successfulHits
            newAssets := payload.newAssets
            novelAssets := payload.novelAssets
            sourceIds := normalizeSourceIds payload.sourceIds.toFinset
            metadata := payload.metadata
            sources_normal := normalizeSourceIds_idem _
            hits_le := not_lt.mp hhits
            novel_le := not_lt.mp hnovel
            valid := hvalid }

def PatternYieldCredit.modelValidate (payload : PatternCreditJson μ) :
    Except PyError (PatternYieldCredit μ) := do
  let patternId ← requiredText "pattern_id must not be blank" payload.patternId
  if hhits : payload.attemptedHypotheses < payload.successfulHits then
    .error (.valueError "pattern successful_hits cannot exceed attempted_hypotheses")
  else if hnovel : payload.newAssets < payload.novelAssets then
    .error (.valueError "pattern novel_assets cannot exceed new_assets")
  else
    .ok { patternId
          attemptedHypotheses := payload.attemptedHypotheses
          successfulHits := payload.successfulHits
          newAssets := payload.newAssets
          novelAssets := payload.novelAssets
          metadata := payload.metadata
          hits_le := not_lt.mp hhits
          novel_le := not_lt.mp hnovel }

def yieldFromRecord (record : YieldObservationRecord μ) : Except PyError (YieldObservation tables μ) := do
  let observationId ← requiredText "must not be blank" record.observationId
  let worker ← requiredText "must not be blank" record.worker
  let action ← requiredText "must not be blank" record.action
  let tokenCredits ← record.tokenCreditsJson.mapM (TokenYieldCredit.modelValidate tables)
  let patternCredits ← record.patternCreditsJson.mapM PatternYieldCredit.modelValidate
  match YieldExecutionOutcome.ofValue record.executionOutcome with
  | none => .error (.valueError s!"'{record.executionOutcome}' is not a valid YieldExecutionOutcome")
  | some executionOutcome =>
    if hfloats : ¬(0 ≤ record.requestCount ∧ 0 ≤ record.runtimeSeconds ∧ 0 < record.costUnits) then
      .error (.valueError "Input should be greater than or equal to 0")
    else if hhits : record.attemptedUnits < record.successfulHits then
      .error (.valueError "successful_hits cannot exceed attempted_units")
    else if hnovel : record.newAssets < record.novelAssets then
      .error (.valueError "novel_assets cannot exceed new_assets")
    else
      .ok { observationId, worker, action, executionOutcome, tokenCredits, patternCredits
            observedAt := record.observedAt
            runId := record.runId.bind optionalText
            taskId := record.taskId.bind optionalText
            inputEventId := record.inputEventId.bind optionalText
            targetKey := record.targetKey.bind optionalText
            branchId := record.branchId.bind optionalText
            routeRuleId := record.routeRuleId.bind optionalText
            inputSource := record.inputSource.bind optionalText
            sourceIds := normalizeSourceIds record.sourceIdsJson.toFinset
            attemptedUnits := record.attemptedUnits
            successfulHits := record.successfulHits
            newAssets := record.newAssets
            novelAssets := record.novelAssets
            newDomains := record.newDomains
            newUrls := record.newUrls
            newEndpoints := record.newEndpoints
            newVocabularyTokens := record.newVocabularyTokens
            newPatterns := record.newPatterns
            requestCount := record.requestCount
            runtimeSeconds := record.runtimeSeconds
            costUnits := record.costUnits
            metadata := record.metadataJson
            sources_normal := normalizeSourceIds_idem _
            requests_nonneg := (not_not.mp hfloats).1
            runtime_nonneg := (not_not.mp hfloats).2.1
            cost_pos := (not_not.mp hfloats).2.2
            hits_le := not_lt.mp hhits
            novel_le := not_lt.mp hnovel }

end Reading

/-! ## The store -/

/-- `UTCDateTime`: the time has to have a year in UTC. -/
def bindUtc (t : Instant) : Except PyError Unit :=
  if minInstant ≤ t ∧ t ≤ maxInstant then .ok ()
  else .error (.overflowError "date value out of range")

/-- What the row violates, in the order it is found: the types of its columns, then its foreign keys. -/
def insertRow {μ : Type} (parents : ParentRows) (record : YieldObservationRecord μ) :
    Except PyError Unit := do
  bindUtc record.observedAt
  if [record.attemptedUnits, record.successfulHits, record.newAssets, record.novelAssets,
      record.newDomains, record.newUrls, record.newEndpoints, record.newVocabularyTokens,
      record.newPatterns].any (2 ^ 63 ≤ ·) then
    throw (.overflowError "Python int too large to convert to SQLite INTEGER")
  if record.runId.all parents.runs && record.taskId.all parents.tasks &&
      record.inputEventId.all parents.events then return
  else throw (.integrityError "FOREIGN KEY constraint failed")

structure SQLiteYieldStore (μ : Type) where
  rows : Dict String (YieldObservationRecord μ)

namespace SQLiteYieldStore

variable (tables : TokenTables) {μ : Type} [DecidableEq μ] (json : JsonColumns μ) (parents : ParentRows)
    (store : SQLiteYieldStore μ)

def empty : SQLiteYieldStore μ := ⟨.empty⟩

/-- `append`. A transaction that raises leaves the rows as they are. -/
def append (observation : YieldObservation tables μ) : Except PyError Bool × SQLiteYieldStore μ :=
  match store.rows.get? observation.observationId.text with
  | some existing =>
    match yieldFromRecord tables existing with
    | .error e => (.error e, store)
    | .ok restored =>
      if restored ≠ observation then
        (.error (.valueError s!"yield observation_id already refers to different content: {
          observation.observationId.text}"), store)
      else (.ok false, store)
  | none =>
    match (do let record ← observation.toRecord json; insertRow parents record; return record) with
    | .error e => (.error e, store)
    | .ok record => (.ok true, ⟨store.rows.set observation.observationId.text record⟩)

/-- The conditions of `_yield_statement`. -/
def yieldStatement (query : YieldQuery) (record : YieldObservationRecord μ) : Bool :=
  agrees (query.targetKey.map fun t => t.text) record.targetKey &&
  agrees (query.branchId.map fun t => t.text) record.branchId &&
  agrees (query.worker.map fun t => t.text) (some record.worker) &&
  agrees (query.action.map fun t => t.text) (some record.action) &&
  agrees (query.routeRuleId.map fun t => t.text) record.routeRuleId &&
  agrees (query.inputSource.map fun t => t.text) record.inputSource &&
  query.since.all (fun since => since ≤ record.observedAt) &&
  query.untilTime.all fun untilTime => record.observedAt ≤ untilTime

/-- `ORDER BY observed_at, observation_id`. -/
def orderRows (query : YieldQuery) (rows : List (YieldObservationRecord μ)) :
    List (YieldObservationRecord μ) :=
  rows.insertionSort fun a b =>
    if query.newestFirst then rowKey b ≤ rowKey a else rowKey a ≤ rowKey b
where
  rowKey (record : YieldObservationRecord μ) : ℤ ×ₗ String :=
    toLex (record.observedAt, record.observationId)

def query (query : YieldQuery) : Except PyError (List (YieldObservation tables μ)) := do
  (query.since.toList ++ query.untilTime.toList).forM bindUtc
  let rows := orderRows query (store.rows.values.filter (yieldStatement query))
  let observations ← rows.mapM (yieldFromRecord tables)
  let found ← matchingObservations tables query observations
  return limitObservations tables query (sortObservations tables query found)

def aggregate (query : YieldQuery) : Except PyError YieldAggregate := do
  let observations ← store.query tables { query with limit := none, limit_pos := YieldQuery.no_limit }
  aggregateObservationsForQuery tables query observations

end SQLiteYieldStore

end NightScout
