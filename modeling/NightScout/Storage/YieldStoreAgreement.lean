import NightScout.Lib.Run
import NightScout.Storage.SQLiteYieldStore

/-!
# Whether the yield stores agree

The same calls are made of both stores. An observation is kept alike if JSON and SQLite can hold it
(`Storable`) and its identifier is not in use for another; then a query selects the same observations from
both, because what SQL leaves out would not match, and puts them in the same order.

`yield_stores_agree` says so for every run, and that a query is answered exactly if it asks for no token
without a category, or nothing stored passes its other filters (`Answerable`).
-/

namespace NightScout

open Lib

variable {tables : TokenTables} {μ : Type}

/-! ## A row reads back as the observation -/

section RoundTrip

theorem requiredText_text (message : String) (text : Stripped) : requiredText message text.text = .ok text := by
  unfold requiredText
  rw [optionalText_text]

theorem bind_optionalText (text : Option Stripped) :
    (text.map fun t => t.text).bind optionalText = text := by
  cases text with
  | none => rfl
  | some t => exact optionalText_text t

theorem toFinset_sourceIdsColumn (sourceIds : Finset String) :
    (sourceIdsColumn sourceIds).toFinset = sourceIds := toFinset_sortedTexts sourceIds

/-- JSON gives the metadata of a credit back. -/
def JsonColumns.KeepsCredit (json : JsonColumns μ) (metadata : μ) : Prop :=
  (json.dump metadata >>= json.column) = .ok metadata

theorem TokenYieldCredit.modelValidate_toJson {json : JsonColumns μ} (credit : TokenYieldCredit tables μ)
    (h : json.KeepsCredit credit.metadata) :
    ∃ payload, credit.toJson json = .ok payload ∧ modelValidate tables payload = .ok credit := by
  unfold toJson
  rw [← bind_assoc, h]
  refine ⟨_, rfl, ?_⟩
  simp only [modelValidate, requiredText_text, ok_bind, CorpusCategory.ofValue_value,
    credit.hits_le.not_gt, credit.novel_le.not_gt, credit.valid, toFinset_sourceIdsColumn,
    credit.sources_normal, dif_neg, not_false_eq_true]

theorem PatternYieldCredit.modelValidate_toJson {json : JsonColumns μ} (credit : PatternYieldCredit μ)
    (h : json.KeepsCredit credit.metadata) :
    ∃ payload, credit.toJson json = .ok payload ∧ modelValidate payload = .ok credit := by
  unfold toJson
  rw [← bind_assoc, h]
  refine ⟨_, rfl, ?_⟩
  simp only [modelValidate, requiredText_text, ok_bind, credit.hits_le.not_gt,
    credit.novel_le.not_gt, dif_neg, not_false_eq_true]

/-- What is written and read one by one is written and read as a list. -/
theorem mapM_mapM {α β : Type} {f : α → Except PyError β} {g : β → Except PyError α} {as : List α}
    (h : ∀ a ∈ as, ∃ b, f a = .ok b ∧ g b = .ok a) : ∃ bs, as.mapM f = .ok bs ∧ bs.mapM g = .ok as := by
  induction as with
  | nil => exact ⟨[], rfl, rfl⟩
  | cons a as ih =>
    obtain ⟨b, hf, hg⟩ := h a List.mem_cons_self
    obtain ⟨bs, hfs, hgs⟩ := ih fun a' ha' => h a' (List.mem_cons_of_mem a ha')
    refine ⟨b :: bs, ?_, ?_⟩
    · rw [List.mapM_cons, hf, ok_bind, hfs]
      rfl
    · rw [List.mapM_cons, hg, ok_bind, hgs]
      rfl

end RoundTrip

/-- JSON and SQLite can hold the observation. -/
structure Storable (json : JsonColumns μ) (parents : ParentRows) (o : YieldObservation tables μ) :
    Prop where
  metadata : json.column o.metadata = .ok o.metadata
  tokenCredits : ∀ credit ∈ o.tokenCredits, json.KeepsCredit credit.metadata
  patternCredits : ∀ credit ∈ o.patternCredits, json.KeepsCredit credit.metadata
  observedAt : minInstant ≤ o.observedAt ∧ o.observedAt ≤ maxInstant
  counts : ∀ n ∈ [o.attemptedUnits, o.successfulHits, o.newAssets, o.novelAssets, o.newDomains,
    o.newUrls, o.newEndpoints, o.newVocabularyTokens, o.newPatterns], n < 2 ^ 63
  runId : ∀ t ∈ o.runId, parents.runs t.text = true
  taskId : ∀ t ∈ o.taskId, parents.tasks t.text = true
  inputEventId : ∀ t ∈ o.inputEventId, parents.events t.text = true

/-- The row is that of the observation, and reads back as it. -/
structure IsRow (json : JsonColumns μ) (o : YieldObservation tables μ) (record : YieldObservationRecord μ) :
    Prop where
  written : o.toRecord json = .ok record
  read : yieldFromRecord tables record = .ok o

theorem Storable.isRow {json : JsonColumns μ} {parents : ParentRows} {o : YieldObservation tables μ}
    (h : Storable json parents o) : ∃ record, IsRow json o record := by
  obtain ⟨tokens, htokens, htokens'⟩ := mapM_mapM fun credit hcredit =>
    TokenYieldCredit.modelValidate_toJson credit (h.tokenCredits credit hcredit)
  obtain ⟨patterns, hpatterns, hpatterns'⟩ := mapM_mapM fun credit hcredit =>
    PatternYieldCredit.modelValidate_toJson credit (h.patternCredits credit hcredit)
  refine ⟨o.row tokens patterns o.metadata, ?_, ?_⟩
  · unfold YieldObservation.toRecord
    rw [htokens, ok_bind, hpatterns, ok_bind, h.metadata, ok_bind]
    rfl
  · simp only [yieldFromRecord, YieldObservation.row, requiredText_text, ok_bind, htokens', hpatterns',
      YieldExecutionOutcome.ofValue_value, bind_optionalText, toFinset_sourceIdsColumn,
      o.sources_normal, o.hits_le.not_gt, o.novel_le.not_gt, o.requests_nonneg, o.runtime_nonneg,
      o.cost_pos, and_self, not_true_eq_false, dif_neg, not_false_eq_true]

/-- The scalar columns are the observation's. -/
theorem toRecord_row {json : JsonColumns μ} {o : YieldObservation tables μ}
    {record : YieldObservationRecord μ} (h : o.toRecord json = .ok record) :
    ∃ tokens patterns metadata, record = o.row tokens patterns metadata := by
  obtain ⟨tokens, _, h⟩ := bind_ok h
  obtain ⟨patterns, _, h⟩ := bind_ok h
  obtain ⟨metadata, _, h⟩ := bind_ok h
  exact ⟨tokens, patterns, metadata, (Except.ok.inj h).symm⟩

/-- SQLite takes the row. -/
theorem Storable.insertRow {json : JsonColumns μ} {parents : ParentRows} {o : YieldObservation tables μ}
    (h : Storable json parents o) {record : YieldObservationRecord μ}
    (hrow : o.toRecord json = .ok record) : NightScout.insertRow parents record = .ok () := by
  obtain ⟨tokens, patterns, metadata, rfl⟩ := toRecord_row hrow
  have hbind : bindUtc o.observedAt = .ok () := if_pos h.observedAt
  have hcounts : ([o.attemptedUnits, o.successfulHits, o.newAssets, o.novelAssets, o.newDomains,
      o.newUrls, o.newEndpoints, o.newVocabularyTokens, o.newPatterns].any (2 ^ 63 ≤ ·)) = false := by
    rw [List.any_eq_false]
    intro n hn hle
    exact absurd (h.counts n hn) (not_lt.mpr (of_decide_eq_true hle))
  have hparent {p : String → Bool} {text : Option Stripped} (hp : ∀ t ∈ text, p t.text = true) :
      (text.map fun t => t.text).all p = true := by
    cases text with
    | none => rfl
    | some t => exact hp t rfl
  unfold NightScout.insertRow YieldObservation.row
  simp only [hbind, ok_bind, hcounts, hparent h.runId, hparent h.taskId, hparent h.inputEventId]
  rfl

/-! ## What SQL leaves out -/

section Statement

/-- The comparisons SQL makes. -/
def statementMatches (o : YieldObservation tables μ) (query : YieldQuery) : Bool :=
  agrees query.targetKey o.targetKey && agrees query.branchId o.branchId &&
  agrees query.worker (some o.worker) && agrees query.action (some o.action) &&
  agrees query.routeRuleId o.routeRuleId && agrees query.inputSource o.inputSource &&
  query.since.all (fun since => since ≤ o.observedAt) &&
  query.untilTime.all fun untilTime => o.observedAt ≤ untilTime

theorem agrees_text (wanted actual : Option Stripped) :
    agrees (wanted.map fun t => t.text) (actual.map fun t => t.text) = agrees wanted actual := by
  cases wanted with
  | none => rfl
  | some w =>
    cases actual with
    | none => rfl
    | some a =>
      unfold agrees
      simp only [Option.map_some, Option.all_some, Option.some.injEq, decide_eq_decide]
      exact ⟨Stripped.ext_text, congrArg _⟩

theorem yieldStatement_row {json : JsonColumns μ} {o : YieldObservation tables μ}
    {record : YieldObservationRecord μ} (h : o.toRecord json = .ok record) (query : YieldQuery) :
    SQLiteYieldStore.yieldStatement query record = statementMatches o query := by
  obtain ⟨tokens, patterns, metadata, rfl⟩ := toRecord_row h
  have hworker := agrees_text query.worker (some o.worker)
  have haction := agrees_text query.action (some o.action)
  rw [Option.map_some] at hworker haction
  unfold SQLiteYieldStore.yieldStatement statementMatches YieldObservation.row
  simp only [agrees_text, hworker, haction]

/-- What matches the filters matches the statement. -/
theorem statementMatches_of_filters {o : YieldObservation tables μ} {query : YieldQuery}
    (h : observationMatchesFilters tables o query = true) : statementMatches o query = true := by
  unfold observationMatchesFilters at h
  unfold statementMatches
  simp only [Bool.and_eq_true] at h ⊢
  tauto

end Statement

/-! ## Selecting -/

section Selecting

/-- The query asserts a category on reaching the observation. -/
def Asserts (query : YieldQuery) (o : YieldObservation tables μ) : Prop :=
  query.token ≠ none ∧ query.tokenCategory = none ∧ observationMatchesFilters tables o query = true

instance (query : YieldQuery) (o : YieldObservation tables μ) : Decidable (Asserts query o) :=
  inferInstanceAs (Decidable (_ ∧ _ ∧ _))

/-- Whether an observation that is not asserted about matches. -/
def selects (query : YieldQuery) (o : YieldObservation tables μ) : Bool :=
  observationMatchesFilters tables o query &&
    (match query.token, query.tokenCategory with
    | some token, some category => o.tokenCredits.any (creditMatches tables category token)
    | _, _ => true) && patternMatches tables o query

theorem observationMatchesQuery_eq (query : YieldQuery) (o : YieldObservation tables μ) :
    observationMatchesQuery tables o query =
      if Asserts query o then .error assertionError else .ok (selects query o) := by
  by_cases hassert : Asserts query o
  · rw [if_pos hassert]
    obtain ⟨htoken, hcategory, hfilters⟩ := hassert
    obtain ⟨token, htoken⟩ := Option.ne_none_iff_exists'.mp htoken
    unfold observationMatchesQuery
    rw [htoken, hcategory, if_neg (by simp [hfilters])]
  · rw [if_neg hassert]
    unfold observationMatchesQuery selects
    cases hfilters : observationMatchesFilters tables o query with
    | false => simp
    | true =>
      cases htoken : query.token with
      | none => simp
      | some token =>
        cases hcategory : query.tokenCategory with
        | none => exact absurd ⟨by simp [htoken], hcategory, hfilters⟩ hassert
        | some category => simp

theorem matchingObservations_eq (query : YieldQuery) (os : List (YieldObservation tables μ)) :
    matchingObservations tables query os =
      if ∃ o ∈ os, Asserts query o then .error assertionError else .ok (os.filter (selects query)) := by
  induction os with
  | nil => simp [matchingObservations]
  | cons o os ih =>
    unfold matchingObservations
    rw [observationMatchesQuery_eq, ih]
    by_cases ho : Asserts query o
    · simp [ho]
    · by_cases hos : ∃ o ∈ os, Asserts query o
      · simp [ho, hos]
      · cases hselects : selects query o <;> simp [ho, hos, hselects]

/-- An answer depends on which observations there are, and not on those a filter leaves out. -/
theorem matchingObservations_perm {query : YieldQuery} {os found : List (YieldObservation tables μ)}
    (h : found.Perm (os.filter fun o => statementMatches o query)) :
    (matchingObservations tables query found = .error assertionError ∧
      matchingObservations tables query os = .error assertionError) ∨
    ∃ left right, matchingObservations tables query found = .ok left ∧
      matchingObservations tables query os = .ok right ∧ left.Perm right ∧ right.Sublist os := by
  have hmem (o : YieldObservation tables μ) : o ∈ found ↔ o ∈ os ∧ statementMatches o query = true := by
    rw [h.mem_iff, List.mem_filter]
  have hasserts : (∃ o ∈ found, Asserts query o) ↔ ∃ o ∈ os, Asserts query o := by
    constructor
    · intro ⟨o, ho, hassert⟩
      exact ⟨o, ((hmem o).mp ho).1, hassert⟩
    · intro ⟨o, ho, hassert⟩
      exact ⟨o, (hmem o).mpr ⟨ho, statementMatches_of_filters hassert.2.2⟩, hassert⟩
  rw [matchingObservations_eq, matchingObservations_eq]
  by_cases hos : ∃ o ∈ os, Asserts query o
  · left
    rw [if_pos hos, if_pos (hasserts.mpr hos)]
    exact ⟨rfl, rfl⟩
  · right
    rw [if_neg hos, if_neg (hos ∘ hasserts.mp)]
    refine ⟨_, _, rfl, rfl, ?_, List.filter_sublist⟩
    refine (h.filter _).trans ?_
    rw [List.filter_filter]
    apply List.Perm.of_eq
    apply List.filter_congr
    intro o _
    cases hselects : selects query o with
    | false => rfl
    | true =>
      unfold selects at hselects
      rw [Bool.and_eq_true, Bool.and_eq_true] at hselects
      rw [statementMatches_of_filters hselects.1.1]
      rfl

end Selecting

/-! ## Two stores in step -/

section Agreement

variable {json : JsonColumns μ} {parents : ParentRows}

/-- The same observations under the same identifiers. -/
def YieldStoresAgree (json : JsonColumns μ) (memory : InMemoryYieldStore tables μ)
    (sqlite : SQLiteYieldStore μ) : Prop :=
  Dict.Rows (fun key o record => key = o.observationId.text ∧ IsRow json o record) memory.observations
    sqlite.rows

variable {memory : InMemoryYieldStore tables μ} {sqlite : SQLiteYieldStore μ}

/-- SQLite can compare with the times of the query. -/
def TimesInRange (query : YieldQuery) : Prop :=
  ∀ t ∈ query.since.toList ++ query.untilTime.toList, minInstant ≤ t ∧ t ≤ maxInstant

theorem YieldStoresAgree.keys (h : YieldStoresAgree json memory sqlite) :
    (memory.observations.values.map fun o => o.observationId.text) = memory.observations.keys := by
  unfold Dict.values Dict.keys
  rw [List.map_map]
  apply List.map_congr_left
  intro e he
  obtain ⟨k, o⟩ := e
  have hget := Dict.mem_entries_iff.mp he
  rcases h.get? k with ⟨hnone, _⟩ | ⟨o', _, hsome, _, hkey, _⟩
  · rw [hget] at hnone
    cases hnone
  · rw [hget] at hsome
    cases hsome
    exact hkey.symm

/-- Observations of the store are put in one order, whatever order they come in. -/
theorem YieldStoresAgree.sort_eq (h : YieldStoresAgree json memory sqlite) (query : YieldQuery)
    {left right : List (YieldObservation tables μ)} (hperm : left.Perm right)
    (hsub : right.Sublist memory.observations.values) :
    sortObservations tables query left = sortObservations tables query right := by
  have hids : (left.map fun o => o.observationId.text).Nodup := by
    rw [(hperm.map _).nodup_iff]
    apply (hsub.map _).nodup
    rw [h.keys]
    exact memory.observations.nodup_keys
  have hkeys : (left.map (sortObservations.observationKey tables)).Nodup := by
    apply List.Nodup.of_map fun key : ℤ ×ₗ String => (ofLex key).2
    rw [List.map_map]
    exact hids
  unfold sortObservations
  cases query.newestFirst with
  | false => exact insertionSort_key_eq_of_perm hperm hkeys
  | true =>
    have hdual : (left.map fun o => OrderDual.toDual (sortObservations.observationKey tables o)).Nodup := by
      apply List.Nodup.of_map OrderDual.ofDual
      rw [List.map_map]
      exact hkeys
    exact insertionSort_key_eq_of_perm hperm hdual

theorem mapM_yieldFromRecord {records : List (YieldObservationRecord μ)} {os : List (YieldObservation tables μ)}
    (h : List.Forall₂ (fun record o => IsRow json o record) records os) :
    records.mapM (yieldFromRecord tables) = .ok os := by
  induction h with
  | nil => rfl
  | cons hrow _ ih =>
    rw [List.mapM_cons, hrow.read, ok_bind, ih]
    rfl

/-- The same records in the same order. -/
theorem YieldStoresAgree.query_eq (h : YieldStoresAgree json memory sqlite) {query : YieldQuery}
    (htimes : TimesInRange query) : sqlite.query tables query = memory.query query := by
  have hbind : (query.since.toList ++ query.untilTime.toList).forM bindUtc = .ok () := by
    unfold TimesInRange at htimes
    generalize query.since.toList ++ query.untilTime.toList = times at htimes ⊢
    induction times with
    | nil => rfl
    | cons t times ih =>
      change (bindUtc t >>= fun _ => times.forM bindUtc) = .ok ()
      rw [bindUtc, if_pos (htimes t List.mem_cons_self), ok_bind]
      exact ih fun t' ht' => htimes t' (List.mem_cons_of_mem t ht')
  have hrows : List.Forall₂ (fun record o => IsRow json o record) sqlite.rows.values
      memory.observations.values :=
    (Dict.Rows.values (h.imp fun _ _ hrow => ⟨hrow.1, hrow.2.2⟩)).flip
  -- SQL leaves out the same on both sides, and its order is a permutation
  have hfilter : List.Forall₂ (fun record o => IsRow json o record)
      (sqlite.rows.values.filter (SQLiteYieldStore.yieldStatement query))
      (memory.observations.values.filter fun o => statementMatches o query) := by
    apply List.rel_filter _ hrows
    intro record o hrow
    change SQLiteYieldStore.yieldStatement query record = true ↔ statementMatches o query = true
    rw [yieldStatement_row hrow.written query]
  have horder : (SQLiteYieldStore.orderRows query (sqlite.rows.values.filter
      (SQLiteYieldStore.yieldStatement query))).Perm _ := List.perm_insertionSort _ _
  obtain ⟨found, hread, hperm⟩ := List.perm_comp_forall₂ horder hfilter
  unfold SQLiteYieldStore.query InMemoryYieldStore.query
  rw [hbind, ok_bind]
  simp only
  rw [mapM_yieldFromRecord hread, ok_bind]
  rcases matchingObservations_perm hperm with ⟨hleft, hright⟩ | ⟨left, right, hleft, hright, hlr, hsub⟩
  · rw [hleft, hright]
  · rw [hleft, hright, ok_bind, ok_bind, h.sort_eq query hlr hsub]

/-- A call of a store. -/
inductive YieldCall (tables : TokenTables) (μ : Type) where
  | append (observation : YieldObservation tables μ)
  | query (query : YieldQuery)
  | aggregate (query : YieldQuery)

/-- What it answers. -/
inductive YieldReply (tables : TokenTables) (μ : Type) where
  | appended (result : Except PyError Bool)
  | records (result : Except PyError (List (YieldObservation tables μ)))
  | statistics (result : Except PyError YieldAggregate)

/-- The answer is not an exception. -/
def YieldReply.Answered : YieldReply tables μ → Prop
  | .appended result => ∃ created, result = .ok created
  | .records result => ∃ observations, result = .ok observations
  | .statistics result => ∃ aggregate, result = .ok aggregate

def InMemoryYieldStore.call (memory : InMemoryYieldStore tables μ) :
    YieldCall tables μ → YieldReply tables μ × InMemoryYieldStore tables μ
  | .append o => (.appended (memory.append o).1, (memory.append o).2)
  | .query q => (.records (memory.query q), memory)
  | .aggregate q => (.statistics (memory.aggregate q), memory)

def SQLiteYieldStore.call [DecidableEq μ] (json : JsonColumns μ) (parents : ParentRows) (sqlite : SQLiteYieldStore μ) :
    YieldCall tables μ → YieldReply tables μ × SQLiteYieldStore μ
  | .append o => (.appended (sqlite.append tables json parents o).1,
      (sqlite.append tables json parents o).2)
  | .query q => (.records (sqlite.query tables q), sqlite)
  | .aggregate q => (.statistics (sqlite.aggregate tables q), sqlite)

/-- What the stores treat alike: an observation already there as it is, or new and storable; and a query
    about times SQLite can hold. -/
def YieldCall.Alike (json : JsonColumns μ) (parents : ParentRows) (memory : InMemoryYieldStore tables μ) :
    YieldCall tables μ → Prop
  | .append o => (∀ stored ∈ memory.observations.get? o.observationId.text, stored = o) ∧
      (memory.observations.get? o.observationId.text = none → Storable json parents o)
  | .query q | .aggregate q => TimesInRange q

/-- The same answer, and the stores stay in step. -/
theorem YieldStoresAgree.call_eq [DecidableEq μ] (h : YieldStoresAgree json memory sqlite) {call : YieldCall tables μ}
    (halike : call.Alike json parents memory) : (memory.call call).1 = (sqlite.call json parents call).1 ∧
      YieldStoresAgree json (memory.call call).2 (sqlite.call json parents call).2 := by
  cases call with
  | query q => exact ⟨congrArg _ (h.query_eq halike).symm, h⟩
  | aggregate q =>
    have hunlimited : TimesInRange { q with limit := none, limit_pos := YieldQuery.no_limit } := halike
    have haggregate : sqlite.aggregate tables q = memory.aggregate q := by
      unfold SQLiteYieldStore.aggregate InMemoryYieldStore.aggregate
      rw [h.query_eq hunlimited]
    exact ⟨congrArg YieldReply.statistics haggregate.symm, h⟩
  | append o =>
    obtain ⟨hsame, hstorable⟩ := halike
    unfold InMemoryYieldStore.call SQLiteYieldStore.call InMemoryYieldStore.append
      SQLiteYieldStore.append
    rcases h.get? o.observationId.text with ⟨hnone, hnone'⟩ | ⟨stored, record, hsome, hsome', _, hrow⟩
    · obtain ⟨record, hrow⟩ := (hstorable hnone).isRow
      have hinsert := (hstorable hnone).insertRow hrow.written
      simp only [hnone, hnone', hrow.written, hinsert, ok_bind, pure_eq_ok, ne_eq, not_true_eq_false,
        if_false]
      exact ⟨trivial, Dict.Rows.set h hnone ⟨rfl, hrow⟩⟩
    · obtain rfl := hsame stored hsome
      simp only [hsome, hsome', hrow.read, ne_eq, reduceCtorEq, not_false_eq_true, if_true,
        not_true_eq_false, if_false]
      exact ⟨trivial, h⟩

end Agreement

/-! ## Answers -/

section Answers

/-- The credit of the observation is a fraction of it that a float can hold. -/
def Fits (query : YieldQuery) (o : YieldObservation tables μ) : Prop :=
  ∀ counts, matchingCounts tables o query = .ok counts →
    counts.attempts < (2 ^ 1024 - 2 ^ 970) * max 1 o.attemptedUnits

/-- The call is not left with an assertion or a quotient without a float. -/
def YieldCall.Answerable (memory : InMemoryYieldStore tables μ) : YieldCall tables μ → Prop
  | .append _ => True
  | .query q => ∀ o ∈ memory.observations.values, ¬ Asserts q o
  | .aggregate q => ∀ o ∈ memory.observations.values,
      ¬ Asserts q o ∧ (selects q o = true → Fits q o)

theorem mapM_ok_iff {α β : Type} {f : α → Except PyError β} {as : List α} :
    (∃ bs, as.mapM f = .ok bs) ↔ ∀ a ∈ as, ∃ b, f a = .ok b := by
  induction as with
  | nil => exact ⟨fun _ _ h => (nomatch h), fun _ => ⟨[], rfl⟩⟩
  | cons a as ih =>
    rw [List.mapM_cons, List.forall_mem_cons, ← ih]
    constructor
    · intro ⟨bs, h⟩
      obtain ⟨b, hb, h⟩ := bind_ok h
      obtain ⟨bs', hbs', _⟩ := bind_ok h
      exact ⟨⟨b, hb⟩, bs', hbs'⟩
    · intro ⟨⟨b, hb⟩, bs, hbs⟩
      exact ⟨b :: bs, by rw [hb, ok_bind, hbs]; rfl⟩

theorem contribution_ok_iff {query : YieldQuery} {o : YieldObservation tables μ}
    (hassert : ¬ Asserts query o) (hselects : selects query o = true) :
    (∃ c, contribution tables query o = .ok c) ↔ Fits query o := by
  have hcounts : ∃ counts, matchingCounts tables o query = .ok counts := by
    unfold selects at hselects
    rw [Bool.and_eq_true, Bool.and_eq_true] at hselects
    unfold matchingCounts
    cases htoken : query.token with
    | none => cases query.patternId <;> exact ⟨_, rfl⟩
    | some token =>
      cases hcategory : query.tokenCategory with
      | none => exact absurd ⟨by simp [htoken], hcategory, hselects.1.1⟩ hassert
      | some category => exact ⟨_, rfl⟩
  obtain ⟨counts, hcounts⟩ := hcounts
  have hfits : Fits query o ↔ counts.attempts < (2 ^ 1024 - 2 ^ 970) * max 1 o.attemptedUnits := by
    constructor
    · intro h
      exact h counts hcounts
    · intro h counts' hcounts'
      rw [hcounts] at hcounts'
      cases hcounts'
      exact h
  rw [hfits]
  unfold contribution
  rw [hcounts, ok_bind]
  by_cases hzero : counts.attempts = 0 ∧ counts.hits = 0
  · rw [if_pos hzero, hzero.1]
    have hfloat : (2 : ℕ) ^ 970 < 2 ^ 1024 := Nat.pow_lt_pow_right one_lt_two (by decide)
    exact ⟨fun _ => Nat.mul_pos (Nat.sub_pos_of_lt hfloat) (le_max_left 1 _), fun _ => ⟨none, rfl⟩⟩
  · rw [if_neg hzero]
    unfold trueDivide
    by_cases hlarge : (2 ^ 1024 - 2 ^ 970) * max 1 o.attemptedUnits ≤ counts.attempts
    · rw [if_pos hlarge, error_bind]
      exact ⟨fun ⟨_, h⟩ => (nomatch h), fun h => absurd hlarge (not_le.mpr h)⟩
    · rw [if_neg hlarge]
      exact ⟨fun _ => not_le.mp hlarge, fun _ => ⟨_, rfl⟩⟩

/-- Without a limit, a query that is answered gives what it selects. -/
theorem query_unlimited (memory : InMemoryYieldStore tables μ) (query : YieldQuery) :
    memory.query { query with limit := none, limit_pos := YieldQuery.no_limit } =
      if ∃ o ∈ memory.observations.values, Asserts query o then .error assertionError
      else .ok (sortObservations tables query
        (memory.observations.values.filter (selects query))) := by
  unfold InMemoryYieldStore.query
  rw [matchingObservations_eq]
  change (if ∃ o ∈ memory.observations.values, Asserts query o then _ else _) >>= _ = _
  split
  · rfl
  · rfl

/-- **A call is answered exactly if it is answerable.** -/
theorem InMemoryYieldStore.answered_iff (memory : InMemoryYieldStore tables μ)
    (call : YieldCall tables μ) : (memory.call call).1.Answered ↔ call.Answerable memory := by
  cases call with
  | append o =>
    refine iff_of_true ?_ trivial
    change ∃ created, (memory.append o).1 = .ok created
    unfold append
    split
    · exact ⟨false, rfl⟩
    · exact ⟨true, rfl⟩
  | query q =>
    change (∃ os, memory.query q = .ok os) ↔ ∀ o ∈ memory.observations.values, ¬ Asserts q o
    unfold InMemoryYieldStore.query
    rw [matchingObservations_eq]
    split
    next hassert =>
      obtain ⟨o, ho, hassert⟩ := hassert
      exact iff_of_false (fun ⟨_, h⟩ => (nomatch h)) fun h => h o ho hassert
    next hassert => exact iff_of_true ⟨_, rfl⟩ fun o ho h => hassert ⟨o, ho, h⟩
  | aggregate q =>
    change (∃ result, memory.aggregate q = .ok result) ↔ ∀ o ∈ memory.observations.values,
      ¬ Asserts q o ∧ (selects q o = true → Fits q o)
    unfold InMemoryYieldStore.aggregate
    rw [query_unlimited]
    split
    next hassert =>
      obtain ⟨o, ho, hassert⟩ := hassert
      exact iff_of_false (fun ⟨_, h⟩ => (nomatch h)) fun h => (h o ho).1 hassert
    next hassert =>
      have hnone : ∀ o ∈ memory.observations.values, ¬ Asserts q o := fun o ho h => hassert ⟨o, ho, h⟩
      have hfits : (∃ cs, (sortObservations tables q (memory.observations.values.filter
          (selects q))).mapM (contribution tables q) = .ok cs) ↔
          ∀ o ∈ memory.observations.values, ¬ Asserts q o ∧ (selects q o = true → Fits q o) := by
        have hmem (o : YieldObservation tables μ) : o ∈ sortObservations tables q
            (memory.observations.values.filter (selects q)) ↔
              o ∈ memory.observations.values ∧ selects q o = true := by
          unfold sortObservations
          rw [List.mem_insertionSort, List.mem_filter]
        rw [mapM_ok_iff]
        constructor
        · intro h o ho
          refine ⟨hnone o ho, fun hselects => ?_⟩
          exact (contribution_ok_iff (hnone o ho) hselects).mp (h o ((hmem o).mpr ⟨ho, hselects⟩))
        · intro h o ho
          obtain ⟨ho, hselects⟩ := (hmem o).mp ho
          exact (contribution_ok_iff (hnone o ho) hselects).mpr ((h o ho).2 hselects)
      rw [← hfits, ok_bind]
      unfold aggregateObservationsForQuery
      split
      next hwhole =>
        -- a whole observation has no credit to divide
        refine iff_of_true ⟨_, rfl⟩ (mapM_ok_iff.mpr fun o _ => ⟨none, ?_⟩)
        unfold contribution matchingCounts
        rw [hwhole.1, hwhole.2]
        rfl
      next =>
        constructor
        · intro ⟨_, h⟩
          obtain ⟨cs, hcs, _⟩ := bind_ok h
          exact ⟨cs, hcs⟩
        · intro ⟨cs, hcs⟩
          rw [hcs]
          exact ⟨_, rfl⟩

end Answers

/-! ## Runs -/

section Runs

variable {json : JsonColumns μ} {parents : ParentRows}

/-- What is stored stays. -/
theorem YieldCall.keeps_stored {memory : InMemoryYieldStore tables μ} {o : YieldObservation tables μ}
    (h : memory.observations.get? o.observationId.text = some o) (call : YieldCall tables μ) :
    (memory.call call).2.observations.get? o.observationId.text = some o := by
  cases call with
  | query q => exact h
  | aggregate q => exact h
  | append o' =>
    change (memory.append o').2.observations.get? _ = _
    unfold InMemoryYieldStore.append
    split
    next => exact h
    next hnew =>
      have hne : o.observationId.text ≠ o'.observationId.text := by
        intro heq
        rw [← heq, h] at hnew
        exact hnew (Option.some_ne_none _)
      rw [Dict.get?_set_ne _ _ hne]
      exact h

theorem YieldCall.stores {memory : InMemoryYieldStore tables μ} {o : YieldObservation tables μ}
    (h : (YieldCall.append o).Alike json parents memory) :
    (memory.call (.append o)).2.observations.get? o.observationId.text = some o := by
  change (memory.append o).2.observations.get? _ = _
  unfold InMemoryYieldStore.append
  split
  next hstored =>
    obtain ⟨stored, hget⟩ := Option.ne_none_iff_exists'.mp hstored
    rw [hget, h.1 stored hget]
  next => exact Dict.get?_set_self _ _ _

variable [DecidableEq μ] (json : JsonColumns μ) (parents : ParentRows)

/-- Both stores take the call. -/
def yieldStep : InMemoryYieldStore tables μ × SQLiteYieldStore μ → YieldCall tables μ →
    InMemoryYieldStore tables μ × SQLiteYieldStore μ :=
  both InMemoryYieldStore.call (SQLiteYieldStore.call json parents)

/-- The run of both stores from the empty ones is of calls they treat alike. -/
def AlikeRun (calls : List (YieldCall tables μ)) : Prop :=
  Along (yieldStep json parents) (fun pair call => call.Alike json parents pair.1)
    (InMemoryYieldStore.empty, SQLiteYieldStore.empty) calls

variable {json parents}

/-- What the run appended is stored. -/
theorem stored_of_mem {calls : List (YieldCall tables μ)} {o : YieldObservation tables μ}
    {pair : InMemoryYieldStore tables μ × SQLiteYieldStore μ}
    (h : Along (yieldStep json parents) (fun pair call => call.Alike json parents pair.1) pair calls)
    (ho : .append o ∈ calls) :
    (runFrom (yieldStep json parents) pair calls).1.observations.get? o.observationId.text = some o := by
  induction calls generalizing pair with
  | nil => cases ho
  | cons call calls ih =>
    rw [runFrom_cons]
    rcases List.mem_cons.mp ho with rfl | ho
    · exact runFrom_invariant
        (P := fun pair : InMemoryYieldStore tables μ × SQLiteYieldStore μ =>
          pair.1.observations.get? o.observationId.text = some o)
        (YieldCall.stores h.1) fun _ call hstored => YieldCall.keeps_stored hstored call
    · exact ih h.2 ho

/-- A stored observation is a duplicate, and appending it changes nothing. -/
theorem YieldStoresAgree.append_stored {memory : InMemoryYieldStore tables μ}
    {sqlite : SQLiteYieldStore μ} (h : YieldStoresAgree json memory sqlite) {o : YieldObservation tables μ}
    (hstored : memory.observations.get? o.observationId.text = some o) :
    memory.call (.append o) = (.appended (.ok false), memory) ∧
      sqlite.call json parents (.append o) = (.appended (.ok false), sqlite) := by
  unfold InMemoryYieldStore.call SQLiteYieldStore.call InMemoryYieldStore.append SQLiteYieldStore.append
  rcases h.get? o.observationId.text with ⟨hnone, _⟩ | ⟨stored, record, hsome, hsome', _, hrow⟩
  · rw [hstored] at hnone
    cases hnone
  · rw [hstored] at hsome
    cases hsome
    simp only [hstored, hsome', hrow.read, ne_eq, reduceCtorEq, not_false_eq_true, if_true,
      not_true_eq_false, if_false, and_self]

/-- An identifier in use for another observation: a duplicate in memory, an error in SQLite. -/
theorem YieldStoresAgree.append_other {memory : InMemoryYieldStore tables μ}
    {sqlite : SQLiteYieldStore μ} (h : YieldStoresAgree json memory sqlite)
    (parents : ParentRows) {o stored : YieldObservation tables μ}
    (hstored : memory.observations.get? o.observationId.text = some stored) (hne : stored ≠ o) :
    (memory.call (.append o)).1 = .appended (.ok false) ∧
      (sqlite.call json parents (.append o)).1 = .appended (.error (.valueError
        s!"yield observation_id already refers to different content: {o.observationId.text}")) := by
  unfold InMemoryYieldStore.call SQLiteYieldStore.call InMemoryYieldStore.append SQLiteYieldStore.append
  rcases h.get? o.observationId.text with ⟨hnone, _⟩ | ⟨stored', record, hsome, hsome', _, hrow⟩
  · rw [hstored] at hnone
    cases hnone
  · rw [hstored] at hsome
    cases hsome
    simp only [hstored, hsome', hrow.read, ne_eq, hne, reduceCtorEq, not_false_eq_true, if_true,
      and_self]

/-- **The yield stores agree** along every run of calls they treat alike: their answers are the same, a call
    is answered exactly if it is answerable where it is made, and appending an observation again is a
    duplicate and changes nothing. -/
theorem yield_stores_agree (tables : TokenTables) (json : JsonColumns μ) (parents : ParentRows)
    (calls : List (YieldCall tables μ)) (h : AlikeRun json parents calls) :
    replies InMemoryYieldStore.call .empty calls = replies (SQLiteYieldStore.call json parents) .empty calls ∧
      ∀ before call after, calls = before ++ call :: after →
        ∀ memory sqlite, runFrom (yieldStep json parents) (.empty, .empty) before = (memory, sqlite) →
          ((memory.call call).1.Answered ↔ call.Answerable memory) ∧
          ((sqlite.call json parents call).1.Answered ↔ call.Answerable memory) ∧
          ∀ o, call = .append o → call ∈ before → memory.call call = (.appended (.ok false), memory) ∧
            sqlite.call json parents call = (.appended (.ok false), sqlite) := by
  have hempty : YieldStoresAgree json (InMemoryYieldStore.empty : InMemoryYieldStore tables μ)
      SQLiteYieldStore.empty := Dict.Rows.empty
  refine ⟨replies_eq hempty h fun memory sqlite call hagree halike => hagree.call_eq halike, ?_⟩
  rintro before call after rfl memory sqlite hrun
  obtain ⟨hbefore, halike, _⟩ := (along_append before _).mp h
  rw [hrun] at halike
  have hagree : YieldStoresAgree json memory sqlite := by
    have hinv := both_invariant hempty hbefore fun _ _ _ hagree halike => (hagree.call_eq halike).2
    change YieldStoresAgree json (runFrom (yieldStep json parents) _ before).1
      (runFrom (yieldStep json parents) _ before).2 at hinv
    rw [hrun] at hinv
    exact hinv
  refine ⟨memory.answered_iff call, ?_, ?_⟩
  · rw [← (hagree.call_eq halike).1]
    exact memory.answered_iff call
  · rintro o rfl ho
    have hstored := stored_of_mem hbefore ho
    rw [hrun] at hstored
    exact hagree.append_stored hstored

end Runs

/-! ## One observation -/

/-- Every text is ASCII. -/
def asciiTokenTables : TokenTables where
  lower := id
  toASCII := some
  nfkc := id
  bracketed := fun _ => true
  isDigit := Char.isDigit
  isAlpha := Char.isAlpha

/-- Metadata without nested values comes back from JSON as it is. -/
def plainJson : JsonColumns (List (String × String)) := ⟨.ok, .ok⟩

def noParents : ParentRows := ⟨fun _ => false, fun _ => false, fun _ => false⟩

/-- A batch of candidates with one word in it. -/
def batchYield : YieldObservation asciiTokenTables (List (String × String)) where
  observationId := ⟨"yld_batch", by decide, by decide⟩
  observedAt := 0
  worker := ⟨"word-batch", by decide, by decide⟩
  action := ⟨"try-words", by decide, by decide⟩
  attemptedUnits := 10
  tokenCredits := [{
    token := ⟨"staging", by decide, by decide⟩
    category := .dns
    attemptedHypotheses := 4
    successfulHits := 1
    metadata := []
    sources_normal := normalizeSourceIds_empty
    hits_le := by decide
    novel_le := le_rfl
    valid := by decide +kernel }]
  metadata := []
  sources_normal := normalizeSourceIds_empty
  requests_nonneg := le_rfl
  runtime_nonneg := le_rfl
  cost_pos := zero_lt_one
  hits_le := Nat.zero_le _
  novel_le := le_rfl

theorem batchYield_storable : Storable plainJson noParents batchYield where
  metadata := rfl
  tokenCredits _ _ := rfl
  patternCredits _ _ := rfl
  observedAt := by decide
  counts := by decide
  runId _ h := nomatch h
  taskId _ h := nomatch h
  inputEventId _ h := nomatch h

/-- The word, by its category. -/
def stagingQuery : YieldQuery where
  token := some ⟨"staging", by decide, by decide⟩
  tokenCategory := some .dns
  newestFirst := true
  limit := none
  limit_pos := YieldQuery.no_limit

def batchRun : List (YieldCall asciiTokenTables (List (String × String))) :=
  [.append batchYield, .append batchYield, .query stagingQuery, .aggregate stagingQuery]

theorem batchRun_alike : AlikeRun plainJson noParents batchRun := by
  have htimes : TimesInRange stagingQuery := fun _ h => (nomatch h)
  refine ⟨⟨fun _ h => (nomatch h), fun _ => batchYield_storable⟩, ⟨?_, ?_⟩, htimes, htimes, trivial⟩
  · intro stored hstored
    have hself : some batchYield = some stored := hstored
    exact (Option.some.inj hself).symm
  · intro hnone
    have hself : some batchYield = none := hnone
    cases hself

/-- A batch is kept once, and found by its word. -/
theorem yield_stores_agree_batch : replies InMemoryYieldStore.call .empty batchRun =
        replies (SQLiteYieldStore.call plainJson noParents) .empty batchRun ∧
      ∀ before call after, batchRun = before ++ call :: after →
        ∀ memory sqlite, runFrom (yieldStep plainJson noParents) (.empty, .empty) before = (memory, sqlite) →
          ((memory.call call).1.Answered ↔ call.Answerable memory) ∧
          ((sqlite.call plainJson noParents call).1.Answered ↔ call.Answerable memory) ∧
          ∀ o, call = .append o → call ∈ before → memory.call call = (.appended (.ok false), memory) ∧
            sqlite.call plainJson noParents call = (.appended (.ok false), sqlite) :=
  yield_stores_agree asciiTokenTables plainJson noParents batchRun batchRun_alike

/-- The batch again, with a hit. -/
def otherYield : YieldObservation asciiTokenTables (List (String × String)) :=
  { batchYield with newDomains := 1 }

/-- The word, without its category. -/
def bareTokenQuery : YieldQuery where
  token := some ⟨"staging", by decide, by decide⟩
  limit := none
  limit_pos := YieldQuery.no_limit

/-- An identifier used again for another observation is a duplicate to one store and an error to the other,
    and a query for a token without a category fails in both once there is an observation. -/
theorem reused_id_and_bare_token : (¬ ∀ calls : List (YieldCall asciiTokenTables (List (String × String))),
      replies InMemoryYieldStore.call .empty calls = replies (SQLiteYieldStore.call plainJson noParents) .empty calls) ∧
      ¬ ∀ calls : List (YieldCall asciiTokenTables (List (String × String))),
        ∀ reply ∈ replies InMemoryYieldStore.call .empty calls, reply.Answered := by
  constructor
  · intro h
    have hfirst : AlikeRun plainJson noParents [.append batchYield] :=
      ⟨⟨fun _ h => (nomatch h), fun _ => batchYield_storable⟩, trivial⟩
    have hagree := both_invariant (R := YieldStoresAgree plainJson) Dict.Rows.empty hfirst
      fun _ _ _ hagree halike => (hagree.call_eq halike).2
    have hne : batchYield ≠ otherYield := fun heq =>
      absurd (congrArg (fun o => o.newDomains) heq) (by decide)
    have hstored := stored_of_mem (o := batchYield) hfirst List.mem_cons_self
    obtain ⟨hmemory, hsqlite⟩ := hagree.append_other noParents (o := otherYield) hstored hne
    have hreplies := h [.append batchYield, .append otherYield]
    have hsecond := (List.cons.inj (List.cons.inj hreplies).2).1
    cases hmemory.symm.trans (hsecond.trans hsqlite)
  · intro h
    obtain ⟨_, hfound⟩ := h [.append batchYield, .query bareTokenQuery]
      ((InMemoryYieldStore.empty.call (.append batchYield)).2.call (.query bareTokenQuery)).1
      (List.mem_cons_of_mem _ List.mem_cons_self)
    cases hfound

end NightScout
