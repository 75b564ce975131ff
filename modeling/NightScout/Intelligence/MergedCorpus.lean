import NightScout.Intelligence.WordlistCorpus

/-!
# What an entry of the corpus is made of

The item of a key is determined by the inputs of that key (`get?_mergeState`): `mergedItem` writes each field as a sum,
a least rank, a union or a maximum over them. All of these ignore the order of the inputs, and so does `mergeCorpus`,
but for the order in which the labels of one entry come and for the samples kept in its metadata.
-/

namespace NightScout

open Lib

section Fields

variable {tables : TokenTables} {log2 : ℚ → ℚ}

/-- The item that the inputs of a key make, but for its metadata. -/
def mergedItem (tables : TokenTables) (log2 : ℚ → ℚ) (key : CorpusKey) (observations : List GlobalCorpusObservation)
    (evidence : List (TargetTokenEvidence tables)) (feedback : List YieldFeedback)
    (metadata : CorpusMetadata) : CorpusItem where
  token := key.2
  category := key.1
  globalSources := (observations.map fun o => o.sourceId.text).toFinset
  targetSources := (evidence.map fun e => e.source.text).toFinset
  sourceFamilies := (evidence.map fun e => sourceFamily tables e.source.text).toFinset
  sourceEventIds := evidence.foldl (fun ids e => ids ∪ e.sourceEventIds) ∅
  contexts := evidence.foldl (fun contexts e => contexts ∪ e.contexts) ∅
  globalRank := observations.foldl (fun rank o => lowerRank rank o.rank) none
  globalScore := (observations.map (globalObservationScore log2)).sum
  targetFrequency := (evidence.map (·.frequency)).sum
  baseRelevance := evidence.foldl (fun relevance e => max relevance e.relevance) 0
  successfulHits := (feedback.map (·.successfulHits)).sum
  attemptedHypotheses := (feedback.map (·.attemptedHypotheses)).sum
  confidence := evidence.foldl (fun confidence e => max confidence e.confidence) (1 / 2)
  labels := fromkeys (evidence.flatMap (·.labels))
  metadata

variable {key : CorpusKey} {observations : List GlobalCorpusObservation}
  {evidence : List (TargetTokenEvidence tables)} {feedback : List YieldFeedback} {metadata : CorpusMetadata}

/-! ## One more input -/

theorem toFinset_concat (xs : List String) (x : String) : (xs ++ [x]).toFinset = insert x xs.toFinset := by
  ext s
  simp

theorem addObservation_mergedItem (tables : TokenTables) (o : GlobalCorpusObservation) :
    ∃ metadata', addObservation log2 (mergedItem tables log2 key observations [] [] metadata) o =
      mergedItem tables log2 key (observations ++ [o]) [] [] metadata' := by
  refine ⟨(addObservation log2 (mergedItem tables log2 key observations [] [] metadata) o).metadata, ?_⟩
  simp only [addObservation, mergedItem, toFinset_concat, List.foldl_append, List.foldl_cons, List.foldl_nil,
    List.map_append, List.map_cons, List.map_nil, List.sum_append, List.sum_cons, List.sum_nil, add_zero]

theorem addEvidence_mergedItem (e : TargetTokenEvidence tables) :
    ∃ metadata', addEvidence tables (mergedItem tables log2 key observations evidence [] metadata) e =
      mergedItem tables log2 key observations (evidence ++ [e]) [] metadata' := by
  refine ⟨(addEvidence tables (mergedItem tables log2 key observations evidence [] metadata) e).metadata, ?_⟩
  simp only [addEvidence, mergedItem, toFinset_concat, List.foldl_append, List.foldl_cons, List.foldl_nil,
    List.map_append, List.map_cons, List.map_nil, List.sum_append, List.sum_cons, List.sum_nil, add_zero,
    fromkeys, List.flatMap_append, List.flatMap_cons, List.flatMap_nil, List.append_nil]

theorem addFeedback_mergedItem (f : YieldFeedback) :
    ∃ metadata', addFeedback (mergedItem tables log2 key observations evidence feedback metadata) f =
      mergedItem tables log2 key observations evidence (feedback ++ [f]) metadata' := by
  refine ⟨(addFeedback (mergedItem tables log2 key observations evidence feedback metadata) f).metadata, ?_⟩
  simp only [addFeedback, mergedItem, List.map_append, List.map_cons, List.map_nil, List.sum_append, List.sum_cons,
    List.sum_nil, add_zero]

/-! ## The three loops -/

/-- A loop whose turns each bring one more element into an entry, up to the metadata, brings in all of them. -/
theorem foldl_entry {A : Type} {add : CorpusItem → A → CorpusItem} (entry : List A → CorpusMetadata → CorpusItem)
    (hadd : ∀ xs x metadata, ∃ metadata', add (entry xs metadata) x = entry (xs ++ [x]) metadata')
    (metadata : CorpusMetadata) (xs : List A) : ∃ metadata', xs.foldl add (entry [] metadata) = entry xs metadata' := by
  induction xs using List.reverseRecOn with
  | nil => exact ⟨metadata, rfl⟩
  | append_singleton xs x ih =>
    obtain ⟨between, hxs⟩ := ih
    obtain ⟨metadata', hx⟩ := hadd xs x between
    exact ⟨metadata', by rw [List.foldl_append, hxs, List.foldl_cons, hx, List.foldl_nil]⟩

end Fields

/-! ## The table -/

section Table

variable {tables : TokenTables} {log2 : ℚ → ℚ} {key : CorpusKey} {category : CorpusCategory} {token : String}
  {globalObservations : List GlobalCorpusObservation} {targetEvidence : List (TargetTokenEvidence tables)}
  {feedback : List YieldFeedback}

def observationsOf (tables : TokenTables) (key : CorpusKey) (globalObservations : List GlobalCorpusObservation) :
    List GlobalCorpusObservation :=
  withKey (fun o => ensureKey tables o.category o.token.text) key globalObservations

def evidenceOf (key : CorpusKey) (targetEvidence : List (TargetTokenEvidence tables)) :
    List (TargetTokenEvidence tables) :=
  targetEvidence.filter fun e => key.1 ∈ e.categories ∧ ensureKey tables key.1 e.token.text = some key

def feedbackOf (tables : TokenTables) (key : CorpusKey) (feedback : List YieldFeedback) : List YieldFeedback :=
  withKey (fun f => ensureKey tables f.category f.token) key feedback

/-- A valid token is spelled like its key. -/
theorem ensureKey_eq_some (hlaws : DigitLaws tables) : ensureKey tables category token = some key ↔
      category = key.1 ∧ normalizeTokenForCategory tables category token = some key.2 := by
  unfold ensureKey
  constructor
  · intro h
    obtain ⟨normalized, hnormalized, hkey⟩ := Option.map_eq_some_iff.mp h
    rw [canonicalTokenKey_normalized hlaws hnormalized] at hkey
    rw [← hkey]
    exact ⟨rfl, hnormalized⟩
  · intro ⟨hcategory, hnormalized⟩
    rw [hnormalized, Option.map_some, canonicalTokenKey_normalized hlaws hnormalized, hcategory]

theorem freshItem_eq (hlaws : DigitLaws tables) (h : ensureKey tables category token = some key) :
    freshItem tables category token = mergedItem tables log2 key [] [] [] {} := by
  obtain ⟨hcategory, hnormalized⟩ := (ensureKey_eq_some hlaws).mp h
  unfold freshItem mergedItem
  rw [hnormalized, hcategory]
  rfl

theorem filter_allCategories (category : CorpusCategory) :
    allCategories.filter (fun c => c = category) = [category] := by
  cases category <;> rfl

/-- A piece of evidence gives a key at most one input. -/
theorem withKey_byCategory (targetEvidence : List (TargetTokenEvidence tables)) :
    (withKey (fun e => ensureKey tables e.1 e.2.token.text) key (byCategory tables targetEvidence)).map Prod.snd =
      evidenceOf key targetEvidence := by
  induction targetEvidence with
  | nil => rfl
  | cons e rest ih =>
    have hone : (((allCategories.filter fun category => category ∈ e.categories).map fun category => (category, e)).filter
        fun e => ensureKey tables e.1 e.2.token.text = some key).map Prod.snd =
        if key.1 ∈ e.categories ∧ ensureKey tables key.1 e.token.text = some key then [e] else [] := by
      rw [List.filter_map, List.map_map, List.filter_filter]
      have hcategory : ∀ category : CorpusCategory,
          (ensureKey tables category e.token.text = some key ∧ category ∈ e.categories) ↔
            category = key.1 ∧ key.1 ∈ e.categories ∧ ensureKey tables key.1 e.token.text = some key := by
        intro category
        constructor
        · intro ⟨hkey, hmem⟩
          obtain ⟨normalized, -, heq⟩ := Option.map_eq_some_iff.mp hkey
          obtain rfl : category = key.1 := congrArg Prod.fst heq
          exact ⟨rfl, hmem, hkey⟩
        · intro ⟨heq, hmem, hkey⟩
          rw [heq]
          exact ⟨hkey, hmem⟩
      by_cases hcond : key.1 ∈ e.categories ∧ ensureKey tables key.1 e.token.text = some key
      · have hfilter : allCategories.filter (fun c => (decide (ensureKey tables c e.token.text = some key)) &&
            decide (c ∈ e.categories)) = allCategories.filter fun c => c = key.1 := by
          apply List.filter_congr
          intro c _
          rw [← Bool.decide_and]
          exact decide_eq_decide.mpr ((hcategory c).trans (and_iff_left hcond))
        rw [if_pos hcond]
        show List.map _ (List.filter (fun c => (decide (ensureKey tables c e.token.text = some key)) &&
            decide (c ∈ e.categories)) allCategories) = [e]
        rw [hfilter, filter_allCategories]
        rfl
      · rw [if_neg hcond, List.map_eq_nil_iff, List.filter_eq_nil_iff]
        intro c _ hc
        have hboth : ensureKey tables c e.token.text = some key ∧ c ∈ e.categories := by simpa using hc
        exact hcond ((hcategory c).mp hboth).2
    have hcons : byCategory tables (e :: rest) =
        ((allCategories.filter fun category => category ∈ e.categories).map fun category => (category, e)) ++
          byCategory tables rest := rfl
    rw [hcons, withKey, List.filter_append, List.map_append, hone]
    unfold withKey at ih
    rw [ih]
    unfold evidenceOf
    split
    next hcond => rw [List.filter_cons_of_pos (by simpa using hcond)]; rfl
    next hcond => rw [List.filter_cons_of_neg (by simpa using hcond)]; rfl

/-- **The item of a key.** -/
theorem get?_mergeState (hlaws : DigitLaws tables) (log2 : ℚ → ℚ) (key : CorpusKey)
    (globalObservations : List GlobalCorpusObservation) (targetEvidence : List (TargetTokenEvidence tables))
    (feedback : List YieldFeedback) :
    ∃ metadata, (mergeState tables log2 globalObservations targetEvidence feedback).get? key =
      if observationsOf tables key globalObservations = [] ∧ evidenceOf key targetEvidence = [] ∧
        feedbackOf tables key feedback = [] then none
      else some (mergedItem tables log2 key (observationsOf tables key globalObservations)
        (evidenceOf key targetEvidence) (feedbackOf tables key feedback) metadata) := by
  -- Each loop continues with what the one before it has made of the fresh item.
  obtain ⟨metadata₁, hobservations⟩ := foldl_entry (mergedItem tables log2 key · [] [])
    (fun _ o _ => addObservation_mergedItem tables o) {} (observationsOf tables key globalObservations)
  obtain ⟨metadata₂, hevidence⟩ :=
    foldl_entry (mergedItem tables log2 key (observationsOf tables key globalObservations) · [])
      (fun _ e _ => addEvidence_mergedItem e) metadata₁ (evidenceOf key targetEvidence)
  obtain ⟨metadata₃, hfeedback⟩ := foldl_entry
    (mergedItem tables log2 key (observationsOf tables key globalObservations) (evidenceOf key targetEvidence))
    (fun _ f _ => addFeedback_mergedItem f) metadata₂ (feedbackOf tables key feedback)
  have hfresh₁ : ∀ o : GlobalCorpusObservation, ensureKey tables o.category o.token.text = some key →
      freshItem tables o.category o.token.text = mergedItem tables log2 key [] [] [] {} :=
    fun o h => freshItem_eq hlaws h
  have hfresh₂ : ∀ e : CorpusCategory × TargetTokenEvidence tables, ensureKey tables e.1 e.2.token.text = some key →
      freshItem tables e.1 e.2.token.text = mergedItem tables log2 key [] [] [] {} :=
    fun e h => freshItem_eq hlaws h
  have hfresh₃ : ∀ f : YieldFeedback, ensureKey tables f.category f.token = some key →
      freshItem tables f.category f.token = mergedItem tables log2 key [] [] [] {} :=
    fun f h => freshItem_eq hlaws h
  have hpairs : (withKey (fun e => ensureKey tables e.1 e.2.token.text) key (byCategory tables targetEvidence)).foldl
      (fun item e => addEvidence tables item e.2) (mergedItem tables log2 key
        (observationsOf tables key globalObservations) [] [] metadata₁) =
      (evidenceOf key targetEvidence).foldl (addEvidence tables) (mergedItem tables log2 key
        (observationsOf tables key globalObservations) [] [] metadata₁) := by
    rw [← withKey_byCategory, List.foldl_map]
  have hnil : withKey (fun e => ensureKey tables e.1 e.2.token.text) key (byCategory tables targetEvidence) = [] ↔
      evidenceOf key targetEvidence = [] := by
    rw [← withKey_byCategory, List.map_eq_nil_iff]
  have hitem : ((mergeState tables log2 globalObservations targetEvidence feedback).get? key).getD
      (mergedItem tables log2 key [] [] [] {}) = mergedItem tables log2 key
        (observationsOf tables key globalObservations) (evidenceOf key targetEvidence)
        (feedbackOf tables key feedback) metadata₃ := by
    unfold mergeState
    simp only
    rw [getD_accumulate hfresh₃, getD_accumulate hfresh₂, getD_accumulate hfresh₁, Dict.get?_empty, Option.getD_none,
      ← hfeedback, ← hevidence, ← hpairs, ← hobservations]
    rfl
  have hnone : (mergeState tables log2 globalObservations targetEvidence feedback).get? key = none ↔
      observationsOf tables key globalObservations = [] ∧ evidenceOf key targetEvidence = [] ∧
        feedbackOf tables key feedback = [] := by
    unfold mergeState
    simp only
    rw [get?_accumulate_eq_none hfresh₃, get?_accumulate_eq_none hfresh₂, get?_accumulate_eq_none hfresh₁, hnil,
      Dict.get?_empty]
    simp only [true_and, and_assoc]
    rfl
  refine ⟨metadata₃, ?_⟩
  cases hget : (mergeState tables log2 globalObservations targetEvidence feedback).get? key with
  | none => rw [if_pos (hnone.mp hget)]
  | some item =>
    rw [if_neg fun h => by rw [hnone.mpr h] at hget; cases hget]
    rw [hget, Option.getD_some] at hitem
    rw [hitem]

end Table

/-! ## The entries -/

section Entries

variable {tables : TokenTables} {log2 log1p : ℚ → ℚ} {config : WordlistCorpusConfig} {key : CorpusKey}
  {globalObservations globalObservations' : List GlobalCorpusObservation}
  {targetEvidence targetEvidence' : List (TargetTokenEvidence tables)} {feedback feedback' : List YieldFeedback}
  {metadata metadata' : CorpusMetadata} {item : CorpusItem} {entry : CorpusEntry}

/-- What an entry is made of: the valid inputs of its key. -/
structure MergedEntry (tables : TokenTables) (log2 : ℚ → ℚ) (observations : List GlobalCorpusObservation)
    (evidence : List (TargetTokenEvidence tables)) (feedback : List YieldFeedback) (entry : CorpusEntry) : Prop where
  canonical : canonicalTokenKey tables entry.category entry.token = entry.token
  global_sources : ∀ s, s ∈ entry.globalSources ↔ ∃ o ∈ observations, o.sourceId.text = s
  target_sources : ∀ s, s ∈ entry.targetSources ↔ ∃ e ∈ evidence, e.source.text = s
  source_event_ids : ∀ s, s ∈ entry.sourceEventIds ↔ ∃ e ∈ evidence, s ∈ e.sourceEventIds
  contexts : ∀ s, s ∈ entry.contexts ↔ ∃ e ∈ evidence, s ∈ e.contexts
  global_rank : entry.globalRank = (observations.map (·.rank)).min?
  global_score : entry.globalScore = (observations.map (globalObservationScore log2)).sum
  target_frequency : entry.targetFrequency = (evidence.map (·.frequency)).sum
  successful_hits : entry.successfulHits = (feedback.map (·.successfulHits)).sum
  attempted_hypotheses : entry.attemptedHypotheses = (feedback.map (·.attemptedHypotheses)).sum
  hits_le : entry.successfulHits ≤ entry.attemptedHypotheses
  labels : entry.labels = fromkeys (evidence.flatMap (·.labels)) ∨
    (∀ e ∈ evidence, e.labels = []) ∧ entry.labels = tokenToCandidateLabels tables.toTables entry.token

theorem mem_foldl_union {A B : Type*} [DecidableEq B] (f : A → Finset B) (xs : List A) (start : Finset B) (b : B) :
    b ∈ xs.foldl (fun all x => all ∪ f x) start ↔ b ∈ start ∨ ∃ x ∈ xs, b ∈ f x := by
  induction xs generalizing start with
  | nil => simp
  | cons x xs ih => simp [ih, or_assoc]

theorem lowerRank_some (current rank : ℕ) : lowerRank (some current) rank = some (min current rank) := by
  unfold lowerRank
  simp only
  split
  next hlt => rw [min_eq_right hlt.le]
  next hge => rw [min_eq_left (not_lt.mp hge)]

theorem foldl_lowerRank (observations : List GlobalCorpusObservation) :
    observations.foldl (fun rank o => lowerRank rank o.rank) none = (observations.map (·.rank)).min? := by
  have hsome : ∀ (xs : List GlobalCorpusObservation) (rank : ℕ),
      xs.foldl (fun rank o => lowerRank rank o.rank) (some rank) = some ((xs.map (·.rank)).foldl min rank) := by
    intro xs
    induction xs with
    | nil => intro rank; rfl
    | cons x xs ih =>
      intro rank
      rw [List.foldl_cons, lowerRank_some, ih]
      rfl
  cases observations with
  | nil => rfl
  | cons o rest => exact hsome rest o.rank

theorem hits_le_attempts (feedback : List YieldFeedback) :
    (feedback.map (·.successfulHits)).sum ≤ (feedback.map (·.attemptedHypotheses)).sum :=
  List.sum_le_sum fun f _ => f.hits_le

theorem corpusEntry_mergedItem {observations : List GlobalCorpusObservation}
    {evidence : List (TargetTokenEvidence tables)} (hkey : canonicalTokenKey tables key.1 key.2 = key.2) :
    MergedEntry tables log2 observations evidence feedback
      (corpusEntry tables log1p config (mergedItem tables log2 key observations evidence feedback metadata)) where
  canonical := hkey
  global_sources s := by simp [corpusEntry, mergedItem]
  target_sources s := by simp [corpusEntry, mergedItem]
  source_event_ids s := by simp [corpusEntry, mergedItem, sortedTexts, mem_foldl_union]
  contexts s := by simp [corpusEntry, mergedItem, mem_foldl_union]
  global_rank := foldl_lowerRank observations
  global_score := rfl
  target_frequency := rfl
  successful_hits := rfl
  attempted_hypotheses := rfl
  hits_le := hits_le_attempts feedback
  labels := by
    unfold corpusEntry
    simp only
    split
    next hlabels =>
      refine .inr ⟨fun e he => List.eq_nil_iff_forall_not_mem.mpr fun label hlabel => ?_, rfl⟩
      have hmem : label ∈ fromkeys (evidence.flatMap (·.labels)) :=
        mem_fromkeys.mpr (List.mem_flatMap.mpr ⟨e, he, hlabel⟩)
      have hnil : fromkeys (evidence.flatMap (·.labels)) = [] := hlabels.1
      rw [hnil] at hmem
      cases hmem
    next => exact .inl rfl

/-- An entry without its metadata, its labels as a set. -/
def CorpusEntry.unordered (entry : CorpusEntry) : CorpusEntry × Finset String :=
  ({ entry with labels := [], metadata := {} }, entry.labels.toFinset)

theorem lowerRank_comm (current : Option ℕ) (rank rank' : ℕ) :
    lowerRank (lowerRank current rank) rank' = lowerRank (lowerRank current rank') rank := by
  have hnone : ∀ rank : ℕ, lowerRank none rank = some rank := fun _ => rfl
  cases current with
  | none => rw [hnone, hnone, lowerRank_some, lowerRank_some, min_comm]
  | some current => rw [lowerRank_some, lowerRank_some, lowerRank_some, lowerRank_some, min_right_comm]

/-- The order of the inputs is seen in the labels and in the metadata only. -/
theorem mergedItem_perm {observations observations' : List GlobalCorpusObservation}
    {evidence evidence' : List (TargetTokenEvidence tables)} (hobservations : observations.Perm observations')
    (hevidence : evidence.Perm evidence') (hfeedback : feedback.Perm feedback') :
    { mergedItem tables log2 key observations evidence feedback metadata with labels := [], metadata := {} } =
      { mergedItem tables log2 key observations' evidence' feedback' metadata' with labels := [], metadata := {} } := by
  have hunion (f : TargetTokenEvidence tables → Finset String) :
      evidence.foldl (fun all e => all ∪ f e) ∅ = evidence'.foldl (fun all e => all ∪ f e) ∅ := by
    ext s
    simp only [mem_foldl_union, hevidence.mem_iff]
  have hmax (f : TargetTokenEvidence tables → ℚ) (start : ℚ) :
      evidence.foldl (fun best e => max best (f e)) start = evidence'.foldl (fun best e => max best (f e)) start := by
    have : RightCommutative fun (best : ℚ) (e : TargetTokenEvidence tables) => max best (f e) :=
      ⟨fun best e e' => max_right_comm best (f e) (f e')⟩
    exact hevidence.foldl_eq start
  have hrank : observations.foldl (fun rank o => lowerRank rank o.rank) none =
      observations'.foldl (fun rank o => lowerRank rank o.rank) none := by
    have : RightCommutative fun (rank : Option ℕ) (o : GlobalCorpusObservation) => lowerRank rank o.rank :=
      ⟨fun rank o o' => lowerRank_comm rank o.rank o'.rank⟩
    exact hobservations.foldl_eq none
  unfold mergedItem
  simp only [hunion, hmax, hrank]
  rw [List.toFinset_eq_of_perm _ _ (hobservations.map fun o => o.sourceId.text),
    List.toFinset_eq_of_perm _ _ (hevidence.map fun e => e.source.text),
    List.toFinset_eq_of_perm _ _ (hevidence.map fun e => sourceFamily tables e.source.text),
    (hobservations.map (globalObservationScore log2)).sum_eq, (hevidence.map (·.frequency)).sum_eq,
    (hfeedback.map (·.successfulHits)).sum_eq, (hfeedback.map (·.attemptedHypotheses)).sum_eq]

theorem unordered_perm {observations observations' : List GlobalCorpusObservation}
    {evidence evidence' : List (TargetTokenEvidence tables)} (hobservations : observations.Perm observations')
    (hevidence : evidence.Perm evidence') (hfeedback : feedback.Perm feedback') : (corpusEntry tables log1p config
        (mergedItem tables log2 key observations evidence feedback metadata)).unordered =
      (corpusEntry tables log1p config
        (mergedItem tables log2 key observations' evidence' feedback' metadata')).unordered := by
  have hlabels : ∀ label, label ∈ fromkeys (evidence.flatMap (·.labels)) ↔
      label ∈ fromkeys (evidence'.flatMap (·.labels)) := by
    intro label
    rw [mem_fromkeys, mem_fromkeys]
    exact (hevidence.flatMap_right _).mem_iff
  have hnil : fromkeys (evidence.flatMap (·.labels)) = [] ↔ fromkeys (evidence'.flatMap (·.labels)) = [] := by
    simp only [List.eq_nil_iff_forall_not_mem, hlabels]
  have hitem : { mergedItem tables log2 key observations evidence feedback metadata with
        labels := [], metadata := {} } =
      { mergedItem tables log2 key observations' evidence' feedback' metadata' with labels := [], metadata := {} } :=
    mergedItem_perm hobservations hevidence hfeedback
  have hfields (item : CorpusItem) : { corpusEntry tables log1p config item with labels := [], metadata := {} } =
      { corpusEntry tables log1p config { item with labels := [], metadata := {} } with
        labels := [], metadata := {} } := rfl
  refine Prod.ext ?_ ?_
  · exact (hfields _).trans ((congrArg (fun item => { corpusEntry tables log1p config item with
      labels := [], metadata := {} }) hitem).trans (hfields _).symm)
  · ext label
    unfold CorpusEntry.unordered corpusEntry mergedItem
    simp only [List.mem_toFinset, hnil]
    split
    next => rfl
    next => exact hlabels label

/-- Some input has the key. -/
def Occurs (tables : TokenTables) (key : CorpusKey) (globalObservations : List GlobalCorpusObservation)
    (targetEvidence : List (TargetTokenEvidence tables)) (feedback : List YieldFeedback) : Prop :=
  (∃ o ∈ globalObservations, ensureKey tables o.category o.token.text = some key) ∨
    (∃ e ∈ targetEvidence, key.1 ∈ e.categories ∧ ensureKey tables key.1 e.token.text = some key) ∨
    ∃ f ∈ feedback, ensureKey tables f.category f.token = some key

theorem occurs_iff : Occurs tables key globalObservations targetEvidence feedback ↔
    ¬ (observationsOf tables key globalObservations = [] ∧ evidenceOf key targetEvidence = [] ∧
      feedbackOf tables key feedback = []) := by
  have hne {A : Type} (xs : List A) : ¬ xs = [] ↔ ∃ x, x ∈ xs := by
    rw [List.eq_nil_iff_forall_not_mem]
    push Not
    rfl
  rw [not_and_or, not_and_or, hne, hne, hne]
  unfold Occurs observationsOf evidenceOf feedbackOf
  simp only [mem_withKey, List.mem_filter, decide_eq_true_eq]

theorem Occurs.canonical (hlaws : DigitLaws tables) (h : Occurs tables key globalObservations targetEvidence feedback) :
    canonicalTokenKey tables key.1 key.2 = key.2 := by
  have hvalid {category : CorpusCategory} {token : String} (hkey : ensureKey tables category token = some key) :
      canonicalTokenKey tables key.1 key.2 = key.2 := by
    obtain ⟨hcategory, hnormalized⟩ := (ensureKey_eq_some hlaws).mp hkey
    rw [← hcategory]
    exact canonicalTokenKey_normalized hlaws hnormalized
  rcases h with ⟨o, -, hkey⟩ | ⟨e, -, -, hkey⟩ | ⟨f, -, hkey⟩
  · exact hvalid hkey
  · exact hvalid hkey
  · exact hvalid hkey

theorem mergeState_some (hlaws : DigitLaws tables)
    (h : (mergeState tables log2 globalObservations targetEvidence feedback).get? key = some item) :
    Occurs tables key globalObservations targetEvidence feedback ∧
      ∃ metadata, item = mergedItem tables log2 key (observationsOf tables key globalObservations)
        (evidenceOf key targetEvidence) (feedbackOf tables key feedback) metadata := by
  obtain ⟨metadata, hget⟩ := get?_mergeState hlaws log2 key globalObservations targetEvidence feedback
  rw [h] at hget
  split at hget
  · cases hget
  next hsome => exact ⟨occurs_iff.mpr hsome, metadata, Option.some.inj hget⟩

theorem exists_mergeState (log2 : ℚ → ℚ) (hlaws : DigitLaws tables)
    (h : Occurs tables key globalObservations targetEvidence feedback) :
    ∃ metadata, (mergeState tables log2 globalObservations targetEvidence feedback).get? key =
      some (mergedItem tables log2 key (observationsOf tables key globalObservations)
        (evidenceOf key targetEvidence) (feedbackOf tables key feedback) metadata) := by
  obtain ⟨metadata, hget⟩ := get?_mergeState hlaws log2 key globalObservations targetEvidence feedback
  exact ⟨metadata, by rw [hget, if_neg (occurs_iff.mp h)]⟩

theorem value_injective {category category' : CorpusCategory} (h : category.value = category'.value) :
    category = category' := by
  have hvalue := congrArg CorpusCategory.ofValue h
  rw [CorpusCategory.ofValue_value, CorpusCategory.ofValue_value] at hvalue
  exact Option.some.inj hvalue

/-- No two entries are sorted by the same key. -/
theorem nodup_sortKeys (hlaws : DigitLaws tables) :
    (((mergeState tables log2 globalObservations targetEvidence feedback).values.map
      (corpusEntry tables log1p config)).map fun entry => entry.sortKey tables).Nodup := by
  rw [List.map_map]
  have hkeys : ((mergeState tables log2 globalObservations targetEvidence feedback).values.map
      fun item => (item.category, item.token)).Nodup := by
    apply Dict.nodup_values_map
    intro key item hitem
    obtain ⟨-, metadata, rfl⟩ := mergeState_some hlaws hitem
    rfl
  have hsort : (mergeState tables log2 globalObservations targetEvidence feedback).values.map
      ((fun entry => entry.sortKey tables) ∘ corpusEntry tables log1p config) =
      ((mergeState tables log2 globalObservations targetEvidence feedback).values.map
        fun item => (item.category, item.token)).map
          fun key : CorpusKey => toLex (key.1.value, canonicalTokenKey tables key.1 key.2) := by
    rw [List.map_map]
    rfl
  rw [hsort]
  refine List.Nodup.map_on (fun key hkey key' hkey' heq => ?_) hkeys
  have hcanonical : ∀ key : CorpusKey, key ∈ (mergeState tables log2 globalObservations targetEvidence feedback).values.map
      (fun item => (item.category, item.token)) → canonicalTokenKey tables key.1 key.2 = key.2 := by
    intro key hmem
    obtain ⟨item, hitem, rfl⟩ := List.mem_map.mp hmem
    obtain ⟨key, hget⟩ := Dict.mem_values_iff.mp hitem
    obtain ⟨hoccurs, metadata, rfl⟩ := mergeState_some hlaws hget
    exact hoccurs.canonical hlaws
  have hpair := toLex.injective heq
  rw [hcanonical key hkey, hcanonical key' hkey'] at hpair
  obtain ⟨hcategory, htoken⟩ := Prod.mk.inj hpair
  exact Prod.ext (value_injective hcategory) htoken

theorem mergeCorpus_sorted (hlaws : DigitLaws tables) :
    (mergeCorpus tables log2 log1p config globalObservations targetEvidence feedback).Pairwise
      fun a b => a.sortKey tables < b.sortKey tables := by
  have hle : (mergeCorpus tables log2 log1p config globalObservations targetEvidence feedback).Pairwise
      fun a b => a.sortKey tables ≤ b.sortKey tables := by
    have : IsTrans CorpusEntry fun a b => a.sortKey tables ≤ b.sortKey tables := ⟨fun _ _ _ => le_trans⟩
    have : Std.Total fun a b : CorpusEntry => a.sortKey tables ≤ b.sortKey tables := ⟨fun _ _ => le_total _ _⟩
    exact List.pairwise_insertionSort _ _
  have hnodup : ((mergeCorpus tables log2 log1p config globalObservations targetEvidence feedback).map
      fun entry => entry.sortKey tables).Nodup :=
    ((List.perm_insertionSort _ _).map _).nodup_iff.mpr (nodup_sortKeys hlaws)
  exact (hle.and (List.pairwise_map.mp hnodup)).imp fun h => lt_of_le_of_ne h.1 h.2

theorem mem_mergeCorpus : entry ∈ mergeCorpus tables log2 log1p config globalObservations targetEvidence feedback ↔
    ∃ key item, (mergeState tables log2 globalObservations targetEvidence feedback).get? key = some item ∧
      corpusEntry tables log1p config item = entry := by
  unfold mergeCorpus
  rw [List.mem_insertionSort, List.mem_map]
  constructor
  · intro ⟨item, hitem, heq⟩
    obtain ⟨key, hget⟩ := Dict.mem_values_iff.mp hitem
    exact ⟨key, item, hget, heq⟩
  · intro ⟨key, item, hget, heq⟩
    exact ⟨item, Dict.mem_values_iff.mpr ⟨key, hget⟩, heq⟩

/-- The order of the inputs changes the order of the labels only. -/
theorem mergeCorpus_perm (hlaws : DigitLaws tables) (hobservations : globalObservations.Perm globalObservations')
    (hevidence : targetEvidence.Perm targetEvidence') (hfeedback : feedback.Perm feedback') :
    (mergeCorpus tables log2 log1p config globalObservations targetEvidence feedback).map CorpusEntry.unordered =
      (mergeCorpus tables log2 log1p config globalObservations' targetEvidence' feedback').map
        CorpusEntry.unordered := by
  have hmap (globalObservations : List GlobalCorpusObservation) (targetEvidence : List (TargetTokenEvidence tables))
      (feedback : List YieldFeedback) :
      (mergeCorpus tables log2 log1p config globalObservations targetEvidence feedback).map CorpusEntry.unordered =
        (((mergeState tables log2 globalObservations targetEvidence feedback).mapValues
          fun item => (corpusEntry tables log1p config item).unordered).values).insertionSort
            fun a b => a.1.sortKey tables ≤ b.1.sortKey tables := by
    have hsame : ∀ entry : CorpusEntry, entry.unordered.1.sortKey tables = entry.sortKey tables := fun _ => rfl
    unfold mergeCorpus
    rw [List.map_insertionSort _ (fun a b => a.1.sortKey tables ≤ b.1.sortKey tables) CorpusEntry.unordered _
      fun a _ b _ => by rw [hsame, hsame], List.map_map]
    unfold Dict.values Dict.mapValues
    simp only [List.map_map]
    rfl
  have hget (key : CorpusKey) :
      ((mergeState tables log2 globalObservations targetEvidence feedback).mapValues
          fun item => (corpusEntry tables log1p config item).unordered).get? key =
        ((mergeState tables log2 globalObservations' targetEvidence' feedback').mapValues
          fun item => (corpusEntry tables log1p config item).unordered).get? key := by
    obtain ⟨metadata, hleft⟩ := get?_mergeState hlaws log2 key globalObservations targetEvidence feedback
    obtain ⟨metadata', hright⟩ := get?_mergeState hlaws log2 key globalObservations' targetEvidence' feedback'
    have hobservationsOf : (observationsOf tables key globalObservations).Perm
        (observationsOf tables key globalObservations') := hobservations.filter _
    have hevidenceOf : (evidenceOf key targetEvidence).Perm (evidenceOf key targetEvidence') := hevidence.filter _
    have hfeedbackOf : (feedbackOf tables key feedback).Perm (feedbackOf tables key feedback') := hfeedback.filter _
    have hnil {A : Type} {xs ys : List A} (h : xs.Perm ys) : xs = [] ↔ ys = [] := by
      rw [← List.length_eq_zero_iff, ← List.length_eq_zero_iff, h.length_eq]
    have hempty := and_congr (hnil hobservationsOf) (and_congr (hnil hevidenceOf) (hnil hfeedbackOf))
    rw [Dict.get?_mapValues, Dict.get?_mapValues, hleft, hright]
    split
    next h => rw [if_pos (hempty.mp h)]
    next h =>
      rw [if_neg (h ∘ hempty.mpr)]
      exact congrArg some (unordered_perm hobservationsOf hevidenceOf hfeedbackOf)
  rw [hmap, hmap]
  refine insertionSort_key_eq_of_perm (Dict.values_perm hget) ?_
  have hkeys : (((mergeState tables log2 globalObservations targetEvidence feedback).mapValues
      fun item => (corpusEntry tables log1p config item).unordered).values.map fun a => a.1.sortKey tables) =
      ((mergeState tables log2 globalObservations targetEvidence feedback).values.map
        (corpusEntry tables log1p config)).map fun entry => entry.sortKey tables := by
    unfold Dict.values Dict.mapValues
    simp only [List.map_map]
    rfl
  rw [hkeys]
  exact nodup_sortKeys hlaws

/-- **What merging conserves.** -/
theorem mergeCorpus_law (hlaws : DigitLaws tables) (log2 log1p : ℚ → ℚ) (config : WordlistCorpusConfig)
    (globalObservations : List GlobalCorpusObservation) (targetEvidence : List (TargetTokenEvidence tables))
    (feedback : List YieldFeedback) :
    (mergeCorpus tables log2 log1p config globalObservations targetEvidence feedback).Pairwise
        (fun a b => a.sortKey tables < b.sortKey tables) ∧
      (∀ key, (∃ entry ∈ mergeCorpus tables log2 log1p config globalObservations targetEvidence feedback,
          (entry.category, entry.token) = key) ↔ Occurs tables key globalObservations targetEvidence feedback) ∧
      (∀ entry ∈ mergeCorpus tables log2 log1p config globalObservations targetEvidence feedback,
        MergedEntry tables log2 (observationsOf tables (entry.category, entry.token) globalObservations)
          (evidenceOf (entry.category, entry.token) targetEvidence)
          (feedbackOf tables (entry.category, entry.token) feedback) entry) ∧
      ∀ globalObservations' targetEvidence' feedback', globalObservations.Perm globalObservations' →
        targetEvidence.Perm targetEvidence' → feedback.Perm feedback' →
        (mergeCorpus tables log2 log1p config globalObservations targetEvidence feedback).map CorpusEntry.unordered =
          (mergeCorpus tables log2 log1p config globalObservations' targetEvidence' feedback').map
            CorpusEntry.unordered := by
  refine ⟨mergeCorpus_sorted hlaws, fun key => ⟨?_, fun hoccurs => ?_⟩, fun entry hentry => ?_, ?_⟩
  · rintro ⟨entry, hentry, rfl⟩
    obtain ⟨key, item, hget, rfl⟩ := mem_mergeCorpus.mp hentry
    obtain ⟨hoccurs, metadata, rfl⟩ := mergeState_some hlaws hget
    exact hoccurs
  · obtain ⟨metadata, hget⟩ := exists_mergeState log2 hlaws hoccurs
    exact ⟨_, mem_mergeCorpus.mpr ⟨key, _, hget, rfl⟩, rfl⟩
  · obtain ⟨key, item, hget, rfl⟩ := mem_mergeCorpus.mp hentry
    obtain ⟨hoccurs, metadata, rfl⟩ := mergeState_some hlaws hget
    exact corpusEntry_mergedItem (hoccurs.canonical hlaws)
  · intro globalObservations' targetEvidence' feedback'
    exact mergeCorpus_perm hlaws

end Entries

/-! ## Two pieces of evidence for one token -/

def asciiCharTables : TokenTables where
  toTables := asciiTables
  isDigit c := '0' ≤ c && c ≤ '9'
  isAlpha c := ('a' ≤ c && c ≤ 'z') || ('A' ≤ c && c ≤ 'Z')

theorem asciiCharTables_digitLaws : DigitLaws asciiCharTables := by
  have hgeneral : ∀ c, asciiCharTables.isDigit c = true → generalChar c = true := by
    intro c hc
    apply generalChar_of_labelChar
    unfold labelChar
    rw [Bool.or_eq_true, Bool.or_eq_true]
    exact .inl (.inr hc)
  refine ⟨fun text htext => strLower_generalChars fun c hc => ?_, fun c hc => isSpace_of_generalChar (hgeneral c hc)⟩
  exact hgeneral c (List.all_eq_true.mp htext c hc)

theorem billing_frequency : 1 ≤ 1 := le_refl 1

theorem billing_unit : (0 : ℚ) ≤ 1 / 2 ∧ (1 / 2 : ℚ) ≤ 1 := by norm_num

def certificateEvidence : TargetTokenEvidence asciiCharTables where
  token := { text := "billing" }
  categories := {.dns}
  source := { text := "tls:san" }
  labels := ["billing"]
  categories_required := by decide
  frequency_pos := billing_frequency
  relevance_unit := billing_unit
  confidence_unit := billing_unit
  labels_normal := by decide +kernel

def pageEvidence : TargetTokenEvidence asciiCharTables where
  token := { text := "Billing" }
  categories := {.dns}
  source := { text := "crawler:link" }
  labels := ["invoices"]
  categories_required := by decide
  frequency_pos := billing_frequency
  relevance_unit := billing_unit
  confidence_unit := billing_unit
  labels_normal := by decide +kernel

theorem mergeCorpus_law_billing :
    (mergeCorpus asciiCharTables id id {} [] [certificateEvidence, pageEvidence] []).map CorpusEntry.unordered =
      (mergeCorpus asciiCharTables id id {} [] [pageEvidence, certificateEvidence] []).map CorpusEntry.unordered :=
  (mergeCorpus_law asciiCharTables_digitLaws id id {} [] [certificateEvidence, pageEvidence] []).2.2.2 [] _ []
    (List.Perm.refl []) (List.Perm.swap pageEvidence certificateEvidence []) (List.Perm.refl [])

/-- The labels come in the order of the evidence. -/
theorem labels_follow_the_evidence : ¬ ∀ targetEvidence targetEvidence' : List (TargetTokenEvidence asciiCharTables),
      targetEvidence.Perm targetEvidence' → (mergeCorpus asciiCharTables id id {} [] targetEvidence []).map (·.labels) =
        (mergeCorpus asciiCharTables id id {} [] targetEvidence' []).map (·.labels) := by
  intro h
  have hswap := h [certificateEvidence, pageEvidence] [pageEvidence, certificateEvidence]
    (List.Perm.swap pageEvidence certificateEvidence [])
  have hdiffer : (mergeCorpus asciiCharTables id id {} [] [certificateEvidence, pageEvidence] []).map (·.labels) ≠
      (mergeCorpus asciiCharTables id id {} [] [pageEvidence, certificateEvidence] []).map (·.labels) := by
    decide +kernel
  exact hdiffer hswap

end NightScout
