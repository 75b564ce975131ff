import NightScout.Storage.EventRepository
import NightScout.Lib.Run
import NightScout.Lib.Summaries

/-!
# Asset rows

An asset row is the fold of its observations: the join, column by column, of what they say. One column
is forgotten in one place: an event that is ingested again is merged into its observation without its
depth, and into the asset with it. `asset_rows_fold` is that a run keeps every asset the fold of its
observations exactly if no event comes again shallower than its asset, and that the assets do not depend
on the order of ingestion, whatever comes again.
-/

namespace NightScout

open Lib

/-! ## The order of the columns -/

theorem ScopeState.precedence_injective : Function.Injective precedence := by
  intro a b h
  cases a <;> cases b <;> first | rfl | exact absurd h (by decide)

instance : LinearOrder ScopeState := LinearOrder.lift' _ ScopeState.precedence_injective

theorem ScopeState.le_iff {a b : ScopeState} : a ≤ b ↔ a.precedence ≤ b.precedence := Iff.rfl

theorem mergeScopeState_eq (a b : ScopeState) : mergeScopeState a b = a ⊔ b := by
  unfold mergeScopeState
  split
  next h => exact (sup_eq_right.mpr (ScopeState.le_iff.mpr h.le)).symm
  next h => exact (sup_eq_left.mpr (ScopeState.le_iff.mpr (not_lt.mp h))).symm

/-- What a row says: when it was first and last seen, confidence, novelty, depth, tags and scope. -/
abbrev Summary := Instantᵒᵈ × Instant × ℚ × ℚ × ℕᵒᵈ × Finset String × ScopeState

def AssetRecord.summary (asset : AssetRecord) : Summary :=
  (.toDual asset.firstSeen, asset.lastSeen, asset.confidence, asset.novelty, .toDual asset.minDepth,
    asset.tags, asset.scopeState)

def EventObservationRecord.summary (row : EventObservationRecord) : Summary :=
  (.toDual row.firstSeen, row.lastSeen, row.confidence, row.novelty, .toDual row.depth, row.tags,
    row.scopeState)

def Event.summary (event : Event) : Summary :=
  (.toDual event.firstSeen, event.lastSeen, event.confidence, event.novelty, .toDual event.depth,
    event.tags, event.scopeState)

/-- The event at another depth. -/
def Event.atDepth (event : Event) (depth : ℕ) : Event := { event with depth }

theorem AssetRecord.summary_merge (asset : AssetRecord) (event : Event) :
    (asset.merge event).summary = asset.summary ⊔ event.summary := by
  unfold summary merge Event.summary
  rw [mergeScopeState_eq]
  rfl

theorem EventObservationRecord.summary_merge (row : EventObservationRecord) (event : Event) :
    (row.merge event).summary = row.summary ⊔ (event.atDepth row.depth).summary := by
  unfold summary merge Event.summary Event.atDepth
  rw [mergeScopeState_eq]
  simp only [Prod.mk_sup_mk, sup_idem]
  rfl

/-- An event no shallower than the asset changes it as it would at another such depth. -/
theorem AssetRecord.summary_atDepth {asset : AssetRecord} {event : Event} {depth : ℕ}
    (h : asset.minDepth ≤ event.depth) (h' : asset.minDepth ≤ depth) :
    asset.summary ⊔ (event.atDepth depth).summary = asset.summary ⊔ event.summary := by
  have hd : OrderDual.toDual asset.minDepth ⊔ OrderDual.toDual depth =
      OrderDual.toDual asset.minDepth ⊔ OrderDual.toDual event.depth :=
    congrArg OrderDual.toDual ((min_eq_left h').trans (min_eq_left h).symm)
  unfold summary Event.summary Event.atDepth
  simp only [Prod.mk_sup_mk, hd]

/-! ## The fold -/

/-- The asset row is the fold of the observations. -/
structure AssetRecord.Folds (asset : AssetRecord) (rows : Set EventObservationRecord) : Prop where
  firstSeen : IsLeast ((fun row => row.firstSeen) '' rows) asset.firstSeen
  lastSeen : IsGreatest ((fun row => row.lastSeen) '' rows) asset.lastSeen
  confidence : IsGreatest ((fun row => row.confidence) '' rows) asset.confidence
  novelty : IsGreatest ((fun row => row.novelty) '' rows) asset.novelty
  minDepth : IsLeast ((fun row => row.depth) '' rows) asset.minDepth
  tags : ∀ tag, tag ∈ asset.tags ↔ ∃ row ∈ rows, tag ∈ row.tags
  /-- The state of one of them, with the highest precedence. -/
  scopeState : (∃ row ∈ rows, row.scopeState = asset.scopeState) ∧
    ∀ row ∈ rows, row.scopeState.precedence ≤ asset.scopeState.precedence

theorem AssetRecord.folds_iff {asset : AssetRecord} {rows : Set EventObservationRecord}
    (hfin : rows.Finite) (hne : rows.Nonempty) :
    asset.Folds rows ↔ IsLUB (EventObservationRecord.summary '' rows) asset.summary := by
  have hcolumns : IsLUB (EventObservationRecord.summary '' rows) asset.summary ↔
      IsLeast ((fun row => row.firstSeen) '' rows) asset.firstSeen ∧
      IsGreatest ((fun row => row.lastSeen) '' rows) asset.lastSeen ∧
      IsGreatest ((fun row => row.confidence) '' rows) asset.confidence ∧
      IsGreatest ((fun row => row.novelty) '' rows) asset.novelty ∧
      IsLeast ((fun row => row.depth) '' rows) asset.minDepth ∧
      (∀ tag, tag ∈ asset.tags ↔ ∃ row ∈ rows, tag ∈ row.tags) ∧
      IsGreatest ((fun row => row.scopeState) '' rows) asset.scopeState := by
    rw [← isLUB_image_dual_iff hfin hne, ← isLUB_image_iff hfin hne, ← isLUB_image_iff hfin hne,
      ← isLUB_image_iff hfin hne, ← isLUB_image_dual_iff hfin hne, ← isLUB_image_finset_iff,
      ← isLUB_image_iff hfin hne]
    unfold AssetRecord.summary
    simp only [isLUB_image_prod_iff]
    rfl
  rw [hcolumns]
  constructor
  · intro h
    refine ⟨h.firstSeen, h.lastSeen, h.confidence, h.novelty, h.minDepth, h.tags, ?_, ?_⟩
    · exact h.scopeState.1
    · rintro _ ⟨row, hrow, rfl⟩
      exact h.scopeState.2 row hrow
  · intro ⟨hfirst, hlast, hconfidence, hnovelty, hdepth, htags, hscope⟩
    exact ⟨hfirst, hlast, hconfidence, hnovelty, hdepth, htags, hscope.1,
      fun row hrow => hscope.2 ⟨row, hrow, rfl⟩⟩

/-- The identity of what was observed. -/
def EventObservationRecord.identityKey (row : EventObservationRecord) : String :=
  s!"{row.eventType.value}:{row.value}"

/-! ## What an ingestion does -/

namespace EventDb

/-- The observations of an asset. -/
def observationsOf (db : EventDb) (assetId : String) : Set EventObservationRecord :=
  rowsWhere db.observations fun row => row.assetId = assetId

/-- The three ways an event comes in. -/
inductive Ingested (db : EventDb) (event : Event) : EventDb → Prop
  | again (row : EventObservationRecord) (asset : AssetRecord)
      (hrow : db.observations.get? event.eventId = some row) (hsame : row.SameObservation event)
      (hasset : db.assets.get? row.assetId = some asset) :
      Ingested db event ⟨db.assets.set row.assetId (asset.merge event),
        db.observations.set event.eventId (row.merge event)⟩
  | observed (id : String) (asset : AssetRecord) (runId : Option String)
      (hnew : db.observations.get? event.eventId = none) (hasset : db.assets.get? id = some asset)
      (hkey : asset.identityKey = event.identityKey) :
      Ingested db event ⟨db.assets.set id (asset.merge event),
        db.observations.set event.eventId (.ofEvent event id runId)⟩
  | created (id : String) (runId : Option String)
      (hnew : db.observations.get? event.eventId = none) (hid : db.assets.get? id = none)
      (hkey : ∀ id' asset, db.assets.get? id' = some asset → asset.identityKey ≠ event.identityKey) :
      Ingested db event ⟨db.assets.set id (.ofEvent event),
        db.observations.set event.eventId (.ofEvent event id runId)⟩

theorem assetOf_some {db : EventDb} {key id : String} {asset : AssetRecord} (h : db.assetOf key = some (id, asset)) :
    db.assets.get? id = some asset ∧ asset.identityKey = key := by
  have hkey := List.find?_some h
  rw [decide_eq_true_eq] at hkey
  exact ⟨Dict.mem_entries_iff.mp (List.mem_of_find?_eq_some h), hkey⟩

theorem assetOf_none {db : EventDb} {key : String} (h : db.assetOf key = none) {id : String}
    {asset : AssetRecord} (hasset : db.assets.get? id = some asset) : asset.identityKey ≠ key := by
  unfold assetOf at h
  rw [List.find?_eq_none] at h
  have hno := h (id, asset) (Dict.mem_entries_iff.mpr hasset)
  rwa [decide_eq_true_eq] at hno

/-- An event that comes again is not shallower than its asset. -/
def NotShallower (db : EventDb) (event : Event) : Prop :=
  ∀ row ∈ db.observations.get? event.eventId, row.SameObservation event →
    ∀ asset ∈ db.assets.get? row.assetId, asset.minDepth ≤ event.depth

instance (db : EventDb) (event : Event) : Decidable (db.NotShallower event) :=
  inferInstanceAs (Decidable (∀ _ ∈ _, _ → ∀ _ ∈ _, _))

/-- **An ingestion raises and changes nothing, or takes the event in.** If it raises, there is no
    observation of the event yet. -/
theorem ingestSanitized_effect (db : EventDb) (event : Event) (runId : Option String)
    (assetId : String) (runStored : Bool) : (∃ e, db.ingestSanitized event runId assetId runStored = (.error e, db) ∧
        db.NotShallower event) ∨ ∃ result db', db.ingestSanitized event runId assetId runStored = (.ok result, db') ∧
        db.Ingested event db' := by
  unfold ingestSanitized
  cases hrow : db.observations.get? event.eventId with
  | some row =>
    by_cases hsame : row.SameObservation event
    · cases hasset : db.assets.get? row.assetId with
      | none =>
        simp only [hsame, not_true_eq_false, if_false, hasset]
        refine .inl ⟨_, rfl, ?_⟩
        intro row' hrow' _ asset hasset'
        rw [Option.mem_def, hrow] at hrow'
        cases hrow'
        exact nomatch hasset.symm.trans hasset'
      | some asset =>
        simp only [hsame, not_true_eq_false, if_false, hasset]
        exact .inr ⟨_, _, rfl, .again row asset hrow hsame hasset⟩
    · simp only [hsame, not_false_eq_true, if_true]
      refine .inl ⟨_, rfl, ?_⟩
      intro row' hrow' hsame'
      rw [Option.mem_def, hrow] at hrow'
      cases hrow'
      exact absurd hsame' hsame
  | none =>
    have hnew : db.NotShallower event := fun _ hrow' => nomatch hrow.symm.trans hrow'
    cases hfind : db.assetOf event.identityKey with
    | some e =>
      obtain ⟨id, asset⟩ := e
      obtain ⟨hasset, hkey⟩ := assetOf_some hfind
      by_cases hfk : db.ForeignKeys event runStored
      · simp only [hfk, if_true]
        exact .inr ⟨_, _, rfl, .observed id asset runId hrow hasset hkey⟩
      · simp only [hfk, if_false]
        exact .inl ⟨_, rfl, hnew⟩
    | none =>
      by_cases hfk : db.ForeignKeys event runStored ∧ db.assets.get? assetId = none
      · simp only [if_pos hfk]
        exact .inr ⟨_, _, rfl, .created assetId runId hrow hfk.2 fun _ _ => assetOf_none hfind⟩
      · simp only [if_neg hfk]
        exact .inl ⟨_, rfl, hnew⟩

/-! ## The assets and their observations -/

/-- The identity of an asset. -/
def keyOf (db : EventDb) (id : String) : Option String :=
  (db.assets.get? id).map fun asset => asset.identityKey

structure Inv (db : EventDb) : Prop where
  /-- An observation is of an asset of its identity. -/
  asset : ∀ id row, db.observations.get? id = some row → db.keyOf row.assetId = some row.identityKey
  unique : ∀ id id' key, db.keyOf id = some key → db.keyOf id' = some key → id = id'
  /-- Every asset was observed. -/
  observed : ∀ id key, db.keyOf id = some key → (db.observationsOf id).Nonempty

theorem inv_empty : Inv empty where
  asset _ _ h := by cases h
  unique _ _ _ h := by cases h
  observed _ _ h := by cases h

variable {db db' : EventDb} {event : Event}

theorem keyOf_eq {id : String} {asset : AssetRecord} (h : db.assets.get? id = some asset) :
    db.keyOf id = some asset.identityKey := by
  unfold keyOf
  rw [h]
  rfl

theorem keyOf_set (assets : Dict String AssetRecord)
    (observations observations' : Dict String EventObservationRecord) (id id' : String)
    (asset : AssetRecord) : keyOf ⟨assets.set id asset, observations'⟩ id' =
      if id' = id then some asset.identityKey else keyOf ⟨assets, observations⟩ id' := by
  unfold keyOf
  rw [Dict.get?_set]
  split <;> rfl

/-- An asset that stays the asset of its identity. -/
theorem keyOf_set_some {id : String} {asset : AssetRecord} (h : db.assets.get? id = some asset)
    (asset' : AssetRecord) (hkey : asset'.identityKey = asset.identityKey)
    (observations : Dict String EventObservationRecord) (id' : String) :
    keyOf ⟨db.assets.set id asset', observations⟩ id' = db.keyOf id' := by
  rw [keyOf_set db.assets db.observations observations]
  split
  next heq => rw [heq, keyOf_eq h, hkey]
  next => rfl

/-- The event is of the identity of the asset it is merged into. -/
theorem Inv.again_key (h : db.Inv) {row : EventObservationRecord} {asset : AssetRecord}
    (hrow : db.observations.get? event.eventId = some row) (hsame : row.SameObservation event)
    (hasset : db.assets.get? row.assetId = some asset) : asset.identityKey = event.identityKey := by
  obtain ⟨htype, hvalue, _⟩ := hsame
  have hkey := h.asset _ _ hrow
  rw [keyOf_eq hasset] at hkey
  rw [Option.some.inj hkey]
  unfold EventObservationRecord.identityKey Event.identityKey
  rw [htype, hvalue]

/-- An ingestion keeps the invariant. -/
theorem Inv.ingested (h : db.Inv) (hin : db.Ingested event db') : db'.Inv := by
  cases hin with
  | again row asset hrow hsame hasset =>
    have hkeys := keyOf_set_some hasset (asset.merge event) rfl
      (db.observations.set event.eventId (row.merge event))
    constructor
    · intro id row' hrow'
      rw [hkeys]
      rw [Dict.get?_set] at hrow'
      split at hrow'
      next =>
        cases hrow'
        exact h.asset _ row hrow
      next => exact h.asset id row' hrow'
    · intro id id' key hid hid'
      rw [hkeys] at hid hid'
      exact h.unique id id' key hid hid'
    · intro id key hid
      rw [hkeys] at hid
      obtain ⟨w, j, hj, hw⟩ := h.observed id key hid
      by_cases hjk : j = event.eventId
      · rw [hjk, hrow] at hj
        cases hj
        exact ⟨_, mem_rowsWhere_set.mpr (.inl ⟨rfl, hw⟩)⟩
      · exact ⟨w, mem_rowsWhere_set.mpr (.inr ⟨j, hjk, hj, hw⟩)⟩
  | observed id asset runId hnew hasset hkey =>
    have hkeys := keyOf_set_some hasset (asset.merge event) rfl
      (db.observations.set event.eventId (.ofEvent event id runId))
    constructor
    · intro id' row' hrow'
      rw [hkeys]
      rw [Dict.get?_set] at hrow'
      split at hrow'
      next =>
        cases hrow'
        exact (keyOf_eq hasset).trans (congrArg some hkey)
      next => exact h.asset id' row' hrow'
    · intro id id' key hid hid'
      rw [hkeys] at hid hid'
      exact h.unique id id' key hid hid'
    · intro id' key hid
      rw [hkeys] at hid
      exact (h.observed id' key hid).mono (subset_rowsWhere_set hnew)
  | created id runId hnew hid hkey =>
    have hkeys := fun id' => keyOf_set db.assets db.observations
      (db.observations.set event.eventId (.ofEvent event id runId)) id id' (.ofEvent event)
    have hother : ∀ id' key, id' ≠ id → db.keyOf id' = some key → key ≠ event.identityKey := by
      intro id' key _ hid'
      obtain ⟨asset, hasset, rfl⟩ := Option.map_eq_some_iff.mp hid'
      exact hkey id' asset hasset
    constructor
    · intro id' row' hrow'
      rw [hkeys]
      rw [Dict.get?_set] at hrow'
      split at hrow'
      next =>
        cases hrow'
        exact if_pos rfl
      next =>
        have hold := h.asset id' row' hrow'
        rw [if_neg]
        · exact hold
        · intro heq
          rw [heq, show db.keyOf id = none from congrArg _ hid] at hold
          cases hold
    · intro i j key hi hj
      rw [hkeys] at hi hj
      split at hi <;> split at hj
      next hi' hj' => rw [hi', hj']
      next hi' hj' =>
        cases hi
        exact absurd rfl (hother j _ hj' hj)
      next hi' hj' =>
        cases hj
        exact absurd rfl (hother i _ hi' hi)
      next => exact h.unique i j key hi hj
    · intro id' key hid'
      rw [hkeys] at hid'
      split at hid'
      next heq =>
        exact ⟨_, mem_rowsWhere_set.mpr (.inl ⟨rfl, heq.symm⟩)⟩
      next => exact (h.observed id' key hid').mono (subset_rowsWhere_set hnew)

/-! ## The fold of the observations -/

/-- Every asset row is the fold of its observations. -/
def Folded (db : EventDb) : Prop :=
  ∀ id asset, db.assets.get? id = some asset → asset.Folds (db.observationsOf id)

theorem Inv.folds_iff (h : db.Inv) {id : String} {asset : AssetRecord}
    (hasset : db.assets.get? id = some asset) : asset.Folds (db.observationsOf id) ↔
      IsLUB (EventObservationRecord.summary '' db.observationsOf id) asset.summary :=
  asset.folds_iff (rowsWhere_finite _ _) (h.observed id _ (keyOf_eq hasset))

/-- The observations of an asset the event is not of. -/
theorem observationsOf_set_other (row : EventObservationRecord) {id : String} (hid : row.assetId ≠ id)
    (hold : ∀ row', db.observations.get? event.eventId = some row' → row'.assetId = row.assetId)
    (assets : Dict String AssetRecord) :
    observationsOf ⟨assets, db.observations.set event.eventId row⟩ id = db.observationsOf id := by
  apply rowsWhere_set_other
  · intro row' hrow' heq
    exact hid ((hold row' hrow').symm.trans heq)
  · exact hid

/-- **An event that is not shallower keeps the fold.** -/
theorem Folded.ingested (h : db.Folded) (hinv : db.Inv) (hin : db.Ingested event db')
    (hdeep : db.NotShallower event) : db'.Folded := by
  have hinv' := hinv.ingested hin
  cases hin with
  | again row asset hrow hsame hasset =>
    intro id asset' hasset'
    rw [hinv'.folds_iff hasset']
    rw [Dict.get?_set] at hasset'
    split at hasset'
    next heq =>
      cases hasset'
      have hlub := (hinv.folds_iff hasset).mp (h _ _ hasset)
      have hrowDepth : asset.minDepth ≤ row.depth :=
        (h _ _ hasset).minDepth.2 ⟨row, ⟨_, hrow, rfl⟩, rfl⟩
      rw [heq, AssetRecord.summary_merge,
        ← AssetRecord.summary_atDepth (hdeep row hrow hsame asset hasset) hrowDepth]
      exact isLUB_set_some hlub hrow rfl rfl (row.summary_merge event)
    next hne =>
      have hold : ∀ row', db.observations.get? event.eventId = some row' →
          row'.assetId = (row.merge event).assetId := by
        intro row' hrow'
        rw [hrow] at hrow'
        cases hrow'
        rfl
      rw [observationsOf_set_other (row.merge event) (Ne.symm hne) hold]
      exact (hinv.folds_iff hasset').mp (h id asset' hasset')
  | observed id asset runId hnew hasset hkey =>
    intro id' asset' hasset'
    rw [hinv'.folds_iff hasset']
    rw [Dict.get?_set] at hasset'
    split at hasset'
    next heq =>
      cases hasset'
      have hlub := (hinv.folds_iff hasset).mp (h _ _ hasset)
      rw [heq, AssetRecord.summary_merge]
      exact isLUB_set_none (v := .ofEvent event id runId) hlub hnew rfl
    next hne =>
      rw [observationsOf_set_other (.ofEvent event id runId) (Ne.symm hne)
        fun row' hrow' => nomatch hnew.symm.trans hrow']
      exact (hinv.folds_iff hasset').mp (h id' asset' hasset')
  | created id runId hnew hid hkey =>
    intro id' asset' hasset'
    rw [hinv'.folds_iff hasset']
    rw [Dict.get?_set] at hasset'
    split at hasset'
    next heq =>
      cases hasset'
      -- there was no asset, so there are no other observations of it
      have hnone : db.observationsOf id = ∅ := by
        rw [Set.eq_empty_iff_forall_notMem]
        intro row ⟨j, hj, hrow⟩
        have hkeyOf := hinv.asset j row hj
        rw [hrow, show db.keyOf id = none from congrArg _ hid] at hkeyOf
        cases hkeyOf
      have hrows : observationsOf ⟨db.assets.set id (.ofEvent event),
          db.observations.set event.eventId (.ofEvent event id runId)⟩ id =
            {.ofEvent event id runId} := by
        have hset := rowsWhere_set_none (p := fun row : EventObservationRecord => row.assetId = id)
          (v := .ofEvent event id runId) hnew rfl
        unfold observationsOf at hnone ⊢
        rw [hset, hnone, insert_empty_eq]
      rw [heq, hrows, Set.image_singleton]
      exact isLUB_singleton
    next hne =>
      rw [observationsOf_set_other (.ofEvent event id runId) (Ne.symm hne)
        fun row' hrow' => nomatch hnew.symm.trans hrow']
      exact (hinv.folds_iff hasset').mp (h id' asset' hasset')

/-- **An event that is shallower breaks it**: no observation has the depth of the asset. -/
theorem Folded.notShallower (h : db.Folded) (hin : db.Ingested event db') (h' : db'.Folded) :
    db.NotShallower event := by
  intro row hrow hsame asset hasset
  cases hin with
  | again row' asset' hrow' _ hasset' =>
    rw [Option.mem_def, hrow'] at hrow
    cases hrow
    rw [Option.mem_def, hasset'] at hasset
    cases hasset
    have hfolds := h' row.assetId (asset.merge event) (Dict.get?_set_self _ _ _)
    obtain ⟨w, hw, hdepth⟩ := hfolds.minDepth.1
    have hold : asset.minDepth ≤ w.depth := by
      rcases mem_rowsWhere_set.mp hw with ⟨rfl, _⟩ | ⟨j, _, hj, hjw⟩
      · exact (h _ _ hasset').minDepth.2 ⟨row, ⟨_, hrow', rfl⟩, rfl⟩
      · exact (h _ _ hasset').minDepth.2 ⟨w, ⟨j, hj, hjw⟩, rfl⟩
    have hmin : w.depth ≤ event.depth := hdepth.trans_le (min_le_right _ _)
    exact hold.trans hmin
  | observed _ _ _ hnew => exact nomatch hnew.symm.trans hrow
  | created _ _ hnew => exact nomatch hnew.symm.trans hrow

/-! ## The fold of the events -/

/-- The events of an identity. -/
def eventsOf (events : Set Event) (key : String) : Set Event :=
  {event ∈ events | event.identityKey = key}

theorem eventsOf_insert_self (events : Set Event) (event : Event) : eventsOf (insert event events) event.identityKey =
      insert event (eventsOf events event.identityKey) := by
  ext e
  constructor
  · rintro ⟨rfl | he, hkey⟩
    · exact .inl rfl
    · exact .inr ⟨he, hkey⟩
  · rintro (rfl | ⟨he, hkey⟩)
    · exact ⟨.inl rfl, rfl⟩
    · exact ⟨.inr he, hkey⟩

theorem eventsOf_insert_ne (events : Set Event) {event : Event} {key : String}
    (h : event.identityKey ≠ key) : eventsOf (insert event events) key = eventsOf events key := by
  ext e
  constructor
  · rintro ⟨rfl | he, hkey⟩
    · exact absurd hkey h
    · exact ⟨he, hkey⟩
  · intro ⟨he, hkey⟩
    exact ⟨.inr he, hkey⟩

/-- The assets are those of the events, and each is the join of what its events said. -/
structure Remembers (db : EventDb) (events : Set Event) : Prop where
  known : ∀ event ∈ events, ∃ id, db.keyOf id = some event.identityKey
  heard : ∀ id key, db.keyOf id = some key → ∃ event ∈ events, event.identityKey = key
  joined : ∀ id asset, db.assets.get? id = some asset →
    IsLUB (Event.summary '' eventsOf events asset.identityKey) asset.summary

theorem remembers_empty : Remembers empty ∅ where
  known _ h := h.elim
  heard _ _ h := by cases h
  joined _ _ h := by cases h

theorem Remembers.merged {events : Set Event} (h : db.Remembers events) (hinv : db.Inv)
    {id : String} {asset : AssetRecord} (hasset : db.assets.get? id = some asset)
    (hkey : asset.identityKey = event.identityKey) (observations : Dict String EventObservationRecord) :
    Remembers ⟨db.assets.set id (asset.merge event), observations⟩ (insert event events) := by
  have hkeys := keyOf_set_some hasset (asset.merge event) rfl observations
  constructor
  · intro e he
    rcases Set.mem_insert_iff.mp he with rfl | he
    · exact ⟨id, (hkeys id).trans ((keyOf_eq hasset).trans (congrArg some hkey))⟩
    · obtain ⟨id', hid'⟩ := h.known e he
      exact ⟨id', (hkeys id').trans hid'⟩
  · intro id' key hid'
    obtain ⟨e, he, hekey⟩ := h.heard id' key ((hkeys id').symm.trans hid')
    exact ⟨e, Set.mem_insert_of_mem _ he, hekey⟩
  · intro id' asset' hasset'
    rw [Dict.get?_set] at hasset'
    split at hasset'
    next =>
      cases hasset'
      rw [show (asset.merge event).identityKey = event.identityKey from hkey, eventsOf_insert_self,
        Set.image_insert_eq, AssetRecord.summary_merge, sup_comm]
      exact IsLUB.insert _ (hkey ▸ h.joined id asset hasset)
    next hne =>
      have hother : event.identityKey ≠ asset'.identityKey := by
        intro heq
        refine hne (hinv.unique id' id asset'.identityKey (keyOf_eq hasset') ?_)
        rw [keyOf_eq hasset, hkey, heq]
      rw [eventsOf_insert_ne _ hother]
      exact h.joined id' asset' hasset'

theorem Remembers.ingested {events : Set Event} (h : db.Remembers events) (hinv : db.Inv)
    (hin : db.Ingested event db') : db'.Remembers (insert event events) := by
  cases hin with
  | again row asset hrow hsame hasset =>
    exact h.merged hinv hasset (hinv.again_key hrow hsame hasset) _
  | observed id asset runId hnew hasset hkey => exact h.merged hinv hasset hkey _
  | created id runId hnew hid hkey =>
    have hkeys := fun id' => keyOf_set db.assets db.observations
      (db.observations.set event.eventId (.ofEvent event id runId)) id id' (.ofEvent event)
    constructor
    · intro e he
      rcases Set.mem_insert_iff.mp he with rfl | he
      · exact ⟨id, (hkeys id).trans (if_pos rfl)⟩
      · obtain ⟨id', hid'⟩ := h.known e he
        refine ⟨id', (hkeys id').trans ?_⟩
        rw [if_neg]
        · exact hid'
        · intro heq
          rw [heq, show db.keyOf id = none from congrArg _ hid] at hid'
          cases hid'
    · intro id' key hid'
      have hid' := (hkeys id').symm.trans hid'
      split at hid'
      next =>
        cases hid'
        exact ⟨event, Set.mem_insert _ _, rfl⟩
      next =>
        obtain ⟨e, he, hekey⟩ := h.heard id' key hid'
        exact ⟨e, Set.mem_insert_of_mem _ he, hekey⟩
    · intro id' asset' hasset'
      rw [Dict.get?_set] at hasset'
      split at hasset'
      next =>
        cases hasset'
        -- no event of this identity came before
        have hnone : eventsOf events event.identityKey = ∅ := by
          rw [Set.eq_empty_iff_forall_notMem]
          intro e ⟨he, hekey⟩
          obtain ⟨id', hid'⟩ := h.known e he
          obtain ⟨asset, hasset, hassetKey⟩ := Option.map_eq_some_iff.mp hid'
          exact hkey id' asset hasset (hassetKey.trans hekey)
        rw [show (AssetRecord.ofEvent event).identityKey = event.identityKey from rfl,
          eventsOf_insert_self, hnone, insert_empty_eq, Set.image_singleton]
        exact isLUB_singleton
      next =>
        have hother : event.identityKey ≠ asset'.identityKey := Ne.symm (hkey id' asset' hasset')
        rw [eventsOf_insert_ne _ hother]
        exact h.joined id' asset' hasset'

/-- **Databases of the same events have the same assets.** -/
theorem Remembers.summary_eq {events : Set Event} (h : db.Remembers events) (h' : db'.Remembers events) (key : String) :
    (db.assetOf key).map (fun e => e.2.summary) = (db'.assetOf key).map fun e => e.2.summary := by
  have hfound : ∀ {db db' : EventDb}, db.Remembers events → db'.Remembers events →
      ∀ {e}, db.assetOf key = some e → db'.assetOf key ≠ none := by
    intro db db' h h' e hfind hnone
    obtain ⟨hasset, hkey⟩ := assetOf_some hfind
    obtain ⟨event, hevent, heventKey⟩ := h.heard e.1 key (hkey ▸ keyOf_eq hasset)
    obtain ⟨id', hid'⟩ := h'.known event hevent
    obtain ⟨asset', hasset', hassetKey⟩ := Option.map_eq_some_iff.mp hid'
    exact assetOf_none hnone hasset' (hassetKey.trans heventKey)
  cases hfind : db.assetOf key with
  | none =>
    cases hfind' : db'.assetOf key with
    | none => rfl
    | some e' => exact absurd hfind (hfound h' h hfind')
  | some e =>
    cases hfind' : db'.assetOf key with
    | none => exact absurd hfind' (hfound h h' hfind)
    | some e' =>
      obtain ⟨hasset, hkey⟩ := assetOf_some hfind
      obtain ⟨hasset', hkey'⟩ := assetOf_some hfind'
      have hlub := h.joined _ _ hasset
      have hlub' := h'.joined _ _ hasset'
      rw [hkey] at hlub
      rw [hkey'] at hlub'
      exact congrArg some (hlub.unique hlub')

end EventDb

/-! ## Runs -/

/-- A call of `ingest`. -/
structure IngestCall where
  event : Event
  runId : Option String := none
  assetId : String
  runStored : Bool := true

namespace IngestCall

variable (lib : Sanitizer)

def run (db : EventDb) (call : IngestCall) : Except PyError EventWriteResult × EventDb :=
  db.ingest lib call.event call.runId call.assetId call.runStored

def next (db : EventDb) (call : IngestCall) : EventDb := (call.run lib db).2

/-- The event was ingested. -/
def Accepted (db : EventDb) (call : IngestCall) : Prop := (call.run lib db).1.toBool = true

instance (db : EventDb) (call : IngestCall) : Decidable (call.Accepted lib db) :=
  inferInstanceAs (Decidable (_ = true))

/-- An event that comes again is not shallower than its asset. -/
def NotShallower (db : EventDb) (call : IngestCall) : Prop :=
  db.NotShallower (lib.sanitizeEventForStorage call.event)

instance (db : EventDb) (call : IngestCall) : Decidable (call.NotShallower lib db) :=
  inferInstanceAs (Decidable (db.NotShallower _))

variable {lib : Sanitizer} {db : EventDb} {call : IngestCall}

theorem effect (lib : Sanitizer) (db : EventDb) (call : IngestCall) :
    (¬ call.Accepted lib db ∧ call.next lib db = db ∧ call.NotShallower lib db) ∨ call.Accepted lib db ∧
        db.Ingested (lib.sanitizeEventForStorage call.event) (call.next lib db) := by
  rcases db.ingestSanitized_effect (lib.sanitizeEventForStorage call.event) call.runId call.assetId
    call.runStored with ⟨e, hrun, hnot⟩ | ⟨result, db', hrun, hin⟩
  · have hrun : call.run lib db = (.error e, db) := hrun
    refine .inl ⟨?_, congrArg Prod.snd hrun, hnot⟩
    unfold Accepted
    rw [hrun]
    exact Bool.false_ne_true
  · have hrun : call.run lib db = (.ok result, db') := hrun
    refine .inr ⟨?_, ?_⟩
    · unfold Accepted
      rw [hrun]
      rfl
    · unfold next
      rw [hrun]
      exact hin

theorem inv_next (h : db.Inv) : (call.next lib db).Inv := by
  rcases effect lib db call with ⟨_, hnext, _⟩ | ⟨_, hin⟩
  · rw [hnext]
    exact h
  · exact h.ingested hin

/-- A call keeps the fold exactly if its event is not shallower. -/
theorem folded_next_iff (hinv : db.Inv) (h : db.Folded) : call.NotShallower lib db ↔ (call.next lib db).Folded := by
  rcases effect lib db call with ⟨_, hnext, hnot⟩ | ⟨_, hin⟩
  · rw [hnext]
    exact ⟨fun _ => h, fun _ => hnot⟩
  · exact ⟨h.ingested hinv hin, h.notShallower hin⟩

/-- The events of accepted calls are remembered. -/
theorem remembers_run (calls : List IngestCall) {events : Set Event}
    (haccepted : Along (fun db call => next lib db call) (fun db call => Accepted lib db call) db calls)
    (hinv : db.Inv) (h : db.Remembers events) :
    (runFrom (fun db call => next lib db call) db calls).Remembers
      (events ∪ {e | ∃ event ∈ calls.map IngestCall.event, lib.sanitizeEventForStorage event = e}) := by
  induction calls generalizing db events with
  | nil => simpa using h
  | cons call calls ih =>
    obtain ⟨hcall, hcalls⟩ := haccepted
    rcases effect lib db call with ⟨hraised, _⟩ | ⟨_, hin⟩
    · exact absurd hcall hraised
    · have hrest := ih hcalls (inv_next hinv) (h.ingested hinv hin)
      have hset : insert (lib.sanitizeEventForStorage call.event) events ∪
          {e | ∃ event ∈ calls.map IngestCall.event, lib.sanitizeEventForStorage event = e} =
          events ∪ {e | ∃ event ∈ (call :: calls).map IngestCall.event,
            lib.sanitizeEventForStorage event = e} := by
        ext e
        simp only [Set.mem_union, Set.mem_insert_iff, Set.mem_ofPred_eq, List.map_cons,
          List.mem_cons, exists_eq_or_imp]
        tauto
      rw [hset] at hrest
      exact hrest

end IngestCall

/-- **An asset row is the fold of its observations** after every call of a run exactly if no event of
    the run comes again shallower than its asset; and the assets of ingested events do not depend on
    their order. -/
theorem asset_rows_fold (lib : Sanitizer) (calls : List IngestCall) :
    (Along (fun db call => IngestCall.next lib db call)
        (fun db call => IngestCall.NotShallower lib db call) .empty calls ↔
      Along (fun db call => IngestCall.next lib db call)
        (fun db call => (IngestCall.next lib db call).Folded) .empty calls) ∧
    ∀ calls', (calls.map IngestCall.event).Perm (calls'.map IngestCall.event) →
      Along (fun db call => IngestCall.next lib db call)
        (fun db call => IngestCall.Accepted lib db call) .empty calls →
      Along (fun db call => IngestCall.next lib db call)
        (fun db call => IngestCall.Accepted lib db call) .empty calls' →
      ∀ key, ((runFrom (fun db call => IngestCall.next lib db call) .empty calls).assetOf key).map
          (fun e => e.2.summary) =
        ((runFrom (fun db call => IngestCall.next lib db call) .empty calls').assetOf key).map
          fun e => e.2.summary := by
  constructor
  · apply Along.iff_of_invariant (P := fun db => db.Inv ∧ db.Folded)
    · exact ⟨EventDb.inv_empty, fun _ _ h => nomatch h⟩
    · intro db call ⟨hinv, hfolded⟩
      exact IngestCall.folded_next_iff hinv hfolded
    · intro db call ⟨hinv, hfolded⟩ hnot
      exact ⟨IngestCall.inv_next hinv, (IngestCall.folded_next_iff hinv hfolded).mp hnot⟩
  · intro calls' hperm haccepted haccepted' key
    have h := IngestCall.remembers_run calls haccepted EventDb.inv_empty EventDb.remembers_empty
    have h' := IngestCall.remembers_run calls' haccepted' EventDb.inv_empty EventDb.remembers_empty
    -- the same events are remembered
    simp only [hperm.mem_iff] at h
    exact h.summary_eq h' key

/-! ## An event that comes again -/

/-- Texts that need no rewriting. -/
def plainSanitizer : Sanitizer := ⟨id, id⟩

/-- A name, seen at the given time and depth. -/
def nameSeen (eventId : String) (seen : Instant) (depth : ℕ) : IngestCall where
  event := {
    eventId
    type := .dnsName
    value := "api.example.com"
    source := ⟨"subfinder", by decide, by decide⟩
    firstSeen := seen
    lastSeen := seen
    depth
    confidence_unit := zero_unit
    novelty_unit := zero_unit }
  assetId := "ast_name"

/-- A name is seen twice, the first time again and deeper; in either order the asset is the same. -/
theorem asset_rows_fold_names :
    Along (fun db call => IngestCall.next plainSanitizer db call)
        (fun db call => (IngestCall.next plainSanitizer db call).Folded) .empty
        [nameSeen "evt_x" 5 1, nameSeen "evt_y" 3 2, nameSeen "evt_x" 9 4] ∧
      ((runFrom (fun db call => IngestCall.next plainSanitizer db call) .empty
          [nameSeen "evt_x" 5 1, nameSeen "evt_y" 3 2]).assetOf "DNS_NAME:api.example.com").map
            (fun e => e.2.summary) =
        ((runFrom (fun db call => IngestCall.next plainSanitizer db call) .empty
          [nameSeen "evt_y" 3 2, nameSeen "evt_x" 5 1]).assetOf "DNS_NAME:api.example.com").map
            fun e => e.2.summary :=
  ⟨(asset_rows_fold plainSanitizer _).1.mp (by decide +kernel),
    (asset_rows_fold plainSanitizer [nameSeen "evt_x" 5 1, nameSeen "evt_y" 3 2]).2
      [nameSeen "evt_y" 3 2, nameSeen "evt_x" 5 1] (.swap _ _ []) (by decide +kernel) (by decide +kernel) _⟩

/-- A name comes again from nearer the root: the asset is at depth 1, its only observation at 3. -/
theorem nearer_again_is_forgotten :
    ¬ Along (fun db call => IngestCall.next plainSanitizer db call)
      (fun db call => (IngestCall.next plainSanitizer db call).Folded) .empty
      [nameSeen "evt_x" 5 3, nameSeen "evt_x" 5 1] := by
  intro h
  obtain ⟨hfirst, hsecond, _⟩ := h
  have hnot := (IngestCall.folded_next_iff (IngestCall.inv_next EventDb.inv_empty) hfirst).mpr hsecond
  revert hnot
  decide +kernel

end NightScout
