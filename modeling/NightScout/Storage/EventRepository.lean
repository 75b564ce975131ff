import NightScout.Core.Events

/-!
# `EventRepository`

The ingestion of `recon/storage/database.py`: one row an observation, under the identifier of its event,
and one row an asset, which summarizes the observations of one identity. An event is inserted with a new
asset, inserted under a known one, or merged into the row its identifier already has; each is one
transaction, and one that raises leaves the database as it was.

A set that is stored as a sorted list is a `Finset` here.
-/

namespace NightScout

open Lib

/-- The precedence of `_merge_scope_state`. -/
def ScopeState.precedence : ScopeState → ℕ
  | unknown => 0 | inScope => 1 | passiveOnly => 2 | ambiguous => 3 | outOfScope => 4

def mergeScopeState (current incoming : ScopeState) : ScopeState :=
  if incoming.precedence > current.precedence then incoming else current

structure AssetRecord where
  eventType : EventType
  value : String
  identityKey : String
  firstSeen : Instant
  lastSeen : Instant
  scopeState : ScopeState
  confidence : ℚ
  novelty : ℚ
  minDepth : ℕ
  tags : Finset String
  metadata : Metadata

structure EventObservationRecord where
  assetId : String
  runId : Option String
  eventType : EventType
  value : String
  source : Stripped
  parentEventId : Option String
  firstSeen : Instant
  lastSeen : Instant
  scopeState : ScopeState
  confidence : ℚ
  novelty : ℚ
  depth : ℕ
  tags : Finset String
  metadata : Metadata

structure EventWriteResult where
  eventId : String
  assetId : String
  assetCreated : Bool
  observationCreated : Bool
  deriving DecidableEq

/-- The tables `assets` and `event_observations`. -/
structure EventDb where
  assets : Dict String AssetRecord
  observations : Dict String EventObservationRecord

/-- The asset of a first observation. -/
def AssetRecord.ofEvent (event : Event) : AssetRecord where
  eventType := event.type
  value := event.value
  identityKey := event.identityKey
  firstSeen := event.firstSeen
  lastSeen := event.lastSeen
  scopeState := event.scopeState
  confidence := event.confidence
  novelty := event.novelty
  minDepth := event.depth
  tags := event.tags
  metadata := event.metadata

/-- `_merge_asset`. -/
def AssetRecord.merge (asset : AssetRecord) (event : Event) : AssetRecord :=
  { asset with
    firstSeen := min asset.firstSeen event.firstSeen
    lastSeen := max asset.lastSeen event.lastSeen
    confidence := max asset.confidence event.confidence
    novelty := max asset.novelty event.novelty
    minDepth := min asset.minDepth event.depth
    scopeState := mergeScopeState asset.scopeState event.scopeState
    tags := asset.tags ∪ event.tags
    metadata := asset.metadata.update event.metadata }

namespace EventObservationRecord

def ofEvent (event : Event) (assetId : String) (runId : Option String) : EventObservationRecord where
  assetId
  runId
  eventType := event.type
  value := event.value
  source := event.source
  parentEventId := event.parentEventId
  firstSeen := event.firstSeen
  lastSeen := event.lastSeen
  scopeState := event.scopeState
  confidence := event.confidence
  novelty := event.novelty
  depth := event.depth
  tags := event.tags
  metadata := event.metadata

/-- The row is of the same observation as the event. -/
def SameObservation (row : EventObservationRecord) (event : Event) : Prop :=
  row.eventType = event.type ∧ row.value = event.value ∧ row.source = event.source

instance (row : EventObservationRecord) (event : Event) : Decidable (row.SameObservation event) :=
  inferInstanceAs (Decidable (_ ∧ _ ∧ _))

/-- `_merge_observation`. The depth stays that of the first event. -/
def merge (row : EventObservationRecord) (event : Event) : EventObservationRecord :=
  { row with
    firstSeen := min row.firstSeen event.firstSeen
    lastSeen := max row.lastSeen event.lastSeen
    confidence := max row.confidence event.confidence
    novelty := max row.novelty event.novelty
    scopeState := mergeScopeState row.scopeState event.scopeState
    tags := row.tags ∪ event.tags
    metadata := row.metadata.update event.metadata }

end EventObservationRecord

namespace EventDb

def empty : EventDb := ⟨.empty, .empty⟩

/-- The asset of an identity. -/
def assetOf (db : EventDb) (identityKey : String) : Option (String × AssetRecord) :=
  db.assets.entries.find? fun e => e.2.identityKey = identityKey

/-- The foreign keys of a new observation, with whether the row of its run is stored. -/
def ForeignKeys (db : EventDb) (event : Event) (runStored : Bool) : Prop :=
  (∀ parent ∈ event.parentEventId,
    parent = event.eventId ∨ (db.observations.get? parent).isSome = true) ∧ runStored = true

instance (db : EventDb) (event : Event) (runStored : Bool) :
    Decidable (db.ForeignKeys event runStored) := inferInstanceAs (Decidable (_ ∧ _))

/-- `ingest`, of a sanitized event. -/
def ingestSanitized (db : EventDb) (event : Event) (runId : Option String) (assetId : String)
    (runStored : Bool) : Except PyError EventWriteResult × EventDb :=
  match db.observations.get? event.eventId with
  | some existing =>
    if ¬ existing.SameObservation event then
      (.error (.valueError
        s!"event_id {event.eventId} already refers to a different observation"), db)
    else
      match db.assets.get? existing.assetId with
      | none => (.error (.runtimeError "event observation references missing asset"), db)
      | some asset =>
        (.ok ⟨event.eventId, existing.assetId, false, false⟩,
          { assets := db.assets.set existing.assetId (asset.merge event)
            observations := db.observations.set event.eventId (existing.merge event) })
  | none =>
    match db.assetOf event.identityKey with
    | some (knownId, asset) =>
      if db.ForeignKeys event runStored then
        (.ok ⟨event.eventId, knownId, false, true⟩,
          { assets := db.assets.set knownId (asset.merge event)
            observations := db.observations.set event.eventId (.ofEvent event knownId runId) })
      else (.error (.integrityError "event_observations: FOREIGN KEY constraint failed"), db)
    | none =>
      if db.ForeignKeys event runStored ∧ db.assets.get? assetId = none then
        (.ok ⟨event.eventId, assetId, true, true⟩,
          { assets := db.assets.set assetId (.ofEvent event)
            observations := db.observations.set event.eventId (.ofEvent event assetId runId) })
      else (.error (.integrityError "event_observations: constraint failed"), db)

/-- `EventRepository.ingest`, with the identifier a new asset would get and whether the row of the run
    is stored. -/
def ingest (lib : Sanitizer) (db : EventDb) (event : Event) (runId : Option String) (assetId : String)
    (runStored : Bool) : Except PyError EventWriteResult × EventDb :=
  db.ingestSanitized (lib.sanitizeEventForStorage event) runId assetId runStored

theorem sanitize_eventId (lib : Sanitizer) (event : Event) :
    (lib.sanitizeEventForStorage event).eventId = event.eventId := by
  unfold Sanitizer.sanitizeEventForStorage
  simp only
  split <;> rfl

/-- There is an observation of the event. -/
def Stored (db : EventDb) (eventId : String) : Prop := db.observations.get? eventId ≠ none

instance (db : EventDb) (eventId : String) : Decidable (db.Stored eventId) :=
  inferInstanceAs (Decidable (¬ _ = none))

/-- What an ingestion does to which observations there are. -/
theorem ingest_stored (lib : Sanitizer) (db : EventDb) (event : Event) (runId : Option String)
    (assetId : String) (runStored : Bool) : (∃ e, db.ingest lib event runId assetId runStored = (.error e, db)) ∨
      ∃ result db', db.ingest lib event runId assetId runStored = (.ok result, db') ∧
        (result.observationCreated = true ↔ ¬ db.Stored event.eventId) ∧
        ∀ id, db'.Stored id ↔ id = event.eventId ∨ db.Stored id := by
  have hid := sanitize_eventId lib event
  have hset : ∀ (assets : Dict String AssetRecord) (row : EventObservationRecord) (id : String),
      Stored ⟨assets, db.observations.set event.eventId row⟩ id ↔
        id = event.eventId ∨ db.Stored id := by
    intro assets row id
    unfold Stored
    rw [Dict.get?_set]
    split
    next heq => simp [heq]
    next hne => simp [hne]
  unfold ingest ingestSanitized
  rw [hid]
  cases hrow : db.observations.get? event.eventId with
  | some row =>
    have hstored : db.Stored event.eventId := by
      unfold Stored
      rw [hrow]
      exact Option.some_ne_none _
    by_cases hsame : row.SameObservation (lib.sanitizeEventForStorage event)
    · cases hasset : db.assets.get? row.assetId with
      | none =>
        simp only [hsame, not_true_eq_false, if_false, hasset]
        exact .inl ⟨_, rfl⟩
      | some asset =>
        simp only [hsame, not_true_eq_false, if_false, hasset]
        exact .inr ⟨_, _, rfl, by simp [hstored], hset _ _⟩
    · simp only [hsame, not_false_eq_true, if_true]
      exact .inl ⟨_, rfl⟩
  | none =>
    have hnew : ¬ db.Stored event.eventId := not_not.mpr hrow
    cases hfind : db.assetOf (lib.sanitizeEventForStorage event).identityKey with
    | some e =>
      by_cases hfk : db.ForeignKeys (lib.sanitizeEventForStorage event) runStored
      · simp only [hfk, if_true]
        exact .inr ⟨_, _, rfl, by simp [hnew], hset _ _⟩
      · simp only [hfk, if_false]
        exact .inl ⟨_, rfl⟩
    | none =>
      by_cases hfk : db.ForeignKeys (lib.sanitizeEventForStorage event) runStored ∧
          db.assets.get? assetId = none
      · simp only [if_pos hfk]
        exact .inr ⟨_, _, rfl, by simp [hnew], hset _ _⟩
      · simp only [if_neg hfk]
        exact .inl ⟨_, rfl⟩

end EventDb

end NightScout
