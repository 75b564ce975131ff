import NightScout.Lib.Reachability
import NightScout.Storage.EventRepository

/-!
# `ProvenanceRepository`

The causal part of `recon/storage/provenance.py`: which observation an observation came from. It is stored
twice, as edges of the table `provenance_edges` and as the primary parent of an observation. An edge is
added, or merged into the one of the same parent, child, relation and source, in one transaction; a causal
edge is refused if its child already leads to its parent.
-/

namespace NightScout

open Lib Relation

inductive ProvenanceRelation where
  | discoveredFrom | extractedFrom | derivedFrom | generatedFrom | resolvedFrom | confirmedFrom
  | historicalFrom
  | correlatedFrom
  deriving DecidableEq, Repr

def ProvenanceRelation.isCausal (relation : ProvenanceRelation) : Bool := relation ≠ correlatedFrom

structure ProvenanceEdgeRecord where
  parentEventId : String
  childEventId : String
  relation : ProvenanceRelation
  source : String
  confidence : ℚ
  createdAt : Instant
  metadata : Metadata

/-- An edge, with its identifier. -/
structure ProvenanceEdge extends ProvenanceEdgeRecord where
  edgeId : String

/-- The arguments of `add_edge`, with the identifier and the clock of a new edge. -/
structure AddEdge where
  parentEventId : String
  childEventId : String
  relation : ProvenanceRelation
  source : String
  confidence : ℚ := 1
  metadata : Metadata := .empty
  setPrimaryParentIfEmpty : Bool := true
  edgeId : String
  now : Instant

/-- The observations and the table `provenance_edges`. -/
structure ProvenanceDb where
  events : EventDb
  edges : Dict String ProvenanceEdgeRecord

namespace ProvenanceDb

def empty : ProvenanceDb := ⟨.empty, .empty⟩

variable (db : ProvenanceDb)

/-! ## The search for a cycle -/

/-- The two queries of one layer: the children of causal edges, and the observations whose primary parent is
    in the frontier. -/
def layer (frontier : List String) : List String :=
  (db.edges.values.filter fun record =>
    record.parentEventId ∈ frontier ∧ record.relation.isCausal = true).map (·.childEventId) ++
  (db.events.observations.entries.filter fun e =>
    ∃ parent ∈ frontier, e.2.parentEventId = some parent).map Prod.fst

/-- Every child there is. -/
def children : List String := db.edges.values.map (·.childEventId) ++ db.events.observations.keys

/-- `_would_create_cycle`. The loop ends when a layer is empty, at the latest when all children were
    visited. -/
def wouldCreateCycle (parentEventId childEventId : String) : Bool :=
  layerSearch db.layer parentEventId (db.children.length + 1) [childEventId] [childEventId]

/-! ## Adding an edge -/

/-- The edge of the same parent, child, relation and source. -/
def edgeOf (parent child : String) (relation : ProvenanceRelation) (source : String) :
    Option (String × ProvenanceEdgeRecord) :=
  db.edges.entries.find? fun e => e.2.parentEventId = parent ∧ e.2.childEventId = child ∧
    e.2.relation = relation ∧ e.2.source = source

/-- The primary parent of the child, if it has none and the call sets it. -/
def setPrimaryParent (call : AddEdge) (parent child : String) (row : EventObservationRecord) :
    EventDb :=
  if call.setPrimaryParentIfEmpty = true ∧ row.parentEventId = none then
    { db.events with
      observations := db.events.observations.set child { row with parentEventId := some parent } }
  else db.events

/-- The writes of `add_edge`. -/
def writeEdge (call : AddEdge) (parent child source : String) (row : EventObservationRecord) :
    Except PyError ProvenanceEdge × ProvenanceDb :=
  match db.edgeOf parent child call.relation source with
  | none =>
    if db.edges.get? call.edgeId ≠ none then
      (.error (.integrityError "provenance_edges: constraint failed"), db)
    else
      let record : ProvenanceEdgeRecord :=
        { parentEventId := parent, childEventId := child, relation := call.relation, source
          confidence := call.confidence, createdAt := call.now, metadata := call.metadata }
      (.ok { record with edgeId := call.edgeId },
        { events := db.setPrimaryParent call parent child row
          edges := db.edges.set call.edgeId record })
  | some (edgeId, existing) =>
    let record : ProvenanceEdgeRecord :=
      { existing with
        confidence := max existing.confidence call.confidence
        metadata := existing.metadata.update call.metadata }
    (.ok { record with edgeId },
      { events := db.setPrimaryParent call parent child row
        edges := db.edges.set edgeId record })

def addEdge (call : AddEdge) : Except PyError ProvenanceEdge × ProvenanceDb :=
  let parent := strip call.parentEventId
  let child := strip call.childEventId
  let source := strip call.source
  if parent = "" ∨ child = "" then
    (.error (.valueError "parent_event_id and child_event_id are required"), db)
  else if parent = child then
    (.error (.valueError "provenance self-edges are not allowed"), db)
  else if source = "" then (.error (.valueError "source must not be blank"), db)
  else if ¬ (0 ≤ call.confidence ∧ call.confidence ≤ 1) then
    (.error (.valueError "confidence must be between 0 and 1"), db)
  else
    match db.events.observations.get? parent, db.events.observations.get? child with
    | none, _ => (.error (.keyError s!"unknown parent event: {parent}"), db)
    | some _, none => (.error (.keyError s!"unknown child event: {child}"), db)
    | some _, some row =>
      if call.relation.isCausal = true ∧ db.wouldCreateCycle parent child = true then
        (.error (.valueError
          s!"causal provenance edge would create a lineage cycle: {parent} -> {child}"), db)
      else db.writeEdge call parent child source row

/-- `capture_primary_parent`, with the identifier and the clock of a new edge. -/
def capturePrimaryParent (childEventId : String) (relation : ProvenanceRelation) (source : String)
    (edgeId : String) (now : Instant) : Except PyError (Option ProvenanceEdge) × ProvenanceDb :=
  match db.events.observations.get? childEventId with
  | none => (.error (.keyError s!"unknown child event: {childEventId}"), db)
  | some child =>
    match child.parentEventId with
    | none => (.ok none, db)
    | some parentEventId =>
      let r := db.addEdge
        { parentEventId, childEventId, relation, source, setPrimaryParentIfEmpty := false, edgeId, now }
      (r.1.map some, r.2)

/-! ## The causal relation -/

/-- A causal edge. -/
def CausalEdge (parent child : String) : Prop :=
  ∃ id record, db.edges.get? id = some record ∧ record.relation.isCausal = true ∧
    record.parentEventId = parent ∧ record.childEventId = child

/-- A primary parent. -/
def PrimaryParent (parent child : String) : Prop :=
  ∃ row, db.events.observations.get? child = some row ∧ row.parentEventId = some parent

/-- What the child came from: an edge or the primary parent. -/
def Causes (parent child : String) : Prop := db.CausalEdge parent child ∨ db.PrimaryParent parent child

variable {db}

theorem layers (db : ProvenanceDb) : Layers db.Causes db.layer db.children where
  mem frontier child := by
    unfold layer
    rw [List.mem_append, List.mem_map, List.mem_map]
    constructor
    · rintro (⟨record, hrecord, rfl⟩ | ⟨⟨id, row⟩, hrow, rfl⟩)
      · obtain ⟨hmem, hcond⟩ := List.mem_filter.mp hrecord
        obtain ⟨hparent, hcausal⟩ := of_decide_eq_true hcond
        obtain ⟨id, hid⟩ := Dict.mem_values_iff.mp hmem
        exact ⟨_, hparent, .inl ⟨id, record, hid, hcausal, rfl, rfl⟩⟩
      · obtain ⟨hmem, hcond⟩ := List.mem_filter.mp hrow
        obtain ⟨parent, hparent, hpointer⟩ := of_decide_eq_true hcond
        exact ⟨parent, hparent, .inr ⟨row, Dict.mem_entries_iff.mp hmem, hpointer⟩⟩
    · rintro ⟨parent, hparent, ⟨id, record, hid, hcausal, rfl, rfl⟩ | ⟨row, hrow, hpointer⟩⟩
      · left
        refine ⟨record, List.mem_filter.mpr ⟨Dict.mem_values_iff.mpr ⟨id, hid⟩, ?_⟩, rfl⟩
        exact decide_eq_true ⟨hparent, hcausal⟩
      · right
        refine ⟨(child, row), List.mem_filter.mpr ⟨Dict.mem_entries_iff.mpr hrow, ?_⟩, rfl⟩
        exact decide_eq_true ⟨parent, hparent, hpointer⟩
  subset frontier child hchild := by
    unfold layer at hchild
    unfold children
    rcases List.mem_append.mp hchild with hchild | hchild
    · obtain ⟨record, hrecord, rfl⟩ := List.mem_map.mp hchild
      exact List.mem_append_left _ (List.mem_map_of_mem (List.mem_filter.mp hrecord).1)
    · obtain ⟨e, he, rfl⟩ := List.mem_map.mp hchild
      exact List.mem_append_right _ (List.mem_map_of_mem (List.mem_filter.mp he).1)

/-- The search is right. -/
theorem wouldCreateCycle_iff (db : ProvenanceDb) {parent child : String} (h : parent ≠ child) :
    db.wouldCreateCycle parent child = true ↔ ReflTransGen db.Causes child parent :=
  layerSearch_iff db.layers h

/-! ## What an addition does -/

theorem causalEdge_set (events : EventDb) {edges : Dict String ProvenanceEdgeRecord} {id : String}
    {record : ProvenanceEdgeRecord} (hold : ∀ old, edges.get? id = some old → old.parentEventId = record.parentEventId ∧
      old.childEventId = record.childEventId ∧ old.relation = record.relation) (x y : String) :
    (ProvenanceDb.mk events (edges.set id record)).CausalEdge x y ↔ (ProvenanceDb.mk events edges).CausalEdge x y ∨
        record.relation.isCausal = true ∧ x = record.parentEventId ∧ y = record.childEventId := by
  constructor
  · rintro ⟨key, found, hfound, hcausal, rfl, rfl⟩
    have hfound : (edges.set id record).get? key = some found := hfound
    rw [Dict.get?_set] at hfound
    split at hfound
    next =>
      cases hfound
      exact .inr ⟨hcausal, rfl, rfl⟩
    next => exact .inl ⟨key, found, hfound, hcausal, rfl, rfl⟩
  · rintro (⟨key, found, hfound, hcausal, rfl, rfl⟩ | ⟨hcausal, rfl, rfl⟩)
    · by_cases hkey : key = id
      · subst hkey
        obtain ⟨hparent, hchild, hrelation⟩ := hold found hfound
        exact ⟨key, record, Dict.get?_set_self _ _ _, hrelation ▸ hcausal, hparent.symm, hchild.symm⟩
      · exact ⟨key, found, (Dict.get?_set_ne _ _ hkey).trans hfound, hcausal, rfl, rfl⟩
    · exact ⟨id, record, Dict.get?_set_self _ _ _, hcausal, rfl, rfl⟩

/-- The call sets the primary parent of the child. -/
def SetsPrimaryParent (db : ProvenanceDb) (call : AddEdge) : Prop :=
  call.setPrimaryParentIfEmpty = true ∧
    ∃ row, db.events.observations.get? (strip call.childEventId) = some row ∧ row.parentEventId = none

theorem primaryParent_set {db : ProvenanceDb} (call : AddEdge) (parent : String) {child : String}
    {row : EventObservationRecord} (hrow : db.events.observations.get? child = some row)
    (edges : Dict String ProvenanceEdgeRecord) (x y : String) :
    (ProvenanceDb.mk (db.setPrimaryParent call parent child row) edges).PrimaryParent x y ↔
      db.PrimaryParent x y ∨ (call.setPrimaryParentIfEmpty = true ∧ row.parentEventId = none) ∧
        x = parent ∧ y = child := by
  unfold setPrimaryParent
  split
  next hset =>
    constructor
    · rintro ⟨found, hfound, hparent⟩
      have hfound : (db.events.observations.set child { row with parentEventId := some parent }).get? y =
          some found := hfound
      rw [Dict.get?_set] at hfound
      split at hfound
      next heq =>
        cases hfound
        exact .inr ⟨hset, (Option.some.inj hparent).symm, heq⟩
      next => exact .inl ⟨found, hfound, hparent⟩
    · rintro (⟨found, hfound, hparent⟩ | ⟨_, rfl, rfl⟩)
      · have hne : y ≠ child := by
          rintro rfl
          rw [hrow] at hfound
          cases hfound
          rw [hset.2] at hparent
          cases hparent
        exact ⟨found, (Dict.get?_set_ne _ _ hne).trans hfound, hparent⟩
      · exact ⟨_, Dict.get?_set_self _ _ _, rfl⟩
  next hset =>
    constructor
    · exact .inl
    · rintro (h | ⟨h, _⟩)
      · exact h
      · exact absurd h hset

theorem stored_setPrimaryParent {db : ProvenanceDb} {call : AddEdge} {parent child : String}
    {row : EventObservationRecord} (hrow : db.events.observations.get? child = some row) (id : String) :
    (db.setPrimaryParent call parent child row).Stored id ↔ db.events.Stored id := by
  unfold setPrimaryParent
  split
  · unfold EventDb.Stored
    simp only [Dict.get?_set]
    split
    next heq => simp [heq, hrow]
    next => exact Iff.rfl
  · exact Iff.rfl

/-- The causal relation after the call: with the new edge if it is causal or sets the pointer. -/
structure Added (db : ProvenanceDb) (call : AddEdge) (db' : ProvenanceDb) : Prop where
  distinct : strip call.parentEventId ≠ strip call.childEventId
  parent : db.events.Stored (strip call.parentEventId)
  child : db.events.Stored (strip call.childEventId)
  checked : call.relation.isCausal = true →
    ¬ ReflTransGen db.Causes (strip call.childEventId) (strip call.parentEventId)
  stored : ∀ id, db'.events.Stored id ↔ db.events.Stored id
  causes : ∀ x y, db'.Causes x y ↔ db.Causes x y ∨
    (call.relation.isCausal = true ∨ db.SetsPrimaryParent call) ∧
      x = strip call.parentEventId ∧ y = strip call.childEventId

theorem writeEdge_cases (call : AddEdge) {parent child source : String} {row : EventObservationRecord}
    (hrow : db.events.observations.get? child = some row) :
    (∃ e, db.writeEdge call parent child source row = (.error e, db)) ∨
      ∃ edge db', db.writeEdge call parent child source row = (.ok edge, db') ∧
        (∀ id, db'.events.Stored id ↔ db.events.Stored id) ∧ ∀ x y, db'.Causes x y ↔ db.Causes x y ∨
          (call.relation.isCausal = true ∨ call.setPrimaryParentIfEmpty = true ∧ row.parentEventId = none) ∧
            x = parent ∧ y = child := by
  -- both writes set one edge and perhaps the pointer
  have hwrite : ∀ (id : String) (record : ProvenanceEdgeRecord),
      record.parentEventId = parent → record.childEventId = child → record.relation = call.relation →
      (∀ old, db.edges.get? id = some old → old.parentEventId = record.parentEventId ∧
        old.childEventId = record.childEventId ∧ old.relation = record.relation) →
      ∀ x y, (ProvenanceDb.mk (db.setPrimaryParent call parent child row)
          (db.edges.set id record)).Causes x y ↔ db.Causes x y ∨
        (call.relation.isCausal = true ∨
          call.setPrimaryParentIfEmpty = true ∧ row.parentEventId = none) ∧ x = parent ∧ y = child := by
    intro id record hparent hchild hrelation hold x y
    have hedge := causalEdge_set (db.setPrimaryParent call parent child row) hold x y
    have hpointer := primaryParent_set call parent hrow
      (db.edges.set id record) x y
    rw [hparent, hchild, hrelation] at hedge
    have hsame : (ProvenanceDb.mk (db.setPrimaryParent call parent child row) db.edges).CausalEdge x y ↔
        db.CausalEdge x y := Iff.rfl
    unfold Causes
    rw [hedge, hpointer, hsame]
    tauto
  unfold writeEdge
  cases hedge : db.edgeOf parent child call.relation source with
  | none =>
    by_cases hid : db.edges.get? call.edgeId = none
    · right
      refine ⟨_, _, if_neg (not_not.mpr hid), stored_setPrimaryParent hrow, ?_⟩
      refine hwrite call.edgeId _ rfl rfl rfl fun old hold => ?_
      rw [hid] at hold
      cases hold
    · left
      exact ⟨_, if_pos hid⟩
  | some e =>
    right
    have hfound := List.find?_some hedge
    obtain ⟨hparent, hchild, hrelation, _⟩ := of_decide_eq_true hfound
    have hget := Dict.mem_entries_iff.mp (List.mem_of_find?_eq_some hedge)
    refine ⟨_, _, rfl, stored_setPrimaryParent hrow, ?_⟩
    refine hwrite e.1 _ hparent hchild hrelation fun old hold => ?_
    have hold : old = e.2 := Option.some.inj (hold.symm.trans hget)
    rw [hold]
    exact ⟨rfl, rfl, rfl⟩

theorem addEdge_cases (db : ProvenanceDb) (call : AddEdge) : (∃ e, db.addEdge call = (.error e, db)) ∨
      ∃ edge db', db.addEdge call = (.ok edge, db') ∧ db.Added call db' := by
  unfold addEdge
  simp only
  by_cases hblank : strip call.parentEventId = "" ∨ strip call.childEventId = ""
  · exact .inl ⟨_, if_pos hblank⟩
  rw [if_neg hblank]
  by_cases hself : strip call.parentEventId = strip call.childEventId
  · exact .inl ⟨_, if_pos hself⟩
  rw [if_neg hself]
  by_cases hsource : strip call.source = ""
  · exact .inl ⟨_, if_pos hsource⟩
  rw [if_neg hsource]
  by_cases hconfidence : 0 ≤ call.confidence ∧ call.confidence ≤ 1
  · rw [if_neg (not_not.mpr hconfidence)]
    cases hparent : db.events.observations.get? (strip call.parentEventId) with
    | none => exact .inl ⟨_, rfl⟩
    | some parentRow =>
      cases hchild : db.events.observations.get? (strip call.childEventId) with
      | none => exact .inl ⟨_, rfl⟩
      | some row =>
        simp only
        by_cases hcycle : call.relation.isCausal = true ∧
            db.wouldCreateCycle (strip call.parentEventId) (strip call.childEventId) = true
        · exact .inl ⟨_, if_pos hcycle⟩
        · rw [if_neg hcycle]
          rcases writeEdge_cases call hchild with ⟨e, hrun⟩ | ⟨edge, db', hrun, hstored, hcauses⟩
          · exact .inl ⟨e, hrun⟩
          · right
            refine ⟨edge, db', hrun, hself, ?_, ?_, ?_, hstored, ?_⟩
            · unfold EventDb.Stored
              rw [hparent]
              exact Option.some_ne_none _
            · unfold EventDb.Stored
              rw [hchild]
              exact Option.some_ne_none _
            · intro hcausal hreach
              exact hcycle ⟨hcausal, (wouldCreateCycle_iff db hself).mpr hreach⟩
            · intro x y
              have hsets : db.SetsPrimaryParent call ↔
                  call.setPrimaryParentIfEmpty = true ∧ row.parentEventId = none := by
                unfold SetsPrimaryParent
                rw [hchild]
                simp
              rw [hcauses x y, hsets]
  · exact .inl ⟨_, if_pos hconfidence⟩

end ProvenanceDb

end NightScout
