import Mathlib.Data.Prod.Lex
import NightScout.Lib.OrderedSets
import NightScout.Lib.ShortestPaths
import NightScout.Storage.Provenance

/-!
# Lineage queries

`ancestors`, `descendants` and `shortest_path` of `recon/storage/provenance.py`, over the graph whose edges are the
rows of `provenance_edges`, causal or not, and the primary parents that no such row stands for.

The rows of a query without an order come in the order of the table here.
-/

namespace NightScout

open Lib

structure LineageNode where
  eventId : String
  assetId : String
  eventType : EventType
  value : String
  source : Stripped
  primaryParentEventId : Option String
  depthFromFocus : ℕ
  confidence : ℚ
  firstSeen : Instant
  lastSeen : Instant
  tags : List String

structure LineageEdge where
  edgeId : String
  parentEventId : String
  childEventId : String
  relation : ProvenanceRelation
  source : String
  confidence : ℚ
  implicitPrimaryParent : Bool := false

inductive TraceDirection where
  | ancestors | descendants
  deriving DecidableEq, Repr

structure ProvenanceTrace where
  focusEventId : String
  direction : TraceDirection
  maxDepth : ℤ
  nodes : List LineageNode
  edges : List LineageEdge

structure ProvenancePath where
  startEventId : String
  endEventId : String
  nodes : List LineageNode
  edges : List LineageEdge

def ProvenanceRelation.value : ProvenanceRelation → String
  | discoveredFrom => "DISCOVERED_FROM"
  | extractedFrom => "EXTRACTED_FROM"
  | derivedFrom => "DERIVED_FROM"
  | generatedFrom => "GENERATED_FROM"
  | resolvedFrom => "RESOLVED_FROM"
  | confirmedFrom => "CONFIRMED_FROM"
  | historicalFrom => "HISTORICAL_FROM"
  | correlatedFrom => "CORRELATED_FROM"

/-- `_lineage_node_from_record`. -/
def LineageNode.ofRecord (eventId : String) (record : EventObservationRecord) (depth : ℕ) : LineageNode where
  eventId
  assetId := record.assetId
  eventType := record.eventType
  value := record.value
  source := record.source
  primaryParentEventId := record.parentEventId
  depthFromFocus := depth
  confidence := record.confidence
  firstSeen := record.firstSeen
  lastSeen := record.lastSeen
  tags := sortedTexts record.tags

namespace LineageEdge

/-- `_lineage_edge_from_record`. -/
def ofRecord (edgeId : String) (record : ProvenanceEdgeRecord) : LineageEdge where
  edgeId
  parentEventId := record.parentEventId
  childEventId := record.childEventId
  relation := record.relation
  source := record.source
  confidence := record.confidence

/-- `_implicit_primary_edge`. -/
def implicitPrimary (parentEventId childEventId : String) : LineageEdge where
  edgeId := s!"primary:{parentEventId}:{childEventId}"
  parentEventId
  childEventId
  relation := .discoveredFrom
  source := "event.parent_event_id"
  confidence := 1
  implicitPrimaryParent := true

/-- What the edges of one query are told apart by. -/
def key (edge : LineageEdge) : String × String × ProvenanceRelation × String :=
  (edge.parentEventId, edge.childEventId, edge.relation, edge.source)

/-- `_lineage_edge_identity`. -/
def identity (edge : LineageEdge) : String :=
  String.intercalate "|" [edge.parentEventId, edge.childEventId, edge.relation.value, edge.source]

end LineageEdge

namespace ProvenanceDb

variable (db : ProvenanceDb)

/-! ## The edges at a set of observations -/

/-- The rows of the table that the query picks. -/
def explicitEdges (picks : String → String → Bool) : List LineageEdge :=
  (db.edges.entries.filter fun e => picks e.2.parentEventId e.2.childEventId).map fun e =>
    LineageEdge.ofRecord e.1 e.2

/-- The primary parents that the query picks and no row of it stands for. -/
def implicitEdges (picks : String → String → Bool) : List LineageEdge :=
  db.events.observations.entries.filterMap fun e =>
    match e.2.parentEventId with
    | some parent =>
      if picks parent e.1 = true ∧
          ¬ ∃ edge ∈ db.explicitEdges picks, edge.parentEventId = parent ∧ edge.childEventId = e.1
      then some (.implicitPrimary parent e.1) else none
    | none => none

def lineageEdges (picks : String → String → Bool) : List LineageEdge :=
  (ofList LineageEdge.key (db.explicitEdges picks ++ db.implicitEdges picks)).values

def incomingEdges (childIds : List String) : List LineageEdge := db.lineageEdges fun _ child => child ∈ childIds

def outgoingEdges (parentIds : List String) : List LineageEdge := db.lineageEdges fun parent _ => parent ∈ parentIds

def loadNode (eventId : String) (depth : ℕ) : Option LineageNode :=
  (db.events.observations.get? eventId).map fun record => .ofRecord eventId record depth

/-! ## Tracing -/

/-- The edges of a level, from the frontier on. -/
def levelEdges : TraceDirection → List String → List LineageEdge
  | .ancestors, frontier => db.incomingEdges frontier
  | .descendants, frontier => db.outgoingEdges frontier

end ProvenanceDb

/-- The end of an edge that a trace goes to. -/
def LineageEdge.far (edge : LineageEdge) : TraceDirection → String
  | .ancestors => edge.parentEventId
  | .descendants => edge.childEventId

/-- The variables of the loop of `_trace`. -/
structure Tracing where
  nodes : Dict String LineageNode
  edges : Dict String LineageEdge
  frontier : List String
  visited : List String

namespace ProvenanceDb

variable (db : ProvenanceDb)

/-- The levels from `depth` on. -/
def traceLevels (direction : TraceDirection) : ℕ → ℕ → Tracing → Tracing
  | 0, _, t => t
  | levels + 1, depth, t =>
    if t.frontier = [] then t
    else
      let levelEdges := db.levelEdges direction t.frontier
      let nextIds := fromkeys ((levelEdges.map fun edge => edge.far direction).filter fun id => id ∉ t.visited)
      let edges := levelEdges.foldl (fun edges edge => edges.set edge.identity edge) t.edges
      if nextIds = [] then { t with edges }
      else
        let records := db.events.observations.entries.filter fun e => e.1 ∈ nextIds
        let nodes := records.foldl (fun nodes e => nodes.set e.1 (.ofRecord e.1 e.2 depth)) t.nodes
        traceLevels direction levels (depth + 1) { nodes, edges, visited := t.visited ++ nextIds, frontier := nextIds }

def trace (eventId : String) (direction : TraceDirection) (maxDepth : ℤ) : Except PyError ProvenanceTrace :=
  if maxDepth < 0 then .error (.valueError "max_depth cannot be negative")
  else
    match db.loadNode eventId 0 with
    | none => .error (.keyError s!"unknown event: {eventId}")
    | some focus =>
      let t := db.traceLevels direction maxDepth.toNat 1
        { nodes := Dict.empty.set eventId focus, edges := .empty, frontier := [eventId], visited := [eventId] }
      .ok
        { focusEventId := eventId
          direction
          maxDepth
          nodes := t.nodes.values.insertionSort fun a b =>
            toLex (a.depthFromFocus, toLex (a.firstSeen, a.eventId)) ≤
              toLex (b.depthFromFocus, toLex (b.firstSeen, b.eventId))
          edges := t.edges.values.insertionSort fun a b =>
            toLex (a.parentEventId, toLex (a.childEventId, toLex (a.relation.value, a.source))) ≤
              toLex (b.parentEventId, toLex (b.childEventId, toLex (b.relation.value, b.source))) }

def ancestors (eventId : String) (maxDepth : ℤ := 8) : Except PyError ProvenanceTrace :=
  db.trace eventId .ancestors maxDepth

def descendants (eventId : String) (maxDepth : ℤ := 8) : Except PyError ProvenanceTrace :=
  db.trace eventId .descendants maxDepth

/-! ## The shortest path -/

/-- The nodes of a path, by their depths. -/
def pathNodes : ℕ → List String → Except PyError (List LineageNode)
  | _, [] => .ok []
  | depth, eventId :: eventIds =>
    match db.loadNode eventId depth with
    | none => .error (.runtimeError "provenance path references missing observation")
    | some node => do
      let nodes ← pathNodes (depth + 1) eventIds
      .ok (node :: nodes)

/-- The children of the edges out of one observation. -/
def edgesFrom (eventId : String) : List LineageEdge := db.outgoingEdges [eventId]

/-- `shortest_path`. A vertex enters the queue once, and a path that is found is not longer than `max_depth`. -/
def shortestPath (startEventId endEventId : String) (maxDepth : ℤ := 16) : Except PyError (Option ProvenancePath) :=
  if maxDepth < 0 then .error (.valueError "max_depth cannot be negative")
  else if startEventId = endEventId then
    match db.loadNode startEventId 0 with
    | none => .error (.keyError s!"unknown event: {startEventId}")
    | some node => .ok (some { startEventId, endEventId, nodes := [node], edges := [] })
  else
    match db.events.observations.get? startEventId, db.events.observations.get? endEventId with
    | none, _ => .error (.keyError s!"unknown start event: {startEventId}")
    | some _, none => .error (.keyError s!"unknown end event: {endEventId}")
    | some _, some _ =>
      match pathSearch db.edgesFrom LineageEdge.childEventId endEventId maxDepth.toNat (db.children.length + 2)
          (.start startEventId) with
      | (false, _) => .ok none
      | (true, search) =>
        match walkBack search.previous startEventId maxDepth.toNat endEventId [endEventId] [] with
        | none => .error (.keyError endEventId)
        | some (eventIds, edges) => do
          let nodes ← db.pathNodes 0 eventIds
          .ok (some { startEventId, endEventId, nodes, edges })

/-! ## The lineage graph -/

/-- A row of the table, causal or not. -/
def ExplicitEdge (parent child : String) : Prop :=
  ∃ id record, db.edges.get? id = some record ∧ record.parentEventId = parent ∧ record.childEventId = child

/-- What an observation came from, or is correlated with. -/
def Lineage (parent child : String) : Prop := db.ExplicitEdge parent child ∨ db.PrimaryParent parent child

/-- The foreign keys: edges and primary parents are between observations. -/
def LineageClosed : Prop := ∀ x y, db.Lineage x y → db.events.Stored x ∧ db.events.Stored y

/-- A row as an edge, or a primary parent that has no row. -/
def IsLineageEdge (edge : LineageEdge) : Prop :=
  (∃ id record, db.edges.get? id = some record ∧ edge = .ofRecord id record) ∨
  ∃ parent child, db.PrimaryParent parent child ∧ ¬ db.ExplicitEdge parent child ∧ edge = .implicitPrimary parent child

variable {db} {picks : String → String → Bool} {edge : LineageEdge} {x y : String}

theorem IsLineageEdge.lineage (h : db.IsLineageEdge edge) : db.Lineage edge.parentEventId edge.childEventId := by
  rcases h with ⟨id, record, hrecord, rfl⟩ | ⟨parent, child, hparent, -, rfl⟩
  · exact .inl ⟨id, record, hrecord, rfl, rfl⟩
  · exact .inr hparent

theorem mem_explicitEdges : edge ∈ db.explicitEdges picks ↔
    ∃ id record, db.edges.get? id = some record ∧ picks record.parentEventId record.childEventId = true ∧
      edge = .ofRecord id record := by
  unfold explicitEdges
  rw [List.mem_map]
  constructor
  · rintro ⟨⟨id, record⟩, hmem, rfl⟩
    obtain ⟨hmem, hpicks⟩ := List.mem_filter.mp hmem
    exact ⟨id, record, Dict.mem_entries_iff.mp hmem, hpicks, rfl⟩
  · rintro ⟨id, record, hrecord, hpicks, rfl⟩
    exact ⟨(id, record), List.mem_filter.mpr ⟨Dict.mem_entries_iff.mpr hrecord, hpicks⟩, rfl⟩

theorem exists_explicitEdges_iff (hpicks : picks x y = true) :
    (∃ edge ∈ db.explicitEdges picks, edge.parentEventId = x ∧ edge.childEventId = y) ↔ db.ExplicitEdge x y := by
  constructor
  · rintro ⟨edge, hedge, hparent, hchild⟩
    obtain ⟨id, record, hrecord, -, rfl⟩ := mem_explicitEdges.mp hedge
    exact ⟨id, record, hrecord, hparent, hchild⟩
  · rintro ⟨id, record, hrecord, rfl, rfl⟩
    exact ⟨_, mem_explicitEdges.mpr ⟨id, record, hrecord, hpicks, rfl⟩, rfl, rfl⟩

theorem mem_implicitEdges : edge ∈ db.implicitEdges picks ↔
    ∃ parent child, db.PrimaryParent parent child ∧ picks parent child = true ∧ ¬ db.ExplicitEdge parent child ∧
      edge = .implicitPrimary parent child := by
  unfold implicitEdges
  rw [List.mem_filterMap]
  constructor
  · rintro ⟨⟨child, row⟩, hmem, h⟩
    have hrow := Dict.mem_entries_iff.mp hmem
    cases hparent : row.parentEventId with
    | none =>
      simp only [hparent] at h
      cases h
    | some parent =>
      simp only [hparent] at h
      obtain ⟨⟨hpicks, hnone⟩, h⟩ := Option.ite_none_right_eq_some.mp h
      rw [exists_explicitEdges_iff hpicks] at hnone
      exact ⟨parent, child, ⟨row, hrow, hparent⟩, hpicks, hnone, (Option.some.inj h).symm⟩
  · rintro ⟨parent, child, ⟨row, hrow, hparent⟩, hpicks, hnone, rfl⟩
    refine ⟨(child, row), Dict.mem_entries_iff.mpr hrow, ?_⟩
    simp only [hparent]
    exact if_pos ⟨hpicks, (exists_explicitEdges_iff hpicks).not.mpr hnone⟩

/-- Every edge of a query is one of the graph, at the observations that it asks for. -/
theorem lineageEdges_sound (h : edge ∈ db.lineageEdges picks) :
    picks edge.parentEventId edge.childEventId = true ∧ db.IsLineageEdge edge := by
  rcases List.mem_append.mp (mem_values_ofList h) with h | h
  · obtain ⟨id, record, hrecord, hpicks, rfl⟩ := mem_explicitEdges.mp h
    exact ⟨hpicks, .inl ⟨id, record, hrecord, rfl⟩⟩
  · obtain ⟨parent, child, hparent, hpicks, hnone, rfl⟩ := mem_implicitEdges.mp h
    exact ⟨hpicks, .inr ⟨parent, child, hparent, hnone, rfl⟩⟩

/-- And every pair of the graph that it asks for has an edge. -/
theorem lineageEdges_complete (hpicks : picks x y = true) (h : db.Lineage x y) :
    ∃ edge ∈ db.lineageEdges picks, edge.parentEventId = x ∧ edge.childEventId = y := by
  have hmem : ∃ edge ∈ db.explicitEdges picks ++ db.implicitEdges picks,
      edge.parentEventId = x ∧ edge.childEventId = y := by
    by_cases hexplicit : db.ExplicitEdge x y
    · obtain ⟨edge, hedge, hends⟩ := (exists_explicitEdges_iff hpicks).mpr hexplicit
      exact ⟨edge, List.mem_append_left _ hedge, hends⟩
    · have hparent := h.resolve_left hexplicit
      refine ⟨.implicitPrimary x y, List.mem_append_right _ ?_, rfl, rfl⟩
      exact mem_implicitEdges.mpr ⟨x, y, hparent, hpicks, hexplicit, rfl⟩
  obtain ⟨edge, hedge, rfl, rfl⟩ := hmem
  obtain ⟨kept, hkept⟩ : ∃ kept, (ofList LineageEdge.key (db.explicitEdges picks ++ db.implicitEdges picks)).get?
      edge.key = some kept := exists_get?_ofList hedge
  have hkey := (ofList_key hkept).2
  refine ⟨kept, Dict.mem_values_iff.mpr ⟨_, hkept⟩, ?_, ?_⟩
  · exact congrArg Prod.fst hkey
  · exact congrArg (fun k => k.2.1) hkey

end ProvenanceDb

end NightScout
