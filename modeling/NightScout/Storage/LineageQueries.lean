import NightScout.Storage.Lineage
import NightScout.Storage.ProvenanceRuns

/-!
# Lineage queries are exact

A trace has the observations within its depth, each with its distance from the focus, and edges between these; a path
is a shortest one, and there is one exactly if the distance is within the limit (`lineage_queries_exact`). All rests on
the foreign keys, which every call of the store keeps (`next_lineageClosed`).
-/

namespace NightScout

open Lib

/-- The relation that a trace follows from its focus. -/
def TraceDirection.relation (db : ProvenanceDb) : TraceDirection → String → String → Prop
  | .ancestors => fun child parent => db.Lineage parent child
  | .descendants => db.Lineage

namespace ProvenanceDb

variable {db : ProvenanceDb} {direction : TraceDirection} {focus : String}

section Levels

variable {frontier : List String} {edge : LineageEdge} {x y : String}

/-- The end of an edge that a trace comes from. -/
def near (direction : TraceDirection) (edge : LineageEdge) : String :=
  match direction with
  | .ancestors => edge.childEventId
  | .descendants => edge.parentEventId

theorem levelEdges_sound (h : edge ∈ db.levelEdges direction frontier) :
    near direction edge ∈ frontier ∧ db.IsLineageEdge edge := by
  cases direction with
  | ancestors =>
    obtain ⟨hpicks, hedge⟩ := lineageEdges_sound h
    exact ⟨of_decide_eq_true hpicks, hedge⟩
  | descendants =>
    obtain ⟨hpicks, hedge⟩ := lineageEdges_sound h
    exact ⟨of_decide_eq_true hpicks, hedge⟩

theorem relation_of_edge (h : db.IsLineageEdge edge) :
    direction.relation db (near direction edge) (edge.far direction) := by
  cases direction with
  | ancestors => exact h.lineage
  | descendants => exact h.lineage

theorem exists_far_iff : (∃ edge ∈ db.levelEdges direction frontier, edge.far direction = y) ↔
    ∃ x ∈ frontier, direction.relation db x y := by
  constructor
  · rintro ⟨edge, hedge, rfl⟩
    obtain ⟨hnear, hlineage⟩ := levelEdges_sound hedge
    exact ⟨_, hnear, relation_of_edge hlineage⟩
  · rintro ⟨x, hx, hrelation⟩
    have hpicks := decide_eq_true hx
    cases direction with
    | ancestors =>
      obtain ⟨edge, hedge, hparent, -⟩ := @lineageEdges_complete db (fun _ child => child ∈ frontier) y x hpicks hrelation
      exact ⟨edge, hedge, hparent⟩
    | descendants =>
      obtain ⟨edge, hedge, -, hchild⟩ := @lineageEdges_complete db (fun parent _ => parent ∈ frontier) x y hpicks hrelation
      exact ⟨edge, hedge, hchild⟩

theorem stored_of_relation (hclosed : db.LineageClosed) (h : direction.relation db x y) : db.events.Stored y := by
  cases direction with
  | ancestors => exact (hclosed y x h).1
  | descendants => exact (hclosed x y h).2

/-- What lies at a distance of an observation is one. -/
theorem stored_of_distance (hclosed : db.LineageClosed) (hfocus : db.events.Stored focus) {n : ℕ}
    (h : Distance (direction.relation db) n focus y) : db.events.Stored y := by
  cases n with
  | zero => rwa [distance_zero_iff.mp h]
  | succ n =>
    obtain ⟨x, -, hlast⟩ := h.exists_last
    exact stored_of_relation hclosed hlast

end Levels

/-! ## The loop of a trace -/

section Traces

variable {t : Tracing} {depth limit : ℕ} {v : String}

/-- The node of an observation at its distance. -/
def IsNode (db : ProvenanceDb) (direction : TraceDirection) (focus : String) (limit : ℕ) (v : String)
    (node : LineageNode) : Prop :=
  ∃ n ≤ limit, Distance (direction.relation db) n focus v ∧ db.loadNode v n = some node

/-- After the levels up to `depth`. -/
structure TracedTo (db : ProvenanceDb) (direction : TraceDirection) (focus : String) (depth : ℕ) (t : Tracing) :
    Prop where
  levelled : Levelled (direction.relation db) focus depth t.frontier t.visited
  nodes : ∀ v node, t.nodes.get? v = some node ↔ db.IsNode direction focus depth v node
  edges : ∀ edge ∈ t.edges.values,
    near direction edge ∈ t.visited ∧ edge.far direction ∈ t.visited ∧ db.IsLineageEdge edge

/-- When the loop has ended. -/
structure TracedUpTo (db : ProvenanceDb) (direction : TraceDirection) (focus : String) (limit : ℕ) (t : Tracing) :
    Prop where
  nodes : ∀ v node, t.nodes.get? v = some node ↔ db.IsNode direction focus limit v node
  edges : ∀ edge ∈ t.edges.values, (∃ n ≤ limit, Distance (direction.relation db) n focus (near direction edge)) ∧
    (∃ n ≤ limit, Distance (direction.relation db) n focus (edge.far direction)) ∧ db.IsLineageEdge edge

/-- At the limit, or when nothing lies further. -/
theorem TracedTo.upTo (h : TracedTo db direction focus depth t) (hlimit : depth ≤ limit)
    (hend : ∀ v n, depth < n → n ≤ limit → ¬ Distance (direction.relation db) n focus v) :
    TracedUpTo db direction focus limit t where
  nodes v node := by
    rw [h.nodes]
    constructor
    · rintro ⟨n, hn, hnode⟩
      exact ⟨n, by omega, hnode⟩
    · rintro ⟨n, hn, hdistance, hload⟩
      refine ⟨n, ?_, hdistance, hload⟩
      by_contra hfar
      exact hend v n (by omega) hn hdistance
  edges edge hedge := by
    obtain ⟨hnear, hfar, hlineage⟩ := h.edges edge hedge
    obtain ⟨n, hn, hnear⟩ := (h.levelled.visited _).mp hnear
    obtain ⟨m, hm, hfar⟩ := (h.levelled.visited _).mp hfar
    exact ⟨⟨n, by omega, hnear⟩, ⟨m, by omega, hfar⟩, hlineage⟩

/-- The next ids are the next level. -/
theorem mem_nextIds : v ∈ fromkeys (((db.levelEdges direction t.frontier).map fun edge => edge.far direction).filter
      fun id => id ∉ t.visited) ↔
    (∃ u ∈ t.frontier, direction.relation db u v) ∧ v ∉ t.visited := by
  rw [mem_fromkeys, List.mem_filter, List.mem_map, exists_far_iff, decide_eq_true_eq]

/-- The edges of a level, with those before them. -/
theorem TracedTo.addEdges (h : TracedTo db direction focus depth t) {nextIds : List String}
    (hnext : ∀ v, v ∈ nextIds ↔ (∃ u ∈ t.frontier, direction.relation db u v) ∧ v ∉ t.visited) {edge : LineageEdge}
    (hedge : edge ∈ ((db.levelEdges direction t.frontier).foldl
      (fun edges edge => edges.set edge.identity edge) t.edges).values) :
    near direction edge ∈ t.visited ++ nextIds ∧ edge.far direction ∈ t.visited ++ nextIds ∧ db.IsLineageEdge edge := by
  obtain ⟨key, hkey⟩ := Dict.mem_values_iff.mp hedge
  rcases get?_foldl_set_cases hkey with hlevel | hold
  · obtain ⟨hnear, hlineage⟩ := levelEdges_sound hlevel
    have hvisited : near direction edge ∈ t.visited :=
      (h.levelled.visited _).mpr ⟨depth, Nat.le_refl _, (h.levelled.frontier _).mp hnear⟩
    refine ⟨List.mem_append_left _ hvisited, ?_, hlineage⟩
    by_cases hfar : edge.far direction ∈ t.visited
    · exact List.mem_append_left _ hfar
    · exact List.mem_append_right _ ((hnext _).mpr ⟨⟨_, hnear, relation_of_edge hlineage⟩, hfar⟩)
  · obtain ⟨hnear, hfar, hlineage⟩ := h.edges edge (Dict.mem_values_iff.mpr ⟨key, hold⟩)
    exact ⟨List.mem_append_left _ hnear, List.mem_append_left _ hfar, hlineage⟩

/-- The nodes of the next level, with those before them. -/
theorem TracedTo.addNodes (h : TracedTo db direction focus depth t) {nextIds : List String}
    (hlevel : ∀ v, v ∈ nextIds ↔ Distance (direction.relation db) (depth + 1) focus v) (v : String)
    (node : LineageNode) :
    ((db.events.observations.entries.filter fun e => e.1 ∈ nextIds).foldl
        (fun nodes e => nodes.set e.1 (.ofRecord e.1 e.2 (depth + 1))) t.nodes).get? v = some node ↔
      db.IsNode direction focus (depth + 1) v node := by
  set records := db.events.observations.entries.filter fun e => e.1 ∈ nextIds with hrecords
  have hkeys : ((records.map fun e => (e.1, LineageNode.ofRecord e.1 e.2 (depth + 1))).map Prod.fst).Nodup := by
    rw [List.map_map]
    exact (List.filter_sublist.map Prod.fst).nodup db.events.observations.nodup_keys
  have hfold : (records.foldl (fun nodes e => nodes.set e.1 (LineageNode.ofRecord e.1 e.2 (depth + 1))) t.nodes) =
      (records.map fun e => (e.1, LineageNode.ofRecord e.1 e.2 (depth + 1))).foldl (fun d e => d.set e.1 e.2) t.nodes := by
    rw [List.foldl_map]
  have hmem : ∀ node, (v, node) ∈ records.map (fun e => (e.1, LineageNode.ofRecord e.1 e.2 (depth + 1))) ↔
      v ∈ nextIds ∧ db.loadNode v (depth + 1) = some node := by
    intro node
    rw [List.mem_map]
    constructor
    · rintro ⟨⟨id, row⟩, he, heq⟩
      obtain ⟨rfl, rfl⟩ := Prod.mk.inj heq
      obtain ⟨hrow, hid⟩ := List.mem_filter.mp he
      refine ⟨of_decide_eq_true hid, ?_⟩
      rw [loadNode, Dict.mem_entries_iff.mp hrow, Option.map_some]
    · rintro ⟨hid, hload⟩
      obtain ⟨row, hrow, rfl⟩ := Option.map_eq_some_iff.mp hload
      exact ⟨(v, row), List.mem_filter.mpr ⟨Dict.mem_entries_iff.mpr hrow, decide_eq_true hid⟩, rfl⟩
  rw [hfold, Dict.get?_foldl_set _ _ hkeys]
  cases hfind : (records.map fun e => (e.1, LineageNode.ofRecord e.1 e.2 (depth + 1))).find? (·.1 = v) with
  | none =>
    have hnot : ∀ node, ¬ (v ∈ nextIds ∧ db.loadNode v (depth + 1) = some node) := by
      intro node hnode
      exact List.find?_eq_none.mp hfind _ ((hmem node).mpr hnode) (decide_eq_true rfl)
    rw [Option.map_none, Option.none_or, h.nodes]
    constructor
    · rintro ⟨n, hn, hnode⟩
      exact ⟨n, by omega, hnode⟩
    · rintro ⟨n, hn, hdistance, hload⟩
      rcases Nat.lt_or_eq_of_le hn with hn | rfl
      · exact ⟨n, by omega, hdistance, hload⟩
      · exact absurd ⟨(hlevel v).mpr hdistance, hload⟩ (hnot node)
  | some e =>
    obtain ⟨id, found⟩ := e
    have hid := List.find?_some hfind
    obtain rfl : id = v := by simpa using hid
    obtain ⟨hnext, hfound⟩ := (hmem found).mp (List.mem_of_find?_eq_some hfind)
    have hdistance := (hlevel id).mp hnext
    rw [Option.map_some, Option.some_or]
    constructor
    · intro heq
      exact ⟨depth + 1, Nat.le_refl _, hdistance, hfound.trans heq⟩
    · rintro ⟨n, hn, hnear, hload⟩
      rw [hnear.unique hdistance, hfound] at hload
      exact hload

/-- The loop, from a level to the limit. -/
theorem TracedTo.run (levels : ℕ) (h : TracedTo db direction focus depth t) (hlimit : depth + levels = limit) :
    TracedUpTo db direction focus limit (db.traceLevels direction levels (depth + 1) t) := by
  induction levels generalizing depth t with
  | zero =>
    refine h.upTo (by omega) fun v n hn hle => ?_
    omega
  | succ levels ih =>
    unfold traceLevels
    have hnext := fun v => @mem_nextIds db direction t v
    have hlevel := h.levelled.step hnext
    split
    next hempty =>
      have hpast : Levelled (direction.relation db) focus depth [] t.visited := hempty ▸ h.levelled
      exact h.upTo (by omega) fun v n hn hle => hpast.none_past (Nat.le_of_lt hn)
    next =>
      dsimp only
      split
      next hempty =>
        rw [hempty] at hnext hlevel
        have hdone : TracedTo db direction focus depth { t with
            edges := (db.levelEdges direction t.frontier).foldl (fun edges edge => edges.set edge.identity edge) t.edges } := by
          refine ⟨h.levelled, h.nodes, fun edge hedge => ?_⟩
          have hall := h.addEdges hnext hedge
          rwa [List.append_nil] at hall
        exact hdone.upTo (by omega) fun v n hn hle => hlevel.none_past hn
      next =>
        refine ih ⟨hlevel, h.addNodes hlevel.frontier, fun edge hedge => h.addEdges hnext hedge⟩ ?_
        omega

theorem TracedTo.start {node : LineageNode} (hfocus : db.loadNode focus 0 = some node) : TracedTo db direction focus 0
      { nodes := Dict.empty.set focus node, edges := .empty, frontier := [focus], visited := [focus] } where
  levelled := .start
  nodes v found := by
    rw [Dict.get?_set]
    constructor
    · intro h
      split at h
      next heq =>
        subst heq
        obtain rfl := Option.some.inj h
        exact ⟨0, Nat.le_refl _, distance_zero_iff.mpr rfl, hfocus⟩
      next => cases h
    · rintro ⟨n, hn, hdistance, hload⟩
      obtain rfl := Nat.le_zero.mp hn
      obtain rfl := distance_zero_iff.mp hdistance
      rw [if_pos rfl, ← hfocus, hload]
  edges edge hedge := by cases hedge

end Traces

/-- The nodes of a trace are the observations within its depth, each once and with its distance. -/
structure ExactTrace (db : ProvenanceDb) (direction : TraceDirection) (focus : String) (limit : ℕ)
    (trace : ProvenanceTrace) : Prop where
  nodes : ∀ v n, (∃ node ∈ trace.nodes, node.eventId = v ∧ node.depthFromFocus = n) ↔
    n ≤ limit ∧ Distance (direction.relation db) n focus v
  once : (trace.nodes.map (·.eventId)).Nodup
  loaded : ∀ node ∈ trace.nodes, db.loadNode node.eventId node.depthFromFocus = some node
  edges : ∀ edge ∈ trace.edges, db.IsLineageEdge edge ∧
    (∃ node ∈ trace.nodes, node.eventId = edge.parentEventId) ∧ ∃ node ∈ trace.nodes, node.eventId = edge.childEventId

theorem eventId_of_loadNode {v : String} {n : ℕ} {node : LineageNode} (h : db.loadNode v n = some node) :
    node.eventId = v ∧ node.depthFromFocus = n := by
  obtain ⟨row, -, rfl⟩ := Option.map_eq_some_iff.mp h
  exact ⟨rfl, rfl⟩

theorem exists_loadNode {v : String} (h : db.events.Stored v) (n : ℕ) : ∃ node, db.loadNode v n = some node := by
  obtain ⟨row, hrow⟩ := Option.ne_none_iff_exists'.mp h
  exact ⟨_, by rw [loadNode, hrow]; rfl⟩

/-- Of an observation a trace is made, and it is exact. -/
theorem trace_exact (hclosed : db.LineageClosed) (hfocus : db.events.Stored focus) (limit : ℕ) :
    ∃ trace, db.trace focus direction limit = .ok trace ∧ db.ExactTrace direction focus limit trace := by
  obtain ⟨node, hnode⟩ := exists_loadNode hfocus 0
  unfold trace
  rw [if_neg (by omega), hnode]
  refine ⟨_, rfl, ?_⟩
  rw [Int.toNat_natCast]
  have hstart : TracedTo db direction focus 0 _ := .start hnode
  have hrun := hstart.run limit (Nat.zero_add limit)
  generalize db.traceLevels direction limit 1 _ = t at hrun ⊢
  have hvalues : ∀ node, node ∈ t.nodes.values ↔ ∃ v, db.IsNode direction focus limit v node := by
    intro node
    rw [Dict.mem_values_iff]
    exact exists_congr fun v => hrun.nodes v node
  have hexists : ∀ v n, n ≤ limit → Distance (direction.relation db) n focus v →
      ∃ node ∈ t.nodes.values, node.eventId = v ∧ node.depthFromFocus = n := by
    intro v n hn hdistance
    obtain ⟨node, hload⟩ := exists_loadNode (stored_of_distance hclosed hfocus hdistance) n
    exact ⟨node, (hvalues node).mpr ⟨v, n, hn, hdistance, hload⟩, eventId_of_loadNode hload⟩
  refine ⟨?_, ?_, ?_, ?_⟩
  · intro v n
    simp only [List.mem_insertionSort]
    constructor
    · rintro ⟨node, hmem, rfl, rfl⟩
      obtain ⟨v, n, hn, hdistance, hload⟩ := (hvalues node).mp hmem
      obtain ⟨rfl, rfl⟩ := eventId_of_loadNode hload
      exact ⟨hn, hdistance⟩
    · rintro ⟨hn, hdistance⟩
      exact hexists v n hn hdistance
  · refine ((List.perm_insertionSort _ _).map _).nodup_iff.mpr ?_
    have hkeys : t.nodes.values.map (·.eventId) = t.nodes.keys := by
      unfold Dict.values Dict.keys
      rw [List.map_map]
      refine List.map_congr_left fun e he => ?_
      obtain ⟨n, -, -, hload⟩ := (hrun.nodes e.1 e.2).mp (Dict.mem_entries_iff.mp he)
      exact (eventId_of_loadNode hload).1
    rw [hkeys]
    exact t.nodes.nodup_keys
  · intro node hmem
    obtain ⟨v, n, hn, hdistance, hload⟩ := (hvalues node).mp ((List.mem_insertionSort _).mp hmem)
    obtain ⟨rfl, rfl⟩ := eventId_of_loadNode hload
    exact hload
  · intro edge hmem
    obtain ⟨⟨n, hn, hnear⟩, ⟨m, hm, hfar⟩, hlineage⟩ := hrun.edges edge ((List.mem_insertionSort _).mp hmem)
    obtain ⟨nearNode, hnearMem, hnearId, -⟩ := hexists _ n hn hnear
    obtain ⟨farNode, hfarMem, hfarId, -⟩ := hexists _ m hm hfar
    refine ⟨hlineage, ?_⟩
    simp only [List.mem_insertionSort]
    cases direction with
    | ancestors => exact ⟨⟨farNode, hfarMem, hfarId⟩, ⟨nearNode, hnearMem, hnearId⟩⟩
    | descendants => exact ⟨⟨nearNode, hnearMem, hnearId⟩, ⟨farNode, hfarMem, hfarId⟩⟩

/-! ## Paths -/

/-- A shortest way from the start to the end, on which no observation comes twice. -/
structure ShortestPath (db : ProvenanceDb) (startEventId endEventId : String) (path : ProvenancePath) : Prop where
  trail : Trail (fun edge parent child => db.IsLineageEdge edge ∧ edge.parentEventId = parent ∧ edge.childEventId = child)
    startEventId (path.nodes.map (·.eventId)) path.edges endEventId
  once : (path.nodes.map (·.eventId)).Nodup
  shortest : Distance db.Lineage path.edges.length startEventId endEventId
  loaded : ∀ i node, path.nodes[i]? = some node → db.loadNode node.eventId i = some node

theorem linked (db : ProvenanceDb) : Linked db.edgesFrom LineageEdge.childEventId
    (fun edge parent child => db.IsLineageEdge edge ∧ edge.parentEventId = parent ∧ edge.childEventId = child)
    db.Lineage where
  linked u edge hedge := by
    obtain ⟨hpicks, hlineage⟩ := lineageEdges_sound hedge
    exact ⟨hlineage, List.mem_singleton.mp (of_decide_eq_true hpicks), rfl⟩
  related u v := by
    constructor
    · intro h
      have hpicks : decide (u ∈ [u]) = true := decide_eq_true (List.mem_singleton_self u)
      obtain ⟨edge, hedge, -, hchild⟩ := @lineageEdges_complete db (fun parent _ => parent ∈ [u]) u v hpicks h
      exact ⟨edge, hedge, hchild⟩
    · rintro ⟨edge, hedge, rfl⟩
      obtain ⟨hpicks, hlineage⟩ := lineageEdges_sound hedge
      rw [← List.mem_singleton.mp (of_decide_eq_true hpicks)]
      exact hlineage.lineage

theorem mem_children_of_edge {u : String} {edge : LineageEdge} (h : edge ∈ db.edgesFrom u) :
    edge.childEventId ∈ db.children := by
  unfold children
  rcases (lineageEdges_sound h).2 with ⟨id, record, hrecord, rfl⟩ | ⟨parent, child, ⟨row, hrow, -⟩, -, rfl⟩
  · exact List.mem_append_left _ (List.mem_map_of_mem (Dict.mem_values_iff.mpr ⟨id, hrecord⟩))
  · exact List.mem_append_right _ (Dict.mem_keys_iff.mpr ⟨row, hrow⟩)

theorem stored_of_trail (hclosed : db.LineageClosed) {u v : String} {vs : List String} {es : List LineageEdge}
    (h : Trail (fun edge parent child => db.IsLineageEdge edge ∧ edge.parentEventId = parent ∧
      edge.childEventId = child) u vs es v) (hstored : db.events.Stored u) : ∀ w ∈ vs, db.events.Stored w := by
  induction h with
  | here v => simpa using hstored
  | cons hlink htrail ih =>
    obtain ⟨hedge, rfl, rfl⟩ := hlink
    refine List.forall_mem_cons.mpr ⟨hstored, ih ?_⟩
    exact (hclosed _ _ hedge.lineage).2

/-- Observations that are stored have their nodes. -/
theorem pathNodes_spec {eventIds : List String} (h : ∀ id ∈ eventIds, db.events.Stored id) (depth : ℕ) :
    ∃ nodes, db.pathNodes depth eventIds = .ok nodes ∧ nodes.map (·.eventId) = eventIds ∧
      ∀ i node, nodes[i]? = some node → db.loadNode node.eventId (depth + i) = some node := by
  induction eventIds generalizing depth with
  | nil => exact ⟨[], rfl, rfl, fun i node hnode => by cases hnode⟩
  | cons eventId eventIds ih =>
    obtain ⟨hfirst, hrest⟩ := List.forall_mem_cons.mp h
    obtain ⟨node, hnode⟩ := exists_loadNode hfirst depth
    obtain ⟨nodes, hnodes, hids, hloaded⟩ := ih hrest (depth + 1)
    have hid := (eventId_of_loadNode hnode).1
    refine ⟨node :: nodes, ?_, ?_, fun i found hfound => ?_⟩
    · rw [pathNodes, hnode]
      simp only [hnodes]
      rfl
    · rw [List.map_cons, hids, hid]
    · cases i with
      | zero =>
        obtain rfl := Option.some.inj hfound
        rw [hid]
        exact hnode
      | succ i =>
        have hload := hloaded i found hfound
        rwa [Nat.add_right_comm, Nat.add_assoc] at hload

/-- Between observations a path is found exactly if the distance is within the limit, and it is a shortest one. -/
theorem shortestPath_exact (hclosed : db.LineageClosed) {startEventId endEventId : String}
    (hstart : db.events.Stored startEventId) (hend : db.events.Stored endEventId) (limit : ℕ) :
    ∃ found, db.shortestPath startEventId endEventId limit = .ok found ∧
      (found.isSome = true ↔ ∃ n ≤ limit, Distance db.Lineage n startEventId endEventId) ∧
      ∀ path ∈ found, db.ShortestPath startEventId endEventId path := by
  unfold shortestPath
  rw [if_neg (by omega), Int.toNat_natCast]
  by_cases heq : startEventId = endEventId
  · subst heq
    obtain ⟨node, hnode⟩ := exists_loadNode hstart 0
    have hid := (eventId_of_loadNode hnode).1
    rw [if_pos rfl, hnode]
    refine ⟨_, rfl, ?_, fun path hpath => ?_⟩
    · exact iff_of_true rfl ⟨0, Nat.zero_le _, distance_zero_iff.mpr rfl⟩
    · obtain rfl := Option.some.inj hpath
      refine ⟨?_, List.nodup_singleton _, distance_zero_iff.mpr rfl, fun i found hfound => ?_⟩
      · rw [List.map_singleton, hid]
        exact .here _
      · cases i with
        | zero =>
          obtain rfl := Option.some.inj hfound
          rw [hid]
          exact hnode
        | succ i => cases hfound
  · obtain ⟨startRow, hstartRow⟩ := Option.ne_none_iff_exists'.mp hstart
    obtain ⟨endRow, hendRow⟩ := Option.ne_none_iff_exists'.mp hend
    obtain ⟨found, search, hsearch, hiff, hpath⟩ := @pathSearch_spec _ _ _ _ _ _ _ startEventId endEventId limit
      db.children (db.children.length + 2) db.linked heq (fun u edge => mem_children_of_edge) (by omega)
    rw [if_neg heq, hstartRow, hendRow]
    simp only [hsearch]
    cases found with
    | false =>
      refine ⟨none, rfl, ?_, fun path h => by cases h⟩
      rw [← hiff]
      exact Iff.rfl
    | true =>
      obtain ⟨eventIds, edges, hwalk, htrail, honce, hdistance⟩ := hpath rfl
      obtain ⟨nodes, hnodes, hids, hloaded⟩ := pathNodes_spec (stored_of_trail hclosed htrail hstart) 0
      refine ⟨some { startEventId, endEventId, nodes, edges }, ?_, ?_, fun path h => ?_⟩
      · simp only [hwalk, hnodes]
        rfl
      · exact iff_of_true rfl (hiff.mp rfl)
      · obtain rfl := Option.some.inj h
        refine ⟨?_, ?_, hdistance, fun i node hnode => ?_⟩
        · rw [hids]
          exact htrail
        · rw [hids]
          exact honce
        · have hload := hloaded i node hnode
          rwa [Nat.zero_add] at hload

/-! ## The foreign keys -/

theorem explicitEdge_set {events : EventDb} {edges : Dict String ProvenanceEdgeRecord} {id : String}
    {record : ProvenanceEdgeRecord} {x y : String}
    (h : (ProvenanceDb.mk events (edges.set id record)).ExplicitEdge x y) :
    (ProvenanceDb.mk events edges).ExplicitEdge x y ∨ x = record.parentEventId ∧ y = record.childEventId := by
  obtain ⟨key, found, hfound, rfl, rfl⟩ := h
  have hfound : (edges.set id record).get? key = some found := hfound
  rw [Dict.get?_set] at hfound
  split at hfound
  · obtain rfl := Option.some.inj hfound
    exact .inr ⟨rfl, rfl⟩
  · exact .inl ⟨key, found, hfound, rfl, rfl⟩

/-- A write of `add_edge` between observations. -/
theorem lineageClosed_write (hclosed : db.LineageClosed) (call : AddEdge) {parent child source : String}
    {row : EventObservationRecord} (hparent : db.events.Stored parent)
    (hrow : db.events.observations.get? child = some row) :
    (db.writeEdge call parent child source row).2.LineageClosed := by
  have hchild : db.events.Stored child := by
    unfold EventDb.Stored
    rw [hrow]
    exact Option.some_ne_none _
  have hwrite : ∀ (id : String) (record : ProvenanceEdgeRecord), record.parentEventId = parent →
      record.childEventId = child →
      (ProvenanceDb.mk (db.setPrimaryParent call parent child row) (db.edges.set id record)).LineageClosed := by
    intro id record hrecordParent hrecordChild x y h
    have hcases : db.Lineage x y ∨ x = parent ∧ y = child := by
      rcases h with h | h
      · rcases explicitEdge_set h with h | ⟨hx, hy⟩
        · exact .inl (.inl h)
        · exact .inr ⟨hx.trans hrecordParent, hy.trans hrecordChild⟩
      · rcases (primaryParent_set call parent hrow _ x y).mp h with h | ⟨-, hx, hy⟩
        · exact .inl (.inr h)
        · exact .inr ⟨hx, hy⟩
    show (db.setPrimaryParent call parent child row).Stored x ∧ (db.setPrimaryParent call parent child row).Stored y
    rw [stored_setPrimaryParent hrow, stored_setPrimaryParent hrow]
    rcases hcases with h | ⟨rfl, rfl⟩
    · exact hclosed x y h
    · exact ⟨hparent, hchild⟩
  unfold writeEdge
  cases hedge : db.edgeOf parent child call.relation source with
  | none =>
    simp only
    split
    · exact hclosed
    · exact hwrite _ _ rfl rfl
  | some e =>
    have hfound := List.find?_some hedge
    obtain ⟨hrecordParent, hrecordChild, -⟩ := of_decide_eq_true hfound
    exact hwrite _ _ hrecordParent hrecordChild

theorem addEdge_lineageClosed (hclosed : db.LineageClosed) (call : AddEdge) : (db.addEdge call).2.LineageClosed := by
  unfold addEdge
  simp only
  split
  · exact hclosed
  split
  · exact hclosed
  split
  · exact hclosed
  split
  · exact hclosed
  cases hparent : db.events.observations.get? (strip call.parentEventId) with
  | none => exact hclosed
  | some parentRow =>
    cases hchild : db.events.observations.get? (strip call.childEventId) with
    | none => exact hclosed
    | some row =>
      simp only
      split
      · exact hclosed
      · refine lineageClosed_write hclosed call ?_ hchild
        unfold EventDb.Stored
        rw [hparent]
        exact Option.some_ne_none _

/-- An observation whose parent is one, or itself. -/
theorem lineageClosed_setRow (hclosed : db.LineageClosed) (assets : Dict String AssetRecord) (id : String)
    (row : EventObservationRecord) (hparent : ∀ x, row.parentEventId = some x → x = id ∨ db.events.Stored x) :
    (ProvenanceDb.mk ⟨assets, db.events.observations.set id row⟩ db.edges).LineageClosed := by
  intro x y h
  have hstored : ∀ key, EventDb.Stored ⟨assets, db.events.observations.set id row⟩ key ↔
      key = id ∨ db.events.Stored key := ProvenanceCall.stored_setRow
  show EventDb.Stored ⟨assets, db.events.observations.set id row⟩ x ∧
    EventDb.Stored ⟨assets, db.events.observations.set id row⟩ y
  rw [hstored, hstored]
  rcases h with h | h
  · obtain ⟨hx, hy⟩ := hclosed x y (.inl h)
    exact ⟨.inr hx, .inr hy⟩
  · rcases (ProvenanceCall.primaryParent_setRow db.events db.edges assets id row x y).mp h with ⟨hy, hx⟩ | ⟨-, hold⟩
    · exact ⟨hparent x hx, .inl hy⟩
    · obtain ⟨hx, hy⟩ := hclosed x y (.inr hold)
      exact ⟨.inr hx, .inr hy⟩

theorem ingestSanitized_lineageClosed (hclosed : db.LineageClosed) (event : Event) (runId : Option String)
    (assetId : String) (runStored : Bool) :
    (ProvenanceDb.mk (db.events.ingestSanitized event runId assetId runStored).2 db.edges).LineageClosed := by
  have hkey : ∀ x, db.events.ForeignKeys event runStored → event.parentEventId = some x →
      x = event.eventId ∨ db.events.Stored x := by
    intro x hforeign hparent
    rcases hforeign.1 x hparent with h | h
    · exact .inl h
    · exact .inr (Option.isSome_iff_ne_none.mp h)
  unfold EventDb.ingestSanitized
  cases hrow : db.events.observations.get? event.eventId with
  | some row =>
    simp only
    split
    · exact hclosed
    cases db.events.assets.get? row.assetId with
    | none => exact hclosed
    | some asset =>
      refine lineageClosed_setRow hclosed _ _ _ fun x hparent => .inr ?_
      exact (hclosed x event.eventId (.inr ⟨row, hrow, hparent⟩)).1
  | none =>
    cases db.events.assetOf event.identityKey with
    | some known =>
      simp only
      split
      next hforeign => exact lineageClosed_setRow hclosed _ _ _ fun x hparent => hkey x hforeign hparent
      next => exact hclosed
    | none =>
      simp only
      split
      next hforeign => exact lineageClosed_setRow hclosed _ _ _ fun x hparent => hkey x hforeign.1 hparent
      next => exact hclosed

/-- The foreign keys are kept by every call. -/
theorem next_lineageClosed (lib : Sanitizer) (call : ProvenanceCall) (hclosed : db.LineageClosed) :
    (call.next lib db).LineageClosed := by
  cases call with
  | ingest event runId assetId runStored =>
    exact ingestSanitized_lineageClosed hclosed (lib.sanitizeEventForStorage event) runId assetId runStored
  | addEdge call => exact addEdge_lineageClosed hclosed call
  | capturePrimaryParent childEventId relation source edgeId now =>
    show (db.capturePrimaryParent childEventId relation source edgeId now).2.LineageClosed
    unfold capturePrimaryParent
    cases db.events.observations.get? childEventId with
    | none => exact hclosed
    | some child =>
      simp only
      split
      · exact hclosed
      · exact addEdge_lineageClosed hclosed _

theorem empty_lineageClosed : empty.LineageClosed := by
  intro x y h
  rcases h with ⟨id, record, hrecord, -⟩ | ⟨row, hrow, -⟩
  · cases hrecord
  · cases hrow

theorem run_lineageClosed (lib : Sanitizer) (calls : List ProvenanceCall) : ∀ {db : ProvenanceDb}, db.LineageClosed →
      (calls.foldl (fun db call => ProvenanceCall.next lib db call) db).LineageClosed := by
  induction calls with
  | nil => exact fun h => h
  | cons call calls ih => exact fun h => ih (next_lineageClosed lib call h)

end ProvenanceDb

/-- **Lineage queries are exact**, in every database that keeps its foreign keys. A path is found exactly if the
    distance is within the limit, and it is a shortest one; the ancestors and the descendants are the observations
    within the depth, each once and with its distance, with edges between them. A depth below zero is refused. -/
theorem lineage_queries_exact (db : ProvenanceDb) (hclosed : db.LineageClosed) :
    (∀ startEventId endEventId, db.events.Stored startEventId → db.events.Stored endEventId → ∀ maxDepth : ℕ,
      ∃ found, db.shortestPath startEventId endEventId maxDepth = .ok found ∧
        (found.isSome = true ↔ ∃ n ≤ maxDepth, Distance db.Lineage n startEventId endEventId) ∧
        ∀ path ∈ found, db.ShortestPath startEventId endEventId path) ∧
    (∀ focus, db.events.Stored focus → ∀ maxDepth : ℕ,
      (∃ trace, db.ancestors focus maxDepth = .ok trace ∧ db.ExactTrace .ancestors focus maxDepth trace) ∧
      ∃ trace, db.descendants focus maxDepth = .ok trace ∧ db.ExactTrace .descendants focus maxDepth trace) ∧
    ∀ maxDepth < 0, ∀ x y, db.shortestPath x y maxDepth = .error (.valueError "max_depth cannot be negative") ∧
      db.ancestors x maxDepth = .error (.valueError "max_depth cannot be negative") ∧
      db.descendants x maxDepth = .error (.valueError "max_depth cannot be negative") := by
  refine ⟨fun x y hx hy maxDepth => db.shortestPath_exact hclosed hx hy maxDepth, fun focus hfocus maxDepth => ?_, ?_⟩
  · exact ⟨db.trace_exact hclosed hfocus maxDepth, db.trace_exact hclosed hfocus maxDepth⟩
  · intro maxDepth hnegative x y
    exact ⟨if_pos hnegative, if_pos hnegative, if_pos hnegative⟩

/-- Two bundles, the second of the first, and the first correlated with the second. -/
def bundlesDb : ProvenanceDb :=
  [ingestBundle "evt_app" "app.js" none, ingestBundle "evt_chunk" "chunk.js" (some "evt_app"),
    bundleEdge "prv_1" "evt_chunk" "evt_app" .correlatedFrom].foldl
      (fun db call => ProvenanceCall.next plainSanitizer db call) .empty

theorem lineage_queries_bundles :
    ∃ found, bundlesDb.shortestPath "evt_chunk" "evt_app" (1 : ℕ) = .ok found ∧
      (found.isSome = true ↔ ∃ n ≤ 1, Distance bundlesDb.Lineage n "evt_chunk" "evt_app") ∧
      ∀ path ∈ found, bundlesDb.ShortestPath "evt_chunk" "evt_app" path :=
  (lineage_queries_exact bundlesDb (ProvenanceDb.run_lineageClosed plainSanitizer _ ProvenanceDb.empty_lineageClosed)).1
    "evt_chunk" "evt_app" (by decide +kernel) (by decide +kernel) 1

end NightScout
