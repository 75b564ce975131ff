import NightScout.Exporters.SurfaceHtml

/-!
# The strings and numbers of a snapshot

The strings that the snapshot holds are those of its dump that are not the program's own: the names of the fields,
the values of the enumerations and the times never have a marker in them.
-/

namespace NightScout

open Lib

/-! ## The strings and numbers of a snapshot -/

/-- The strings of a node. -/
def SurfaceNode.texts (node : SurfaceNode) : List String :=
  node.nodeId :: node.value :: node.label :: (node.roles ++ (node.assetIds ++ (node.sources ++ (node.tags ++
    (node.evidence.flatMap (fun ref => [ref.eventId, ref.source]) ++
      JsonValue.entryTexts node.metadata.entries)))))

/-- The strings of an edge. -/
def SurfaceEdge.texts (edge : SurfaceEdge) : List String :=
  edge.edgeId :: edge.sourceNodeId :: edge.targetNodeId :: edge.relation ::
    (edge.supportingEventIds ++ JsonValue.entryTexts edge.metadata.entries)

def SurfaceGraphStatistics.texts (statistics : SurfaceGraphStatistics) : List String :=
  statistics.nodesByKind.keys ++ statistics.nodesByState.keys

namespace SurfaceGraphSnapshot

variable (snapshot : SurfaceGraphSnapshot)

/-- The strings of a snapshot. -/
def texts : List String :=
  snapshot.targetId :: snapshot.fingerprint :: (snapshot.roots ++ (snapshot.nodes.flatMap SurfaceNode.texts ++
    (snapshot.edges.flatMap SurfaceEdge.texts ++ (snapshot.statistics.texts ++ snapshot.warnings))))

/-- No metadata has a number that JSON does not have. -/
def finite : Bool :=
  snapshot.nodes.all (fun node => JsonValue.entriesFinite node.metadata.entries) &&
    snapshot.edges.all fun edge => JsonValue.entriesFinite edge.metadata.entries

end SurfaceGraphSnapshot

/-- A string has the second marker in it. -/
def Marked (texts : List String) : Prop := ∃ s ∈ texts, treeMarker <:+: s.toList

theorem marked_cons (s : String) (texts : List String) :
    Marked (s :: texts) ↔ treeMarker <:+: s.toList ∨ Marked texts := by
  simp [Marked]

theorem marked_append (a b : List String) : Marked (a ++ b) ↔ Marked a ∨ Marked b := by
  simp [Marked, or_and_right, exists_or]

theorem marked_flatMap {α : Type} (l : List α) (f : α → List String) :
    Marked (l.flatMap f) ↔ ∃ x ∈ l, Marked (f x) := by
  unfold Marked
  constructor
  · rintro ⟨s, hs, h⟩
    obtain ⟨x, hx, hsx⟩ := List.mem_flatMap.mp hs
    exact ⟨x, hx, s, hsx, h⟩
  · rintro ⟨x, hx, s, hsx, h⟩
    exact ⟨s, List.mem_flatMap.mpr ⟨x, hx, hsx⟩, h⟩

theorem not_marked_nil : ¬ Marked [] := fun ⟨_, hs, _⟩ => nomatch hs

/-- The names of a record are the program's own, and only its values can have the marker. -/
theorem marked_record (names : List String) (hnames : ∀ name ∈ names, ¬ treeMarker <:+: name.toList)
    {es : List (String × JsonValue)} (hes : es.map Prod.fst = names) :
    Marked (JsonValue.object es).texts ↔ ∃ v ∈ es.map Prod.snd, Marked v.texts := by
  show Marked (JsonValue.entryTexts es) ↔ _
  rw [JsonValue.entryTexts_eq, marked_flatMap]
  constructor
  · rintro ⟨e, he, h⟩
    have hname := hnames e.1 (hes ▸ List.mem_map_of_mem he)
    exact ⟨e.2, List.mem_map_of_mem he, ((marked_cons _ _).mp h).resolve_left hname⟩
  · rintro ⟨v, hv, h⟩
    obtain ⟨e, he, rfl⟩ := List.mem_map.mp hv
    exact ⟨e, he, (marked_cons _ _).mpr (.inr h)⟩

/-! ## The dump -/

theorem marked_string (s : String) : Marked (JsonValue.string s).texts ↔ treeMarker <:+: s.toList := by
  simp [Marked, JsonValue.texts]

theorem marked_array {α : Type} (l : List α) (f : α → JsonValue) :
    Marked (JsonValue.array (l.map f)).texts ↔ ∃ x ∈ l, Marked (f x).texts := by
  show Marked (JsonValue.itemTexts (l.map f)) ↔ _
  rw [JsonValue.itemTexts_eq, List.flatMap_map, marked_flatMap]

theorem marked_strings (texts : List String) : Marked (JsonValue.strings texts).texts ↔ Marked texts := by
  unfold JsonValue.strings
  rw [marked_array]
  exact exists_congr fun s => and_congr_right fun _ => marked_string s

theorem marked_counts (counts : Dict String ℕ) : Marked (JsonValue.counts counts).texts ↔ Marked counts.keys := by
  show Marked (JsonValue.entryTexts (counts.entries.map fun e => (e.1, JsonValue.int e.2))) ↔ _
  rw [JsonValue.entryTexts_eq, List.flatMap_map, marked_flatMap]
  simp [Marked, JsonValue.texts, Dict.keys]

/-- What is no string of the target has no marker. -/
theorem not_marked_plain {s : String} (h : '_' ∉ s.toList) : ¬ treeMarker <:+: s.toList := fun hwithin =>
  h (hwithin.subset (by decide))

theorem not_marked_eventType : ∀ e : EventType, ¬ treeMarker <:+: e.value.toList := by
  intro e
  cases e <;> decide

theorem not_marked_kind : ∀ k : SurfaceNodeKind, ¬ treeMarker <:+: k.value.toList := by
  intro k
  cases k <;> decide

theorem not_marked_scopeState : ∀ k : ScopeState, ¬ treeMarker <:+: k.value.toList := by
  intro k
  cases k <;> decide

theorem not_marked_discoveryState : ∀ k : DiscoveryState, ¬ treeMarker <:+: k.value.toList := by
  intro k
  cases k <;> decide

theorem not_marked_livenessState : ∀ k : LivenessState, ¬ treeMarker <:+: k.value.toList := by
  intro k
  cases k <;> decide

variable (T : TimeText)

theorem marked_evidence (ref : SurfaceEvidenceRef) :
    Marked (ref.modelDump T).texts ↔ Marked [ref.eventId, ref.source] := by
  refine Iff.trans (marked_record ["event_id", "source", "event_type", "first_seen"] (by decide) rfl) ?_
  simp [marked_string, marked_cons, not_marked_nil, not_marked_eventType, not_marked_plain (T.json_plain _)]

theorem not_marked_int (n : ℤ) : ¬ Marked (JsonValue.int n).texts := not_marked_nil

theorem not_marked_float (x : ℚ) : ¬ Marked (JsonValue.float x).texts := not_marked_nil

theorem not_marked_bool (b : Bool) : ¬ Marked (JsonValue.bool b).texts := not_marked_nil

theorem marked_node (node : SurfaceNode) : Marked (node.modelDump T).texts ↔ Marked node.texts := by
  refine Iff.trans (marked_record ["node_id", "kind", "value", "label", "roles", "scope_state",
    "discovery_state", "liveness_state", "confidence", "novelty", "first_seen", "last_seen", "observation_count",
    "asset_ids", "sources", "tags", "evidence", "metadata"] (by decide) rfl) ?_
  have hmetadata : (JsonValue.object node.metadata.entries).texts = JsonValue.entryTexts node.metadata.entries := rfl
  simp only [SurfaceNode.texts, List.map_cons, List.map_nil, List.exists_mem_cons_iff, List.not_mem_nil, false_and,
    exists_false, or_false, marked_string, marked_strings, marked_array, marked_evidence, marked_cons,
    marked_append, marked_flatMap, not_marked_nil, not_marked_kind, not_marked_scopeState,
    not_marked_discoveryState, not_marked_livenessState, not_marked_int, not_marked_float, hmetadata,
    not_marked_plain (T.json_plain _), false_or]

theorem marked_edge (edge : SurfaceEdge) : Marked (edge.modelDump T).texts ↔ Marked edge.texts := by
  refine Iff.trans (marked_record ["edge_id", "source_node_id", "target_node_id", "relation", "confidence",
    "first_seen", "last_seen", "supporting_event_ids", "derived", "metadata"] (by decide) rfl) ?_
  have hmetadata : (JsonValue.object edge.metadata.entries).texts = JsonValue.entryTexts edge.metadata.entries := rfl
  simp only [SurfaceEdge.texts, List.map_cons, List.map_nil, List.exists_mem_cons_iff, List.not_mem_nil, false_and,
    exists_false, or_false, marked_string, marked_strings, marked_cons, marked_append, not_marked_float,
    not_marked_bool, hmetadata, not_marked_plain (T.json_plain _), false_or]

theorem marked_statistics (statistics : SurfaceGraphStatistics) :
    Marked statistics.modelDump.texts ↔ Marked statistics.texts := by
  refine Iff.trans (marked_record ["node_count", "edge_count", "observations_considered", "observations_excluded",
    "nodes_by_kind", "nodes_by_state"] (by decide) rfl) ?_
  simp only [SurfaceGraphStatistics.texts, List.map_cons, List.map_nil, List.exists_mem_cons_iff, List.not_mem_nil,
    false_and, exists_false, or_false, marked_counts, marked_append, not_marked_int, false_or]

/-- The strings of the dump that can have the marker are those of the snapshot. -/
theorem marked_modelDump (snapshot : SurfaceGraphSnapshot) :
    Marked (snapshot.modelDump T).texts ↔ Marked snapshot.texts := by
  refine Iff.trans (marked_record ["schema_version", "target_id", "generated_at", "fingerprint", "roots", "nodes",
    "edges", "statistics", "warnings"] (by decide) rfl) ?_
  simp only [SurfaceGraphSnapshot.texts, List.map_cons, List.map_nil, List.exists_mem_cons_iff, List.not_mem_nil,
    false_and, exists_false, or_false, marked_string, marked_strings, marked_array, marked_node, marked_edge,
    marked_statistics, marked_cons, marked_append, marked_flatMap, not_marked_int,
    not_marked_plain (T.json_plain _), false_or]

/-! ## Numbers -/

theorem finite_strings (texts : List String) : (JsonValue.strings texts).finite = true := by
  unfold JsonValue.strings
  rw [JsonValue.finite, JsonValue.itemsFinite_eq, List.all_map]
  exact List.all_eq_true.mpr fun _ _ => rfl

theorem finite_counts (counts : Dict String ℕ) : (JsonValue.counts counts).finite = true := by
  unfold JsonValue.counts
  rw [JsonValue.finite, JsonValue.entriesFinite_eq, List.all_map]
  exact List.all_eq_true.mpr fun _ _ => rfl

theorem finite_array {α : Type} (l : List α) (f : α → JsonValue) :
    (JsonValue.array (l.map f)).finite = l.all fun x => (f x).finite := by
  rw [JsonValue.finite, JsonValue.itemsFinite_eq, List.all_map]
  rfl

theorem finite_evidence (ref : SurfaceEvidenceRef) : (ref.modelDump T).finite = true := rfl

theorem finite_node (node : SurfaceNode) :
    (node.modelDump T).finite = JsonValue.entriesFinite node.metadata.entries := by
  unfold SurfaceNode.modelDump
  simp [JsonValue.finite, JsonValue.entriesFinite, finite_strings, JsonValue.itemsFinite_eq, finite_evidence]

theorem finite_edge (edge : SurfaceEdge) :
    (edge.modelDump T).finite = JsonValue.entriesFinite edge.metadata.entries := by
  unfold SurfaceEdge.modelDump
  simp [JsonValue.finite, JsonValue.entriesFinite, finite_strings]

theorem finite_statistics (statistics : SurfaceGraphStatistics) : statistics.modelDump.finite = true := by
  unfold SurfaceGraphStatistics.modelDump
  simp [JsonValue.finite, JsonValue.entriesFinite, finite_counts]

theorem finite_modelDump (snapshot : SurfaceGraphSnapshot) : (snapshot.modelDump T).finite = snapshot.finite := by
  unfold SurfaceGraphSnapshot.modelDump SurfaceGraphSnapshot.finite
  simp only [JsonValue.finite, JsonValue.entriesFinite, finite_strings, finite_statistics, JsonValue.itemsFinite_eq,
    List.all_map, Function.comp_def, finite_node, finite_edge, Bool.true_and, Bool.and_true]

/-! ## The tree -/

theorem finite_treeNode (shown : TreeNode) : shown.toJson.finite = JsonValue.entriesFinite shown.metadata.entries := by
  unfold TreeNode.toJson
  simp [JsonValue.finite, JsonValue.entriesFinite, finite_strings]

theorem finite_references (references : List TreeReference) :
    JsonValue.itemsFinite (references.map TreeReference.toJson) = true := by
  rw [JsonValue.itemsFinite_eq, List.all_map]
  exact List.all_eq_true.mpr fun _ _ => rfl

theorem entriesFinite_append (a b : List (String × JsonValue)) :
    JsonValue.entriesFinite (a ++ b) = (JsonValue.entriesFinite a && JsonValue.entriesFinite b) := by
  rw [JsonValue.entriesFinite_eq, JsonValue.entriesFinite_eq, JsonValue.entriesFinite_eq, List.all_append]

mutual

/-- An item is finite when the nodes it expands are. -/
theorem finite_entries : ∀ item : TreeItem,
    (∀ shown ∈ item.expanded, JsonValue.entriesFinite shown.metadata.entries = true) →
      JsonValue.entriesFinite item.entries = true
  | .ref nodeId label, _ => rfl
  | .node shown children references, h => by
    have hshown := finite_treeNode shown
    have hchildren := finite_childItems children fun n hn => h n (List.mem_cons_of_mem _ hn)
    rw [h shown List.mem_cons_self] at hshown
    rw [TreeItem.entries, JsonValue.entriesFinite, hshown, JsonValue.entriesFinite, JsonValue.finite, hchildren]
    split
    · rfl
    · rw [JsonValue.entriesFinite, JsonValue.finite, finite_references]
      rfl

theorem finite_childItems : ∀ children : List (String × TreeItem),
    (∀ shown ∈ TreeItem.expandedIn children, JsonValue.entriesFinite shown.metadata.entries = true) →
      JsonValue.itemsFinite (TreeItem.childItems children) = true
  | [], _ => rfl
  | (relation, child) :: children, h => by
    have hchild := finite_entries child fun n hn => h n (List.mem_append_left _ hn)
    have hrest := finite_childItems children fun n hn => h n (List.mem_append_right _ hn)
    rw [TreeItem.childItems, JsonValue.itemsFinite, JsonValue.finite, entriesFinite_append, hchild, hrest]
    rfl

end

theorem finite_projection {snapshot : SurfaceGraphSnapshot} {projection : TreeProjection}
    (h : snapshot.buildTreeProjection = .ok projection) (hfinite : snapshot.finite = true) :
    (projection.toJson T).finite = true := by
  obtain ⟨_, hshows, _⟩ := SurfaceGraphSnapshot.buildTreeProjection_shows h
  have hnodes := (Bool.and_eq_true_iff.mp hfinite).1
  have hitem (item : TreeItem) (hitem : item ∈ projection.tree) :
      JsonValue.entriesFinite item.entries = true := by
    refine finite_entries item fun shown hshown => ?_
    obtain ⟨node, hnode, rfl⟩ := hshows shown (List.mem_flatMap.mpr ⟨item, hitem, hshown⟩)
    exact List.all_eq_true.mp hnodes node hnode
  have htree : JsonValue.itemsFinite (projection.tree.map fun item => .object item.entries) = true := by
    rw [JsonValue.itemsFinite_eq, List.all_map]
    exact List.all_eq_true.mpr hitem
  unfold TreeProjection.toJson
  simp only [JsonValue.finite, JsonValue.entriesFinite, finite_strings, finite_statistics, htree, Bool.true_and]

end NightScout
