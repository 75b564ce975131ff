import NightScout.Core.JsonReading
import NightScout.Lib.Texts
import NightScout.Surface.TreeReturns

/-!
# The HTML export of the surface

`export_surface_html` of `recon/exporters/surface.py`. The graph and the tree are written as JSON, `<`, `>` and
`&` are escaped, and the two texts are put in the place of two markers of the page, one after the other. The second
replacement goes over the text of the graph too.

The page around the two elements is a parameter; of its text only the two elements and the markers matter. Times
are written by the language.
-/

namespace NightScout

open Lib

/-! ## What is dumped -/

def JsonValue.counts (counts : Dict String ℕ) : JsonValue :=
  .object (counts.entries.map fun e => (e.1, .int e.2))

section Dumps

variable (T : TimeText)

def SurfaceEvidenceRef.modelDump (ref : SurfaceEvidenceRef) : JsonValue :=
  .object [("event_id", .string ref.eventId), ("source", .string ref.source),
    ("event_type", .string ref.eventType.value), ("first_seen", .string (T.json ref.firstSeen))]

def SurfaceNode.modelDump (node : SurfaceNode) : JsonValue :=
  .object [("node_id", .string node.nodeId), ("kind", .string node.kind.value), ("value", .string node.value),
    ("label", .string node.label), ("roles", .strings node.roles),
    ("scope_state", .string node.scopeState.value), ("discovery_state", .string node.discoveryState.value),
    ("liveness_state", .string node.livenessState.value), ("confidence", .float node.confidence),
    ("novelty", .float node.novelty), ("first_seen", .string (T.json node.firstSeen)),
    ("last_seen", .string (T.json node.lastSeen)), ("observation_count", .int node.observationCount),
    ("asset_ids", .strings node.assetIds), ("sources", .strings node.sources), ("tags", .strings node.tags),
    ("evidence", .array (node.evidence.map (SurfaceEvidenceRef.modelDump T))),
    ("metadata", .object node.metadata.entries)]

def SurfaceEdge.modelDump (edge : SurfaceEdge) : JsonValue :=
  .object [("edge_id", .string edge.edgeId), ("source_node_id", .string edge.sourceNodeId),
    ("target_node_id", .string edge.targetNodeId), ("relation", .string edge.relation),
    ("confidence", .float edge.confidence), ("first_seen", .string (T.json edge.firstSeen)),
    ("last_seen", .string (T.json edge.lastSeen)),
    ("supporting_event_ids", .strings edge.supportingEventIds), ("derived", .bool edge.derived),
    ("metadata", .object edge.metadata.entries)]

def SurfaceGraphStatistics.modelDump (statistics : SurfaceGraphStatistics) : JsonValue :=
  .object [("node_count", .int statistics.nodeCount), ("edge_count", .int statistics.edgeCount),
    ("observations_considered", .int statistics.observationsConsidered),
    ("observations_excluded", .int statistics.observationsExcluded),
    ("nodes_by_kind", .counts statistics.nodesByKind), ("nodes_by_state", .counts statistics.nodesByState)]

/-- `snapshot.model_dump(mode="json")`. -/
def SurfaceGraphSnapshot.modelDump (snapshot : SurfaceGraphSnapshot) : JsonValue :=
  .object [("schema_version", .int snapshot.schemaVersion), ("target_id", .string snapshot.targetId),
    ("generated_at", .string (T.json snapshot.generatedAt)), ("fingerprint", .string snapshot.fingerprint),
    ("roots", .strings snapshot.roots),
    ("nodes", .array (snapshot.nodes.map (SurfaceNode.modelDump T))),
    ("edges", .array (snapshot.edges.map (SurfaceEdge.modelDump T))),
    ("statistics", snapshot.statistics.modelDump), ("warnings", .strings snapshot.warnings)]

end Dumps

def TreeNode.toJson (node : TreeNode) : JsonValue :=
  .object [("id", .string node.id), ("kind", .string node.kind.value), ("value", .string node.value),
    ("label", .string node.label), ("roles", .strings node.roles),
    ("scope_state", .string node.scopeState.value), ("discovery_state", .string node.discoveryState.value),
    ("liveness_state", .string node.livenessState.value), ("confidence", .float node.confidence),
    ("observation_count", .int node.observationCount), ("sources", .strings node.sources),
    ("metadata", .object node.metadata.entries)]

def TreeReference.toJson (reference : TreeReference) : JsonValue :=
  .object [("$ref", .string reference.ref), ("label", .string reference.label),
    ("relation", .string reference.relation)]

namespace TreeItem

mutual

/-- The entries of the dictionary an item is. -/
def entries : TreeItem → List (String × JsonValue)
  | .ref nodeId label => [("$ref", .string nodeId), ("label", .string label)]
  | .node shown children references =>
    ("node", shown.toJson) :: ("children", .array (childItems children)) ::
      if references.isEmpty then [] else [("references", .array (references.map TreeReference.toJson))]

/-- Children have their relation with them. -/
def childItems : List (String × TreeItem) → List JsonValue
  | [] => []
  | (relation, child) :: children =>
    .object (entries child ++ [("relation", .string relation)]) :: childItems children

end

end TreeItem

/-- The dictionary that `build_tree_projection` returns. -/
def TreeProjection.toJson (T : TimeText) (projection : TreeProjection) : JsonValue :=
  .object [("schema_version", .int projection.schemaVersion), ("target_id", .string projection.targetId),
    ("generated_at", .string (T.isoformat projection.generatedAt)),
    ("fingerprint", .string projection.fingerprint), ("statistics", projection.statistics.modelDump),
    ("warnings", .strings projection.warnings),
    ("tree", .array (projection.tree.map fun item => .object item.entries))]

/-! ## The page -/

def graphMarker : List Char := "__GRAPH_DATA__".toList

def treeMarker : List Char := "__TREE_DATA__".toList

def graphTag : List Char := "<script type=\"application/json\" id=\"graph-data\">".toList

def treeTag : List Char := "<script type=\"application/json\" id=\"tree-data\">".toList

def closeTag : List Char := "</script>".toList

/-- `_HTML_TEMPLATE`, around its two data elements. -/
structure SurfacePage where
  head : List Char
  tail : List Char
  head_graphMarker : ¬ graphMarker <:+: head
  head_treeMarker : ¬ treeMarker <:+: head
  tail_graphMarker : ¬ graphMarker <:+: tail
  tail_treeMarker : ¬ treeMarker <:+: tail
  head_graphTag : ¬ graphTag <:+: head
  head_treeTag : ¬ treeTag <:+: head

def SurfacePage.template (page : SurfacePage) : List Char :=
  page.head ++ (graphTag ++ (graphMarker ++ (closeTag ++ '\n' :: (treeTag ++ (treeMarker ++
    (closeTag ++ page.tail))))))

/-- The replacements after `json.dumps`. -/
def htmlSafe (text : List Char) : List Char :=
  replaceAll ['&'] "\\u0026".toList (replaceAll ['>'] "\\u003e".toList (replaceAll ['<'] "\\u003c".toList text))

section Export

variable (F : FloatText) (T : TimeText) (page : SurfacePage) (snapshot : SurfaceGraphSnapshot)

/-- A value as the page holds it. -/
def embedded (v : JsonValue) : List Char := htmlSafe (dumps F v.sortKeys)

/-- `export_surface_html`: the text that is written. -/
def exportSurfaceHtml : Except PyError (List Char) := do
  let graphJson := embedded F (snapshot.modelDump T)
  let projection ← snapshot.buildTreeProjection
  let treeJson := embedded F (projection.toJson T)
  return replaceAll treeMarker treeJson (replaceAll graphMarker graphJson page.template)

/-! ## What a browser reads -/

/-- The end tag of a script starts here. -/
def endsScript (cs : List Char) : Bool :=
  (cs.take 8).map Char.toLower = "</script".toList &&
    (cs.drop 8).head?.any fun c => c ∈ ['\t', '\n', Char.ofNat 12, ' ', '/', '>']

/-- The text of a script element, after its tag. -/
def scriptText : List Char → List Char
  | [] => []
  | c :: cs => if endsScript (c :: cs) then [] else c :: scriptText cs

/-- The text of the first element with the tag. -/
def elementText (tag html : List Char) : Option (List Char) := (after tag html).map scriptText

/-- The export succeeds, both elements hold the JSON of what they are for, and neither text has anything that could
    end its element. -/
def FaithfulExport : Prop :=
  ∃ html projection, exportSurfaceHtml F T page snapshot = .ok html ∧
    snapshot.buildTreeProjection = .ok projection ∧
    (∃ text, elementText graphTag html = some text ∧ '<' ∉ text ∧
      loads F false text = some (snapshot.modelDump T).sortKeys) ∧
    ∃ text, elementText treeTag html = some text ∧ '<' ∉ text ∧
      loads F false text = some (projection.toJson T).sortKeys

end Export

end NightScout
