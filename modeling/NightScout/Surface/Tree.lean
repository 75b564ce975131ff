import NightScout.Lib.Lists
import NightScout.Lib.OrderedSets
import NightScout.Surface.Models
import Mathlib.Data.List.MinMax
import Mathlib.Data.Prod.Lex

/-!
# The tree projection

`recon/surface/tree.py`: a snapshot as a forest. Every node has at most one primary parent; an edge from it
is a child, every other edge is a reference. The walk expands a node when it first comes to it and leaves a
stub where it comes to it again, so a cycle ends.

`tree_projection_exact` is that the forest expands every node and shows every edge exactly once.

The depth of the walk is bounded by the number of nodes; the interpreter's own recursion limit is not
modelled.
-/

namespace NightScout

open Lib

def relationPriority : String → ℕ
  | "HAS_SUBDOMAIN" => 10
  | "EXPOSES_SERVICE" => 20
  | "HAS_CHILD_PATH" => 25
  | "HAS_ENDPOINT" => 30
  | "HAS_DNS_RECORD" => 40
  | "RESOLVES_TO" => 41
  | "ALIASES_TO" => 42
  | "PRESENTS_CERTIFICATE" => 50
  | "CERTIFICATE_NAMES" => 51
  | "USES_TECHNOLOGY" => 60
  | "HAS_PARAMETER" => 61
  | "REFERENCES" => 62
  | "HAS_FINGERPRINT" => 63
  | "POTENTIALLY_AFFECTED_BY" => 70
  | "CONFIRMED_AFFECTED_BY" => 71
  | "RELATED_TO" => 90
  | _ => 80

structure TreeNode where
  id : String
  kind : SurfaceNodeKind
  value : String
  label : String
  roles : List String
  scopeState : ScopeState
  discoveryState : DiscoveryState
  livenessState : LivenessState
  confidence : ℚ
  observationCount : ℕ
  sources : List String
  metadata : Metadata

structure TreeReference where
  ref : String
  label : String
  relation : String

/-- An item of the tree: a stub of a node that is expanded elsewhere, or a node with its children, each
    under its relation. -/
inductive TreeItem where
  | ref (ref label : String)
  | node (node : TreeNode) (children : List (String × TreeItem)) (references : List TreeReference)

def SurfaceNode.treeNode (node : SurfaceNode) : TreeNode where
  id := node.nodeId
  kind := node.kind
  value := node.value
  label := node.label
  roles := node.roles
  scopeState := node.scopeState
  discoveryState := node.discoveryState
  livenessState := node.livenessState
  confidence := node.confidence
  observationCount := node.observationCount
  sources := node.sources
  metadata := node.metadata

structure TreeProjection where
  schemaVersion : ℕ
  targetId : String
  generatedAt : Instant
  fingerprint : String
  statistics : SurfaceGraphStatistics
  warnings : List String
  tree : List TreeItem

namespace SurfaceGraphSnapshot

variable (snapshot : SurfaceGraphSnapshot)

/-- `nodes`, by identifier. -/
def nodesById : Dict String SurfaceNode := ofList (fun node => node.nodeId) snapshot.nodes

def incoming (target : String) : List SurfaceEdge :=
  snapshot.edges.filter fun edge => edge.targetNodeId = target

def valueOf (nodeId : String) : String := ((snapshot.nodesById.get? nodeId).map (·.value)).getD ""

def parentRank (edge : SurfaceEdge) : ℕ ×ₗ String ×ₗ String :=
  let priority := if edge.relation = "HAS_CHILD_PATH" then 15 else relationPriority edge.relation
  toLex (priority, toLex (snapshot.valueOf edge.sourceNodeId, edge.sourceNodeId))

def childRank (edge : SurfaceEdge) : ℕ ×ₗ String ×ₗ String :=
  toLex (relationPriority edge.relation,
    toLex (snapshot.valueOf edge.targetNodeId, edge.targetNodeId))

/-- `primary`: the edge from the primary parent. -/
def primary (target : String) : Option SurfaceEdge :=
  (snapshot.incoming target).argmin snapshot.parentRank

def sortedByChild (edges : List SurfaceEdge) : List SurfaceEdge :=
  edges.insertionSort fun a b => snapshot.childRank a ≤ snapshot.childRank b

/-- `children`, of a source. -/
def children (source : String) : List SurfaceEdge :=
  snapshot.sortedByChild (snapshot.edges.filter fun edge =>
    edge.sourceNodeId = source ∧ snapshot.primary edge.targetNodeId = some edge)

/-- `related`, of a source. -/
def related (source : String) : List SurfaceEdge :=
  snapshot.sortedByChild (snapshot.edges.filter fun edge =>
    edge.sourceNodeId = source ∧ snapshot.primary edge.targetNodeId ≠ some edge)

/-- `references`, of a node. -/
def references (nodeId : String) : List TreeReference :=
  (snapshot.related nodeId).filterMap fun edge =>
    (snapshot.nodesById.get? edge.targetNodeId).map fun node =>
      ⟨edge.targetNodeId, node.label, edge.relation⟩

/-- The roots of the snapshot, and every other node nothing comes into. -/
def treeRoots : List String :=
  snapshot.nodes.foldl (fun roots node =>
    if snapshot.incoming node.nodeId = [] ∧ node.nodeId ∉ roots then roots ++ [node.nodeId]
    else roots) snapshot.roots

/-- The children of an item, in turn. -/
def visitChildren (visit : String → List String → Except PyError (TreeItem × List String)) :
    List SurfaceEdge → List String → Except PyError (List (String × TreeItem) × List String)
  | [], seen => .ok ([], seen)
  | edge :: edges, seen => do
    let (child, seen) ← visit edge.targetNodeId seen
    let (children, seen) ← visitChildren visit edges seen
    return ((edge.relation, child) :: children, seen)

/-- `visit`, with `seen` before and after. -/
def visit : ℕ → List String → String → List String → Except PyError (TreeItem × List String)
  | 0, _, _, _ => .error (.runtimeError "maximum recursion depth exceeded")
  | depth + 1, ancestry, nodeId, seen =>
    match snapshot.nodesById.get? nodeId with
    | none => .error (.keyError nodeId)
    | some node =>
      if nodeId ∈ seen ∨ nodeId ∈ ancestry then .ok (.ref nodeId node.label, seen)
      else do
        let (children, seen) ← visitChildren (visit depth (nodeId :: ancestry))
          (snapshot.children nodeId) (nodeId :: seen)
        return (.node node.treeNode children (snapshot.references nodeId), seen)

/-- The deepest walk enters every node once. -/
def depthLimit : ℕ := snapshot.nodes.length + 1

def visitRoots : List String → List String → Except PyError (List TreeItem × List String)
  | [], seen => .ok ([], seen)
  | root :: roots, seen =>
    if snapshot.nodesById.get? root = none then visitRoots roots seen
    else do
      let (item, seen) ← snapshot.visit snapshot.depthLimit [] root seen
      let (items, seen) ← visitRoots roots seen
      return (item :: items, seen)

/-- The nodes no root leads to. -/
def visitRest : List SurfaceNode → List String → Except PyError (List TreeItem × List String)
  | [], seen => .ok ([], seen)
  | node :: nodes, seen =>
    if node.nodeId ∈ seen then visitRest nodes seen
    else do
      let (item, seen) ← snapshot.visit snapshot.depthLimit [] node.nodeId seen
      let (items, seen) ← visitRest nodes seen
      return (item :: items, seen)

def buildTreeProjection : Except PyError TreeProjection := do
  let (forest, seen) ← snapshot.visitRoots snapshot.treeRoots []
  let (rest, _) ← snapshot.visitRest snapshot.nodes seen
  return {
    schemaVersion := snapshot.schemaVersion
    targetId := snapshot.targetId
    generatedAt := snapshot.generatedAt
    fingerprint := snapshot.fingerprint
    statistics := snapshot.statistics
    warnings := snapshot.warnings
    tree := forest ++ rest }

end SurfaceGraphSnapshot

/-! ## What a tree shows -/

namespace TreeItem

def nodeId : TreeItem → String
  | ref id _ => id
  | node shown _ _ => shown.id

mutual

/-- The nodes that are expanded. -/
def expanded : TreeItem → List TreeNode
  | ref _ _ => []
  | node shown children _ => shown :: expandedIn children

def expandedIn : List (String × TreeItem) → List TreeNode
  | [] => []
  | (_, child) :: children => expanded child ++ expandedIn children

end

mutual

/-- The edges that are shown, as source, relation and target. -/
def links : TreeItem → List (String × String × String)
  | ref _ _ => []
  | node shown children references =>
    children.map (fun child => (shown.id, child.1, child.2.nodeId)) ++
      references.map (fun reference => (shown.id, reference.relation, reference.ref)) ++
      linksIn children

def linksIn : List (String × TreeItem) → List (String × String × String)
  | [] => []
  | (_, child) :: children => links child ++ linksIn children

end

theorem expandedIn_eq (children : List (String × TreeItem)) :
    expandedIn children = (children.map Prod.snd).flatMap expanded := by
  induction children with
  | nil => rfl
  | cons child children ih => rw [expandedIn, ih, List.map_cons, List.flatMap_cons]

theorem linksIn_eq (children : List (String × TreeItem)) :
    linksIn children = (children.map Prod.snd).flatMap links := by
  induction children with
  | nil => rfl
  | cons child children ih => rw [linksIn, ih, List.map_cons, List.flatMap_cons]

end TreeItem

namespace SurfaceGraphSnapshot

variable (snapshot : SurfaceGraphSnapshot)

def nodeIds : List String := snapshot.nodes.map fun node => node.nodeId

/-- The edges from a node. -/
def outgoing (nodeId : String) : List (String × String × String) :=
  (snapshot.edges.filter fun edge => edge.sourceNodeId = nodeId).map fun edge => edge.key

/-- The items expand what was seen in between, and show its edges. -/
def Covers (items : List TreeItem) (seen seen' : List String) : Prop :=
  ∃ new, seen'.Perm (new ++ seen) ∧
    items.flatMap TreeItem.expanded =
      new.filterMap (fun id => (snapshot.nodesById.get? id).map SurfaceNode.treeNode) ∧
    (items.flatMap TreeItem.links).Perm (new.flatMap snapshot.outgoing)

/-- The primary edges from nodes are to nodes. -/
def Projectable : Prop :=
  ∀ edge ∈ snapshot.edges, edge.sourceNodeId ∈ snapshot.nodeIds →
    snapshot.primary edge.targetNodeId = some edge → edge.targetNodeId ∈ snapshot.nodeIds

/-- The child edges of a node are to nodes. -/
def Expandable (nodeId : String) : Prop :=
  ∀ edge ∈ snapshot.children nodeId, edge.targetNodeId ∈ snapshot.nodeIds

/-- What is seen at a time. -/
structure Seen (seen : List String) : Prop where
  nodup : seen.Nodup
  subset : ∀ id ∈ seen, id ∈ snapshot.nodeIds

variable {snapshot}

theorem Covers.nil (seen : List String) : snapshot.Covers [] seen seen :=
  ⟨[], .refl _, rfl, .refl _⟩

theorem Covers.append {items items' : List TreeItem} {seen seen' seen'' : List String}
    (h : snapshot.Covers items seen seen') (h' : snapshot.Covers items' seen' seen'') :
    snapshot.Covers (items ++ items') seen seen'' := by
  obtain ⟨new, hseen, hexpanded, hlinks⟩ := h
  obtain ⟨new', hseen', hexpanded', hlinks'⟩ := h'
  refine ⟨new ++ new', ?_, ?_, ?_⟩
  · have hperm : seen''.Perm (new' ++ (new ++ seen)) := hseen'.trans (hseen.append_left new')
    rw [← List.append_assoc] at hperm
    exact hperm.trans (List.perm_append_comm.append_right seen)
  · rw [List.flatMap_append, List.filterMap_append, hexpanded, hexpanded']
  · rw [List.flatMap_append, List.flatMap_append]
    exact hlinks.append hlinks'

theorem Seen.length_le {seen : List String} (h : snapshot.Seen seen) : seen.length ≤ snapshot.nodeIds.length :=
  (List.subperm_of_subset h.nodup h.subset).length_le

theorem sortedByChild_perm (edges : List SurfaceEdge) : (snapshot.sortedByChild edges).Perm edges :=
  List.perm_insertionSort _ _

/-- An edge from a node is its child or its reference. -/
theorem children_related (nodeId : String) :
    ((snapshot.children nodeId).map (fun edge => edge.key) ++
      (snapshot.related nodeId).map fun edge => edge.key).Perm (snapshot.outgoing nodeId) := by
  rw [← List.map_append]
  unfold outgoing
  apply List.Perm.map
  refine ((sortedByChild_perm _).append (sortedByChild_perm _)).trans ?_
  have hsplit := List.filter_append_perm
    (fun edge => decide (snapshot.primary edge.targetNodeId = some edge))
    (snapshot.edges.filter fun edge => edge.sourceNodeId = nodeId)
  rw [List.filter_filter, List.filter_filter] at hsplit
  refine List.Perm.trans (.of_eq ?_) hsplit
  congr 2
  · funext edge
    simp [Bool.and_comm]
  · funext edge
    simp [Bool.and_comm]

theorem mem_children_iff {nodeId : String} {edge : SurfaceEdge} : edge ∈ snapshot.children nodeId ↔
      edge ∈ snapshot.edges ∧ edge.sourceNodeId = nodeId ∧ snapshot.primary edge.targetNodeId = some edge := by
  unfold children
  rw [(sortedByChild_perm _).mem_iff, List.mem_filter, decide_eq_true_eq]

theorem projectable_iff : snapshot.Projectable ↔ ∀ id ∈ snapshot.nodeIds, snapshot.Expandable id := by
  constructor
  · intro h id hid edge hedge
    obtain ⟨hmem, rfl, hprimary⟩ := mem_children_iff.mp hedge
    exact h edge hmem hid hprimary
  · intro h edge hmem hsource hprimary
    exact h _ hsource edge (mem_children_iff.mpr ⟨hmem, rfl, hprimary⟩)

theorem exists_node_iff {id : String} : (∃ node, snapshot.nodesById.get? id = some node) ↔ id ∈ snapshot.nodeIds := by
  constructor
  · rintro ⟨node, hnode⟩
    obtain ⟨hmem, rfl⟩ := ofList_key hnode
    exact List.mem_map_of_mem hmem
  · intro hid
    obtain ⟨node, hnode, rfl⟩ := List.mem_map.mp hid
    exact exists_get?_ofList hnode

theorem mem_related {nodeId : String} {edge : SurfaceEdge} (h : edge ∈ snapshot.related nodeId) :
    edge ∈ snapshot.edges ∧ edge.sourceNodeId = nodeId := by
  have hmem := List.mem_filter.mp ((sortedByChild_perm _).mem_iff.mp h)
  have hsource := of_decide_eq_true hmem.2
  exact ⟨hmem.1, hsource.1⟩

/-- No reference is left out. -/
theorem map_references (h : snapshot.WellFormed) (nodeId : String) :
    (snapshot.references nodeId).map (fun reference => (nodeId, reference.relation, reference.ref)) =
      (snapshot.related nodeId).map fun edge => edge.key := by
  unfold references
  have hall : ∀ edge ∈ snapshot.related nodeId,
      edge.sourceNodeId = nodeId ∧ ∃ node, snapshot.nodesById.get? edge.targetNodeId = some node := by
    intro edge hedge
    obtain ⟨hmem, hsource⟩ := mem_related hedge
    obtain ⟨node, hnode⟩ := exists_node_iff.mpr (h.endpoints edge hmem).2
    exact ⟨hsource, node, hnode⟩
  generalize snapshot.related nodeId = edges at hall
  induction edges with
  | nil => rfl
  | cons edge edges ih =>
    obtain ⟨hsource, node, hnode⟩ := hall edge List.mem_cons_self
    rw [List.filterMap_cons_some (by rw [hnode]; rfl), List.map_cons, List.map_cons,
      ih fun e he => hall e (List.mem_cons_of_mem _ he)]
    unfold SurfaceEdge.key
    rw [hsource]

/-! ## The walk -/

/-- The room that is left for the walk. -/
def Room (snapshot : SurfaceGraphSnapshot) (depth : ℕ) (ancestry seen : List String) : Prop :=
  snapshot.Seen seen ∧ ancestry ⊆ seen ∧ snapshot.nodeIds.length < depth + seen.length

theorem Room.later {depth : ℕ} {ancestry seen seen' : List String} (hroom : snapshot.Room depth ancestry seen)
    (hseen : snapshot.Seen seen') (hsubset : seen ⊆ seen') : snapshot.Room depth ancestry seen' := by
  have hlength := (List.subperm_of_subset hroom.1.nodup hsubset).length_le
  exact ⟨hseen, fun id h => hsubset (hroom.2.1 h), by have := hroom.2.2; omega⟩

theorem WellFormed.projectable (h : snapshot.WellFormed) : snapshot.Projectable :=
  fun edge hedge _ _ => (h.endpoints edge hedge).2

/-- The walk of children, from the walk of one. -/
theorem visitChildren_spec {depth : ℕ} {ancestry : List String}
    {visit : String → List String → Except PyError (TreeItem × List String)}
    (hvisit : ∀ nodeId ∈ snapshot.nodeIds, ∀ seen, snapshot.Room depth ancestry seen →
      ∃ item seen', visit nodeId seen = .ok (item, seen') ∧ item.nodeId = nodeId ∧
        snapshot.Seen seen' ∧ seen ⊆ seen' ∧ (snapshot.WellFormed → snapshot.Covers [item] seen seen'))
    (edges : List SurfaceEdge) (htargets : ∀ edge ∈ edges, edge.targetNodeId ∈ snapshot.nodeIds)
    (seen : List String) (hroom : snapshot.Room depth ancestry seen) :
    ∃ children seen', visitChildren visit edges seen = .ok (children, seen') ∧
      children.map (fun child => (child.1, child.2.nodeId)) =
        edges.map (fun edge => (edge.relation, edge.targetNodeId)) ∧
      snapshot.Seen seen' ∧ seen ⊆ seen' ∧
      (snapshot.WellFormed → snapshot.Covers (children.map Prod.snd) seen seen') := by
  induction edges generalizing seen with
  | nil => exact ⟨[], seen, rfl, rfl, hroom.1, List.Subset.refl seen, fun _ => .nil seen⟩
  | cons edge edges ih =>
    obtain ⟨item, seen', hrun, hid, hseen', hsubset, hcovers⟩ :=
      hvisit edge.targetNodeId (htargets edge List.mem_cons_self) seen hroom
    obtain ⟨children, seen'', hrun', hshape, hseen'', hsubset', hcovers'⟩ :=
      ih (fun e he => htargets e (List.mem_cons_of_mem _ he)) seen' (hroom.later hseen' hsubset)
    refine ⟨(edge.relation, item) :: children, seen'', ?_, ?_, hseen'', List.Subset.trans hsubset hsubset',
      fun h => (hcovers h).append (hcovers' h)⟩
    · unfold visitChildren
      simp only [hrun, hrun', ok_bind, pure_eq_ok]
    · rw [List.map_cons, List.map_cons, hshape, hid]

theorem visit_spec (hproject : snapshot.Projectable) (depth : ℕ) : ∀ (ancestry : List String),
    ∀ nodeId ∈ snapshot.nodeIds, ∀ seen, snapshot.Room depth ancestry seen →
      ∃ item seen', snapshot.visit depth ancestry nodeId seen = .ok (item, seen') ∧
        item.nodeId = nodeId ∧ nodeId ∈ seen' ∧ snapshot.Seen seen' ∧ seen ⊆ seen' ∧
        (snapshot.WellFormed → snapshot.Covers [item] seen seen') := by
  induction depth with
  | zero =>
    intro ancestry nodeId _ seen ⟨hseen, _, hlength⟩
    have := hseen.length_le
    omega
  | succ depth ih =>
    intro ancestry nodeId hnodeId seen ⟨hseen, hancestry, hlength⟩
    obtain ⟨node, hnode⟩ := exists_node_iff.mpr hnodeId
    have hid : node.nodeId = nodeId := (ofList_key hnode).2
    unfold visit
    rw [hnode]
    by_cases hknown : nodeId ∈ seen ∨ nodeId ∈ ancestry
    · -- a stub: nothing is expanded
      have hmem : nodeId ∈ seen := hknown.elim id fun hmem => hancestry hmem
      exact ⟨.ref nodeId node.label, seen, if_pos hknown, rfl, hmem, hseen, List.Subset.refl seen,
        fun _ => ⟨[], .refl _, rfl, .refl _⟩⟩
    · have hnew : nodeId ∉ seen := fun hmem => hknown (.inl hmem)
      have hroom : snapshot.Room depth (nodeId :: ancestry) (nodeId :: seen) := by
        refine ⟨⟨List.nodup_cons.mpr ⟨hnew, hseen.nodup⟩, ?_⟩, ?_, ?_⟩
        · intro id hmem
          rcases List.mem_cons.mp hmem with rfl | hmem
          · exact hnodeId
          · exact hseen.subset id hmem
        · exact List.cons_subset_cons nodeId hancestry
        · rw [List.length_cons]
          omega
      obtain ⟨children, seen', hrun, hshape, hseen', hsubset, hcovers⟩ :=
        visitChildren_spec
          (fun id hmem seen hroom => by
            obtain ⟨item, seen', hrun, hitem, _, hrest⟩ := ih (nodeId :: ancestry) id hmem seen hroom
            exact ⟨item, seen', hrun, hitem, hrest⟩)
          (snapshot.children nodeId) (projectable_iff.mp hproject nodeId hnodeId) (nodeId :: seen) hroom
      refine ⟨.node node.treeNode children (snapshot.references nodeId), seen', ?_, hid, hsubset List.mem_cons_self,
        hseen', List.Subset.trans (List.subset_cons_self nodeId seen) hsubset, fun h => ?_⟩
      · simp only [if_neg hknown, hrun, ok_bind, pure_eq_ok]
      · obtain ⟨new, hperm, hexpanded, hlinks⟩ := hcovers h
        refine ⟨nodeId :: new, hperm.trans List.perm_middle, ?_, ?_⟩
        · rw [List.flatMap_singleton, TreeItem.expanded, TreeItem.expandedIn_eq, hexpanded,
            List.filterMap_cons_some (by rw [hnode]; rfl)]
        · rw [List.flatMap_singleton, TreeItem.links, TreeItem.linksIn_eq, List.flatMap_cons]
          refine List.Perm.append ?_ hlinks
          refine List.Perm.trans (.of_eq ?_) (children_related nodeId)
          have hnodeLinks : node.treeNode.id = nodeId := hid
          rw [hnodeLinks, map_references h nodeId]
          congr 1
          have hmap := congrArg (List.map fun c : String × String => (nodeId, c.1, c.2)) hshape
          rw [List.map_map, List.map_map] at hmap
          refine hmap.trans (List.map_congr_left fun edge hedge => ?_)
          show (nodeId, edge.relation, edge.targetNodeId) = edge.key
          rw [← (mem_children_iff.mp hedge).2.1]
          rfl

/-- The walk from the top, with room for every node. -/
theorem visit_top (hproject : snapshot.Projectable) {nodeId : String} (hnodeId : nodeId ∈ snapshot.nodeIds)
    {seen : List String} (hseen : snapshot.Seen seen) :
    ∃ item seen', snapshot.visit snapshot.depthLimit [] nodeId seen = .ok (item, seen') ∧
      nodeId ∈ seen' ∧ snapshot.Seen seen' ∧ seen ⊆ seen' ∧
      (snapshot.WellFormed → snapshot.Covers [item] seen seen') := by
  have hlength : snapshot.nodeIds.length < snapshot.depthLimit + seen.length := by
    unfold nodeIds depthLimit
    rw [List.length_map]
    omega
  obtain ⟨item, seen', hrun, _, hrest⟩ :=
    visit_spec hproject snapshot.depthLimit [] nodeId hnodeId seen ⟨hseen, List.nil_subset seen, hlength⟩
  exact ⟨item, seen', hrun, hrest⟩

theorem visitRoots_spec (hproject : snapshot.Projectable) (roots : List String) (seen : List String)
    (hseen : snapshot.Seen seen) :
    ∃ items seen', snapshot.visitRoots roots seen = .ok (items, seen') ∧ snapshot.Seen seen' ∧
      (snapshot.WellFormed → snapshot.Covers items seen seen') := by
  induction roots generalizing seen with
  | nil => exact ⟨[], seen, rfl, hseen, fun _ => .nil seen⟩
  | cons root roots ih =>
    unfold visitRoots
    by_cases hroot : snapshot.nodesById.get? root = none
    · rw [if_pos hroot]
      exact ih seen hseen
    · rw [if_neg hroot]
      have hrootId := exists_node_iff.mp (Option.ne_none_iff_exists'.mp hroot)
      obtain ⟨item, seen', hrun, _, hseen', _, hcovers⟩ := visit_top hproject hrootId hseen
      obtain ⟨items, seen'', hrun', hseen'', hcovers'⟩ := ih seen' hseen'
      refine ⟨item :: items, seen'', ?_, hseen'', fun h => (hcovers h).append (hcovers' h)⟩
      simp only [hrun, hrun', ok_bind, pure_eq_ok]

/-- After the rest, every node was seen. -/
theorem visitRest_spec (hproject : snapshot.Projectable) (nodes : List SurfaceNode)
    (hnodes : ∀ node ∈ nodes, node ∈ snapshot.nodes) {seen : List String} (hseen : snapshot.Seen seen) :
    ∃ items seen', snapshot.visitRest nodes seen = .ok (items, seen') ∧ snapshot.Seen seen' ∧ seen ⊆ seen' ∧
      (snapshot.WellFormed → snapshot.Covers items seen seen') ∧ ∀ node ∈ nodes, node.nodeId ∈ seen' := by
  induction nodes generalizing seen with
  | nil => exact ⟨[], seen, rfl, hseen, List.Subset.refl seen, fun _ => .nil seen, fun _ hnode => nomatch hnode⟩
  | cons node nodes ih =>
    have hrest : ∀ n ∈ nodes, n ∈ snapshot.nodes := fun n hn => hnodes n (List.mem_cons_of_mem _ hn)
    unfold visitRest
    by_cases hknown : node.nodeId ∈ seen
    · rw [if_pos hknown]
      obtain ⟨items, seen', hrun, hseen', hsubset, hcovers, hall⟩ := ih hrest hseen
      exact ⟨items, seen', hrun, hseen', hsubset, hcovers, List.forall_mem_cons.mpr ⟨hsubset hknown, hall⟩⟩
    · rw [if_neg hknown]
      have hid : node.nodeId ∈ snapshot.nodeIds :=
        List.mem_map_of_mem (hnodes node List.mem_cons_self)
      obtain ⟨item, seen', hrun, hmem, hseen', hsubset, hcovers⟩ := visit_top hproject hid hseen
      obtain ⟨items, seen'', hrun', hseen'', hsubset', hcovers', hall⟩ := ih hrest hseen'
      refine ⟨item :: items, seen'', ?_, hseen'', List.Subset.trans hsubset hsubset',
        fun h => (hcovers h).append (hcovers' h), List.forall_mem_cons.mpr ⟨hsubset' hmem, hall⟩⟩
      simp only [hrun, hrun', ok_bind, pure_eq_ok]

end SurfaceGraphSnapshot

/-- **The projection loses and repeats nothing**: it returns, expands every node once and shows every edge
    once, as a child or as a reference. -/
theorem tree_projection_exact (snapshot : SurfaceGraphSnapshot) (h : snapshot.WellFormed) :
    ∃ projection, snapshot.buildTreeProjection = .ok projection ∧ (projection.tree.flatMap TreeItem.expanded).Perm
        (snapshot.nodes.map SurfaceNode.treeNode) ∧
      (projection.tree.flatMap TreeItem.links).Perm (snapshot.edges.map fun edge => edge.key) := by
  obtain ⟨forest, seen, hroots, hseen, hcovers⟩ :=
    SurfaceGraphSnapshot.visitRoots_spec h.projectable snapshot.treeRoots []
      ⟨List.nodup_nil, fun _ hid => nomatch hid⟩
  obtain ⟨rest, seen', hrest, hseen', _, hcovers', hall⟩ :=
    SurfaceGraphSnapshot.visitRest_spec h.projectable snapshot.nodes (fun _ hnode => hnode) hseen
  obtain ⟨new, hperm, hexpanded, hlinks⟩ := (hcovers h).append (hcovers' h)
  rw [List.append_nil] at hperm
  -- what was seen is every node
  have hnew : new.Perm snapshot.nodeIds := by
    refine hperm.symm.trans ((List.perm_ext_iff_of_nodup hseen'.nodup h.nodeIds).mpr fun id => ?_)
    constructor
    · exact hseen'.subset id
    · intro hid
      obtain ⟨node, hnode, rfl⟩ := List.mem_map.mp hid
      exact hall node hnode
  have hbuild : snapshot.buildTreeProjection = .ok {
      schemaVersion := snapshot.schemaVersion
      targetId := snapshot.targetId
      generatedAt := snapshot.generatedAt
      fingerprint := snapshot.fingerprint
      statistics := snapshot.statistics
      warnings := snapshot.warnings
      tree := forest ++ rest } := by
    unfold SurfaceGraphSnapshot.buildTreeProjection
    simp only [hroots, hrest, ok_bind, pure_eq_ok]
  refine ⟨_, hbuild, ?_, ?_⟩
  · show ((forest ++ rest).flatMap TreeItem.expanded).Perm _
    rw [hexpanded]
    refine (hnew.filterMap _).trans (.of_eq ?_)
    unfold SurfaceGraphSnapshot.nodeIds
    rw [List.filterMap_map]
    refine (List.filterMap_congr fun node hnode => ?_).trans
      (congrFun List.filterMap_eq_map _)
    show (snapshot.nodesById.get? node.nodeId).map SurfaceNode.treeNode = some node.treeNode
    rw [SurfaceGraphSnapshot.nodesById, get?_ofList h.nodeIds hnode]
    rfl
  · show ((forest ++ rest).flatMap TreeItem.links).Perm _
    refine hlinks.trans ((hnew.flatMap_right _).trans ?_)
    have hgroups : (snapshot.nodeIds.flatMap fun id =>
        snapshot.edges.filter fun edge => edge.sourceNodeId = id).Perm snapshot.edges := by
      refine (flatMap_filter_perm (fun edge : SurfaceEdge => edge.sourceNodeId) h.nodeIds
        snapshot.edges).trans (.of_eq ?_)
      rw [List.filter_eq_self]
      intro edge hedge
      exact decide_eq_true (h.endpoints edge hedge).1
    have hkeys := hgroups.map fun edge => edge.key
    rw [List.map_flatMap] at hkeys
    exact hkeys

theorem loopHost_observed : 1 ≤ 1 := le_refl 1

/-- A host that redirects to itself and to another, which redirects back; no node is a root. -/
def loopSnapshot : SurfaceGraphSnapshot :=
  let host := fun (nodeId value : String) =>
    ({ nodeId, kind := .domain, value, label := value, confidence := 1, novelty := 1
       firstSeen := 0, lastSeen := 0, observationCount := 1, assetIds := [], sources := []
       confidence_unit := one_unit, novelty_unit := one_unit
       observed := loopHost_observed } : SurfaceNode)
  let redirect := fun (edgeId sourceNodeId targetNodeId : String) =>
    ({ edgeId, sourceNodeId, targetNodeId, relation := "RELATED_TO", confidence := 1
       firstSeen := 0, lastSeen := 0, confidence_unit := one_unit } : SurfaceEdge)
  { targetId := "target", generatedAt := 0, fingerprint := "", roots := []
    nodes := [host "sgn_a" "a.example.com", host "sgn_b" "b.example.com"]
    edges := [redirect "sge_1" "sgn_a" "sgn_a", redirect "sge_2" "sgn_a" "sgn_b",
      redirect "sge_3" "sgn_b" "sgn_a"]
    statistics := ⟨2, 3, 2, 0, .empty, .empty⟩ }

theorem tree_projection_exact_loop : ∃ projection, loopSnapshot.buildTreeProjection = .ok projection ∧
      (projection.tree.flatMap TreeItem.expanded).Perm (loopSnapshot.nodes.map SurfaceNode.treeNode) ∧
      (projection.tree.flatMap TreeItem.links).Perm
        (loopSnapshot.edges.map fun edge => edge.key) :=
  tree_projection_exact loopSnapshot ⟨by decide, by decide, by decide⟩

end NightScout
