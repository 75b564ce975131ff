import NightScout.Lib.BreadthFirst
import NightScout.Surface.Models

/-!
# The bounded subgraph

`_bounded_subgraph` in `recon/surface/builder.py` cuts a graph to what lies within `max_depth` edges of its
roots. An edge leads from its source to its target. Without roots, as without a depth, nothing is cut.
-/

namespace NightScout

open Lib

/-- `outgoing.get(source, [])`, in the order of the edges. -/
def outgoing (edges : List SurfaceEdge) (source : String) : List String :=
  (edges.filter fun edge => edge.sourceNodeId = source).map fun edge => edge.targetNodeId

theorem outgoing_mem {edges : List SurfaceEdge} {source target : String}
    (h : target ∈ outgoing edges source) : target ∈ edges.map fun edge => edge.targetNodeId := by
  rw [outgoing, List.mem_map] at h
  obtain ⟨edge, hedge, rfl⟩ := h
  exact List.mem_map_of_mem (List.mem_of_mem_filter hedge)

/-- `visible`: a root or an edge's target enters the queue once. -/
def visible (edges : List SurfaceEdge) (roots : List String) (maxDepth : ℕ) (nodeId : String) : Bool :=
  ((search (outgoing edges) maxDepth (roots.length + edges.length) roots (rootDepths roots)).get? nodeId).isSome

def boundedSubgraph (nodes : List SurfaceNode) (edges : List SurfaceEdge) (roots : List String) :
    Option ℕ → List SurfaceNode × List SurfaceEdge
  | none => (nodes, edges)
  | some maxDepth =>
    if roots = [] then (nodes, edges)
    else
      (nodes.filter fun node => visible edges roots maxDepth node.nodeId,
        edges.filter fun edge =>
          visible edges roots maxDepth edge.sourceNodeId && visible edges roots maxDepth edge.targetNodeId)

section Exact

variable (nodes : List SurfaceNode) (edges : List SurfaceEdge) (roots : List String) (maxDepth : ℕ)

/-- At most `maxDepth` edges from a root. -/
def WithinDepth (nodeId : String) : Prop := WithinSteps (outgoing edges) roots maxDepth nodeId

theorem visible_iff (nodeId : String) :
    visible edges roots maxDepth nodeId = true ↔ WithinDepth edges roots maxDepth nodeId := by
  unfold visible
  rw [Option.isSome_iff_ne_none]
  apply mem_search_iff (fun source target => outgoing_mem)
  rw [List.length_map]

theorem mem_nodes_boundedSubgraph (node : SurfaceNode) : node ∈ (boundedSubgraph nodes edges roots (some maxDepth)).1 ↔
      node ∈ nodes ∧ (roots = [] ∨ WithinDepth edges roots maxDepth node.nodeId) := by
  by_cases hroots : roots = []
  · simp [boundedSubgraph, hroots]
  · simp [boundedSubgraph, hroots, visible_iff]

theorem mem_edges_boundedSubgraph (edge : SurfaceEdge) : edge ∈ (boundedSubgraph nodes edges roots (some maxDepth)).2 ↔
      edge ∈ edges ∧ (roots = [] ∨ WithinDepth edges roots maxDepth edge.sourceNodeId ∧
          WithinDepth edges roots maxDepth edge.targetNodeId) := by
  by_cases hroots : roots = []
  · simp [boundedSubgraph, hroots]
  · simp [boundedSubgraph, hroots, visible_iff]

/-- Whether a node of the graph is kept is read off its identifier. -/
theorem mem_kept_ids {nodeId : String} (hnode : nodeId ∈ nodes.map fun node => node.nodeId) :
    nodeId ∈ (boundedSubgraph nodes edges roots (some maxDepth)).1.map (fun node => node.nodeId) ↔
      roots = [] ∨ WithinDepth edges roots maxDepth nodeId := by
  simp only [List.mem_map, mem_nodes_boundedSubgraph]
  constructor
  · rintro ⟨node, ⟨-, hkept⟩, rfl⟩
    exact hkept
  · intro hkept
    obtain ⟨node, hmem, rfl⟩ := List.mem_map.mp hnode
    exact ⟨node, ⟨hmem, hkept⟩, rfl⟩

/-- **The bounded subgraph is exact.** In their order, it keeps the nodes at most `maxDepth` edges from a root
    and the edges between such nodes; all of them where there is no root. Where every edge is between nodes of
    the graph, the edges kept are those with both endpoints kept. -/
theorem bounded_subgraph_exact : (boundedSubgraph nodes edges roots (some maxDepth)).1.Sublist nodes ∧
    (boundedSubgraph nodes edges roots (some maxDepth)).2.Sublist edges ∧
    (∀ node, node ∈ (boundedSubgraph nodes edges roots (some maxDepth)).1 ↔
      node ∈ nodes ∧ (roots = [] ∨ WithinDepth edges roots maxDepth node.nodeId)) ∧
    (∀ edge, edge ∈ (boundedSubgraph nodes edges roots (some maxDepth)).2 ↔ edge ∈ edges ∧ (roots = [] ∨
        WithinDepth edges roots maxDepth edge.sourceNodeId ∧ WithinDepth edges roots maxDepth edge.targetNodeId)) ∧
    ((∀ edge ∈ edges, edge.sourceNodeId ∈ nodes.map (fun node => node.nodeId) ∧
        edge.targetNodeId ∈ nodes.map (fun node => node.nodeId)) →
      ∀ edge, edge ∈ (boundedSubgraph nodes edges roots (some maxDepth)).2 ↔ edge ∈ edges ∧
          edge.sourceNodeId ∈ (boundedSubgraph nodes edges roots (some maxDepth)).1.map (fun node => node.nodeId) ∧
          edge.targetNodeId ∈
            (boundedSubgraph nodes edges roots (some maxDepth)).1.map (fun node => node.nodeId)) := by
  refine ⟨?_, ?_, mem_nodes_boundedSubgraph nodes edges roots maxDepth,
    mem_edges_boundedSubgraph nodes edges roots maxDepth, ?_⟩
  · by_cases hroots : roots = []
    · simp [boundedSubgraph, hroots]
    · simp [boundedSubgraph, hroots]
  · by_cases hroots : roots = []
    · simp [boundedSubgraph, hroots]
    · simp [boundedSubgraph, hroots]
  · intro hends edge
    rw [mem_edges_boundedSubgraph]
    apply and_congr_right
    intro hedge
    rw [mem_kept_ids nodes edges roots maxDepth (hends edge hedge).1,
      mem_kept_ids nodes edges roots maxDepth (hends edge hedge).2, or_and_left]

end Exact

theorem loneNode_observed : 1 ≤ 1 := le_refl 1

def loneNode : SurfaceNode where
  nodeId := "node"
  kind := .domain
  value := "example.com"
  label := "example.com"
  confidence := 1
  novelty := 1
  firstSeen := 0
  lastSeen := 0
  observationCount := 1
  assetIds := []
  sources := []
  confidence_unit := one_unit
  novelty_unit := one_unit
  observed := loneNode_observed

/-- Without a root every node is kept, though none is at any distance from a root. -/
theorem bounded_subgraph_rootless : loneNode ∈ (boundedSubgraph [loneNode] [] [] (some 0)).1 ∧
      ¬ WithinDepth [] [] 0 loneNode.nodeId := by
  constructor
  · rw [mem_nodes_boundedSubgraph]
    exact ⟨List.mem_singleton_self _, .inl rfl⟩
  · rintro ⟨root, hroot, -⟩
    exact absurd hroot List.not_mem_nil

end NightScout
