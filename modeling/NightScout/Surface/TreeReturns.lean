import NightScout.Surface.Tree

/-!
# When the tree projection returns

The walk looks up the target of every child edge of every node it expands, and it expands every node. So the
projection of a snapshot returns if and only if no edge from a node is the primary edge of an identifier that no
node has (`buildTreeProjection_ok_iff`); an edge that is only a reference may lead anywhere.
-/

namespace NightScout

open Lib

namespace SurfaceGraphSnapshot

variable (snapshot : SurfaceGraphSnapshot)

/-- The nodes an item shows are nodes of the snapshot. -/
def Shows (items : List TreeItem) : Prop :=
  ∀ shown ∈ items.flatMap TreeItem.expanded, ∃ node ∈ snapshot.nodes, shown = node.treeNode

variable {snapshot}

/-! ## What a walk that returned has shown -/

/-- Every node that was entered could be expanded. -/
def Entered (snapshot : SurfaceGraphSnapshot) (seen seen' : List String) : Prop :=
  seen ⊆ seen' ∧ ∀ id ∈ seen', id ∈ seen ∨ snapshot.Expandable id

theorem Entered.refl (seen : List String) : snapshot.Entered seen seen :=
  ⟨List.Subset.refl seen, fun _ h => .inl h⟩

theorem Entered.trans {seen seen' seen'' : List String} (h : snapshot.Entered seen seen')
    (h' : snapshot.Entered seen' seen'') : snapshot.Entered seen seen'' :=
  ⟨List.Subset.trans h.1 h'.1, fun id hid => (h'.2 id hid).elim (h.2 id) .inr⟩

theorem Shows.append {items items' : List TreeItem} (h : snapshot.Shows items) (h' : snapshot.Shows items') :
    snapshot.Shows (items ++ items') := by
  intro shown hshown
  rw [List.flatMap_append] at hshown
  exact (List.mem_append.mp hshown).elim (h shown) (h' shown)

theorem visitChildren_entered {visit : String → List String → Except PyError (TreeItem × List String)}
    (hvisit : ∀ nodeId seen item seen', visit nodeId seen = .ok (item, seen') →
      nodeId ∈ snapshot.nodeIds ∧ snapshot.Entered seen seen' ∧ snapshot.Shows [item])
    (edges : List SurfaceEdge) {seen seen' : List String} {children : List (String × TreeItem)}
    (hrun : visitChildren visit edges seen = .ok (children, seen')) :
    (∀ edge ∈ edges, edge.targetNodeId ∈ snapshot.nodeIds) ∧ snapshot.Entered seen seen' ∧
      snapshot.Shows (children.map Prod.snd) := by
  induction edges generalizing seen children with
  | nil =>
    cases hrun
    exact ⟨fun _ h => (nomatch h), .refl _, fun _ h => (nomatch h)⟩
  | cons edge edges ih =>
    unfold visitChildren at hrun
    obtain ⟨⟨item, seen₁⟩, hitem, hrun⟩ := bind_ok hrun
    obtain ⟨⟨rest, seen₂⟩, hrest, hrun⟩ := bind_ok hrun
    cases hrun
    obtain ⟨hid, hentered, hshows⟩ := hvisit _ _ _ _ hitem
    obtain ⟨hids, hentered', hshows'⟩ := ih hrest
    exact ⟨List.forall_mem_cons.mpr ⟨hid, hids⟩, hentered.trans hentered', hshows.append hshows'⟩

theorem visit_entered (depth : ℕ) : ∀ (ancestry : List String) (nodeId : String) (seen : List String)
    (item : TreeItem) (seen' : List String), snapshot.visit depth ancestry nodeId seen = .ok (item, seen') →
      (nodeId ∈ snapshot.nodeIds ∧ snapshot.Entered seen seen' ∧ snapshot.Shows [item]) ∧
        (nodeId ∉ ancestry → nodeId ∈ seen') := by
  induction depth with
  | zero =>
    intro ancestry nodeId seen item seen' hrun
    cases hrun
  | succ depth ih =>
    intro ancestry nodeId seen item seen' hrun
    unfold visit at hrun
    cases hnode : snapshot.nodesById.get? nodeId with
    | none =>
      rw [hnode] at hrun
      cases hrun
    | some node =>
      have hnodeId : nodeId ∈ snapshot.nodeIds := exists_node_iff.mp ⟨node, hnode⟩
      rw [hnode] at hrun
      simp only at hrun
      split at hrun
      next hknown =>
        cases hrun
        refine ⟨⟨hnodeId, .refl _, ?_⟩, hknown.resolve_right⟩
        intro shown hshown
        cases hshown
      next =>
        obtain ⟨⟨children, seen₁⟩, hchildren, hrun⟩ := bind_ok hrun
        cases hrun
        obtain ⟨htargets, ⟨hsubset, hentered⟩, hshows⟩ := visitChildren_entered
          (fun id seen item seen' h => (ih (nodeId :: ancestry) id seen item seen' h).1) _ hchildren
        refine ⟨⟨hnodeId, ⟨List.Subset.trans (List.subset_cons_self nodeId seen) hsubset, ?_⟩, ?_⟩,
          fun _ => hsubset List.mem_cons_self⟩
        · intro id hid
          rcases hentered id hid with hid | hid
          · rcases List.mem_cons.mp hid with rfl | hid
            · exact .inr htargets
            · exact .inl hid
          · exact .inr hid
        · intro shown hshown
          rw [List.flatMap_singleton, TreeItem.expanded, TreeItem.expandedIn_eq] at hshown
          rcases List.mem_cons.mp hshown with rfl | hshown
          · exact ⟨node, (ofList_key hnode).1, rfl⟩
          · exact hshows shown hshown

theorem visitRoots_entered (roots : List String) {seen seen' : List String} {items : List TreeItem}
    (hrun : snapshot.visitRoots roots seen = .ok (items, seen')) :
    snapshot.Entered seen seen' ∧ snapshot.Shows items := by
  induction roots generalizing seen items with
  | nil =>
    cases hrun
    exact ⟨.refl _, fun _ h => (nomatch h)⟩
  | cons root roots ih =>
    unfold visitRoots at hrun
    split at hrun
    · exact ih hrun
    · obtain ⟨⟨item, seen₁⟩, hitem, hrun⟩ := bind_ok hrun
      obtain ⟨⟨rest, seen₂⟩, hrest, hrun⟩ := bind_ok hrun
      cases hrun
      obtain ⟨⟨_, hentered, hshows⟩, _⟩ := visit_entered _ _ _ _ _ _ hitem
      obtain ⟨hentered', hshows'⟩ := ih hrest
      exact ⟨hentered.trans hentered', hshows.append hshows'⟩

theorem visitRest_entered (nodes : List SurfaceNode) {seen seen' : List String} {items : List TreeItem}
    (hrun : snapshot.visitRest nodes seen = .ok (items, seen')) :
    snapshot.Entered seen seen' ∧ snapshot.Shows items ∧ ∀ node ∈ nodes, node.nodeId ∈ seen' := by
  induction nodes generalizing seen items with
  | nil =>
    cases hrun
    exact ⟨.refl _, fun _ h => (nomatch h), fun _ h => (nomatch h)⟩
  | cons node nodes ih =>
    unfold visitRest at hrun
    split at hrun
    next hknown =>
      obtain ⟨hentered, hshows, hall⟩ := ih hrun
      exact ⟨hentered, hshows, List.forall_mem_cons.mpr ⟨hentered.1 hknown, hall⟩⟩
    next =>
      obtain ⟨⟨item, seen₁⟩, hitem, hrun⟩ := bind_ok hrun
      obtain ⟨⟨rest, seen₂⟩, hrest, hrun⟩ := bind_ok hrun
      cases hrun
      obtain ⟨⟨_, hentered, hshows⟩, hmem⟩ := visit_entered _ _ _ _ _ _ hitem
      obtain ⟨hentered', hshows', hall⟩ := ih hrest
      exact ⟨hentered.trans hentered', hshows.append hshows',
        List.forall_mem_cons.mpr ⟨hentered'.1 (hmem List.not_mem_nil), hall⟩⟩

/-- What a projection that is returned shows. -/
theorem buildTreeProjection_shows {projection : TreeProjection}
    (h : snapshot.buildTreeProjection = .ok projection) :
    snapshot.Projectable ∧ snapshot.Shows projection.tree ∧ projection = {
      schemaVersion := snapshot.schemaVersion
      targetId := snapshot.targetId
      generatedAt := snapshot.generatedAt
      fingerprint := snapshot.fingerprint
      statistics := snapshot.statistics
      warnings := snapshot.warnings
      tree := projection.tree } := by
  unfold buildTreeProjection at h
  obtain ⟨⟨forest, seen⟩, hforest, h⟩ := bind_ok h
  obtain ⟨⟨rest, seen'⟩, hrest, h⟩ := bind_ok h
  cases h
  obtain ⟨hentered, hshows⟩ := visitRoots_entered _ hforest
  obtain ⟨hentered', hshows', hall⟩ := visitRest_entered _ hrest
  refine ⟨projectable_iff.mpr fun id hid => ?_, hshows.append hshows', rfl⟩
  obtain ⟨node, hnode, rfl⟩ := List.mem_map.mp hid
  exact ((hentered.trans hentered').2 _ (hall node hnode)).resolve_left List.not_mem_nil

theorem buildTreeProjection_ok_iff :
    (∃ projection, snapshot.buildTreeProjection = .ok projection) ↔ snapshot.Projectable := by
  constructor
  · rintro ⟨projection, h⟩
    exact (buildTreeProjection_shows h).1
  · intro h
    obtain ⟨forest, seen, hforest, hseen, _⟩ := visitRoots_spec h snapshot.treeRoots []
      ⟨List.nodup_nil, fun _ hid => nomatch hid⟩
    obtain ⟨rest, seen', hrest, _⟩ := visitRest_spec h snapshot.nodes (fun _ hnode => hnode) hseen
    unfold buildTreeProjection
    simp only [hforest, hrest, ok_bind, pure_eq_ok]
    exact ⟨_, rfl⟩

end SurfaceGraphSnapshot

end NightScout
