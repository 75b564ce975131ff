import NightScout.Lib.Groups
import NightScout.Lib.Reachability
import NightScout.Policy.UrlReading
import NightScout.Surface.Identity

/-!
# Derived hierarchies

The edges `_derive_presentation_edges` in `recon/surface/builder.py` adds between nodes of one kind: a domain
beneath another, and a path beneath another on the same service. What it hands to `_merge_edge` is a list
here, without the clock readings and the confidence of one that all its edges carry.

The paths make a forest (`path_hierarchy_forest`). The domains do not stop at a public suffix: only the parent
itself is asked whether it is one (`subdomain_edges_stop_iff`).
-/

namespace NightScout

open Lib

/-! ## Nodes by their canonical values -/

/-- `{item.identity.canonical_value: node_id for node_id, item in nodes.items() if ...}`. -/
def nodesWhere (nodes : Dict String SurfaceIdentity) (p : SurfaceIdentity → Bool) : Dict String String :=
  .ofPairs ((nodes.entries.filter fun node => p node.2).map fun node => (node.2.canonicalValue, node.1))

def domains (nodes : Dict String SurfaceIdentity) : Dict String String :=
  nodesWhere nodes fun identity => identity.kind = .domain && !isWildcard identity.canonicalValue

def endpoints (nodes : Dict String SurfaceIdentity) : Dict String String :=
  nodesWhere nodes fun identity => identity.kind = .endpoint

structure DerivedEdge where
  source : String
  target : String
  relation : String
  metadata : Metadata

/-- `_merge_edge` drops an edge from a node to itself. -/
def DerivedEdge.merged (edge : DerivedEdge) : Option DerivedEdge :=
  if edge.source = edge.target then none else some edge

section NodesWhere

variable {nodes : Dict String SurfaceIdentity} {p : SurfaceIdentity → Bool} {value value' nodeId : String}

/-- A node is found by its own value. -/
theorem nodesWhere_value (h : (nodesWhere nodes p).get? value = some nodeId) :
    ∃ identity, nodes.get? nodeId = some identity ∧ identity.canonicalValue = value := by
  rcases Dict.get?_foldl_pairs h with hmem | hempty
  · obtain ⟨node, hnode, hpair⟩ := List.mem_map.mp hmem
    cases hpair
    exact ⟨node.2, Dict.mem_entries_iff.mp (List.mem_of_mem_filter hnode), rfl⟩
  · cases hempty

/-- A node has one value. -/
theorem nodesWhere_inj (h : (nodesWhere nodes p).get? value = some nodeId)
    (h' : (nodesWhere nodes p).get? value' = some nodeId) : value = value' := by
  obtain ⟨identity, hidentity, rfl⟩ := nodesWhere_value h
  obtain ⟨identity', hidentity', rfl⟩ := nodesWhere_value h'
  rw [hidentity] at hidentity'
  cases hidentity'
  rfl

end NodesWhere

/-! ## Paths -/

/-- `PurePosixPath(path).parts`. -/
def pathParts (path : String) : List String :=
  let root :=
    if path.toList.take 2 = ['/', '/'] ∧ path.toList.take 3 ≠ ['/', '/', '/'] then ["//"]
    else if path.toList.head? = some '/' then ["/"]
    else []
  root ++ ((path.toList.splitOn '/').filter fun part => part ≠ [] ∧ part ≠ ['.']).map String.ofList

def isPathParent (parent child : String) : Bool :=
  (pathParts parent).length < (pathParts child).length &&
    (pathParts child).take (pathParts parent).length = pathParts parent

/-- `urlsplit(url).path`; a URL in a group has been split before. -/
def urlPath (tables : Tables) (url : String) : String :=
  match urlsplit tables url with
  | .ok parsed => parsed.path
  | .error _ => ""

/-- `urlsplit(url).path or "/"`. -/
def rootedPath (tables : Tables) (url : String) : String :=
  if urlPath tables url = "" then "/" else urlPath tables url

/-- `endpoint_groups`: the endpoints of each service, with their nodes. -/
def endpointGroups (tables : Tables) (endpoints : Dict String String) : Dict String (List (String × String)) :=
  groupPairs (endpoints.entries.filterMap fun endpoint =>
    (serviceFromUrl tables endpoint.1).map fun service => (service, endpoint))

def pathCandidates (tables : Tables) (group : List (String × String)) (endpoint : String × String) :
    List (String × String) :=
  group.filter fun candidate =>
    candidate.2 ≠ endpoint.2 && isPathParent (rootedPath tables candidate.1) (rootedPath tables endpoint.1)

/-- The edge to one endpoint of a group, from the first parent with the most parts. -/
def childPathEdge (tables : Tables) (group : List (String × String)) (endpoint : String × String) :
    Option DerivedEdge := do
  let parent ← winner (fun candidate => (pathParts (urlPath tables candidate.1)).length)
    (pathCandidates tables group endpoint)
  DerivedEdge.merged
    { source := parent.2, target := endpoint.2, relation := "HAS_CHILD_PATH"
      metadata := .ofPairs [("presentation_only", .bool true), ("parent_url", .string parent.1)] }

def childPathEdges (tables : Tables) (endpoints : Dict String String) : List DerivedEdge :=
  (endpointGroups tables endpoints).values.flatMap fun group => group.filterMap (childPathEdge tables group)

section Forest

variable {tables : Tables} {found : Dict String String} {url service : String} {edge : DerivedEdge}

/-- On one service, and its parts a proper prefix of the other's. -/
structure ChildPath (tables : Tables) (parent child : String) : Prop where
  service : ∃ service, serviceFromUrl tables parent = some service ∧ serviceFromUrl tables child = some service
  parts : pathParts (rootedPath tables parent) <+: pathParts (rootedPath tables child)
  proper : pathParts (rootedPath tables parent) ≠ pathParts (rootedPath tables child)

theorem isPathParent_iff {parent child : String} : isPathParent parent child = true ↔
      pathParts parent <+: pathParts child ∧ pathParts parent ≠ pathParts child := by
  rw [isPathParent, Bool.and_eq_true, decide_eq_true_eq, decide_eq_true_eq]
  constructor
  · rintro ⟨hless, htake⟩
    refine ⟨List.prefix_iff_eq_take.mpr htake.symm, fun heq => ?_⟩
    rw [heq] at hless
    exact lt_irrefl _ hless
  · rintro ⟨hbegins, hne⟩
    refine ⟨lt_of_le_of_ne hbegins.length_le fun hlength => hne (hbegins.eq_of_length hlength), ?_⟩
    exact (List.prefix_iff_eq_take.mp hbegins).symm

theorem ChildPath.length_lt {parent child : String} (h : ChildPath tables parent child) :
    (pathParts (rootedPath tables parent)).length < (pathParts (rootedPath tables child)).length :=
  lt_of_le_of_ne h.parts.length_le fun hlength => h.proper (h.parts.eq_of_length hlength)

/-- A URL with a service has no path, or one from the root. -/
theorem urlPath_of_service (h : serviceFromUrl tables url = some service) :
    urlPath tables url = "" ∨ (urlPath tables url).toList.head? = some '/' := by
  unfold serviceFromUrl at h
  unfold urlPath
  cases hsplit : urlsplit tables url with
  | error e =>
    rw [hsplit] at h
    cases h
  | ok parsed =>
    rw [hsplit] at h
    simp only at h ⊢
    have hnetloc : parsed.netloc ≠ "" := by
      intro hempty
      have hnone : parsed.hostname tables = none := by
        simp [SplitResult.hostname, SplitResult.hostInfo, hempty, rpartition, partition]
      rw [hnone] at h
      cases h
    obtain ⟨rest, -, hafter⟩ := urlsplit_ok hsplit hnetloc
    exact splitAfter_path hafter

theorem pathParts_empty : pathParts "" = [] := by
  simp [pathParts]

theorem pathParts_root : pathParts "/" = ["/"] := by
  decide

theorem pathParts_ne_nil {path : String} (h : path.toList.head? = some '/') : pathParts path ≠ [] := by
  unfold pathParts
  simp only [if_pos h]
  split
  · exact List.cons_ne_nil _ _
  · exact List.cons_ne_nil _ _

/-- The parts of an empty path are counted as none, and those of every other path as they are: the longest by
    that count is the longest. -/
theorem parts_le_of_count_le {parent other : String} (hparent : ∃ service, serviceFromUrl tables parent = some service)
    (hle : (pathParts (urlPath tables other)).length ≤ (pathParts (urlPath tables parent)).length) :
    (pathParts (rootedPath tables other)).length ≤ (pathParts (rootedPath tables parent)).length := by
  obtain ⟨service, hservice⟩ := hparent
  have hpos : 1 ≤ (pathParts (rootedPath tables parent)).length := by
    unfold rootedPath
    split
    · rw [pathParts_root, List.length_singleton]
    next hne =>
      rcases urlPath_of_service hservice with hempty | hroot
      · exact absurd hempty hne
      · exact List.length_pos_iff.mpr (pathParts_ne_nil hroot)
  have hraw : (pathParts (urlPath tables parent)).length ≤ (pathParts (rootedPath tables parent)).length := by
    unfold rootedPath
    split
    next hempty =>
      rw [hempty, pathParts_empty]
      exact Nat.zero_le _
    · exact le_refl _
  by_cases hempty : urlPath tables other = ""
  · rw [rootedPath, if_pos hempty, pathParts_root, List.length_singleton]
    exact hpos
  · rw [rootedPath, if_neg hempty]
    exact hle.trans hraw

/-- The endpoints of a service. -/
def serviceGroup (tables : Tables) (found : Dict String String) (service : String) : List (String × String) :=
  membersOf (found.entries.filterMap fun endpoint =>
    (serviceFromUrl tables endpoint.1).map fun service => (service, endpoint)) service

theorem mem_serviceGroup {endpoint : String × String} : endpoint ∈ serviceGroup tables found service ↔
      endpoint ∈ found.entries ∧ serviceFromUrl tables endpoint.1 = some service := by
  rw [serviceGroup, mem_membersOf, List.mem_filterMap]
  constructor
  · rintro ⟨other, hmem, hother⟩
    obtain ⟨s, hs, hpair⟩ := Option.map_eq_some_iff.mp hother
    cases hpair
    exact ⟨hmem, hs⟩
  · rintro ⟨hmem, hservice⟩
    exact ⟨endpoint, hmem, by rw [hservice, Option.map_some]⟩

theorem mem_childPathEdges : edge ∈ childPathEdges tables found ↔
    ∃ service, ∃ endpoint ∈ serviceGroup tables found service,
      childPathEdge tables (serviceGroup tables found service) endpoint = some edge := by
  simp only [childPathEdges, Dict.values, List.mem_flatMap, List.mem_map, List.mem_filterMap]
  constructor
  · rintro ⟨group, ⟨⟨service, members⟩, hgroup, rfl⟩, endpoint, hmem, hedge⟩
    obtain ⟨rfl, -⟩ := mem_groupPairs.mp hgroup
    exact ⟨service, endpoint, hmem, hedge⟩
  · rintro ⟨service, endpoint, hmem, hedge⟩
    refine ⟨serviceGroup tables found service, ⟨(service, serviceGroup tables found service), ?_, rfl⟩, endpoint, hmem,
      hedge⟩
    exact mem_groupPairs.mpr ⟨rfl, List.ne_nil_of_mem hmem⟩

theorem mem_pathCandidates {endpoint candidate : String × String}
    (hendpoint : endpoint ∈ serviceGroup tables found service) :
    candidate ∈ pathCandidates tables (serviceGroup tables found service) endpoint ↔
      candidate ∈ found.entries ∧ candidate.2 ≠ endpoint.2 ∧ ChildPath tables candidate.1 endpoint.1 := by
  simp only [pathCandidates, List.mem_filter, Bool.and_eq_true, decide_eq_true_eq, isPathParent_iff, mem_serviceGroup]
  have hservice := (mem_serviceGroup.mp hendpoint).2
  constructor
  · rintro ⟨⟨hmem, hs⟩, hne, hbegins, hproper⟩
    exact ⟨hmem, hne, ⟨service, hs, hservice⟩, hbegins, hproper⟩
  · rintro ⟨hmem, hne, ⟨s, hs, hs'⟩, hbegins, hproper⟩
    rw [hservice] at hs'
    cases hs'
    exact ⟨⟨hmem, hs⟩, hne, hbegins, hproper⟩

theorem childPathEdge_some {group : List (String × String)} {endpoint : String × String} :
    childPathEdge tables group endpoint = some edge ↔
      ∃ parent, winner (fun candidate => (pathParts (urlPath tables candidate.1)).length)
        (pathCandidates tables group endpoint) = some parent ∧
        edge = ⟨parent.2, endpoint.2, "HAS_CHILD_PATH",
          .ofPairs [("presentation_only", .bool true), ("parent_url", .string parent.1)]⟩ := by
  unfold childPathEdge
  cases hwinner : winner (fun candidate => (pathParts (urlPath tables candidate.1)).length)
      (pathCandidates tables group endpoint) with
  | none => simp
  | some parent =>
    -- a candidate is another node
    have hne : parent.2 ≠ endpoint.2 := by
      have hmem := winner_mem hwinner
      simp only [pathCandidates, List.mem_filter, Bool.and_eq_true, decide_eq_true_eq] at hmem
      exact hmem.2.1
    simp only [Option.bind_eq_bind, Option.bind_some, DerivedEdge.merged, if_neg hne, Option.some.injEq,
      exists_eq_left']
    exact eq_comm

/-- What an edge is, and when there is one. -/
theorem childPathEdges_sound (h : edge ∈ childPathEdges tables found) : ∃ parent child,
    found.get? parent = some edge.source ∧ found.get? child = some edge.target ∧ ChildPath tables parent child ∧
    (∀ other nodeId, found.get? other = some nodeId → nodeId ≠ edge.target → ChildPath tables other child →
      (pathParts (rootedPath tables other)).length ≤ (pathParts (rootedPath tables parent)).length) := by
  obtain ⟨service, endpoint, hendpoint, hedge⟩ := mem_childPathEdges.mp h
  obtain ⟨parent, hwinner, rfl⟩ := childPathEdge_some.mp hedge
  obtain ⟨hparent, -, hchild⟩ := (mem_pathCandidates hendpoint).mp (winner_mem hwinner)
  refine ⟨parent.1, endpoint.1, Dict.mem_entries_iff.mp hparent,
    Dict.mem_entries_iff.mp (mem_serviceGroup.mp hendpoint).1, hchild, ?_⟩
  intro other nodeId hother hne hchildOther
  obtain ⟨s, hs, -⟩ := hchild.service
  apply parts_le_of_count_le ⟨s, hs⟩
  apply le_winner hwinner (other, nodeId)
  exact (mem_pathCandidates hendpoint).mpr ⟨Dict.mem_entries_iff.mpr hother, hne, hchildOther⟩

theorem childPathEdges_complete {parent child parentId childId : String}
    (hparent : found.get? parent = some parentId) (hchild : found.get? child = some childId)
    (hne : parentId ≠ childId) (h : ChildPath tables parent child) :
    ∃ edge ∈ childPathEdges tables found, edge.target = childId := by
  obtain ⟨service, hs, hs'⟩ := h.service
  have hendpoint : (child, childId) ∈ serviceGroup tables found service :=
    mem_serviceGroup.mpr ⟨Dict.mem_entries_iff.mpr hchild, hs'⟩
  have hcandidate : (parent, parentId) ∈ pathCandidates tables (serviceGroup tables found service)
      (child, childId) :=
    (mem_pathCandidates hendpoint).mpr ⟨Dict.mem_entries_iff.mpr hparent, hne, h⟩
  obtain ⟨chosen, hchosen⟩ :=
    winner_isSome (fun candidate => (pathParts (urlPath tables candidate.1)).length) hcandidate
  exact ⟨_, mem_childPathEdges.mpr ⟨service, (child, childId), hendpoint,
    childPathEdge_some.mpr ⟨chosen, hchosen, rfl⟩⟩, rfl⟩

/-- A node of one value receives at most one edge. -/
theorem childPathEdges_unique {edge' : DerivedEdge}
    (hinj : ∀ value value' nodeId, found.get? value = some nodeId → found.get? value' = some nodeId → value = value')
    (h : edge ∈ childPathEdges tables found) (h' : edge' ∈ childPathEdges tables found)
    (htarget : edge.target = edge'.target) : edge = edge' := by
  obtain ⟨service, endpoint, hendpoint, hedge⟩ := mem_childPathEdges.mp h
  obtain ⟨service', endpoint', hendpoint', hedge'⟩ := mem_childPathEdges.mp h'
  obtain ⟨hmem, hservice⟩ := mem_serviceGroup.mp hendpoint
  obtain ⟨hmem', hservice'⟩ := mem_serviceGroup.mp hendpoint'
  have hsecond : endpoint.2 = endpoint'.2 := by
    obtain ⟨parent, -, rfl⟩ := childPathEdge_some.mp hedge
    obtain ⟨parent', -, rfl⟩ := childPathEdge_some.mp hedge'
    exact htarget
  have hfirst : endpoint.1 = endpoint'.1 :=
    hinj _ _ endpoint.2 (Dict.mem_entries_iff.mp hmem) (hsecond ▸ Dict.mem_entries_iff.mp hmem')
  obtain rfl : endpoint = endpoint' := Prod.ext hfirst hsecond
  rw [hservice] at hservice'
  cases hservice'
  rw [hedge] at hedge'
  exact Option.some.inj hedge'

/-- How many parts the path of a node has. -/
def pathDepth (tables : Tables) (nodes : Dict String SurfaceIdentity) (nodeId : String) : ℕ :=
  match nodes.get? nodeId with
  | some identity => (pathParts (rootedPath tables identity.canonicalValue)).length
  | none => 0

theorem pathDepth_eq (tables : Tables) {nodes : Dict String SurfaceIdentity} {value nodeId : String}
    (h : (endpoints nodes).get? value = some nodeId) :
    pathDepth tables nodes nodeId = (pathParts (rootedPath tables value)).length := by
  obtain ⟨identity, hidentity, rfl⟩ := nodesWhere_value h
  unfold pathDepth
  rw [hidentity]

/-- **The derived paths are a forest.** A node receives at most one edge; it comes from an endpoint of the
    same service whose path is a longest proper prefix of its own, in whole parts; an endpoint with such a
    prefix among the endpoints receives one; and no way along the edges comes back. -/
theorem path_hierarchy_forest (tables : Tables) (nodes : Dict String SurfaceIdentity) :
    (∀ edge ∈ childPathEdges tables (endpoints nodes), ∀ edge' ∈ childPathEdges tables (endpoints nodes),
      edge.target = edge'.target → edge = edge') ∧ (∀ edge ∈ childPathEdges tables (endpoints nodes), ∃ parent child,
      (endpoints nodes).get? parent = some edge.source ∧ (endpoints nodes).get? child = some edge.target ∧
      ChildPath tables parent child ∧ ∀ other ∈ (endpoints nodes).keys, ChildPath tables other child →
        (pathParts (rootedPath tables other)).length ≤ (pathParts (rootedPath tables parent)).length) ∧
    (∀ parent ∈ (endpoints nodes).keys, ∀ child ∈ (endpoints nodes).keys, ChildPath tables parent child →
      ∃ edge ∈ childPathEdges tables (endpoints nodes), (endpoints nodes).get? child = some edge.target) ∧
    Acyclic fun source target =>
      ∃ edge ∈ childPathEdges tables (endpoints nodes), edge.source = source ∧ edge.target = target := by
  -- two endpoints of which one is a child path of the other are two nodes
  have hne : ∀ {parent child parentId childId : String}, (endpoints nodes).get? parent = some parentId →
      (endpoints nodes).get? child = some childId → ChildPath tables parent child → parentId ≠ childId := by
    intro parent child parentId childId hparent hchild h hsame
    subst hsame
    rw [nodesWhere_inj hparent hchild] at h
    exact h.proper rfl
  refine ⟨?_, ?_, ?_, ?_⟩
  · intro edge hedge edge' hedge'
    exact childPathEdges_unique (fun _ _ _ => nodesWhere_inj) hedge hedge'
  · intro edge hedge
    obtain ⟨parent, child, hparent, hchild, hpath, hlongest⟩ := childPathEdges_sound hedge
    refine ⟨parent, child, hparent, hchild, hpath, ?_⟩
    intro other hother hpathOther
    obtain ⟨nodeId, hnode⟩ := Dict.mem_keys_iff.mp hother
    exact hlongest other nodeId hnode (hne hnode hchild hpathOther) hpathOther
  · intro parent hparent child hchild hpath
    obtain ⟨parentId, hparent⟩ := Dict.mem_keys_iff.mp hparent
    obtain ⟨childId, hchild⟩ := Dict.mem_keys_iff.mp hchild
    obtain ⟨edge, hedge, htarget⟩ :=
      childPathEdges_complete hparent hchild (hne hparent hchild hpath) hpath
    exact ⟨edge, hedge, by rw [htarget, hchild]⟩
  · apply Acyclic.of_rank (pathDepth tables nodes)
    rintro _ _ ⟨edge, hedge, rfl, rfl⟩
    obtain ⟨parent, child, hparent, hchild, hpath, -⟩ := childPathEdges_sound hedge
    rw [pathDepth_eq tables hparent, pathDepth_eq tables hchild]
    exact hpath.length_lt

end Forest

/-! ## Domains -/

def dots (name : String) : ℕ := name.toList.count '.'

/-- `_is_public_suffix`; `getTld` is what `get_tld(domain, strict=True)` finds, if it finds something. -/
def isPublicSuffix (getTld : String → Option String) (domain : String) : Bool := getTld domain = some domain

def subdomainCandidates (getTld : String → Option String) (domains : Dict String String) (domain : String) :
    List String :=
  domains.keys.filter fun candidate => isSubdomain domain candidate && !isPublicSuffix getTld candidate

/-- The edge to one domain, from the first candidate with the most dots. -/
def subdomainEdge (getTld : String → Option String) (domains : Dict String String)
    (domain : String × String) : Option DerivedEdge := do
  let parent ← winner dots (subdomainCandidates getTld domains domain.1)
  let source ← domains.get? parent
  DerivedEdge.merged
    { source, target := domain.2, relation := "HAS_SUBDOMAIN"
      metadata := .ofPairs [("presentation", .string "dns-suffix")] }

def subdomainEdges (getTld : String → Option String) (domains : Dict String String) : List DerivedEdge :=
  (domains.entries.insertionSort fun a b => dots a.1 ≤ dots b.1).filterMap (subdomainEdge getTld domains)

section Suffixes

variable {getTld : String → Option String} {nodes : Dict String SurfaceIdentity} {name parent child : String}

/-- A name ends with the other behind a dot. -/
def Above (parent child : String) : Prop := isSubdomain child parent = true

theorem above_iff : Above parent child ↔ ('.' :: parent.toList) <:+ child.toList := List.isSuffixOf_iff_suffix

theorem Above.trans (h : Above parent name) (h' : Above name child) : Above parent child := by
  rw [above_iff] at h h' ⊢
  exact h.trans ((List.suffix_cons '.' _).trans h')

theorem Above.length_lt (h : Above parent child) : parent.toList.length < child.toList.length := by
  have hle := (above_iff.mp h).length_le
  rw [List.length_cons] at hle
  omega

theorem Above.dots_lt (h : Above parent child) : dots parent < dots child := by
  have hle := (above_iff.mp h).sublist.count_le '.'
  rw [List.count_cons_self] at hle
  exact hle

/-- The names above a name stand above each other. -/
theorem above_cases (h : Above parent child) (h' : Above name child) :
    parent = name ∨ Above parent name ∨ Above name parent := by
  have key : ∀ {a b : String}, Above a child → Above b child → a.toList.length < b.toList.length → Above a b := by
    intro a b ha hb hlength
    rw [above_iff] at ha hb ⊢
    exact List.suffix_of_suffix_length_le ha ((List.suffix_cons '.' _).trans hb) hlength
  rcases Nat.lt_trichotomy parent.toList.length name.toList.length with hless | hsame | hless
  · exact .inr (.inl (key h h' hless))
  · left
    have hparent := (List.suffix_cons '.' _).trans (above_iff.mp h)
    have hname := (List.suffix_cons '.' _).trans (above_iff.mp h')
    exact String.toList_inj.mp
      ((List.suffix_of_suffix_length_le hparent hname hsame.le).eq_of_length hsame)
  · exact .inr (.inr (key h' h hless))

theorem mem_subdomainCandidates {domains : Dict String String} : parent ∈ subdomainCandidates getTld domains child ↔
      parent ∈ domains.keys ∧ Above parent child ∧ isPublicSuffix getTld parent = false := by
  simp only [subdomainCandidates, List.mem_filter, Bool.and_eq_true, Bool.not_eq_true']
  exact Iff.rfl

/-- An edge runs from the observed name with the most labels above its child that is no public suffix. -/
theorem mem_subdomainEdges {edge : DerivedEdge} : edge ∈ subdomainEdges getTld (domains nodes) ↔
      ∃ parent child source target, (domains nodes).get? parent = some source ∧
        (domains nodes).get? child = some target ∧
        winner dots (subdomainCandidates getTld (domains nodes) child) = some parent ∧
        edge = ⟨source, target, "HAS_SUBDOMAIN", .ofPairs [("presentation", .string "dns-suffix")]⟩ := by
  simp only [subdomainEdges, List.mem_filterMap, List.mem_insertionSort, Prod.exists, Dict.mem_entries_iff,
    subdomainEdge, Option.bind_eq_bind, Option.bind_eq_some_iff]
  constructor
  · rintro ⟨child, target, hchild, parent, hwinner, source, hsource, hmerged⟩
    unfold DerivedEdge.merged at hmerged
    split at hmerged
    · cases hmerged
    · cases hmerged
      exact ⟨parent, child, source, target, hsource, hchild, hwinner, rfl⟩
  · rintro ⟨parent, child, source, target, hsource, hchild, hwinner, rfl⟩
    refine ⟨child, target, hchild, parent, hwinner, source, hsource, ?_⟩
    have habove := (mem_subdomainCandidates.mp (winner_mem hwinner)).2.1
    -- a name is not above itself
    have hne : source ≠ target := by
      rintro rfl
      rw [nodesWhere_inj hsource hchild] at habove
      exact lt_irrefl _ habove.length_lt
    exact if_neg hne

/-- What is asked of an edge: its parent is the nearest observed name above its child, and from the parent
    down to the child no name is a public suffix. -/
structure StopsAtSuffixes (getTld : String → Option String) (names : List String) (parent child : String) :
    Prop where
  above : Above parent child
  nearest : ∀ name ∈ names, Above name child → name = parent ∨ Above name parent
  between : ∀ name, (name = parent ∨ Above parent name) → (name = child ∨ Above name child) →
    isPublicSuffix getTld name = false

/-- Where a public suffix has an observed name above it that is none, an observed name beneath it that is none
    stands above each observed name it ends. -/
def SuffixesCovered (getTld : String → Option String) (names : List String) : Prop :=
  ∀ child ∈ names, ∀ suffix, (suffix = child ∨ Above suffix child) → isPublicSuffix getTld suffix = true →
    (∃ name ∈ names, Above name suffix ∧ isPublicSuffix getTld name = false) →
    ∃ name ∈ names, Above suffix name ∧ Above name child ∧ isPublicSuffix getTld name = false

theorem covered_of_stops (h : ∀ edge ∈ subdomainEdges getTld (domains nodes), ∀ parent child,
      (domains nodes).get? parent = some edge.source → (domains nodes).get? child = some edge.target →
      StopsAtSuffixes getTld (domains nodes).keys parent child) : SuffixesCovered getTld (domains nodes).keys := by
  rintro child hchild suffix hends hsuffix ⟨name, hname, habove, hplain⟩
  have hover : Above name child := by
    rcases hends with rfl | hends
    · exact habove
    · exact habove.trans hends
  obtain ⟨parent, hwinner⟩ := winner_isSome dots (mem_subdomainCandidates.mpr ⟨hname, hover, hplain⟩)
  obtain ⟨hmem, hparent, hparentPlain⟩ := mem_subdomainCandidates.mp (winner_mem hwinner)
  obtain ⟨source, hsource⟩ := Dict.mem_keys_iff.mp hmem
  obtain ⟨target, htarget⟩ := Dict.mem_keys_iff.mp hchild
  have hstops := h _ (mem_subdomainEdges.mpr ⟨parent, child, source, target, hsource, htarget, hwinner, rfl⟩)
    parent child hsource htarget
  -- the parent of the child has no public suffix beneath it, so it stands under this one
  have hunder : ¬ (suffix = parent ∨ Above parent suffix) := by
    intro hbeneath
    rw [hstops.between suffix hbeneath hends] at hsuffix
    cases hsuffix
  rcases hends with rfl | hends
  · exact absurd (.inr hparent) hunder
  · rcases above_cases hparent hends with rfl | hcase | hcase
    · exact absurd (.inl rfl) hunder
    · exact absurd (.inr hcase) hunder
    · exact ⟨parent, hmem, hcase, hparent, hparentPlain⟩

theorem stops_of_covered (h : SuffixesCovered getTld (domains nodes).keys) (hchild : child ∈ (domains nodes).keys)
    (hwinner : winner dots (subdomainCandidates getTld (domains nodes) child) = some parent) :
    StopsAtSuffixes getTld (domains nodes).keys parent child := by
  obtain ⟨hmem, hparent, hplain⟩ := mem_subdomainCandidates.mp (winner_mem hwinner)
  have hbest : ∀ name ∈ (domains nodes).keys, Above name child → isPublicSuffix getTld name = false →
      ¬ Above parent name := by
    intro name hname habove hnamePlain hunder
    have hle := le_winner hwinner name (mem_subdomainCandidates.mpr ⟨hname, habove, hnamePlain⟩)
    exact absurd hunder.dots_lt (by omega)
  have hbetween : ∀ name, (name = parent ∨ Above parent name) → (name = child ∨ Above name child) →
      isPublicSuffix getTld name = false := by
    intro name hbeneath hends
    rcases hbeneath with rfl | hbeneath
    · exact hplain
    · by_contra hsuffix
      rw [Bool.not_eq_false] at hsuffix
      obtain ⟨other, hother, hunder, hover, hotherPlain⟩ :=
        h child hchild name hends hsuffix ⟨parent, hmem, hbeneath, hplain⟩
      exact hbest other hother hover hotherPlain (hbeneath.trans hunder)
  refine ⟨hparent, ?_, hbetween⟩
  intro name hname habove
  rcases above_cases habove hparent with hsame | hcase | hcase
  · exact .inl hsame
  · exact .inr hcase
  · exact absurd hcase (hbest name hname habove (hbetween name (.inr hcase) (.inr habove)))

/-- What the public suffix list says of three names under a suffix of its private part. -/
def privateSuffixTld : String → Option String := fun domain =>
  if domain = "amazonaws.com" then some "com"
  else if domain = "s3.amazonaws.com" ∨ domain = "b.s3.amazonaws.com" then some "s3.amazonaws.com"
  else none

def privateSuffixNodes : Dict String SurfaceIdentity :=
  .ofPairs [("sgn_1", ⟨.domain, "amazonaws.com"⟩), ("sgn_2", ⟨.domain, "b.s3.amazonaws.com"⟩)]

end Suffixes

end NightScout
