import Mathlib.Data.List.Dedup
import NightScout.Lib.Dict
import NightScout.Lib.Distances

/-!
# Breadth-first search for a path

`pathSearch` looks for a goal from a root with a queue of vertices and their depths, does not expand a vertex at the
limit, stops at the goal, and notes for each vertex it visits the vertex and the edge it came by; `walkBack` reads the
path from these notes. It finds the goal exactly if its distance is within the limit (`pathSearch_found_iff`), and the
path that is read is a shortest one (`walkBack_spec`).
-/

namespace NightScout.Lib

variable {V E : Type*} [DecidableEq V]

structure PathSearch (V E : Type*) where
  queue : List (V × ℕ)
  visited : List V
  previous : Dict V (V × E)

section Search

variable (out : V → List E) (target : E → V) (goal : V) (limit : ℕ)

/-- One vertex is expanded: whether the goal was met, and the search after it. -/
def scanEdges (current : V) (depth : ℕ) : List E → PathSearch V E → Bool × PathSearch V E
  | [], search => (false, search)
  | edge :: edges, search =>
    let child := target edge
    if child ∈ search.visited then scanEdges current depth edges search
    else
      let search := { search with
        visited := search.visited ++ [child]
        previous := search.previous.set child (current, edge) }
      if child = goal then (true, search)
      else scanEdges current depth edges { search with queue := search.queue ++ [(child, depth + 1)] }

def pathSearch : ℕ → PathSearch V E → Bool × PathSearch V E
  | 0, search => (false, search)
  | fuel + 1, search =>
    match search.queue with
    | [] => (false, search)
    | (current, depth) :: queue =>
      if limit ≤ depth then pathSearch fuel { search with queue }
      else
        match scanEdges target goal current depth (out current) { search with queue } with
        | (true, search) => (true, search)
        | (false, search) => pathSearch fuel search

end Search

/-- From the cursor back to the start; `none` where a vertex has no note. -/
def walkBack (previous : Dict V (V × E)) (start : V) :
    ℕ → V → List V → List E → Option (List V × List E)
  | fuel, cursor, vertices, edges =>
    if cursor = start then some (vertices, edges)
    else
      match fuel, previous.get? cursor with
      | fuel + 1, some (parent, edge) => walkBack previous start fuel parent (parent :: vertices) (edge :: edges)
      | _, _ => none

section Spec

variable {out : V → List E} {target : E → V} {link : E → V → V → Prop} {R : V → V → Prop}
variable {root goal current : V} {limit depth : ℕ} {edges : List E} {search : PathSearch V E}

/-- The edges out of a vertex are its links, and the links are the relation. -/
structure Linked (out : V → List E) (target : E → V) (link : E → V → V → Prop) (R : V → V → Prop) : Prop where
  linked : ∀ u, ∀ e ∈ out u, link e u (target e)
  related : ∀ u v, R u v ↔ ∃ e ∈ out u, target e = v

/-- What is known of the vertices that were visited. -/
structure Noted (link : E → V → V → Prop) (R : V → V → Prop) (root : V) (limit : ℕ) (search : PathSearch V E) :
    Prop where
  rooted : root ∈ search.visited
  queued : ∀ v n, (v, n) ∈ search.queue → v ∈ search.visited ∧ Distance R n root v
  near : ∀ v ∈ search.visited, ∃ n ≤ limit, Distance R n root v
  noted : ∀ v ∈ search.visited, v ≠ root → ∃ parent edge n,
    search.previous.get? v = some (parent, edge) ∧ link edge parent v ∧ parent ∈ search.visited ∧
      Distance R n root parent ∧ Distance R (n + 1) root v

/-- Between two vertices. What has left the queue below the limit was expanded. -/
structure Seeking (link : E → V → V → Prop) (R : V → V → Prop) (root goal : V) (limit : ℕ) (search : PathSearch V E) :
    Prop extends Noted link R root limit search where
  sorted : search.queue.Pairwise fun a b => a.2 ≤ b.2
  close : ∀ head ∈ search.queue.head?, ∀ v n, (v, n) ∈ search.queue → n ≤ head.2 + 1
  left : ∀ v ∈ search.visited, ∀ n < limit, Distance R n root v → (v, n) ∉ search.queue → ∀ w, R v w →
    w ∈ search.visited
  missing : goal ∉ search.visited

/-- While a vertex is expanded, with these edges still to come. -/
structure Scanning (target : E → V) (link : E → V → V → Prop) (R : V → V → Prop) (root goal : V) (limit : ℕ)
    (current : V) (depth : ℕ) (edges : List E) (search : PathSearch V E) : Prop
    extends Noted link R root limit search where
  arrived : current ∈ search.visited
  reached : Distance R depth root current
  below : depth < limit
  links : ∀ e ∈ edges, link e current (target e) ∧ R current (target e)
  sorted : search.queue.Pairwise fun a b => a.2 ≤ b.2
  close : ∀ v n, (v, n) ∈ search.queue → depth ≤ n ∧ n ≤ depth + 1
  shallow : ∀ v, ∀ n ≤ depth, Distance R n root v → v ∈ search.visited
  left : ∀ v ∈ search.visited, v ≠ current → ∀ n < limit, Distance R n root v → (v, n) ∉ search.queue → ∀ w, R v w →
    w ∈ search.visited
  rest : ∀ w, R current w → w ∈ search.visited ∨ ∃ e ∈ edges, target e = w
  missing : goal ∉ search.visited

/-- Up to the depth of the head of the queue everything was visited. -/
theorem Seeking.shallow (h : Seeking link R root goal limit search) {queue : List (V × ℕ)}
    (hqueue : search.queue = (current, depth) :: queue) : ∀ v, ∀ n ≤ depth, Distance R n root v → v ∈ search.visited := by
  have hhead : (current, depth) ∈ search.queue := by rw [hqueue]; exact List.mem_cons_self
  obtain ⟨hvisited, hdistance⟩ := h.queued current depth hhead
  obtain ⟨m, hm, hlimit⟩ := h.near current hvisited
  obtain rfl := hdistance.unique hlimit
  intro v n hn
  induction n generalizing v with
  | zero =>
    intro hv
    rw [distance_zero_iff.mp hv]
    exact h.rooted
  | succ n ih =>
    intro hv
    obtain ⟨u, hu, hlast⟩ := hv.exists_last
    refine h.left u (ih u (by omega) hu) n (by omega) hu (fun hmem => ?_) v hlast
    -- a vertex of the queue is at least as deep as its head
    rw [hqueue] at hmem
    have hsorted := h.sorted
    rw [hqueue] at hsorted
    rcases List.mem_cons.mp hmem with heq | hmem
    · have : n = depth := congrArg Prod.snd heq
      omega
    · have : depth ≤ n := (List.pairwise_cons.mp hsorted).1 _ hmem
      omega

/-- With nothing in the queue everything within the limit was visited. -/
theorem Seeking.complete (h : Seeking link R root goal limit search) (hqueue : search.queue = []) :
    ∀ v, ∀ n ≤ limit, Distance R n root v → v ∈ search.visited := by
  intro v n hn
  induction n generalizing v with
  | zero =>
    intro hv
    rw [distance_zero_iff.mp hv]
    exact h.rooted
  | succ n ih =>
    intro hv
    obtain ⟨u, hu, hlast⟩ := hv.exists_last
    refine h.left u (ih u (by omega) hu) n (by omega) hu (fun hmem => ?_) v hlast
    rw [hqueue] at hmem
    cases hmem

/-- A vertex at the limit leaves the queue. -/
theorem Seeking.skip (h : Seeking link R root goal limit search) {queue : List (V × ℕ)}
    (hqueue : search.queue = (current, depth) :: queue) (hlimit : limit ≤ depth) :
    Seeking link R root goal limit { search with queue } where
  rooted := h.rooted
  queued v n hmem := h.queued v n (by rw [hqueue]; exact List.mem_cons_of_mem _ hmem)
  near := h.near
  noted := h.noted
  sorted := by
    have hsorted := h.sorted
    rw [hqueue] at hsorted
    exact (List.pairwise_cons.mp hsorted).2
  close head hhead v n hmem := by
    have hsorted := h.sorted
    rw [hqueue] at hsorted
    have hle : depth ≤ head.2 := (List.pairwise_cons.mp hsorted).1 head (List.mem_of_mem_head? hhead)
    have hclose := h.close (current, depth) (by rw [hqueue]; rfl) v n
      (by rw [hqueue]; exact List.mem_cons_of_mem _ hmem)
    simp only at hclose
    omega
  left v hv n hn hdistance hnot := by
    refine h.left v hv n hn hdistance fun hmem => ?_
    rw [hqueue] at hmem
    rcases List.mem_cons.mp hmem with heq | hmem
    · have : n = depth := congrArg Prod.snd heq
      omega
    · exact hnot hmem
  missing := h.missing

/-- A vertex below the limit is expanded. -/
theorem Seeking.scan (hlinked : Linked out target link R) (h : Seeking link R root goal limit search)
    {queue : List (V × ℕ)} (hqueue : search.queue = (current, depth) :: queue) (hlimit : depth < limit) :
    Scanning target link R root goal limit current depth (out current) { search with queue } where
  rooted := h.rooted
  queued v n hmem := h.queued v n (by rw [hqueue]; exact List.mem_cons_of_mem _ hmem)
  near := h.near
  noted := h.noted
  arrived := (h.queued current depth (by rw [hqueue]; exact List.mem_cons_self)).1
  reached := (h.queued current depth (by rw [hqueue]; exact List.mem_cons_self)).2
  below := hlimit
  links e he := ⟨hlinked.linked current e he, (hlinked.related current _).mpr ⟨e, he, rfl⟩⟩
  sorted := by
    have hsorted := h.sorted
    rw [hqueue] at hsorted
    exact (List.pairwise_cons.mp hsorted).2
  close v n hmem := by
    have hsorted := h.sorted
    rw [hqueue] at hsorted
    refine ⟨(List.pairwise_cons.mp hsorted).1 (v, n) hmem, ?_⟩
    exact h.close (current, depth) (by rw [hqueue]; rfl) v n (by rw [hqueue]; exact List.mem_cons_of_mem _ hmem)
  shallow := h.shallow hqueue
  left v hv hne n hn hdistance hnot := by
    refine h.left v hv n hn hdistance fun hmem => ?_
    rw [hqueue] at hmem
    rcases List.mem_cons.mp hmem with heq | hmem
    · exact hne (congrArg Prod.fst heq)
    · exact hnot hmem
  rest w hw := .inr ((hlinked.related current w).mp hw)
  missing := h.missing

/-- After its last edge the vertex has been expanded. -/
theorem Scanning.done (h : Scanning target link R root goal limit current depth [] search) :
    Seeking link R root goal limit search where
  toNoted := h.toNoted
  sorted := h.sorted
  close head hhead v n hmem := by
    have hhead := (h.close head.1 head.2 (List.mem_of_mem_head? hhead)).1
    have hle := (h.close v n hmem).2
    omega
  left v hv n hn hdistance hnot w hw := by
    by_cases hv' : v = current
    · subst hv'
      rcases h.rest w hw with hw | ⟨e, he, -⟩
      · exact hw
      · cases he
    · exact h.left v hv hv' n hn hdistance hnot w hw
  missing := h.missing

/-- An edge to a vertex that was visited. -/
theorem Scanning.skip {edge : E} (h : Scanning target link R root goal limit current depth (edge :: edges) search)
    (hold : target edge ∈ search.visited) :
    Scanning target link R root goal limit current depth edges search where
  toNoted := h.toNoted
  arrived := h.arrived
  reached := h.reached
  below := h.below
  links e he := h.links e (List.mem_cons_of_mem _ he)
  sorted := h.sorted
  close := h.close
  shallow := h.shallow
  left := h.left
  rest w hw := by
    rcases h.rest w hw with hw | ⟨e, he, htarget⟩
    · exact .inl hw
    · rcases List.mem_cons.mp he with rfl | he
      · exact .inl (htarget ▸ hold)
      · exact .inr ⟨e, he, htarget⟩
  missing := h.missing

/-- A vertex that was not visited is one step further. -/
theorem Scanning.distance {edge : E} (h : Scanning target link R root goal limit current depth (edge :: edges) search)
    (hnew : target edge ∉ search.visited) : Distance R (depth + 1) root (target edge) := by
  refine distance_succ_iff.mpr ⟨⟨current, h.reached, (h.links edge List.mem_cons_self).2⟩, fun m hm hnear => ?_⟩
  exact hnew (h.shallow _ m hm hnear)

/-- The note on a vertex that was not visited. -/
theorem Scanning.note {edge : E} (h : Scanning target link R root goal limit current depth (edge :: edges) search)
    (hnew : target edge ∉ search.visited) {queue : List (V × ℕ)}
    (hqueue : ∀ v n, (v, n) ∈ queue → (v, n) ∈ search.queue ∨ v = target edge ∧ n = depth + 1) : Noted link R root limit
      { queue, visited := search.visited ++ [target edge],
        previous := search.previous.set (target edge) (current, edge) } where
  rooted := List.mem_append_left _ h.rooted
  queued v n hmem := by
    rcases hqueue v n hmem with hmem | ⟨rfl, rfl⟩
    · obtain ⟨hv, hdistance⟩ := h.queued v n hmem
      exact ⟨List.mem_append_left _ hv, hdistance⟩
    · exact ⟨List.mem_append_right _ List.mem_cons_self, h.distance hnew⟩
  near v hv := by
    rcases List.mem_append.mp hv with hv | hv
    · exact h.near v hv
    · rw [List.mem_singleton.mp hv]
      exact ⟨depth + 1, h.below, h.distance hnew⟩
  noted v hv hne := by
    rcases List.mem_append.mp hv with hv | hv
    · obtain ⟨parent, note, n, hprevious, hlink, hparent, hdistance⟩ := h.noted v hv hne
      have hold : v ≠ target edge := fun heq => hnew (heq ▸ hv)
      refine ⟨parent, note, n, ?_, hlink, List.mem_append_left _ hparent, hdistance⟩
      rw [Dict.get?_set_ne _ _ hold, hprevious]
    · rw [List.mem_singleton.mp hv]
      refine ⟨current, edge, depth, Dict.get?_set_self _ _ _, (h.links edge List.mem_cons_self).1, ?_, h.reached, ?_⟩
      · exact List.mem_append_left _ h.arrived
      · exact h.distance hnew

/-- An edge to a vertex that was not visited, and is not the goal. -/
theorem Scanning.discover {edge : E} (h : Scanning target link R root goal limit current depth (edge :: edges) search)
    (hnew : target edge ∉ search.visited) (hgoal : target edge ≠ goal) :
    Scanning target link R root goal limit current depth edges
      { queue := search.queue ++ [(target edge, depth + 1)], visited := search.visited ++ [target edge],
        previous := search.previous.set (target edge) (current, edge) } where
  toNoted := by
    refine h.note hnew fun v n hmem => ?_
    rcases List.mem_append.mp hmem with hmem | hmem
    · exact .inl hmem
    · have heq := List.mem_singleton.mp hmem
      exact .inr ⟨congrArg Prod.fst heq, congrArg Prod.snd heq⟩
  arrived := List.mem_append_left _ h.arrived
  reached := h.reached
  below := h.below
  links e he := h.links e (List.mem_cons_of_mem _ he)
  sorted := by
    refine List.pairwise_append.mpr ⟨h.sorted, List.pairwise_singleton _ _, fun a ha b hb => ?_⟩
    rw [List.mem_singleton.mp hb]
    exact (h.close a.1 a.2 ha).2
  close v n hmem := by
    rcases List.mem_append.mp hmem with hmem | hmem
    · exact h.close v n hmem
    · have : n = depth + 1 := congrArg Prod.snd (List.mem_singleton.mp hmem)
      omega
  shallow v n hn hdistance := List.mem_append_left _ (h.shallow v n hn hdistance)
  left v hv hne n hn hdistance hnot w hw := by
    rcases List.mem_append.mp hv with hv | hv
    · refine List.mem_append_left _ (h.left v hv hne n hn hdistance (fun hmem => hnot ?_) w hw)
      exact List.mem_append_left _ hmem
    · rw [List.mem_singleton.mp hv] at hdistance hnot
      rw [hdistance.unique (h.distance hnew)] at hnot
      exact absurd (List.mem_append_right _ List.mem_cons_self) hnot
  rest w hw := by
    rcases h.rest w hw with hw | ⟨e, he, htarget⟩
    · exact .inl (List.mem_append_left _ hw)
    · rcases List.mem_cons.mp he with rfl | he
      · exact .inl (List.mem_append_right _ (List.mem_singleton.mpr htarget.symm))
      · exact .inr ⟨e, he, htarget⟩
  missing hmem := by
    rcases List.mem_append.mp hmem with hmem | hmem
    · exact h.missing hmem
    · exact hgoal (List.mem_singleton.mp hmem).symm

/-! ## Running to the end -/

/-- The vertices of the universe that were not visited. -/
def unvisited (everything : List V) (search : PathSearch V E) : List V :=
  everything.filter fun v => v ∉ search.visited

theorem length_unvisited_lt {everything visited : List V} (hnew : v ∉ visited) (hv : v ∈ everything) :
    (everything.filter fun w => w ∉ visited ++ [v]).length < (everything.filter fun w => w ∉ visited).length := by
  have hfilter : (everything.filter fun w => w ∉ visited ++ [v]) =
      (everything.filter fun w => w ∉ visited).filter fun w => w ≠ v := by
    rw [List.filter_filter]
    apply List.filter_congr
    intro w _
    simp [and_comm]
  rw [hfilter]
  refine List.length_filter_lt_length_iff_exists.mpr ⟨v, ?_, by simp⟩
  exact List.mem_filter.mpr ⟨hv, decide_eq_true hnew⟩

/-- The vertex was expanded, or the goal was met. -/
theorem Scanning.run {everything : List V} (h : Scanning target link R root goal limit current depth edges search)
    (hall : ∀ e ∈ edges, target e ∈ everything) :
    ∃ found search', scanEdges target goal current depth edges search = (found, search') ∧
      (found = true → Noted link R root limit search' ∧ goal ∈ search'.visited) ∧
      (found = false → Seeking link R root goal limit search' ∧
        search'.queue.length + (unvisited everything search').length ≤
          search.queue.length + (unvisited everything search).length) := by
  induction edges generalizing search with
  | nil => exact ⟨false, search, rfl, nofun, fun _ => ⟨h.done, Nat.le_refl _⟩⟩
  | cons edge edges ih =>
    have hrest : ∀ e ∈ edges, target e ∈ everything := fun e he => hall e (List.mem_cons_of_mem _ he)
    unfold scanEdges
    by_cases hold : target edge ∈ search.visited
    · rw [if_pos hold]
      exact ih (h.skip hold) hrest
    rw [if_neg hold]
    by_cases hgoal : target edge = goal
    · rw [if_pos hgoal]
      refine ⟨true, _, rfl, fun _ => ⟨h.note hold fun v n hmem => .inl hmem, ?_⟩, nofun⟩
      exact List.mem_append_right _ (List.mem_singleton.mpr hgoal.symm)
    · rw [if_neg hgoal]
      obtain ⟨found, search', heq, hfound, hleft⟩ := ih (h.discover hold hgoal) hrest
      refine ⟨found, search', heq, hfound, fun hnot => ⟨(hleft hnot).1, ?_⟩⟩
      have hless := length_unvisited_lt hold (hall edge List.mem_cons_self)
      have hle := (hleft hnot).2
      simp only [unvisited, List.length_append, List.length_singleton] at hle ⊢
      omega

/-- The goal is met exactly within the limit. -/
theorem Seeking.run {everything : List V} (hlinked : Linked out target link R)
    (hall : ∀ u, ∀ e ∈ out u, target e ∈ everything) (fuel : ℕ) (h : Seeking link R root goal limit search)
    (hfuel : search.queue.length + (unvisited everything search).length < fuel) :
    ∃ found search', pathSearch out target goal limit fuel search = (found, search') ∧
      (found = true → Noted link R root limit search' ∧ goal ∈ search'.visited) ∧
      (found = false → ∀ n ≤ limit, ¬ Distance R n root goal) := by
  induction fuel generalizing search with
  | zero => exact absurd hfuel (Nat.not_lt_zero _)
  | succ fuel ih =>
    unfold pathSearch
    cases hqueue : search.queue with
    | nil =>
      refine ⟨false, search, rfl, nofun, fun _ n hn hdistance => ?_⟩
      exact h.missing (h.complete hqueue goal n hn hdistance)
    | cons head queue =>
      obtain ⟨current, depth⟩ := head
      rw [hqueue, List.length_cons] at hfuel
      by_cases hlimit : limit ≤ depth
      · have hless : queue.length + (unvisited everything { search with queue }).length < fuel := by
          unfold unvisited at hfuel ⊢
          dsimp only
          omega
        simp only [hlimit, if_true]
        exact ih (h.skip hqueue hlimit) hless
      · simp only [hlimit, if_false]
        obtain ⟨found, search', heq, hfound, hleft⟩ :=
          (h.scan hlinked hqueue (Nat.lt_of_not_le hlimit)).run (hall current)
        rw [heq]
        cases found with
        | true => exact ⟨true, search', rfl, hfound, nofun⟩
        | false =>
          obtain ⟨hseeking, hle⟩ := hleft rfl
          refine ih hseeking ?_
          unfold unvisited at hle hfuel ⊢
          simp only at hle
          omega

/-- A search from the root. -/
def PathSearch.start (root : V) : PathSearch V E := { queue := [(root, 0)], visited := [root], previous := .empty }

theorem Seeking.start (hne : root ≠ goal) (link : E → V → V → Prop) (R : V → V → Prop) (limit : ℕ) :
    Seeking link R root goal limit (.start root) where
  rooted := List.mem_singleton_self root
  queued v n hmem := by
    obtain ⟨rfl, rfl⟩ := Prod.mk.inj (List.mem_singleton.mp hmem)
    exact ⟨List.mem_singleton_self _, distance_zero_iff.mpr rfl⟩
  near v hv := ⟨0, Nat.zero_le _, distance_zero_iff.mpr (List.mem_singleton.mp hv)⟩
  noted v hv hne := absurd (List.mem_singleton.mp hv) hne
  sorted := List.pairwise_singleton _ _
  close head hhead v n hmem := by
    obtain ⟨-, rfl⟩ := Prod.mk.inj (List.mem_singleton.mp hmem)
    exact Nat.zero_le _
  left v hv n hn hdistance hnot := by
    obtain rfl := List.mem_singleton.mp hv
    obtain rfl := hdistance.unique (distance_zero_iff.mpr rfl)
    exact absurd (List.mem_singleton_self _) hnot
  missing hmem := hne (List.mem_singleton.mp hmem).symm

/-- The notes lead from a vertex to the root by a shortest way. -/
theorem walkBack_spec (h : Noted link R root limit search) {fuel n : ℕ} {cursor : V} {vertices : List V}
    (hcursor : cursor ∈ search.visited) (hdistance : Distance R n root cursor) (hfuel : n ≤ fuel)
    (htrail : Trail link cursor vertices edges goal) (hclimbs : Climbs R root n vertices) :
    ∃ vs es, walkBack search.previous root fuel cursor vertices edges = some (vs, es) ∧
      Trail link root vs es goal ∧ Climbs R root 0 vs ∧ es.length = n + edges.length := by
  induction n generalizing fuel cursor vertices edges with
  | zero =>
    obtain rfl := distance_zero_iff.mp hdistance
    refine ⟨vertices, edges, ?_, htrail, hclimbs, (Nat.zero_add _).symm⟩
    unfold walkBack
    rw [if_pos rfl]
  | succ n ih =>
    have hne : cursor ≠ root := by
      intro heq
      have := (distance_zero_iff.mpr heq).unique hdistance
      omega
    obtain ⟨parent, edge, m, hprevious, hlink, hparent, hnear, hfar⟩ := h.noted cursor hcursor hne
    obtain rfl : m = n := by
      have := hfar.unique hdistance
      omega
    obtain ⟨fuel, rfl⟩ : ∃ f, fuel = f + 1 := ⟨fuel - 1, by omega⟩
    have hless : m ≤ fuel := by omega
    obtain ⟨vs, es, hwalk, htrail', hclimbs', hlength⟩ :=
      ih hparent hnear hless (.cons hlink htrail) ⟨hnear, hclimbs⟩
    refine ⟨vs, es, ?_, htrail', hclimbs', ?_⟩
    · unfold walkBack
      rw [if_neg hne, hprevious]
      exact hwalk
    · rw [hlength, List.length_cons]
      omega

/-- **The search is exact**: the goal is met if it lies within the limit, and then by a shortest way, on which no
    vertex comes twice. -/
theorem pathSearch_spec {everything : List V} {fuel : ℕ} (hlinked : Linked out target link R) (hne : root ≠ goal)
    (hall : ∀ u, ∀ e ∈ out u, target e ∈ everything) (hfuel : everything.length + 1 < fuel) :
    ∃ found search, pathSearch out target goal limit fuel (.start root) = (found, search) ∧
      (found = true ↔ ∃ n ≤ limit, Distance R n root goal) ∧
      (found = true → ∃ vs es, walkBack search.previous root limit goal [goal] [] = some (vs, es) ∧
        Trail link root vs es goal ∧ vs.Nodup ∧ Distance R es.length root goal) := by
  have hstart : (PathSearch.start root : PathSearch V E).queue.length +
      (unvisited everything (PathSearch.start root : PathSearch V E)).length < fuel := by
    have hless : (unvisited everything (PathSearch.start root : PathSearch V E)).length ≤ everything.length :=
      List.length_filter_le _ _
    have hone : (PathSearch.start root : PathSearch V E).queue.length = 1 := rfl
    omega
  obtain ⟨found, search, heq, hfound, hleft⟩ := (Seeking.start hne link R limit).run hlinked hall fuel hstart
  refine ⟨found, search, heq, ?_, fun h => ?_⟩
  · constructor
    · intro h
      obtain ⟨hnoted, hgoal⟩ := hfound h
      exact hnoted.near goal hgoal
    · rintro ⟨n, hn, hdistance⟩
      cases found with
      | true => rfl
      | false => exact absurd hdistance (hleft rfl n hn)
  · obtain ⟨hnoted, hgoal⟩ := hfound h
    obtain ⟨n, hn, hdistance⟩ := hnoted.near goal hgoal
    obtain ⟨vs, es, hwalk, htrail, hclimbs, hlength⟩ :=
      walkBack_spec hnoted hgoal hdistance hn (.here goal) ⟨hdistance, trivial⟩
    refine ⟨vs, es, hwalk, htrail, hclimbs.nodup, ?_⟩
    rw [hlength]
    exact hdistance

end Spec

end NightScout.Lib
