import Mathlib.Data.List.Perm.Subperm
import NightScout.Lib.Dict

/-!
# Breadth-first search to a depth

`search` visits what its queue leads to, and gives each vertex its depth; a vertex at the depth limit is not
expanded. What it finds is what a walk of at most that many steps reaches (`mem_search_iff`).

The search has fuel. A vertex enters the queue once, so as many steps are enough as there are vertices in
the queue and vertices that can still enter it.
-/

namespace NightScout.Lib

variable {V : Type*}

/-- A walk of `n` steps. -/
inductive Walk (next : V → List V) : ℕ → V → V → Prop
  | here (v : V) : Walk next 0 v v
  | step {n : ℕ} {u v w : V} : Walk next n u v → w ∈ next v → Walk next (n + 1) u w

/-- Reached from one of these in at most `limit` steps. -/
def WithinSteps (next : V → List V) (roots : List V) (limit : ℕ) (v : V) : Prop :=
  ∃ root ∈ roots, ∃ n ≤ limit, Walk next n root v

variable [DecidableEq V]

/-- The vertices that have no depth yet get this one and enter the queue. -/
def discover (depth : ℕ) : List V → Dict V ℕ → List V → Dict V ℕ × List V
  | [], depths, queue => (depths, queue)
  | target :: targets, depths, queue =>
    if depths.get? target = none then
      discover depth targets (depths.set target depth) (queue ++ [target])
    else discover depth targets depths queue

def depthOf (depths : Dict V ℕ) (v : V) : ℕ := (depths.get? v).getD 0

def search (next : V → List V) (limit : ℕ) : ℕ → List V → Dict V ℕ → Dict V ℕ
  | 0, _, depths => depths
  | _ + 1, [], depths => depths
  | fuel + 1, source :: queue, depths =>
    if limit ≤ depthOf depths source then search next limit fuel queue depths
    else
      let (depths, queue) := discover (depthOf depths source + 1) (next source) depths queue
      search next limit fuel queue depths

section Discover

variable {depth : ℕ} {targets queue : List V} {depths : Dict V ℕ}

/-- What `discover` adds to the queue. -/
theorem exists_discovered (depth : ℕ) : ∀ (targets : List V) (depths : Dict V ℕ) (queue : List V),
    ∃ added, (discover depth targets depths queue).2 = queue ++ added ∧ added.Nodup ∧
      (∀ v ∈ added, v ∈ targets ∧ depths.get? v = none) ∧
      (∀ v, (discover depth targets depths queue).1.get? v =
        if v ∈ added then some depth else depths.get? v) ∧
      ∀ v ∈ targets, depths.get? v = none → v ∈ added
  | [], depths, queue => ⟨[], by simp [discover]⟩
  | target :: targets, depths, queue => by
    unfold discover
    split
    next hnew =>
      obtain ⟨added, hqueue, hnodup, hadded, hget, hall⟩ :=
        exists_discovered depth targets (depths.set target depth) (queue ++ [target])
      have hfresh : ∀ v ∈ added, v ∈ targets ∧ v ≠ target ∧ depths.get? v = none := by
        intro v hv
        obtain ⟨hmem, hnone⟩ := hadded v hv
        rw [Dict.get?_set] at hnone
        split at hnone
        · cases hnone
        next hne => exact ⟨hmem, hne, hnone⟩
      refine ⟨target :: added, ?_, ?_, ?_, ?_, ?_⟩
      · rw [hqueue, List.append_assoc, List.singleton_append]
      · exact List.nodup_cons.mpr ⟨fun h => (hfresh target h).2.1 rfl, hnodup⟩
      · intro v hv
        rcases List.mem_cons.mp hv with rfl | hv
        · exact ⟨List.mem_cons_self, hnew⟩
        · exact ⟨List.mem_cons_of_mem _ (hfresh v hv).1, (hfresh v hv).2.2⟩
      · intro v
        rw [hget, Dict.get?_set]
        by_cases hv : v = target
        · simp [hv]
        · simp [hv]
      · intro v hv hnone
        rcases List.mem_cons.mp hv with rfl | hv
        · exact List.mem_cons_self
        · by_cases hsame : v = target
          · exact hsame ▸ List.mem_cons_self
          · apply List.mem_cons_of_mem
            apply hall v hv
            rw [Dict.get?_set_ne _ _ hsame, hnone]
    next hold =>
      obtain ⟨added, hqueue, hnodup, hadded, hget, hall⟩ := exists_discovered depth targets depths queue
      refine ⟨added, hqueue, hnodup, ?_, hget, ?_⟩
      · exact fun v hv => ⟨List.mem_cons_of_mem _ (hadded v hv).1, (hadded v hv).2⟩
      · intro v hv hnone
        rcases List.mem_cons.mp hv with rfl | hv
        · exact absurd hnone hold
        · exact hall v hv hnone

end Discover

/-! ## The invariant -/

section Search

variable {next : V → List V} {limit : ℕ} {roots queue : List V} {depths : Dict V ℕ} {source : V}

/-- Between two steps. The queue goes up by its depths, no depth is more than one past its head, and a
    vertex that has left the queue has its targets at most one step further. -/
structure Searching (next : V → List V) (limit : ℕ) (roots queue : List V) (depths : Dict V ℕ) : Prop where
  queued : ∀ v ∈ queue, ∃ n, depths.get? v = some n
  sorted : queue.Pairwise fun a b => depthOf depths a ≤ depthOf depths b
  near : ∀ head ∈ queue.head?, ∀ v n, depths.get? v = some n → n ≤ depthOf depths head + 1
  left : ∀ v n, depths.get? v = some n → v ∉ queue → n < limit → ∀ target ∈ next v,
    ∃ m, depths.get? target = some m ∧ m ≤ n + 1
  walked : ∀ v n, depths.get? v = some n → n ≤ limit ∧ ∃ root ∈ roots, Walk next n root v
  rooted : ∀ root ∈ roots, depths.get? root = some 0

theorem depthOf_eq {v : V} {n : ℕ} (h : depths.get? v = some n) : depthOf depths v = n := by
  rw [depthOf, h, Option.getD_some]

/-- A vertex at the limit leaves the queue. -/
theorem Searching.skip (h : Searching next limit roots (source :: queue) depths)
    (hlimit : limit ≤ depthOf depths source) : Searching next limit roots queue depths where
  queued v hv := h.queued v (List.mem_cons_of_mem _ hv)
  sorted := (List.pairwise_cons.mp h.sorted).2
  near head hhead v n hv := by
    have hmem : head ∈ queue := List.mem_of_mem_head? hhead
    have hle := (List.pairwise_cons.mp h.sorted).1 head hmem
    have hsource := h.near source rfl v n hv
    omega
  left v n hv hnot hless target htarget := by
    by_cases hsame : v = source
    · subst hsame
      rw [depthOf_eq hv] at hlimit
      omega
    · exact h.left v n hv (by simp [hsame, hnot]) hless target htarget
  walked := h.walked
  rooted := h.rooted

/-- A vertex below the limit is expanded. -/
theorem Searching.expand (h : Searching next limit roots (source :: queue) depths)
    (hlimit : depthOf depths source < limit) :
    Searching next limit roots (discover (depthOf depths source + 1) (next source) depths queue).2
      (discover (depthOf depths source + 1) (next source) depths queue).1 := by
  obtain ⟨added, hqueue, hnodup, hadded, hget, hall⟩ :=
    exists_discovered (depthOf depths source + 1) (next source) depths queue
  generalize (discover (depthOf depths source + 1) (next source) depths queue).1 = depths' at hget ⊢
  rw [hqueue]
  obtain ⟨n₀, hn₀⟩ := h.queued source List.mem_cons_self
  have hdepth : depthOf depths source = n₀ := depthOf_eq hn₀
  -- what had a depth keeps it
  have hkept : ∀ v n, depths.get? v = some n → depths'.get? v = some n := by
    intro v n hv
    rw [hget, if_neg fun hmem => by rw [(hadded v hmem).2] at hv; cases hv]
    exact hv
  have hold : ∀ v ∈ queue, depthOf depths' v = depthOf depths v := by
    intro v hv
    obtain ⟨n, hn⟩ := h.queued v (List.mem_cons_of_mem _ hv)
    rw [depthOf_eq (hkept v n hn), depthOf_eq hn]
  have hnew : ∀ v ∈ added, depthOf depths' v = depthOf depths source + 1 := by
    intro v hv
    apply depthOf_eq
    rw [hget, if_pos hv]
  have hall_le : ∀ v n, depths'.get? v = some n → n ≤ depthOf depths source + 1 := by
    intro v n hv
    rw [hget] at hv
    split at hv
    · cases hv
      exact le_refl _
    · exact h.near source rfl v n hv
  obtain ⟨hfirst, hsorted⟩ := List.pairwise_cons.mp h.sorted
  refine ⟨?_, ?_, ?_, ?_, ?_, ?_⟩
  · intro v hv
    rcases List.mem_append.mp hv with hv | hv
    · obtain ⟨n, hn⟩ := h.queued v (List.mem_cons_of_mem _ hv)
      exact ⟨n, hkept v n hn⟩
    · exact ⟨_, by rw [hget, if_pos hv]⟩
  · rw [List.pairwise_append]
    refine ⟨?_, ?_, ?_⟩
    · apply hsorted.imp_of_mem
      intro a b ha hb hab
      rwa [hold a ha, hold b hb]
    · apply List.pairwise_of_forall_mem_list
      intro a ha b hb
      rw [hnew a ha, hnew b hb]
    · intro a ha b hb
      rw [hold a ha, hnew b hb]
      obtain ⟨n, hn⟩ := h.queued a (List.mem_cons_of_mem _ ha)
      rw [depthOf_eq hn]
      exact h.near source rfl a n hn
  · intro head hhead v n hv
    have hmem : head ∈ queue ++ added := List.mem_of_mem_head? hhead
    have hle := hall_le v n hv
    rcases List.mem_append.mp hmem with hmem | hmem
    · have hsource := hfirst head hmem
      rw [hold head hmem]
      omega
    · rw [hnew head hmem]
      omega
  · intro v n hv hnot hless target htarget
    have hnotAdded : v ∉ added := fun hmem => hnot (List.mem_append_right _ hmem)
    rw [hget, if_neg hnotAdded] at hv
    by_cases hsame : v = source
    · subst hsame
      have hn := depthOf_eq hv
      cases hfound : depths.get? target with
      | none =>
        refine ⟨depthOf depths v + 1, ?_, by omega⟩
        rw [hget, if_pos (hall target htarget hfound)]
      | some m =>
        have hm := h.near v rfl target m hfound
        exact ⟨m, hkept target m hfound, by omega⟩
    · have hnotQueue : v ∉ source :: queue := by
        simp only [List.mem_cons, hsame, false_or]
        exact fun hmem => hnot (List.mem_append_left _ hmem)
      obtain ⟨m, hm, hle⟩ := h.left v n hv hnotQueue hless target htarget
      exact ⟨m, hkept target m hm, hle⟩
  · intro v n hv
    rw [hget] at hv
    split at hv
    next hmem =>
      cases hv
      obtain ⟨-, root, hroot, hwalk⟩ := h.walked source n₀ hn₀
      refine ⟨hlimit, root, hroot, ?_⟩
      rw [hdepth]
      exact hwalk.step (hadded v hmem).1
    · exact h.walked v n hv
  · exact fun root hroot => hkept root 0 (h.rooted root hroot)

/-! ## The start -/

/-- Every root at depth nothing. -/
def rootDepths (roots : List V) : Dict V ℕ := .ofPairs (roots.map fun root => (root, 0))

theorem get?_foldl_roots (v : V) (roots : List V) : ∀ depths : Dict V ℕ,
    ((roots.map fun root => (root, 0)).foldl (fun d e => d.set e.1 e.2) depths).get? v =
      if v ∈ roots then some 0 else depths.get? v := by
  induction roots with
  | nil => simp
  | cons root roots ih =>
    intro depths
    rw [List.map_cons, List.foldl_cons, ih, Dict.get?_set]
    by_cases hmem : v ∈ roots
    · simp [hmem]
    · by_cases hsame : v = root
      · simp [hsame]
      · simp [hmem, hsame]

@[simp] theorem get?_rootDepths (roots : List V) (v : V) :
    (rootDepths roots).get? v = if v ∈ roots then some 0 else none :=
  get?_foldl_roots v roots .empty

theorem depthOf_rootDepths (roots : List V) (v : V) : depthOf (rootDepths roots) v = 0 := by
  rw [depthOf, get?_rootDepths]
  split <;> rfl

theorem Searching.start (next : V → List V) (limit : ℕ) (roots : List V) :
    Searching next limit roots roots (rootDepths roots) where
  queued v hv := ⟨0, by rw [get?_rootDepths, if_pos hv]⟩
  sorted := by
    apply List.pairwise_of_forall_mem_list
    intro a _ b _
    rw [depthOf_rootDepths, depthOf_rootDepths]
  near head _ v n hv := by
    rw [get?_rootDepths] at hv
    split at hv
    · cases hv
      exact Nat.zero_le _
    · cases hv
  left v n hv hnot := by
    rw [get?_rootDepths, if_neg hnot] at hv
    cases hv
  walked v n hv := by
    rw [get?_rootDepths] at hv
    split at hv
    next hmem =>
      cases hv
      exact ⟨Nat.zero_le _, v, hmem, .here v⟩
    · cases hv
  rooted root hroot := by rw [get?_rootDepths, if_pos hroot]

/-! ## The fuel -/

/-- The vertices of the universe that have no depth. -/
def unseen (everything : List V) (depths : Dict V ℕ) : List V :=
  everything.filter fun v => depths.get? v = none

theorem length_discover_le {everything : List V} (depth : ℕ) {targets : List V} (depths : Dict V ℕ)
    (queue : List V) (htargets : ∀ v ∈ targets, v ∈ everything) : (discover depth targets depths queue).2.length +
        (unseen everything (discover depth targets depths queue).1).length ≤
      queue.length + (unseen everything depths).length := by
  obtain ⟨added, hqueue, hnodup, hadded, hget, -⟩ := exists_discovered depth targets depths queue
  rw [hqueue, List.length_append]
  have hsplit : (unseen everything depths).length =
      ((unseen everything depths).filter (· ∈ added)).length +
        ((unseen everything depths).filter (· ∉ added)).length := by
    simpa using (unseen everything depths).length_eq_length_filter_add fun v => decide (v ∈ added)
  have hleft : unseen everything (discover depth targets depths queue).1 =
      (unseen everything depths).filter (· ∉ added) := by
    unfold unseen
    rw [List.filter_filter]
    apply List.filter_congr
    intro v _
    rw [hget]
    by_cases hv : v ∈ added
    · simp [hv]
    · simp [hv]
  have hcame : added.length ≤ ((unseen everything depths).filter (· ∈ added)).length := by
    apply (hnodup.subperm ?_).length_le
    intro v hv
    obtain ⟨hmem, hnone⟩ := hadded v hv
    simp only [unseen, List.mem_filter, decide_eq_true_eq]
    exact ⟨⟨htargets v hmem, hnone⟩, hv⟩
  rw [hleft]
  omega

/-- With enough fuel the search ends with nothing in the queue. -/
theorem Searching.search {everything : List V} (hnext : ∀ u, ∀ v ∈ next u, v ∈ everything) (fuel : ℕ) :
    ∀ {queue : List V} {depths : Dict V ℕ}, Searching next limit roots queue depths →
      queue.length + (unseen everything depths).length ≤ fuel →
      Searching next limit roots [] (Lib.search next limit fuel queue depths) := by
  induction fuel with
  | zero =>
    intro queue depths h hfuel
    have hempty : queue = [] := List.eq_nil_of_length_eq_zero (by omega)
    rw [hempty] at h
    exact h
  | succ fuel ih =>
    intro queue depths h hfuel
    cases queue with
    | nil => exact h
    | cons source queue =>
      unfold Lib.search
      rw [List.length_cons] at hfuel
      split
      next hlimit => exact ih (h.skip hlimit) (by omega)
      next hlimit =>
        have hless : (discover (depthOf depths source + 1) (next source) depths queue).2.length +
            (unseen everything (discover (depthOf depths source + 1) (next source) depths queue).1).length ≤
              queue.length + (unseen everything depths).length :=
          length_discover_le _ depths queue (hnext source)
        exact ih (h.expand (by omega)) (by omega)

/-- With an empty queue, what has a depth is what lies within the limit. -/
theorem Searching.get?_ne_none_iff (h : Searching next limit roots [] depths) (v : V) :
    depths.get? v ≠ none ↔ WithinSteps next roots limit v := by
  constructor
  · intro hv
    obtain ⟨n, hn⟩ := Option.ne_none_iff_exists'.mp hv
    obtain ⟨hle, root, hroot, hwalk⟩ := h.walked v n hn
    exact ⟨root, hroot, n, hle, hwalk⟩
  · rintro ⟨root, hroot, n, hle, hwalk⟩
    -- a walk of `n` steps from a root ends at a depth of at most `n`
    have hdepth : ∀ m ≤ limit, ∀ w, Walk next m root w → ∃ k, depths.get? w = some k ∧ k ≤ m := by
      intro m
      induction m with
      | zero =>
        intro _ w hw
        cases hw
        exact ⟨0, h.rooted root hroot, le_refl _⟩
      | succ m ih =>
        intro hm w hw
        cases hw with
        | step hw hmem =>
          obtain ⟨k, hk, hkm⟩ := ih (by omega) _ hw
          obtain ⟨j, hj, hjk⟩ := h.left _ k hk List.not_mem_nil (by omega) w hmem
          exact ⟨j, hj, by omega⟩
    obtain ⟨k, hk, -⟩ := hdepth n hle v hwalk
    rw [hk]
    exact Option.some_ne_none k

/-- **The search is exact**: with enough fuel it gives a depth to what a walk of at most `limit` steps
    reaches from a root, and to nothing else. -/
theorem mem_search_iff {everything : List V} (hnext : ∀ u, ∀ v ∈ next u, v ∈ everything)
    {fuel : ℕ} (hfuel : roots.length + everything.length ≤ fuel) (v : V) :
    (Lib.search next limit fuel roots (rootDepths roots)).get? v ≠ none ↔ WithinSteps next roots limit v := by
  apply Searching.get?_ne_none_iff
  apply (Searching.start next limit roots).search hnext
  have hless : (unseen everything (rootDepths roots)).length ≤ everything.length := List.length_filter_le _ _
  omega

end Search

end NightScout.Lib
