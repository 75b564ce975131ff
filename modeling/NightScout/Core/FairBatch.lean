import Mathlib.Algebra.BigOperators.Group.Finset.Piecewise
import Mathlib.Algebra.Order.BigOperators.Group.Finset
import NightScout.Core.Scheduler

/-!
# Fair batches

What `_select_ranked_batch` takes of each worker (`select_fair`). `quota` is the most a batch may take of a
worker: its ranked tasks, up to its capacity. After `k` whole rounds the batch holds `min k quota` tasks of
each worker (`Served.round`), so that a round that the limit cuts short leaves counts that differ by one.

A negative capacity leaves no room, as a capacity of zero does.
-/

namespace NightScout

open Lib

/-- The decisions of a worker, in their order. -/
def ofWorker (worker : String) (decisions : List ScheduleDecision) : List ScheduleDecision :=
  decisions.filter fun decision => decision.worker = worker

/-- How many tasks of a worker a batch may hold. -/
def quota (capacities : Dict String ℤ) (excluded : List String) (ranked : List ScheduleDecision)
    (worker : String) : ℕ :=
  if worker ∈ excluded then 0
  else
    match capacities.get? worker with
    | none => (ofWorker worker ranked).length
    | some capacity => min capacity.toNat (ofWorker worker ranked).length

/-- The workers that a batch may take from. -/
def eligibleWorkers (excluded : List String) (ranked : List ScheduleDecision) : Finset String :=
  (ranked.map ScheduleDecision.worker).toFinset.filter (· ∉ excluded)

section Counts

variable {worker : String} {decision : ScheduleDecision} {decisions : List ScheduleDecision}

theorem ofWorker_append (worker : String) (a b : List ScheduleDecision) :
    ofWorker worker (a ++ b) = ofWorker worker a ++ ofWorker worker b := List.filter_append ..

theorem ofWorker_singleton_self : ofWorker decision.worker [decision] = [decision] := by
  simp [ofWorker]

theorem ofWorker_singleton_ne (h : decision.worker ≠ worker) : ofWorker worker [decision] = [] := by
  simp [ofWorker, h]

theorem worker_of_mem (h : decision ∈ ofWorker worker decisions) : decision.worker = worker :=
  of_decide_eq_true (List.mem_filter.mp h).2

/-- The decisions, counted worker by worker. -/
theorem length_eq_sum_ofWorker {workers : Finset String} (h : ∀ d ∈ decisions, d.worker ∈ workers) :
    decisions.length = ∑ worker ∈ workers, (ofWorker worker decisions).length := by
  induction decisions with
  | nil => simp [ofWorker]
  | cons d decisions ih =>
    have hrest := ih fun x hx => h x (List.mem_cons_of_mem d hx)
    have hone : ∀ worker ∈ workers, (ofWorker worker (d :: decisions)).length =
        (if d.worker = worker then 1 else 0) + (ofWorker worker decisions).length := by
      intro worker _
      unfold ofWorker
      by_cases hworker : d.worker = worker
      · rw [List.filter_cons_of_pos (by simpa using hworker), if_pos hworker, List.length_cons, Nat.add_comm]
      · rw [List.filter_cons_of_neg (by simpa using hworker), if_neg hworker, Nat.zero_add]
    rw [Finset.sum_congr rfl hone, Finset.sum_add_distrib, ← hrest, Finset.sum_ite_eq,
      if_pos (h d List.mem_cons_self), List.length_cons, Nat.add_comm]

end Counts

/-! ## One round -/

section Rounds

variable {capacities : Dict String ℤ} {limit : ℤ} {excluded : List String}
  {ranked selected : List ScheduleDecision} {queue : WorkerQueue} {queues : List WorkerQueue} {k : ℕ}

/-- A queue against the batch: what the batch has of the worker, and what is left of its tasks. -/
structure WorkerQueue.Tracks (ranked selected : List ScheduleDecision) (excluded : List String)
    (queue : WorkerQueue) : Prop where
  eligible : queue.worker ∉ excluded
  split : ofWorker queue.worker selected ++ queue.waiting = ofWorker queue.worker ranked
  taken_eq : queue.taken = (ofWorker queue.worker selected).length

/-- A queue gives a task if the batch has less than its quota. -/
theorem WorkerQueue.Tracks.ready_iff (h : queue.Tracks ranked selected excluded) :
    queue.hasRoom capacities = true ∧ queue.waiting ≠ [] ↔
      queue.taken < quota capacities excluded ranked queue.worker := by
  have hlength : (ofWorker queue.worker ranked).length = queue.taken + queue.waiting.length := by
    rw [← h.split, List.length_append, h.taken_eq]
  have hwaiting : queue.waiting ≠ [] ↔ 0 < queue.waiting.length := List.length_pos_iff.symm
  unfold quota WorkerQueue.hasRoom
  rw [if_neg h.eligible, hwaiting]
  cases capacities.get? queue.worker with
  | none => simp only [true_and]; omega
  | some capacity =>
    simp only [decide_eq_true_eq, lt_min_iff]
    omega

/-- A task of another worker does not touch the queue. -/
theorem WorkerQueue.Tracks.other (h : queue.Tracks ranked selected excluded) {decision : ScheduleDecision}
    (hother : decision.worker ≠ queue.worker) :
    queue.Tracks ranked (selected ++ [decision]) excluded where
  eligible := h.eligible
  split := by rw [ofWorker_append, ofWorker_singleton_ne hother, List.append_nil, h.split]
  taken_eq := by rw [ofWorker_append, ofWorker_singleton_ne hother, List.append_nil, h.taken_eq]

/-- The queue gives its first task. -/
theorem WorkerQueue.Tracks.give (h : queue.Tracks ranked selected excluded) {decision : ScheduleDecision}
    {waiting : List ScheduleDecision} (hwaiting : queue.waiting = decision :: waiting) :
    decision.worker = queue.worker ∧ WorkerQueue.Tracks ranked (selected ++ [decision]) excluded
        { queue with taken := queue.taken + 1, waiting } := by
  have hmem : decision ∈ ofWorker queue.worker ranked := by
    rw [← h.split, hwaiting]
    simp
  have hworker : decision.worker = queue.worker := worker_of_mem hmem
  have hone : ofWorker queue.worker [decision] = [decision] := hworker ▸ ofWorker_singleton_self
  refine ⟨hworker, h.eligible, ?_, ?_⟩
  · rw [ofWorker_append, hone, ← h.split, hwaiting, List.append_assoc, List.singleton_append]
  · rw [ofWorker_append, hone, List.length_append, ← h.taken_eq, List.length_singleton]

/-- Only the worker's own tasks count. -/
theorem WorkerQueue.Tracks.congr (h : queue.Tracks ranked selected excluded) {selected' : List ScheduleDecision}
    (hsame : ofWorker queue.worker selected' = ofWorker queue.worker selected) :
    queue.Tracks ranked selected' excluded where
  eligible := h.eligible
  split := by rw [hsame, h.split]
  taken_eq := by rw [hsame, h.taken_eq]

/-- A queue that gives no task is passed over. -/
theorem roundOf_pass (h : ¬ (queue.hasRoom capacities = true ∧ queue.waiting ≠ []))
    (selected : List ScheduleDecision) : roundOf capacities limit (queue :: queues) selected =
      (queue :: (roundOf capacities limit queues selected).1, (roundOf capacities limit queues selected).2.1,
        (roundOf capacities limit queues selected).2.2) := by
  rw [roundOf]
  split
  next hroom =>
    split
    · rfl
    next decision waiting hwaiting =>
      exact absurd ⟨hroom, hwaiting ▸ List.cons_ne_nil decision waiting⟩ h
  · rfl

/-- A queue that gives its first task. -/
theorem roundOf_give (hroom : queue.hasRoom capacities = true) {decision : ScheduleDecision}
    {waiting : List ScheduleDecision} (hwaiting : queue.waiting = decision :: waiting)
    (selected : List ScheduleDecision) : roundOf capacities limit (queue :: queues) selected =
      if limit ≤ (selected ++ [decision]).length then
        ({ queue with taken := queue.taken + 1, waiting } :: queues, selected ++ [decision], true)
      else
        ({ queue with taken := queue.taken + 1, waiting } ::
            (roundOf capacities limit queues (selected ++ [decision])).1,
          (roundOf capacities limit queues (selected ++ [decision])).2.1, true) := by
  rw [roundOf, if_pos hroom]
  split
  next hnil =>
    rw [hwaiting] at hnil
    cases hnil
  next decision' waiting' hcons =>
    rw [hwaiting] at hcons
    cases hcons
    rfl

/-- The queues after `k` whole rounds and a part of the next one. -/
structure Served (capacities : Dict String ℤ) (limit : ℤ) (excluded : List String)
    (ranked : List ScheduleDecision) (k : ℕ) (queues : List WorkerQueue)
    (selected : List ScheduleDecision) : Prop where
  tracks : ∀ queue ∈ queues, queue.Tracks ranked selected excluded
  counts : ∀ queue ∈ queues, queue.taken = min k (quota capacities excluded ranked queue.worker) ∨
    queue.taken = min (k + 1) (quota capacities excluded ranked queue.worker)
  /-- With room left in the batch the round was a whole one. -/
  whole : selected.length < limit → ∀ queue ∈ queues,
    queue.taken = min (k + 1) (quota capacities excluded ranked queue.worker)
  length_le : (selected.length : ℤ) ≤ limit

/-- **What a round leaves**: the counts of the next round, up to where the limit cut it short. Workers
    that it has no queue of are not touched. -/
theorem Served.round (hnodup : (queues.map WorkerQueue.worker).Nodup)
    (htracks : ∀ queue ∈ queues, queue.Tracks ranked selected excluded)
    (hcounts : ∀ queue ∈ queues, queue.taken = min k (quota capacities excluded ranked queue.worker))
    (hroom : selected.length < limit) :
    Served capacities limit excluded ranked k (roundOf capacities limit queues selected).1
        (roundOf capacities limit queues selected).2.1 ∧
      (roundOf capacities limit queues selected).1.map WorkerQueue.worker = queues.map WorkerQueue.worker ∧
      ∀ worker ∉ queues.map WorkerQueue.worker,
        ofWorker worker (roundOf capacities limit queues selected).2.1 = ofWorker worker selected := by
  induction queues generalizing selected with
  | nil =>
    simp only [roundOf, List.map_nil, true_and]
    refine ⟨⟨by simp, by simp, by simp, hroom.le⟩, by simp⟩
  | cons queue queues ih =>
    rw [List.map_cons, List.nodup_cons] at hnodup
    have htracksRest := fun x hx => htracks x (List.mem_cons_of_mem queue hx)
    have hcountsRest := fun x hx => hcounts x (List.mem_cons_of_mem queue hx)
    have hown := htracks queue List.mem_cons_self
    have hcount := hcounts queue List.mem_cons_self
    by_cases hready : queue.hasRoom capacities = true ∧ queue.waiting ≠ []
    · obtain ⟨decision, waiting, hwaiting⟩ := List.exists_cons_of_ne_nil hready.2
      have hless := hown.ready_iff.mp hready
      obtain ⟨hworker, hgiven⟩ := hown.give hwaiting
      have hnext : queue.taken + 1 = min (k + 1) (quota capacities excluded ranked queue.worker) := by
        omega
      have hothers : ∀ x ∈ queues, x.Tracks ranked (selected ++ [decision]) excluded := by
        intro x hx
        apply (htracksRest x hx).other
        intro hsame
        apply hnodup.1
        rw [← hworker, hsame]
        exact List.mem_map_of_mem hx
      have hframe : ∀ worker ∉ (queue :: queues).map WorkerQueue.worker,
          ofWorker worker (selected ++ [decision]) = ofWorker worker selected := by
        intro worker hnot
        have hne : decision.worker ≠ worker := by
          intro hsame
          apply hnot
          rw [← hsame, hworker]
          exact List.mem_cons_self
        rw [ofWorker_append, ofWorker_singleton_ne hne, List.append_nil]
      rw [roundOf_give hready.1 hwaiting]
      split
      next hfull =>
        refine ⟨⟨?_, ?_, ?_, ?_⟩, by simp, ?_⟩
        · simpa using ⟨hgiven, hothers⟩
        · simpa using ⟨Or.inr hnext, fun x hx => Or.inl (hcountsRest x hx)⟩
        · intro hless
          exact absurd hfull (not_le.mpr hless)
        · simp only [List.length_append, List.length_singleton]
          push_cast
          omega
        · exact hframe
      next hfull =>
        obtain ⟨hserved, hworkers, hsame⟩ := ih hnodup.2 hothers hcountsRest (not_le.mp hfull)
        have hkept : ofWorker queue.worker
            (roundOf capacities limit queues (selected ++ [decision])).2.1 =
              ofWorker queue.worker (selected ++ [decision]) := hsame _ hnodup.1
        refine ⟨⟨?_, ?_, ?_, hserved.length_le⟩, ?_, ?_⟩
        · simpa using ⟨hgiven.congr hkept, hserved.tracks⟩
        · simpa using ⟨Or.inr hnext, hserved.counts⟩
        · intro hless
          simpa using ⟨hnext, hserved.whole hless⟩
        · simp [hworkers]
        · intro worker hnot
          rw [hsame worker fun h => hnot (List.mem_cons_of_mem _ h), hframe worker hnot]
    · have hdone : queue.taken = min (k + 1) (quota capacities excluded ranked queue.worker) := by
        have hle := not_lt.mp fun h => hready (hown.ready_iff.mpr h)
        omega
      obtain ⟨hserved, hworkers, hsame⟩ := ih hnodup.2 htracksRest hcountsRest hroom
      have hkept : ofWorker queue.worker (roundOf capacities limit queues selected).2.1 =
          ofWorker queue.worker selected := hsame _ hnodup.1
      rw [roundOf_pass hready]
      refine ⟨⟨?_, ?_, ?_, hserved.length_le⟩, ?_, ?_⟩
      · simpa using ⟨hown.congr hkept, hserved.tracks⟩
      · simpa using ⟨Or.inr hdone, hserved.counts⟩
      · intro hless
        simpa using ⟨hdone, hserved.whole hless⟩
      · simp [hworkers]
      · intro worker hnot
        exact hsame worker fun h => hnot (List.mem_cons_of_mem _ h)

theorem rounds_full (fuel : ℕ) (h : limit ≤ selected.length) :
    rounds capacities limit fuel queues selected = selected := by
  cases fuel with
  | zero => rfl
  | succ fuel => rw [rounds, if_pos h]

/-- How the rounds end: with the counts of whole rounds and a part of one, and with room left only if
    every queue has given what it can. -/
structure Ended (capacities : Dict String ℤ) (limit : ℤ) (excluded : List String)
    (ranked : List ScheduleDecision) (workers : List String) (selected : List ScheduleDecision) (k : ℕ)
    (queues : List WorkerQueue) : Prop extends
    Served capacities limit excluded ranked k queues selected where
  workers_eq : queues.map WorkerQueue.worker = workers
  others : ∀ worker ∉ workers, ofWorker worker selected = []
  exhausted : selected.length < limit → ∀ queue ∈ queues,
    queue.taken = quota capacities excluded ranked queue.worker

theorem exists_ended_rounds {fuel : ℕ} {workers : List String} (hnodup : workers.Nodup)
    (hworkers : queues.map WorkerQueue.worker = workers)
    (htracks : ∀ queue ∈ queues, queue.Tracks ranked selected excluded)
    (hcounts : ∀ queue ∈ queues, queue.taken = min k (quota capacities excluded ranked queue.worker))
    (hothers : ∀ worker ∉ workers, ofWorker worker selected = [])
    (hlimit : (selected.length : ℤ) ≤ limit) (hfuel : limit ≤ selected.length + fuel) :
    ∃ k queues', Ended capacities limit excluded ranked workers
      (rounds capacities limit fuel queues selected) k queues' := by
  have hfull : ∀ fuel, limit ≤ selected.length → ∃ k queues', Ended capacities limit excluded ranked workers
      (rounds capacities limit fuel queues selected) k queues' := by
    intro fuel hdone
    rw [rounds_full fuel hdone]
    refine ⟨k, queues, ⟨htracks, fun x hx => .inl (hcounts x hx), ?_, hlimit⟩, hworkers, hothers, ?_⟩
    · exact fun hless => absurd hdone (not_le.mpr hless)
    · exact fun hless => absurd hdone (not_le.mpr hless)
  induction fuel generalizing queues selected k with
  | zero => exact hfull 0 (by omega)
  | succ fuel ih =>
    by_cases hdone : limit ≤ selected.length
    · exact hfull (fuel + 1) hdone
    obtain ⟨hserved, hworkers', hsame⟩ :=
      Served.round (hworkers ▸ hnodup) htracks hcounts (not_le.mp hdone)
    obtain ⟨⟨hprogress, hlonger⟩, hstuck⟩ := roundOf_spec capacities limit queues selected
    have hothers' : ∀ worker ∉ workers,
        ofWorker worker (roundOf capacities limit queues selected).2.1 = [] := by
      intro worker hnot
      rw [hsame worker (hworkers ▸ hnot), hothers worker hnot]
    rw [rounds, if_neg hdone]
    cases hp : (roundOf capacities limit queues selected).2.2 with
    | true =>
      simp only [hp, if_true]
      have hgrown := hlonger hp
      by_cases hnext : limit ≤ (roundOf capacities limit queues selected).2.1.length
      · rw [rounds_full fuel hnext]
        exact ⟨k, _, hserved, hworkers'.trans hworkers, hothers',
          fun hless => absurd hnext (not_le.mpr hless)⟩
      · have hwhole := hserved.whole (not_le.mp hnext)
        have hleft : limit ≤ (roundOf capacities limit queues selected).2.1.length + fuel := by
          push_cast at hfuel
          omega
        refine ih (hworkers'.trans hworkers) hserved.tracks hwhole hothers' hserved.length_le hleft ?_
        intro fuel hdone
        exact absurd hdone hnext
    | false =>
      have hunchanged := hstuck hp
      simp only [hp, Bool.false_eq_true, if_false]
      have hspent : ∀ queue ∈ queues, queue.taken = quota capacities excluded ranked queue.worker := by
        intro queue hqueue
        have hnot : ¬ queue.taken < quota capacities excluded ranked queue.worker := by
          intro hless
          have hready := (htracks queue hqueue).ready_iff.mpr hless
          rw [hprogress.mpr ⟨queue, hqueue, hready⟩] at hp
          cases hp
        have hcount := hcounts queue hqueue
        omega
      rw [hunchanged]
      refine ⟨k, queues, ⟨htracks, fun x hx => .inl (hcounts x hx), ?_, hlimit⟩, hworkers, hothers,
        fun _ => hspent⟩
      intro _ queue hqueue
      have hcount := hcounts queue hqueue
      have hown := hspent queue hqueue
      omega

end Rounds

/-! ## The batch -/

section Batch

variable {capacities : Dict String ℤ} {limit : ℤ} {excluded : List String}
  {ranked : List ScheduleDecision}

theorem mem_keys_foldl : ∀ (decisions : List ScheduleDecision)
    (queues : Dict String (List ScheduleDecision)) (worker : String),
    worker ∈ (decisions.foldl (fun queues decision =>
      queues.set decision.worker ((queues.get? decision.worker).getD [] ++ [decision])) queues).keys ↔
      worker ∈ queues.keys ∨ worker ∈ decisions.map ScheduleDecision.worker
  | [], queues, worker => by simp
  | decision :: decisions, queues, worker => by
    have hset : worker ∈ (queues.set decision.worker
        ((queues.get? decision.worker).getD [] ++ [decision])).keys ↔
          worker = decision.worker ∨ worker ∈ queues.keys := Dict.mem_keys_setEntries queues.entries
    rw [List.foldl_cons, mem_keys_foldl decisions, hset, List.map_cons, List.mem_cons, or_assoc,
      or_left_comm]

theorem mem_keys_workerQueues {worker : String} :
    worker ∈ (workerQueues excluded ranked).keys ↔ worker ∈ eligibleWorkers excluded ranked := by
  unfold workerQueues
  rw [mem_keys_foldl]
  simp only [Dict.keys, Dict.empty, List.map_nil, List.not_mem_nil, false_or, List.mem_map,
    List.mem_filter, decide_not, Bool.not_eq_eq_eq_not, Bool.not_true, decide_eq_false_iff_not,
    eligibleWorkers, Finset.mem_filter, List.mem_toFinset]
  constructor
  · rintro ⟨d, ⟨hd, hnot⟩, hworker⟩
    exact ⟨⟨d, hd, hworker⟩, hworker ▸ hnot⟩
  · rintro ⟨⟨d, hd, hworker⟩, hnot⟩
    exact ⟨d, ⟨hd, hworker.symm ▸ hnot⟩, hworker⟩

theorem mem_ofWorker {decision : ScheduleDecision} {decisions : List ScheduleDecision} :
    decision ∈ ofWorker decision.worker decisions ↔ decision ∈ decisions := by
  simp [ofWorker]

/-- A worker that is not eligible has no quota. -/
theorem quota_of_notMem {worker : String} (h : worker ∉ eligibleWorkers excluded ranked) :
    quota capacities excluded ranked worker = 0 := by
  unfold quota
  split
  · rfl
  next hnot =>
    have hnil : ofWorker worker ranked = [] := by
      apply List.filter_eq_nil_iff.mpr
      intro decision hdecision hworker
      apply h
      rw [← of_decide_eq_true hworker] at hnot ⊢
      exact Finset.mem_filter.mpr
        ⟨List.mem_toFinset.mpr (List.mem_map_of_mem hdecision), hnot⟩
    rw [hnil]
    cases capacities.get? worker <;> simp

/-- The queues that the rounds start with. -/
theorem tracks_workerQueues {queue : WorkerQueue}
    (h : queue ∈ (workerQueues excluded ranked).entries.map fun e =>
      ({ worker := e.1, waiting := e.2 } : WorkerQueue)) :
    queue.Tracks ranked [] excluded ∧ queue.taken = 0 := by
  obtain ⟨⟨worker, waiting⟩, hentry, rfl⟩ := List.mem_map.mp h
  have hkey : worker ∈ (workerQueues excluded ranked).keys := List.mem_map_of_mem hentry
  have heligible : worker ∉ excluded :=
    (Finset.mem_filter.mp (mem_keys_workerQueues.mp hkey)).2
  have hget := workerQueues_get excluded ranked worker
  rw [Dict.mem_entries_iff.mp hentry, Option.getD_some] at hget
  refine ⟨⟨heligible, ?_, rfl⟩, rfl⟩
  rw [hget]
  simp [ofWorker, heligible]

section Counted

variable {selected : List ScheduleDecision} {k : ℕ} {queues : List WorkerQueue} {workers : List String}

/-- The tasks of any worker: a beginning of its ranked ones, as many as after `k` or `k + 1` rounds. -/
theorem Ended.taken (hended : Ended capacities limit excluded ranked workers selected k queues)
    (hworkers : ∀ worker, worker ∈ workers ↔ worker ∈ eligibleWorkers excluded ranked) (worker : String) :
    ofWorker worker selected <+: ofWorker worker ranked ∧
      ((ofWorker worker selected).length = min k (quota capacities excluded ranked worker) ∨
        (ofWorker worker selected).length = min (k + 1) (quota capacities excluded ranked worker)) := by
  by_cases hworker : worker ∈ workers
  · rw [← hended.workers_eq] at hworker
    obtain ⟨queue, hqueue, rfl⟩ := List.mem_map.mp hworker
    have htracks := hended.tracks queue hqueue
    rw [← htracks.taken_eq]
    exact ⟨⟨queue.waiting, htracks.split⟩, hended.counts queue hqueue⟩
  · have hnone := hended.others worker hworker
    have hquota : quota capacities excluded ranked worker = 0 :=
      quota_of_notMem fun h => hworker ((hworkers worker).mpr h)
    rw [hnone, hquota]
    exact ⟨List.nil_prefix, by simp⟩

/-- Every selected task is of an eligible worker. -/
theorem Ended.eligible (hended : Ended capacities limit excluded ranked workers selected k queues)
    (hworkers : ∀ worker, worker ∈ workers ↔ worker ∈ eligibleWorkers excluded ranked)
    {decision : ScheduleDecision} (h : decision ∈ selected) : decision.worker ∈ eligibleWorkers excluded ranked := by
  by_contra hnot
  have hnone := hended.others decision.worker fun hworker => hnot ((hworkers _).mp hworker)
  have hmem := mem_ofWorker.mpr h
  rw [hnone] at hmem
  cases hmem

/-- A worker gives its quota, if the batch has room left. -/
theorem Ended.spent (hended : Ended capacities limit excluded ranked workers selected k queues)
    (hworkers : ∀ worker, worker ∈ workers ↔ worker ∈ eligibleWorkers excluded ranked)
    (hroom : selected.length < limit) {worker : String} (h : worker ∈ eligibleWorkers excluded ranked) :
    (ofWorker worker selected).length = quota capacities excluded ranked worker := by
  have hworker := (hworkers worker).mpr h
  rw [← hended.workers_eq] at hworker
  obtain ⟨queue, hqueue, rfl⟩ := List.mem_map.mp hworker
  rw [← (hended.tracks queue hqueue).taken_eq]
  exact hended.exhausted hroom queue hqueue

end Counted

/-- What a fair batch is. -/
structure FairBatch (capacities : Dict String ℤ) (limit : ℤ) (excluded : List String)
    (ranked selected : List ScheduleDecision) : Prop where
  /-- Each ranked task is taken at most once. -/
  subperm : selected.Subperm ranked
  not_excluded : ∀ decision ∈ selected, decision.worker ∉ excluded
  within_capacity : ∀ worker capacity, capacities.get? worker = some capacity →
    (ofWorker worker selected).length ≤ capacity.toNat
  within_limit : selected.length ≤ limit.toNat
  /-- A worker's tasks are taken in ranked order, from its first. -/
  ranked_first : ∀ worker, ofWorker worker selected <+: ofWorker worker ranked
  size : selected.length = min limit.toNat
    (∑ worker ∈ eligibleWorkers excluded ranked, quota capacities excluded ranked worker)
  /-- A worker with less by two has no more to give. -/
  fair : ∀ fewer more, (ofWorker fewer selected).length + 1 < (ofWorker more selected).length →
    (ofWorker fewer selected).length = quota capacities excluded ranked fewer

theorem FairBatch.of_ended {selected : List ScheduleDecision} {k : ℕ} {queues : List WorkerQueue}
    {workers : List String} (hended : Ended capacities limit excluded ranked workers selected k queues)
    (hworkers : ∀ worker, worker ∈ workers ↔ worker ∈ eligibleWorkers excluded ranked) :
    FairBatch capacities limit excluded ranked selected := by
  have htaken := hended.taken hworkers
  have heligible : ∀ decision ∈ selected, decision.worker ∈ eligibleWorkers excluded ranked :=
    fun decision h => hended.eligible hworkers h
  have hquota : ∀ worker, (ofWorker worker selected).length ≤ quota capacities excluded ranked worker := by
    intro worker
    have hcount := (htaken worker).2
    omega
  have hlength := hended.length_le
  have hsum := length_eq_sum_ofWorker heligible
  have hle : selected.length ≤ ∑ worker ∈ eligibleWorkers excluded ranked,
      quota capacities excluded ranked worker := by
    rw [hsum]
    exact Finset.sum_le_sum fun worker _ => hquota worker
  refine ⟨?_, ?_, ?_, by omega, fun worker => (htaken worker).1, ?_, ?_⟩
  · classical
    apply List.subperm_ext_iff.mpr
    intro decision hdecision
    have hown : ∀ l : List ScheduleDecision,
        (ofWorker decision.worker l).count decision = l.count decision :=
      fun l => List.count_filter (by simp)
    rw [← hown selected, ← hown ranked]
    exact (htaken decision.worker).1.sublist.count_le decision
  · exact fun decision h => (Finset.mem_filter.mp (heligible decision h)).2
  · intro worker capacity hcapacity
    have hown := hquota worker
    unfold quota at hown
    rw [hcapacity] at hown
    split at hown
    · omega
    · exact hown.trans (min_le_left _ _)
  · by_cases hroom : selected.length < limit
    · have hall : selected.length = ∑ worker ∈ eligibleWorkers excluded ranked,
          quota capacities excluded ranked worker := by
        rw [hsum]
        exact Finset.sum_congr rfl fun worker h => hended.spent hworkers hroom h
      omega
    · omega
  · intro fewer more hless
    have hfewer := (htaken fewer).2
    have hmore := (htaken more).2
    omega

theorem exists_ended_batch (hlimit : 0 ≤ limit) : ∃ k queues,
    Ended capacities limit excluded ranked (workerQueues excluded ranked).keys
      (selectRankedBatch capacities limit excluded ranked) k queues := by
  have hstart : ∀ queue ∈ (workerQueues excluded ranked).entries.map fun e =>
      ({ worker := e.1, waiting := e.2 } : WorkerQueue),
      queue.Tracks ranked [] excluded ∧ queue.taken = 0 := fun queue h => tracks_workerQueues h
  refine exists_ended_rounds (k := 0) (workerQueues excluded ranked).nodup_keys ?_ (fun queue h => (hstart queue h).1)
    (fun queue h => ?_) (fun _ _ => rfl) (by simpa using hlimit) ?_
  · rw [List.map_map]
    rfl
  · rw [(hstart queue h).2, Nat.zero_min]
  · have hlength : (([] : List ScheduleDecision).length : ℤ) = 0 := rfl
    omega

/-- **Every batch is fair.** -/
theorem select_fair (capacities : Dict String ℤ) (limit : ℤ) (excluded : List String) (ranked : List ScheduleDecision) :
    FairBatch capacities limit excluded ranked (selectRankedBatch capacities limit excluded ranked) := by
  by_cases hlimit : 0 ≤ limit
  · have hbatch : ∃ k queues, Ended capacities limit excluded ranked (workerQueues excluded ranked).keys
        (selectRankedBatch capacities limit excluded ranked) k queues := exists_ended_batch hlimit
    obtain ⟨k, queues, hended⟩ := hbatch
    exact FairBatch.of_ended hended fun worker => mem_keys_workerQueues
  · have hzero : limit.toNat = 0 := by omega
    have hnone : ∀ worker, ofWorker worker ([] : List ScheduleDecision) = [] := fun _ => rfl
    have hnil : selectRankedBatch capacities limit excluded ranked = [] := by
      unfold selectRankedBatch
      rw [hzero, rounds]
    rw [hnil]
    constructor <;> simp [hnone, hzero, List.nil_subperm]

end Batch

end NightScout
