import NightScout.Core.FairReady
import Mathlib.Algebra.Order.Field.Rat

/-!
# The scheduler

`Scheduler` of `recon/core/scheduler.py`. It scores the fair shortlist of the queue, ranks it, and takes
a batch from it in rounds, one task of each worker a round, as far as the workers have capacity.

Exclusions and capacities come after the shortlist is cut off, so a batch can be empty while a task
that could run is ready: it is not on the shortlist. `select_batch_conserves_iff` says that this is the
only way. `math.log1p` and what the signal provider answers are parameters.
-/

namespace NightScout

open Lib

structure SchedulingSignals where
  confidence : ℚ := 1 / 2
  novelty : ℚ := 1 / 2
  expectedYield : ℚ := 1 / 2
  informationGain : ℚ := 1 / 2
  estimatedCost : ℚ := 1
  unit : (0 ≤ confidence ∧ confidence ≤ 1) ∧ (0 ≤ novelty ∧ novelty ≤ 1) ∧
    (0 ≤ expectedYield ∧ expectedYield ≤ 1) ∧ 0 ≤ informationGain ∧ informationGain ≤ 1 := by
    decide +kernel
  cost_pos : 0 < estimatedCost := by decide +kernel

structure SchedulerConfig where
  routePriorityWeight : ℚ := 1
  confidenceWeight : ℚ := 3
  noveltyWeight : ℚ := 4
  expectedYieldWeight : ℚ := 3
  informationGainWeight : ℚ := 3
  costWeight : ℚ := 2
  retryPenaltyWeight : ℚ := 1
  ageBoostPerMinute : ℚ := 1 / 100
  maxAgeBoost : ℚ := 3
  candidateLimit : ℤ := 256
  age_nonneg : 0 ≤ ageBoostPerMinute ∧ 0 ≤ maxAgeBoost := by decide +kernel
  limit_bounds : 1 ≤ candidateLimit ∧ candidateLimit ≤ 10000 := by decide

structure ScoreBreakdown where
  routePriority : ℚ
  confidence : ℚ
  novelty : ℚ
  expectedYield : ℚ
  informationGain : ℚ
  ageBoost : ℚ
  costPenalty : ℚ
  retryPenalty : ℚ
  total : ℚ
  deriving DecidableEq

structure ScheduleDecision where
  taskId : String
  worker : String
  action : String
  inputEventId : String
  branchId : Option String := none
  score : ℚ
  breakdown : ScoreBreakdown
  signals : SchedulingSignals
  evaluatedAt : Instant
  routeRuleId : Option String := none
  routingReason : Option String := none

/-! ## Ranking -/

section Ranking

variable (log1p : ℚ → ℚ) (config : SchedulerConfig)

/-- The components of `_build_decision`. -/
def scoreBreakdown (task : Task) (signals : SchedulingSignals) (evaluatedAt : Instant) :
    ScoreBreakdown :=
  let ageMinutes := max (totalSeconds (evaluatedAt - task.createdAt) / 60) 0
  let ageBoost := min (ageMinutes * config.ageBoostPerMinute) config.maxAgeBoost
  let routePriority := task.priority * config.routePriorityWeight
  let confidence := signals.confidence * config.confidenceWeight
  let novelty := signals.novelty * config.noveltyWeight
  let expectedYield := signals.expectedYield * config.expectedYieldWeight
  let informationGain := signals.informationGain * config.informationGainWeight
  let costPenalty := log1p signals.estimatedCost * config.costWeight
  let retryPenalty := task.attempts * config.retryPenaltyWeight
  { routePriority, confidence, novelty, expectedYield, informationGain, ageBoost, costPenalty
    retryPenalty
    total := routePriority + confidence + novelty + expectedYield + informationGain + ageBoost -
      costPenalty - retryPenalty }

def buildDecision (task : Task) (signals : SchedulingSignals) (evaluatedAt : Instant) :
    ScheduleDecision where
  taskId := task.taskId
  worker := task.worker.text
  action := task.action.text
  inputEventId := task.inputEventId.text
  branchId := task.branchId
  score := (scoreBreakdown log1p config task signals evaluatedAt).total
  breakdown := scoreBreakdown log1p config task signals evaluatedAt
  signals := signals
  evaluatedAt := evaluatedAt
  routeRuleId := task.routeRuleId.map Stripped.text
  routingReason := task.routingReason.map Stripped.text

/-- `_decision_sort_key`, on a task and its decision. -/
def decisionSortKey (scored : Task × ScheduleDecision) :
    ℚ ×ₗ ℚ ×ₗ Instant ×ₗ Instant ×ₗ String :=
  toLex (-scored.2.score, toLex (-scored.1.priority, toLex (scored.1.availableAt,
    toLex (scored.1.createdAt, scored.1.taskId))))

/-- `rank_ready`, on the shortlist. -/
def rankReady (signals : Task → SchedulingSignals) (evaluatedAt : Instant) (tasks : List Task) :
    List ScheduleDecision :=
  ((tasks.map fun task => (task, buildDecision log1p config task (signals task) evaluatedAt)).insertionSort
    fun a b => decisionSortKey a ≤ decisionSortKey b).map Prod.snd

end Ranking

/-! ## Batches -/

/-- What is left of a worker's ranked tasks, and how many are in the batch. -/
structure WorkerQueue where
  worker : String
  taken : ℕ := 0
  waiting : List ScheduleDecision

section Batches

variable (capacities : Dict String ℤ) (limit : ℤ)

/-- Whether the batch may have one more task of the worker. -/
def WorkerQueue.hasRoom (queue : WorkerQueue) : Bool :=
  match capacities.get? queue.worker with
  | none => true
  | some capacity => (queue.taken : ℤ) < capacity

/-- The queues of the workers that are not excluded, in the order in which they rank. -/
def workerQueues (excluded : List String) (ranked : List ScheduleDecision) :
    Dict String (List ScheduleDecision) :=
  (ranked.filter fun decision => decision.worker ∉ excluded).foldl (fun queues decision =>
    queues.set decision.worker ((queues.get? decision.worker).getD [] ++ [decision])) .empty

/-- One round over the workers: what is left, the batch, and whether it has grown. -/
def roundOf : List WorkerQueue → List ScheduleDecision →
    List WorkerQueue × List ScheduleDecision × Bool
  | [], selected => ([], selected, false)
  | queue :: queues, selected =>
    if queue.hasRoom capacities then
      match queue.waiting with
      | [] =>
        let (rest, selected, progressed) := roundOf queues selected
        (queue :: rest, selected, progressed)
      | decision :: waiting =>
        let queue := { queue with taken := queue.taken + 1, waiting }
        if limit ≤ (selected ++ [decision]).length then
          (queue :: queues, selected ++ [decision], true)
        else
          let (rest, selected, _) := roundOf queues (selected ++ [decision])
          (queue :: rest, selected, true)
    else
      let (rest, selected, progressed) := roundOf queues selected
      (queue :: rest, selected, progressed)

/-- The rounds, until the batch is full or stops growing. -/
def rounds : ℕ → List WorkerQueue → List ScheduleDecision → List ScheduleDecision
  | 0, _, selected => selected
  | fuel + 1, queues, selected =>
    if limit ≤ selected.length then selected
    else
      let (queues, selected, progressed) := roundOf capacities limit queues selected
      if progressed then rounds fuel queues selected else selected

/-- `_select_ranked_batch`. A round that grows the batch adds a task to it, so there are no more than
    `limit` of them. -/
def selectRankedBatch (excluded : List String) (ranked : List ScheduleDecision) :
    List ScheduleDecision :=
  rounds capacities limit limit.toNat
    ((workerQueues excluded ranked).entries.map fun e => { worker := e.1, waiting := e.2 }) []

end Batches

section Rounds

variable {capacities : Dict String ℤ} {limit : ℤ}

/-- **What a round does**: it grows the batch exactly if some worker has room and a task waiting, and
    changes nothing in the batch otherwise. -/
theorem roundOf_spec (capacities : Dict String ℤ) (limit : ℤ) : ∀ (queues : List WorkerQueue) (selected : List ScheduleDecision),
    (((roundOf capacities limit queues selected).2.2 = true ↔
        ∃ queue ∈ queues, queue.hasRoom capacities = true ∧ queue.waiting ≠ []) ∧
      ((roundOf capacities limit queues selected).2.2 = true →
        selected.length < (roundOf capacities limit queues selected).2.1.length)) ∧
      ((roundOf capacities limit queues selected).2.2 = false →
        (roundOf capacities limit queues selected).2.1 = selected)
  | [], selected => by simp [roundOf]
  | queue :: queues, selected => by
    unfold roundOf
    split
    next hroom =>
      cases hwaiting : queue.waiting with
      | nil =>
        have ih := roundOf_spec capacities limit queues selected
        simpa [List.exists_mem_cons_iff, hwaiting] using ih
      | cons decision waiting =>
        simp only
        split
        · simp [hroom, hwaiting]
        · have ih := roundOf_spec capacities limit queues (selected ++ [decision])
          have hlonger : selected.length <
              (roundOf capacities limit queues (selected ++ [decision])).2.1.length := by
            have hlen : (selected ++ [decision]).length = selected.length + 1 := by simp
            cases hp : (roundOf capacities limit queues (selected ++ [decision])).2.2 with
            | true =>
              have := ih.1.2 hp
              omega
            | false =>
              rw [ih.2 hp]
              omega
          simp [hroom, hwaiting, hlonger]
    next hroom =>
      have ih := roundOf_spec capacities limit queues selected
      simpa [List.exists_mem_cons_iff, hroom] using ih

/-- What is in the batch stays in it. -/
theorem length_le_rounds (capacities : Dict String ℤ) (limit : ℤ) : ∀ (fuel : ℕ)
    (queues : List WorkerQueue) (selected : List ScheduleDecision),
    selected.length ≤ (rounds capacities limit fuel queues selected).length
  | 0, _, _ => le_refl _
  | fuel + 1, queues, selected => by
    unfold rounds
    split
    · exact le_refl _
    · have hspec := roundOf_spec capacities limit queues selected
      cases hp : (roundOf capacities limit queues selected).2.2 with
      | true =>
        have hlonger := hspec.1.2 hp
        have hrest := length_le_rounds capacities limit fuel (roundOf capacities limit queues selected).1
          (roundOf capacities limit queues selected).2.1
        simp only [hp, if_true]
        exact hlonger.le.trans hrest
      | false =>
        simp only [hp, Bool.false_eq_true, if_false]
        exact le_of_eq (congrArg List.length (hspec.2 hp)).symm

/-- The fuel is enough: with room for at most `fuel` more tasks, more fuel changes nothing. -/
theorem rounds_fuel : ∀ (fuel more : ℕ) (queues : List WorkerQueue)
    (selected : List ScheduleDecision), limit ≤ selected.length + fuel →
    rounds capacities limit (fuel + more) queues selected =
      rounds capacities limit fuel queues selected
  | 0, 0, _, _, _ => rfl
  | 0, more + 1, queues, selected, h => by
    have hfull : limit ≤ selected.length := by omega
    rw [Nat.zero_add]
    unfold rounds
    rw [if_pos hfull]
  | fuel + 1, more, queues, selected, h => by
    rw [Nat.add_right_comm, rounds, rounds]
    split
    · rfl
    · have hspec := roundOf_spec capacities limit queues selected
      cases hp : (roundOf capacities limit queues selected).2.2 with
      | true =>
        have hlonger := hspec.1.2 hp
        have hnext : limit ≤ (roundOf capacities limit queues selected).2.1.length + fuel := by
          push_cast at h
          omega
        simp only [hp, if_true]
        exact rounds_fuel fuel more _ _ hnext
      | false => simp only [hp, Bool.false_eq_true, if_false]

/-- The worker is not excluded and has capacity. -/
def Dispatchable (excluded : List String) (capacities : Dict String ℤ) (worker : String) : Prop :=
  worker ∉ excluded ∧ ∀ capacity ∈ capacities.get? worker, 0 < capacity

instance (excluded : List String) (worker : String) :
    Decidable (Dispatchable excluded capacities worker) := inferInstanceAs (Decidable (_ ∧ _))

theorem foldl_queues : ∀ (decisions : List ScheduleDecision)
    (queues : Dict String (List ScheduleDecision)) (worker : String),
    ((decisions.foldl (fun queues decision =>
      queues.set decision.worker ((queues.get? decision.worker).getD [] ++ [decision]))
        queues).get? worker).getD [] =
      (queues.get? worker).getD [] ++ decisions.filter fun decision => decision.worker = worker
  | [], queues, worker => by simp
  | decision :: decisions, queues, worker => by
    rw [List.foldl_cons, foldl_queues decisions]
    by_cases h : decision.worker = worker
    · subst h
      simp [Dict.get?_set]
    · rw [Dict.get?_set_ne _ _ (Ne.symm h), List.filter_cons_of_neg (by simpa using h)]

/-- A worker's queue holds its ranked tasks, if it is not excluded. -/
theorem workerQueues_get (excluded : List String) (ranked : List ScheduleDecision)
    (worker : String) : ((workerQueues excluded ranked).get? worker).getD [] =
      ranked.filter fun decision => decision.worker = worker ∧ worker ∉ excluded := by
  unfold workerQueues
  rw [foldl_queues, Dict.get?_empty, Option.getD_none, List.nil_append, List.filter_filter]
  refine List.filter_congr fun decision _ => ?_
  by_cases h : decision.worker = worker
  · subst h
    simp
  · simp [h]

/-- **A batch with room is empty only if no ranked task's worker can be dispatched.** -/
theorem selectRankedBatch_ne_nil_iff {excluded : List String} {ranked : List ScheduleDecision}
    (hlimit : 1 ≤ limit) : selectRankedBatch capacities limit excluded ranked ≠ [] ↔
      ∃ decision ∈ ranked, Dispatchable excluded capacities decision.worker := by
  obtain ⟨fuel, hfuel⟩ : ∃ fuel, limit.toNat = fuel + 1 := ⟨limit.toNat - 1, by omega⟩
  have hspec := roundOf_spec capacities limit
    ((workerQueues excluded ranked).entries.map fun e => { worker := e.1, waiting := e.2 }) []
  have hgrows : (∃ queue ∈ (workerQueues excluded ranked).entries.map fun e =>
        ({ worker := e.1, waiting := e.2 } : WorkerQueue),
        queue.hasRoom capacities = true ∧ queue.waiting ≠ []) ↔
      ∃ decision ∈ ranked, Dispatchable excluded capacities decision.worker := by
    constructor
    · intro ⟨queue, hqueue, hroom, hwaiting⟩
      obtain ⟨⟨worker, waiting⟩, hentry, rfl⟩ := List.mem_map.mp hqueue
      have hget := workerQueues_get excluded ranked worker
      rw [Dict.mem_entries_iff.mp hentry, Option.getD_some] at hget
      obtain ⟨decision, hdecision⟩ := List.exists_mem_of_ne_nil _ hwaiting
      rw [hget] at hdecision
      obtain ⟨hranked, hof⟩ := List.mem_filter.mp hdecision
      obtain ⟨rfl, hexcluded⟩ := of_decide_eq_true hof
      refine ⟨decision, hranked, hexcluded, fun capacity hcapacity => ?_⟩
      simp only [WorkerQueue.hasRoom, Option.mem_def.mp hcapacity] at hroom
      exact of_decide_eq_true hroom
    · intro ⟨decision, hranked, hexcluded, hcapacity⟩
      have hget := workerQueues_get excluded ranked decision.worker
      have hmem : decision ∈ ranked.filter fun d =>
          d.worker = decision.worker ∧ decision.worker ∉ excluded :=
        List.mem_filter.mpr ⟨hranked, decide_eq_true ⟨rfl, hexcluded⟩⟩
      rw [← hget] at hmem
      cases hentry : (workerQueues excluded ranked).get? decision.worker with
      | none =>
        rw [hentry] at hmem
        cases hmem
      | some waiting =>
        rw [hentry] at hmem
        refine ⟨{ worker := decision.worker, waiting }, List.mem_map.mpr
          ⟨(decision.worker, waiting), Dict.mem_entries_iff.mpr hentry, rfl⟩, ?_,
          List.ne_nil_of_mem hmem⟩
        unfold WorkerQueue.hasRoom
        simp only
        split
        next => rfl
        next capacity hget => exact decide_eq_true (hcapacity capacity hget)
  rw [← hgrows, ← hspec.1.1]
  unfold selectRankedBatch
  rw [hfuel, rounds, if_neg (by simp; omega)]
  cases hp : (roundOf capacities limit ((workerQueues excluded ranked).entries.map fun e =>
      ({ worker := e.1, waiting := e.2 } : WorkerQueue)) []).2.2 with
  | true =>
    have hlonger := hspec.1.2 hp
    simp only [hp, if_true, iff_true]
    intro hnil
    have hle := length_le_rounds capacities limit fuel
      (roundOf capacities limit ((workerQueues excluded ranked).entries.map fun e =>
        { worker := e.1, waiting := e.2 }) []).1
      (roundOf capacities limit ((workerQueues excluded ranked).entries.map fun e =>
        { worker := e.1, waiting := e.2 }) []).2.1
    rw [hnil] at hle
    simp only [List.length_nil] at hle hlonger
    omega
  | false =>
    simp only [hp, Bool.false_eq_true, if_false, iff_false, not_not]
    exact hspec.2 hp

end Rounds

end NightScout
