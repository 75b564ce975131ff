import NightScout.Core.Scheduler

/-!
# Work conservation

When `select_batch` returns a task although one could run. The scheduler looks at the fair shortlist of
`candidate_limit` tasks only. If the shortlist has a task whose worker can be dispatched the batch is not
empty; if it has none, the batch is empty, whatever else is ready. With no more ready tasks than the
limit everything is on the shortlist.
-/

namespace NightScout

open Lib

/-- The store under the queue, and what the handle sees of it. -/
inductive Frontier where
  | memory (store : InMemoryTaskStore)
  | sqlite (db : TaskDb) (runId : Option String) (resumeFrontier : Bool)

namespace Frontier

def tasks : Frontier → List Task
  | memory store => store.tasks.values
  | sqlite db runId resumeFrontier => db.visible runId resumeFrontier

def ready (lower : String → String) (now : Instant) (limit : Option ℤ) (fair : Bool) :
    Frontier → List Task
  | memory store => store.ready lower now limit fair
  | sqlite db runId resumeFrontier => db.ready runId resumeFrontier now limit fair

end Frontier

section Selection

variable (lower : String → String) (log1p : ℚ → ℚ) (config : SchedulerConfig)
  (signals : Task → SchedulingSignals) (frontier : Frontier) (now evaluatedAt : Instant)

/-- The tasks `rank_ready` scores. -/
def shortlist : List Task := frontier.ready lower now (some config.candidateLimit) true

def selectBatch (limit : ℤ) (excluded : List String) (capacities : Dict String ℤ) :
    List ScheduleDecision :=
  if limit < 1 then []
  else
    selectRankedBatch capacities limit excluded
      (rankReady log1p config signals evaluatedAt (shortlist lower config frontier now))

/-- A task is ready, and its worker is not excluded and has capacity. -/
def CanDispatch (excluded : List String) (capacities : Dict String ℤ) : Prop :=
  ∃ task ∈ frontier.tasks, task.Claimable now ∧ Dispatchable excluded capacities task.worker.text

/-- If a task can be dispatched, the batch is not empty. -/
def WorkConserving (limit : ℤ) (excluded : List String) (capacities : Dict String ℤ) : Prop :=
  1 ≤ limit → CanDispatch frontier now excluded capacities →
    selectBatch lower log1p config signals frontier now evaluatedAt limit excluded capacities ≠ []

end Selection

section Conservation

variable {lower : String → String} {log1p : ℚ → ℚ} {config : SchedulerConfig}
  {signals : Task → SchedulingSignals} {frontier : Frontier} {now evaluatedAt : Instant}

/-- Every task of the shortlist is ranked, and nothing else. -/
theorem exists_rankReady (tasks : List Task) (P : String → Prop) :
    (∃ decision ∈ rankReady log1p config signals evaluatedAt tasks, P decision.worker) ↔
      ∃ task ∈ tasks, P task.worker.text := by
  unfold rankReady
  constructor
  · intro ⟨decision, hdecision, hp⟩
    obtain ⟨scored, hscored, rfl⟩ := List.mem_map.mp hdecision
    rw [(List.perm_insertionSort _ _).mem_iff] at hscored
    obtain ⟨task, htask, rfl⟩ := List.mem_map.mp hscored
    exact ⟨task, htask, hp⟩
  · intro ⟨task, htask, hp⟩
    refine ⟨buildDecision log1p config task (signals task) evaluatedAt, ?_, hp⟩
    refine List.mem_map.mpr ⟨(task, _), ?_, rfl⟩
    rw [(List.perm_insertionSort _ _).mem_iff]
    exact List.mem_map.mpr ⟨task, htask, rfl⟩

end Conservation

/-- **`select_batch` is work conserving exactly if a task that can be dispatched is on the shortlist
    whenever one is ready.** For either store, any population, exclusions and capacities. -/
theorem select_batch_conserves_iff (lower : String → String) (log1p : ℚ → ℚ)
    (config : SchedulerConfig) (signals : Task → SchedulingSignals) (frontier : Frontier)
    (now evaluatedAt : Instant) (limit : ℤ) (excluded : List String) (capacities : Dict String ℤ) :
    WorkConserving lower log1p config signals frontier now evaluatedAt limit excluded capacities ↔
      (1 ≤ limit → CanDispatch frontier now excluded capacities → ∃ task ∈ shortlist lower config frontier now,
          Dispatchable excluded capacities task.worker.text) := by
  unfold WorkConserving
  refine forall_congr' fun hlimit => forall_congr' fun _ => ?_
  unfold selectBatch
  rw [if_neg (not_lt.mpr hlimit), selectRankedBatch_ne_nil_iff hlimit]
  exact exists_rankReady _ (Dispatchable excluded capacities)

/-! ## A task that is not looked at -/

/-- A scan with a high priority. -/
def scanTask : Task where
  taskId := "tsk_scan"
  worker := ⟨"nuclei", by decide, by decide⟩
  action := ⟨"scan", by decide, by decide⟩
  inputEventId := ⟨"evt_scan", by decide, by decide⟩
  priority := 5
  createdAt := 0
  updatedAt := 0
  availableAt := 0
  lifecycle := by decide

/-- A lookup with a low one. -/
def lookupTask : Task where
  taskId := "tsk_lookup"
  worker := ⟨"dnsx", by decide, by decide⟩
  action := ⟨"lookup", by decide, by decide⟩
  inputEventId := ⟨"evt_lookup", by decide, by decide⟩
  priority := 1
  createdAt := 1
  updatedAt := 1
  availableAt := 1
  lifecycle := by decide

def twoTasks : Frontier := .memory (((InMemoryTaskStore.empty.put scanTask).2.put lookupTask).2)

/-- A shortlist of one. -/
def shortConfig : SchedulerConfig := { candidateLimit := 1 }

/-- The scanner is saturated and the resolver free, but the one task looked at is the scan. -/
theorem saturated_worker_starves :
    ¬ WorkConserving id (fun cost => cost) shortConfig (fun _ => {}) twoTasks 1 1 1 ["nuclei"]
      .empty := by
  intro h
  have hcan : CanDispatch twoTasks 1 ["nuclei"] .empty := by
    refine ⟨lookupTask, ?_, by decide, by decide⟩
    decide +kernel
  exact h (by decide) hcan (by decide +kernel)

end NightScout
