import NightScout.Core.InMemoryTaskStore
import NightScout.Storage.SQLiteTaskStore
import NightScout.Lib.Lanes
import Mathlib.Algebra.Order.Ring.Rat
import Mathlib.Algebra.Order.Ring.Int
import Mathlib.Data.Prod.Lex

/-!
# Ready tasks

`ready` and `next_ready_at` of the two task stores. Both sort the tasks that can be claimed by
priority and cut the list off, or, if asked to be fair, fill it from five lanes: the best, the oldest,
the exploration tasks, the tail, and the best again.

The lanes are the same but for the third: the in-memory store takes exploration tasks by priority, the
SQLite store by age. `str.lower` is a parameter, since the in-memory store lowers the text it looks for
`exploration` in.
-/

namespace NightScout

open Lib

namespace Task

def priorityKey (t : Task) : ℚ ×ₗ Instant ×ₗ Instant ×ₗ String :=
  toLex (-t.priority, toLex (t.availableAt, toLex (t.createdAt, t.taskId)))

/-- The order of the second lane. -/
def ageKey (t : Task) : Instant ×ₗ String := toLex (t.createdAt, t.taskId)

/-- The order of the fourth lane. -/
def tailKey (t : Task) : ℚ ×ₗ Instant ×ₗ String :=
  toLex (t.priority, toLex (t.createdAt, t.taskId))

end Task

/-- `sorted(tasks, key=key)`. -/
def sortedBy {κ : Type} [LinearOrder κ] (key : Task → κ) (tasks : List Task) : List Task :=
  tasks.insertionSort fun a b => key a ≤ key b

/-- `tasks[:stop]`. -/
def takeStop (tasks : List Task) (stop : ℤ) : List Task :=
  if 0 ≤ stop then tasks.take stop.toNat else tasks.take (tasks.length - stop.natAbs)

/-- `LIMIT`. -/
def sqlLimit (tasks : List Task) (limit : ℤ) : List Task :=
  if 0 ≤ limit then tasks.take limit.toNat else tasks

/-- How many tasks each lane gives. -/
structure LaneLimits where
  top : ℕ
  oldest : ℕ
  exploration : ℕ
  tail : ℕ
  deriving DecidableEq, Repr

def fairLaneLimits (limit : ℤ) : LaneLimits :=
  if limit ≤ 0 then ⟨0, 0, 0, 0⟩
  else
    let n := limit.toNat
    let top := max 1 (n / 2)
    let oldest := (n - top) / 2
    let exploration := (n - top - oldest) / 2
    ⟨top, oldest, exploration, n - top - oldest - exploration⟩

/-- `"exploration"`. -/
def explorationWord : List Char := "exploration".toList

/-- The texts of a task that are looked at: action, route rule and reason. -/
def explorationTexts (t : Task) : List String :=
  (t.action.text :: (t.routeRuleId.map Stripped.text).toList) ++
    (t.routingReason.map Stripped.text).toList

/-- Whether the in-memory store takes the task for exploration. -/
def memoryExploration (lower : String → String) (t : Task) : Bool :=
  decide (explorationWord <:+: (lower (" ".intercalate (explorationTexts t))).toList)

/-- `LIKE '%exploration%'`, which ignores the case of ASCII letters. -/
def likeExploration (s : String) : Bool :=
  decide (explorationWord <:+: s.toList.map fun c => if c.toNat < 128 then c.toLower else c)

/-- Whether the SQLite store takes the task for exploration. -/
def sqliteExploration (t : Task) : Bool := (explorationTexts t).any likeExploration

/-- The lanes of the in-memory store. -/
def memoryLanes (lower : String → String) (limit : ℤ) (candidates : List Task) : List (List Task) :=
  [candidates.take (fairLaneLimits limit).top,
    (sortedBy Task.ageKey candidates).take (fairLaneLimits limit).oldest,
    (candidates.filter (memoryExploration lower)).take (fairLaneLimits limit).exploration,
    (sortedBy Task.tailKey candidates).take (fairLaneLimits limit).tail,
    candidates]

/-- The lanes of the SQLite store. -/
def sqliteLanes (limit : ℤ) (candidates : List Task) : List (List Task) :=
  [candidates.take (fairLaneLimits limit).top,
    (sortedBy Task.ageKey candidates).take (fairLaneLimits limit).oldest,
    (sortedBy Task.ageKey (candidates.filter sqliteExploration)).take
      (fairLaneLimits limit).exploration,
    (sortedBy Task.tailKey candidates).take (fairLaneLimits limit).tail,
    sqlLimit candidates limit]

/-- The tasks that can be claimed, best first. -/
def readyCandidates (tasks : List Task) (now : Instant) : List Task :=
  sortedBy Task.priorityKey (tasks.filter fun t => t.Claimable now)

def InMemoryTaskStore.ready (lower : String → String) (s : InMemoryTaskStore) (now : Instant)
    (limit : Option ℤ) (fair : Bool) : List Task :=
  let candidates := readyCandidates s.tasks.values now
  match limit with
  | none => candidates
  | some limit =>
    if fair then
      fillLanes (fun t : Task => t.taskId) limit [] (memoryLanes lower limit candidates)
    else takeStop candidates limit

def InMemoryTaskStore.nextReadyAt (s : InMemoryTaskStore) : Option Instant :=
  ((s.tasks.values.filter fun t => t.status.isRunnable && t.attempts < t.maxAttempts).map
    fun t : Task => t.availableAt).min?

namespace TaskDb

/-- The rows a handle sees: those of its run, or all of them if it resumes the frontier. -/
def visible (db : TaskDb) (runId : Option String) (resumeFrontier : Bool) : List Task :=
  (db.rows.values.filter fun row => resumeFrontier || runId.isNone || row.runId = runId).map
    TaskRow.task

def ready (db : TaskDb) (runId : Option String) (resumeFrontier : Bool) (now : Instant)
    (limit : Option ℤ) (fair : Bool) : List Task :=
  let candidates := readyCandidates (db.visible runId resumeFrontier) now
  match limit with
  | none => candidates
  | some limit =>
    if fair then fillLanes (fun t : Task => t.taskId) limit [] (sqliteLanes limit candidates)
    else sqlLimit candidates limit

def nextReadyAt (db : TaskDb) (runId : Option String) (resumeFrontier : Bool) : Option Instant :=
  ((sortedBy (fun t => toLex (t.availableAt, t.taskId))
    ((db.visible runId resumeFrontier).filter fun t =>
      t.status.isRunnable && t.attempts < t.maxAttempts)).map fun t : Task => t.availableAt).head?

end TaskDb

/-! ## What is ready -/

section Ready

variable {κ : Type} [LinearOrder κ] {key : Task → κ} {tasks : List Task} {t : Task} {now : Instant}
  {limit : ℤ}

theorem sortedBy_perm (key : Task → κ) (tasks : List Task) : (sortedBy key tasks).Perm tasks :=
  List.perm_insertionSort _ tasks

@[simp] theorem mem_sortedBy : t ∈ sortedBy key tasks ↔ t ∈ tasks := (sortedBy_perm key tasks).mem_iff

theorem sortedBy_sorted (key : Task → κ) (tasks : List Task) :
    (sortedBy key tasks).Pairwise fun a b => key a ≤ key b := by
  have : Std.Total fun a b : Task => key a ≤ key b := ⟨fun a b => le_total (key a) (key b)⟩
  have : IsTrans Task fun a b => key a ≤ key b := ⟨fun a b c hab hbc => le_trans hab hbc⟩
  exact List.pairwise_insertionSort _ tasks

/-- Sorting by a key that tells the tasks apart does not depend on their order. -/
theorem sortedBy_eq_of_perm {tasks' : List Task} (hinj : ∀ a b, key a = key b → a.taskId = b.taskId)
    (hnd : (tasks.map fun t => t.taskId).Nodup) (h : tasks.Perm tasks') :
    sortedBy key tasks = sortedBy key tasks' := by
  have hperm := (sortedBy_perm key tasks).trans (h.trans (sortedBy_perm key tasks').symm)
  refine hperm.eq_of_pairwise ?_ (sortedBy_sorted key tasks) (sortedBy_sorted key tasks')
  intro a b ha hb hab hba
  have hmem := mem_sortedBy.mp ha
  have hmem' := h.mem_iff.mpr (mem_sortedBy.mp hb)
  exact List.inj_on_of_nodup_map hnd hmem hmem' (hinj a b (le_antisymm hab hba))

theorem readyCandidates_nodup (h : (tasks.map fun t => t.taskId).Nodup) :
    ((readyCandidates tasks now).map fun t => t.taskId).Nodup := by
  have hfilter : ((tasks.filter fun t => t.Claimable now).map fun t => t.taskId).Nodup :=
    h.sublist (List.filter_sublist.map _)
  exact (((sortedBy_perm Task.priorityKey _).map _).nodup_iff).mpr hfilter

end Ready

end NightScout
