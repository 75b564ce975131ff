import NightScout.Core.Task
import NightScout.Lib.Dict
import Mathlib.Algebra.Order.Ring.Rat

/-!
# Budgets: limits, demands and the manager

`recon/core/budgets.py`, without the stores. A `BudgetProfile` limits metrics in four scopes
(global, worker, branch, resource), softly and hard; `compileChecks` turns a task and its demand into
the checks a store has to make all at once; `BudgetManager.reserve` asks the store and reads its
answer. Amounts are exact rationals.

The store is a parameter (`BudgetStore`), because the repository has two of them. What a store has
to satisfy is not assumed here: each is modelled in a module of its own, and what is proved of the
manager over a store is proved over that store's code.
-/

namespace NightScout

/-! ## Metrics, classes, outcomes -/

inductive BudgetMetric where
  | tasks | cost | requests | candidates | runtimeSeconds | concurrentTasks
  deriving DecidableEq, Repr

namespace BudgetMetric

def value : BudgetMetric → String
  | tasks => "TASKS" | cost => "COST" | requests => "REQUESTS" | candidates => "CANDIDATES"
  | runtimeSeconds => "RUNTIME_SECONDS" | concurrentTasks => "CONCURRENT_TASKS"

/-- `is_capacity`: what is given back when the work ends. -/
def isCapacity (m : BudgetMetric) : Bool := m = concurrentTasks

end BudgetMetric

inductive BudgetClass where
  | soft | hard
  deriving DecidableEq, Repr

def BudgetClass.value : BudgetClass → String
  | soft => "SOFT" | hard => "HARD"

inductive BudgetOutcome where
  | allow | defer | deny
  deriving DecidableEq, Repr

inductive BudgetLane where
  | normal | exploration
  deriving DecidableEq, Repr

inductive ReservationState where
  | active | committed | released | expired
  deriving DecidableEq, Repr

/-- The identity of one counter: bucket, class and metric. -/
abbrev BudgetKey := String × BudgetClass × BudgetMetric

/-! ## Limits and demands -/

/-- Limits on some of the metrics. -/
structure BudgetCaps where
  tasks : Option ℚ := none
  cost : Option ℚ := none
  requests : Option ℚ := none
  candidates : Option ℚ := none
  runtimeSeconds : Option ℚ := none
  concurrentTasks : Option ℚ := none
  nonneg : ∀ limit ∈ [tasks, cost, requests, candidates, runtimeSeconds, concurrentTasks],
    ∀ value ∈ limit, 0 ≤ value := by decide +kernel

namespace BudgetCaps

/-- The configured limit of one metric. -/
def limit (caps : BudgetCaps) : BudgetMetric → Option ℚ
  | .tasks => caps.tasks | .cost => caps.cost | .requests => caps.requests
  | .candidates => caps.candidates | .runtimeSeconds => caps.runtimeSeconds
  | .concurrentTasks => caps.concurrentTasks

/-- `as_metric_limits`: the metrics that are limited, with their limits. -/
def asMetricLimits (caps : BudgetCaps) : List (BudgetMetric × ℚ) :=
  [(BudgetMetric.tasks, caps.tasks), (.cost, caps.cost), (.requests, caps.requests),
   (.candidates, caps.candidates), (.runtimeSeconds, caps.runtimeSeconds),
   (.concurrentTasks, caps.concurrentTasks)].filterMap fun e => e.2.map (e.1, ·)

theorem mem_asMetricLimits {caps : BudgetCaps} {m : BudgetMetric} {l : ℚ} :
    (m, l) ∈ caps.asMetricLimits ↔ caps.limit m = some l := by
  cases m <;> simp [asMetricLimits, limit, eq_comm]

theorem limit_nonneg {caps : BudgetCaps} {m : BudgetMetric} {l : ℚ} (h : caps.limit m = some l) : 0 ≤ l := by
  refine caps.nonneg (caps.limit m) ?_ l h
  cases m <;> simp [limit]

end BudgetCaps

/-- Limits by worker name. -/
abbrev WorkerLimits := Lib.Dict String BudgetCaps

structure BudgetProfile where
  softGlobalLimits : BudgetCaps := {}
  softBranchLimits : BudgetCaps := {}
  softResourceLimits : BudgetCaps := {}
  softWorkerLimits : WorkerLimits := .empty
  hardGlobalLimits : BudgetCaps := {}
  hardBranchLimits : BudgetCaps := {}
  hardResourceLimits : BudgetCaps := {}
  hardWorkerLimits : WorkerLimits := .empty
  softMaxBranchDepth : Option ℕ := none
  hardMaxBranchDepth : Option ℕ := none
  explorationReserveFraction : ℚ := 1 / 5
  fraction_nonneg : 0 ≤ explorationReserveFraction := by decide +kernel
  fraction_lt_one : explorationReserveFraction < 1 := by decide +kernel
  depths : ∀ soft ∈ softMaxBranchDepth, ∀ hard ∈ hardMaxBranchDepth, soft ≤ hard := by decide

/-- What one execution asks for. -/
structure BudgetDemand where
  tasks : ℚ := 1
  cost : ℚ := 0
  requests : ℚ := 0
  candidates : ℚ := 0
  runtimeSeconds : ℚ := 0
  concurrentTasks : ℚ := 1
  nonneg : ∀ amount ∈ [tasks, cost, requests, candidates, runtimeSeconds, concurrentTasks],
    0 ≤ amount := by decide +kernel

namespace BudgetDemand

/-- The demand on one metric; `as_metric_amounts` keeps the positive ones. -/
def amount (demand : BudgetDemand) : BudgetMetric → ℚ
  | .tasks => demand.tasks | .cost => demand.cost | .requests => demand.requests
  | .candidates => demand.candidates | .runtimeSeconds => demand.runtimeSeconds
  | .concurrentTasks => demand.concurrentTasks

end BudgetDemand

/-- Where the work happens. The resource keys are a set: each occurs once. -/
structure BudgetContext where
  branchDepth : ℕ := 0
  resourceKeys : List String := []
  lane : BudgetLane := .normal
  branchSoftMultiplier : ℚ := 1
  resourceKeys_nodup : resourceKeys.Nodup := by decide
  multiplier_ge_one : 1 ≤ branchSoftMultiplier := by decide +kernel

theorem no_keys : ([] : List String).Nodup := List.nodup_nil

theorem single_multiplier : (1 : ℚ) ≤ 1 := le_refl 1

/-- A lane, and the defaults. -/
def laneContext (lane : BudgetLane) : BudgetContext where
  lane
  resourceKeys_nodup := no_keys
  multiplier_ge_one := single_multiplier

/-! ## Checks, reservations, decisions -/

structure BudgetCheck where
  bucketKey : String
  metric : BudgetMetric
  budgetClass : BudgetClass
  requested : ℚ
  configuredLimit : ℚ
  effectiveLimit : ℚ
  requested_pos : 0 < requested

instance : DecidableEq BudgetCheck := fun a b =>
  decidable_of_iff (a.bucketKey = b.bucketKey ∧ a.metric = b.metric ∧ a.budgetClass = b.budgetClass ∧
    a.requested = b.requested ∧ a.configuredLimit = b.configuredLimit ∧
    a.effectiveLimit = b.effectiveLimit) (by cases a; cases b; simp)

/-- The counter a check reads. -/
def BudgetCheck.key (check : BudgetCheck) : BudgetKey :=
  (check.bucketKey, check.budgetClass, check.metric)

structure BudgetReservationItem where
  bucketKey : String
  metric : BudgetMetric
  budgetClass : BudgetClass
  amount : ℚ
  amount_pos : 0 < amount

instance : DecidableEq BudgetReservationItem := fun a b =>
  decidable_of_iff (a.bucketKey = b.bucketKey ∧ a.metric = b.metric ∧ a.budgetClass = b.budgetClass ∧
    a.amount = b.amount) (by cases a; cases b; simp)

/-- The counter an item is held in. -/
def BudgetReservationItem.key (item : BudgetReservationItem) : BudgetKey :=
  (item.bucketKey, item.budgetClass, item.metric)

structure BudgetReservation where
  reservationId : String
  taskId : String
  items : List BudgetReservationItem
  createdAt : Instant
  expiresAt : Instant
  state : ReservationState := .active
  deriving DecidableEq

structure BudgetViolation where
  bucketKey : String
  metric : BudgetMetric
  budgetClass : BudgetClass
  committed : ℚ
  reserved : ℚ
  requested : ℚ
  configuredLimit : ℚ
  effectiveLimit : ℚ
  deriving DecidableEq

structure BudgetUsage where
  committed : ℚ := 0
  reserved : ℚ := 0
  deriving DecidableEq

def BudgetUsage.total (usage : BudgetUsage) : ℚ := usage.committed + usage.reserved

structure BudgetDecision where
  outcome : BudgetOutcome
  taskId : String
  reservation : Option BudgetReservation := none
  violations : List BudgetViolation := []
  checkedLimits : List BudgetCheck := []
  reason : Option String := none
  retryAfterSeconds : Option ℚ := none
  deriving DecidableEq

/-- The absolute slack every limit comparison of this program allows. -/
def tolerance : ℚ := 1 / 1000000000

theorem tolerance_pos : 0 < tolerance := by decide +kernel

/-- The comparison both stores make of a check with the counter it reads. -/
def BudgetCheck.violated (check : BudgetCheck) (usage : BudgetUsage) : Prop :=
  check.effectiveLimit + tolerance < usage.committed + usage.reserved + check.requested

instance (check : BudgetCheck) (usage : BudgetUsage) : Decidable (check.violated usage) :=
  inferInstanceAs (Decidable (_ < _))

/-- The violation reported for a check the counter does not admit. -/
def BudgetCheck.violation (check : BudgetCheck) (usage : BudgetUsage) : BudgetViolation where
  bucketKey := check.bucketKey
  metric := check.metric
  budgetClass := check.budgetClass
  committed := usage.committed
  reserved := usage.reserved
  requested := check.requested
  configuredLimit := check.configuredLimit
  effectiveLimit := check.effectiveLimit

/-! ## Compiling the checks -/

def checksForCaps (bucketKey : String) (caps : BudgetCaps) (demand : BudgetDemand)
    (budgetClass : BudgetClass) (context : BudgetContext) (reserveFraction : ℚ)
    (multiplier : ℚ) : List BudgetCheck :=
  caps.asMetricLimits.filterMap fun (metric, configured) =>
    if h : 0 < demand.amount metric then
      let configuredLimit := configured * multiplier
      let effectiveLimit :=
        if budgetClass = .soft ∧ context.lane = .normal then
          configuredLimit * (1 - reserveFraction)
        else configuredLimit
      some { bucketKey, metric, budgetClass, requested := demand.amount metric,
             configuredLimit, effectiveLimit, requested_pos := h }
    else none

namespace BudgetProfile

def globalLimits (profile : BudgetProfile) : BudgetClass → BudgetCaps
  | .hard => profile.hardGlobalLimits | .soft => profile.softGlobalLimits

def branchLimits (profile : BudgetProfile) : BudgetClass → BudgetCaps
  | .hard => profile.hardBranchLimits | .soft => profile.softBranchLimits

def resourceLimits (profile : BudgetProfile) : BudgetClass → BudgetCaps
  | .hard => profile.hardResourceLimits | .soft => profile.softResourceLimits

def workerLimits (profile : BudgetProfile) : BudgetClass → WorkerLimits
  | .hard => profile.hardWorkerLimits | .soft => profile.softWorkerLimits

end BudgetProfile

/-- The buckets one class of limits puts a task in, in the order `_compile_checks` visits them, each
    with its caps and the multiplier of its limits. -/
def bucketsOfClass (profile : BudgetProfile) (task : Task) (context : BudgetContext)
    (budgetClass : BudgetClass) : List (String × BudgetCaps × ℚ) :=
  ("global", profile.globalLimits budgetClass, (1 : ℚ)) ::
  ((match (profile.workerLimits budgetClass).get? task.worker.text with
    | some caps => [("worker:" ++ task.worker.text, caps, (1 : ℚ))]
    | none => []) ++
  (match task.branchId with
    | some branch => [("branch:" ++ branch, profile.branchLimits budgetClass,
        if budgetClass = .soft then context.branchSoftMultiplier else 1)]
    | none => []) ++
  (context.resourceKeys.insertionSort (· ≤ ·)).map fun resource =>
    ("resource:" ++ resource, profile.resourceLimits budgetClass, 1))

/-- The checks of one class. -/
def checksOfClass (profile : BudgetProfile) (task : Task) (demand : BudgetDemand)
    (context : BudgetContext) (budgetClass : BudgetClass) : List BudgetCheck :=
  (bucketsOfClass profile task context budgetClass).flatMap fun (bucketKey, caps, multiplier) =>
    checksForCaps bucketKey caps demand budgetClass context profile.explorationReserveFraction
      multiplier

/-- Everything `_compile_checks` hands to `_merge_checks`. -/
def rawChecks (profile : BudgetProfile) (task : Task) (demand : BudgetDemand)
    (context : BudgetContext) : List BudgetCheck :=
  checksOfClass profile task demand context .hard ++
    checksOfClass profile task demand context .soft

/-- The dictionary `_merge_checks` builds. -/
def mergeInto (merged : Lib.Dict BudgetKey BudgetCheck) :
    List BudgetCheck → Except PyError (Lib.Dict BudgetKey BudgetCheck)
  | [] => .ok merged
  | check :: checks =>
    match merged.get? check.key with
    | none => mergeInto (merged.set check.key check) checks
    | some existing =>
      if existing.configuredLimit ≠ check.configuredLimit ∨
          existing.effectiveLimit ≠ check.effectiveLimit then
        .error (.valueError s!"conflicting budget limits for {check.bucketKey}")
      else
        mergeInto (merged.set check.key { check with
          requested := existing.requested + check.requested
          requested_pos := add_pos existing.requested_pos check.requested_pos }) checks

/-- The order of `_merge_checks`: bucket, then class, then metric, as texts. -/
def keyLe (a b : BudgetKey) : Prop :=
  a.1 < b.1 ∨ a.1 = b.1 ∧ (a.2.1.value < b.2.1.value ∨
    a.2.1.value = b.2.1.value ∧ a.2.2.value ≤ b.2.2.value)

instance : DecidableRel keyLe := fun _ _ => inferInstanceAs (Decidable (_ ∨ _))

/-- `_merge_checks`: one check a counter, in key order. -/
def mergeChecks (checks : List BudgetCheck) : Except PyError (List BudgetCheck) := do
  let merged ← mergeInto .empty checks
  return (merged.entries.insertionSort (fun a b => keyLe a.1 b.1)).map Prod.snd

def compileChecks (profile : BudgetProfile) (task : Task) (demand : BudgetDemand)
    (context : BudgetContext) : Except PyError (List BudgetCheck) :=
  mergeChecks (rawChecks profile task demand context)

/-! ## The store and the manager -/

/-- The `BudgetStore` protocol: each operation is one transaction on the state `σ`. -/
structure BudgetStore (σ : Type) where
  /-- `try_reserve(reservation=..., checks=...)`. The flag says whether the row the reservation's
      foreign key names is in `tasks` at that moment; only the SQLite store reads it. -/
  tryReserve : σ → BudgetReservation → List BudgetCheck → Bool →
    Except PyError (Bool × List BudgetViolation) × σ
  commit : σ → String → Except PyError BudgetReservation × σ
  release : σ → String → Except PyError BudgetReservation × σ
  /-- `renew(reservation_id, expires_at=...)`, with the clock value it compares against. -/
  renew : σ → String → Instant → Instant → Except PyError BudgetReservation × σ
  reapExpired : σ → Instant → Except PyError (List BudgetReservation) × σ
  usage : σ → BudgetKey → BudgetUsage
  getReservation : σ → String → Option BudgetReservation

/-- The reservation a list of checks asks for. -/
def reservationFor (reservationId : String) (task : Task) (checks : List BudgetCheck)
    (now expiresAt : Instant) : BudgetReservation where
  reservationId := reservationId
  taskId := task.taskId
  items := checks.map fun check =>
    { bucketKey := check.bucketKey, metric := check.metric, budgetClass := check.budgetClass
      amount := check.requested, amount_pos := check.requested_pos }
  createdAt := now
  expiresAt := expiresAt

/-- What `reserve` makes of a refusal: a violated cumulative limit is final, a violated capacity
    is not. -/
def refusal (capacityRetryAfter : Duration) (task : Task) (checks : List BudgetCheck)
    (violations : List BudgetViolation) : BudgetDecision :=
  let permanent := violations.filter fun violation => !violation.metric.isCapacity
  if permanent ≠ [] then
    { outcome := .deny, taskId := task.taskId, violations, checkedLimits := checks
      reason := some (if permanent.any fun violation => violation.budgetClass = .hard then
        "hard cumulative budget limit would be exceeded"
        else "soft exploration budget exhausted; close frontier task") }
  else
    { outcome := .defer, taskId := task.taskId, violations, checkedLimits := checks
      reason := some (if violations.any fun violation => violation.budgetClass = .hard then
        "hard execution capacity exhausted; preserve task in frontier"
        else "soft execution capacity exhausted; preserve task until capacity is released")
      retryAfterSeconds := some (totalSeconds capacityRetryAfter) }

namespace BudgetManager

variable {σ : Type}

/-- `BudgetManager.reserve`. `now` is the clock and `reservationId` the fresh identifier the
    reservation is built with. -/
def reserve (store : BudgetStore σ) (profile : BudgetProfile) (capacityRetryAfter : Duration)
    (s : σ) (task : Task) (demand : BudgetDemand) (context : BudgetContext) (leaseFor : Duration)
    (now : Instant) (reservationId : String) (taskRow : Bool) :
    Except PyError BudgetDecision × σ :=
  if leaseFor ≤ 0 then (.error (.valueError "lease_for must be positive"), s)
  else if profile.hardMaxBranchDepth.any (· < context.branchDepth) then
    (.ok { outcome := .deny, taskId := task.taskId
           reason := some "branch depth exceeds hard maximum" }, s)
  else if profile.softMaxBranchDepth.any (· < context.branchDepth) then
    (.ok { outcome := .deny, taskId := task.taskId
           reason := some "soft exploration depth exhausted; close frontier task" }, s)
  else
    match compileChecks profile task demand context with
    | .error e => (.error e, s)
    | .ok [] =>
      (.ok { outcome := .allow, taskId := task.taskId
             reason := some "no matching budget limits" }, s)
    | .ok (check :: checks) =>
      match addDelta now leaseFor with
      | .error e => (.error e, s)
      | .ok expiresAt =>
        let reservation := reservationFor reservationId task (check :: checks) now expiresAt
        match store.tryReserve s reservation (check :: checks) taskRow with
        | (.error e, s') => (.error e, s')
        | (.ok (true, _), s') =>
          (.ok { outcome := .allow, taskId := task.taskId, reservation := some reservation
                 checkedLimits := check :: checks }, s')
        | (.ok (false, violations), s') =>
          (.ok (refusal capacityRetryAfter task (check :: checks) violations), s')

/-- `BudgetManager.renew`. The manager and the store each read the clock. -/
def renew (store : BudgetStore σ) (s : σ) (reservationId : String) (leaseFor : Duration)
    (now now' : Instant) : Except PyError BudgetReservation × σ :=
  if leaseFor ≤ 0 then (.error (.valueError "lease_for must be positive"), s)
  else
    match addDelta now leaseFor with
    | .error e => (.error e, s)
    | .ok expiresAt => store.renew s reservationId expiresAt now'

end BudgetManager

/-! ## Runs -/

/-- One call of the manager, with the clock values and the identifier it draws. -/
inductive BudgetCmd where
  | reserve (profile : BudgetProfile) (task : Task) (demand : BudgetDemand)
      (context : BudgetContext) (leaseFor : Duration) (now : Instant) (reservationId : String)
      (taskRow : Bool)
  | commit (reservationId : String)
  | release (reservationId : String)
  | renew (reservationId : String) (leaseFor : Duration) (now now' : Instant)
  | reapExpired (now : Instant)

inductive BudgetReply where
  | decision (result : Except PyError BudgetDecision)
  | reservation (result : Except PyError BudgetReservation)
  | reaped (result : Except PyError (List BudgetReservation))

namespace BudgetReply

/-- The exception the call raised. -/
def raised? : BudgetReply → Option PyError
  | decision (.error e) | reservation (.error e) | reaped (.error e) => some e
  | _ => none

/-- The call was a reservation, and it was allowed. -/
def allowed : BudgetReply → Bool
  | decision (.ok d) => d.outcome = .allow
  | _ => false

end BudgetReply

/-- A call of the manager over a store. -/
def BudgetCmd.run {σ : Type} (store : BudgetStore σ) (capacityRetryAfter : Duration) (s : σ) :
    BudgetCmd → BudgetReply × σ
  | .reserve profile task demand context leaseFor now reservationId taskRow =>
    let (result, s') := BudgetManager.reserve store profile capacityRetryAfter s task demand
      context leaseFor now reservationId taskRow
    (.decision result, s')
  | .commit reservationId => let (result, s') := store.commit s reservationId
    (.reservation result, s')
  | .release reservationId => let (result, s') := store.release s reservationId
    (.reservation result, s')
  | .renew reservationId leaseFor now now' =>
    let (result, s') := BudgetManager.renew store s reservationId leaseFor now now'
    (.reservation result, s')
  | .reapExpired now => let (result, s') := store.reapExpired s now
    (.reaped result, s')

end NightScout
