import NightScout.Core.Gates
import NightScout.Core.Queue
import NightScout.Intelligence.Convergence
import NightScout.Workers.PermutationBudget
import NightScout.Workers.VHostExecution

/-!
# The lifecycle of a task

`Lifecycle.admit` and `Lifecycle.execute_claimed` of `recon/core/lifecycle.py`, as programs over the trace of
their calls. Every collaborator (queue, gates, planner, budgets, review coordinator, observer) answers a call as
it likes, by the calls before it, or raises; so whatever others do to the queue and to the budgets in between is
one of the answers. What `_supervise_execution` comes to is an answer too: `SupervisedEnd`.
-/

namespace NightScout

open Lib

inductive LifecycleOutcome where
  | idle | deferred | blocked | review | succeeded | retry | failed | stale
  deriving DecidableEq, Repr

structure LifecycleResult where
  outcome : LifecycleOutcome
  taskId : String
  worker : String
  action : String
  reason : Option String
  scheduleScore : ℚ
  reservationId : Option String := none
  queueStatus : Option TaskStatus := none
  claimed : Bool := false
  executionAttempt : Option ℕ := none
  backpressure : Bool := false
  claimed_of_attempt : executionAttempt ≠ none → claimed = true := by simp
  deferred_of_backpressure : backpressure = true → outcome = .deferred := by simp

/-- A claimed task; `require_claim` is the field `running`, and the token comes with it. -/
structure DispatchTicket where
  task : Task
  schedule : ScheduleDecision
  reservationId : Option String
  attemptId : Option String
  running : task.status = .running

namespace DispatchTicket

variable (ticket : DispatchTicket)

/-- `_claim_token`. -/
def token : Stripped :=
  ticket.task.claimToken.get (Option.isSome_iff_ne_none.mpr (ticket.task.lifecycle.running_token ticket.running))

end DispatchTicket

/-! ## Calls and answers -/

inductive LifecycleCall where
  | get (taskId : String)
  | evaluate (gate : String)
  | approvedFor (gate reason : String)
  | openCase (gate reason : String)
  | plan
  | reserve (plan : BudgetPlan)
  | release (reservationId : String)
  | commit (reservationId : String)
  | claim (taskId : String)
  | queue (op : QueueOp)
  | start
  | finish (attemptId : String) (result : LifecycleResult)

/-- What a call returns. -/
abbrev LifecycleCall.Reply : LifecycleCall → Type
  | get _ => Option Task
  | evaluate _ => GateDecision
  | approvedFor .. => Bool
  | openCase .. => String
  | plan => BudgetPlan
  | reserve _ => BudgetDecision
  | claim _ | queue _ => Task
  | start => Option String
  | release _ | commit _ | finish .. => Unit

structure LifecycleAct where
  call : LifecycleCall
  reply : Except PyError call.Reply

abbrev LifecycleTrace := List LifecycleAct

inductive SupervisedEnd where
  | returned (execution : WorkerExecutionResult)
  /-- `LeaseHeartbeatError`. -/
  | heartbeatLost (message : String)
  /-- `CancelledError`, of the lifecycle itself or of the executor only. -/
  | cancelled (externally : Bool)
  /-- Any other exception, as `{type(exc).__name__}: {exc}`. -/
  | raised (description : String)

structure LifecycleServices where
  /-- The class names of the gates. -/
  gates : List String
  gates_ne : gates ≠ []
  reviewed : Bool
  observed : Bool
  answer : LifecycleTrace → (call : LifecycleCall) → Except PyError call.Reply
  supervise : SupervisedEnd
  /-- `str(exc)`. -/
  text : PyError → String

abbrev LifecycleProg (α : Type) := Prog LifecycleTrace PyError α

/-- What `except (KeyError, ValueError)` leaves of an answer. -/
def caught {α : Type} : Except PyError α → Except PyError (Except PyError α)
  | .ok a => .ok (.ok a)
  | .error e => if e.isKeyOrValue then .ok (.error e) else .error e

/-- `try: p / except (KeyError, ValueError)`. -/
def trying {α : Type} (p : LifecycleProg α) : LifecycleProg (Except PyError α) :=
  .act fun t => (caught (p.exec t).1, (p.exec t).2)

variable (c : LifecycleServices)

def ask (call : LifecycleCall) : LifecycleProg call.Reply :=
  .act fun t => (c.answer t call, t ++ [⟨call, c.answer t call⟩])

/-- The attempt observer is told the result. -/
def complete (attemptId : Option String) (result : LifecycleResult) : LifecycleProg LifecycleResult :=
  match attemptId with
  | none => pure result
  | some id => do
    ask c (.finish id result)
    return result

/-! ## Admission -/

section Admission

def startAttempt : LifecycleProg (Option String) :=
  if c.observed then ask c .start else pure none

variable (task : Task) (schedule : ScheduleDecision)

/-- A result of the task, with the status the queue left it in. -/
def resultOf (outcome : LifecycleOutcome) (reason : Option String) (queueStatus : Option TaskStatus) :
    LifecycleResult where
  outcome
  taskId := task.taskId
  worker := task.worker.text
  action := task.action.text
  reason
  scheduleScore := schedule.score
  queueStatus

/-- The reason with its case, unless it names it. -/
def reviewReason (reason : String) : Option String → String
  | none => reason
  | some caseId => if containsText ("case=" ++ caseId) reason then reason else reason ++ "; case=" ++ caseId

/-- The case of a REVIEW decision; `none` if the coordinator has its approval. -/
def reviewCase (gate reason : String) (decision : GateDecision) : LifecycleProg (Option (Option String)) :=
  match decision.reviewCaseId with
  | some caseId => pure (some (some caseId))
  | none =>
    if c.reviewed then do
      if ← ask c (.approvedFor gate reason) then return none
      else
        let caseId ← ask c (.openCase gate reason)
        return some (some caseId)
    else pure (some none)

def applyGates : List String → LifecycleProg (Option LifecycleResult)
  | [] => pure none
  | gate :: gates => do
    let decision ← ask c (.evaluate gate)
    match decision.outcome with
    | .allow => applyGates gates
    | .defer =>
      let delay ← .answer (timedeltaSeconds (decision.retryAfterSeconds.getD 0))
      let deferred ← ask c (.queue (.defer task.taskId delay
        (some (reasonOr decision.reason "execution gate deferred task"))))
      return some (resultOf task schedule .deferred decision.reason (some deferred.status))
    | .review =>
      let reason := reasonOr decision.reason "manual review required"
      match ← reviewCase c gate reason decision with
      | none => applyGates gates
      | some caseId =>
        let review ← ask c (.queue (.sendToReview task.taskId (reviewReason reason caseId)))
        return some (resultOf task schedule .review (some (reviewReason reason caseId)) (some review.status))
    | .block =>
      let blocked ← ask c (.queue (.block task.taskId (reasonOr decision.reason "execution gate blocked task")))
      return some (resultOf task schedule .blocked decision.reason (some blocked.status))

def releaseReservation : Option String → LifecycleProg Unit
  | some id => ask c (.release id)
  | none => pure ()

/-- The claim, and the ticket; the reservation of a task that others have taken is released. -/
def claimTask (reservationId : Option String) : LifecycleProg (DispatchTicket ⊕ LifecycleResult) := do
  let attemptId ← startAttempt c
  match ← trying (ask c (.claim task.taskId)) with
  | .error e =>
    releaseReservation c reservationId
    let current ← ask c (.get task.taskId)
    let result ← complete c attemptId (resultOf task schedule .stale
      (some ("task could not be claimed: " ++ c.text e)) (current.map fun t => t.status))
    return .inr result
  | .ok running =>
    if h : running.status = .running then
      return .inl { task := running, schedule, reservationId, attemptId, running := h }
    else .answer (.error (.valueError "dispatch ticket requires a claimed RUNNING task"))

/-- What follows the gates: the plan, the reservation and the claim. -/
def fundTask : LifecycleProg (DispatchTicket ⊕ LifecycleResult) := do
  let plan ← ask c .plan
  let budget ← ask c (.reserve plan)
  match budget.outcome with
  | .allow => claimTask c task schedule (budget.reservation.map fun r => r.reservationId)
  | .defer =>
    let delay ← .answer (timedeltaSeconds (budget.retryAfterSeconds.getD 0))
    let deferred ← ask c (.queue (.defer task.taskId delay (some (reasonOr budget.reason "budget deferred"))))
    return .inr { resultOf task schedule .deferred budget.reason (some deferred.status) with
      backpressure := true
      deferred_of_backpressure := fun _ => rfl }
  | .deny =>
    let attemptId ← startAttempt c
    let blocked ← ask c (.queue (.block task.taskId (reasonOr budget.reason "hard budget denied execution")))
    let result ← complete c attemptId (resultOf task schedule .blocked budget.reason (some blocked.status))
    return .inr result

/-- `admit`. -/
def admitTask : LifecycleProg (DispatchTicket ⊕ LifecycleResult) := do
  match ← ask c (.get schedule.taskId) with
  | none =>
    return .inr { outcome := .stale, taskId := schedule.taskId, worker := schedule.worker, action := schedule.action,
                  reason := some "scheduled task no longer exists", scheduleScore := schedule.score }
  | some task =>
    if task.status.isRunnable = false then
      return .inr (resultOf task schedule .stale
        (some ("scheduled task is no longer runnable: " ++ task.status.value)) (some task.status))
    else
      match ← applyGates c task schedule c.gates with
      | some stopped =>
        let attemptId ← startAttempt c
        let result ← complete c attemptId stopped
        return .inr result
      | none => fundTask c task schedule

end Admission

/-! ## Execution -/

section Execution

variable (ticket : DispatchTicket)

/-- `complete` of `execute_claimed`. -/
def completeClaimed (result : LifecycleResult) : LifecycleProg LifecycleResult :=
  complete c ticket.attemptId
    { result with
      claimed := true, executionAttempt := some ticket.task.attempts, claimed_of_attempt := fun _ => rfl }

def ticketResult (outcome : LifecycleOutcome) (reason : Option String) (queueStatus : Option TaskStatus) :
    LifecycleResult :=
  { resultOf ticket.task ticket.schedule outcome reason queueStatus with reservationId := ticket.reservationId }

/-- `_stale_completion_result`, and its completion. -/
def completeStale (e : PyError) : LifecycleProg LifecycleResult := do
  let current ← ask c (.get ticket.task.taskId)
  completeClaimed c ticket (ticketResult ticket .stale
    (some ("stale execution could not finalize task: " ++ c.text e)) (current.map fun t => t.status))

/-- The reservation is committed. -/
def commitReservation : LifecycleProg Unit :=
  match ticket.reservationId with
  | some id => ask c (.commit id)
  | none => pure ()

/-- The same with its exceptions suppressed. -/
def commitQuietly : LifecycleProg Unit :=
  (commitReservation c ticket).catching fun e => if e.isException then pure () else .answer (.error e)

/-- RETRY if the queue deferred the task. -/
def retryOrFailed (task : Task) : LifecycleOutcome := if task.status = .deferred then .retry else .failed

def failOp (error : String) (retryDelay : Option Duration) : QueueOp :=
  .fail ticket.task.taskId ticket.token.text error retryDelay

/-- The queue call that ends the claim, and the result it gives. -/
def finalize (op : QueueOp) (report : Task → LifecycleResult) : LifecycleProg LifecycleResult := do
  match ← trying (ask c (.queue op)) with
  | .error e => completeStale c ticket e
  | .ok task => completeClaimed c ticket (report task)

/-- The report of a failed attempt. -/
def failReport (outcome : Task → LifecycleOutcome) (task : Task) : LifecycleResult :=
  ticketResult ticket (outcome task) task.lastError (some task.status)

/-- The branch of `CancelledError`; its `try` holds the completion too. -/
def executionCancelled (externally : Bool) : LifecycleProg LifecycleResult := do
  commitQuietly c ticket
  let outcome ← trying do
    let cancelled ← ask c (.queue (failOp ticket
      (if externally then "execution cancelled by operator" else "worker execution cancelled unexpectedly") (some 0)))
    completeClaimed c ticket (failReport ticket retryOrFailed cancelled)
  match outcome with
  | .error e => if externally then .answer (.error e) else completeStale c ticket e
  | .ok result => if externally then .answer (.error .cancelledError) else pure result

def executeClaimed : LifecycleProg LifecycleResult :=
  match c.supervise with
  | .cancelled externally => executionCancelled c ticket externally
  | .heartbeatLost message => do
    commitQuietly c ticket
    finalize c ticket (failOp ticket ("lease heartbeat failed: " ++ message) (some 0)) (failReport ticket retryOrFailed)
  | .raised description => do
    commitReservation c ticket
    finalize c ticket (failOp ticket ("executor exception: " ++ description) none) (failReport ticket fun _ => .failed)
  | .returned execution => do
    commitReservation c ticket
    match execution.outcome with
    | .succeeded =>
      finalize c ticket (.succeed ticket.task.taskId ticket.token.text) fun task =>
        ticketResult ticket .succeeded none (some task.status)
    | .retry =>
      let delay ← .answer (timedeltaSeconds (execution.retryAfterSeconds.getD 0))
      finalize c ticket (failOp ticket (reasonOr execution.error "worker requested retry") (some delay))
        (failReport ticket retryOrFailed)
    | .failed =>
      finalize c ticket (failOp ticket (reasonOr execution.error "worker failed") none)
        (failReport ticket fun _ => .failed)

end Execution

end NightScout
