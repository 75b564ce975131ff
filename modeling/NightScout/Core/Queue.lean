import NightScout.Core.TaskStore

/-!
# The task queue

`TaskQueue` of `recon/core/queue.py`. Apart from `enqueue` and `claim`, which are one store
operation, every operation of the queue is a *read-modify-write*: it reads the task, computes what
should become of it, and saves that with a compare-and-swap on the status and token it read. The
instance's transition lock is held in between, but another instance over the same store does not
know that lock, so the read and the save are two steps here.

Up to the save an operation is a function from the store and a clock value to a `SaveRequest`
(`QueueOp.prepare`). `QueueWorld` is any number of queue instances over one store, each between its
operations or holding a request; `QueueCmd.step` is one step of one of them. The history it keeps
is for the statements about runs and is read by no operation.
-/

namespace NightScout

/-! ## The operations -/

namespace TaskQueue

variable {σ : Type} (store : TaskStore σ) (s : σ)

def require (taskId : String) : Except PyError Task :=
  match store.get s taskId with
  | some task => .ok task
  | none => .error (.keyError s!"unknown task_id: {taskId}")

def requireRunning (taskId : String) : Except PyError Task := do
  let task ← require store s taskId
  if task.status ≠ .running then throw (.valueError s!"task {taskId} is not RUNNING")
  return task

def requireClaimToken (task : Task) (claimToken : String) : Except PyError Unit :=
  if strip claimToken = "" ∨ task.claimToken.map Stripped.text ≠ some (strip claimToken) then
    .error (.valueError s!"task {task.taskId} claim token is stale")
  else .ok ()

def enqueue (task : Task) (now : Instant) (runId : Option String) (foreignKeys : Bool) :
    Except PyError Bool × σ :=
  if !task.status.isRunnable then
    (.error (.valueError "newly enqueued tasks must be PENDING or DEFERRED"), s)
  else
    store.put s ⟨{ task.toTaskFields with updatedAt := now }, { task.lifecycle with }⟩ runId
      foreignKeys

def claim (taskId : String) (leaseFor : Duration) (now : Instant) (token : Stripped)
    (runId : Option String) : Except PyError Task × σ :=
  if leaseFor ≤ 0 then (.error (.valueError "lease_for must be positive"), s)
  else
    match addDelta now leaseFor with
    | .error e => (.error e, s)
    | .ok leaseExpiresAt => store.claim s taskId now leaseExpiresAt token runId

/-- `heartbeat`, up to the save. -/
def heartbeat (taskId claimToken : String) (leaseFor : Duration) (now : Instant) :
    Except PyError SaveRequest := do
  if leaseFor ≤ 0 then throw (.valueError "lease_for must be positive")
  let task ← require store s taskId
  if task.status ≠ .running then throw (.valueError "only RUNNING tasks can be heartbeated")
  requireClaimToken task claimToken
  let leaseExpiresAt ← addDelta now leaseFor
  let task ← Task.modelValidate
    { task.toTaskFields with leaseExpiresAt := some leaseExpiresAt, updatedAt := now }
  return { task, expectedStatus := .running, expectedClaimToken := some claimToken }

/-- The token check of `_finish`. -/
def requirePresentedToken (task : Task) : Option String → Except PyError Unit
  | none => .error (.valueError "claim_token is required to complete a RUNNING task")
  | some claimToken => requireClaimToken task claimToken

/-- `_finish`, up to the save. -/
def finish (taskId : String) (status : TaskStatus) (error : Option String) (requireRunning : Bool)
    (claimToken : Option String) (now : Instant) : Except PyError SaveRequest := do
  if !status.isTerminal then throw (.valueError "_finish requires a terminal task status")
  let task ← require store s taskId
  if requireRunning && task.status ≠ .running then
    throw (.valueError "task must be RUNNING before completion")
  if requireRunning then requirePresentedToken task claimToken
  if task.isTerminal then throw (.valueError "task is already terminal")
  let updated ← Task.modelValidate
    { task.toTaskFields with
      leaseExpiresAt := none
      claimToken := none
      status := status
      updatedAt := now
      finishedAt := some now
      lastError := match error with
        | some error => stripOrNone error
        | none => task.lastError }
  return { task := updated, expectedStatus := task.status
           expectedClaimToken := task.claimToken.map Stripped.text }

/-- The updates of an attempt that is made again. -/
def retry (task : Task) (delay : Duration) (now : Instant) : Except PyError TaskFields := do
  let availableAt ← addDelta now delay
  return { task.toTaskFields with
    status := .deferred, availableAt, startedAt := none, finishedAt := none }

/-- The updates of an attempt that was the last. -/
def giveUp (task : Task) (now : Instant) : TaskFields :=
  { task.toTaskFields with status := .failed, finishedAt := some now }

/-- The updates of `fail`. -/
def failUpdates (task : Task) (retryDelay : Option Duration) (now : Instant) :
    Except PyError TaskFields :=
  match retryDelay with
  | some delay =>
    if task.attempts < task.maxAttempts then
      if delay < 0 then .error (.valueError "retry_delay cannot be negative")
      else retry task delay now
    else .ok (giveUp task now)
  | none => .ok (giveUp task now)

/-- `fail`, up to the save. -/
def fail (taskId claimToken error : String) (retryDelay : Option Duration) (now : Instant) :
    Except PyError SaveRequest := do
  let task ← requireRunning store s taskId
  requireClaimToken task claimToken
  let updates ← failUpdates task retryDelay now
  let task ← Task.modelValidate
    { updates with
      lastError := some (stripOr error "unknown error")
      leaseExpiresAt := none
      claimToken := none
      updatedAt := now }
  return { task, expectedStatus := .running, expectedClaimToken := some claimToken }

/-- `defer`, up to the save. -/
def defer (taskId : String) (delay : Duration) (reason : Option String) (now : Instant) :
    Except PyError SaveRequest := do
  if delay < 0 then throw (.valueError "delay cannot be negative")
  let task ← require store s taskId
  if !task.status.isRunnable then
    throw (.valueError "only PENDING or DEFERRED tasks can be deferred")
  let availableAt ← addDelta now delay
  let updated ← Task.modelValidate
    { task.toTaskFields with
      status := .deferred
      availableAt
      updatedAt := now
      lastError := match reason with
        | some reason => if reason = "" then task.lastError else stripOrNone reason
        | none => task.lastError }
  return { task := updated, expectedStatus := task.status }

/-- `send_to_review`, up to the save. -/
def sendToReview (taskId reason : String) (now : Instant) : Except PyError SaveRequest := do
  let task ← require store s taskId
  if task.isTerminal then throw (.valueError "terminal tasks cannot be sent to review")
  let updated ← Task.modelValidate
    { task.toTaskFields with
      leaseExpiresAt := none
      claimToken := none
      status := .review
      startedAt := none
      finishedAt := none
      updatedAt := now
      lastError := some (stripOr reason "manual review required") }
  return { task := updated, expectedStatus := task.status
           expectedClaimToken := task.claimToken.map Stripped.text }

/-- `release_review`, up to the save. -/
def releaseReview (taskId : String) (delay : Duration) (now : Instant) :
    Except PyError SaveRequest := do
  if delay < 0 then throw (.valueError "delay cannot be negative")
  let task ← require store s taskId
  if task.status ≠ .review then throw (.valueError "only REVIEW tasks can be released")
  let availableAt ← addDelta now delay
  let updated ← Task.modelValidate
    { task.toTaskFields with
      availableAt
      updatedAt := now
      lastError := none
      status := if delay = 0 then .pending else .deferred
      startedAt := none }
  return { task := updated, expectedStatus := .review }

/-- A task `recover_expired_leases` recovers. -/
def leaseExpired (task : Task) (now : Instant) : Bool :=
  task.status = .running && task.leaseExpiresAt.any (· ≤ now)

/-- The updates of a round of `recover_expired_leases`. -/
def recoverUpdates (task : Task) (retryDelay : Duration) (now : Instant) :
    Except PyError TaskFields :=
  if task.attempts < task.maxAttempts then retry task retryDelay now else .ok (giveUp task now)

/-- One round of `recover_expired_leases`, up to the save. -/
def recover (task : Task) (retryDelay : Duration) (now : Instant) : Except PyError SaveRequest := do
  let updates ← recoverUpdates task retryDelay now
  let updated ← Task.modelValidate
    { updates with
      leaseExpiresAt := none
      claimToken := none
      updatedAt := now
      lastError := some "worker lease expired" }
  return { task := updated, expectedStatus := .running
           expectedClaimToken := task.claimToken.map Stripped.text
           expectedLeaseExpiresAt := task.leaseExpiresAt }

end TaskQueue

/-- The operations that read, compute and save one task. -/
inductive QueueOp where
  | heartbeat (taskId claimToken : String) (leaseFor : Duration)
  | succeed (taskId claimToken : String)
  | fail (taskId claimToken error : String) (retryDelay : Option Duration)
  | defer (taskId : String) (delay : Duration) (reason : Option String)
  | block (taskId reason : String)
  | sendToReview (taskId reason : String)
  | releaseReview (taskId : String) (delay : Duration)
  | cancel (taskId : String) (reason : Option String)
  deriving DecidableEq

namespace QueueOp

/-- The task an operation is about. -/
def taskId : QueueOp → String
  | heartbeat taskId .. | succeed taskId _ | fail taskId .. | defer taskId .. | block taskId _
  | sendToReview taskId _ | releaseReview taskId _ | cancel taskId _ => taskId

/-- The claim token an operation presents. -/
def claimToken? : QueueOp → Option String
  | heartbeat _ claimToken _ | succeed _ claimToken | fail _ claimToken _ _ => some claimToken
  | _ => none

/-- An operation up to its save, at the clock value `now`. -/
def prepare {σ : Type} (store : TaskStore σ) (s : σ) (now : Instant) :
    QueueOp → Except PyError SaveRequest
  | heartbeat taskId claimToken leaseFor =>
    TaskQueue.heartbeat store s taskId claimToken leaseFor now
  | succeed taskId claimToken =>
    TaskQueue.finish store s taskId .succeeded none true (some claimToken) now
  | fail taskId claimToken error retryDelay =>
    TaskQueue.fail store s taskId claimToken error retryDelay now
  | defer taskId delay reason => TaskQueue.defer store s taskId delay reason now
  | block taskId reason => TaskQueue.finish store s taskId .blocked (some reason) false none now
  | sendToReview taskId reason => TaskQueue.sendToReview store s taskId reason now
  | releaseReview taskId delay => TaskQueue.releaseReview store s taskId delay now
  | cancel taskId reason => TaskQueue.finish store s taskId .cancelled reason false none now

end QueueOp

/-! ## Any number of queues over one store -/

/-- What a queue instance is in the middle of. -/
inductive Pending where
  /-- About to save. -/
  | saving (request : SaveRequest)
  /-- Inside `recover_expired_leases`, with the tasks it has still to look at. -/
  | recovering (remaining : List Task) (retryDelay : Duration) (now : Instant)

/-- What the statements about runs count. -/
inductive QueueEvent where
  /-- A successful claim, with the attempt it is. -/
  | claimed (taskId : String) (token : Stripped) (attempt : ℕ)
  /-- A save that took the task out of the claim `token`. -/
  | ended (taskId : String) (token : Stripped)
  deriving DecidableEq

structure QueueWorld (σ : Type) where
  store : σ
  busy : ℕ → Option Pending := fun _ => none
  /-- The newest event first. -/
  history : List QueueEvent := []

/-- One step of one participant. `queue` is the instance. -/
inductive QueueCmd where
  | enqueue (task : Task) (now : Instant) (runId : Option String) (foreignKeys : Bool)
  | claim (taskId : String) (leaseFor : Duration) (now : Instant) (token : Stripped)
      (runId : Option String)
  /-- An idle instance takes its lock, reads, and computes. -/
  | start (queue : ℕ) (op : QueueOp) (now : Instant)
  /-- An idle instance takes its lock and reads all the tasks, to recover expired leases. -/
  | startRecovery (queue : ℕ) (retryDelay : Duration) (now : Instant)
  /-- A busy instance saves. -/
  | proceed (queue : ℕ)
  /-- A busy instance is cancelled, or its process dies. -/
  | abandon (queue : ℕ)

/-- What the caller sees of a step. -/
inductive QueueReply where
  | done
  | raised (error : PyError)
  deriving DecidableEq

namespace QueueWorld

variable {σ : Type}

/-- The instance `queue` is left with `pending`. -/
def setBusy (w : QueueWorld σ) (queue : ℕ) (pending : Option Pending) : QueueWorld σ :=
  { w with busy := fun q => if q = queue then pending else w.busy q }

/-- A save, with the event it is. -/
def save (store : TaskStore σ) (w : QueueWorld σ) (request : SaveRequest) :
    Except PyError Task × QueueWorld σ :=
  match store.save w.store request with
  | (.error e, s) => (.error e, { w with store := s })
  | (.ok task, s) =>
    let held := (store.get w.store request.task.taskId).bind fun previous => previous.claimToken
    let history := match held with
      | some token =>
        if task.status = .running then w.history
        else .ended request.task.taskId token :: w.history
      | none => w.history
    (.ok task, { w with store := s, history })

end QueueWorld

namespace QueueReply

def ofExcept {α : Type} : Except PyError α → QueueReply
  | .ok _ => done
  | .error e => raised e

end QueueReply

/-- One step of `recover_expired_leases` over the tasks it has still to look at. -/
def recoverStep {σ : Type} (store : TaskStore σ) (w : QueueWorld σ) (queue : ℕ)
    (retryDelay : Duration) (now : Instant) : List Task → QueueReply × QueueWorld σ
  | [] => (.done, w.setBusy queue none)
  | task :: remaining =>
    if TaskQueue.leaseExpired task now then
      match TaskQueue.recover task retryDelay now with
      | .error e => (.raised e, w.setBusy queue none)
      | .ok request =>
        match w.save store request with
        | (.ok _, w) => (.done, w.setBusy queue (some (.recovering remaining retryDelay now)))
        | (.error (.valueError _), w) =>
          (.done, w.setBusy queue (some (.recovering remaining retryDelay now)))
        | (.error e, w) => (.raised e, w.setBusy queue none)
    else recoverStep store w queue retryDelay now remaining

/-- One step of the world. -/
def QueueCmd.step {σ : Type} (store : TaskStore σ) (w : QueueWorld σ) :
    QueueCmd → QueueReply × QueueWorld σ
  | enqueue task now runId foreignKeys =>
    let (result, s) := TaskQueue.enqueue store w.store task now runId foreignKeys
    (.ofExcept result, { w with store := s })
  | claim taskId leaseFor now token runId =>
    match TaskQueue.claim store w.store taskId leaseFor now token runId with
    | (.error e, s) => (.raised e, { w with store := s })
    | (.ok task, s) =>
      (.done, { w with store := s, history := .claimed taskId token task.attempts :: w.history })
  | start queue op now =>
    match w.busy queue with
    | some _ => (.done, w)
    | none =>
      match op.prepare store w.store now with
      | .error e => (.raised e, w)
      | .ok request => (.done, w.setBusy queue (some (.saving request)))
  | startRecovery queue retryDelay now =>
    match w.busy queue with
    | some _ => (.done, w)
    | none =>
      if retryDelay < 0 then (.raised (.valueError "retry_delay cannot be negative"), w)
      else (.done, w.setBusy queue (some (.recovering (store.all w.store) retryDelay now)))
  | proceed queue =>
    match w.busy queue with
    | none => (.done, w)
    | some (.saving request) =>
      let (result, w) := w.save store request
      (.ofExcept result, w.setBusy queue none)
    | some (.recovering remaining retryDelay now) =>
      recoverStep store w queue retryDelay now remaining
  | abandon queue => (.done, w.setBusy queue none)

/-- The world a step leaves. -/
def QueueCmd.next {σ : Type} (store : TaskStore σ) (w : QueueWorld σ) (cmd : QueueCmd) :
    QueueWorld σ := (cmd.step store w).2

end NightScout
