import NightScout.Core.Python

/-!
# Tasks

`Task` of `recon/core/queue.py`, the unit of work every other component passes around. The
model validator `validate_lifecycle` is the field `lifecycle`: a value of type `Task` has passed it,
so "the stored row is consistent" is never a hypothesis below. A function that rewrites a task
produces raw fields and goes through `Task.modelValidate`, as `_updated_task` does; the three places
that use `model_copy(update=...)` and so skip the validator have to show that it would have passed.
-/

namespace NightScout

/-- Lifecycle states understood by the queue. -/
inductive TaskStatus where
  | pending | running | deferred
  | succeeded | failed | cancelled
  | blocked | review
  deriving DecidableEq, Repr

namespace TaskStatus

/-- `TERMINAL_TASK_STATUSES`. -/
def isTerminal : TaskStatus → Bool
  | succeeded | failed | cancelled | blocked => true
  | pending | running | deferred | review => false

/-- The two states a task may be enqueued in, deferred from and claimed from. -/
def isRunnable : TaskStatus → Bool
  | pending | deferred => true
  | _ => false

/-- The name of a status, as messages print it. -/
def value : TaskStatus → String
  | pending => "PENDING" | running => "RUNNING" | deferred => "DEFERRED"
  | succeeded => "SUCCEEDED" | failed => "FAILED" | cancelled => "CANCELLED"
  | blocked => "BLOCKED" | review => "REVIEW"

theorem isTerminal_of_isRunnable {s : TaskStatus} (h : s.isRunnable) : s.isTerminal = false := by
  cases s <;> first | rfl | exact absurd h (by decide)

theorem ne_running_of_isRunnable {s : TaskStatus} (h : s.isRunnable) : s ≠ running := by
  rintro rfl
  exact absurd h (by decide)

theorem ne_running_of_isTerminal {s : TaskStatus} (h : s.isTerminal) : s ≠ running := by
  rintro rfl
  exact absurd h (by decide)

end TaskStatus

/-- The fields of a `Task`, before its model validator has run. -/
structure TaskFields where
  taskId : String
  worker : Stripped
  action : Stripped
  inputEventId : Stripped
  inputIdentityKey : Option Stripped := none
  branchId : Option String := none
  routeRuleId : Option Stripped := none
  routingReason : Option Stripped := none
  status : TaskStatus := .pending
  priority : ℚ := 0
  attempts : ℕ := 0
  maxAttempts : ℕ := 3
  createdAt : Instant
  updatedAt : Instant
  availableAt : Instant
  startedAt : Option Instant := none
  finishedAt : Option Instant := none
  leaseExpiresAt : Option Instant := none
  claimToken : Option Stripped := none
  lastError : Option String := none
  deriving DecidableEq

namespace TaskFields

/-- What the field bounds and `validate_lifecycle` require of the fields. -/
structure LifecycleOk (f : TaskFields) : Prop where
  maxAttempts_pos : 1 ≤ f.maxAttempts
  attempts_le : f.attempts ≤ f.maxAttempts
  finished_terminal : f.finishedAt ≠ none → f.status.isTerminal = true
  running_started : f.status = .running → f.startedAt ≠ none
  running_token : f.status = .running → f.claimToken ≠ none
  lease_running : f.status ≠ .running → f.leaseExpiresAt = none
  token_running : f.status ≠ .running → f.claimToken = none

theorem lifecycleOk_iff {f : TaskFields} : f.LifecycleOk ↔ 1 ≤ f.maxAttempts ∧ f.attempts ≤ f.maxAttempts ∧
    (f.finishedAt ≠ none → f.status.isTerminal = true) ∧
    (f.status = .running → f.startedAt ≠ none) ∧ (f.status = .running → f.claimToken ≠ none) ∧
    (f.status ≠ .running → f.leaseExpiresAt = none) ∧ (f.status ≠ .running → f.claimToken = none) :=
  ⟨fun ⟨a, b, c, d, e, g, h⟩ => ⟨a, b, c, d, e, g, h⟩,
   fun ⟨a, b, c, d, e, g, h⟩ => ⟨a, b, c, d, e, g, h⟩⟩

instance (f : TaskFields) : Decidable f.LifecycleOk := decidable_of_iff _ lifecycleOk_iff.symm

/-- `dedupe_key`: the stable key used to suppress duplicate logical work. -/
def dedupeKey (f : TaskFields) : String :=
  f.worker.text ++ ":" ++ f.action.text ++ ":" ++
    (match f.inputIdentityKey with
      | some key => key.text
      | none => f.inputEventId.text)

def isTerminal (f : TaskFields) : Bool := f.status.isTerminal

/-- The message of the first check of `validate_lifecycle` that fails. -/
def lifecycleMessage (f : TaskFields) : String :=
  if f.maxAttempts < 1 then "max_attempts must be greater than or equal to 1"
  else if f.maxAttempts < f.attempts then "attempts cannot exceed max_attempts"
  else if f.finishedAt ≠ none ∧ f.status.isTerminal = false then
    "finished_at is only valid for terminal task states"
  else if f.status = .running ∧ f.startedAt = none then "RUNNING tasks require started_at"
  else if f.status = .running ∧ f.claimToken = none then "RUNNING tasks require a claim_token"
  else if f.status ≠ .running ∧ f.leaseExpiresAt ≠ none then "only RUNNING tasks may hold a lease"
  else "only RUNNING tasks may hold a claim_token"

end TaskFields

/-- A validated task. -/
structure Task extends TaskFields where
  lifecycle : toTaskFields.LifecycleOk
  deriving DecidableEq

namespace Task

/-- `Task.model_validate(payload)`: the only way to a task from rewritten fields. -/
def modelValidate (f : TaskFields) : Except PyError Task :=
  if h : f.LifecycleOk then .ok ⟨f, h⟩ else .error (.valueError f.lifecycleMessage)

theorem modelValidate_ok {f : TaskFields} {t : Task} (h : modelValidate f = .ok t) : ∃ hf, t = ⟨f, hf⟩ := by
  unfold modelValidate at h
  split at h
  · exact ⟨_, (Except.ok.inj h).symm⟩
  · cases h

/-- A task that is not RUNNING holds no token: the fence of the lifecycle validator. -/
theorem claimToken_none {t : Task} (h : t.status ≠ .running) : t.claimToken = none :=
  t.lifecycle.token_running h

theorem running_of_claimToken {t : Task} {tok : Stripped} (h : t.claimToken = some tok) : t.status = .running := by
  by_contra hs
  rw [claimToken_none hs] at h
  cases h

theorem exists_claimToken {t : Task} (h : t.status = .running) : ∃ tok, t.claimToken = some tok := by
  cases htok : t.claimToken with
  | none => exact absurd htok (t.lifecycle.running_token h)
  | some tok => exact ⟨tok, rfl⟩

end Task

end NightScout
