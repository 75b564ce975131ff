import NightScout.Core.Task
import NightScout.Lib.Dict

/-!
# The task store

`TaskStore` of `recon/core/queue.py`: the persistence contract under the queue. Its two writes of an
existing row are `save`, a compare-and-swap on status and claim token, and `claim`, which hands out a
fresh token. `Lawful` says what the queue needs of a store; the in-memory store and the SQLite store
are shown lawful in their own modules, and everything about the queue is proved from the laws.

A store may not read a task back as it was written: SQLite keeps the dedupe key and rebuilds the
identity key from it. `reread` is what becomes of a written task, and the laws fix everything of it
but the identity key.
-/

namespace NightScout

open Lib

/-! ## Claiming -/

namespace Task

/-- The fields `claim` writes. -/
def claimedFields (t : Task) (now leaseExpiresAt : Instant) (token : Stripped) : TaskFields :=
  { t.toTaskFields with
    attempts := t.attempts + 1
    startedAt := some now
    finishedAt := none
    status := .running
    leaseExpiresAt := some leaseExpiresAt
    claimToken := some token
    updatedAt := now
    lastError := none }

/-- A claim needs no validation when the attempts are not exhausted. -/
theorem claimedFields_ok {t : Task} (h : t.attempts < t.maxAttempts) (now leaseExpiresAt : Instant)
    (token : Stripped) : (t.claimedFields now leaseExpiresAt token).LifecycleOk where
  maxAttempts_pos := t.lifecycle.maxAttempts_pos
  attempts_le := h
  finished_terminal hf := absurd rfl hf
  running_started _ := Option.some_ne_none _
  running_token _ := Option.some_ne_none _
  lease_running hs := absurd rfl hs
  token_running hs := absurd rfl hs

/-- The task `claim` hands out. -/
def claimed (t : Task) (h : t.attempts < t.maxAttempts) (now leaseExpiresAt : Instant)
    (token : Stripped) : Task :=
  ⟨t.claimedFields now leaseExpiresAt token, claimedFields_ok h now leaseExpiresAt token⟩

/-- The conditions of `claim`, all at once. -/
def Claimable (t : Task) (now : Instant) : Prop :=
  t.status.isRunnable ∧ t.availableAt ≤ now ∧ t.attempts < t.maxAttempts

instance (t : Task) (now : Instant) : Decidable (t.Claimable now) :=
  inferInstanceAs (Decidable (_ ∧ _ ∧ _))

/-- The message of the first condition of `claim` that fails. -/
def claimRefusal (t : Task) (now : Instant) : String :=
  if !t.status.isRunnable then s!"task {t.taskId} is not claimable from " ++ t.status.value
  else if now < t.availableAt then s!"task {t.taskId} is not available yet"
  else s!"task {t.taskId} has exhausted its retry budget"

end Task

/-! ## The protocol -/

/-- The arguments of `save`. -/
structure SaveRequest where
  task : Task
  expectedStatus : TaskStatus
  expectedClaimToken : Option String := none
  expectedLeaseExpiresAt : Option Instant := none

/-- The compare of the compare-and-swap. -/
def SaveRequest.Matches (request : SaveRequest) (previous : Task) : Prop :=
  previous.status = request.expectedStatus ∧
  previous.claimToken.map Stripped.text = request.expectedClaimToken ∧
  ∀ lease ∈ request.expectedLeaseExpiresAt, previous.leaseExpiresAt = some lease

instance (request : SaveRequest) (previous : Task) : Decidable (request.Matches previous) :=
  inferInstanceAs (Decidable (_ ∧ _ ∧ _))

/-- The `TaskStore` protocol: each operation is one transaction on the state `σ`. -/
structure TaskStore (σ : Type) where
  empty : σ
  /-- `put(task)`, by a handle bound to a run, with the verdict of the foreign keys. -/
  put : σ → Task → Option String → Bool → Except PyError Bool × σ
  get : σ → String → Option Task
  save : σ → SaveRequest → Except PyError Task × σ
  /-- `claim(task_id, now=..., lease_expires_at=...)`, with the token `new_claim_token` draws, by a
      handle bound to a run. -/
  claim : σ → String → Instant → Instant → Stripped → Option String → Except PyError Task × σ
  all : σ → List Task

/-! ## The laws -/

/-- What the queue needs of a store. `Wf` is the store's own invariant. -/
structure TaskStore.Lawful {σ : Type} (store : TaskStore σ) where
  Wf : σ → Prop
  reread : Task → Task
  reread_fields : ∀ t, (reread t).toTaskFields =
    { t.toTaskFields with inputIdentityKey := (reread t).inputIdentityKey }
  reread_dedupeKey : ∀ t, (reread t).dedupeKey = t.dedupeKey
  wf_empty : Wf store.empty
  get_empty : ∀ id, store.get store.empty id = none
  get_taskId : ∀ s id t, Wf s → store.get s id = some t → t.taskId = id
  /-- `put` inserts a new row or changes nothing, provided an identifier names one logical task. -/
  put_law : ∀ s t run fk, Wf s →
    (∀ old, store.get s t.taskId = some old → old.dedupeKey = t.dedupeKey) →
    ((store.put s t run fk).1 = .ok true ∧ store.get s t.taskId = none ∧
      Wf (store.put s t run fk).2 ∧
      ∀ id, store.get (store.put s t run fk).2 id =
        if id = t.taskId then some (reread t) else store.get s id) ∨
    ((store.put s t run fk).1 ≠ .ok true ∧ (store.put s t run fk).2 = s)
  /-- `save` of an unknown task. -/
  save_unknown : ∀ s request, Wf s → store.get s request.task.taskId = none →
    ∃ message, store.save s request = (.error (.keyError message), s)
  /-- `save` that loses the compare. -/
  save_stale : ∀ s request previous, Wf s →
    store.get s request.task.taskId = some previous → ¬ request.Matches previous →
    ∃ message, store.save s request = (.error (.valueError message), s)
  /-- `save` that wins it: an unfinished row is rewritten as a whole. -/
  save_ok : ∀ s request previous, Wf s →
    store.get s request.task.taskId = some previous → request.Matches previous →
    previous.isTerminal = false → previous.dedupeKey = request.task.dedupeKey →
    (store.save s request).1 = .ok (reread request.task) ∧ Wf (store.save s request).2 ∧
      ∀ id, store.get (store.save s request).2 id =
        if id = request.task.taskId then some (reread request.task) else store.get s id
  claim_unknown : ∀ s id now lease token run, Wf s → store.get s id = none →
    ∃ message, store.claim s id now lease token run = (.error (.keyError message), s)
  claim_refused : ∀ s id now lease token run t, Wf s → store.get s id = some t →
    ¬ t.Claimable now →
    store.claim s id now lease token run = (.error (.valueError (t.claimRefusal now)), s)
  claim_ok : ∀ s id now lease token run t, Wf s → store.get s id = some t →
    ∀ h : t.Claimable now,
    (store.claim s id now lease token run).1 = .ok (t.claimed h.2.2 now lease token) ∧
      Wf (store.claim s id now lease token run).2 ∧
      ∀ id', store.get (store.claim s id now lease token run).2 id' =
        if id' = id then some (t.claimed h.2.2 now lease token) else store.get s id'
  all_law : ∀ s t, Wf s → (t ∈ store.all s ↔ ∃ id, store.get s id = some t)

namespace TaskStore.Lawful

variable {σ : Type} {store : TaskStore σ} (L : store.Lawful) (t : Task)

@[simp] theorem reread_taskId : (L.reread t).taskId = t.taskId := by rw [L.reread_fields]

@[simp] theorem reread_status : (L.reread t).status = t.status := by rw [L.reread_fields]

@[simp] theorem reread_attempts : (L.reread t).attempts = t.attempts := by rw [L.reread_fields]

@[simp] theorem reread_maxAttempts : (L.reread t).maxAttempts = t.maxAttempts := by
  rw [L.reread_fields]

@[simp] theorem reread_claimToken : (L.reread t).claimToken = t.claimToken := by
  rw [L.reread_fields]

end TaskStore.Lawful

end NightScout
