import NightScout.Core.ClaimFencing

/-!
# Ready tasks can be claimed

A PENDING or DEFERRED task is one the scheduler will try to claim when it becomes available, so it
must have attempts left. Every operation that makes a task runnable sees to that by itself: `fail`
and the lease recovery give up on an exhausted task, `defer` only moves a task that was runnable.

`release_review` does not: a task that was sent to review out of its last attempt comes back PENDING
with none left, ready for ever and never claimable (`lastAttemptReviewed`). The invariant holds of
the runs in which every release finds attempts left.
-/

namespace NightScout

open Lib

variable {σ : Type}

/-- A release of a review finds a task with attempts left. -/
def QueueCmd.ReleasesInBudget (store : TaskStore σ) (w : QueueWorld σ) : QueueCmd → Prop
  | .start _ (.releaseReview taskId _) _ => ∀ t ∈ store.get w.store taskId,
      t.status = .review → t.attempts < t.maxAttempts
  | _ => True

instance (store : TaskStore σ) (w : QueueWorld σ) (cmd : QueueCmd) :
    Decidable (cmd.ReleasesInBudget store w) := by
  unfold QueueCmd.ReleasesInBudget
  split <;> infer_instance

namespace QueueWorld

variable {store : TaskStore σ} {L : store.Lawful} {w : QueueWorld σ} {cmd : QueueCmd}

/-- Every task that is runnable, or is about to be, has attempts left. -/
structure ReadyOk (store : TaskStore σ) (w : QueueWorld σ) : Prop where
  stored : ∀ id t, store.get w.store id = some t → t.status.isRunnable →
    t.attempts < t.maxAttempts
  held : ∀ r, w.Holds r → r.task.status.isRunnable → r.task.attempts < r.task.maxAttempts

/-- A request read from a task keeps attempts left if the task had them. -/
theorem attempts_lt_of_reads {r : SaveRequest} {t : Task} (hreads : r.Reads t)
    (h : t.attempts < t.maxAttempts) : r.task.attempts < r.task.maxAttempts := by
  rw [hreads.attempts, hreads.maxAttempts]
  exact h

/-- The requests held after a step that releases in budget. -/
theorem ReadyOk.held_step {w' : QueueWorld σ} (hr : ReadyOk store w)
    (hrelease : cmd.ReleasesInBudget store w) (hstep : StepSpec L cmd w w') {r : SaveRequest}
    (hholds : w'.Holds r) (hrun : r.task.status.isRunnable) : r.task.attempts < r.task.maxAttempts := by
  rcases hstep.holds r hholds with hold | ⟨queue, op, now, hcmd, hop⟩ |
    ⟨queue, retryDelay, now, id, t, _, ht, hexp, hreq⟩
  · exact hr.held r hold hrun
  · obtain ⟨t, ht, hreads, _, hready | ⟨hreview, delay, hrel⟩⟩ := QueueOp.prepare_reads hop
    · rcases hready hrun with hlt | htrun
      · exact attempts_lt_of_reads hreads hlt
      · exact attempts_lt_of_reads hreads (hr.stored _ t ht htrun)
    · rw [hcmd, hrel] at hrelease
      exact attempts_lt_of_reads hreads (hrelease t ht hreview)
  · obtain ⟨hreads, hready, hstatus⟩ := TaskQueue.recover_reads hexp hreq
    rcases hready hrun with hlt | htrun
    · exact attempts_lt_of_reads hreads hlt
    · exact absurd hstatus (TaskStatus.ne_running_of_isRunnable htrun)

theorem ReadyOk.next (hr : ReadyOk store w) (h : w.Inv L) (hfresh : cmd.Fresh store w)
    (hrelease : cmd.ReleasesInBudget store w) : ReadyOk store (cmd.next store w) := by
  have hstep := step_spec h.wf h.holdsOk (dedupeKey_of_fresh hfresh)
  refine ⟨fun id t ht hrun => ?_, fun r => hr.held_step hrelease hstep⟩
  cases hstep.effect with
  | quiet hs _ =>
    rw [hs] at ht
    exact hr.stored id t ht hrun
  | inserted hcmd _ _ hatt _ hget _ =>
    subst hcmd
    rw [hget] at ht
    split at ht
    · cases ht
      rw [hatt, hfresh.1]
      exact t.lifecycle.maxAttempts_pos
    · exact hr.stored id t ht hrun
  | claimed _ _ _ _ hget _ =>
    rw [hget] at ht
    split at ht
    · cases ht
      cases hrun
    · exact hr.stored id t ht hrun
  | @saved r _ hholds _ _ _ _ hget _ =>
    rw [hget] at ht
    split at ht
    · cases ht
      rw [L.reread_status] at hrun
      rw [L.reread_attempts, L.reread_maxAttempts]
      exact hr.held r hholds hrun
    · exact hr.stored id t ht hrun

theorem ReadyOk.run {cmds : List QueueCmd} (hr : ReadyOk store w) (h : w.Inv L)
    (henv : Along (QueueCmd.next store) (QueueCmd.Fresh store) w cmds)
    (hreleases : Along (QueueCmd.next store) (QueueCmd.ReleasesInBudget store) w cmds) :
    (runFrom (QueueCmd.next store) w cmds).ReadyOk store := by
  refine ((henv.and hreleases).invariant (P := fun w => w.Inv L ∧ w.ReadyOk store) ⟨h, hr⟩ ?_).2
  intro s c hs hc
  exact ⟨hs.1.next hc.1, hs.2.next hs.1 hc.1 hc.2⟩

end QueueWorld

/-- A task with attempts left is claimed once it is available. -/
theorem claim_succeeds {store : TaskStore σ} (L : store.Lawful) {s : σ} (hwf : L.Wf s) {id : String}
    {t : Task} (ht : store.get s id = some t) {leaseFor : Duration} {now leaseExpiresAt : Instant}
    (hlease : 0 < leaseFor) (hexp : addDelta now leaseFor = .ok leaseExpiresAt)
    (hc : t.Claimable now) (token : Stripped) (runId : Option String) :
    ∃ claimed, (TaskQueue.claim store s id leaseFor now token runId).1 = .ok claimed := by
  obtain ⟨hres, _, _⟩ := L.claim_ok s id now leaseExpiresAt token runId t hwf ht hc
  refine ⟨t.claimed hc.2.2 now leaseExpiresAt token, ?_⟩
  simp only [TaskQueue.claim, if_neg (not_le.mpr hlease), hexp]
  exact hres

/-- **No stuck task.** In every state a run leads to in which fresh tasks are enqueued and every
    release of a review finds attempts left: a PENDING or DEFERRED task has attempts left, and a
    claim of it succeeds as soon as it is available. -/
theorem ready_tasks_claimable (b : TaskBackend) (cmds : List QueueCmd)
    (henv : Along (QueueCmd.next b.store) (QueueCmd.Fresh b.store) (.initial b.store) cmds)
    (hreleases : Along (QueueCmd.next b.store) (QueueCmd.ReleasesInBudget b.store) (.initial b.store) cmds) :
    ∀ id t, b.store.get (queueRun b.store cmds).store id = some t → t.status.isRunnable → t.attempts < t.maxAttempts ∧
      ∀ leaseFor now leaseExpiresAt token runId, 0 < leaseFor →
        addDelta now leaseFor = .ok leaseExpiresAt → t.availableAt ≤ now →
        ∃ claimed, (TaskQueue.claim b.store (queueRun b.store cmds).store id leaseFor now token
          runId).1 = .ok claimed := by
  intro id t ht hrun
  have hstart : (QueueWorld.initial b.store).Inv b.lawful := QueueWorld.Inv.initial
  have hready : (QueueWorld.initial b.store).ReadyOk b.store := by
    constructor
    · intro id t ht
      rw [show b.store.get (QueueWorld.initial b.store).store id = none from
        b.lawful.get_empty id] at ht
      cases ht
    · intro r hr
      cases hr with
      | saving h => cases h
      | recovering h => cases h
  have hlt := (hready.run hstart henv hreleases).stored id t ht hrun
  refine ⟨hlt, fun leaseFor now leaseExpiresAt token runId hlease hexp havail => ?_⟩
  exact claim_succeeds b.lawful (hstart.run henv).wf ht hlease hexp ⟨hrun, havail, hlt⟩ token runId

theorem ready_tasks_claimable_retried :
    ∃ t, sqliteTaskStore.get (queueRun sqliteTaskStore (staleDefer.take 5)).store "tsk_1" = some t ∧
      t.attempts < t.maxAttempts := by
  have hready : (sqliteTaskStore.get (queueRun sqliteTaskStore (staleDefer.take 5)).store
      "tsk_1").any (fun t => t.status.isRunnable) = true := by decide +kernel
  obtain ⟨t, ht, hrun⟩ := (Option.any_eq_true _ _).mp hready
  exact ⟨t, ht, (ready_tasks_claimable .sqlite (staleDefer.take 5) (by decide +kernel)
    (by decide +kernel) "tsk_1" t ht hrun).1⟩

/-! ## A task that is ready for ever -/

/-- A task with a single attempt. -/
def oneAttemptTask : Task :=
  { deferredTask with status := .pending, maxAttempts := 1, lifecycle := by decide }

/-- The attempt is made, goes to review, and the review is released. -/
def lastAttemptReviewed : List QueueCmd :=
  [.enqueue oneAttemptTask 0 none true,
   .claim "tsk_1" 300000000 1 firstToken none,
   .start 1 (.sendToReview "tsk_1" "check the target") 2,
   .proceed 1,
   .start 1 (.releaseReview "tsk_1" 0) 3,
   .proceed 1]

/-- What `lastAttemptReviewed` leaves, and what a later claim of it says. -/
theorem lastAttemptReviewed_row (b : TaskBackend) :
    (b.store.get (queueRun b.store lastAttemptReviewed).store "tsk_1").map
      (fun t => (t.status, t.attempts, t.maxAttempts)) = some (.pending, 1, 1) ∧
    QueueReply.ofExcept (TaskQueue.claim b.store (queueRun b.store lastAttemptReviewed).store
      "tsk_1" 300000000 4 firstToken none).1 =
        .raised (.valueError "task tsk_1 has exhausted its retry budget") := by
  cases b with
  | memory => decide +kernel
  | sqlite => decide +kernel

/-- A PENDING task that cannot be claimed, on either store. -/
theorem lastAttemptReviewed_stuck : (Along (QueueCmd.next sqliteTaskStore) (QueueCmd.Fresh sqliteTaskStore)
      (.initial sqliteTaskStore) lastAttemptReviewed ∧
    ¬ ∀ id t, sqliteTaskStore.get (queueRun sqliteTaskStore lastAttemptReviewed).store id = some t →
      t.status.isRunnable → t.attempts < t.maxAttempts) ∧
    Along (QueueCmd.next inMemoryTaskStore) (QueueCmd.Fresh inMemoryTaskStore)
      (.initial inMemoryTaskStore) lastAttemptReviewed ∧ ¬ ∀ id t,
      inMemoryTaskStore.get (queueRun inMemoryTaskStore lastAttemptReviewed).store id = some t →
      t.status.isRunnable → t.attempts < t.maxAttempts := by
  have hwrong : ∀ b : TaskBackend, ¬ ∀ id t,
      b.store.get (queueRun b.store lastAttemptReviewed).store id = some t →
        t.status.isRunnable → t.attempts < t.maxAttempts := by
    intro b hall
    obtain ⟨t, ht, hrow⟩ := Option.map_eq_some_iff.mp (lastAttemptReviewed_row b).1
    simp only [Prod.mk.injEq] at hrow
    obtain ⟨hstatus, hattempts, hmax⟩ := hrow
    have hlt := hall "tsk_1" t ht (by rw [hstatus]; rfl)
    rw [hattempts, hmax] at hlt
    exact absurd hlt (lt_irrefl 1)
  exact ⟨⟨by decide +kernel, hwrong .sqlite⟩, by decide +kernel, hwrong .memory⟩

end NightScout
