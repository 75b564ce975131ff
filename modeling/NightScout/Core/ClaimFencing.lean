import NightScout.Core.QueueRuns

/-!
# Claim fencing

What the invariant of the queues says of every reachable state, for both task stores: which claims
are live, what becomes of an operation whose token is stale, that a claim ends once, that terminal
states are absorbing, and what `attempts` counts.

All but the last hold of every run. A save writes the whole row it read, and its compare does not
cover `attempts`: a task that is DEFERRED when it is read and DEFERRED again when it is saved may
have been claimed and retried in between, and the save forgets that attempt (`staleDefer`).
-/

namespace NightScout

open Lib

/-! ## The two backends -/

/-- The stores a queue runs over. -/
inductive TaskBackend where
  | memory
  | sqlite

namespace TaskBackend

def State : TaskBackend → Type
  | memory => InMemoryTaskStore
  | sqlite => TaskDb

def store : (b : TaskBackend) → TaskStore b.State
  | memory => inMemoryTaskStore
  | sqlite => sqliteTaskStore

def lawful : (b : TaskBackend) → b.store.Lawful
  | memory => inMemoryTaskStore_lawful
  | sqlite => sqliteTaskStore_lawful

end TaskBackend

/-- Idle queues over an empty store. -/
def QueueWorld.initial {σ : Type} (store : TaskStore σ) : QueueWorld σ := { store := store.empty }

/-- The world a run leads to. -/
def queueRun {σ : Type} (store : TaskStore σ) (cmds : List QueueCmd) : QueueWorld σ :=
  runFrom (QueueCmd.next store) (.initial store) cmds

section Runs

variable {σ : Type} {store : TaskStore σ} {L : store.Lawful} {w : QueueWorld σ}
    {cmds : List QueueCmd}

theorem QueueWorld.Inv.run (h : w.Inv L) (henv : Along (QueueCmd.next store) (QueueCmd.Fresh store) w cmds) :
    (runFrom (QueueCmd.next store) w cmds).Inv L :=
  henv.invariant h fun _ _ hs hc => hs.next hc

theorem QueueWorld.AttemptsOk.run (h : w.Inv L) (ha : w.AttemptsOk store)
    (henv : Along (QueueCmd.next store) (QueueCmd.Fresh store) w cmds)
    (hsaves : Along (QueueCmd.next store) (QueueCmd.SavesWhatItRead store) w cmds) :
    (runFrom (QueueCmd.next store) w cmds).AttemptsOk store := by
  refine ((henv.and hsaves).invariant (P := fun w => w.Inv L ∧ w.AttemptsOk store) ⟨h, ha⟩ ?_).2
  intro s c hs hc
  exact ⟨hs.1.next hc.1, hs.2.next hs.1 hc.1 hc.2⟩

theorem QueueWorld.Inv.terminal_run (h : w.Inv L)
    (henv : Along (QueueCmd.next store) (QueueCmd.Fresh store) w cmds) {id : String} {t : Task}
    (ht : store.get w.store id = some t) (hterm : t.isTerminal = true) :
    store.get (runFrom (QueueCmd.next store) w cmds).store id = some t := by
  refine (henv.invariant (P := fun w => w.Inv L ∧ store.get w.store id = some t) ⟨h, ht⟩ ?_).2
  intro s c hs hc
  exact ⟨hs.1.next hc, hs.1.terminal_next hc hs.2 hterm⟩

/-! ## Stale tokens -/

/-- An operation that presents a token other than the task's raises when it reads. -/
theorem start_refused {queue : ℕ} {op : QueueOp} {now : Instant} {token : String}
    (hidle : w.busy queue = none) (hop : op.claimToken? = some token)
    (hstale : ∀ t, store.get w.store op.taskId = some t → t.claimToken.map Stripped.text ≠ some (strip token)) :
    ∃ e, (QueueCmd.start queue op now).step store w = (.raised e, w) := by
  cases hprep : op.prepare store w.store now with
  | error e =>
    refine ⟨e, ?_⟩
    simp only [QueueCmd.step, hidle, hprep]
  | ok request =>
    obtain ⟨t, ht, _, htok, _⟩ := QueueOp.prepare_reads hprep
    exact absurd (htok token hop) (hstale t ht)

/-- An operation whose token has become stale raises when it saves, and the store is as it was. -/
theorem proceed_refused (hwf : L.Wf w.store) {queue : ℕ} {request : SaveRequest}
    (hbusy : w.busy queue = some (.saving request)) (hstale : ∀ t, store.get w.store request.task.taskId = some t →
      t.claimToken.map Stripped.text ≠ request.expectedClaimToken) :
    ∃ e w', (QueueCmd.proceed queue).step store w = (.raised e, w') ∧ w'.store = w.store := by
  have hraise : ∃ e, store.save w.store request = (.error e, w.store) := by
    cases hprev : store.get w.store request.task.taskId with
    | none =>
      obtain ⟨message, hsave⟩ := L.save_unknown _ request hwf hprev
      exact ⟨_, hsave⟩
    | some previous =>
      have hm : ¬ request.Matches previous := fun hm => hstale previous hprev hm.2.1
      obtain ⟨message, hsave⟩ := L.save_stale _ request previous hwf hprev hm
      exact ⟨_, hsave⟩
  obtain ⟨e, hsave⟩ := hraise
  refine ⟨e, w.setBusy queue none, ?_, rfl⟩
  simp only [QueueCmd.step, hbusy, QueueWorld.save, hsave]
  rfl

/-- The request of an operation holds the token the operation presented. -/
theorem prepare_token {op : QueueOp} {s : σ} {now : Instant} {request : SaveRequest}
    {token : String} (hprep : op.prepare store s now = .ok request) (hop : op.claimToken? = some token) :
    ∃ held, request.expectedClaimToken = some held ∧ strip held = strip token := by
  obtain ⟨t, _, hreads, htok, _⟩ := QueueOp.prepare_reads hprep
  have htok := htok token hop
  cases hheld : request.expectedClaimToken with
  | none =>
    rw [hreads.no_token hheld] at htok
    cases htok
  | some held =>
    have hread := hreads.token held hheld
    rw [htok] at hread
    exact ⟨held, rfl, (Option.some.inj hread).symm⟩

end Runs

/-! ## The fence -/

/-- **Claim fencing.** In every state any number of queues over one store reach, with fresh tokens
    and fresh tasks:

    * a claim that was granted and not ended is the task's RUNNING state under the token granted
      last, and a RUNNING task is in such a claim;
    * an operation whose token is not the task's raises, when it reads or when it saves, and leaves
      the store as it was;
    * a claim is ended at most once;
    * a terminal task stays as it is in every later state;
    * if every save so far found the attempts it had read, `attempts` is the number of claims. -/
theorem claim_fencing (b : TaskBackend) (cmds : List QueueCmd)
    (henv : Along (QueueCmd.next b.store) (QueueCmd.Fresh b.store) (.initial b.store) cmds) :
    let w := queueRun b.store cmds
    (∀ id token, LiveClaim id token w.history → ∃ t, b.store.get w.store id = some t ∧
      t.status = .running ∧ t.claimToken = some token ∧ lastGranted id w.history = some token) ∧
    (∀ id t, b.store.get w.store id = some t → t.status = .running →
      ∃ token, t.claimToken = some token ∧ LiveClaim id token w.history) ∧
    (∀ queue (op : QueueOp) now token, w.busy queue = none → op.claimToken? = some token →
      (∀ t, b.store.get w.store op.taskId = some t →
        t.claimToken.map Stripped.text ≠ some (strip token)) →
      ∃ e, (QueueCmd.start queue op now).step b.store w = (.raised e, w)) ∧
    (∀ queue request, w.busy queue = some (.saving request) →
      (∀ t, b.store.get w.store request.task.taskId = some t →
        t.claimToken.map Stripped.text ≠ request.expectedClaimToken) →
      ∃ e w', (QueueCmd.proceed queue).step b.store w = (.raised e, w') ∧ w'.store = w.store) ∧
    (∀ (op : QueueOp) now (request : SaveRequest) token,
      op.prepare b.store w.store now = .ok request →
      op.claimToken? = some token →
      ∃ held, request.expectedClaimToken = some held ∧ strip held = strip token) ∧
    (∀ token, endCount token w.history ≤ 1) ∧
    (∀ id t, b.store.get w.store id = some t → t.isTerminal = true → ∀ later,
      Along (QueueCmd.next b.store) (QueueCmd.Fresh b.store) w later →
      b.store.get (runFrom (QueueCmd.next b.store) w later).store id = some t) ∧
    (Along (QueueCmd.next b.store) (QueueCmd.SavesWhatItRead b.store) (.initial b.store) cmds →
      ∀ id t, b.store.get w.store id = some t →
        t.attempts = claimCount id w.history ∧ t.attempts ≤ t.maxAttempts) := by
  intro w
  have hstart : (QueueWorld.initial b.store).Inv b.lawful := QueueWorld.Inv.initial
  have h : w.Inv b.lawful := hstart.run henv
  refine ⟨fun id token hlive => ?_, fun id t ht hrun => ?_,
    fun queue op now token hidle hop hstale => start_refused hidle hop hstale,
    fun queue request hbusy hstale => proceed_refused h.wf hbusy hstale,
    fun op now request token hprep hop => prepare_token hprep hop, h.ends,
    fun id t ht hterm later hlater => h.terminal_run hlater ht hterm, fun hsaves id t ht => ?_⟩
  · obtain ⟨t, ht, htok⟩ := h.live id token hlive
    exact ⟨t, ht, Task.running_of_claimToken htok, htok, (h.current id t token ht htok).1⟩
  · obtain ⟨token, htok⟩ := Task.exists_claimToken hrun
    obtain ⟨_, hmem, hcount⟩ := h.current id t token ht htok
    exact ⟨token, htok, ⟨_, hmem⟩, hcount⟩
  · have hattempts : (QueueWorld.initial b.store).AttemptsOk b.store := by
      refine ⟨fun id t ht => ?_, fun _ _ => rfl⟩
      have hnone := b.lawful.get_empty id
      rw [show b.store.get (QueueWorld.initial b.store).store id = none from hnone] at ht
      cases ht
    have ha := hattempts.run hstart henv hsaves
    exact ⟨ha.1 id t ht, t.lifecycle.attempts_le⟩

/-! ## A forgotten attempt -/

/-- A task that is ready and has not been attempted. -/
def deferredTask : Task where
  taskId := "tsk_1"
  worker := ⟨"dns", by decide, by decide⟩
  action := ⟨"resolve", by decide, by decide⟩
  inputEventId := ⟨"evt_7", by decide, by decide⟩
  status := .deferred
  createdAt := 0
  updatedAt := 0
  availableAt := 0
  lifecycle := by decide

def firstToken : Stripped := ⟨"clm_1", by decide, by decide⟩

/-- One task, claimed and finished by queue 1. -/
def finishedRun : List QueueCmd :=
  [.enqueue deferredTask 0 none true,
   .claim "tsk_1" 300000000 1 firstToken none,
   .start 1 (.succeed "tsk_1" "clm_1") 2,
   .proceed 1]

theorem claim_fencing_finishedRun : endCount firstToken (queueRun sqliteTaskStore finishedRun).history ≤ 1 ∧
    ∀ t, sqliteTaskStore.get (queueRun sqliteTaskStore finishedRun).store "tsk_1" = some t →
      t.attempts = claimCount "tsk_1" (queueRun sqliteTaskStore finishedRun).history := by
  obtain ⟨_, _, _, _, _, hends, _, hattempts⟩ :=
    claim_fencing .sqlite finishedRun (by decide +kernel)
  refine ⟨hends firstToken, fun t ht => ?_⟩
  exact (hattempts (by decide +kernel) "tsk_1" t ht).1

/-- Queue 1 reads the DEFERRED task to defer it. Before it saves, the task is claimed, and queue 2
    fails the claim with a retry: the task is DEFERRED again, with one attempt. Then queue 1 saves
    what it read. -/
def staleDefer : List QueueCmd :=
  [.enqueue deferredTask 0 none true,
   .start 1 (.defer "tsk_1" 0 none) 1,
   .claim "tsk_1" 300000000 2 firstToken none,
   .start 2 (.fail "tsk_1" "clm_1" "timeout" (some 0)) 3,
   .proceed 2,
   .proceed 1]

/-- The row of the task and its claims after `staleDefer`. -/
theorem staleDefer_row (b : TaskBackend) :
    (b.store.get (queueRun b.store staleDefer).store "tsk_1").map (fun t => t.attempts) = some 0 ∧
    claimCount "tsk_1" (queueRun b.store staleDefer).history = 1 := by
  cases b with
  | memory => decide +kernel
  | sqlite => decide +kernel

/-- The environment of `staleDefer` is as it should be, and one claim was made; but on either store
    the row says that none was. -/
theorem staleDefer_forgets : (Along (QueueCmd.next sqliteTaskStore) (QueueCmd.Fresh sqliteTaskStore)
      (.initial sqliteTaskStore) staleDefer ∧
    ¬ ∀ id t, sqliteTaskStore.get (queueRun sqliteTaskStore staleDefer).store id = some t →
      t.attempts = claimCount id (queueRun sqliteTaskStore staleDefer).history) ∧
    Along (QueueCmd.next inMemoryTaskStore) (QueueCmd.Fresh inMemoryTaskStore) (.initial inMemoryTaskStore) staleDefer ∧
    ¬ ∀ id t, inMemoryTaskStore.get (queueRun inMemoryTaskStore staleDefer).store id = some t →
      t.attempts = claimCount id (queueRun inMemoryTaskStore staleDefer).history := by
  have hwrong : ∀ b : TaskBackend, ¬ ∀ id t,
      b.store.get (queueRun b.store staleDefer).store id = some t →
        t.attempts = claimCount id (queueRun b.store staleDefer).history := by
    intro b hall
    obtain ⟨hrow, hcount⟩ := staleDefer_row b
    obtain ⟨t, ht, hattempts⟩ := Option.map_eq_some_iff.mp hrow
    have hone := hall "tsk_1" t ht
    rw [hcount, hattempts] at hone
    cases hone
  exact ⟨⟨by decide +kernel, hwrong .sqlite⟩, by decide +kernel, hwrong .memory⟩

end NightScout
