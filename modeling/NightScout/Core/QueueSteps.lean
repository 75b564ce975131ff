import NightScout.Core.Queue

/-!
# What a queue step does to the store

Every operation of the queue makes the same kind of request: it rewrites one unfinished task it has
read, expecting the status and the token it read, and leaves the identity, the dedupe key and *the
attempts it read* in place. `SaveRequest.Reads` is that, proved of each operation once
(`QueueOp.prepare_reads`, `TaskQueue.recover_reads`); the later sections do not look at the
operations again.

`QueueWorld.Effect` then lists what one step of the world can do to the store and to the history:
nothing, an insert, a claim, or a save that won its compare.
-/

namespace NightScout

variable {σ : Type}

/-! ## What a request writes -/

/-- The request `r` rewrites the task `t` that was read. -/
structure SaveRequest.Reads (r : SaveRequest) (t : Task) : Prop where
  taskId : r.task.taskId = t.taskId
  dedupeKey : r.task.dedupeKey = t.dedupeKey
  attempts : r.task.attempts = t.attempts
  maxAttempts : r.task.maxAttempts = t.maxAttempts
  live : t.isTerminal = false
  status : r.expectedStatus = t.status
  token : ∀ token, r.expectedClaimToken = some token →
    t.claimToken.map Stripped.text = some (strip token)
  no_token : r.expectedClaimToken = none → t.claimToken = none
  running : r.task.status = .running → r.task.claimToken = t.claimToken

/-- A request makes a task runnable only if it was, or has attempts left. -/
def SaveRequest.KeepsReady (r : SaveRequest) (t : Task) : Prop :=
  r.task.status.isRunnable → t.attempts < t.maxAttempts ∨ t.status.isRunnable

namespace TaskQueue

variable {store : TaskStore σ} {s : σ} {now : Instant} {r : SaveRequest}

theorem require_ok {taskId : String} {t : Task} (h : require store s taskId = .ok t) : store.get s taskId = some t := by
  unfold require at h
  split at h
  · rename_i task ht
    cases h
    exact ht
  · cases h

theorem requireRunning_ok {taskId : String} {t : Task} (h : requireRunning store s taskId = .ok t) :
    store.get s taskId = some t ∧ t.status = .running := by
  unfold requireRunning at h
  obtain ⟨task, htask, h⟩ := bind_ok h
  simp only [throw_eq_error, error_bind, pure_eq_ok] at h
  obtain ⟨hstatus, h⟩ := guard_ok h
  cases h
  exact ⟨require_ok htask, not_not.mp hstatus⟩

/-- A presented token is the task's, up to surrounding blanks. -/
theorem requireClaimToken_ok {t : Task} {claimToken : String} {u : Unit} (h : requireClaimToken t claimToken = .ok u) :
    t.claimToken.map Stripped.text = some (strip claimToken) := by
  unfold requireClaimToken at h
  obtain ⟨hc, _⟩ := guard_ok h
  exact not_not.mp (not_or.mp hc).2

/-- A stored token is already stripped, so it is the token it is compared with. -/
theorem strip_token {t : Task} {token : String}
    (h : t.claimToken.map Stripped.text = some token) : strip token = token := by
  obtain ⟨tok, _, rfl⟩ := Option.map_eq_some_iff.mp h
  exact tok.stripped

theorem heartbeat_reads {taskId claimToken : String} {leaseFor : Duration}
    (h : heartbeat store s taskId claimToken leaseFor now = .ok r) :
    ∃ t, store.get s taskId = some t ∧ r.Reads t ∧ r.KeepsReady t ∧
      t.claimToken.map Stripped.text = some (strip claimToken) := by
  unfold heartbeat at h
  simp only [throw_eq_error, error_bind, pure_eq_ok] at h
  obtain ⟨_, h⟩ := guard_ok h
  obtain ⟨t, ht, h⟩ := bind_ok h
  obtain ⟨hstatus, h⟩ := guard_ok h
  obtain ⟨_, htoken, h⟩ := bind_ok h
  obtain ⟨lease, _, h⟩ := bind_ok h
  obtain ⟨u, hu, h⟩ := bind_ok h
  obtain ⟨_, rfl⟩ := Task.modelValidate_ok hu
  cases h
  have hrun : t.status = .running := not_not.mp hstatus
  have htok := requireClaimToken_ok htoken
  refine ⟨t, require_ok ht, ⟨rfl, rfl, rfl, rfl, ?_, hrun.symm, ?_, ?_, fun _ => rfl⟩, ?_, htok⟩
  · show t.status.isTerminal = false
    rw [hrun]
    rfl
  · intro token he
    rw [← Option.some.inj he]
    exact htok
  · intro he
    cases he
  · intro hr
    exact .inr hr

theorem finish_reads {taskId : String} {status : TaskStatus} {error : Option String}
    {running : Bool} {claimToken : Option String}
    (h : finish store s taskId status error running claimToken now = .ok r) :
    ∃ t, store.get s taskId = some t ∧ r.Reads t ∧ r.KeepsReady t ∧ (running = true → ∃ token,
      claimToken = some token ∧ t.claimToken.map Stripped.text = some (strip token)) := by
  unfold finish at h
  simp only [throw_eq_error, error_bind, pure_eq_ok] at h
  obtain ⟨hstatus, h⟩ := guard_ok h
  obtain ⟨t, ht, h⟩ := bind_ok h
  obtain ⟨_, h⟩ := guard_ok h
  have hterm : status.isTerminal = true := by simpa using hstatus
  obtain ⟨hreq, h⟩ := check_ok h
  obtain ⟨hlive, h⟩ := guard_ok h
  obtain ⟨u, hu, h⟩ := bind_ok h
  obtain ⟨_, rfl⟩ := Task.modelValidate_ok hu
  cases h
  refine ⟨t, require_ok ht, ⟨rfl, rfl, rfl, rfl, ?_, rfl, ?_, ?_, ?_⟩, ?_, ?_⟩
  · simpa using hlive
  · intro token he
    rw [strip_token he]
    exact he
  · intro he
    exact Option.map_eq_none_iff.mp he
  · intro hs
    exact absurd hs (TaskStatus.ne_running_of_isTerminal hterm)
  · intro hr
    have hr : status.isRunnable = true := hr
    rw [TaskStatus.isTerminal_of_isRunnable hr] at hterm
    cases hterm
  · intro hrun
    obtain ⟨_, hreq⟩ := hreq hrun
    cases claimToken with
    | none => cases hreq
    | some token => exact ⟨token, rfl, requireClaimToken_ok hreq⟩

/-- The updates of an attempt that failed: made again with attempts left, or given up. -/
structure Failed (updates : TaskFields) (t : Task) : Prop where
  taskId : updates.taskId = t.taskId
  dedupeKey : updates.dedupeKey = t.dedupeKey
  attempts : updates.attempts = t.attempts
  maxAttempts : updates.maxAttempts = t.maxAttempts
  status : updates.status = .deferred ∧ t.attempts < t.maxAttempts ∨ updates.status = .failed

theorem Failed.ne_running {updates : TaskFields} {t : Task} (h : Failed updates t) : updates.status ≠ .running := by
  intro hr
  rcases h.status with ⟨hs, _⟩ | hs <;> rw [hs] at hr <;> cases hr

theorem Failed.attempts_lt {updates : TaskFields} {t : Task} (h : Failed updates t)
    (hr : updates.status.isRunnable) : t.attempts < t.maxAttempts := by
  rcases h.status with ⟨_, hlt⟩ | hs
  · exact hlt
  · rw [hs] at hr
    cases hr

theorem retry_failed {t : Task} {delay : Duration} {updates : TaskFields}
    (hlt : t.attempts < t.maxAttempts) (h : retry t delay now = .ok updates) : Failed updates t := by
  unfold retry at h
  obtain ⟨availableAt, _, h⟩ := bind_ok h
  cases h
  exact ⟨rfl, rfl, rfl, rfl, .inl ⟨rfl, hlt⟩⟩

theorem giveUp_failed (t : Task) (now : Instant) : Failed (giveUp t now) t :=
  ⟨rfl, rfl, rfl, rfl, .inr rfl⟩

theorem failUpdates_failed {t : Task} {retryDelay : Option Duration} {updates : TaskFields}
    (h : failUpdates t retryDelay now = .ok updates) : Failed updates t := by
  cases retryDelay with
  | none =>
    cases h
    exact giveUp_failed t now
  | some delay =>
    unfold failUpdates at h
    dsimp only at h
    split at h
    · rename_i hlt
      exact retry_failed hlt (guard_ok h).2
    · cases h
      exact giveUp_failed t now

theorem recoverUpdates_failed {t : Task} {retryDelay : Duration} {updates : TaskFields}
    (h : recoverUpdates t retryDelay now = .ok updates) : Failed updates t := by
  unfold recoverUpdates at h
  split at h
  · rename_i hlt
    exact retry_failed hlt h
  · cases h
    exact giveUp_failed t now

theorem fail_reads {taskId claimToken error : String} {retryDelay : Option Duration}
    (h : fail store s taskId claimToken error retryDelay now = .ok r) :
    ∃ t, store.get s taskId = some t ∧ r.Reads t ∧ r.KeepsReady t ∧
      t.claimToken.map Stripped.text = some (strip claimToken) := by
  unfold fail at h
  simp only [pure_eq_ok] at h
  obtain ⟨t, ht, h⟩ := bind_ok h
  obtain ⟨_, htoken, h⟩ := bind_ok h
  obtain ⟨updates, hupdates, h⟩ := bind_ok h
  obtain ⟨u, hu, h⟩ := bind_ok h
  obtain ⟨_, rfl⟩ := Task.modelValidate_ok hu
  cases h
  obtain ⟨ht, hrun⟩ := requireRunning_ok ht
  have htok := requireClaimToken_ok htoken
  have hf := failUpdates_failed hupdates
  refine ⟨t, ht, ⟨hf.taskId, hf.dedupeKey, hf.attempts, hf.maxAttempts, ?_, hrun.symm, ?_, ?_, ?_⟩,
    ?_, htok⟩
  · show t.status.isTerminal = false
    rw [hrun]
    rfl
  · intro token he
    rw [← Option.some.inj he]
    exact htok
  · intro he
    cases he
  · intro hr
    exact absurd hr hf.ne_running
  · intro hr
    exact .inl (hf.attempts_lt hr)

theorem defer_reads {taskId : String} {delay : Duration} {reason : Option String}
    (h : defer store s taskId delay reason now = .ok r) :
    ∃ t, store.get s taskId = some t ∧ r.Reads t ∧ r.KeepsReady t := by
  unfold defer at h
  simp only [throw_eq_error, error_bind, pure_eq_ok] at h
  obtain ⟨_, h⟩ := guard_ok h
  obtain ⟨t, ht, h⟩ := bind_ok h
  obtain ⟨hstatus, h⟩ := guard_ok h
  obtain ⟨availableAt, _, h⟩ := bind_ok h
  obtain ⟨u, hu, h⟩ := bind_ok h
  obtain ⟨_, rfl⟩ := Task.modelValidate_ok hu
  cases h
  have hrun : t.status.isRunnable = true := by simpa using hstatus
  refine ⟨t, require_ok ht, ⟨rfl, rfl, rfl, rfl, ?_, rfl, ?_, ?_, ?_⟩, ?_⟩
  · exact TaskStatus.isTerminal_of_isRunnable hrun
  · intro token he
    cases he
  · intro _
    exact Task.claimToken_none (TaskStatus.ne_running_of_isRunnable hrun)
  · intro hr
    cases hr
  · intro _
    exact .inr hrun

theorem sendToReview_reads {taskId reason : String} (h : sendToReview store s taskId reason now = .ok r) :
    ∃ t, store.get s taskId = some t ∧ r.Reads t ∧ r.KeepsReady t := by
  unfold sendToReview at h
  simp only [throw_eq_error, error_bind, pure_eq_ok] at h
  obtain ⟨t, ht, h⟩ := bind_ok h
  obtain ⟨hlive, h⟩ := guard_ok h
  obtain ⟨u, hu, h⟩ := bind_ok h
  obtain ⟨_, rfl⟩ := Task.modelValidate_ok hu
  cases h
  refine ⟨t, require_ok ht, ⟨rfl, rfl, rfl, rfl, ?_, rfl, ?_, ?_, ?_⟩, ?_⟩
  · simpa using hlive
  · intro token he
    rw [strip_token he]
    exact he
  · intro he
    exact Option.map_eq_none_iff.mp he
  · intro hr
    cases hr
  · intro hr
    cases hr

theorem releaseReview_reads {taskId : String} {delay : Duration} (h : releaseReview store s taskId delay now = .ok r) :
    ∃ t, store.get s taskId = some t ∧ r.Reads t ∧ t.status = .review := by
  unfold releaseReview at h
  simp only [throw_eq_error, error_bind, pure_eq_ok] at h
  obtain ⟨_, h⟩ := guard_ok h
  obtain ⟨t, ht, h⟩ := bind_ok h
  obtain ⟨hstatus, h⟩ := guard_ok h
  obtain ⟨availableAt, _, h⟩ := bind_ok h
  obtain ⟨u, hu, h⟩ := bind_ok h
  obtain ⟨_, rfl⟩ := Task.modelValidate_ok hu
  cases h
  have hrev : t.status = .review := not_not.mp hstatus
  refine ⟨t, require_ok ht, ⟨rfl, rfl, rfl, rfl, ?_, hrev.symm, ?_, ?_, ?_⟩, hrev⟩
  · show t.status.isTerminal = false
    rw [hrev]
    rfl
  · intro token he
    cases he
  · intro _
    apply Task.claimToken_none
    rw [hrev]
    intro hr
    cases hr
  · intro hr
    have hr : (if delay = 0 then TaskStatus.pending else .deferred) = .running := hr
    split at hr <;> cases hr

/-- A round of the recovery rewrites a task whose lease has expired: it keeps it runnable only with
    attempts left. -/
theorem recover_reads {t : Task} {retryDelay : Duration} (hexp : leaseExpired t now = true)
    (h : recover t retryDelay now = .ok r) : r.Reads t ∧ r.KeepsReady t ∧ t.status = .running := by
  have hrun : t.status = .running := by
    simp only [leaseExpired, Bool.and_eq_true, decide_eq_true_eq] at hexp
    exact hexp.1
  unfold recover at h
  simp only [pure_eq_ok] at h
  obtain ⟨updates, hupdates, h⟩ := bind_ok h
  obtain ⟨u, hu, h⟩ := bind_ok h
  obtain ⟨_, rfl⟩ := Task.modelValidate_ok hu
  cases h
  have hf := recoverUpdates_failed hupdates
  refine ⟨⟨hf.taskId, hf.dedupeKey, hf.attempts, hf.maxAttempts, ?_, hrun.symm, ?_, ?_, ?_⟩, ?_,
    hrun⟩
  · show t.status.isTerminal = false
    rw [hrun]
    rfl
  · intro token he
    rw [strip_token he]
    exact he
  · intro he
    exact Option.map_eq_none_iff.mp he
  · intro hr
    exact absurd hr hf.ne_running
  · intro hr
    exact .inl (hf.attempts_lt hr)

end TaskQueue

/-- **What an operation requests**: it rewrites the task it is about, which has the token the
    operation presents; and only `release_review` makes a task runnable that was not and has no
    attempts left. -/
theorem QueueOp.prepare_reads {store : TaskStore σ} {s : σ} {now : Instant} {op : QueueOp}
    {r : SaveRequest} (h : op.prepare store s now = .ok r) : ∃ t, store.get s op.taskId = some t ∧ r.Reads t ∧
      (∀ token, op.claimToken? = some token → t.claimToken.map Stripped.text = some (strip token)) ∧
      (r.KeepsReady t ∨ t.status = .review ∧ ∃ delay, op = .releaseReview op.taskId delay) := by
  have hnone : ∀ (t : Task) token, (none : Option String) = some token →
      t.claimToken.map Stripped.text = some (strip token) := by
    intro t token he
    cases he
  have hsome : ∀ (t : Task) (claimToken : String),
      t.claimToken.map Stripped.text = some (strip claimToken) → ∀ token,
        some claimToken = some token → t.claimToken.map Stripped.text = some (strip token) := by
    intro t claimToken htok token he
    rw [← Option.some.inj he]
    exact htok
  cases op with
  | heartbeat taskId claimToken leaseFor =>
    obtain ⟨t, ht, hr, hready, htok⟩ := TaskQueue.heartbeat_reads h
    exact ⟨t, ht, hr, hsome t claimToken htok, .inl hready⟩
  | succeed taskId claimToken =>
    have h : TaskQueue.finish store s taskId .succeeded none true (some claimToken) now = .ok r := h
    obtain ⟨t, ht, hr, hready, htok⟩ := TaskQueue.finish_reads h
    obtain ⟨token, he, htok⟩ := htok rfl
    rw [← Option.some.inj he] at htok
    exact ⟨t, ht, hr, hsome t claimToken htok, .inl hready⟩
  | fail taskId claimToken error retryDelay =>
    obtain ⟨t, ht, hr, hready, htok⟩ := TaskQueue.fail_reads h
    exact ⟨t, ht, hr, hsome t claimToken htok, .inl hready⟩
  | defer taskId delay reason =>
    obtain ⟨t, ht, hr, hready⟩ := TaskQueue.defer_reads h
    exact ⟨t, ht, hr, hnone t, .inl hready⟩
  | block taskId reason =>
    have h : TaskQueue.finish store s taskId .blocked (some reason) false none now = .ok r := h
    obtain ⟨t, ht, hr, hready, _⟩ := TaskQueue.finish_reads h
    exact ⟨t, ht, hr, hnone t, .inl hready⟩
  | sendToReview taskId reason =>
    obtain ⟨t, ht, hr, hready⟩ := TaskQueue.sendToReview_reads h
    exact ⟨t, ht, hr, hnone t, .inl hready⟩
  | releaseReview taskId delay =>
    obtain ⟨t, ht, hr, hrev⟩ := TaskQueue.releaseReview_reads h
    exact ⟨t, ht, hr, hnone t, .inr ⟨hrev, delay, rfl⟩⟩
  | cancel taskId reason =>
    have h : TaskQueue.finish store s taskId .cancelled reason false none now = .ok r := h
    obtain ⟨t, ht, hr, hready, _⟩ := TaskQueue.finish_reads h
    exact ⟨t, ht, hr, hnone t, .inl hready⟩

/-! ## What a step does -/

namespace QueueWorld

/-- The instances hold the request `r`: one is about to save it, or is recovering a task it
    rewrites. -/
inductive Holds (w : QueueWorld σ) (r : SaveRequest) : Prop where
  | saving {queue : ℕ} (h : w.busy queue = some (.saving r))
  | recovering {queue : ℕ} {remaining : List Task} {retryDelay : Duration} {now : Instant}
      {t : Task} (h : w.busy queue = some (.recovering remaining retryDelay now))
      (mem : t ∈ remaining) (expired : TaskQueue.leaseExpired t now = true)
      (request : TaskQueue.recover t retryDelay now = .ok r)

theorem Holds.setBusy_none {w : QueueWorld σ} {queue : ℕ} {r : SaveRequest}
    (h : (w.setBusy queue none).Holds r) : w.Holds r := by
  cases h with
  | @saving q h =>
    simp only [setBusy] at h
    split at h
    · cases h
    · exact .saving h
  | @recovering q _ _ _ _ h mem expired request =>
    simp only [setBusy] at h
    split at h
    · cases h
    · exact .recovering h mem expired request

/-- The history after a save of `r` over `previous`. -/
def historyAfterSave (history : List QueueEvent) (previous : Task) (r : SaveRequest) :
    List QueueEvent :=
  match previous.claimToken with
  | some token =>
    if r.task.status = .running then history else .ended r.task.taskId token :: history
  | none => history

/-- What one step does to the store and the history. -/
inductive Effect {store : TaskStore σ} (L : store.Lawful) (cmd : QueueCmd) (w w' : QueueWorld σ) :
    Prop where
  | quiet (store_eq : w'.store = w.store) (history_eq : w'.history = w.history)
  | inserted {task t : Task} {now : Instant} {runId : Option String} {foreignKeys : Bool}
      (cmd_eq : cmd = .enqueue task now runId foreignKeys)
      (fresh : store.get w.store t.taskId = none) (runnable : t.status.isRunnable)
      (attempts : t.attempts = task.attempts) (wf : L.Wf w'.store)
      (get_eq : ∀ id, store.get w'.store id =
        if id = t.taskId then some t else store.get w.store id)
      (history_eq : w'.history = w.history)
  | claimed {taskId : String} {leaseFor : Duration} {now leaseExpiresAt : Instant}
      {token : Stripped} {runId : Option String} {t : Task}
      (cmd_eq : cmd = .claim taskId leaseFor now token runId)
      (present : store.get w.store taskId = some t) (claimable : t.Claimable now)
      (wf : L.Wf w'.store)
      (get_eq : ∀ id, store.get w'.store id = if id = taskId then
        some (t.claimed claimable.2.2 now leaseExpiresAt token) else store.get w.store id)
      (history_eq : w'.history = .claimed taskId token (t.attempts + 1) :: w.history)
  | saved {r : SaveRequest} {previous : Task} (holds : w.Holds r)
      (source : (∃ queue, cmd = .proceed queue ∧ w.busy queue = some (.saving r)) ∨
        r.expectedStatus = .running)
      (present : store.get w.store r.task.taskId = some previous) (won : r.Matches previous)
      (wf : L.Wf w'.store)
      (get_eq : ∀ id, store.get w'.store id =
        if id = r.task.taskId then some (L.reread r.task) else store.get w.store id)
      (history_eq : w'.history = historyAfterSave w.history previous r)

/-- **What one step does**: one effect, and the requests held after it were held before or have just
    been read. -/
structure StepSpec {store : TaskStore σ} (L : store.Lawful) (cmd : QueueCmd)
    (w w' : QueueWorld σ) : Prop where
  effect : Effect L cmd w w'
  holds : ∀ r, w'.Holds r → w.Holds r ∨
    (∃ queue op now, cmd = .start queue op now ∧ op.prepare store w.store now = .ok r) ∨
    ∃ queue retryDelay now id t, cmd = .startRecovery queue retryDelay now ∧
      store.get w.store id = some t ∧ TaskQueue.leaseExpired t now = true ∧
      TaskQueue.recover t retryDelay now = .ok r

/-- What the requests held have to satisfy for a save to be lawful: they would rewrite an unfinished
    task under the key it is stored with. -/
structure HoldsOk (store : TaskStore σ) (w : QueueWorld σ) : Prop where
  live : ∀ r, w.Holds r → r.expectedStatus.isTerminal = false
  dedupeKey : ∀ r, w.Holds r → ∀ previous, store.get w.store r.task.taskId = some previous →
    previous.dedupeKey = r.task.dedupeKey

section Step

variable {store : TaskStore σ} {L : store.Lawful} {w : QueueWorld σ} {cmd : QueueCmd}

/-- A save either changes nothing and raises, or wins the compare. -/
theorem save_cases (hwf : L.Wf w.store) (hok : HoldsOk store w) {r : SaveRequest} (hr : w.Holds r) :
    (∃ e, w.save store r = (.error e, w)) ∨
    (∃ previous, store.get w.store r.task.taskId = some previous ∧ r.Matches previous ∧
      ∃ s', L.Wf s' ∧ (∀ id, store.get s' id =
          if id = r.task.taskId then some (L.reread r.task) else store.get w.store id) ∧
        w.save store r = (.ok (L.reread r.task),
          { w with store := s', history := historyAfterSave w.history previous r })) := by
  cases hprev : store.get w.store r.task.taskId with
  | none =>
    obtain ⟨message, hsave⟩ := L.save_unknown _ r hwf hprev
    exact .inl ⟨.keyError message, by simp only [QueueWorld.save, hsave]⟩
  | some previous =>
    by_cases hm : r.Matches previous
    · have hlive : previous.isTerminal = false := by
        show previous.status.isTerminal = false
        rw [hm.1]
        exact hok.live r hr
      obtain ⟨hres, hwf', hget⟩ :=
        L.save_ok _ r previous hwf hprev hm hlive (hok.dedupeKey r hr previous hprev)
      refine .inr ⟨previous, rfl, hm, (store.save w.store r).2, hwf', hget, ?_⟩
      have hpair : store.save w.store r =
          (.ok (L.reread r.task), (store.save w.store r).2) := Prod.ext hres rfl
      unfold QueueWorld.save
      rw [hpair]
      cases hclaim : previous.claimToken <;>
        simp only [hprev, Option.bind_some, historyAfterSave, L.reread_status, hclaim]
    · obtain ⟨message, hsave⟩ := L.save_stale _ r previous hwf hprev hm
      exact .inl ⟨.valueError message, by simp only [QueueWorld.save, hsave]⟩

/-- A step that only touches what the instances hold, leaving less of it. -/
theorem StepSpec.drop {w' : QueueWorld σ} (hs : w'.store = w.store)
    (hh : w'.history = w.history) (hb : ∀ r, w'.Holds r → w.Holds r) : StepSpec L cmd w w' :=
  ⟨.quiet hs hh, fun r hr => .inl (hb r hr)⟩

/-- Going on with fewer tasks to recover. -/
theorem Holds.setBusy_recovering {queue : ℕ} {remaining remaining' : List Task}
    {retryDelay : Duration} {now : Instant} {r : SaveRequest}
    (hbusy : w.busy queue = some (.recovering remaining retryDelay now)) (hsub : remaining' ⊆ remaining)
    (h : (w.setBusy queue (some (.recovering remaining' retryDelay now))).Holds r) : w.Holds r := by
  cases h with
  | @saving q h =>
    simp only [setBusy] at h
    split at h
    · cases h
    · exact .saving h
  | @recovering q _ _ _ _ h mem expired request =>
    simp only [setBusy] at h
    split at h
    · cases h
      exact .recovering hbusy (hsub mem) expired request
    · exact .recovering h mem expired request

/-- The instances hold the same requests when only the store and the history change. -/
theorem holds_of_busy {w' : QueueWorld σ} {r : SaveRequest} (h : w'.Holds r) (hb : w'.busy = w.busy) : w.Holds r := by
  cases h with
  | saving h => exact .saving (hb ▸ h)
  | recovering h mem expired request => exact .recovering (hb ▸ h) mem expired request

theorem recoverStep_spec (hwf : L.Wf w.store) (hok : HoldsOk store w) {queue : ℕ}
    {remaining : List Task} {retryDelay : Duration} {now : Instant}
    (hbusy : w.busy queue = some (.recovering remaining retryDelay now)) :
    ∀ todo, todo ⊆ remaining →
      StepSpec L cmd w (recoverStep store w queue retryDelay now todo).2
  | [], _ => .drop rfl rfl fun _ hr => hr.setBusy_none
  | task :: todo, hsub => by
    obtain ⟨hmem, hsub⟩ := List.cons_subset.mp hsub
    unfold recoverStep
    split
    · rename_i hexp
      cases hreq : TaskQueue.recover task retryDelay now with
      | error e => exact .drop rfl rfl fun _ hr => hr.setBusy_none
      | ok r =>
        have hr : w.Holds r := .recovering hbusy hmem hexp hreq
        dsimp only
        rcases save_cases hwf hok hr with ⟨e, hsave⟩ |
          ⟨previous, hprev, hm, s', hwf', hget, hsave⟩
        · rw [hsave]
          cases e with
          | valueError message =>
            exact .drop rfl rfl fun _ hr => hr.setBusy_recovering hbusy hsub
          | _ => exact .drop rfl rfl fun _ hr => hr.setBusy_none
        · rw [hsave]
          have hrun : r.expectedStatus = .running := by
            obtain ⟨hreads, _, hstatus⟩ := TaskQueue.recover_reads hexp hreq
            rw [hreads.status, hstatus]
          refine ⟨.saved hr (.inr hrun) hprev hm hwf' hget rfl, fun r' hr' => .inl ?_⟩
          let saved := { w with store := s', history := historyAfterSave w.history previous r }
          exact holds_of_busy (Holds.setBusy_recovering (w := saved) hbusy hsub hr') rfl
    · exact recoverStep_spec hwf hok hbusy todo hsub

/-- **The step lemma.** -/
theorem step_spec (hwf : L.Wf w.store) (hok : HoldsOk store w)
    (henqueue : ∀ task now runId fk, cmd = .enqueue task now runId fk →
      ∀ old, store.get w.store task.taskId = some old → old.dedupeKey = task.dedupeKey) :
    StepSpec L cmd w (cmd.next store w) := by
  unfold QueueCmd.next
  cases cmd with
  | enqueue task now runId fk =>
    simp only [QueueCmd.step, TaskQueue.enqueue]
    split
    · exact .drop rfl rfl fun _ hr => holds_of_busy hr rfl
    · rename_i hrun
      let touched : Task :=
        ⟨{ task.toTaskFields with updatedAt := now }, { task.lifecycle with }⟩
      rcases L.put_law w.store touched runId fk hwf (henqueue task now runId fk rfl) with
        ⟨_, hnew, hwf', hget⟩ | ⟨_, hsame⟩
      · refine ⟨.inserted rfl (t := L.reread touched) ?_ ?_ ?_ hwf' ?_ rfl,
          fun r hr => .inl (holds_of_busy hr rfl)⟩
        · rw [L.reread_taskId]
          exact hnew
        · rw [L.reread_status]
          simpa using hrun
        · rw [L.reread_attempts]
        · rw [L.reread_taskId]
          exact hget
      · exact .drop hsame rfl fun _ hr => holds_of_busy hr rfl
  | claim taskId leaseFor now token runId =>
    have hsame : ∀ {e : PyError},
        TaskQueue.claim store w.store taskId leaseFor now token runId = (.error e, w.store) →
          StepSpec L (.claim taskId leaseFor now token runId) w
            ((QueueCmd.claim taskId leaseFor now token runId).step store w).2 := by
      intro e he
      simp only [QueueCmd.step, he]
      exact .drop rfl rfl fun _ hr => holds_of_busy hr rfl
    by_cases hlease : leaseFor ≤ 0
    · exact hsame (if_pos hlease)
    cases hexp : addDelta now leaseFor with
    | error e => exact hsame (e := e) (by simp only [TaskQueue.claim, if_neg hlease, hexp])
    | ok lease =>
      have hclaim : TaskQueue.claim store w.store taskId leaseFor now token runId =
          store.claim w.store taskId now lease token runId := by
        simp only [TaskQueue.claim, if_neg hlease, hexp]
      cases ht : store.get w.store taskId with
      | none =>
        obtain ⟨message, hraise⟩ := L.claim_unknown w.store taskId now lease token runId hwf ht
        exact hsame (hclaim.trans hraise)
      | some t =>
        by_cases hc : t.Claimable now
        · obtain ⟨hres, hwf', hget⟩ :=
            L.claim_ok w.store taskId now lease token runId t hwf ht hc
          have hpair : TaskQueue.claim store w.store taskId leaseFor now token runId =
              (.ok (t.claimed hc.2.2 now lease token),
                (store.claim w.store taskId now lease token runId).2) :=
            hclaim.trans (Prod.ext hres rfl)
          simp only [QueueCmd.step, hpair]
          exact ⟨.claimed rfl ht hc hwf' hget rfl,
            fun _ hr => .inl (holds_of_busy hr rfl)⟩
        · exact hsame (hclaim.trans
            (L.claim_refused w.store taskId now lease token runId t hwf ht hc))
  | start queue op now =>
    simp only [QueueCmd.step]
    cases hbusy : w.busy queue with
    | some pending => exact .drop rfl rfl fun _ hr => hr
    | none =>
      cases hop : op.prepare store w.store now with
      | error e => exact .drop rfl rfl fun _ hr => hr
      | ok request =>
        refine ⟨.quiet rfl rfl, fun r hr => ?_⟩
        cases hr with
        | saving h =>
          simp only [setBusy] at h
          split at h
          · cases h
            exact .inr (.inl ⟨queue, op, now, rfl, hop⟩)
          · exact .inl (.saving h)
        | recovering h mem expired request =>
          simp only [setBusy] at h
          split at h
          · cases h
          · exact .inl (.recovering h mem expired request)
  | startRecovery queue retryDelay now =>
    simp only [QueueCmd.step]
    cases hbusy : w.busy queue with
    | some pending => exact .drop rfl rfl fun _ hr => hr
    | none =>
      dsimp only
      split
      · exact .drop rfl rfl fun _ hr => hr
      · refine ⟨.quiet rfl rfl, fun r hr => ?_⟩
        cases hr with
        | saving h =>
          simp only [setBusy] at h
          split at h
          · cases h
          · exact .inl (.saving h)
        | recovering h mem expired request =>
          simp only [setBusy] at h
          split at h
          · cases h
            obtain ⟨id, hid⟩ := (L.all_law w.store _ hwf).mp mem
            exact .inr (.inr ⟨queue, retryDelay, now, id, _, rfl, hid, expired, request⟩)
          · exact .inl (.recovering h mem expired request)
  | proceed queue =>
    simp only [QueueCmd.step]
    cases hbusy : w.busy queue with
    | none => exact .drop rfl rfl fun _ hr => hr
    | some pending =>
      cases pending with
      | saving request =>
        have hr : w.Holds request := .saving hbusy
        dsimp only
        rcases save_cases hwf hok hr with ⟨e, hsave⟩ | ⟨previous, hprev, hm, s', hwf', hget, hsave⟩
        · rw [hsave]
          exact .drop rfl rfl fun _ hr => hr.setBusy_none
        · rw [hsave]
          refine ⟨.saved hr (.inl ⟨queue, rfl, hbusy⟩) hprev hm hwf' hget rfl,
            fun r' hr' => .inl ?_⟩
          exact holds_of_busy hr'.setBusy_none rfl
      | recovering remaining retryDelay now =>
        exact recoverStep_spec hwf hok hbusy remaining (List.Subset.refl _)
  | abandon queue => exact .drop rfl rfl fun _ hr => hr.setBusy_none

end Step

end QueueWorld

end NightScout
