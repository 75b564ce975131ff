import NightScout.Core.QueueSteps
import NightScout.Core.InMemoryTaskStore
import NightScout.Storage.SQLiteTaskStore
import NightScout.Lib.Run

/-!
# Runs of the queue

The invariant of any number of queues over one lawful store, and what it says about runs.

The token is the fence. A claim draws a fresh one, a row carries the token of the claim it is in, and
a save goes through only if the row still carries the token the operation read; so whatever a held
request knows about the claim it belongs to is still true when it is saved. `QueueWorld.Inv` says
this of the rows and of the requests, over the history of claims and ends.

What the fence does not cover is a task *between* claims: there the token is absent, two reads of the
same status look alike, and a save writes the attempts it read. `savesWhatItRead` is the condition
under which that does no harm.
-/

namespace NightScout

open Lib

variable {σ : Type}

/-! ## What a history says -/

namespace QueueEvent

/-- The token an event grants. -/
def granted? : QueueEvent → Option Stripped
  | claimed _ token _ => some token
  | ended .. => none

/-- The token an event ends. -/
def ended? : QueueEvent → Option Stripped
  | claimed .. => none
  | ended _ token => some token

/-- The event is a claim of the task. -/
def claims (taskId : String) : QueueEvent → Bool
  | claimed id _ _ => id = taskId
  | ended .. => false

end QueueEvent

/-- How many claims of a task succeeded. -/
def claimCount (taskId : String) (history : List QueueEvent) : ℕ :=
  history.countP (QueueEvent.claims taskId)

/-- How often a claim was ended. -/
def endCount (token : Stripped) (history : List QueueEvent) : ℕ :=
  history.countP fun e => e.ended? = some token

/-- The token of the last claim of a task. -/
def lastGranted (taskId : String) : List QueueEvent → Option Stripped
  | [] => none
  | .claimed id token _ :: history => if id = taskId then some token else lastGranted taskId history
  | .ended .. :: history => lastGranted taskId history

/-- The token was granted for the task, and its claim has not been ended. -/
def LiveClaim (taskId : String) (token : Stripped) (history : List QueueEvent) : Prop :=
  (∃ attempt, QueueEvent.claimed taskId token attempt ∈ history) ∧ endCount token history = 0

section History

variable {taskId : String} {token token' : Stripped} {attempt : ℕ} {history : List QueueEvent}

@[simp] theorem endCount_claimed :
    endCount token (.claimed taskId token' attempt :: history) = endCount token history := by
  simp [endCount, QueueEvent.ended?]

theorem endCount_ended : endCount token (.ended taskId token' :: history) =
    endCount token history + if token' = token then 1 else 0 := by
  simp [endCount, QueueEvent.ended?, List.countP_cons]

theorem claimCount_claimed {id : String} : claimCount id (.claimed taskId token attempt :: history) =
      claimCount id history + if taskId = id then 1 else 0 := by
  simp [claimCount, QueueEvent.claims, List.countP_cons]

@[simp] theorem claimCount_ended {id : String} :
    claimCount id (.ended taskId token :: history) = claimCount id history := by
  simp [claimCount, QueueEvent.claims]

end History

/-! ## What is asked of the environment -/

/-- Tokens are fresh, and an enqueued task is: it has not been attempted, and its identifier is not
    that of another logical task. -/
def QueueCmd.Fresh (store : TaskStore σ) (w : QueueWorld σ) : QueueCmd → Prop
  | .enqueue task .. => task.attempts = 0 ∧
      ∀ old ∈ store.get w.store task.taskId, old.dedupeKey = task.dedupeKey
  | .claim _ _ _ token _ => ∀ e ∈ w.history, e.granted? ≠ some token
  | _ => True

instance (store : TaskStore σ) (w : QueueWorld σ) (cmd : QueueCmd) :
    Decidable (cmd.Fresh store w) := by
  cases cmd <;> unfold QueueCmd.Fresh <;> infer_instance

/-- The save an instance is about to make, if it wins its compare, finds the attempts it read. -/
def QueueCmd.SavesWhatItRead (store : TaskStore σ) (w : QueueWorld σ) : QueueCmd → Prop
  | .proceed queue =>
    match w.busy queue with
    | some (.saving request) => ∀ previous ∈ store.get w.store request.task.taskId,
        request.Matches previous → previous.attempts = request.task.attempts
    | _ => True
  | _ => True

instance (store : TaskStore σ) (w : QueueWorld σ) (cmd : QueueCmd) :
    Decidable (cmd.SavesWhatItRead store w) := by
  unfold QueueCmd.SavesWhatItRead
  split
  · split <;> infer_instance
  · infer_instance

/-! ## The invariant -/

namespace QueueWorld

/-- What stays true of a task that was read: its row keeps the key and the bound on the attempts, and
    its claim is the one with its attempt. -/
structure ReadOk (store : TaskStore σ) (w : QueueWorld σ) (t : Task) : Prop where
  row : ∃ current, store.get w.store t.taskId = some current ∧
    current.dedupeKey = t.dedupeKey ∧ current.maxAttempts = t.maxAttempts
  claim : ∀ token, t.claimToken = some token →
    QueueEvent.claimed t.taskId token t.attempts ∈ w.history

structure Inv {store : TaskStore σ} (L : store.Lawful) (w : QueueWorld σ) : Prop where
  wf : L.Wf w.store
  holds : ∀ r, w.Holds r → ∃ t, r.Reads t ∧ ReadOk store w t
  current : ∀ id t token, store.get w.store id = some t → t.claimToken = some token →
    lastGranted id w.history = some token ∧
      QueueEvent.claimed id token t.attempts ∈ w.history ∧ endCount token w.history = 0
  live : ∀ id token, LiveClaim id token w.history →
    ∃ t, store.get w.store id = some t ∧ t.claimToken = some token
  ends : ∀ token, endCount token w.history ≤ 1
  known : ∀ id token, QueueEvent.ended id token ∈ w.history →
    ∃ attempt, QueueEvent.claimed id token attempt ∈ w.history
  unique : ∀ id id' token n n', QueueEvent.claimed id token n ∈ w.history →
    QueueEvent.claimed id' token n' ∈ w.history → id = id' ∧ n = n'

section Step

variable {store : TaskStore σ} {L : store.Lawful} {w w' : QueueWorld σ} {cmd : QueueCmd}

theorem Inv.initial : Inv L { store := store.empty } where
  wf := L.wf_empty
  holds r h := by
    cases h with
    | saving h => cases h
    | recovering h => cases h
  current id t token ht := by
    rw [L.get_empty] at ht
    cases ht
  live id token h := by
    obtain ⟨⟨_, h⟩, _⟩ := h
    cases h
  ends token := Nat.zero_le 1
  known id token h := by cases h
  unique id id' token n n' h := by cases h

theorem Inv.holdsOk (h : Inv L w) : HoldsOk store w where
  live r hr := by
    obtain ⟨t, hreads, _⟩ := h.holds r hr
    rw [hreads.status]
    exact hreads.live
  dedupeKey r hr previous hprev := by
    obtain ⟨t, hreads, ⟨current, hcur, hkey, _⟩, _⟩ := h.holds r hr
    rw [hreads.taskId, hcur] at hprev
    cases hprev
    rw [hkey, hreads.dedupeKey]

/-- A stored task is one that can be read. -/
theorem Inv.readOk (h : Inv L w) {id : String} {t : Task} (ht : store.get w.store id = some t) : ReadOk store w t := by
  have hid := L.get_taskId _ _ _ h.wf ht
  refine ⟨⟨t, by rw [hid]; exact ht, rfl, rfl⟩, fun token htok => ?_⟩
  rw [hid]
  exact (h.current id t token ht htok).2.1

/-- The requests held after a step come from tasks that were read before it. -/
theorem Inv.holds_step (h : Inv L w) (hstep : StepSpec L cmd w w') {r : SaveRequest}
    (hr : w'.Holds r) : ∃ t, r.Reads t ∧ ReadOk store w t := by
  rcases hstep.holds r hr with hr | ⟨queue, op, now, _, hop⟩ |
    ⟨queue, retryDelay, now, id, t, _, ht, hexp, hreq⟩
  · exact h.holds r hr
  · obtain ⟨t, ht, hreads, _, _⟩ := QueueOp.prepare_reads hop
    exact ⟨t, hreads, h.readOk ht⟩
  · exact ⟨t, (TaskQueue.recover_reads hexp hreq).1, h.readOk ht⟩

/-- A row that wins the compare is in the claim of the task the request read. -/
theorem claimToken_of_matches {r : SaveRequest} {t previous : Task} (hreads : r.Reads t)
    (hm : r.Matches previous) : t.claimToken = previous.claimToken := by
  cases hprev : previous.claimToken with
  | none =>
    have he : r.expectedClaimToken = none := by
      rw [← hm.2.1, hprev]
      rfl
    exact hreads.no_token he
  | some token =>
    have he : r.expectedClaimToken = some token.text := by
      rw [← hm.2.1, hprev]
      rfl
    have ht := hreads.token _ he
    rw [token.stripped] at ht
    obtain ⟨token', ht', htext⟩ := Option.map_eq_some_iff.mp ht
    rw [ht', Stripped.ext_text htext]

/-- The token of the row a save leaves: that of the claim it was in, or none. -/
theorem claimToken_after_save {r : SaveRequest} {t previous : Task} (hreads : r.Reads t) (hm : r.Matches previous) :
    r.task.claimToken = if r.task.status = .running then previous.claimToken else none := by
  split
  · rename_i hrun
    rw [hreads.running hrun, claimToken_of_matches hreads hm]
  · rename_i hrun
    exact Task.claimToken_none hrun

/-- A rewritten row keeps what is known of the tasks that were read. -/
theorem ReadOk.step {t : Task} (h : ReadOk store w t) (hrow : ∀ current, store.get w.store t.taskId = some current →
      ∃ current', store.get w'.store t.taskId = some current' ∧
        current'.dedupeKey = current.dedupeKey ∧ current'.maxAttempts = current.maxAttempts)
    (hhist : ∀ id token n, QueueEvent.claimed id token n ∈ w.history →
      QueueEvent.claimed id token n ∈ w'.history) : ReadOk store w' t := by
  obtain ⟨⟨current, hcur, hkey, hmax⟩, hclaim⟩ := h
  obtain ⟨current', hcur', hkey', hmax'⟩ := hrow current hcur
  exact ⟨⟨current', hcur', hkey'.trans hkey, hmax'.trans hmax⟩,
    fun token htok => hhist _ _ _ (hclaim token htok)⟩

/-! ### One lemma for each effect -/

theorem Inv.quiet (h : Inv L w) (hstep : StepSpec L cmd w w') (hs : w'.store = w.store)
    (hh : w'.history = w.history) : Inv L w' := by
  refine ⟨hs ▸ h.wf, fun r hr => ?_, ?_, ?_, ?_, ?_, ?_⟩
  · obtain ⟨t, hreads, hok⟩ := h.holds_step hstep hr
    refine ⟨t, hreads, hok.step (fun current hcur => ⟨current, hs ▸ hcur, rfl, rfl⟩) ?_⟩
    intro _ _ _ hmem
    exact hh ▸ hmem
  · rw [hs, hh]
    exact h.current
  · rw [hs, hh]
    exact h.live
  · rw [hh]
    exact h.ends
  · rw [hh]
    exact h.known
  · rw [hh]
    exact h.unique

theorem Inv.inserted (h : Inv L w) (hstep : StepSpec L cmd w w') {t : Task}
    (hfresh : store.get w.store t.taskId = none) (hrun : t.status.isRunnable) (hwf : L.Wf w'.store)
    (hget : ∀ id, store.get w'.store id = if id = t.taskId then some t else store.get w.store id)
    (hh : w'.history = w.history) : Inv L w' := by
  have hold : ∀ id u, store.get w.store id = some u → store.get w'.store id = some u := by
    intro id u hu
    have hne : id ≠ t.taskId := by
      rintro rfl
      rw [hfresh] at hu
      cases hu
    rw [hget, if_neg hne]
    exact hu
  refine ⟨hwf, fun r hr => ?_, ?_, ?_, ?_, ?_, ?_⟩
  · obtain ⟨u, hreads, hok⟩ := h.holds_step hstep hr
    refine ⟨u, hreads, hok.step (fun current hcur => ⟨current, hold _ _ hcur, rfl, rfl⟩) ?_⟩
    intro _ _ _ hmem
    exact hh ▸ hmem
  · intro id u token hu htok
    rw [hget] at hu
    split at hu
    · cases hu
      rw [Task.claimToken_none (TaskStatus.ne_running_of_isRunnable hrun)] at htok
      cases htok
    · rw [hh]
      exact h.current id u token hu htok
  · intro id token hlive
    rw [hh] at hlive
    obtain ⟨u, hu, htok⟩ := h.live id token hlive
    exact ⟨u, hold id u hu, htok⟩
  · rw [hh]
    exact h.ends
  · rw [hh]
    exact h.known
  · rw [hh]
    exact h.unique

theorem Inv.claimed (h : Inv L w) (hstep : StepSpec L cmd w w') {taskId : String} {now : Instant}
    {leaseExpiresAt : Instant} {token : Stripped} {t : Task} (htoken : ∀ e ∈ w.history, e.granted? ≠ some token)
    (hpresent : store.get w.store taskId = some t) (hc : t.Claimable now) (hwf : L.Wf w'.store)
    (hget : ∀ id, store.get w'.store id = if id = taskId then
      some (t.claimed hc.2.2 now leaseExpiresAt token) else store.get w.store id)
    (hh : w'.history = .claimed taskId token (t.attempts + 1) :: w.history) : Inv L w' := by
  have hfresh : ∀ id n, QueueEvent.claimed id token n ∉ w.history := by
    intro id n hmem
    exact htoken _ hmem rfl
  -- so the token has not been ended either
  have hend : endCount token w.history = 0 := by
    unfold endCount
    rw [List.countP_eq_zero]
    intro e he hcount
    cases e with
    | claimed _ _ _ => cases hcount
    | ended id tok =>
      simp only [QueueEvent.ended?, decide_eq_true_eq, Option.some.injEq] at hcount
      subst hcount
      obtain ⟨n, hmem⟩ := h.known id tok he
      exact hfresh id n hmem
  have hnone : t.claimToken = none :=
    Task.claimToken_none (TaskStatus.ne_running_of_isRunnable hc.1)
  refine ⟨hwf, fun r hr => ?_, ?_, ?_, ?_, ?_, ?_⟩
  · obtain ⟨u, hreads, hok⟩ := h.holds_step hstep hr
    refine ⟨u, hreads, hok.step (fun current hcur => ?_) ?_⟩
    · rw [hget]
      split
      · rename_i hid
        rw [hid, hpresent] at hcur
        cases hcur
        exact ⟨_, rfl, rfl, rfl⟩
      · exact ⟨current, hcur, rfl, rfl⟩
    · intro _ _ _ hmem
      rw [hh]
      exact List.mem_cons_of_mem _ hmem
  · intro id u tok hu htok
    rw [hget] at hu
    rw [hh, endCount_claimed]
    split at hu
    · rename_i hid
      cases hu
      cases htok
      subst hid
      exact ⟨if_pos rfl, List.mem_cons_self, hend⟩
    · rename_i hid
      obtain ⟨hlast, hmem, hcount⟩ := h.current id u tok hu htok
      exact ⟨(if_neg (Ne.symm hid)).trans hlast, List.mem_cons_of_mem _ hmem, hcount⟩
  · rintro id tok ⟨⟨n, hmem⟩, hcount⟩
    rw [hh, endCount_claimed] at hcount
    rw [hh] at hmem
    rw [hget]
    rcases List.mem_cons.mp hmem with heq | hmem
    · cases heq
      exact ⟨_, if_pos rfl, rfl⟩
    · obtain ⟨u, hu, htok⟩ := h.live id tok ⟨⟨n, hmem⟩, hcount⟩
      have hne : id ≠ taskId := by
        rintro rfl
        rw [hpresent] at hu
        cases hu
        rw [hnone] at htok
        cases htok
      exact ⟨u, (if_neg hne).trans hu, htok⟩
  · intro tok
    rw [hh, endCount_claimed]
    exact h.ends tok
  · intro id tok hmem
    rw [hh] at hmem ⊢
    rcases List.mem_cons.mp hmem with heq | hmem
    · cases heq
    · obtain ⟨n, hmem⟩ := h.known id tok hmem
      exact ⟨n, List.mem_cons_of_mem _ hmem⟩
  · intro id id' tok n n' hmem hmem'
    rw [hh] at hmem hmem'
    rcases List.mem_cons.mp hmem with heq | hmem <;> rcases List.mem_cons.mp hmem' with heq' | hmem'
    · cases heq
      cases heq'
      exact ⟨rfl, rfl⟩
    · cases heq
      exact absurd hmem' (hfresh _ _)
    · cases heq'
      exact absurd hmem (hfresh _ _)
    · exact h.unique id id' tok n n' hmem hmem'

/-- The history after a save: the same, or with the end of the claim the row was in. -/
theorem historyAfterSave_cases (history : List QueueEvent) (previous : Task) (r : SaveRequest) :
    (historyAfterSave history previous r = history ∧ (previous.claimToken = none ∨ r.task.status = .running)) ∨
    ∃ token, previous.claimToken = some token ∧ r.task.status ≠ .running ∧
      historyAfterSave history previous r = .ended r.task.taskId token :: history := by
  unfold historyAfterSave
  cases htok : previous.claimToken with
  | none => exact .inl ⟨rfl, .inl rfl⟩
  | some token =>
    dsimp only
    split
    · exact .inl ⟨rfl, .inr ‹_›⟩
    · exact .inr ⟨token, rfl, ‹_›, rfl⟩

section Saved

variable {r : SaveRequest} {t previous : Task}

/-- The rows a save leaves, as the tasks read before it see them. -/
theorem ReadOk.saved {u : Task} (hu : ReadOk store w u) (hreads : r.Reads t)
    (hread : ReadOk store w t) (hpresent : store.get w.store r.task.taskId = some previous)
    (hget : ∀ id, store.get w'.store id =
      if id = r.task.taskId then some (L.reread r.task) else store.get w.store id)
    (hhist : ∀ id token n, QueueEvent.claimed id token n ∈ w.history →
      QueueEvent.claimed id token n ∈ w'.history) : ReadOk store w' u := by
  refine hu.step (fun current hcur => ?_) hhist
  rw [hget]
  split
  · rename_i hid
    rw [hid, hpresent] at hcur
    cases hcur
    obtain ⟨⟨current', hcur', hkey, hmax⟩, _⟩ := hread
    rw [← hreads.taskId, hpresent] at hcur'
    cases hcur'
    refine ⟨_, rfl, ?_, ?_⟩
    · rw [L.reread_dedupeKey, hreads.dedupeKey, hkey]
    · rw [L.reread_maxAttempts, hreads.maxAttempts, hmax]
  · exact ⟨current, hcur, rfl, rfl⟩

/-- A save that leaves the row in the claim it was in, or in none. -/
theorem Inv.saved_keeps (h : Inv L w) (hstep : StepSpec L cmd w w') (hreads : r.Reads t)
    (hread : ReadOk store w t) (hpresent : store.get w.store r.task.taskId = some previous)
    (hm : r.Matches previous) (hwf : L.Wf w'.store) (hget : ∀ id, store.get w'.store id =
      if id = r.task.taskId then some (L.reread r.task) else store.get w.store id)
    (htoken : r.task.claimToken = previous.claimToken) (hh : w'.history = w.history) : Inv L w' := by
  refine ⟨hwf, fun r' hr' => ?_, ?_, ?_, ?_, ?_, ?_⟩
  · obtain ⟨u, hu, hok⟩ := h.holds_step hstep hr'
    refine ⟨u, hu, hok.saved hreads hread hpresent hget fun _ _ _ hmem => ?_⟩
    rw [hh]
    exact hmem
  · intro id u token hu htok
    rw [hget] at hu
    rw [hh]
    split at hu
    · rename_i hid
      cases hu
      rw [L.reread_claimToken, htoken] at htok
      rw [L.reread_attempts, hreads.attempts, hid]
      obtain ⟨hlast, _, hcount⟩ := h.current _ previous token hpresent htok
      refine ⟨hlast, ?_, hcount⟩
      rw [hreads.taskId]
      exact hread.claim token ((claimToken_of_matches hreads hm).trans htok)
    · exact h.current id u token hu htok
  · intro id token hlive
    rw [hh] at hlive
    obtain ⟨u, hu, htok⟩ := h.live id token hlive
    rw [hget]
    split
    · rename_i hid
      rw [hid, hpresent] at hu
      cases hu
      exact ⟨_, rfl, by rw [L.reread_claimToken, htoken, htok]⟩
    · exact ⟨u, hu, htok⟩
  · rw [hh]
    exact h.ends
  · rw [hh]
    exact h.known
  · rw [hh]
    exact h.unique

/-- A save that ends the claim the row was in. -/
theorem Inv.saved_ends (h : Inv L w) (hstep : StepSpec L cmd w w') (hreads : r.Reads t)
    (hread : ReadOk store w t) (hpresent : store.get w.store r.task.taskId = some previous) (hwf : L.Wf w'.store)
    (hget : ∀ id, store.get w'.store id =
      if id = r.task.taskId then some (L.reread r.task) else store.get w.store id)
    {token : Stripped} (hprev : previous.claimToken = some token) (hnone : r.task.claimToken = none)
    (hh : w'.history = .ended r.task.taskId token :: w.history) : Inv L w' := by
  obtain ⟨_, hmem, hcount⟩ := h.current _ previous token hpresent hprev
  have hclaimed : ∀ id tok n, QueueEvent.claimed id tok n ∈ w'.history →
      QueueEvent.claimed id tok n ∈ w.history := by
    intro id tok n hc
    rw [hh] at hc
    rcases List.mem_cons.mp hc with heq | hc
    · cases heq
    · exact hc
  refine ⟨hwf, fun r' hr' => ?_, ?_, ?_, ?_, ?_, ?_⟩
  · obtain ⟨u, hu, hok⟩ := h.holds_step hstep hr'
    refine ⟨u, hu, hok.saved hreads hread hpresent hget fun _ _ _ hmem => ?_⟩
    rw [hh]
    exact List.mem_cons_of_mem _ hmem
  · intro id u tok hu htok
    rw [hget] at hu
    split at hu
    · cases hu
      rw [L.reread_claimToken, hnone] at htok
      cases htok
    · rename_i hid
      obtain ⟨hlast, hmem', hcount'⟩ := h.current id u tok hu htok
      -- the ended token was granted for the saved task, so it is not this one
      have hne : token ≠ tok := by
        rintro rfl
        exact hid (h.unique _ _ _ _ _ hmem' hmem).1
      rw [hh, endCount_ended, if_neg hne, add_zero]
      exact ⟨hlast, List.mem_cons_of_mem _ hmem', hcount'⟩
  · rintro id tok ⟨⟨n, hc⟩, hzero⟩
    have hc := hclaimed id tok n hc
    rw [hh, endCount_ended] at hzero
    have hne : token ≠ tok := by
      rintro rfl
      rw [if_pos rfl] at hzero
      cases hzero
    rw [if_neg hne, add_zero] at hzero
    obtain ⟨u, hu, htok⟩ := h.live id tok ⟨⟨n, hc⟩, hzero⟩
    rw [hget]
    split
    · rename_i hid
      rw [hid, hpresent] at hu
      cases hu
      rw [hprev] at htok
      exact absurd (Option.some.inj htok) hne
    · exact ⟨u, hu, htok⟩
  · intro tok
    rw [hh, endCount_ended]
    split
    · rename_i heq
      rw [← heq, hcount]
    · rw [add_zero]
      exact h.ends tok
  · intro id tok he
    rw [hh] at he ⊢
    rcases List.mem_cons.mp he with heq | he
    · cases heq
      exact ⟨_, List.mem_cons_of_mem _ hmem⟩
    · obtain ⟨n, hc⟩ := h.known id tok he
      exact ⟨n, List.mem_cons_of_mem _ hc⟩
  · intro id id' tok n n' hc hc'
    exact h.unique id id' tok n n' (hclaimed _ _ _ hc) (hclaimed _ _ _ hc')

theorem Inv.saved (h : Inv L w) (hstep : StepSpec L cmd w w') (hholds : w.Holds r)
    (hpresent : store.get w.store r.task.taskId = some previous) (hm : r.Matches previous) (hwf : L.Wf w'.store)
    (hget : ∀ id, store.get w'.store id =
      if id = r.task.taskId then some (L.reread r.task) else store.get w.store id)
    (hh : w'.history = historyAfterSave w.history previous r) : Inv L w' := by
  obtain ⟨t, hreads, hread⟩ := h.holds r hholds
  have htoken := claimToken_after_save hreads hm
  rcases historyAfterSave_cases w.history previous r with
    ⟨he, hcase⟩ | ⟨token, hprev, hrun, he⟩
  · rw [he] at hh
    refine h.saved_keeps hstep hreads hread hpresent hm hwf hget ?_ hh
    rw [htoken]
    rcases hcase with hprev | hrun
    · rw [hprev, ite_self]
    · rw [if_pos hrun]
  · rw [he] at hh
    rw [if_neg hrun] at htoken
    exact h.saved_ends hstep hreads hread hpresent hwf hget hprev htoken hh

end Saved

/-- What `Fresh` gives the step lemma. -/
theorem dedupeKey_of_fresh (hfresh : cmd.Fresh store w) : ∀ task now runId fk, cmd = .enqueue task now runId fk →
      ∀ old, store.get w.store task.taskId = some old → old.dedupeKey = task.dedupeKey := by
  rintro task now runId fk rfl old hold
  exact hfresh.2 old hold

/-- **Every step keeps the invariant.** -/
theorem Inv.next (h : Inv L w) (hfresh : cmd.Fresh store w) : Inv L (cmd.next store w) := by
  have hstep := step_spec h.wf h.holdsOk (dedupeKey_of_fresh hfresh)
  cases hstep.effect with
  | quiet hs hh => exact h.quiet hstep hs hh
  | inserted _ hnew hrun _ hwf hget hh => exact h.inserted hstep hnew hrun hwf hget hh
  | claimed hcmd hpresent hc hwf hget hh =>
    subst hcmd
    exact h.claimed hstep hfresh hpresent hc hwf hget hh
  | saved hholds _ hpresent hm hwf hget hh => exact h.saved hstep hholds hpresent hm hwf hget hh

/-! ### Attempts -/

/-- The attempts of a row are the claims made of the task; a task that is not stored has none. -/
def AttemptsOk (store : TaskStore σ) (w : QueueWorld σ) : Prop :=
  (∀ id t, store.get w.store id = some t → t.attempts = claimCount id w.history) ∧
  ∀ id, store.get w.store id = none → claimCount id w.history = 0

theorem claimCount_historyAfterSave {id : String} {history : List QueueEvent} {previous : Task} {r : SaveRequest} :
    claimCount id (historyAfterSave history previous r) = claimCount id history := by
  rcases historyAfterSave_cases history previous r with
    ⟨he, _⟩ | ⟨_, _, _, he⟩
  · rw [he]
  · rw [he, claimCount_ended]

/-- A save that wins over a row in a claim writes the attempts of the row: they are both those of
    the claim. -/
theorem Inv.attempts_of_token (h : Inv L w) {r : SaveRequest} {previous : Task} {token : Stripped}
    (hholds : w.Holds r) (hpresent : store.get w.store r.task.taskId = some previous)
    (hm : r.Matches previous) (htok : previous.claimToken = some token) : r.task.attempts = previous.attempts := by
  obtain ⟨t, hreads, hread⟩ := h.holds r hholds
  have ht := hread.claim token ((claimToken_of_matches hreads hm).trans htok)
  have hp := (h.current _ previous token hpresent htok).2.1
  rw [hreads.attempts]
  exact (h.unique _ _ _ _ _ ht hp).2

theorem AttemptsOk.next (ha : AttemptsOk store w) (h : Inv L w) (hfresh : cmd.Fresh store w)
    (hsaves : cmd.SavesWhatItRead store w) : AttemptsOk store (cmd.next store w) := by
  have hstep := step_spec h.wf h.holdsOk (dedupeKey_of_fresh hfresh)
  cases hstep.effect with
  | quiet hs hh =>
    unfold AttemptsOk
    rw [hs, hh]
    exact ha
  | inserted hcmd hnew _ hatt _ hget hh =>
    subst hcmd
    refine ⟨fun id t ht => ?_, fun id hnone => ?_⟩
    · rw [hget] at ht
      rw [hh]
      split at ht
      · rename_i hid
        cases ht
        rw [hid, hatt, ha.2 _ hnew]
        exact hfresh.1
      · exact ha.1 id t ht
    · rw [hget] at hnone
      rw [hh]
      split at hnone
      · cases hnone
      · exact ha.2 id hnone
  | claimed _ hpresent _ _ hget hh =>
    refine ⟨fun id t ht => ?_, fun id hnone => ?_⟩
    · rw [hget] at ht
      rw [hh, claimCount_claimed]
      split at ht
      · rename_i hid
        cases ht
        rw [if_pos hid.symm, hid, ← ha.1 _ _ hpresent]
        rfl
      · rename_i hid
        rw [if_neg (Ne.symm hid), add_zero]
        exact ha.1 id t ht
    · rw [hget] at hnone
      rw [hh, claimCount_claimed]
      split at hnone
      · cases hnone
      · rename_i hid
        rw [if_neg (Ne.symm hid), add_zero]
        exact ha.2 id hnone
  | @saved r previous hholds source hpresent hm _ hget hh =>
    have hatt : r.task.attempts = previous.attempts := by
      cases htok : previous.claimToken with
      | some token => exact h.attempts_of_token hholds hpresent hm htok
      | none =>
        rcases source with ⟨queue, hcmd, hbusy⟩ | hrun
        · subst hcmd
          simp only [QueueCmd.SavesWhatItRead, hbusy] at hsaves
          exact (hsaves previous hpresent hm).symm
        · -- a recovery saves over RUNNING rows only, which have a token
          obtain ⟨token, hsome⟩ := Task.exists_claimToken (hm.1.trans hrun)
          rw [htok] at hsome
          cases hsome
    refine ⟨fun id t ht => ?_, fun id hnone => ?_⟩
    · rw [hget] at ht
      rw [hh, claimCount_historyAfterSave]
      split at ht
      · rename_i hid
        cases ht
        rw [L.reread_attempts, hatt, hid]
        exact ha.1 _ _ hpresent
      · exact ha.1 id t ht
    · rw [hget] at hnone
      rw [hh, claimCount_historyAfterSave]
      split at hnone
      · cases hnone
      · exact ha.2 id hnone

/-! ### Terminal rows and refused tokens -/

/-- **No step leaves a terminal state**: a save expects an unfinished one, and a claim a runnable
    one. -/
theorem Inv.terminal_next (h : Inv L w) (hfresh : cmd.Fresh store w) {id : String} {t : Task}
    (ht : store.get w.store id = some t) (hterm : t.isTerminal = true) :
    store.get (cmd.next store w).store id = some t := by
  have hstep := step_spec h.wf h.holdsOk (dedupeKey_of_fresh hfresh)
  cases hstep.effect with
  | quiet hs _ => rwa [hs]
  | @inserted _ u _ _ _ _ hnew _ _ _ hget _ =>
    have hne : id ≠ u.taskId := by
      rintro rfl
      rw [hnew] at ht
      cases ht
    rw [hget, if_neg hne]
    exact ht
  | @claimed taskId _ _ _ _ _ u _ hpresent hc _ hget _ =>
    have hne : id ≠ taskId := by
      rintro rfl
      rw [hpresent] at ht
      cases ht
      have hlive := TaskStatus.isTerminal_of_isRunnable hc.1
      exact Bool.noConfusion (hterm.symm.trans hlive)
    rw [hget, if_neg hne]
    exact ht
  | @saved r previous hholds _ hpresent hm _ hget _ =>
    have hne : id ≠ r.task.taskId := by
      rintro rfl
      rw [hpresent] at ht
      cases ht
      have hlive := h.holdsOk.live r hholds
      rw [← hm.1] at hlive
      exact Bool.noConfusion (hterm.symm.trans hlive)
    rw [hget, if_neg hne]
    exact ht

end Step

end QueueWorld

end NightScout
