import NightScout.Core.FairReady
import NightScout.Core.QueueSteps
import NightScout.Lib.Run

/-!
# Whether the two task stores agree

The in-memory store and the SQLite store are given the same operations and their answers are compared.
They do not always agree. The exploration lane of a fair shortlist is cut off by priority in one store
and by age in the other; a negative limit counts from the end in one and is no limit in the other; the
in-memory store has no foreign keys and no primary key of its own; it does not note a new dedupe key of
a saved task; a task that carries its own event as identity key loses it in SQLite; and expired leases
are recovered in the order of insertion or of creation.

`StoreOp.Agreeable` is the condition under which an operation meets none of these, and
`task_stores_agree` says that the answers are then the same along every run.
-/

namespace NightScout

open Lib

/-! ## The operations of a store -/

/-- `recover_expired_leases` with nothing in between, over the tasks it has read. -/
def recoverAll {σ : Type} (store : TaskStore σ) (retryDelay : Duration) (now : Instant) :
    σ → List Task → Except PyError (List Task) × σ
  | s, [] => (.ok [], s)
  | s, task :: remaining =>
    if TaskQueue.leaseExpired task now then
      match TaskQueue.recover task retryDelay now with
      | .error e => (.error e, s)
      | .ok request =>
        match store.save s request with
        | (.ok stored, s) =>
          let (recovered, s) := recoverAll store retryDelay now s remaining
          (recovered.map (stored :: ·), s)
        | (.error (.valueError _), s) => recoverAll store retryDelay now s remaining
        | (.error e, s) => (.error e, s)
    else recoverAll store retryDelay now s remaining

def recoverExpiredLeases {σ : Type} (store : TaskStore σ) (s : σ) (retryDelay : Duration)
    (now : Instant) : Except PyError (List Task) × σ :=
  if retryDelay < 0 then (.error (.valueError "retry_delay cannot be negative"), s)
  else recoverAll store retryDelay now s (store.all s)

inductive StoreOp where
  /-- With the verdict of the foreign keys. -/
  | put (task : Task) (foreignKeys : Bool)
  /-- With the token that is drawn. -/
  | claim (taskId : String) (now leaseExpiresAt : Instant) (token : Stripped)
  | save (request : SaveRequest)
  | recover (retryDelay : Duration) (now : Instant)
  | ready (now : Instant) (limit : Option ℤ) (fair : Bool)
  | nextReadyAt

inductive StoreReply where
  | put (created : Except PyError Bool)
  | claim (claimed : Except PyError Task)
  /-- What was saved, if anything was. -/
  | save (saved : Option Task)
  | recover (recovered : Except PyError (List Task))
  | ready (tasks : List Task)
  | nextReadyAt (instant : Option Instant)
  deriving DecidableEq

/-- One operation of a store that answers its two queries with `tasksReady` and `firstReady`. -/
def StoreOp.step {σ : Type} (store : TaskStore σ)
    (tasksReady : σ → Instant → Option ℤ → Bool → List Task) (firstReady : σ → Option Instant)
    (runId : Option String) (s : σ) : StoreOp → StoreReply × σ
  | put task foreignKeys =>
    let (created, s) := store.put s task runId foreignKeys
    (.put created, s)
  | claim taskId now leaseExpiresAt token =>
    let (claimed, s) := store.claim s taskId now leaseExpiresAt token runId
    (.claim claimed, s)
  | save request =>
    let (saved, s) := store.save s request
    (.save saved.toOption, s)
  | recover retryDelay now =>
    let (recovered, s) := recoverExpiredLeases store s retryDelay now
    (.recover recovered, s)
  | ready now limit fair => (.ready (tasksReady s now limit fair), s)
  | nextReadyAt => (.nextReadyAt (firstReady s), s)

/-- One operation of the in-memory store. -/
def memoryStep (lower : String → String) (runId : Option String) :
    InMemoryTaskStore → StoreOp → StoreReply × InMemoryTaskStore :=
  StoreOp.step inMemoryTaskStore (InMemoryTaskStore.ready lower) InMemoryTaskStore.nextReadyAt runId

/-- One operation of the SQLite store, by a handle bound to a run. -/
def sqliteStep (runId : Option String) (resumeFrontier : Bool) :
    TaskDb → StoreOp → StoreReply × TaskDb :=
  StoreOp.step sqliteTaskStore (fun db => db.ready runId resumeFrontier)
    (fun db => db.nextReadyAt runId resumeFrontier) runId

/-! ## When they agree -/

/-- The task does not carry its own event as identity key. -/
def Task.Rereadable (t : Task) : Prop :=
  ∀ key ∈ t.inputIdentityKey, key.text ≠ t.inputEventId.text

/-- The exploration tasks a fair shortlist takes are the same by priority and by age, once those of the
    first two lanes are left out. -/
def ExploresAlike (lower : String → String) (limit : ℤ) (candidates : List Task) : Prop :=
  let lanes := fairLaneLimits limit
  let first := (candidates.take lanes.top ++
    (sortedBy Task.ageKey candidates).take lanes.oldest).map fun t : Task => t.taskId
  (((candidates.filter (memoryExploration lower)).take lanes.exploration).filter
      fun t => t.taskId ∉ first) =
    (((sortedBy Task.ageKey (candidates.filter sqliteExploration)).take lanes.exploration).filter
      fun t => t.taskId ∉ first)

/-- The operations on which the two stores agree, in the state they are issued in. -/
def StoreOp.Agreeable (lower : String → String) (s : InMemoryTaskStore) : StoreOp → Prop
  | put task foreignKeys =>
    s.knownKeys.get? task.dedupeKey ≠ none ∨
      foreignKeys = true ∧ s.tasks.get? task.taskId = none ∧ task.Rereadable
  | claim .. => True
  | save request => ∀ previous, s.tasks.get? request.task.taskId = some previous →
      request.Matches previous →
        request.task.Rereadable ∧ previous.dedupeKey = request.task.dedupeKey
  | recover _ now =>
    (s.tasks.values.filter fun t => TaskQueue.leaseExpired t now).Pairwise
      fun a b => a.ageKey ≤ b.ageKey
  | ready now limit fair => ∀ n, limit = some n →
      if fair then ExploresAlike lower n (readyCandidates s.tasks.values now)
      else 0 ≤ n ∨ readyCandidates s.tasks.values now = []
  | nextReadyAt => True

/-! ## The tasks of a store -/

theorem InMemoryTaskStore.Wf.ids_nodup {s : InMemoryTaskStore} (h : s.Wf) :
    (s.tasks.values.map fun t => t.taskId).Nodup := by
  have hkeys : (s.tasks.values.map fun t => t.taskId) = s.tasks.keys := by
    unfold Dict.values Dict.keys
    rw [List.map_map]
    exact List.map_congr_left fun e he => h.taskId e.1 e.2 (Dict.mem_entries_iff.mp he)
  rw [hkeys]
  exact s.tasks.nodup_keys

theorem TaskDb.Wf.ids_nodup {db : TaskDb} (h : db.Wf) :
    ((db.rows.values.map TaskRow.task).map fun t => t.taskId).Nodup := by
  have hkeys : ((db.rows.values.map TaskRow.task).map fun t => t.taskId) = db.rows.keys := by
    unfold Dict.values Dict.keys
    rw [List.map_map, List.map_map]
    exact List.map_congr_left fun e he => h.taskId e.1 e.2 (Dict.mem_entries_iff.mp he)
  rw [hkeys]
  exact db.rows.nodup_keys

/-- `all` lists the tasks by age. -/
theorem TaskDb.all_eq_sortedBy (db : TaskDb) : db.all = sortedBy Task.ageKey (db.rows.values.map TaskRow.task) := by
  have hrel : ∀ a b : Task, (a.createdAt < b.createdAt ∨
      a.createdAt = b.createdAt ∧ a.taskId ≤ b.taskId) ↔ a.ageKey ≤ b.ageKey := by
    intro a b
    unfold Task.ageKey
    rw [Prod.Lex.toLex_le_toLex]
  unfold TaskDb.all sortedBy
  simp only [hrel]

theorem priorityKey_taskId {a b : Task} (h : a.priorityKey = b.priorityKey) : a.taskId = b.taskId :=
  congrArg (fun key => (ofLex (ofLex (ofLex key).2).2).2) h

theorem ageKey_taskId {a b : Task} (h : a.ageKey = b.ageKey) : a.taskId = b.taskId :=
  congrArg (fun key => (ofLex key).2) h

/-! ## States that agree -/

theorem Task.Rereadable.reread_eq {t : Task} (h : t.Rereadable) : reread t = t := by
  have hid : (TaskRow.insert none t).identityKey = t.inputIdentityKey := by
    unfold TaskRow.identityKey
    rw [logicalInput_insert]
    cases hkey : t.inputIdentityKey with
    | none => simp [TaskRow.insert, TaskRow.columns]
    | some key =>
      have hne : key.text ≠ (TaskRow.insert none t).values.inputEventId.text := h key hkey
      rw [if_pos hne, optionalText_text]
  show (⟨{ t.toTaskFields with inputIdentityKey := (TaskRow.insert none t).identityKey }, _⟩ : Task)
    = t
  cases t
  simp only [hid]

/-- The two stores hold the same tasks, those of one run. -/
structure StoresAgree (runId : Option String) (s : InMemoryTaskStore) (db : TaskDb) : Prop where
  memory : s.Wf
  sqlite : db.Wf
  get : ∀ id, db.get id = s.tasks.get? id
  run : ∀ id row, db.rows.get? id = some row → row.runId = runId
  /-- A key that is known is the key of a stored task. -/
  known : ∀ key, s.knownKeys.get? key ≠ none → ∃ id t, s.tasks.get? id = some t ∧ t.dedupeKey = key
  rereadable : ∀ id t, s.tasks.get? id = some t → t.Rereadable

namespace StoresAgree

variable {runId : Option String} {s : InMemoryTaskStore} {db : TaskDb}

theorem empty : StoresAgree runId .empty .empty where
  memory := InMemoryTaskStore.wf_empty
  sqlite := TaskDb.wf_empty
  get _ := rfl
  run _ _ h := by cases h
  known _ h := absurd rfl h
  rereadable _ _ h := by cases h

/-- A stored task is in a row, under its key and the run. -/
theorem row (h : StoresAgree runId s db) {id : String} {t : Task} (ht : s.tasks.get? id = some t) :
    ∃ row, db.rows.get? id = some row ∧ row.task = t ∧ row.dedupeKey = t.dedupeKey ∧ row.runId = runId := by
  obtain ⟨row, hrow, rfl⟩ := TaskDb.get_eq_some ((h.get id).trans ht)
  exact ⟨row, hrow, rfl, h.sqlite.dedupeKey id row hrow, h.run id row hrow⟩

/-- A row holds a stored task. -/
theorem stored (h : StoresAgree runId s db) {id : String} {row : TaskRow}
    (hrow : db.rows.get? id = some row) : s.tasks.get? id = some row.task := by
  rw [← h.get id]
  unfold TaskDb.get
  rw [hrow]
  rfl

/-! ### Writes -/

/-- What a write of one row keeps. -/
theorem write (h : StoresAgree runId s db) {s' : InMemoryTaskStore} {row : TaskRow} {id : String}
    {t : Task} (hwf : s'.Wf) (hwf' : TaskDb.Wf ⟨db.rows.set id row⟩)
    (htasks : s'.tasks = s.tasks.set id t) (htask : row.task = t) (hrun : row.runId = runId) (hre : t.Rereadable)
    (hknown : ∀ key, s'.knownKeys.get? key ≠ none → s.knownKeys.get? key ≠ none ∨ key = t.dedupeKey)
    (hkey : ∀ old, s.tasks.get? id = some old → old.dedupeKey = t.dedupeKey) :
    StoresAgree runId s' ⟨db.rows.set id row⟩ where
  memory := hwf
  sqlite := hwf'
  get id' := by
    rw [TaskDb.get_set, htasks, Dict.get?_set, htask, h.get id']
  run id' row' hrow' := by
    rw [Dict.get?_set] at hrow'
    split at hrow'
    · cases hrow'
      exact hrun
    · exact h.run id' row' hrow'
  known key hk := by
    rw [htasks]
    rcases hknown key hk with hk | rfl
    · obtain ⟨id', old, hold, rfl⟩ := h.known key hk
      by_cases hid : id' = id
      · subst hid
        exact ⟨id', t, Dict.get?_set_self _ _ _, (hkey old hold).symm⟩
      · exact ⟨id', old, by rw [Dict.get?_set_ne _ _ hid]; exact hold, rfl⟩
    · exact ⟨id, t, Dict.get?_set_self _ _ _, rfl⟩
  rereadable id' t' ht' := by
    rw [htasks, Dict.get?_set] at ht'
    split at ht'
    · cases ht'
      exact hre
    · exact h.rereadable id' t' ht'

theorem put (h : StoresAgree runId s db) {t : Task} (foreignKeys : Bool) (hok : s.knownKeys.get? t.dedupeKey ≠ none ∨
      foreignKeys = true ∧ s.tasks.get? t.taskId = none ∧ t.Rereadable) : (s.put t).1 = (db.put t runId foreignKeys).1 ∧
      StoresAgree runId (s.put t).2 (db.put t runId foreignKeys).2 := by
  by_cases hknown : s.knownKeys.get? t.dedupeKey = none
  · obtain ⟨rfl, hnew, hre⟩ := hok.resolve_left (not_not.mpr hknown)
    have hmem : s.put t = (.ok true, s.insert t) := by
      unfold InMemoryTaskStore.put
      simp only [hknown, h.memory.active_none hknown]
    have hrow : db.rows.get? t.taskId = none :=
      Option.map_eq_none_iff.mp ((h.get t.taskId).trans hnew)
    -- no row has the key, since it would be known
    have hno : (db.rows.values.any fun row => row.dedupeKey = t.dedupeKey &&
        (!row.values.isTerminal || row.runId = runId)) = false := by
      rw [List.any_eq_false]
      intro row hrow hdup
      obtain ⟨id, hid⟩ := Dict.mem_values_iff.mp hrow
      have hkey : row.dedupeKey = t.dedupeKey := by
        rw [Bool.and_eq_true, decide_eq_true_eq] at hdup
        exact hdup.1
      have hkn := h.memory.known id row.task (h.stored hid)
      rw [← h.sqlite.dedupeKey id row hid, hkey, hknown] at hkn
      cases hkn
    have hput : db.put t runId true = (.ok true, ⟨db.rows.set t.taskId (.insert runId t)⟩) := by
      unfold TaskDb.put
      simp only [hno, hrow, Bool.false_eq_true, if_false, Option.isNone_none, Bool.and_true, if_true]
    have hwf : TaskDb.Wf ⟨db.rows.set t.taskId (.insert runId t)⟩ := by
      rcases TaskDb.put_law h.sqlite t runId true with ⟨_, _, hwf, _⟩ | ⟨hne, _⟩
      · rwa [hput] at hwf
      · rw [hput] at hne
        exact absurd rfl hne
    rw [hmem, hput]
    refine ⟨rfl, h.write (h.memory.insert hnew hknown) hwf rfl ?_ rfl hre ?_ ?_⟩
    · rw [TaskRow.insert_task, hre.reread_eq]
    · intro key hk
      by_cases hkey : key = t.dedupeKey
      · exact .inr hkey
      · left
        rwa [show (s.insert t).knownKeys = s.knownKeys.set t.dedupeKey t.taskId from rfl,
          Dict.get?_set_ne _ _ hkey] at hk
    · intro old hold
      rw [hnew] at hold
      cases hold
  · obtain ⟨id, old, hold, hkey⟩ := h.known _ hknown
    obtain ⟨row, hrow, _, hrowkey, hrun⟩ := h.row hold
    have hmem : s.put t = (.ok false, s) := by
      obtain ⟨id, hid⟩ := Option.ne_none_iff_exists'.mp hknown
      unfold InMemoryTaskStore.put
      simp only [hid]
    have hput : db.put t runId foreignKeys = (.ok false, db) := by
      unfold TaskDb.put
      rw [if_pos]
      rw [List.any_eq_true]
      refine ⟨row, Dict.mem_values_iff.mpr ⟨id, hrow⟩, ?_⟩
      simp [hrowkey, hkey, hrun]
    rw [hmem, hput]
    exact ⟨rfl, h⟩

theorem claim (h : StoresAgree runId s db) (taskId : String) (now leaseExpiresAt : Instant) (token : Stripped) :
    (s.claim taskId now leaseExpiresAt token).1 = (db.claim taskId now leaseExpiresAt token runId).1 ∧
      StoresAgree runId (s.claim taskId now leaseExpiresAt token).2
        (db.claim taskId now leaseExpiresAt token runId).2 := by
  cases ht : s.tasks.get? taskId with
  | none =>
    have hrow : db.rows.get? taskId = none :=
      Option.map_eq_none_iff.mp ((h.get taskId).trans ht)
    simp only [InMemoryTaskStore.claim, ht, TaskDb.claim, hrow]
    exact ⟨trivial, h⟩
  | some t =>
    have hget : db.get taskId = some t := (h.get taskId).trans ht
    by_cases hc : t.Claimable now
    · obtain ⟨hmem, hwf⟩ := InMemoryTaskStore.claim_ok h.memory leaseExpiresAt token ht hc
      obtain ⟨hok, hwf', _⟩ := TaskDb.claim_ok h.sqlite leaseExpiresAt token runId hget hc
      obtain ⟨row, hrow, rfl, hrowkey, hrun⟩ := h.row ht
      simp only [TaskDb.claim, hrow, dif_pos (TaskDb.claimable_task.mp hc)] at hok hwf' ⊢
      rw [hmem]
      refine ⟨hok.symm, h.write hwf hwf' rfl ?_ hrun ?_ (fun key hk => .inl hk) ?_⟩
      · exact Except.ok.inj hok
      · exact h.rereadable taskId row.task ht
      · intro old hold
        rw [ht] at hold
        cases hold
        rfl
    · rw [InMemoryTaskStore.claim_refused ht hc, TaskDb.claim_refused hget hc]
      exact ⟨rfl, h⟩

/-- A save is refused by both stores, or made by both. -/
theorem save (h : StoresAgree runId s db) {request : SaveRequest}
    (hok : ∀ previous, s.tasks.get? request.task.taskId = some previous → request.Matches previous →
      request.task.Rereadable ∧ previous.dedupeKey = request.task.dedupeKey) :
    (s.tasks.get? request.task.taskId = none ∧ (∃ message, s.save request = (.error (.keyError message), s)) ∧
      ∃ message, db.save request = (.error (.keyError message), db)) ∨
    ((∃ message, s.save request = (.error (.valueError message), s)) ∧
      ∃ message, db.save request = (.error (.valueError message), db)) ∨
    ((s.save request).1 = .ok request.task ∧ (db.save request).1 = .ok request.task ∧
      (s.save request).2.tasks = s.tasks.set request.task.taskId request.task ∧
      StoresAgree runId (s.save request).2 (db.save request).2) := by
  cases hprev : s.tasks.get? request.task.taskId with
  | none =>
    exact .inl ⟨rfl, InMemoryTaskStore.save_unknown hprev,
      TaskDb.save_unknown ((h.get _).trans hprev)⟩
  | some previous =>
    have hget : db.get request.task.taskId = some previous := (h.get _).trans hprev
    by_cases hm : request.Matches previous
    · obtain ⟨hre, hkey⟩ := hok previous hprev hm
      obtain ⟨row, hrow, rfl, hrowkey, hrun⟩ := h.row hprev
      obtain ⟨hmem, hwf, htasks⟩ := InMemoryTaskStore.save_ok h.memory hprev hm hkey
      -- every key is known under one task, so no other row has it
      have hother : request.task.isTerminal = false → ∀ id' row', db.rows.get? id' = some row' →
          id' ≠ request.task.taskId → row'.dedupeKey = request.task.dedupeKey →
            row'.values.isTerminal = true := by
        intro _ id' row' hrow' hne hk
        refine absurd (h.memory.id_unique (h.stored hrow') hprev ?_) hne
        rw [← h.sqlite.dedupeKey id' row' hrow', hk, hkey]
      obtain ⟨hsave, hwf'⟩ := TaskDb.save_writes h.sqlite hrow (TaskDb.matches_task.mp hm) hother
      rw [hsave, hre.reread_eq]
      refine .inr (.inr ⟨hmem, rfl, htasks, h.write hwf hwf' htasks ?_ hrun hre ?_ ?_⟩)
      · rw [TaskRow.update_task, hre.reread_eq]
      · intro key hk
        rw [InMemoryTaskStore.save_knownKeys] at hk
        exact .inl hk
      · intro old hold
        rw [hprev] at hold
        cases hold
        exact hkey
    · exact .inr (.inl ⟨InMemoryTaskStore.save_stale hprev hm, TaskDb.save_stale hget hm⟩)

/-! ### Recovery -/

/-- The request of a recovery rewrites the task it was made for. -/
theorem recover_rewrites {t : Task} {retryDelay : Duration} {now : Instant} {r : SaveRequest}
    (h : TaskQueue.recover t retryDelay now = .ok r) : r.task.taskId = t.taskId ∧ r.task.dedupeKey = t.dedupeKey ∧
      (t.Rereadable → r.task.Rereadable) := by
  have hkept : ∀ updates, TaskQueue.recoverUpdates t retryDelay now = .ok updates →
      updates.taskId = t.taskId ∧ updates.dedupeKey = t.dedupeKey ∧
        updates.inputIdentityKey = t.inputIdentityKey ∧
        updates.inputEventId = t.inputEventId := by
    intro updates hupdates
    unfold TaskQueue.recoverUpdates at hupdates
    split at hupdates
    · obtain ⟨availableAt, _, hret⟩ := bind_ok hupdates
      cases hret
      exact ⟨rfl, rfl, rfl, rfl⟩
    · cases hupdates
      exact ⟨rfl, rfl, rfl, rfl⟩
  unfold TaskQueue.recover at h
  simp only [pure_eq_ok] at h
  obtain ⟨updates, hupdates, h⟩ := bind_ok h
  obtain ⟨u, hu, h⟩ := bind_ok h
  obtain ⟨_, rfl⟩ := Task.modelValidate_ok hu
  cases h
  obtain ⟨hid, hkey, hidentity, hevent⟩ := hkept updates hupdates
  refine ⟨hid, hkey, ?_⟩
  intro hre key hk
  show key.text ≠ updates.inputEventId.text
  rw [hevent]
  exact hre key (hidentity ▸ hk)

/-- Only expired leases are looked at. -/
theorem recoverAll_filter {σ : Type} (store : TaskStore σ) (retryDelay : Duration) (now : Instant)
    (st : σ) (tasks : List Task) : recoverAll store retryDelay now st tasks = recoverAll store retryDelay now st
        (tasks.filter fun t => TaskQueue.leaseExpired t now) := by
  induction tasks generalizing st with
  | nil => rfl
  | cons task remaining ih =>
    by_cases hexp : TaskQueue.leaseExpired task now = true
    · rw [List.filter_cons_of_pos (by exact hexp), recoverAll, recoverAll, if_pos hexp, if_pos hexp]
      simp only [← ih]
    · rw [List.filter_cons_of_neg (by exact hexp), recoverAll, if_neg hexp]
      exact ih st

/-- The same tasks are recovered, if both stores look at them in the same order. -/
theorem recoverAll (h : StoresAgree runId s db) (retryDelay : Duration) (now : Instant)
    {remaining : List Task} (hre : ∀ t ∈ remaining, t.Rereadable)
    (hstored : ∀ t ∈ remaining, ∃ current, s.tasks.get? t.taskId = some current ∧ current.dedupeKey = t.dedupeKey) :
    (NightScout.recoverAll inMemoryTaskStore retryDelay now s remaining).1 =
        (NightScout.recoverAll sqliteTaskStore retryDelay now db remaining).1 ∧
      StoresAgree runId (NightScout.recoverAll inMemoryTaskStore retryDelay now s remaining).2
        (NightScout.recoverAll sqliteTaskStore retryDelay now db remaining).2 := by
  induction remaining generalizing s db with
  | nil => exact ⟨rfl, h⟩
  | cons task remaining ih =>
    have hre' : ∀ t ∈ remaining, t.Rereadable := fun t ht => hre t (List.mem_cons_of_mem _ ht)
    have hstored' : ∀ t ∈ remaining, ∃ current, s.tasks.get? t.taskId = some current ∧
        current.dedupeKey = t.dedupeKey := fun t ht => hstored t (List.mem_cons_of_mem _ ht)
    rw [NightScout.recoverAll, NightScout.recoverAll]
    split
    case isFalse => exact ih h hre' hstored'
    case isTrue =>
      cases hrequest : TaskQueue.recover task retryDelay now with
      | error e => exact ⟨rfl, h⟩
      | ok request =>
        obtain ⟨hid, hkey, hrere⟩ := recover_rewrites hrequest
        obtain ⟨current, hcurrent, hsame⟩ := hstored task List.mem_cons_self
        have hallowed : ∀ previous, s.tasks.get? request.task.taskId = some previous →
            request.Matches previous →
            request.task.Rereadable ∧ previous.dedupeKey = request.task.dedupeKey := by
          intro previous hprevious _
          rw [hid, hcurrent] at hprevious
          cases hprevious
          exact ⟨hrere (hre task List.mem_cons_self), hsame.trans hkey.symm⟩
        have hsave := h.save hallowed
        have hmemory : inMemoryTaskStore.save s request = s.save request := rfl
        have hsqlite : sqliteTaskStore.save db request = db.save request := rfl
        simp only [hmemory, hsqlite]
        rcases hsave with ⟨hnone, _⟩ | ⟨⟨m, hm⟩, m', hm'⟩ | ⟨hok, hok', htasks, hagree⟩
        · rw [hid, hcurrent] at hnone
          cases hnone
        · rw [hm, hm']
          exact ih h hre' hstored'
        · rw [show s.save request = (.ok request.task, (s.save request).2) from
            Prod.ext hok rfl, show db.save request = (.ok request.task, (db.save request).2) from
            Prod.ext hok' rfl]
          obtain ⟨heq, hagree'⟩ := ih hagree hre' (by
            intro t ht
            obtain ⟨old, hold, hsame'⟩ := hstored' t ht
            rw [htasks, Dict.get?_set]
            split
            next heqid =>
              refine ⟨request.task, rfl, ?_⟩
              rw [hid] at heqid
              rw [heqid, hcurrent] at hold
              cases hold
              rw [← hsame', hsame, hkey]
            next => exact ⟨old, hold, hsame'⟩)
          exact ⟨congrArg (Except.map (request.task :: ·)) heq, hagree'⟩

/-- The two stores hold the same list of tasks, in different orders. -/
theorem values_perm (h : StoresAgree runId s db) : s.tasks.values.Perm (db.rows.values.map TaskRow.task) := by
  refine (List.perm_ext_iff_of_nodup (List.Nodup.of_map _ h.memory.ids_nodup)
    (List.Nodup.of_map _ h.sqlite.ids_nodup)).mpr fun t => ?_
  rw [Dict.mem_values_iff, List.mem_map]
  constructor
  · rintro ⟨id, hid⟩
    obtain ⟨row, hrow, htask, _⟩ := h.row hid
    exact ⟨row, Dict.mem_values_iff.mpr ⟨id, hrow⟩, htask⟩
  · rintro ⟨row, hrow, rfl⟩
    obtain ⟨id, hid⟩ := Dict.mem_values_iff.mp hrow
    exact ⟨id, h.stored hid⟩

theorem visible_perm (h : StoresAgree runId s db) (resumeFrontier : Bool) :
    s.tasks.values.Perm (db.visible runId resumeFrontier) := by
  have hall : (db.rows.values.filter fun row =>
      resumeFrontier || runId.isNone || row.runId = runId) = db.rows.values := by
    rw [List.filter_eq_self]
    intro row hrow
    obtain ⟨id, hid⟩ := Dict.mem_values_iff.mp hrow
    simp [h.run id row hid]
  unfold TaskDb.visible
  rw [hall]
  exact h.values_perm

theorem recoverExpiredLeases (h : StoresAgree runId s db) (retryDelay : Duration) (now : Instant)
    (horder : (s.tasks.values.filter fun t => TaskQueue.leaseExpired t now).Pairwise
      fun a b => a.ageKey ≤ b.ageKey) :
    (NightScout.recoverExpiredLeases inMemoryTaskStore s retryDelay now).1 =
        (NightScout.recoverExpiredLeases sqliteTaskStore db retryDelay now).1 ∧
      StoresAgree runId (NightScout.recoverExpiredLeases inMemoryTaskStore s retryDelay now).2
        (NightScout.recoverExpiredLeases sqliteTaskStore db retryDelay now).2 := by
  unfold NightScout.recoverExpiredLeases
  split
  · exact ⟨rfl, h⟩
  · rw [recoverAll_filter inMemoryTaskStore, recoverAll_filter sqliteTaskStore]
    have hmemory : inMemoryTaskStore.all s = s.tasks.values := rfl
    have hlist : (sqliteTaskStore.all db).filter (fun t => TaskQueue.leaseExpired t now) =
        s.tasks.values.filter (fun t => TaskQueue.leaseExpired t now) := by
      have hsqlite : sqliteTaskStore.all db =
          sortedBy Task.ageKey (db.rows.values.map TaskRow.task) := db.all_eq_sortedBy
      rw [hsqlite]
      have hperm := ((sortedBy_perm Task.ageKey _).trans h.values_perm.symm).filter
        fun t => TaskQueue.leaseExpired t now
      refine hperm.eq_of_pairwise ?_ ((sortedBy_sorted _ _).filter _) horder
      intro a b ha hb hab hba
      have hmem := (List.mem_filter.mp (hperm.mem_iff.mp ha)).1
      exact List.inj_on_of_nodup_map h.memory.ids_nodup hmem (List.mem_filter.mp hb).1
        (ageKey_taskId (le_antisymm hab hba))
    rw [hlist, hmemory]
    apply h.recoverAll
    · intro t ht
      obtain ⟨id, hid⟩ := Dict.mem_values_iff.mp (List.mem_filter.mp ht).1
      exact h.rereadable id t hid
    · intro t ht
      obtain ⟨id, hid⟩ := Dict.mem_values_iff.mp (List.mem_filter.mp ht).1
      refine ⟨t, ?_, rfl⟩
      rw [h.memory.taskId id t hid]
      exact hid

/-! ### Queries -/

/-- The first of a sorted list is the least of the list. -/
theorem head?_sortedBy {κ : Type} [LinearOrder κ] {key : Task → κ} {f : Task → Instant}
    {tasks tasks' : List Task} (hmono : ∀ a b, key a ≤ key b → f a ≤ f b)
    (hperm : tasks.Perm tasks') : ((sortedBy key tasks').map f).head? = (tasks.map f).min? := by
  have hsorted := sortedBy_sorted key tasks'
  have hmem : ∀ t, t ∈ sortedBy key tasks' ↔ t ∈ tasks := fun t => by
    rw [mem_sortedBy, hperm.mem_iff]
  cases hlist : sortedBy key tasks' with
  | nil =>
    rw [hlist] at hmem
    have hnil : tasks = [] := List.eq_nil_iff_forall_not_mem.mpr fun t ht => by
      simpa using (hmem t).mpr ht
    simp [hnil]
  | cons first rest =>
    rw [hlist] at hmem hsorted
    symm
    rw [List.map_cons, List.head?_cons, List.min?_eq_some_iff]
    constructor
    · exact List.mem_map_of_mem ((hmem first).mp List.mem_cons_self)
    · intro instant hinstant
      obtain ⟨t, ht, rfl⟩ := List.mem_map.mp hinstant
      rcases List.mem_cons.mp ((hmem t).mpr ht) with rfl | hrest
      · exact le_rfl
      · exact hmono first t ((List.pairwise_cons.mp hsorted).1 t hrest)

theorem readyCandidates_eq (h : StoresAgree runId s db) (resumeFrontier : Bool) (now : Instant) :
    readyCandidates (db.visible runId resumeFrontier) now = readyCandidates s.tasks.values now := by
  have hperm := (h.visible_perm resumeFrontier).filter fun t => t.Claimable now
  refine (sortedBy_eq_of_perm (fun a b => priorityKey_taskId) ?_ hperm).symm
  exact h.memory.ids_nodup.sublist (List.filter_sublist.map _)

/-- The two fair shortlists are one, if they explore alike. -/
theorem fair_lanes_eq {lower : String → String} {limit : ℤ} {candidates : List Task}
    (hnd : (candidates.map fun t => t.taskId).Nodup) (h : ExploresAlike lower limit candidates) :
    fillLanes (fun t : Task => t.taskId) limit [] (memoryLanes lower limit candidates) =
      fillLanes (fun t : Task => t.taskId) limit [] (sqliteLanes limit candidates) := by
  unfold memoryLanes sqliteLanes
  refine fillLanes_congr rfl fun htop => fillLanes_congr rfl fun hage => ?_
  set selected := fillFrom (fun t : Task => t.taskId) limit
    (fillFrom (fun t : Task => t.taskId) limit [] (candidates.take (fairLaneLimits limit).top))
    ((sortedBy Task.ageKey candidates).take (fairLaneLimits limit).oldest) with hselected
  refine fillLanes_congr ?_ fun _ => fillLanes_congr rfl fun htail => fillLanes_congr ?_ fun _ => rfl
  · -- what is selected so far are the first two lanes
    have hfirst : ∀ t : Task, t.taskId ∈ selected.map (fun t => t.taskId) ↔
        t.taskId ∈ (candidates.take (fairLaneLimits limit).top ++
          (sortedBy Task.ageKey candidates).take (fairLaneLimits limit).oldest).map
            fun t : Task => t.taskId := by
      intro t
      rw [hselected, mem_map_fillFrom hage, List.map_append, List.mem_append,
        mem_map_fillFrom htop, List.nil_append, List.map_append, List.mem_append]
    rw [fillFrom_filter selected, fillFrom_filter selected ((sortedBy _ _).take _)]
    simp only [hfirst]
    exact congrArg _ h
  · have hpos : 0 ≤ limit := by omega
    unfold sqlLimit
    rw [if_pos hpos, fillFrom_take htail hnd]

theorem ready (h : StoresAgree runId s db) {lower : String → String} (resumeFrontier : Bool)
    {now : Instant} {limit : Option ℤ} {fair : Bool} (hok : ∀ n, limit = some n →
      if fair then ExploresAlike lower n (readyCandidates s.tasks.values now)
      else 0 ≤ n ∨ readyCandidates s.tasks.values now = []) :
    s.ready lower now limit fair = db.ready runId resumeFrontier now limit fair := by
  have hcandidates := h.readyCandidates_eq resumeFrontier now
  unfold InMemoryTaskStore.ready TaskDb.ready
  rw [hcandidates]
  cases limit with
  | none => rfl
  | some n =>
    have hn := hok n rfl
    cases fair with
    | true => exact fair_lanes_eq (readyCandidates_nodup h.memory.ids_nodup) hn
    | false =>
      show takeStop _ n = sqlLimit _ n
      unfold takeStop sqlLimit
      split
      · rfl
      next hneg =>
        rw [hn.resolve_left hneg]
        simp

theorem nextReadyAt (h : StoresAgree runId s db) (resumeFrontier : Bool) :
    s.nextReadyAt = db.nextReadyAt runId resumeFrontier := by
  have hperm := (h.visible_perm resumeFrontier).filter fun t =>
    t.status.isRunnable && t.attempts < t.maxAttempts
  unfold InMemoryTaskStore.nextReadyAt TaskDb.nextReadyAt
  refine (head?_sortedBy (fun a b hab => ?_) hperm).symm
  rw [Prod.Lex.toLex_le_toLex] at hab
  rcases hab with hlt | ⟨heq, _⟩
  · exact hlt.le
  · exact heq.le

end StoresAgree

/-! ## Runs -/

/-- **An agreeable operation is answered alike**, and leaves stores that agree. -/
theorem StoreOp.step_agrees {lower : String → String} {runId : Option String}
    {resumeFrontier : Bool} {s : InMemoryTaskStore} {db : TaskDb} {op : StoreOp}
    (h : StoresAgree runId s db) (hok : op.Agreeable lower s) :
    (memoryStep lower runId s op).1 = (sqliteStep runId resumeFrontier db op).1 ∧
      StoresAgree runId (memoryStep lower runId s op).2 (sqliteStep runId resumeFrontier db op).2 := by
  cases op with
  | put task foreignKeys =>
    obtain ⟨heq, hagree⟩ := h.put foreignKeys hok
    exact ⟨congrArg StoreReply.put heq, hagree⟩
  | claim taskId now leaseExpiresAt token =>
    obtain ⟨heq, hagree⟩ := h.claim taskId now leaseExpiresAt token
    exact ⟨congrArg StoreReply.claim heq, hagree⟩
  | save request =>
    show StoreReply.save (s.save request).1.toOption = .save (db.save request).1.toOption ∧
      StoresAgree runId (s.save request).2 (db.save request).2
    rcases h.save hok with ⟨_, ⟨m, hm⟩, m', hm'⟩ | ⟨⟨m, hm⟩, m', hm'⟩ | ⟨hsaved, hsaved', _, hagree⟩
    · rw [hm, hm']
      exact ⟨rfl, h⟩
    · rw [hm, hm']
      exact ⟨rfl, h⟩
    · rw [hsaved, hsaved']
      exact ⟨rfl, hagree⟩
  | recover retryDelay now =>
    obtain ⟨heq, hagree⟩ := h.recoverExpiredLeases retryDelay now hok
    exact ⟨congrArg StoreReply.recover heq, hagree⟩
  | ready now limit fair => exact ⟨congrArg StoreReply.ready (h.ready resumeFrontier hok), h⟩
  | nextReadyAt => exact ⟨congrArg StoreReply.nextReadyAt (h.nextReadyAt resumeFrontier), h⟩

/-- A shortlist of less than five has no exploration lane. -/
theorem exploresAlike_of_short {lower : String → String} {limit : ℤ} (h : limit < 5)
    (candidates : List Task) : ExploresAlike lower limit candidates := by
  have hnone : (fairLaneLimits limit).exploration = 0 := by
    unfold fairLaneLimits
    split
    · rfl
    · show (limit.toNat - max 1 (limit.toNat / 2) - (limit.toNat - max 1 (limit.toNat / 2)) / 2) / 2
        = 0
      omega
  unfold ExploresAlike
  simp [hnone]

/-! ## An exploration task by priority, and one by age -/

/-- A task of the frontier. -/
def frontierTask (taskId : String) (action inputEventId : Stripped) (priority : ℚ)
    (createdAt : Instant) : Task where
  taskId
  worker := ⟨"gau", by decide, by decide⟩
  action
  inputEventId
  priority
  createdAt
  updatedAt := createdAt
  availableAt := createdAt
  lifecycle := by constructor <;> simp

def probeAction : Stripped := ⟨"archive", by decide, by decide⟩

def explorationAction : Stripped := ⟨"exploration", by decide, by decide⟩

/-- Two tasks with a high priority, and two that explore, the younger one of which has the higher
    priority. -/
def frontierPuts : List StoreOp :=
  [.put (frontierTask "tsk_a" probeAction ⟨"evt_a", by decide, by decide⟩ 9 0) true,
    .put (frontierTask "tsk_b" probeAction ⟨"evt_b", by decide, by decide⟩ 8 1) true,
    .put (frontierTask "tsk_c" explorationAction ⟨"evt_c", by decide, by decide⟩ 7 3) true,
    .put (frontierTask "tsk_d" explorationAction ⟨"evt_d", by decide, by decide⟩ 6 2) true]

end NightScout
