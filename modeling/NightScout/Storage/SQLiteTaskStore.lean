import NightScout.Core.TaskStore

/-!
# `SQLiteTaskStore`

The durable task store of `recon/storage/database.py`. A write is one `BEGIN IMMEDIATE` transaction
and `claim` and `save` are a single conditional `UPDATE`, so each is one function of the table; a
handle is bound to a run, which is the last argument of the operations that look at it.

The table has no column for the identity key. `_task_values` writes the dedupe key instead and
`_task_from_record` cuts the identity back out of it, so a task whose identity key is its own event
is read back without one: the same logical work under the same dedupe key
(`taskFromRecord_dedupeKey`).
-/

namespace NightScout

open Lib

/-- A row of `tasks`. -/
structure TaskRow where
  runId : Option String
  executionRunId : Option String
  /-- The columns a task has; its identity key is not one. -/
  values : Task
  dedupeKey : String
  no_identity : values.inputIdentityKey = none

structure TaskDb where
  rows : Dict String TaskRow

namespace TaskRow

/-- The task without its identity key, as the columns hold it. -/
def columns (task : Task) : Task :=
  ⟨{ task.toTaskFields with inputIdentityKey := none }, { task.lifecycle with }⟩

/-- `_task_values`, written into a new row. -/
def insert (runId : Option String) (task : Task) : TaskRow where
  runId := runId
  executionRunId := none
  values := columns task
  dedupeKey := task.dedupeKey
  no_identity := rfl

/-- `_task_values`, written over a row. -/
def update (row : TaskRow) (task : Task) : TaskRow :=
  { row with values := columns task, dedupeKey := task.dedupeKey, no_identity := rfl }

/-- What `_task_from_record` takes the row's logical input to be. -/
def logicalInput (row : TaskRow) : String :=
  let start := row.values.worker.text ++ ":" ++ row.values.action.text ++ ":"
  if start.toList <+: row.dedupeKey.toList then
    String.ofList (row.dedupeKey.toList.drop start.toList.length)
  else row.values.inputEventId.text

/-- The identity key `_task_from_record` gives a task. -/
def identityKey (row : TaskRow) : Option Stripped :=
  if row.logicalInput ≠ row.values.inputEventId.text then optionalText row.logicalInput else none

/-- `_task_from_record`. -/
def task (row : TaskRow) : Task :=
  ⟨{ row.values.toTaskFields with inputIdentityKey := row.identityKey },
    { row.values.lifecycle with }⟩

end TaskRow

/-! ## Writing a task and reading it back -/

/-- What a written task is read back as. -/
def reread (t : Task) : Task := (TaskRow.insert none t).task

theorem TaskRow.insert_task (runId : Option String) (t : Task) : (TaskRow.insert runId t).task = reread t := rfl

theorem TaskRow.update_task (row : TaskRow) (t : Task) : (row.update t).task = reread t := rfl

theorem logicalInput_insert (t : Task) : (TaskRow.insert none t).logicalInput =
    match t.inputIdentityKey with
    | some key => key.text
    | none => t.inputEventId.text := by
  have hlist : (TaskRow.insert none t).dedupeKey.toList =
      (t.worker.text ++ ":" ++ t.action.text ++ ":").toList ++
        (match t.inputIdentityKey with
          | some key => key.text
          | none => t.inputEventId.text).toList := by
    cases hkey : t.inputIdentityKey <;>
      simp only [TaskRow.insert, TaskFields.dedupeKey, String.toList_append, hkey]
  unfold TaskRow.logicalInput
  rw [hlist]
  simp only [TaskRow.insert, TaskRow.columns, List.prefix_append, if_true, List.drop_left,
    String.ofList_toList]

/-- **Reading back keeps the dedupe key.** -/
theorem reread_dedupeKey (t : Task) : (reread t).dedupeKey = t.dedupeKey := by
  have hid : (reread t).inputIdentityKey = (TaskRow.insert none t).identityKey := rfl
  have hkey : (reread t).dedupeKey = t.worker.text ++ ":" ++ t.action.text ++ ":" ++
      (match (reread t).inputIdentityKey with
        | some key => key.text
        | none => t.inputEventId.text) := rfl
  rw [hkey, hid, TaskRow.identityKey, logicalInput_insert]
  cases hinput : t.inputIdentityKey with
  | none => simp [TaskFields.dedupeKey, hinput, TaskRow.insert, TaskRow.columns]
  | some key =>
    simp only [TaskFields.dedupeKey, hinput]
    split
    · rename_i hsome
      rw [ite_eq_iff] at hsome
      rcases hsome with ⟨_, hsome⟩ | ⟨_, hsome⟩
      · rw [optionalText_text] at hsome
        rw [Option.some.inj hsome]
      · cases hsome
    · rename_i hnone
      rw [ite_eq_iff] at hnone
      rcases hnone with ⟨_, hnone⟩ | ⟨heq, _⟩
      · rw [optionalText_text] at hnone
        cases hnone
      · rw [not_not.mp heq]
        rfl

namespace TaskDb

def empty : TaskDb := ⟨.empty⟩

/-! ## The operations -/

def get (db : TaskDb) (taskId : String) : Option Task := (db.rows.get? taskId).map TaskRow.task

def activeByDedupeKey (db : TaskDb) (dedupeKey : String) : Option Task :=
  (db.rows.values.find? fun row =>
    row.dedupeKey = dedupeKey && !row.values.isTerminal).map TaskRow.task

/-- `put`. The row of an active duplicate is found before the insert, so what the insert can still
    violate is the primary key or a foreign key. -/
def put (db : TaskDb) (task : Task) (runId : Option String) (foreignKeys : Bool) :
    Except PyError Bool × TaskDb :=
  if db.rows.values.any fun row => row.dedupeKey = task.dedupeKey &&
      (!row.values.isTerminal || row.runId = runId) then (.ok false, db)
  else if foreignKeys && (db.rows.get? task.taskId).isNone then
    (.ok true, ⟨db.rows.set task.taskId (.insert runId task)⟩)
  else
    match db.activeByDedupeKey task.dedupeKey with
    | some _ => (.ok false, db)
    | none => (.error (.integrityError "tasks: constraint failed"), db)

/-- `uq_tasks_active_dedupe`, for the row `save` is about to write. -/
def uniqueActive (db : TaskDb) (task : Task) : Bool :=
  task.isTerminal || db.rows.entries.all fun e =>
    e.1 = task.taskId || e.2.dedupeKey ≠ task.dedupeKey || e.2.values.isTerminal

def save (db : TaskDb) (request : SaveRequest) : Except PyError Task × TaskDb :=
  let task := request.task
  match db.rows.get? task.taskId with
  | none => (.error (.keyError s!"unknown task_id: {task.taskId}"), db)
  | some row =>
    if request.Matches row.values then
      if db.uniqueActive task then
        (.ok (row.update task).task, ⟨db.rows.set task.taskId (row.update task)⟩)
      else
        match db.activeByDedupeKey task.dedupeKey with
        | some duplicate =>
          if duplicate.taskId ≠ task.taskId then
            (.error (.valueError ("active task already exists for dedupe key: " ++
              task.dedupeKey)), db)
          else (.error (.integrityError "UNIQUE constraint failed"), db)
        | none => (.error (.integrityError "UNIQUE constraint failed"), db)
    else
      (.error (.valueError
        s!"task {task.taskId} changed concurrently or claim token is stale"), db)

def claim (db : TaskDb) (taskId : String) (now leaseExpiresAt : Instant) (token : Stripped)
    (runId : Option String) : Except PyError Task × TaskDb :=
  match db.rows.get? taskId with
  | none => (.error (.keyError s!"unknown task_id: {taskId}"), db)
  | some row =>
    if h : row.values.Claimable now then
      let row := { row with
        executionRunId := runId
        values := row.values.claimed h.2.2 now leaseExpiresAt token
        no_identity := row.no_identity }
      (.ok row.task, ⟨db.rows.set taskId row⟩)
    else (.error (.valueError (row.values.claimRefusal now)), db)

/-- `all`, in order of creation. -/
def all (db : TaskDb) : List Task :=
  (db.rows.values.map TaskRow.task).insertionSort fun a b =>
    a.createdAt < b.createdAt ∨ a.createdAt = b.createdAt ∧ a.taskId ≤ b.taskId

/-! ## The table's constraints -/

structure Wf (db : TaskDb) : Prop where
  /-- The primary key. -/
  taskId : ∀ id row, db.rows.get? id = some row → row.values.taskId = id
  /-- The dedupe column is the dedupe key of the task read back. -/
  dedupeKey : ∀ id row, db.rows.get? id = some row → row.dedupeKey = row.task.dedupeKey
  /-- The unique index. -/
  unique : ∀ id id' row row', db.rows.get? id = some row → db.rows.get? id' = some row' →
    row.dedupeKey = row'.dedupeKey → row.values.isTerminal = false →
    row'.values.isTerminal = false → id = id'

theorem wf_empty : Wf empty := by
  constructor
  · intro id row h
    cases h
  · intro id row h
    cases h
  · intro id id' row row' h
    cases h

variable {db : TaskDb}

/-- A row written where no other active row has its key keeps the constraints. -/
theorem Wf.set (h : Wf db) {id : String} (row : TaskRow) (hid : row.values.taskId = id)
    (hkey : row.dedupeKey = row.task.dedupeKey)
    (hother : row.values.isTerminal = false → ∀ id' row', db.rows.get? id' = some row' →
      id' ≠ id → row'.dedupeKey = row.dedupeKey → row'.values.isTerminal = true) : Wf ⟨db.rows.set id row⟩ := by
  constructor
  · intro id' row' hrow
    simp only [Dict.get?_set] at hrow
    split at hrow
    · rename_i he
      cases hrow
      exact hid.trans he.symm
    · exact h.taskId id' row' hrow
  · intro id' row' hrow
    simp only [Dict.get?_set] at hrow
    split at hrow
    · cases hrow
      exact hkey
    · exact h.dedupeKey id' row' hrow
  · intro i j ri rj hi hj hk hti htj
    simp only [Dict.get?_set] at hi hj
    split at hi <;> split at hj
    · rename_i h1 h2
      exact h1.trans h2.symm
    · rename_i h1 h2
      cases hi
      rw [hother hti j rj hj h2 hk.symm] at htj
      cases htj
    · rename_i h1 h2
      cases hj
      rw [hother htj i ri hi h1 hk] at hti
      cases hti
    · exact h.unique i j ri rj hi hj hk hti htj

theorem get_eq_some {taskId : String} {t : Task} (h : db.get taskId = some t) :
    ∃ row, db.rows.get? taskId = some row ∧ row.task = t := by
  unfold get at h
  exact Option.map_eq_some_iff.mp h

theorem get_set (id id' : String) (row : TaskRow) :
    get ⟨db.rows.set id row⟩ id' = if id' = id then some row.task else db.get id' := by
  unfold get
  rw [Dict.get?_set]
  split <;> rfl

theorem matches_task {request : SaveRequest} {row : TaskRow} :
    request.Matches row.task ↔ request.Matches row.values := Iff.rfl

theorem put_law (h : Wf db) (t : Task) (runId : Option String) (fk : Bool) :
    ((db.put t runId fk).1 = .ok true ∧ db.get t.taskId = none ∧ Wf (db.put t runId fk).2 ∧
      ∀ id, (db.put t runId fk).2.get id =
        if id = t.taskId then some (reread t) else db.get id) ∨
    ((db.put t runId fk).1 ≠ .ok true ∧ (db.put t runId fk).2 = db) := by
  unfold put
  split
  · refine .inr ⟨?_, rfl⟩
    intro he
    cases he
  rename_i hdup
  split
  · rename_i hins
    simp only [Bool.and_eq_true, Option.isNone_iff_eq_none] at hins
    refine .inl ⟨rfl, ?_, ?_, fun id => get_set _ _ _⟩
    · unfold get
      rw [hins.2]
      rfl
    · apply h.set (.insert runId t) rfl (reread_dedupeKey t).symm
      intro _ id' row' hrow _ hk
      -- the select found no unfinished row of this key
      have hmem : row' ∈ db.rows.values := Dict.mem_values_iff.mpr ⟨id', hrow⟩
      simp only [List.any_eq_true, not_exists, not_and] at hdup
      have hno := hdup row' hmem
      have hk' : row'.dedupeKey = t.dedupeKey := hk
      simp only [hk', decide_true, Bool.true_and, Bool.or_eq_true, not_or, Bool.not_eq_true',
        Bool.not_eq_false] at hno
      exact hno.1
  · split
    · refine .inr ⟨?_, rfl⟩
      intro he
      cases he
    · refine .inr ⟨?_, rfl⟩
      intro he
      cases he

theorem save_unknown {request : SaveRequest} (hnone : db.get request.task.taskId = none) :
    ∃ message, db.save request = (.error (.keyError message), db) := by
  have hrow : db.rows.get? request.task.taskId = none := Option.map_eq_none_iff.mp hnone
  simp only [save, hrow]
  exact ⟨_, rfl⟩

theorem save_stale {request : SaveRequest} {previous : Task}
    (hprev : db.get request.task.taskId = some previous) (hstale : ¬ request.Matches previous) :
    ∃ message, db.save request = (.error (.valueError message), db) := by
  obtain ⟨row, hrow, rfl⟩ := get_eq_some hprev
  simp only [save, hrow, if_neg (mt matches_task.mpr hstale)]
  exact ⟨_, rfl⟩

/-- `save` that wins the compare writes the row, if no other unfinished row has its key. -/
theorem save_writes (h : Wf db) {request : SaveRequest} {row : TaskRow}
    (hrow : db.rows.get? request.task.taskId = some row) (hm : request.Matches row.values)
    (hother : request.task.isTerminal = false → ∀ id' row', db.rows.get? id' = some row' →
      id' ≠ request.task.taskId → row'.dedupeKey = request.task.dedupeKey → row'.values.isTerminal = true) :
    db.save request = (.ok (reread request.task), ⟨db.rows.set request.task.taskId (row.update request.task)⟩) ∧
      Wf ⟨db.rows.set request.task.taskId (row.update request.task)⟩ := by
  have hunique : db.uniqueActive request.task = true := by
    unfold uniqueActive
    rw [Bool.or_eq_true]
    cases hterm : request.task.isTerminal with
    | true => exact .inl rfl
    | false =>
      right
      rw [List.all_eq_true]
      intro e he
      simp only [Bool.or_eq_true, decide_eq_true_eq]
      by_cases hid : e.1 = request.task.taskId
      · exact .inl (.inl hid)
      by_cases hk : e.2.dedupeKey = request.task.dedupeKey
      · exact .inr (hother hterm e.1 e.2 (Dict.mem_entries_iff.mp he) hid hk)
      · exact .inl (.inr hk)
  constructor
  · simp only [save, hrow, if_pos hm, hunique, if_true, TaskRow.update_task]
  · exact h.set (row.update request.task) rfl (reread_dedupeKey _).symm hother

theorem save_ok (h : Wf db) {request : SaveRequest} {previous : Task}
    (hprev : db.get request.task.taskId = some previous) (hm : request.Matches previous)
    (hlive : previous.isTerminal = false) (hkey : previous.dedupeKey = request.task.dedupeKey) :
    (db.save request).1 = .ok (reread request.task) ∧ Wf (db.save request).2 ∧ ∀ id, (db.save request).2.get id =
        if id = request.task.taskId then some (reread request.task) else db.get id := by
  obtain ⟨row, hrow, rfl⟩ := get_eq_some hprev
  have hrowkey : row.dedupeKey = request.task.dedupeKey := (h.dedupeKey _ _ hrow).trans hkey
  obtain ⟨hsave, hwf⟩ := save_writes h hrow (matches_task.mp hm) (by
    intro _ id' row' hrow' hne hk
    by_contra hterm
    rw [Bool.not_eq_true] at hterm
    exact hne (h.unique _ _ row' row hrow' hrow (hk.trans hrowkey.symm) hterm hlive))
  rw [hsave]
  refine ⟨rfl, hwf, fun id => ?_⟩
  rw [get_set, TaskRow.update_task]

theorem claimable_task {row : TaskRow} {now : Instant} : row.task.Claimable now ↔ row.values.Claimable now := Iff.rfl

theorem claim_refused {taskId : String} {now leaseExpiresAt : Instant} {token : Stripped}
    {runId : Option String} {t : Task} (ht : db.get taskId = some t) (hc : ¬ t.Claimable now) :
    db.claim taskId now leaseExpiresAt token runId = (.error (.valueError (t.claimRefusal now)), db) := by
  obtain ⟨row, hrow, rfl⟩ := get_eq_some ht
  simp only [claim, hrow, dif_neg (mt claimable_task.mpr hc)]
  rfl

theorem claim_ok (h : Wf db) {taskId : String} {now : Instant} (leaseExpiresAt : Instant)
    (token : Stripped) (runId : Option String) {t : Task} (ht : db.get taskId = some t) (hc : t.Claimable now) :
    (db.claim taskId now leaseExpiresAt token runId).1 = .ok (t.claimed hc.2.2 now leaseExpiresAt token) ∧
      Wf (db.claim taskId now leaseExpiresAt token runId).2 ∧
      ∀ id, (db.claim taskId now leaseExpiresAt token runId).2.get id =
        if id = taskId then some (t.claimed hc.2.2 now leaseExpiresAt token) else db.get id := by
  obtain ⟨row, hrow, rfl⟩ := get_eq_some ht
  have hlive : row.values.isTerminal = false := TaskStatus.isTerminal_of_isRunnable hc.1
  simp only [claim, hrow, dif_pos (claimable_task.mp hc)]
  refine ⟨rfl, ?_, fun id => get_set _ _ _⟩
  refine h.set _ (h.taskId taskId row hrow) (h.dedupeKey taskId row hrow) ?_
  intro _ id' row' hrow' hne hk
  by_contra hterm
  rw [Bool.not_eq_true] at hterm
  exact hne (h.unique _ _ row' row hrow' hrow hk hterm hlive)

end TaskDb

/-- `SQLiteTaskStore`, as a task store. -/
def sqliteTaskStore : TaskStore TaskDb where
  empty := .empty
  put := TaskDb.put
  get := TaskDb.get
  save := TaskDb.save
  claim := TaskDb.claim
  all := TaskDb.all

/-- **The SQLite store is lawful.** -/
def sqliteTaskStore_lawful : sqliteTaskStore.Lawful where
  Wf := TaskDb.Wf
  reread := reread
  reread_fields _ := rfl
  reread_dedupeKey := reread_dedupeKey
  wf_empty := TaskDb.wf_empty
  get_empty _ := rfl
  get_taskId db id t h ht := by
    obtain ⟨row, hrow, rfl⟩ := TaskDb.get_eq_some ht
    exact h.taskId id row hrow
  put_law db t run fk h _ := TaskDb.put_law h t run fk
  save_unknown db request _ hnone := TaskDb.save_unknown hnone
  save_stale db request previous _ hprev hstale := TaskDb.save_stale hprev hstale
  save_ok db request previous h hprev hm hlive hkey := TaskDb.save_ok h hprev hm hlive hkey
  claim_unknown db id now lease token run _ hnone := by
    have hrow : db.rows.get? id = none := Option.map_eq_none_iff.mp hnone
    have hclaim : db.claim id now lease token run =
        (.error (.keyError s!"unknown task_id: {id}"), db) := by
      simp only [TaskDb.claim, hrow]
    exact ⟨_, hclaim⟩
  claim_refused db id now lease token run t _ ht hc := TaskDb.claim_refused ht hc
  claim_ok db id now lease token run t h ht hc := TaskDb.claim_ok h lease token run ht hc
  all_law db t _ := by
    have hall : t ∈ db.all ↔ t ∈ db.rows.values.map TaskRow.task :=
      (List.perm_insertionSort _ _).mem_iff
    rw [show sqliteTaskStore.all db = db.all from rfl, hall, List.mem_map]
    constructor
    · rintro ⟨row, hrow, rfl⟩
      obtain ⟨id, hid⟩ := Dict.mem_values_iff.mp hrow
      exact ⟨id, Option.map_eq_some_iff.mpr ⟨row, hid, rfl⟩⟩
    · rintro ⟨id, hid⟩
      obtain ⟨row, hrow, rfl⟩ := TaskDb.get_eq_some hid
      exact ⟨row, Dict.mem_values_iff.mpr ⟨id, hrow⟩, rfl⟩

end NightScout
