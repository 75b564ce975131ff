import NightScout.Core.ClaimFencing
import NightScout.Runtime.EventBus
import NightScout.Storage.AssetRows

/-!
# Whether an observation gets its tasks

The observation is stored first and the event is projected and routed after it, by transactions of their
own. If one of them fails the publication raises, and the next one of the same event finds the
observation and returns: the event is never routed (`a_retry_is_short_circuited`). `publish_envelope` is
that a publication that returned has routed and projected its event, and stays so, in every run in which
no publication that stores an observation fails on the way to the last of its tasks.
-/

namespace NightScout

open Lib

/-! ## Deduplication -/

/-- What a store promises of a task that is put: there is one of its key afterwards. `Known` is an
    invariant of the store's index of keys. -/
structure TaskStore.Dedupes {σ : Type} (store : TaskStore σ) (L : store.Lawful) where
  Known : σ → Prop
  known_empty : Known store.empty
  put_law : ∀ s t run, L.Wf s → Known s → store.get s t.taskId = none →
    (∃ inserted, (store.put s t run true).1 = .ok inserted) ∧ Known (store.put s t run true).2 ∧
      ∃ id old, store.get (store.put s t run true).2 id = some old ∧ old.dedupeKey = t.dedupeKey

/-- Every known key is that of a task. -/
def InMemoryTaskStore.KeysKnown (s : InMemoryTaskStore) : Prop :=
  ∀ key id, s.knownKeys.get? key = some id → ∃ t, s.tasks.get? id = some t ∧ t.dedupeKey = key

def inMemoryTaskStore_dedupes : inMemoryTaskStore.Dedupes inMemoryTaskStore_lawful where
  Known := InMemoryTaskStore.KeysKnown
  known_empty _ _ h := by cases h
  put_law s t run hwf hknown hnew := by
    have hnew : s.tasks.get? t.taskId = none := hnew
    show (∃ inserted, (s.put t).1 = .ok inserted) ∧ InMemoryTaskStore.KeysKnown (s.put t).2 ∧
      ∃ id old, (s.put t).2.tasks.get? id = some old ∧ old.dedupeKey = t.dedupeKey
    unfold InMemoryTaskStore.put
    cases hk : s.knownKeys.get? t.dedupeKey with
    | some id => exact ⟨⟨_, rfl⟩, hknown, id, hknown _ id hk⟩
    | none =>
      simp only [InMemoryTaskStore.Wf.active_none hwf hk]
      refine ⟨⟨_, rfl⟩, ?_, t.taskId, t, Dict.get?_set_self _ _ _, rfl⟩
      intro key id hkey
      simp only [InMemoryTaskStore.insert, Dict.get?_set] at hkey ⊢
      split at hkey
      next heq =>
        cases hkey
        exact ⟨t, if_pos rfl, heq.symm⟩
      next =>
        obtain ⟨old, hold, holdKey⟩ := hknown key id hkey
        have hne : id ≠ t.taskId := by
          intro hid
          rw [hid, hnew] at hold
          cases hold
        exact ⟨old, (if_neg hne).trans hold, holdKey⟩

def sqliteTaskStore_dedupes : sqliteTaskStore.Dedupes sqliteTaskStore_lawful where
  Known _ := True
  known_empty := trivial
  put_law db t run hwf _ hnew := by
    have hwf : TaskDb.Wf db := hwf
    have hrow : db.rows.get? t.taskId = none := Option.map_eq_none_iff.mp hnew
    have hput : sqliteTaskStore.put db t run true = db.put t run true := rfl
    rw [hput]
    unfold TaskDb.put
    split
    next hdup =>
      -- a row of the key is what the select found
      obtain ⟨row, hmem, hrowKey⟩ := List.any_eq_true.mp hdup
      rw [Bool.and_eq_true, decide_eq_true_eq] at hrowKey
      obtain ⟨id, hid⟩ := Dict.mem_values_iff.mp hmem
      have hget : db.get id = some row.task := congrArg (Option.map TaskRow.task) hid
      refine ⟨⟨_, rfl⟩, trivial, id, row.task, hget, ?_⟩
      rw [← hwf.dedupeKey id row hid]
      exact hrowKey.1
    next =>
      rw [hrow]
      have hget : TaskDb.get ⟨db.rows.set t.taskId (.insert run t)⟩ t.taskId =
          some (TaskRow.insert run t).task := (TaskDb.get_set _ _ _).trans (if_pos rfl)
      exact ⟨⟨_, rfl⟩, trivial, t.taskId, _, hget, reread_dedupeKey t⟩

/-- Both stores deduplicate. -/
def TaskBackend.dedupes : (b : TaskBackend) → b.store.Dedupes b.lawful
  | memory => inMemoryTaskStore_dedupes
  | sqlite => sqliteTaskStore_dedupes

/-- A task of the key is stored. -/
def TaskStore.HasTask {σ : Type} (store : TaskStore σ) (s : σ) (key : String) : Prop :=
  ∃ id t, store.get s id = some t ∧ t.dedupeKey = key

/-! ## What a call should do, and when -/

namespace PublishCall

section Specification

variable (lower : String → String) (router : Router) (config : BusConfiguration)

/-- What the router makes of the event. -/
def expansion (call : PublishCall) : Except PyError (List Task) :=
  match call.prepared with
  | .error e => .error e
  | .ok normalized => router.expand lower normalized (call.context config) call.taskIds call.now

/-- The keys of its tasks. -/
def taskKeys (call : PublishCall) : List String :=
  match call.expansion lower router config with
  | .error _ => []
  | .ok tasks => tasks.map fun task => task.dedupeKey

variable {σ : Type} (store : TaskStore σ)

/-- Every task of the event is stored, or one of its key, and the event has been projected. -/
def Settled (s : BusState σ) (call : PublishCall) : Prop :=
  (∀ key ∈ call.taskKeys lower router config, store.HasTask s.tasks key) ∧
    (config.projectSurfaceRelationships = true → call.event.eventId ∈ s.projected)

/-- Nothing fails between the ingestion and the last task: no collaborator raises what is not handled,
    the rows the tasks refer to are stored, and the tasks get new identifiers. -/
def Undisturbed (s : BusState σ) (call : PublishCall) : Prop :=
  call.logError = none ∧
  (∀ e ∈ call.parentError, e.isKeyOrValue = true) ∧
  call.projection.toBool = true ∧
  (∀ e ∈ call.snapshotError, e.isKeyOrValue = true) ∧
  call.branchError = none ∧
  (call.expansion lower router config).toBool = true ∧
  (∀ i < router.rules.length, call.enqueueError i = none ∧ call.foreignKeys i = true ∧
    store.get s.tasks (call.taskIds i) = none) ∧
  ∀ i < router.rules.length, ∀ j < router.rules.length, call.taskIds i = call.taskIds j → i = j

instance (s : BusState σ) (call : PublishCall) :
    Decidable (call.Undisturbed lower router config store s) :=
  inferInstanceAs (Decidable (_ ∧ _ ∧ _ ∧ _ ∧ _ ∧ _ ∧ _ ∧ _))

end Specification

/-! ## Enqueueing -/

section Steps

variable {lower : String → String} {lib : Sanitizer} {knownKind : String → Bool} {router : Router}
    {config : BusConfiguration} {σ : Type} {store : TaskStore σ} {L : store.Lawful}
    {D : store.Dedupes L}

/-- A task with a new identifier is put, or there is one of its key. -/
theorem put_new {s : σ} (hwf : L.Wf s) (hknown : D.Known s) (task : Task)
    (hnew : store.get s task.taskId = none) (runId : Option String) :
    ∃ inserted s', store.put s task runId true = (.ok inserted, s') ∧ L.Wf s' ∧
      D.Known s' ∧ store.HasTask s' task.dedupeKey ∧ (∀ key, store.HasTask s key → store.HasTask s' key) ∧
      ∀ id, id ≠ task.taskId → store.get s id = none → store.get s' id = none := by
  have hdedupe := D.put_law s task runId hwf hknown hnew
  have hlaw := L.put_law s task runId true hwf fun old hold => nomatch hnew.symm.trans hold
  cases hput : store.put s task runId true with
  | mk answer s' =>
    rw [hput] at hdedupe hlaw
    obtain ⟨⟨inserted, hok⟩, hknown', hkey⟩ := hdedupe
    refine ⟨inserted, s', Prod.ext hok rfl, ?_⟩
    rcases hlaw with ⟨_, _, hwf', hget⟩ | ⟨_, hs⟩
    · refine ⟨hwf', hknown', hkey, ?_, ?_⟩
      · intro key ⟨id, t, ht, htkey⟩
        refine ⟨id, t, ?_, htkey⟩
        rw [hget, if_neg]
        · exact ht
        · intro hid
          rw [hid, hnew] at ht
          cases ht
      · intro id hid hnone
        rw [hget, if_neg hid]
        exact hnone
    · have hs : s' = s := hs
      subst hs
      exact ⟨hwf, hknown', hkey, fun _ h => h, fun _ _ h => h⟩

theorem enqueue_new {s : σ} (hwf : L.Wf s) (hknown : D.Known s) {task : Task}
    (hstatus : task.status = .pending) (hnew : store.get s task.taskId = none) (now : Instant) (runId : Option String) :
    ∃ inserted s', TaskQueue.enqueue store s task now runId true = (.ok inserted, s') ∧ L.Wf s' ∧
      D.Known s' ∧ store.HasTask s' task.dedupeKey ∧ (∀ key, store.HasTask s key → store.HasTask s' key) ∧
      ∀ id, id ≠ task.taskId → store.get s id = none → store.get s' id = none := by
  unfold TaskQueue.enqueue
  rw [hstatus]
  exact put_new (D := D) hwf hknown
    ⟨{ task.toTaskFields with updatedAt := now }, { task.lifecycle with }⟩ hnew runId

end Steps

end PublishCall

/-- The observations, the tasks and the projected events. -/
def BusState.core {σ : Type} (s : BusState σ) : EventDb × σ × List String :=
  (s.events, s.tasks, s.projected)

namespace PublishCall

section Steps

variable {lower : String → String} {lib : Sanitizer} {knownKind : String → Bool} {router : Router}
    {config : BusConfiguration} {σ : Type} {store : TaskStore σ} {L : store.Lawful}
    {D : store.Dedupes L} {call : PublishCall}

/-- The program returns and leaves the core. -/
def Quiet (p : Prog (BusState σ) PyError Unit) : Prop :=
  ∀ core, Triple (fun s => s.core = core) p (fun _ s => s.core = core) fun _ _ => False

theorem quiet_pure : Quiet (pure () : Prog (BusState σ) PyError Unit) := fun _ _ hs => hs

theorem quiet_write {f : BusState σ → BusState σ} (h : ∀ s, (f s).core = s.core) : Quiet (.write f) := by
  intro core s hs
  exact (h s).trans hs

theorem quiet_appendLog (h : call.logError = none) (normalized : Event) :
    Quiet (σ := σ) (call.appendLog normalized) := by
  intro core
  unfold appendLog
  rw [h]
  exact .bind (.raising_none fun _ hs => hs) fun _ => quiet_write (fun _ => rfl) core

theorem quiet_warn (message : String) : Quiet (σ := σ) (warn message) := quiet_write fun _ => rfl

theorem quiet_captureParent (h : ∀ e ∈ call.parentError, e.isKeyOrValue = true)
    (normalized : Event) : Quiet (σ := σ) (call.captureParent normalized) := by
  unfold captureParent
  cases normalized.parentEventId with
  | none => exact quiet_pure
  | some _ =>
    cases he : call.parentError with
    | none => exact quiet_write fun _ => rfl
    | some e =>
      simp only [h e he, if_true]
      exact quiet_warn _

theorem quiet_captureSnapshot (h : ∀ e ∈ call.snapshotError, e.isKeyOrValue = true)
    (normalized : Event) : Quiet (σ := σ) (call.captureSnapshot knownKind config normalized) := by
  unfold captureSnapshot
  split
  · exact quiet_pure
  · split
    · split
      · exact quiet_warn _
      · cases he : call.snapshotError with
        | none => exact quiet_write fun _ => rfl
        | some e =>
          simp only [h e he, if_true]
          exact quiet_warn _
    · exact quiet_pure

theorem quiet_ensureBranch (h : call.branchError = none) : Quiet (σ := σ) call.ensureBranch := by
  unfold ensureBranch
  cases call.branchId with
  | none => exact quiet_pure
  | some branchId =>
    intro core
    rw [h]
    exact .bind (.raising_none fun _ hs => hs) fun _ => quiet_write (fun _ => rfl) core

variable (config) in
/-- All tasks are put, from the `i`-th on. -/
theorem enqueueMany_spec {n : ℕ} (hanswers : ∀ i < n, call.enqueueError i = none ∧ call.foreignKeys i = true)
    (hdistinct : ∀ i < n, ∀ j < n, call.taskIds i = call.taskIds j → i = j) (events : EventDb)
    (projected : List String) (tasks : List Task) (i : ℕ) (ts : σ) (hwf : L.Wf ts)
    (hknown : D.Known ts) (hnumbered : Router.Numbered call.taskIds i tasks) (hlength : i + tasks.length ≤ n)
    (hfresh : ∀ j < n, i ≤ j → store.get ts (call.taskIds j) = none) :
    Triple (fun s : BusState σ => s.core = (events, ts, projected))
      (call.enqueueMany config store i tasks)
      (fun _ s => ∃ ts', s.core = (events, ts', projected) ∧ L.Wf ts' ∧ D.Known ts' ∧
        (∀ key, store.HasTask ts key → store.HasTask ts' key) ∧ ∀ task ∈ tasks, store.HasTask ts' task.dedupeKey)
      fun _ _ => False := by
  induction tasks generalizing i ts with
  | nil =>
    intro s hs
    exact ⟨ts, hs, hwf, hknown, fun _ h => h, fun _ h => nomatch h⟩
  | cons task tasks ih =>
    obtain ⟨hid, hstatus, hnumbered⟩ := hnumbered
    rw [List.length_cons] at hlength
    have hi : i < n := by omega
    obtain ⟨hraise, hfk⟩ := hanswers i hi
    have hnew : store.get ts task.taskId = none := hid ▸ hfresh i hi (le_refl i)
    obtain ⟨inserted, ts', hput, hwf', hknown', hkey, hkeys, hother⟩ :=
      enqueue_new (D := D) hwf hknown hstatus hnew call.now config.runId
    have hfresh' : ∀ j < n, i + 1 ≤ j → store.get ts' (call.taskIds j) = none := by
      intro j hj hij
      apply hother
      · intro heq
        rw [hid] at heq
        have := hdistinct j hj i hi heq
        omega
      · exact hfresh j hj (by omega)
    apply Triple.bind (R := fun _ s => s.core = (events, ts', projected))
    · unfold enqueue
      rw [hraise, hfk]
      refine .bind (R := fun _ s => s.core = (events, ts, projected)) (.raising_none fun _ hs => hs)
        fun _ => ?_
      apply Triple.act
      intro s hs
      obtain ⟨hevents, htasks, hprojected⟩ : s.events = events ∧ s.tasks = ts ∧
          s.projected = projected := by
        simpa only [BusState.core, Prod.mk.injEq] using hs
      simp only [htasks, hput]
      show (s.events, ts', s.projected) = (events, ts', projected)
      rw [hevents, hprojected]
    · intro _
      refine (ih (i + 1) ts' hwf' hknown' hnumbered (by omega) hfresh').conseq (fun _ h => h) ?_
        fun _ _ h => h
      intro _ s ⟨ts'', hcore, hwf'', hknown'', hkeys', htasks⟩
      refine ⟨ts'', hcore, hwf'', hknown'', fun key h => hkeys' key (hkeys key h), ?_⟩
      intro t ht
      rcases List.mem_cons.mp ht with rfl | ht
      · exact hkeys' _ hkey
      · exact htasks t ht

theorem project_spec (h : call.projection.toBool = true) (normalized : Event) (events : EventDb)
    (ts : σ) (projected : List String) :
    Triple (fun s : BusState σ => s.core = (events, ts, projected)) (call.project config normalized)
      (fun _ s => ∃ projected', s.core = (events, ts, projected') ∧
        (∀ id ∈ projected, id ∈ projected') ∧
        (config.projectSurfaceRelationships = true → normalized.eventId ∈ projected'))
      fun _ _ => False := by
  unfold project
  cases hconfig : config.projectSurfaceRelationships with
  | false => exact .pure fun s hs => ⟨projected, hs, fun _ h => h, fun h => nomatch h⟩
  | true =>
    cases hwarnings : call.projection with
    | error e =>
      rw [hwarnings] at h
      cases h
    | ok warnings =>
      refine .bind (R := fun _ s => s.core = (events, ts, projected)) (.answer_ok fun _ hs => hs)
        fun found => .act fun s hs => ?_
      obtain ⟨hevents, htasks, hprojected⟩ : s.events = events ∧ s.tasks = ts ∧
          s.projected = projected := by
        simpa only [BusState.core, Prod.mk.injEq] using hs
      refine ⟨normalized.eventId :: projected, ?_, ?_, fun _ => List.mem_cons_self⟩
      · show (s.events, s.tasks, normalized.eventId :: s.projected) = _
        rw [hevents, htasks, hprojected]
      · intro id hid
        exact List.mem_cons_of_mem _ hid

variable (knownKind) in
/-- Between the ingestion and the last task an undisturbed call settles itself. -/
theorem envelope_spec {s₀ : BusState σ} (h : call.Undisturbed lower router config store s₀)
    (hwf : L.Wf s₀.tasks) (hknown : D.Known s₀.tasks) {normalized : Event}
    (hprepared : call.prepared = .ok normalized) (events : EventDb) :
    Triple (fun s : BusState σ => s.core = (events, s₀.tasks, s₀.projected))
      (call.envelope lower knownKind router config store normalized)
      (fun _ s => s.events = events ∧ L.Wf s.tasks ∧ D.Known s.tasks ∧
        (∀ key, store.HasTask s₀.tasks key → store.HasTask s.tasks key) ∧
        (∀ id ∈ s₀.projected, id ∈ s.projected) ∧ call.Settled lower router config store s)
      fun _ _ => False := by
  obtain ⟨hlog, hparent, hprojection, hsnapshot, hbranch, hexpansion, hanswers, hdistinct⟩ := h
  cases htasks : call.expansion lower router config with
  | error e =>
    rw [htasks] at hexpansion
    cases hexpansion
  | ok tasks =>
    have hexpand : router.expand lower normalized (call.context config) call.taskIds call.now =
        .ok tasks := by
      rw [← htasks]
      unfold expansion
      rw [hprepared]
    obtain ⟨hlength, hnumbered⟩ := Router.expand_ok hexpand
    unfold envelope route
    rw [hexpand]
    refine .bind (quiet_appendLog hlog normalized _) fun _ => ?_
    refine .bind (quiet_captureParent hparent normalized _) fun _ => ?_
    refine .bind (project_spec hprojection normalized events s₀.tasks s₀.projected) fun _ => ?_
    apply Triple.intro_ex
    intro projected ⟨hgrown, hprojected⟩
    refine .bind (quiet_captureSnapshot hsnapshot normalized _) fun _ => ?_
    refine .bind (quiet_ensureBranch hbranch _) fun _ => ?_
    refine .bind (R := fun found s => found = tasks ∧ s.core = (events, s₀.tasks, projected))
      (.answer_ok fun _ hs => ⟨rfl, hs⟩) fun found => ?_
    apply Triple.intro_and
    rintro rfl
    have hmany := enqueueMany_spec config (D := D)
      (fun i hi => ⟨(hanswers i hi).1, (hanswers i hi).2.1⟩) hdistinct events projected found 0
      s₀.tasks hwf hknown hnumbered (by omega) fun i hi _ => (hanswers i hi).2.2
    refine hmany.conseq (fun _ hs => hs) ?_ fun _ _ h => h
    intro _ s ⟨ts, hcore, hwf', hknown', hkeys, hstored⟩
    obtain ⟨hevents, hts, hproj⟩ : s.events = events ∧ s.tasks = ts ∧ s.projected = projected := by
      simpa only [BusState.core, Prod.mk.injEq] using hcore
    subst hts hproj
    refine ⟨hevents, hwf', hknown', hkeys, hgrown, ?_, ?_⟩
    · intro key hkey
      rw [taskKeys, htasks] at hkey
      obtain ⟨task, htask, rfl⟩ := List.mem_map.mp hkey
      exact hstored task htask
    · intro hconfig
      rw [← call.prepared_id normalized hprepared]
      exact hprojected hconfig

/-! ## Publishing -/

variable (lib config) in
theorem ingest_cases (call : PublishCall) (normalized : Event) (s : BusState σ) :
    (∃ e, (call.ingest lib config normalized).exec s = (.error e, s)) ∨
      ∃ write events, (call.ingest lib config normalized).exec s = (.ok write, { s with events }) ∧
        (write.observationCreated = true ↔ ¬ s.events.Stored normalized.eventId) ∧
        ∀ id, events.Stored id ↔ id = normalized.eventId ∨ s.events.Stored id := by
  unfold ingest
  rw [Prog.exec_act]
  cases call.ingestError with
  | some e => exact .inl ⟨e, rfl⟩
  | none =>
    rcases s.events.ingest_stored lib normalized config.runId call.assetId call.runStored with
      ⟨e, hrun⟩ | ⟨write, events, hrun, hcreated, hstored⟩
    · left
      exact ⟨e, by simp only [hrun]⟩
    · right
      exact ⟨write, events, by simp only [hrun], hcreated, hstored⟩

/-- The publication makes an observation. -/
def Stores (lib : Sanitizer) (config : BusConfiguration) (s : BusState σ) (call : PublishCall) : Bool :=
  match call.prepared with
  | .error _ => false
  | .ok normalized =>
    match ((call.ingest lib config normalized).exec s).1 with
    | .error _ => false
    | .ok write => write.observationCreated

/-- What a publication does: it raises before anything is stored, merges an observation, or stores one
    and settles itself. -/
theorem publish_cases {s : BusState σ} (hwf : L.Wf s.tasks) (hknown : D.Known s.tasks)
    (hok : call.Stores lib config s = true → call.Undisturbed lower router config store s)
    {r : Except PyError Bool} {s' : BusState σ}
    (hrun : (call.publish lower lib knownKind router config store).exec s = (r, s')) :
    (call.Stores lib config s = false ∧ s'.tasks = s.tasks ∧ s'.projected = s.projected ∧
      (∀ id, s'.events.Stored id ↔ s.events.Stored id) ∧ ∀ b, r = .ok b → s.events.Stored call.event.eventId) ∨
    (call.Stores lib config s = true ∧ (∀ id, s'.events.Stored id ↔ id = call.event.eventId ∨ s.events.Stored id) ∧
      L.Wf s'.tasks ∧ D.Known s'.tasks ∧ (∀ key, store.HasTask s.tasks key → store.HasTask s'.tasks key) ∧
      (∀ id ∈ s.projected, id ∈ s'.projected) ∧ call.Settled lower router config store s') := by
  unfold publish at hrun
  cases hprepared : call.prepared with
  | error e =>
    rw [hprepared, Prog.exec_bind_error (Prog.exec_answer _ _)] at hrun
    cases hrun
    refine .inl ⟨?_, rfl, rfl, fun _ => Iff.rfl, fun _ h => nomatch h⟩
    unfold Stores
    rw [hprepared]
  | ok normalized =>
    have hid := call.prepared_id normalized hprepared
    rw [hprepared, Prog.exec_bind_ok (Prog.exec_answer _ _)] at hrun
    have hstores : call.Stores lib config s =
        match ((call.ingest lib config normalized).exec s).1 with
        | .error _ => false
        | .ok write => write.observationCreated := by
      unfold Stores
      rw [hprepared]
    rcases ingest_cases lib config call normalized s with
      ⟨e, hingest⟩ | ⟨write, events, hingest, hcreated, hstored⟩
    · rw [Prog.exec_bind_error hingest] at hrun
      cases hrun
      refine .inl ⟨?_, rfl, rfl, fun _ => Iff.rfl, fun _ h => nomatch h⟩
      rw [hstores, hingest]
    · rw [Prog.exec_bind_ok hingest] at hrun
      rw [hingest] at hstores
      rw [hid] at hcreated hstored
      cases hobserved : write.observationCreated with
      | false =>
        have hold : s.events.Stored call.event.eventId := by
          by_contra h
          rw [hcreated.mpr h] at hobserved
          cases hobserved
        rw [if_pos hobserved] at hrun
        cases hrun
        refine .inl ⟨hstores.trans hobserved, rfl, rfl, fun id => ?_, fun _ _ => hold⟩
        refine (hstored id).trans ⟨?_, .inr⟩
        rintro (rfl | h)
        · exact hold
        · exact h
      | true =>
        rw [if_neg (by simp [hobserved])] at hrun
        have hundisturbed := hok (hstores.trans hobserved)
        have hspec := envelope_spec knownKind hundisturbed hwf hknown hprepared
          events { s with events } rfl
        right
        cases henvelope : (call.envelope lower knownKind router config store normalized).exec
            { s with events } with
        | mk r' s'' =>
          rw [henvelope] at hspec
          cases r' with
          | error e => exact hspec.elim
          | ok _ =>
            obtain ⟨hevents, hwf', hknown', hkeys, hprojected, hsettled⟩ := hspec
            rw [Prog.exec_bind_ok henvelope] at hrun
            -- the derived events raise or not, on the same state
            have hs : s' = s'' := by
              cases hfollow : call.followUpError with
              | none =>
                rw [hfollow, Prog.exec_bind_ok (Prog.exec_raising_none _)] at hrun
                cases hrun
                rfl
              | some e =>
                rw [hfollow, Prog.exec_bind_error (Prog.exec_raising_some _ _)] at hrun
                cases hrun
                rfl
            subst hs
            rw [hevents]
            exact ⟨hstores.trans hobserved, hstored, hwf', hknown', hkeys, hprojected, hsettled⟩

/-- What has been settled stays so. -/
theorem Settled.mono {s s' : BusState σ} (h : call.Settled lower router config store s)
    (hkeys : ∀ key, store.HasTask s.tasks key → store.HasTask s'.tasks key)
    (hprojected : ∀ id ∈ s.projected, id ∈ s'.projected) : call.Settled lower router config store s' :=
  ⟨fun key hkey => hkeys key (h.1 key hkey), fun hconfig => hprojected _ (h.2 hconfig)⟩

end Steps

end PublishCall

/-! ## Runs -/

/-- The state, and the calls that made its observations. -/
structure PublishWorld (σ : Type) where
  state : BusState σ
  created : List PublishCall

namespace PublishWorld

section Runs

variable (lower : String → String) (lib : Sanitizer) (knownKind : String → Bool) (router : Router)
    (config : BusConfiguration) {σ : Type} (store : TaskStore σ)

def init : PublishWorld σ := ⟨⟨.empty, store.empty, [], [], [], [], [], []⟩, []⟩

/-- A publication. -/
def next (w : PublishWorld σ) (call : PublishCall) : PublishWorld σ where
  state := ((call.publish lower lib knownKind router config store).exec w.state).2
  created := if call.Stores lib config w.state then call :: w.created else w.created

/-- The publication stores an observation and is undisturbed; or it is of an observation whose
    publication asked for all the tasks that this one asks for. -/
def Orderly (w : PublishWorld σ) (call : PublishCall) : Prop :=
  (call.Stores lib config w.state = true →
    call.Undisturbed lower router config store w.state) ∧
  (w.state.events.Stored call.event.eventId → ∀ first ∈ w.created,
    first.event.eventId = call.event.eventId →
      ∀ key ∈ call.taskKeys lower router config, key ∈ first.taskKeys lower router config)

instance (w : PublishWorld σ) (call : PublishCall) :
    Decidable (w.Orderly lower lib router config store call) :=
  inferInstanceAs (Decidable (_ ∧ _))

variable {lower lib knownKind router config store} {L : store.Lawful} {D : store.Dedupes L}

/-- What holds between orderly publications: every observation was made by a call that is settled. -/
structure Inv (D : store.Dedupes L) (lower : String → String) (router : Router)
    (config : BusConfiguration) (w : PublishWorld σ) : Prop where
  wf : L.Wf w.state.tasks
  known : D.Known w.state.tasks
  settled : ∀ first ∈ w.created, first.Settled lower router config store w.state
  source : ∀ id, w.state.events.Stored id → ∃ first ∈ w.created, first.event.eventId = id

theorem inv_init : (init store).Inv D lower router config where
  wf := L.wf_empty
  known := D.known_empty
  settled _ h := nomatch h
  source _ h := (h rfl).elim

variable (knownKind) in
theorem inv_next {w : PublishWorld σ} (hinv : w.Inv D lower router config) {call : PublishCall}
    (hok : w.Orderly lower lib router config store call) :
    (w.next lower lib knownKind router config store call).Inv D lower router config ∧
      ∀ b, ((call.publish lower lib knownKind router config store).exec w.state).1 = .ok b →
        call.Settled lower router config store (w.next lower lib knownKind router config store call).state := by
  cases hrun : (call.publish lower lib knownKind router config store).exec w.state with
  | mk r s' =>
    have hnext : w.next lower lib knownKind router config store call =
        ⟨s', if call.Stores lib config w.state then call :: w.created else w.created⟩ := by
      unfold next
      rw [hrun]
    rw [hnext]
    rcases PublishCall.publish_cases hinv.wf hinv.known hok.1 hrun with
      ⟨hstores, htasks, hprojected, hstored, hanswer⟩ |
      ⟨hstores, hstored, hwf, hknown, hkeys, hprojected, hsettled⟩
    · rw [hstores]
      have hkept : ∀ first ∈ w.created, first.Settled lower router config store s' := by
        intro first hfirst
        refine (hinv.settled first hfirst).mono (fun key h => ?_) fun id h => ?_
        · rw [htasks]
          exact h
        · rw [hprojected]
          exact h
      refine ⟨⟨htasks ▸ hinv.wf, htasks ▸ hinv.known, hkept, ?_⟩, ?_⟩
      · intro id h
        exact hinv.source id ((hstored id).mp h)
      · -- the call that made the observation asked for the same tasks
        intro b hb
        have hold := hanswer b hb
        obtain ⟨first, hfirst, hid⟩ := hinv.source _ hold
        have hsame := hkept first hfirst
        refine ⟨fun key hkey => hsame.1 key (hok.2 hold first hfirst hid key hkey), ?_⟩
        rw [← hid]
        exact hsame.2
    · rw [hstores]
      refine ⟨⟨hwf, hknown, ?_, ?_⟩, fun _ _ => hsettled⟩
      · intro first hfirst
        rcases List.mem_cons.mp hfirst with rfl | hfirst
        · exact hsettled
        · exact (hinv.settled first hfirst).mono hkeys hprojected
      · intro id h
        rcases (hstored id).mp h with rfl | h
        · exact ⟨call, List.mem_cons_self, rfl⟩
        · obtain ⟨first, hfirst, hid⟩ := hinv.source id h
          exact ⟨first, List.mem_cons_of_mem _ hfirst, hid⟩

theorem inv_runFrom {calls : List PublishCall} (h : Along (next lower lib knownKind router config store)
      (Orderly lower lib router config store) (init store) calls) :
    (runFrom (next lower lib knownKind router config store) (init store) calls).Inv D lower router config :=
  h.invariant inv_init fun _ _ hw hok => (inv_next knownKind hw hok).1

/-- A settled call stays so in an orderly run. -/
theorem settled_runFrom {w : PublishWorld σ} (hinv : w.Inv D lower router config) {calls : List PublishCall}
    (h : Along (next lower lib knownKind router config store)
      (Orderly lower lib router config store) w calls) {call : PublishCall}
    (hsettled : call.Settled lower router config store w.state) : call.Settled lower router config store
      (runFrom (next lower lib knownKind router config store) w calls).state := by
  refine (h.invariant (P := fun w => w.Inv D lower router config ∧
    call.Settled lower router config store w.state) ⟨hinv, hsettled⟩ ?_).2
  intro w' later ⟨hinv', hsettled'⟩ hok
  refine ⟨(inv_next knownKind hinv' hok).1, ?_⟩
  cases hrun : (later.publish lower lib knownKind router config store).exec w'.state with
  | mk r s' =>
    have hstate : (w'.next lower lib knownKind router config store later).state = s' := by
      unfold next
      rw [hrun]
    rw [hstate]
    rcases PublishCall.publish_cases hinv'.wf hinv'.known hok.1 hrun with
      ⟨_, htasks, hprojected, _⟩ | ⟨_, _, _, _, hkeys, hprojected, _⟩
    · refine hsettled'.mono (fun key h => ?_) fun id h => ?_
      · rw [htasks]
        exact h
      · rw [hprojected]
        exact h
    · exact hsettled'.mono hkeys hprojected

theorem created_subset (calls : List PublishCall) : ∀ first ∈ (runFrom
    (next lower lib knownKind router config store) (init store) calls).created, first ∈ calls := by
  refine runFrom_invariant_mem (P := fun w : PublishWorld σ => ∀ first ∈ w.created, first ∈ calls)
    ?_ ?_
  · intro first h
    cases h
  · intro w call hcall hw first hfirst
    unfold next at hfirst
    simp only at hfirst
    split at hfirst
    · rcases List.mem_cons.mp hfirst with rfl | hfirst
      · exact hcall
      · exact hw first hfirst
    · exact hw first hfirst

end Runs

end PublishWorld

/-- In an orderly run a publication that returned has routed and projected its event, and the event
    stays routed and projected; and so has one publication of every stored observation. -/
theorem publish_envelope (lower : String → String) (lib : Sanitizer) (knownKind : String → Bool)
    (router : Router) (config : BusConfiguration) (b : TaskBackend) (calls : List PublishCall)
    (h : Along (PublishWorld.next lower lib knownKind router config b.store)
      (PublishWorld.Orderly lower lib router config b.store) (PublishWorld.init b.store) calls) :
    let run := fun calls => (runFrom (PublishWorld.next lower lib knownKind router config b.store)
      (PublishWorld.init b.store) calls).state
    (∀ before call after, calls = before ++ call :: after →
      (∃ created, ((call.publish lower lib knownKind router config b.store).exec
        (run before)).1 = .ok created) →
      call.Settled lower router config b.store (run calls)) ∧
    ∀ eventId, (run calls).events.Stored eventId →
      ∃ call ∈ calls, call.event.eventId = eventId ∧
        call.Settled lower router config b.store (run calls) := by
  intro run
  constructor
  · rintro before call after rfl ⟨created, hreturned⟩
    obtain ⟨hbefore, hok, hafter⟩ := (along_append before _).mp h
    have hinv := PublishWorld.inv_runFrom (D := b.dedupes) hbefore
    obtain ⟨hinv', hsettled⟩ := PublishWorld.inv_next knownKind hinv hok
    simp only [run, runFrom_append, runFrom_cons]
    exact PublishWorld.settled_runFrom hinv' hafter (hsettled created hreturned)
  · intro eventId hstored
    have hinv := PublishWorld.inv_runFrom (D := b.dedupes) h
    obtain ⟨call, hcall, hid⟩ := hinv.source eventId hstored
    exact ⟨call, PublishWorld.created_subset calls call hcall, hid, hinv.settled call hcall⟩

/-! ## A publication that failed and came again -/

theorem lateRule_accepts : [EventType.dnsName] ≠ [] := List.cons_ne_nil _ _

def lateRule : RouteRule where
  ruleId := ⟨"late-names", by decide, by decide⟩
  accepts := [.dnsName]
  worker := ⟨"massdns", by decide, by decide⟩
  action := ⟨"resolve-late", by decide, by decide⟩
  accepts_ne := lateRule_accepts

def lateRouter : Router := ⟨[lateRule], List.nodup_singleton _⟩

def lateEvent : Event where
  eventId := "evt_late"
  type := .dnsName
  value := "late.example.com"
  source := ⟨"assetfinder", by decide, by decide⟩
  firstSeen := 0
  lastSeen := 0
  confidence_unit := zero_unit
  novelty_unit := zero_unit

/-- A publication of a name in which the log raises `logError`. -/
def publishLate (taskId : String) (logError : Option PyError) : PublishCall where
  event := lateEvent
  prepared := .ok lateEvent
  prepared_id := by
    intro normalized h
    cases h
    rfl
  assetId := "ast_late"
  taskIds _ := taskId
  now := 0
  logError

/-- Two publications of one name, the second without a failure. -/
theorem publish_envelope_twice :
    (publishLate "tsk_second" none).Settled id lateRouter {} inMemoryTaskStore
      (runFrom (PublishWorld.next id plainSanitizer (fun _ => true) lateRouter {} inMemoryTaskStore)
        (PublishWorld.init inMemoryTaskStore)
        [publishLate "tsk_first" none, publishLate "tsk_second" none]).state :=
  (publish_envelope id plainSanitizer (fun _ => true) lateRouter {} .memory
    [publishLate "tsk_first" none, publishLate "tsk_second" none] (by decide +kernel)).1
    [publishLate "tsk_first" none] _ [] rfl ⟨false, by decide +kernel⟩

/-- The log fails; the next publication of the event returns, and no task is there. -/
theorem a_retry_is_short_circuited :
    let publish := fun (call : PublishCall) =>
      (call.publish id plainSanitizer (fun _ => true) lateRouter {} inMemoryTaskStore).exec
    let failed := publish (publishLate "tsk_first" (some (.runtimeError "disk full")))
      (PublishWorld.init inMemoryTaskStore).state
    let retried := publish (publishLate "tsk_second" none) failed.2
    failed.1.toBool = false ∧ retried.1 = .ok false ∧ retried.2.events.Stored "evt_late" ∧
      ¬ (publishLate "tsk_second" none).Settled id lateRouter {} inMemoryTaskStore retried.2 := by
  intro publish failed retried
  refine ⟨by decide +kernel, by decide +kernel, by decide +kernel, fun h => ?_⟩
  have hprojected : "evt_late" ∈ retried.2.projected := h.2 rfl
  revert hprojected
  decide +kernel

end NightScout
