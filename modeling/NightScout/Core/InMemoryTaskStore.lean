import NightScout.Core.TaskStore

/-!
# `InMemoryTaskStore`

The development backend of `recon/core/queue.py`: the tasks by identifier, the identifier of the
unfinished task of every dedupe key, and the identifier ever stored under a dedupe key. The lock is
held over each method, so a method is one function of the whole state; `model_copy(deep=True)` is
what keeps callers from aliasing it.

The three dictionaries repeat each other, and one path of `save` would write a row and then raise.
`Wf` is the agreement of the three under which that path is not reached.
-/

namespace NightScout

open Lib

structure InMemoryTaskStore where
  tasks : Dict String Task
  activeKeys : Dict String String
  knownKeys : Dict String String

namespace InMemoryTaskStore

def empty : InMemoryTaskStore := ⟨.empty, .empty, .empty⟩

/-- The end of `put`. -/
def insert (s : InMemoryTaskStore) (task : Task) : InMemoryTaskStore where
  tasks := s.tasks.set task.taskId task
  knownKeys := s.knownKeys.set task.dedupeKey task.taskId
  activeKeys :=
    if task.isTerminal then s.activeKeys else s.activeKeys.set task.dedupeKey task.taskId

def put (s : InMemoryTaskStore) (task : Task) : Except PyError Bool × InMemoryTaskStore :=
  match s.knownKeys.get? task.dedupeKey with
  | some _ => (.ok false, s)
  | none =>
    match s.activeKeys.get? task.dedupeKey with
    | none => (.ok true, s.insert task)
    | some existingId =>
      match s.tasks.get? existingId with
      | some existing =>
        if existing.isTerminal then
          (.ok true, insert { s with activeKeys := s.activeKeys.erase task.dedupeKey } task)
        else (.ok false, s)
      | none => (.ok true, insert { s with activeKeys := s.activeKeys.erase task.dedupeKey } task)

/-- `save`. The last error is raised with the row already written. -/
def save (s : InMemoryTaskStore) (request : SaveRequest) :
    Except PyError Task × InMemoryTaskStore :=
  let task := request.task
  match s.tasks.get? task.taskId with
  | none => (.error (.keyError s!"unknown task_id: {task.taskId}"), s)
  | some previous =>
    if previous.status ≠ request.expectedStatus then
      (.error (.valueError (s!"task {task.taskId} changed from expected " ++
        request.expectedStatus.value ++ " to " ++ previous.status.value)), s)
    else if previous.claimToken.map Stripped.text ≠ request.expectedClaimToken then
      (.error (.valueError s!"task {task.taskId} claim token is stale"), s)
    else if request.expectedLeaseExpiresAt ≠ none ∧
        previous.leaseExpiresAt ≠ request.expectedLeaseExpiresAt then
      (.error (.valueError s!"task {task.taskId} lease changed concurrently"), s)
    else
      let activeKeys :=
        if s.activeKeys.get? previous.dedupeKey = some task.taskId then
          s.activeKeys.erase previous.dedupeKey
        else s.activeKeys
      let tasks := s.tasks.set task.taskId task
      if task.isTerminal then (.ok task, { s with tasks, activeKeys })
      else
        match activeKeys.get? task.dedupeKey with
        | none =>
          (.ok task, { s with tasks, activeKeys := activeKeys.set task.dedupeKey task.taskId })
        | some activeId =>
          if activeId ≠ task.taskId then
            (.error (.valueError ("active task already exists for dedupe key: " ++
              task.dedupeKey)), { s with tasks, activeKeys })
          else
            (.ok task, { s with tasks, activeKeys := activeKeys.set task.dedupeKey task.taskId })

def claim (s : InMemoryTaskStore) (taskId : String) (now leaseExpiresAt : Instant)
    (token : Stripped) : Except PyError Task × InMemoryTaskStore :=
  match s.tasks.get? taskId with
  | none => (.error (.keyError s!"unknown task_id: {taskId}"), s)
  | some current =>
    if !current.status.isRunnable then (.error (.valueError (current.claimRefusal now)), s)
    else if now < current.availableAt then (.error (.valueError (current.claimRefusal now)), s)
    else if h : current.attempts < current.maxAttempts then
      (.ok (current.claimed h now leaseExpiresAt token),
        { s with tasks := s.tasks.set taskId (current.claimed h now leaseExpiresAt token) })
    else (.error (.valueError (current.claimRefusal now)), s)

/-! ## The three dictionaries agree -/

structure Wf (s : InMemoryTaskStore) : Prop where
  /-- A task is stored under its identifier. -/
  taskId : ∀ id t, s.tasks.get? id = some t → t.taskId = id
  /-- Every key of a stored task is known, under that task. -/
  known : ∀ id t, s.tasks.get? id = some t → s.knownKeys.get? t.dedupeKey = some id
  /-- Every unfinished task is the active one of its key. -/
  active : ∀ id t, s.tasks.get? id = some t → t.isTerminal = false →
    s.activeKeys.get? t.dedupeKey = some id
  /-- Every active key belongs to a stored task with that key. -/
  activeKey : ∀ key id, s.activeKeys.get? key = some id →
    ∃ t, s.tasks.get? id = some t ∧ t.dedupeKey = key

theorem wf_empty : Wf empty := by
  constructor
  · intro id t h
    cases h
  · intro id t h
    cases h
  · intro id t h
    cases h
  · intro key id h
    cases h

variable {s : InMemoryTaskStore}

/-- A key that is not known is not active. -/
theorem Wf.active_none (h : Wf s) {key : String} (hk : s.knownKeys.get? key = none) : s.activeKeys.get? key = none := by
  cases hact : s.activeKeys.get? key with
  | none => rfl
  | some id =>
    obtain ⟨t, ht, rfl⟩ := h.activeKey key id hact
    rw [h.known id t ht] at hk
    cases hk

/-- Two stored tasks of one key are one task: it is known under one identifier. -/
theorem Wf.id_unique (h : Wf s) {id id' : String} {t t' : Task} (ht : s.tasks.get? id = some t)
    (ht' : s.tasks.get? id' = some t') (hk : t.dedupeKey = t'.dedupeKey) : id = id' := by
  have h1 := h.known id t ht
  rw [hk, h.known id' t' ht'] at h1
  exact (Option.some.inj h1).symm

theorem Wf.insert (h : Wf s) {task : Task} (hnew : s.tasks.get? task.taskId = none)
    (hkey : s.knownKeys.get? task.dedupeKey = none) : Wf (s.insert task) := by
  have hold : ∀ id t, id ≠ task.taskId → s.tasks.get? id = some t →
      t.dedupeKey ≠ task.dedupeKey := by
    intro id t _ ht he
    have := h.known id t ht
    rw [he, hkey] at this
    cases this
  constructor
  · intro id t ht
    simp only [InMemoryTaskStore.insert, Dict.get?_set] at ht
    split at ht
    · rename_i hid
      cases ht
      exact hid.symm
    · exact h.taskId id t ht
  · intro id t ht
    simp only [InMemoryTaskStore.insert, Dict.get?_set] at ht ⊢
    split at ht
    · rename_i hid
      cases ht
      rw [if_pos rfl, hid]
    · rename_i hid
      rw [if_neg (hold id t hid ht)]
      exact h.known id t ht
  · intro id t ht hterm
    simp only [InMemoryTaskStore.insert, Dict.get?_set] at ht ⊢
    split at ht
    · rename_i hid
      cases ht
      rw [hterm, hid]
      simp
    · rename_i hid
      have hact := h.active id t ht hterm
      split
      · exact hact
      · rw [Dict.get?_set_ne _ _ (hold id t hid ht)]
        exact hact
  · intro key id hact
    have hcase : s.activeKeys.get? key = some id ∨ (key = task.dedupeKey ∧ id = task.taskId) := by
      simp only [InMemoryTaskStore.insert] at hact
      split at hact
      · exact .inl hact
      · rw [Dict.get?_set] at hact
        split at hact
        · cases hact
          exact .inr ⟨‹_›, rfl⟩
        · exact .inl hact
    simp only [InMemoryTaskStore.insert, Dict.get?_set]
    rcases hcase with hact | ⟨rfl, rfl⟩
    · obtain ⟨t, ht, hk⟩ := h.activeKey key id hact
      have hid : id ≠ task.taskId := by
        rintro rfl
        rw [hnew] at ht
        cases ht
      exact ⟨t, by rw [if_neg hid]; exact ht, hk⟩
    · exact ⟨task, if_pos rfl, rfl⟩

/-- Rewriting a stored row under the same key keeps the agreement, whatever is done to the active
    key as long as it is right afterwards. -/
theorem Wf.rewrite (h : Wf s) {previous : Task} (task : Task) (activeKeys : Dict String String)
    (hprev : s.tasks.get? task.taskId = some previous) (hkey : previous.dedupeKey = task.dedupeKey)
    (hother : ∀ key, key ≠ task.dedupeKey → activeKeys.get? key = s.activeKeys.get? key)
    (hself : activeKeys.get? task.dedupeKey = some task.taskId ∨
      activeKeys.get? task.dedupeKey = none ∧ task.isTerminal = true) :
    Wf { s with tasks := s.tasks.set task.taskId task, activeKeys } := by
  have hother' : ∀ id t, id ≠ task.taskId → s.tasks.get? id = some t →
      t.dedupeKey ≠ task.dedupeKey := by
    intro id t hid ht he
    exact hid (h.id_unique ht hprev (he.trans hkey.symm))
  constructor
  · intro id t ht
    simp only [Dict.get?_set] at ht
    split at ht
    · rename_i hid
      cases ht
      exact hid.symm
    · exact h.taskId id t ht
  · intro id t ht
    simp only [Dict.get?_set] at ht ⊢
    split at ht
    · rename_i hid
      cases ht
      rw [← hkey, hid]
      exact h.known _ _ hprev
    · exact h.known id t ht
  · intro id t ht hterm
    simp only [Dict.get?_set] at ht ⊢
    split at ht
    · rename_i hid
      cases ht
      rcases hself with hs | ⟨_, hs⟩
      · rw [hs, hid]
      · rw [hterm] at hs
        cases hs
    · rename_i hid
      rw [hother _ (hother' id t hid ht)]
      exact h.active id t ht hterm
  · intro key id hact
    simp only [Dict.get?_set]
    by_cases hk : key = task.dedupeKey
    · subst hk
      rcases hself with hs | ⟨hs, _⟩
      · rw [hs] at hact
        cases hact
        exact ⟨task, if_pos rfl, rfl⟩
      · rw [hs] at hact
        cases hact
    · rw [hother key hk] at hact
      obtain ⟨t, ht, hkt⟩ := h.activeKey key id hact
      have hid : id ≠ task.taskId := by
        rintro rfl
        rw [hprev] at ht
        cases ht
        exact hk (hkt.symm.trans hkey)
      exact ⟨t, by rw [if_neg hid]; exact ht, hkt⟩

/-! ## The operations, under the agreement -/

theorem put_law (h : Wf s) (t : Task) (hid : ∀ old, s.tasks.get? t.taskId = some old → old.dedupeKey = t.dedupeKey) :
    ((s.put t).1 = .ok true ∧ s.tasks.get? t.taskId = none ∧ (s.put t).2 = s.insert t ∧ Wf (s.insert t)) ∨
    ((s.put t).1 ≠ .ok true ∧ (s.put t).2 = s) := by
  unfold put
  cases hk : s.knownKeys.get? t.dedupeKey with
  | some id =>
    refine .inr ⟨?_, rfl⟩
    intro he
    cases he
  | none =>
    have hnew : s.tasks.get? t.taskId = none := by
      cases ht : s.tasks.get? t.taskId with
      | none => rfl
      | some old =>
        have hkn := h.known _ _ ht
        rw [hid old ht, hk] at hkn
        cases hkn
    rw [h.active_none hk]
    exact .inl ⟨rfl, hnew, rfl, h.insert hnew hk⟩

theorem save_unknown {request : SaveRequest} (hnone : s.tasks.get? request.task.taskId = none) :
    ∃ message, s.save request = (.error (.keyError message), s) := by
  simp only [save, hnone]
  exact ⟨_, rfl⟩

theorem save_stale {request : SaveRequest} {previous : Task} (hprev : s.tasks.get? request.task.taskId = some previous)
    (hstale : ¬ request.Matches previous) : ∃ message, s.save request = (.error (.valueError message), s) := by
  simp only [save, hprev]
  split
  · exact ⟨_, rfl⟩
  rename_i hstatus
  split
  · exact ⟨_, rfl⟩
  rename_i htoken
  split
  · exact ⟨_, rfl⟩
  rename_i hlease
  refine absurd ⟨not_not.mp hstatus, not_not.mp htoken, ?_⟩ hstale
  intro lease hl
  rw [Option.mem_def.mp hl] at hlease
  simpa using hlease

/-- A save notes no key. -/
theorem save_knownKeys (s : InMemoryTaskStore) (request : SaveRequest) :
    (s.save request).2.knownKeys = s.knownKeys := by
  unfold save
  dsimp only
  cases s.tasks.get? request.task.taskId with
  | none => rfl
  | some previous =>
    dsimp only
    split_ifs
    · rfl
    · rfl
    · rfl
    · rfl
    · rfl
    · split
      · rfl
      · split_ifs <;> rfl
    · split
      · rfl
      · split_ifs <;> rfl

/-- `save` that wins the compare writes the row and returns it: the path that raises with the row
    written is not reached. -/
theorem save_ok (h : Wf s) {request : SaveRequest} {previous : Task}
    (hprev : s.tasks.get? request.task.taskId = some previous) (hm : request.Matches previous)
    (hkey : previous.dedupeKey = request.task.dedupeKey) :
    (s.save request).1 = .ok request.task ∧ Wf (s.save request).2 ∧
      (s.save request).2.tasks = s.tasks.set request.task.taskId request.task := by
  obtain ⟨hstatus, htoken, hlease⟩ := hm
  have hlease' : ¬ (request.expectedLeaseExpiresAt ≠ none ∧
      previous.leaseExpiresAt ≠ request.expectedLeaseExpiresAt) := by
    rintro ⟨hne, hdiff⟩
    obtain ⟨lease, hl⟩ := Option.ne_none_iff_exists'.mp hne
    exact hdiff ((hlease lease hl).trans hl.symm)
  -- whatever was active under the key, it was this task
  obtain ⟨activeKeys, hdef, hnone, hother⟩ : ∃ activeKeys,
      activeKeys = (if s.activeKeys.get? previous.dedupeKey = some request.task.taskId then
          s.activeKeys.erase previous.dedupeKey else s.activeKeys) ∧
        activeKeys.get? request.task.dedupeKey = none ∧
        ∀ key, key ≠ request.task.dedupeKey → activeKeys.get? key = s.activeKeys.get? key := by
    refine ⟨_, rfl, ?_, fun key hk => ?_⟩
    · split
      next => rw [hkey, Dict.get?_erase, if_pos rfl]
      next hnot =>
        cases hact : s.activeKeys.get? request.task.dedupeKey with
        | none => rfl
        | some id =>
          obtain ⟨t, ht, hk⟩ := h.activeKey _ id hact
          have hid := h.id_unique ht hprev (hk.trans hkey.symm)
          rw [hkey, hact, hid] at hnot
          exact absurd rfl hnot
    · split
      · rw [hkey, Dict.get?_erase, if_neg hk]
      · rfl
  simp only [save, hprev, hstatus, htoken, hlease', ne_eq, not_true_eq_false, if_false, ← hdef]
  split
  · rename_i hterm
    exact ⟨rfl, h.rewrite _ _ hprev hkey hother (.inr ⟨hnone, hterm⟩), rfl⟩
  · simp only [hnone]
    refine ⟨trivial, ?_, trivial⟩
    apply h.rewrite _ _ hprev hkey
    · intro key hk
      rw [Dict.get?_set_ne _ _ hk, hother key hk]
    · exact .inl (Dict.get?_set_self _ _ _)

theorem claim_refused {taskId : String} {now leaseExpiresAt : Instant} {token : Stripped}
    {t : Task} (ht : s.tasks.get? taskId = some t) (hc : ¬ t.Claimable now) : s.claim taskId now leaseExpiresAt token =
      (.error (.valueError (t.claimRefusal now)), s) := by
  simp only [claim, ht]
  split
  · rfl
  rename_i hrun
  split
  · rfl
  rename_i havail
  split
  · rename_i hatt
    exact absurd ⟨by simpa using hrun, not_lt.mp havail, hatt⟩ hc
  · rfl

theorem claim_ok (h : Wf s) {taskId : String} {now : Instant} (leaseExpiresAt : Instant)
    (token : Stripped) {t : Task} (ht : s.tasks.get? taskId = some t) (hc : t.Claimable now) :
    s.claim taskId now leaseExpiresAt token = (.ok (t.claimed hc.2.2 now leaseExpiresAt token),
        { s with tasks := s.tasks.set taskId (t.claimed hc.2.2 now leaseExpiresAt token) }) ∧
      Wf { s with tasks := s.tasks.set taskId (t.claimed hc.2.2 now leaseExpiresAt token) } := by
  constructor
  · have hrun : (!t.status.isRunnable) = false := by
      rw [hc.1]
      rfl
    simp only [claim, ht, hrun, Bool.false_eq_true, if_false, if_neg (not_lt.mpr hc.2.1),
      dif_pos hc.2.2]
  · -- a claim changes neither the identifier nor the key
    have hid : (t.claimed hc.2.2 now leaseExpiresAt token).taskId = taskId := h.taskId taskId t ht
    have hlive : t.isTerminal = false := TaskStatus.isTerminal_of_isRunnable hc.1
    have hprev : s.tasks.get? (t.claimed hc.2.2 now leaseExpiresAt token).taskId = some t := by
      rw [hid]
      exact ht
    have hwf := h.rewrite (t.claimed hc.2.2 now leaseExpiresAt token) s.activeKeys hprev rfl (fun _ _ => rfl)
      (.inl (by rw [hid]; exact h.active taskId t ht hlive))
    rw [hid] at hwf
    exact hwf

end InMemoryTaskStore

/-- `InMemoryTaskStore`, as a task store. -/
def inMemoryTaskStore : TaskStore InMemoryTaskStore where
  empty := .empty
  put s task _ _ := s.put task
  get s taskId := s.tasks.get? taskId
  save s request := s.save request
  claim s taskId now leaseExpiresAt token _ := s.claim taskId now leaseExpiresAt token
  all s := s.tasks.values

/-- **The in-memory store is lawful**, and reads back what was written. -/
def inMemoryTaskStore_lawful : inMemoryTaskStore.Lawful where
  Wf := InMemoryTaskStore.Wf
  reread := id
  reread_fields _ := rfl
  reread_dedupeKey _ := rfl
  wf_empty := InMemoryTaskStore.wf_empty
  get_empty _ := rfl
  get_taskId _ id t h ht := h.taskId id t ht
  put_law s t run fk h hid := by
    rcases InMemoryTaskStore.put_law h t hid with ⟨hok, hnew, hs, hwf⟩ | ⟨hne, hs⟩
    · refine .inl ⟨hok, hnew, ?_, fun id => ?_⟩
      · show InMemoryTaskStore.Wf (s.put t).2
        rw [hs]
        exact hwf
      · show (s.put t).2.tasks.get? id = _
        rw [hs]
        exact Dict.get?_set _ _ _ _
    · exact .inr ⟨hne, hs⟩
  save_unknown s request _ hnone := InMemoryTaskStore.save_unknown hnone
  save_stale s request previous _ hprev hstale := InMemoryTaskStore.save_stale hprev hstale
  save_ok s request previous h hprev hm _ hkey := by
    obtain ⟨hok, hwf, htasks⟩ := InMemoryTaskStore.save_ok h hprev hm hkey
    refine ⟨hok, hwf, fun id => ?_⟩
    show (s.save request).2.tasks.get? id = _
    rw [htasks]
    exact Dict.get?_set _ _ _ _
  claim_unknown s id now lease token run _ hnone := by
    have hclaim : s.claim id now lease token =
        (.error (.keyError s!"unknown task_id: {id}"), s) := by
      simp only [InMemoryTaskStore.claim, show s.tasks.get? id = none from hnone]
    exact ⟨_, hclaim⟩
  claim_refused s id now lease token run t _ ht hc := InMemoryTaskStore.claim_refused ht hc
  claim_ok s id now lease token run t h ht hc := by
    obtain ⟨hclaim, hwf⟩ := InMemoryTaskStore.claim_ok h lease token ht hc
    refine ⟨?_, ?_, fun id' => ?_⟩
    · show (s.claim id now lease token).1 = _
      rw [hclaim]
    · show InMemoryTaskStore.Wf (s.claim id now lease token).2
      rw [hclaim]
      exact hwf
    · show (s.claim id now lease token).2.tasks.get? id' = _
      rw [hclaim]
      exact Dict.get?_set _ _ _ _
  all_law s t _ := Dict.mem_values_iff

end NightScout
