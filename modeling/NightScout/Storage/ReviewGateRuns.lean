import NightScout.Policy.ReviewGate
import NightScout.Policy.InMemoryReviewCaseStore
import NightScout.Storage.SQLiteReviewCaseStore

/-!
# The review gate over its stores

Both case stores are lawful. The in-memory store keeps all the signals of a request, SQLite one of each
fingerprint; so with signals of different categories in one place, a case that SQLite shows can leave
out a category its approval then covers (`approval_of_less`).
-/

namespace NightScout

open Lib

variable (sha256 : String → String)

/-! ## The in-memory store -/

theorem inMemory_open_law {s : InMemoryReviewCaseStore} (h : s.Wf sha256) (task : Task)
    (signals : List ReviewSignal) {draw : CaseDraw} (hfresh : s.cases.get? draw.caseId = none) :
    ((inMemoryReviewCaseStore sha256).open s task signals draw).2.Wf sha256 ∧
    ((∃ answer c, ((inMemoryReviewCaseStore sha256).open s task signals draw).1 = .ok answer ∧
        answer.caseId = draw.caseId ∧ c.state = .open ∧ c.taskId = task.taskId ∧
        c.signalFingerprints = signalFingerprints sha256 signals ∧ c.categories = signalCategories signals ∧
        ∀ id, ((inMemoryReviewCaseStore sha256).open s task signals draw).2.cases.get? id =
          if id = draw.caseId then some c else s.cases.get? id) ∨
      ((inMemoryReviewCaseStore sha256).open s task signals draw).2 = s ∧
        ∀ answer, ((inMemoryReviewCaseStore sha256).open s task signals draw).1 = .ok answer →
          s.cases.get? answer.caseId ≠ none) := by
  show (s.openOrGet sha256 task signals draw.caseId draw.now).2.Wf sha256 ∧ (_ ∨ _)
  by_cases hne : signals = []
  · have hopen : s.openOrGet sha256 task signals draw.caseId draw.now =
        (.error (.valueError "cannot open review case without triggering signals"), s) := dif_pos hne
    rw [hopen]
    refine ⟨h, .inr ⟨?_, ?_⟩⟩
    · exact congrArg Prod.snd hopen
    · intro answer hok
      have hok := (congrArg Prod.fst hopen).symm.trans hok
      cases hok
  · by_cases hex : ∃ id c, s.cases.get? id = some c ∧ c.state = .open ∧ c.dedupeKey sha256 =
        reviewDedupeKey sha256 task.taskId (signalFingerprints sha256 signals)
    · obtain ⟨id, c, hc, hopen, hkey⟩ := hex
      have hrun := h.openOrGet_existing hne hc hopen hkey draw.caseId draw.now
      rw [hrun]
      refine ⟨h, .inr ⟨congrArg Prod.snd hrun, ?_⟩⟩
      intro answer hok
      have hok := (congrArg Prod.fst hrun).symm.trans hok
      cases hok
      rw [h.caseId id c hc, hc]
      exact Option.some_ne_none _
    · have hno : ∀ id c, s.cases.get? id = some c → c.state = .open → c.dedupeKey sha256 ≠
          reviewDedupeKey sha256 task.taskId (signalFingerprints sha256 signals) :=
        fun id c hc hopen hkey => hex ⟨id, c, hc, hopen, hkey⟩
      have hrun := h.openOrGet_new hne hno draw.caseId draw.now
      rw [hrun]
      refine ⟨h.insert rfl hfresh hno, .inl ⟨_, openedCase sha256 task signals hne draw.caseId draw.now,
        congrArg Prod.fst hrun, rfl, rfl, rfl, rfl, rfl, ?_⟩⟩
      intro id
      have hstore := congrArg (fun r => InMemoryReviewCaseStore.cases r.2) hrun
      exact (congrArg (fun cases => Dict.get? cases id) hstore).trans (Dict.get?_set _ _ _ _)

theorem inMemory_resolve_law {s : InMemoryReviewCaseStore} (h : s.Wf sha256) (id : String)
    (state : ReviewCaseState) (reason : Option String) (now : Instant) :
    (s.resolve sha256 id state reason now).2.Wf sha256 ∧
    ((∃ (c : ReviewCase) (h : state ≠ .open), s.cases.get? id = some c ∧ c.state = .open ∧
        (s.resolve sha256 id state reason now).1 = .ok (c.resolve state h reason now) ∧
        ∀ id', (s.resolve sha256 id state reason now).2.cases.get? id' =
          if id' = id then some (c.resolve state h reason now) else s.cases.get? id') ∨
      (s.resolve sha256 id state reason now).2 = s ∧ ∃ e, (s.resolve sha256 id state reason now).1 = .error e) := by
  by_cases hstate : state = .open
  · have hrun : s.resolve sha256 id state reason now =
        (.error (.valueError "resolve() requires a non-OPEN review state"), s) := dif_pos hstate
    rw [hrun]
    exact ⟨h, .inr ⟨rfl, _, rfl⟩⟩
  · cases hc : s.cases.get? id with
    | none =>
      have hrun : s.resolve sha256 id state reason now =
          (.error (.keyError s!"unknown review case: {id}"), s) := by
        unfold InMemoryReviewCaseStore.resolve
        rw [dif_neg hstate]
        simp only [hc]
      rw [hrun]
      exact ⟨h, .inr ⟨rfl, _, rfl⟩⟩
    | some c =>
      by_cases hopen : c.state = .open
      · obtain ⟨hok, hcases, hwf⟩ := h.resolve hc hopen hstate reason now
        refine ⟨hwf, .inl ⟨c, hstate, rfl, hopen, hok, ?_⟩⟩
        intro id'
        rw [hcases, Dict.get?_set]
      · have hrun : s.resolve sha256 id state reason now =
            (.error (.valueError s!"review case {id} is already resolved"), s) := by
          unfold InMemoryReviewCaseStore.resolve
          rw [dif_neg hstate]
          simp only [hc, ne_eq, hopen, not_false_eq_true, if_true]
        rw [hrun]
        exact ⟨h, .inr ⟨rfl, _, rfl⟩⟩

theorem inMemory_approved_law {s : InMemoryReviewCaseStore} (h : s.Wf sha256) {taskId : String}
    {fingerprints : List String} {c : ReviewCase} (hfound : s.approvedForTask taskId (some fingerprints) = some c) :
    s.cases.get? c.caseId = some c ∧ c.state = .approved ∧ c.taskId = taskId ∧ c.signalFingerprints = fingerprints := by
  have hmem := List.mem_of_head? hfound
  rw [List.mem_insertionSort, List.mem_filter, decide_eq_true_eq] at hmem
  obtain ⟨hvalue, htask, hstate, hfs⟩ := hmem
  obtain ⟨id, hc⟩ := Dict.mem_values_iff.mp hvalue
  refine ⟨?_, hstate, htask, hfs fingerprints rfl⟩
  rw [h.caseId id c hc]
  exact hc

def inMemoryReviewCaseStore_lawful : (inMemoryReviewCaseStore sha256).Lawful sha256 where
  Wf := InMemoryReviewCaseStore.Wf sha256
  kept signals := signals
  wf_empty := InMemoryReviewCaseStore.wf_empty
  get_empty _ := rfl
  get_caseId _ id c h hc := h.caseId id c hc
  open_law _ task signals _ h hfresh := inMemory_open_law sha256 h task signals hfresh
  resolve_law _ id state reason now h := inMemory_resolve_law sha256 h id state reason now
  approved_law _ _ _ _ h hfound := inMemory_approved_law sha256 h hfound

/-! ## SQLite -/

theorem sqlite_open_law (db : ReviewDb) (task : Task) (signals : List ReviewSignal) {draw : CaseDraw} :
    ((∃ answer c, ((sqliteReviewCaseStore sha256).open db task signals draw).1 = .ok answer ∧
        answer.caseId = draw.caseId ∧ c.state = .open ∧ c.taskId = task.taskId ∧
        c.signalFingerprints = signalFingerprints sha256 signals ∧
        c.categories = signalCategories (uniqueSignals sha256 signals) ∧
        ∀ id, ((sqliteReviewCaseStore sha256).open db task signals draw).2.get id =
          if id = draw.caseId then some c else db.get id) ∨
      ((sqliteReviewCaseStore sha256).open db task signals draw).2 = db ∧
        ∀ answer, ((sqliteReviewCaseStore sha256).open db task signals draw).1 = .ok answer →
          db.get answer.caseId ≠ none) := by
  have hrun : (sqliteReviewCaseStore sha256).open db task signals draw =
      db.openOrGet sha256 task signals draw.caseId draw.signalIds draw.now draw.rowsStored := rfl
  rw [hrun]
  unfold ReviewDb.openOrGet
  by_cases hne : signals = []
  · rw [if_pos hne]
    refine .inr ⟨rfl, ?_⟩
    intro answer hok
    cases hok
  · simp only [if_neg hne, sorted_uniqueSignals]
    cases hfind : db.openCase
        (reviewDedupeKey sha256 task.taskId (signalFingerprints sha256 signals)) with
    | some e =>
      obtain ⟨id, row⟩ := e
      refine .inr ⟨rfl, ?_⟩
      intro answer hok
      cases hok
      have hrow : db.cases.get? id = some row :=
        Dict.mem_entries_iff.mp (List.mem_of_find?_eq_some hfind)
      show (db.cases.get? id).map _ ≠ none
      rw [hrow]
      exact Option.some_ne_none _
    | none =>
      have hunique := uniqueSignals_ne sha256 hne
      simp only [dif_neg hunique]
      by_cases hinsert : (draw.rowsStored && (db.cases.get? draw.caseId).isNone) = true
      · rw [if_pos hinsert]
        obtain ⟨hfs, hcats⟩ := ReviewDb.toCase_caseRow sha256 task hunique
          (reviewDedupeKey sha256 task.taskId (signalFingerprints sha256 signals)) draw.signalIds
          draw.now draw.caseId
        refine .inl ⟨_, _, rfl, rfl, rfl, rfl, hfs, hcats, ?_⟩
        intro id
        unfold ReviewDb.get
        rw [Dict.get?_set]
        split
        next heq =>
          rw [heq]
          rfl
        next => rfl
      · rw [if_neg hinsert]
        refine .inr ⟨rfl, ?_⟩
        intro answer hok
        cases hok

theorem sqlite_resolve_law (db : ReviewDb) (id : String) (state : ReviewCaseState)
    (reason : Option String) (now : Instant) :
    ((∃ (c : ReviewCase) (h : state ≠ .open), db.get id = some c ∧ c.state = .open ∧
        (db.resolve id state reason now).1 = .ok (c.resolve state h reason now) ∧
        ∀ id', (db.resolve id state reason now).2.get id' =
          if id' = id then some (c.resolve state h reason now) else db.get id') ∨
      (db.resolve id state reason now).2 = db ∧ ∃ e, (db.resolve id state reason now).1 = .error e) := by
  unfold ReviewDb.resolve
  by_cases hstate : state = .open
  · rw [dif_pos hstate]
    exact .inr ⟨rfl, _, rfl⟩
  · rw [dif_neg hstate]
    cases hrow : db.cases.get? id with
    | none => exact .inr ⟨rfl, _, rfl⟩
    | some row =>
      have hget : db.get id = some (row.toCase id) := congrArg _ hrow
      by_cases hopen : row.state = .open
      · simp only [hopen, ne_eq, not_true_eq_false, if_false]
        refine .inl ⟨row.toCase id, hstate, hget, hopen, rfl, ?_⟩
        intro id'
        unfold ReviewDb.get
        rw [Dict.get?_set]
        split
        next heq =>
          rw [heq]
          rfl
        next => rfl
      · simp only [ne_eq, hopen, not_false_eq_true, if_true]
        exact .inr ⟨trivial, _, rfl⟩

theorem sqlite_approved_law (db : ReviewDb) {taskId : String} {fingerprints : List String}
    {c : ReviewCase} (hfound : db.approvedForTask taskId (some fingerprints) = some c) :
    db.get c.caseId = some c ∧ c.state = .approved ∧ c.taskId = taskId ∧ c.signalFingerprints = fingerprints := by
  have hfs := List.find?_some hfound
  rw [decide_eq_true_eq] at hfs
  obtain ⟨⟨id, row⟩, hmem, rfl⟩ := List.mem_map.mp (List.mem_of_find?_eq_some hfound)
  rw [List.mem_insertionSort, List.mem_filter, decide_eq_true_eq] at hmem
  obtain ⟨hentry, htask, hstate⟩ := hmem
  have hrow : db.cases.get? id = some row := Dict.mem_entries_iff.mp hentry
  exact ⟨congrArg _ hrow, hstate, htask, hfs fingerprints rfl⟩

def sqliteReviewCaseStore_lawful : (sqliteReviewCaseStore sha256).Lawful sha256 where
  Wf _ := True
  kept := uniqueSignals sha256
  wf_empty := trivial
  get_empty _ := rfl
  get_caseId db id c _ hc := by
    obtain ⟨row, _, rfl⟩ := Option.map_eq_some_iff.mp hc
    rfl
  open_law db task signals _ _ _ := ⟨trivial, sqlite_open_law sha256 db task signals⟩
  resolve_law db id state reason now _ := ⟨trivial, sqlite_resolve_law db id state reason now⟩
  approved_law db _ _ _ _ hfound := sqlite_approved_law db hfound

/-! ## The two backends -/

/-- The stores a gate runs over. -/
inductive ReviewBackend where
  | memory
  | sqlite

namespace ReviewBackend

def State : ReviewBackend → Type
  | memory => InMemoryReviewCaseStore
  | sqlite => ReviewDb

def store : (b : ReviewBackend) → ReviewCaseStore b.State
  | memory => inMemoryReviewCaseStore sha256
  | sqlite => sqliteReviewCaseStore sha256

def lawful : (b : ReviewBackend) → (b.store sha256).Lawful sha256
  | memory => inMemoryReviewCaseStore_lawful sha256
  | sqlite => sqliteReviewCaseStore_lawful sha256

end ReviewBackend

/-- **Approval covers what the case showed**, along every run over either store in which the evidence
    of an approval stays the same. -/
theorem approval_covers_categories (b : ReviewBackend) (policy : ReviewPolicy) (ops : List ReviewGateOp)
    (hok : Along (fun w op => ReviewGateOp.next sha256 (b.store sha256) policy w op)
      (fun w op => ReviewGateOp.SameEvidence sha256 (b.store sha256) policy (b.lawful sha256) w op)
      { store := (b.store sha256).empty } ops) :
    Along (fun w op => ReviewGateOp.next sha256 (b.store sha256) policy w op)
      (fun w op => ReviewGateOp.Covered sha256 (b.store sha256) policy w op)
      { store := (b.store sha256).empty } ops :=
  ReviewGateOp.covered_along sha256 policy (b.lawful sha256) hok

/-- The gate is asked about signals of the task. -/
def askGate (caseId : String) (signals : List ReviewSignal) : ReviewGateOp :=
  .evaluate followUpTask signals ⟨caseId, fun i => if i = 0 then "sig_a" else "sig_b", 0, true⟩

/-- A key is found, approved, and found again. -/
theorem approval_covers_key :
    Along (fun w op => ReviewGateOp.next id (ReviewBackend.sqlite.store id) .default w op)
      (fun w op => ReviewGateOp.Covered id (ReviewBackend.sqlite.store id) .default w op)
      { store := (ReviewBackend.sqlite.store id).empty }
      [askGate "rev_a" [secretSignal], .resolve "rev_a" .approved none 5,
        askGate "rev_b" [secretSignal]] :=
  approval_covers_categories id .sqlite .default _ (by decide +kernel)

/-- In memory, personal data turns up where a key was approved; in SQLite, both are found at once and
    the case shows the personal data alone. Either approval lets both through. -/
theorem approval_of_less :
    ¬ Along (fun w op => ReviewGateOp.next id (ReviewBackend.memory.store id) .default w op)
        (fun w op => ReviewGateOp.Covered id (ReviewBackend.memory.store id) .default w op)
        { store := (ReviewBackend.memory.store id).empty }
        [askGate "rev_a" [secretSignal], .resolve "rev_a" .approved none 5,
          askGate "rev_b" [secretSignal, privateSignal]] ∧
      ¬ Along (fun w op => ReviewGateOp.next id (ReviewBackend.sqlite.store id) .default w op)
        (fun w op => ReviewGateOp.Covered id (ReviewBackend.sqlite.store id) .default w op)
        { store := (ReviewBackend.sqlite.store id).empty }
        [askGate "rev_a" [secretSignal, privateSignal], .resolve "rev_a" .approved none 5,
          askGate "rev_b" [secretSignal, privateSignal]] := by
  decide +kernel

end NightScout
