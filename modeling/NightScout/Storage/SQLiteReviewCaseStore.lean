import NightScout.Policy.ReviewCases

/-!
# `SQLiteReviewCaseStore`

The durable store of `recon/storage/database.py`. A case is a row, and its signals are rows of their
own under the case and their fingerprint; the fingerprints, categories and summaries of a case that is
read are those of its signal rows. The signal rows are kept with the case they belong to, which is what
their foreign key and its cascade amount to, and their identifiers are drawn new.

Two signals of one fingerprint are one row, the later one.
-/

namespace NightScout

open Lib

/-- A row of `review_signals`, without what no operation reads. -/
structure ReviewSignalRow where
  signalId : String
  category : ReviewCategory
  summary : Stripped
  evidenceFingerprint : String
  deriving DecidableEq

/-- A row of `review_cases`, with its signals. -/
structure ReviewCaseRow where
  taskId : String
  worker : Stripped
  action : Stripped
  inputEventId : Stripped
  state : ReviewCaseState
  dedupeKey : String
  openedAt : Instant
  resolvedAt : Option Instant := none
  resolutionReason : Option String := none
  signals : List ReviewSignalRow
  signals_ne : signals ≠ []
  resolved_iff : state = .open ↔ resolvedAt = none

structure ReviewDb where
  cases : Dict String ReviewCaseRow

/-- The order signals are read in: category, then identifier. -/
def readSignals (signals : List ReviewSignalRow) : List ReviewSignalRow :=
  signals.insertionSort fun a b =>
    a.category.value < b.category.value ∨
      a.category.value = b.category.value ∧ a.signalId ≤ b.signalId

theorem mem_readSignals {signals : List ReviewSignalRow} {row : ReviewSignalRow} :
    row ∈ readSignals signals ↔ row ∈ signals := List.mem_insertionSort _

namespace ReviewCaseRow

theorem readSignals_ne (row : ReviewCaseRow) {β : Type} (f : ReviewSignalRow → β) :
    (readSignals row.signals).map f ≠ [] := by
  obtain ⟨signal, hsignal⟩ := List.exists_mem_of_ne_nil _ row.signals_ne
  exact List.ne_nil_of_mem (List.mem_map_of_mem (mem_readSignals.mpr hsignal))

/-- `_review_case_from_record`. -/
def toCase (row : ReviewCaseRow) (caseId : String) : ReviewCase where
  caseId
  taskId := row.taskId
  worker := row.worker
  action := row.action
  inputEventId := row.inputEventId
  signalFingerprints := ((readSignals row.signals).map fun signal =>
    signal.evidenceFingerprint).insertionSort (· ≤ ·)
  categories := sortedSet ReviewCategory.value
    ((readSignals row.signals).map fun signal => signal.category)
  summaries := fromkeys ((readSignals row.signals).map fun signal => signal.summary)
  state := row.state
  openedAt := row.openedAt
  resolvedAt := row.resolvedAt
  resolutionReason := row.resolutionReason
  fingerprints_ne := by
    obtain ⟨f, hf⟩ := List.exists_mem_of_ne_nil _ (row.readSignals_ne fun s => s.evidenceFingerprint)
    exact List.ne_nil_of_mem ((List.mem_insertionSort _).mpr hf)
  categories_ne := sortedSet_ne_nil (row.readSignals_ne _)
  resolved_iff := row.resolved_iff

end ReviewCaseRow

/-- `unique_signals`: the last signal of each fingerprint. -/
def uniqueSignals (sha256 : String → String) (signals : List ReviewSignal) : List ReviewSignal :=
  (ofList (ReviewSignal.stableFingerprint sha256) signals).values

/-- The rows of signals, with the identifiers they are given. -/
def signalRows (sha256 : String → String) (signalIds : ℕ → String) (signals : List ReviewSignal) :
    List ReviewSignalRow :=
  signals.mapIdx fun i signal =>
    { signalId := signalIds i
      category := signal.category
      summary := signal.summary
      evidenceFingerprint := signal.stableFingerprint sha256 }

namespace ReviewDb

variable (sha256 : String → String)

def empty : ReviewDb := ⟨.empty⟩

/-- The OPEN case of a key. -/
def openCase (db : ReviewDb) (dedupeKey : String) : Option (String × ReviewCaseRow) :=
  db.cases.entries.find? fun e => e.2.dedupeKey = dedupeKey ∧ e.2.state = .open

def domainCase (task : Task) (unique : List ReviewSignal) (h : unique ≠ []) (caseId : String)
    (now : Instant) : ReviewCase where
  caseId
  taskId := task.taskId
  worker := task.worker
  action := task.action
  inputEventId := task.inputEventId
  signalFingerprints :=
    (unique.map fun signal => signal.stableFingerprint sha256).insertionSort (· ≤ ·)
  categories := signalCategories unique
  summaries := signalSummaries unique
  openedAt := now
  fingerprints_ne := by
    obtain ⟨signal, hsignal⟩ := List.exists_mem_of_ne_nil _ h
    exact List.ne_nil_of_mem ((List.mem_insertionSort _).mpr (List.mem_map_of_mem hsignal))
  categories_ne := signalCategories_ne h
  resolved_iff := open_unresolved

/-- The rows of `domain_case`. -/
def caseRow (task : Task) (unique : List ReviewSignal) (h : unique ≠ []) (dedupeKey : String)
    (signalIds : ℕ → String) (now : Instant) : ReviewCaseRow where
  taskId := task.taskId
  worker := task.worker
  action := task.action
  inputEventId := task.inputEventId
  state := .open
  dedupeKey
  openedAt := now
  signals := signalRows sha256 signalIds unique
  signals_ne hnil := h (List.mapIdx_eq_nil_iff.mp hnil)
  resolved_iff := open_unresolved

/-- `open_or_get`. With no OPEN case of the key, what the insert can violate is the primary key or a
    foreign key; the error is raised again, since there is still no such case. -/
def openOrGet (db : ReviewDb) (task : Task) (signals : List ReviewSignal) (caseId : String)
    (signalIds : ℕ → String) (now : Instant) (rowsStored : Bool) :
    Except PyError ReviewCase × ReviewDb :=
  let unique := uniqueSignals sha256 signals
  let fingerprints := (unique.map fun signal => signal.stableFingerprint sha256).insertionSort (· ≤ ·)
  let dedupeKey := reviewDedupeKey sha256 task.taskId fingerprints
  if signals = [] then
    (.error (.valueError "cannot open review case without triggering signals"), db)
  else
    match db.openCase dedupeKey with
    | some (existingId, existing) => (.ok (existing.toCase existingId), db)
    | none =>
      if h : unique = [] then
        (.error (.valueError "review case requires at least one signal fingerprint"), db)
      else if rowsStored && (db.cases.get? caseId).isNone then
        (.ok (domainCase sha256 task unique h caseId now),
          ⟨db.cases.set caseId (caseRow sha256 task unique h dedupeKey signalIds now)⟩)
      else (.error (.integrityError "review_cases: constraint failed"), db)

def get (db : ReviewDb) (caseId : String) : Option ReviewCase :=
  (db.cases.get? caseId).map fun row => row.toCase caseId

/-- `approved_for_task`: the APPROVED cases of the task, the one decided last first. -/
def approvedForTask (db : ReviewDb) (taskId : String) (fingerprints : Option (List String)) :
    Option ReviewCase :=
  (((db.cases.entries.filter fun e =>
      e.2.taskId = taskId ∧ e.2.state = .approved).insertionSort fun a b =>
    b.2.resolvedAt.getD 0 < a.2.resolvedAt.getD 0 ∨
      b.2.resolvedAt.getD 0 = a.2.resolvedAt.getD 0 ∧ b.1 ≤ a.1).map fun e =>
    e.2.toCase e.1).find? fun c => ∀ fs ∈ fingerprints, c.signalFingerprints = fs

def resolve (db : ReviewDb) (caseId : String) (state : ReviewCaseState) (reason : Option String)
    (now : Instant) : Except PyError ReviewCase × ReviewDb :=
  if h : state = .open then (.error (.valueError "resolve() requires a non-OPEN state"), db)
  else
    match db.cases.get? caseId with
    | none => (.error (.keyError s!"unknown review case: {caseId}"), db)
    | some row =>
      if row.state ≠ .open then
        (.error (.valueError s!"review case {caseId} is already resolved"), db)
      else
        let resolved := { row with
          state
          resolvedAt := some now
          resolutionReason := reason.bind stripOrNone
          resolved_iff := by simp [h] }
        (.ok (resolved.toCase caseId), ⟨db.cases.set caseId resolved⟩)

end ReviewDb

/-- `SQLiteReviewCaseStore`, as a store of cases. -/
def sqliteReviewCaseStore (sha256 : String → String) : ReviewCaseStore ReviewDb where
  empty := .empty
  openOrGet := ReviewDb.openOrGet sha256
  get := ReviewDb.get
  approvedForTask := ReviewDb.approvedForTask
  resolve := ReviewDb.resolve

/-! ## The signals of a case, through their fingerprints -/

section Signals

variable {sha256 : String → String} {signals : List ReviewSignal}

theorem fingerprints_uniqueSignals (sha256 : String → String) (signals : List ReviewSignal) :
    (uniqueSignals sha256 signals).map (fun signal => signal.stableFingerprint sha256) =
      fromkeys (signals.map fun signal => signal.stableFingerprint sha256) := by
  have hself : ∀ signal ∈ signals, signal.stableFingerprint sha256 =
      id (signal.stableFingerprint sha256) := fun _ _ => rfl
  have := map_values_ofList hself
  rwa [List.map_id] at this

/-- SQLite keeps the fingerprints. -/
theorem sorted_uniqueSignals (sha256 : String → String) (signals : List ReviewSignal) :
    ((uniqueSignals sha256 signals).map fun signal =>
      signal.stableFingerprint sha256).insertionSort (· ≤ ·) = signalFingerprints sha256 signals := by
  rw [fingerprints_uniqueSignals, insertionSort_fromkeys]
  rfl

theorem uniqueSignals_ne (sha256 : String → String) (h : signals ≠ []) : uniqueSignals sha256 signals ≠ [] := by
  intro hnil
  have hkeys := fingerprints_uniqueSignals sha256 signals
  rw [hnil, List.map_nil] at hkeys
  obtain ⟨signal, hsignal⟩ := List.exists_mem_of_ne_nil _ h
  have hmem : signal.stableFingerprint sha256 ∈
      fromkeys (signals.map fun signal => signal.stableFingerprint sha256) :=
    mem_fromkeys.mpr (List.mem_map_of_mem hsignal)
  rw [← hkeys] at hmem
  cases hmem

/-- What the fingerprints decide, the signals SQLite keeps have of all of them. -/
theorem fromkeys_uniqueSignals {β : Type} [DecidableEq β] {g : ReviewSignal → β} (hne : signals ≠ [])
    (h : ∀ signal ∈ signals, ∀ signal' ∈ signals,
      signal.stableFingerprint sha256 = signal'.stableFingerprint sha256 → g signal = g signal') :
    fromkeys ((uniqueSignals sha256 signals).map g) = fromkeys (signals.map g) := by
  obtain ⟨f, hf⟩ := exists_factor h hne
  have hvalues : (uniqueSignals sha256 signals).map g =
      (fromkeys (signals.map fun signal => signal.stableFingerprint sha256)).map f :=
    map_values_ofList hf
  have hmap : signals.map g = (signals.map fun signal => signal.stableFingerprint sha256).map f := by
    rw [List.map_map]
    exact List.map_congr_left hf
  rw [hvalues, fromkeys_map_fromkeys, hmap]

theorem mem_map_uniqueSignals {β : Type} [DecidableEq β] {g : ReviewSignal → β} (hne : signals ≠ [])
    (h : ∀ signal ∈ signals, ∀ signal' ∈ signals,
      signal.stableFingerprint sha256 = signal'.stableFingerprint sha256 → g signal = g signal')
    (b : β) : b ∈ (uniqueSignals sha256 signals).map g ↔ b ∈ signals.map g := by
  rw [← mem_fromkeys, fromkeys_uniqueSignals hne h, mem_fromkeys]

/-- What is read back of the signals is what was written, in the order of the reading. -/
theorem map_readSignals_perm {β : Type} {g : ReviewSignalRow → β} {g' : ReviewSignal → β}
    (hg : ∀ (signalId : String) (signal : ReviewSignal), g ⟨signalId, signal.category, signal.summary,
      signal.stableFingerprint sha256⟩ = g' signal) (signalIds : ℕ → String) :
    ((readSignals (signalRows sha256 signalIds signals)).map g).Perm (signals.map g') := by
  have hrows : (signalRows sha256 signalIds signals).map g = signals.map g' :=
    map_mapIdx_eq (fun i signal => hg (signalIds i) signal) signals
  rw [← hrows]
  exact (List.perm_insertionSort _ _).map g

end Signals

namespace ReviewDb

/-- What is read back of a row that was written. -/
theorem toCase_caseRow (sha256 : String → String) (task : Task) {signals : List ReviewSignal}
    (h : uniqueSignals sha256 signals ≠ []) (dedupeKey : String)
    (signalIds : ℕ → String) (now : Instant) (caseId : String) :
    ((caseRow sha256 task (uniqueSignals sha256 signals) h dedupeKey signalIds now).toCase
        caseId).signalFingerprints = signalFingerprints sha256 signals ∧
      ((caseRow sha256 task (uniqueSignals sha256 signals) h dedupeKey signalIds now).toCase
        caseId).categories = signalCategories (uniqueSignals sha256 signals) := by
  constructor
  · have hperm : ((readSignals (signalRows sha256 signalIds (uniqueSignals sha256 signals))).map
        fun row => row.evidenceFingerprint).Perm ((uniqueSignals sha256 signals).map
          fun signal => signal.stableFingerprint sha256) :=
      map_readSignals_perm (fun _ _ => rfl) signalIds
    exact (insertionSort_eq_of_perm hperm).trans (sorted_uniqueSignals sha256 signals)
  · have hperm : ((readSignals (signalRows sha256 signalIds (uniqueSignals sha256 signals))).map
        fun row => row.category).Perm ((uniqueSignals sha256 signals).map
          fun signal => signal.category) :=
      map_readSignals_perm (fun _ _ => rfl) signalIds
    exact sortedSet_eq ReviewCategory.value_injective fun _ => hperm.mem_iff

end ReviewDb

/-! ## Two findings in one place -/

/-- A follow-up task to review. -/
def followUpTask : Task where
  taskId := "tsk_follow_up"
  worker := trufflehogName
  action := ⟨"verify", by decide, by decide⟩
  inputEventId := ⟨"evt_leak", by decide, by decide⟩
  createdAt := 0
  updatedAt := 0
  availableAt := 0
  lifecycle := by decide

/-- A key that was found. -/
def secretSignal : ReviewSignal where
  category := .possibleSecret
  summary := ⟨"aws key", by decide, by decide⟩
  evidenceFingerprint := some ⟨"fp_leak", by decide, by decide⟩

/-- Personal data in the same place. -/
def privateSignal : ReviewSignal where
  category := .privateData
  summary := ⟨"user list", by decide, by decide⟩
  evidenceFingerprint := some ⟨"fp_leak", by decide, by decide⟩

end NightScout
