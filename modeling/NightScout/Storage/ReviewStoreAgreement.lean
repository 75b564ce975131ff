import NightScout.Policy.InMemoryReviewCaseStore
import NightScout.Storage.SQLiteReviewCaseStore
import NightScout.Lib.Run

/-!
# Whether the review stores keep what they are told

Requests for a case are made of both stores, and cases are decided. A request should get a case with its
own fingerprints and categories, the case of an earlier request exactly if that was for the same task
and the same signals and its case is still OPEN, and the same case from both stores.

Three things stand in the way. The fingerprints are joined with bars before they are hashed, so
different lists of them can make one key. Signals of one fingerprint need not agree on their category,
and SQLite keeps one row of them. And SQLite reads summaries back in the order of their categories.
`ReviewOp.Distinguishable` excludes these for one request; `review_stores_correct` is that the stores are
then right along every run.
-/

namespace NightScout

open Lib

inductive ReviewOp where
  /-- With the identifiers the case and its signals would get, the clock, and whether the rows a case
      refers to are stored. -/
  | openOrGet (task : Task) (signals : List ReviewSignal) (caseId : String) (signalIds : ℕ → String)
      (now : Instant) (rowsStored : Bool)
  | resolve (caseId : String) (state : ReviewCaseState) (reason : Option String) (now : Instant)

/-- A request that was answered: its task and signals, and the case it got. -/
structure ReviewRequest where
  taskId : String
  signals : List ReviewSignal
  caseId : String

structure ReviewWorld where
  memory : InMemoryReviewCaseStore
  sqlite : ReviewDb
  /-- The requests so far. -/
  log : List ReviewRequest

namespace ReviewWorld

def empty : ReviewWorld := ⟨.empty, .empty, []⟩

end ReviewWorld

namespace ReviewOp

variable (sha256 : String → String)

/-- What a store answers. -/
def run {σ : Type} (store : ReviewCaseStore σ) (s : σ) : ReviewOp → Except PyError ReviewCase × σ
  | openOrGet task signals caseId signalIds now rowsStored =>
    store.openOrGet s task signals caseId signalIds now rowsStored
  | resolve caseId state reason now => store.resolve s caseId state reason now

/-- The requests after an operation, from the answer to it. -/
def logged (log : List ReviewRequest) : ReviewOp → Except PyError ReviewCase → List ReviewRequest
  | openOrGet task signals .., .ok c => ⟨task.taskId, signals, c.caseId⟩ :: log
  | _, _ => log

/-- Both stores take the operation. -/
def next (w : ReviewWorld) (op : ReviewOp) : ReviewWorld where
  memory := (op.run (inMemoryReviewCaseStore sha256) w.memory).2
  sqlite := (op.run (sqliteReviewCaseStore sha256) w.sqlite).2
  log := op.logged w.log (op.run (inMemoryReviewCaseStore sha256) w.memory).1

/-- The case of a request is OPEN. -/
def StillOpen (w : ReviewWorld) (request : ReviewRequest) : Prop :=
  ∃ c, w.memory.cases.get? request.caseId = some c ∧ c.state = .open

/-- The operation is right: both stores answer it alike, and a request gets an OPEN case with its
    fingerprints and categories, which was not decided, and which is the OPEN case of an earlier request
    exactly if that was for the same task and fingerprints. -/
def Correct (w : ReviewWorld) (op : ReviewOp) : Prop :=
  (op.run (inMemoryReviewCaseStore sha256) w.memory).1.toOption =
    (op.run (sqliteReviewCaseStore sha256) w.sqlite).1.toOption ∧
  match op with
  | openOrGet task signals .. => signals ≠ [] →
    ∃ c, (op.run (inMemoryReviewCaseStore sha256) w.memory).1 = .ok c ∧ c.state = .open ∧
      (∀ f, f ∈ c.signalFingerprints ↔ ∃ signal ∈ signals, signal.stableFingerprint sha256 = f) ∧
      (∀ k, k ∈ c.categories ↔ ∃ signal ∈ signals, signal.category = k) ∧
      (∀ d, w.memory.cases.get? c.caseId = some d → d.state = .open) ∧
      ∀ request ∈ w.log, StillOpen w request → (c.caseId = request.caseId ↔
        request.taskId = task.taskId ∧
          signalFingerprints sha256 request.signals = signalFingerprints sha256 signals)
  | resolve .. => True

/-- Signals of one fingerprint have one category and one summary. -/
def Alike (signals : List ReviewSignal) : Prop :=
  ∀ signal ∈ signals, ∀ signal' ∈ signals,
    signal.stableFingerprint sha256 = signal'.stableFingerprint sha256 →
      signal.category = signal'.category ∧ signal.summary = signal'.summary

/-- A request is told apart from an earlier one. -/
def ToldApart (task : Task) (signals : List ReviewSignal) (request : ReviewRequest) : Prop :=
  -- the joined texts are of one task and the same fingerprints
  (reviewMaterial request.taskId (signalFingerprints sha256 request.signals) =
      reviewMaterial task.taskId (signalFingerprints sha256 signals) →
    request.taskId = task.taskId ∧
      signalFingerprints sha256 request.signals = signalFingerprints sha256 signals) ∧
  -- the fingerprints they share stand for the same categories
  (request.taskId = task.taskId →
    signalFingerprints sha256 request.signals = signalFingerprints sha256 signals →
    ∀ signal ∈ signals, ∀ signal' ∈ request.signals,
      signal.stableFingerprint sha256 = signal'.stableFingerprint sha256 →
        signal.category = signal'.category)

/-- What the stores can tell apart. -/
def Distinguishable (w : ReviewWorld) : ReviewOp → Prop
  | openOrGet task signals caseId signalIds _ rowsStored =>
    Alike sha256 signals ∧
    -- the summaries are listed in the order they are read back in
    fromkeys ((readSignals (signalRows sha256 signalIds (uniqueSignals sha256 signals))).map
      fun row => row.summary) = signalSummaries signals ∧
    (∀ request ∈ w.log, StillOpen w request → ToldApart sha256 task signals request) ∧
    w.memory.cases.get? caseId = none ∧ rowsStored = true
  | resolve .. => True

instance (signals : List ReviewSignal) : Decidable (Alike sha256 signals) :=
  inferInstanceAs (Decidable (∀ _ ∈ _, ∀ _ ∈ _, _ → _))

instance (task : Task) (signals : List ReviewSignal) (request : ReviewRequest) :
    Decidable (ToldApart sha256 task signals request) :=
  inferInstanceAs (Decidable ((_ → _) ∧ (_ → _ → ∀ _ ∈ _, ∀ _ ∈ _, _ → _)))

instance (w : ReviewWorld) (request : ReviewRequest) : Decidable (StillOpen w request) :=
  match h : w.memory.cases.get? request.caseId with
  | none => .isFalse fun ⟨_, hc, _⟩ => Option.some_ne_none _ (hc.symm.trans h)
  | some c =>
    if hopen : c.state = .open then .isTrue ⟨c, h, hopen⟩
    else .isFalse fun ⟨_, hc, hc'⟩ => hopen (Option.some.inj (h.symm.trans hc) ▸ hc')

instance (w : ReviewWorld) (op : ReviewOp) : Decidable (op.Distinguishable sha256 w) :=
  match op with
  | openOrGet .. => inferInstanceAs (Decidable (_ ∧ _ ∧ (∀ _ ∈ _, _ → _) ∧ _ ∧ _))
  | resolve .. => inferInstanceAs (Decidable True)

end ReviewOp

/-! ## Stores with the same cases -/

/-- The two stores hold the same cases, each row under the key of its case. -/
structure SameCases (sha256 : String → String) (s : InMemoryReviewCaseStore) (db : ReviewDb) : Prop where
  get : ∀ id, db.get id = s.cases.get? id
  key : ∀ id row, db.cases.get? id = some row → row.dedupeKey = (row.toCase id).dedupeKey sha256

namespace SameCases

variable {sha256 : String → String} {s : InMemoryReviewCaseStore} {db : ReviewDb}

theorem empty : SameCases sha256 .empty .empty where
  get _ := rfl
  key _ _ h := by cases h

theorem row (h : SameCases sha256 s db) {id : String} {c : ReviewCase} (hc : s.cases.get? id = some c) :
    ∃ row, db.cases.get? id = some row ∧ row.toCase id = c := by
  have hget := h.get id
  rw [hc] at hget
  exact Option.map_eq_some_iff.mp hget

theorem stored (h : SameCases sha256 s db) {id : String} {row : ReviewCaseRow}
    (hrow : db.cases.get? id = some row) : s.cases.get? id = some (row.toCase id) := by
  rw [← h.get id]
  unfold ReviewDb.get
  rw [hrow]
  rfl

/-- A row and a case are written under one identifier. -/
theorem set (h : SameCases sha256 s db) {id : String} {row : ReviewCaseRow} {c : ReviewCase}
    (hcase : row.toCase id = c) (hkey : row.dedupeKey = c.dedupeKey sha256)
    {s' : InMemoryReviewCaseStore} (hs' : s'.cases = s.cases.set id c) :
    SameCases sha256 s' ⟨db.cases.set id row⟩ where
  get id' := by
    have hget := h.get id'
    unfold ReviewDb.get at hget ⊢
    rw [hs', Dict.get?_set, Dict.get?_set]
    split
    next heq =>
      rw [heq, Option.map_some, hcase]
    next => exact hget
  key id' row' hrow' := by
    rw [Dict.get?_set] at hrow'
    split at hrow'
    next heq =>
      cases hrow'
      rw [heq, hcase, hkey]
    next => exact h.key id' row' hrow'

/-- SQLite finds the OPEN case of a key, if there is one. -/
theorem openCase (h : SameCases sha256 s db) (key : String) :
    (∃ id row, db.openCase key = some (id, row) ∧ s.cases.get? id = some (row.toCase id) ∧
      (row.toCase id).state = .open ∧ (row.toCase id).dedupeKey sha256 = key) ∨
    (db.openCase key = none ∧ ∀ id c, s.cases.get? id = some c → c.state = .open → c.dedupeKey sha256 ≠ key) := by
  cases hfind : db.openCase key with
  | some e =>
    obtain ⟨id, row⟩ := e
    unfold ReviewDb.openCase at hfind
    have hcond := List.find?_some hfind
    have hrow : db.cases.get? id = some row := Dict.mem_entries_iff.mp (List.mem_of_find?_eq_some hfind)
    simp only [decide_eq_true_eq] at hcond
    exact .inl ⟨id, row, rfl, h.stored hrow, hcond.2, (h.key id row hrow).symm.trans hcond.1⟩
  | none =>
    refine .inr ⟨rfl, ?_⟩
    intro id c hc hopen hk
    obtain ⟨row, hrow, rfl⟩ := h.row hc
    unfold ReviewDb.openCase at hfind
    rw [List.find?_eq_none] at hfind
    have hno := hfind (id, row) (Dict.mem_entries_iff.mpr hrow)
    rw [decide_eq_true_eq] at hno
    exact hno ⟨(h.key id row hrow).trans hk, hopen⟩

/-- A new case is the same in both stores, if its signals can be told apart. -/
theorem insert (h : SameCases sha256 s db) {task : Task}
    {signals : List ReviewSignal} (hne : signals ≠ []) {caseId : String} {signalIds : ℕ → String} (now : Instant)
    (halike : ∀ signal ∈ signals, ∀ signal' ∈ signals,
      signal.stableFingerprint sha256 = signal'.stableFingerprint sha256 →
        signal.category = signal'.category ∧ signal.summary = signal'.summary)
    (hlisted : fromkeys ((readSignals (signalRows sha256 signalIds
      (uniqueSignals sha256 signals))).map fun row => row.summary) = signalSummaries signals)
    (hfresh : s.cases.get? caseId = none) (hnone : db.openCase
      (reviewDedupeKey sha256 task.taskId (signalFingerprints sha256 signals)) = none) :
    ∃ db', db.openOrGet sha256 task signals caseId signalIds now true =
        (.ok (openedCase sha256 task signals hne caseId now), db') ∧ SameCases sha256 (s.insert
        (reviewDedupeKey sha256 task.taskId (signalFingerprints sha256 signals))
        (openedCase sha256 task signals hne caseId now)) db' := by
  have hrow : db.cases.get? caseId = none :=
    Option.map_eq_none_iff.mp ((h.get caseId).trans hfresh)
  have hunique := uniqueSignals_ne sha256 hne
  have hcategories : signalCategories (uniqueSignals sha256 signals) = signalCategories signals :=
    sortedSet_eq ReviewCategory.value_injective
      (mem_map_uniqueSignals hne fun a ha b hb hab => (halike a ha b hb hab).1)
  have hsummaries : signalSummaries (uniqueSignals sha256 signals) = signalSummaries signals :=
    fromkeys_uniqueSignals hne fun a ha b hb hab => (halike a ha b hb hab).2
  have hdomain : ReviewDb.domainCase sha256 task (uniqueSignals sha256 signals) hunique caseId now =
      openedCase sha256 task signals hne caseId now := by
    unfold ReviewDb.domainCase openedCase
    simp only [sorted_uniqueSignals, hcategories, hsummaries]
  have hread : (ReviewDb.caseRow sha256 task (uniqueSignals sha256 signals) hunique
      (reviewDedupeKey sha256 task.taskId (signalFingerprints sha256 signals)) signalIds now).toCase
        caseId = openedCase sha256 task signals hne caseId now := by
    obtain ⟨hfingerprints, hkinds⟩ := ReviewDb.toCase_caseRow sha256 task hunique
      (reviewDedupeKey sha256 task.taskId (signalFingerprints sha256 signals)) signalIds now caseId
    rw [hcategories] at hkinds
    simp only [ReviewCaseRow.toCase, ReviewDb.caseRow] at hfingerprints hkinds
    unfold ReviewCaseRow.toCase ReviewDb.caseRow openedCase
    simp only [hfingerprints, hkinds, hlisted]
  refine ⟨_, ?_, h.set hread rfl rfl⟩
  unfold ReviewDb.openOrGet
  simp only [sorted_uniqueSignals, hnone, if_neg hne, dif_neg hunique, hrow, hdomain,
    Option.isNone_none, Bool.and_true, if_true]

end SameCases

/-! ## Runs -/

namespace ReviewWorld

/-- The stores agree, and the OPEN cases are those of the requests that got them. -/
structure Good (sha256 : String → String) (w : ReviewWorld) : Prop where
  memory : w.memory.Wf sha256
  same : SameCases sha256 w.memory w.sqlite
  /-- A case that is still OPEN has the task, fingerprints and categories of every request it
      answered. -/
  answers : ∀ request ∈ w.log, ∀ c, w.memory.cases.get? request.caseId = some c → c.state = .open →
    c.taskId = request.taskId ∧ c.signalFingerprints = signalFingerprints sha256 request.signals ∧
      c.categories = signalCategories request.signals
  /-- The case of a request is stored. -/
  stored : ∀ request ∈ w.log, w.memory.cases.get? request.caseId ≠ none
  /-- An OPEN case answered some request. -/
  asked : ∀ id c, w.memory.cases.get? id = some c → c.state = .open →
    ∃ request ∈ w.log, request.caseId = id

theorem good_empty (sha256 : String → String) : Good sha256 empty where
  memory := InMemoryReviewCaseStore.wf_empty
  same := SameCases.empty
  answers _ h := by cases h
  stored _ h := by cases h
  asked _ _ h := by cases h

end ReviewWorld

namespace ReviewOp

variable {sha256 : String → String} {w : ReviewWorld}

theorem mem_signalFingerprints {signals : List ReviewSignal} {f : String} : f ∈ signalFingerprints sha256 signals ↔
      ∃ signal ∈ signals, signal.stableFingerprint sha256 = f := by
  unfold signalFingerprints
  rw [mem_sortedSet, List.mem_map]

theorem mem_signalCategories {signals : List ReviewSignal} {k : ReviewCategory} :
    k ∈ signalCategories signals ↔ ∃ signal ∈ signals, signal.category = k := by
  unfold signalCategories
  rw [mem_sortedSet, List.mem_map]

/-- Signals with the same fingerprints, each of which stands for one category, have the same
    categories. -/
theorem signalCategories_eq {signals signals' : List ReviewSignal}
    (hfs : signalFingerprints sha256 signals' = signalFingerprints sha256 signals)
    (h : ∀ signal ∈ signals, ∀ signal' ∈ signals', signal.stableFingerprint sha256 = signal'.stableFingerprint sha256 →
        signal.category = signal'.category) : signalCategories signals' = signalCategories signals := by
  apply sortedSet_eq ReviewCategory.value_injective
  intro k
  rw [List.mem_map, List.mem_map]
  constructor
  · intro ⟨signal', hsignal', hk⟩
    obtain ⟨signal, hsignal, hf⟩ := mem_signalFingerprints.mp
      (hfs ▸ mem_signalFingerprints.mpr ⟨signal', hsignal', rfl⟩)
    exact ⟨signal, hsignal, (h signal hsignal signal' hsignal' hf).trans hk⟩
  · intro ⟨signal, hsignal, hk⟩
    obtain ⟨signal', hsignal', hf⟩ := mem_signalFingerprints.mp
      (hfs.symm ▸ mem_signalFingerprints.mpr ⟨signal, hsignal, rfl⟩)
    exact ⟨signal', hsignal', (h signal hsignal signal' hsignal' hf.symm).symm.trans hk⟩

/-- A request that finds an OPEN case. -/
theorem openOrGet_existing (hsha : Function.Injective sha256) (h : w.Good sha256) {task : Task}
    {signals : List ReviewSignal} (hne : signals ≠ []) {caseId : String} {signalIds : ℕ → String}
    {now : Instant} {rowsStored : Bool}
    (hok : (openOrGet task signals caseId signalIds now rowsStored).Distinguishable sha256 w)
    {id : String} {row : ReviewCaseRow} (hfind : w.sqlite.openCase
      (reviewDedupeKey sha256 task.taskId (signalFingerprints sha256 signals)) = some (id, row))
    (hc : w.memory.cases.get? id = some (row.toCase id)) (hopen : (row.toCase id).state = .open)
    (hkey : (row.toCase id).dedupeKey sha256 = reviewDedupeKey sha256 task.taskId (signalFingerprints sha256 signals)) :
    (openOrGet task signals caseId signalIds now rowsStored).Correct sha256 w ∧
      ((openOrGet task signals caseId signalIds now rowsStored).next sha256 w).Good sha256 := by
  obtain ⟨_, _, hearlier, _⟩ := hok
  have hmemory : (openOrGet task signals caseId signalIds now rowsStored).run
      (inMemoryReviewCaseStore sha256) w.memory = (.ok (row.toCase id), w.memory) :=
    h.memory.openOrGet_existing hne hc hopen hkey caseId now
  have hsqlite : (openOrGet task signals caseId signalIds now rowsStored).run
      (sqliteReviewCaseStore sha256) w.sqlite = (.ok (row.toCase id), w.sqlite) := by
    show w.sqlite.openOrGet sha256 task signals caseId signalIds now rowsStored = _
    unfold ReviewDb.openOrGet
    simp only [sorted_uniqueSignals, hfind, if_neg hne]
  -- the case was opened for a request the joined texts tell apart from this one, if it is another
  obtain ⟨first, hfirst, hfirstId⟩ := h.asked id _ hc hopen
  obtain ⟨htask, hfs, hcats⟩ := h.answers first hfirst _ (hfirstId ▸ hc) hopen
  have hmaterial : reviewMaterial first.taskId (signalFingerprints sha256 first.signals) =
      reviewMaterial task.taskId (signalFingerprints sha256 signals) := by
    rw [← htask, ← hfs]
    exact hsha hkey
  obtain ⟨happart, hshared⟩ := hearlier first hfirst ⟨_, hfirstId ▸ hc, hopen⟩
  obtain ⟨htask', hfs'⟩ := happart hmaterial
  have hcats' := signalCategories_eq hfs' (hshared htask' hfs')
  rw [htask'] at htask
  rw [hfs'] at hfs
  rw [hcats'] at hcats
  unfold Correct next
  rw [hmemory, hsqlite]
  refine ⟨⟨rfl, fun _ => ⟨_, rfl, hopen, ?_, ?_, ?_, ?_⟩⟩, h.memory, h.same, ?_, ?_, ?_⟩
  · intro f
    rw [hfs]
    exact mem_signalFingerprints
  · intro k
    rw [hcats]
    exact mem_signalCategories
  · intro d hd
    rw [show (row.toCase id).caseId = id from rfl, hc] at hd
    cases hd
    exact hopen
  · intro request hrequest ⟨c', hc', hopen'⟩
    constructor
    · intro hid
      have hid : id = request.caseId := hid
      obtain ⟨ht, hf, _⟩ := h.answers request hrequest _ (hid ▸ hc) hopen
      exact ⟨ht.symm.trans htask, hf.symm.trans hfs⟩
    · intro ⟨ht, hf⟩
      obtain ⟨ht', hf', _⟩ := h.answers request hrequest c' hc' hopen'
      have hkey' : c'.dedupeKey sha256 = (row.toCase id).dedupeKey sha256 := by
        unfold ReviewCase.dedupeKey
        rw [ht', hf', ht, hf, htask, hfs]
      have hopened := h.memory.opened _ _ hc' hopen'
      rw [hkey', h.memory.opened _ _ hc hopen] at hopened
      exact Option.some.inj hopened
  · intro request hrequest c' hc' hopen'
    rcases List.mem_cons.mp hrequest with rfl | hrequest
    · have hc' : w.memory.cases.get? id = some c' := hc'
      rw [hc] at hc'
      cases hc'
      exact ⟨htask, hfs, hcats⟩
    · exact h.answers request hrequest c' hc' hopen'
  · intro request hrequest
    rcases List.mem_cons.mp hrequest with rfl | hrequest
    · show w.memory.cases.get? id ≠ none
      rw [hc]
      exact Option.some_ne_none _
    · exact h.stored request hrequest
  · intro id' c' hc' hopen'
    obtain ⟨request, hrequest, hid⟩ := h.asked id' c' hc' hopen'
    exact ⟨request, List.mem_cons_of_mem _ hrequest, hid⟩

/-- A request that opens a case. -/
theorem openOrGet_new (h : w.Good sha256) {task : Task} {signals : List ReviewSignal}
    (hne : signals ≠ []) {caseId : String} {signalIds : ℕ → String} {now : Instant} {rowsStored : Bool}
    (hok : (openOrGet task signals caseId signalIds now rowsStored).Distinguishable sha256 w) (hnone : w.sqlite.openCase
      (reviewDedupeKey sha256 task.taskId (signalFingerprints sha256 signals)) = none)
    (hno : ∀ id c, w.memory.cases.get? id = some c → c.state = .open → c.dedupeKey sha256 ≠
        reviewDedupeKey sha256 task.taskId (signalFingerprints sha256 signals)) :
    (openOrGet task signals caseId signalIds now rowsStored).Correct sha256 w ∧
      ((openOrGet task signals caseId signalIds now rowsStored).next sha256 w).Good sha256 := by
  obtain ⟨halike, hlisted, _, hfresh, rfl⟩ := hok
  have hmemory : (openOrGet task signals caseId signalIds now true).run
      (inMemoryReviewCaseStore sha256) w.memory =
      (.ok (openedCase sha256 task signals hne caseId now),
        w.memory.insert (reviewDedupeKey sha256 task.taskId (signalFingerprints sha256 signals))
          (openedCase sha256 task signals hne caseId now)) :=
    h.memory.openOrGet_new hne hno caseId now
  obtain ⟨db', hopened, hsame⟩ := h.same.insert hne now halike hlisted hfresh hnone
  have hsqlite : (openOrGet task signals caseId signalIds now true).run
      (sqliteReviewCaseStore sha256) w.sqlite =
      (.ok (openedCase sha256 task signals hne caseId now), db') := hopened
  have hget : ∀ id, (w.memory.insert
      (reviewDedupeKey sha256 task.taskId (signalFingerprints sha256 signals))
      (openedCase sha256 task signals hne caseId now)).cases.get? id =
        if id = caseId then some (openedCase sha256 task signals hne caseId now)
        else w.memory.cases.get? id := fun id => Dict.get?_set _ _ _ _
  unfold Correct next
  rw [hmemory, hsqlite]
  refine ⟨⟨rfl, fun _ => ⟨_, rfl, rfl, ?_, ?_, ?_, ?_⟩⟩, ?_, hsame, ?_, ?_, ?_⟩
  · exact fun f => mem_signalFingerprints
  · exact fun k => mem_signalCategories
  · intro d hd
    have hd : w.memory.cases.get? caseId = some d := hd
    rw [hfresh] at hd
    cases hd
  · intro request hrequest ⟨c', hc', hopen'⟩
    constructor
    · intro hid
      have hid : caseId = request.caseId := hid
      rw [← hid, hfresh] at hc'
      cases hc'
    · intro ⟨ht, hf⟩
      obtain ⟨ht', hf', _⟩ := h.answers request hrequest c' hc' hopen'
      refine absurd ?_ (hno _ c' hc' hopen')
      unfold ReviewCase.dedupeKey
      rw [ht', hf', ht, hf]
  · exact h.memory.insert rfl hfresh hno
  · intro request hrequest c' hc' hopen'
    have hc'' := (hget request.caseId).symm.trans hc'
    rcases List.mem_cons.mp hrequest with rfl | hrequest
    · have hnew : some (openedCase sha256 task signals hne caseId now) = some c' :=
        (if_pos rfl).symm.trans hc''
      cases hnew
      exact ⟨rfl, rfl, rfl⟩
    · have hid : request.caseId ≠ caseId := fun hid => h.stored request hrequest (hid ▸ hfresh)
      rw [if_neg hid] at hc''
      exact h.answers request hrequest c' hc'' hopen'
  · intro request hrequest
    show (w.memory.insert _ _).cases.get? request.caseId ≠ none
    rw [hget]
    split
    next => exact Option.some_ne_none _
    next hid =>
      rcases List.mem_cons.mp hrequest with rfl | hrequest
      · exact absurd rfl hid
      · exact h.stored request hrequest
  · intro id c' hc' hopen'
    have hc'' := (hget id).symm.trans hc'
    split at hc''
    next hid => exact ⟨_, List.mem_cons_self, hid.symm⟩
    next =>
      obtain ⟨request, hrequest, hid⟩ := h.asked id c' hc'' hopen'
      exact ⟨request, List.mem_cons_of_mem _ hrequest, hid⟩

/-- **A distinguishable request is answered right.** -/
theorem openOrGet_correct (hsha : Function.Injective sha256) (h : w.Good sha256) {task : Task}
    {signals : List ReviewSignal} {caseId : String} {signalIds : ℕ → String} {now : Instant} {rowsStored : Bool}
    (hok : (openOrGet task signals caseId signalIds now rowsStored).Distinguishable sha256 w) :
    (openOrGet task signals caseId signalIds now rowsStored).Correct sha256 w ∧
      ((openOrGet task signals caseId signalIds now rowsStored).next sha256 w).Good sha256 := by
  by_cases hne : signals = []
  · have hmemory : (openOrGet task signals caseId signalIds now rowsStored).run
        (inMemoryReviewCaseStore sha256) w.memory =
        (.error (.valueError "cannot open review case without triggering signals"), w.memory) :=
      dif_pos hne
    have hsqlite : (openOrGet task signals caseId signalIds now rowsStored).run
        (sqliteReviewCaseStore sha256) w.sqlite =
        (.error (.valueError "cannot open review case without triggering signals"), w.sqlite) :=
      if_pos hne
    unfold Correct next
    rw [hmemory, hsqlite]
    exact ⟨⟨rfl, fun h => absurd hne h⟩, h⟩
  · rcases h.same.openCase
      (reviewDedupeKey sha256 task.taskId (signalFingerprints sha256 signals)) with
      ⟨id, row, hfind, hc, hopen, hkey⟩ | ⟨hnone, hno⟩
    · exact openOrGet_existing hsha h hne hok hfind hc hopen hkey
    · exact openOrGet_new h hne hok hnone hno

theorem resolve_correct (h : w.Good sha256) (caseId : String) (state : ReviewCaseState)
    (reason : Option String) (now : Instant) : (resolve caseId state reason now).Correct sha256 w ∧
      ((resolve caseId state reason now).next sha256 w).Good sha256 := by
  have hmemory : (resolve caseId state reason now).run (inMemoryReviewCaseStore sha256) w.memory =
      w.memory.resolve sha256 caseId state reason now := rfl
  have hsqlite : (resolve caseId state reason now).run (sqliteReviewCaseStore sha256) w.sqlite =
      w.sqlite.resolve caseId state reason now := rfl
  have hlog : ∀ answer, (resolve caseId state reason now).logged w.log answer = w.log := by
    intro answer
    cases answer <;> rfl
  unfold Correct next
  rw [hmemory, hsqlite, hlog]
  by_cases hstate : state = .open
  · have hm : w.memory.resolve sha256 caseId state reason now =
        (.error (.valueError "resolve() requires a non-OPEN review state"), w.memory) := dif_pos hstate
    have hs : w.sqlite.resolve caseId state reason now =
        (.error (.valueError "resolve() requires a non-OPEN state"), w.sqlite) := dif_pos hstate
    rw [hm, hs]
    exact ⟨⟨rfl, trivial⟩, h⟩
  · cases hc : w.memory.cases.get? caseId with
    | none =>
      have hrow : w.sqlite.cases.get? caseId = none :=
        Option.map_eq_none_iff.mp ((h.same.get caseId).trans hc)
      unfold InMemoryReviewCaseStore.resolve ReviewDb.resolve
      rw [dif_neg hstate, dif_neg hstate]
      simp only [hc, hrow]
      exact ⟨⟨trivial, trivial⟩, h⟩
    | some c =>
      obtain ⟨row, hrow, rfl⟩ := h.same.row hc
      by_cases hopen : row.state = .open
      · obtain ⟨hok, hcases, hwf⟩ := h.memory.resolve hc hopen hstate reason now
        have hs : w.sqlite.resolve caseId state reason now =
            (.ok ((row.toCase caseId).resolve state hstate reason now),
              ⟨w.sqlite.cases.set caseId { row with
                state
                resolvedAt := some now
                resolutionReason := reason.bind stripOrNone
                resolved_iff := by simp [hstate] }⟩) := by
          unfold ReviewDb.resolve
          rw [dif_neg hstate]
          simp only [hrow, hopen, ne_eq, not_true_eq_false, if_false]
          rfl
        rw [hs, hok]
        refine ⟨⟨rfl, trivial⟩, hwf, ?_, ?_, ?_, ?_⟩
        · have hdecided : ReviewCaseRow.toCase { row with
                state
                resolvedAt := some now
                resolutionReason := reason.bind stripOrNone
                resolved_iff := by simp [hstate] } caseId =
              (row.toCase caseId).resolve state hstate reason now := rfl
          exact h.same.set hdecided (h.same.key caseId row hrow) hcases
        · intro request hrequest c' hc' hopen'
          rw [hcases, Dict.get?_set] at hc'
          split at hc'
          next =>
            cases hc'
            exact absurd hopen' hstate
          next => exact h.answers request hrequest c' hc' hopen'
        · intro request hrequest
          rw [hcases, Dict.get?_set]
          split
          next => exact Option.some_ne_none _
          next => exact h.stored request hrequest
        · intro id c' hc' hopen'
          rw [hcases, Dict.get?_set] at hc'
          split at hc'
          next =>
            cases hc'
            exact absurd hopen' hstate
          next => exact h.asked id c' hc' hopen'
      · have hopen' : (row.toCase caseId).state ≠ .open := hopen
        unfold InMemoryReviewCaseStore.resolve ReviewDb.resolve
        rw [dif_neg hstate, dif_neg hstate]
        simp only [hc, hrow, ne_eq, hopen, hopen', not_false_eq_true, if_true]
        exact ⟨⟨trivial, trivial⟩, h⟩

end ReviewOp

/-- **The review stores are right** along every run of requests and decisions they can tell apart. -/
theorem review_stores_correct (sha256 : String → String) (hsha : Function.Injective sha256) (ops : List ReviewOp)
    (hok : Along (fun w op => ReviewOp.next sha256 w op)
      (fun w op => ReviewOp.Distinguishable sha256 w op) .empty ops) :
    Along (fun w op => ReviewOp.next sha256 w op)
      (fun w op => ReviewOp.Correct sha256 w op) .empty ops := by
  refine hok.of_invariant (P := ReviewWorld.Good sha256) (ReviewWorld.good_empty sha256) ?_
  intro w op h hop
  cases op with
  | openOrGet task signals caseId signalIds now rowsStored =>
    exact ReviewOp.openOrGet_correct hsha h hop
  | resolve caseId state reason now => exact ReviewOp.resolve_correct h caseId state reason now

/-! ## Evidence that is shared -/

/-- An admin page elsewhere. -/
def surfaceSignal : ReviewSignal where
  category := .highImpactSurface
  summary := ⟨"admin page", by decide, by decide⟩
  evidenceFingerprint := some ⟨"fp_admin", by decide, by decide⟩

/-- A request for signals of the task. -/
def requestCase (caseId : String) (signals : List ReviewSignal) : ReviewOp :=
  .openOrGet followUpTask signals caseId (fun i => if i = 0 then "sig_first" else "sig_second") 0 true

/-- A key and an admin page are asked about twice, approved, and asked about again. -/
theorem review_stores_correct_decided :
    Along (fun w op => ReviewOp.next id w op) (fun w op => ReviewOp.Correct id w op) .empty
      [requestCase "rev_1" [surfaceSignal, secretSignal],
        requestCase "rev_2" [surfaceSignal, secretSignal],
        .resolve "rev_1" .approved none 5, requestCase "rev_3" [surfaceSignal, secretSignal]] :=
  review_stores_correct id Function.injective_id _ (by decide +kernel)

/-- A signal with the given fingerprint. -/
def signalAt (fingerprint : Stripped) : ReviewSignal :=
  { surfaceSignal with evidenceFingerprint := some fingerprint }

/-- One fingerprint with a bar in it, then the two it is made of. -/
def barRun : List ReviewOp :=
  [requestCase "rev_1" [signalAt ⟨"fp_left|fp_right", by decide, by decide⟩],
    requestCase "rev_2" [signalAt ⟨"fp_left", by decide, by decide⟩,
      signalAt ⟨"fp_right", by decide, by decide⟩]]

/-- A key and personal data in one place are one row in SQLite, and a bar in a fingerprint makes both
    stores answer a request with the case of another. -/
theorem shared_evidence_and_bars :
    ¬ Along (fun w op => ReviewOp.next id w op) (fun w op => ReviewOp.Correct id w op) .empty
        [requestCase "rev_1" [secretSignal, privateSignal]] ∧
      ¬ Along (fun w op => ReviewOp.next id w op) (fun w op => ReviewOp.Correct id w op) .empty
        barRun := by
  constructor
  · intro h
    have hanswers : ((requestCase "rev_1" [secretSignal, privateSignal]).run
          (inMemoryReviewCaseStore id) .empty).1.toOption ≠
        ((requestCase "rev_1" [secretSignal, privateSignal]).run
          (sqliteReviewCaseStore id) .empty).1.toOption := by decide +kernel
    exact hanswers h.1.1
  · intro h
    obtain ⟨_, ⟨_, hright⟩, _⟩ := h
    obtain ⟨c, hc, _, hfs, _⟩ := hright (by decide)
    -- the answer is the case of the first request
    have hfirst : ∃ c', (barRun[1].run (inMemoryReviewCaseStore id)
        (barRun[0].next id .empty).memory).1 = .ok c' ∧
          c'.signalFingerprints = ["fp_left|fp_right"] := ⟨_, rfl, by decide +kernel⟩
    obtain ⟨c', hc', hfs'⟩ := hfirst
    have hsame : c = c' := Except.ok.inj (hc.symm.trans hc')
    have hmem : "fp_left" ∈ c.signalFingerprints := (hfs "fp_left").mpr ⟨_, List.mem_cons_self, rfl⟩
    rw [hsame, hfs'] at hmem
    revert hmem
    decide

end NightScout
