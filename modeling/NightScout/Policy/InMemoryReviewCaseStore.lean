import NightScout.Policy.ReviewCases

/-!
# `InMemoryReviewCaseStore`

The development store of `recon/policy/review_gate.py`: the cases, and the OPEN case of every key. The
lock is held over each method. `Wf` says that the second dictionary repeats the first.
-/

namespace NightScout

open Lib

structure InMemoryReviewCaseStore where
  cases : Dict String ReviewCase
  openKeys : Dict String String

namespace InMemoryReviewCaseStore

variable (sha256 : String → String)

def empty : InMemoryReviewCaseStore := ⟨.empty, .empty⟩

/-- The end of `open_or_get`. -/
def insert (s : InMemoryReviewCaseStore) (key : String) (reviewCase : ReviewCase) :
    InMemoryReviewCaseStore :=
  ⟨s.cases.set reviewCase.caseId reviewCase, s.openKeys.set key reviewCase.caseId⟩

def openOrGet (s : InMemoryReviewCaseStore) (task : Task) (signals : List ReviewSignal)
    (caseId : String) (now : Instant) : Except PyError ReviewCase × InMemoryReviewCaseStore :=
  if h : signals = [] then
    (.error (.valueError "cannot open review case without triggering signals"), s)
  else
    let key := reviewDedupeKey sha256 task.taskId (signalFingerprints sha256 signals)
    let opened := openedCase sha256 task signals h caseId now
    match s.openKeys.get? key with
    | none => (.ok opened, s.insert key opened)
    | some existingId =>
      match s.cases.get? existingId with
      | none => (.ok opened, insert { s with openKeys := s.openKeys.erase key } key opened)
      | some existing =>
        if existing.state = .open then (.ok existing, s)
        else (.ok opened, insert { s with openKeys := s.openKeys.erase key } key opened)

def approvedForTask (s : InMemoryReviewCaseStore) (taskId : String)
    (fingerprints : Option (List String)) : Option ReviewCase :=
  ((s.cases.values.filter fun c => c.taskId = taskId ∧ c.state = .approved ∧
      ∀ fs ∈ fingerprints, c.signalFingerprints = fs).insertionSort fun a b =>
    b.resolvedAt.getD b.openedAt ≤ a.resolvedAt.getD a.openedAt).head?

def resolve (s : InMemoryReviewCaseStore) (caseId : String) (state : ReviewCaseState)
    (reason : Option String) (now : Instant) :
    Except PyError ReviewCase × InMemoryReviewCaseStore :=
  if h : state = .open then (.error (.valueError "resolve() requires a non-OPEN review state"), s)
  else
    match s.cases.get? caseId with
    | none => (.error (.keyError s!"unknown review case: {caseId}"), s)
    | some reviewCase =>
      if reviewCase.state ≠ .open then
        (.error (.valueError s!"review case {caseId} is already resolved"), s)
      else
        let resolved := reviewCase.resolve state h reason now
        let key := reviewCase.dedupeKey sha256
        (.ok resolved,
          { cases := s.cases.set caseId resolved
            openKeys :=
              if s.openKeys.get? key = some caseId then s.openKeys.erase key else s.openKeys })

end InMemoryReviewCaseStore

/-- `InMemoryReviewCaseStore`, as a store of cases. -/
def inMemoryReviewCaseStore (sha256 : String → String) :
    ReviewCaseStore InMemoryReviewCaseStore where
  empty := .empty
  openOrGet s task signals caseId _ now _ := s.openOrGet sha256 task signals caseId now
  get s caseId := s.cases.get? caseId
  approvedForTask := InMemoryReviewCaseStore.approvedForTask
  resolve := InMemoryReviewCaseStore.resolve sha256

/-! ## The OPEN case of a key -/

namespace InMemoryReviewCaseStore

variable {sha256 : String → String} {s : InMemoryReviewCaseStore}

variable (sha256) in
structure Wf (s : InMemoryReviewCaseStore) : Prop where
  /-- A case is stored under its identifier. -/
  caseId : ∀ id c, s.cases.get? id = some c → c.caseId = id
  /-- Every OPEN case is the one of its key. -/
  opened : ∀ id c, s.cases.get? id = some c → c.state = .open →
    s.openKeys.get? (c.dedupeKey sha256) = some id
  /-- Every key with a case is the key of an OPEN case. -/
  openKey : ∀ key id, s.openKeys.get? key = some id →
    ∃ c, s.cases.get? id = some c ∧ c.state = .open ∧ c.dedupeKey sha256 = key

theorem wf_empty : Wf sha256 empty where
  caseId _ _ h := by cases h
  opened _ _ h := by cases h
  openKey _ _ h := by cases h

/-- An OPEN case of the key is found. -/
theorem Wf.openOrGet_existing (h : Wf sha256 s) {task : Task} {signals : List ReviewSignal}
    (hne : signals ≠ []) {id : String} {c : ReviewCase} (hc : s.cases.get? id = some c) (hopen : c.state = .open)
    (hkey : c.dedupeKey sha256 = reviewDedupeKey sha256 task.taskId (signalFingerprints sha256 signals))
    (caseId : String) (now : Instant) : s.openOrGet sha256 task signals caseId now = (.ok c, s) := by
  have hact := h.opened id c hc hopen
  rw [hkey] at hact
  unfold openOrGet
  rw [dif_neg hne]
  simp only [hact, hc, hopen, if_true]

/-- A new case is opened if no OPEN case has the key. -/
theorem Wf.openOrGet_new (h : Wf sha256 s) {task : Task} {signals : List ReviewSignal}
    (hne : signals ≠ []) (hnone : ∀ id c, s.cases.get? id = some c → c.state = .open →
      c.dedupeKey sha256 ≠ reviewDedupeKey sha256 task.taskId (signalFingerprints sha256 signals))
    (caseId : String) (now : Instant) : s.openOrGet sha256 task signals caseId now =
      (.ok (openedCase sha256 task signals hne caseId now),
        s.insert (reviewDedupeKey sha256 task.taskId (signalFingerprints sha256 signals))
          (openedCase sha256 task signals hne caseId now)) := by
  have hkey : s.openKeys.get?
      (reviewDedupeKey sha256 task.taskId (signalFingerprints sha256 signals)) = none := by
    cases hk : s.openKeys.get?
        (reviewDedupeKey sha256 task.taskId (signalFingerprints sha256 signals)) with
    | none => rfl
    | some id =>
      obtain ⟨c, hc, hopen, hck⟩ := h.openKey _ id hk
      exact absurd hck (hnone id c hc hopen)
  unfold openOrGet
  rw [dif_neg hne]
  simp only [hkey]

theorem Wf.insert (h : Wf sha256 s) {c : ReviewCase} (hopen : c.state = .open) (hfresh : s.cases.get? c.caseId = none)
    (hnone : ∀ id c', s.cases.get? id = some c' → c'.state = .open → c'.dedupeKey sha256 ≠ c.dedupeKey sha256) :
    Wf sha256 (s.insert (c.dedupeKey sha256) c) := by
  constructor
  · intro id c' hc'
    simp only [InMemoryReviewCaseStore.insert, Dict.get?_set] at hc'
    split at hc'
    next hid =>
      cases hc'
      exact hid.symm
    next => exact h.caseId id c' hc'
  · intro id c' hc' hopen'
    simp only [InMemoryReviewCaseStore.insert, Dict.get?_set] at hc' ⊢
    split at hc'
    next hid =>
      cases hc'
      rw [if_pos rfl, hid]
    next =>
      rw [if_neg (hnone id c' hc' hopen')]
      exact h.opened id c' hc' hopen'
  · intro key id hkey
    simp only [InMemoryReviewCaseStore.insert, Dict.get?_set] at hkey ⊢
    split at hkey
    next heq =>
      cases hkey
      exact ⟨c, if_pos rfl, hopen, heq.symm⟩
    next =>
      obtain ⟨c', hc', hopen', hck⟩ := h.openKey key id hkey
      have hne : id ≠ c.caseId := by
        intro hid
        rw [hid, hfresh] at hc'
        cases hc'
      exact ⟨c', by rw [if_neg hne]; exact hc', hopen', hck⟩

/-- What deciding an OPEN case leaves. -/
theorem Wf.resolve (h : Wf sha256 s) {id : String} {c : ReviewCase}
    (hc : s.cases.get? id = some c) (hopen : c.state = .open) {state : ReviewCaseState}
    (hstate : state ≠ .open) (reason : Option String) (now : Instant) :
    (s.resolve sha256 id state reason now).1 = .ok (c.resolve state hstate reason now) ∧
      (s.resolve sha256 id state reason now).2.cases = s.cases.set id (c.resolve state hstate reason now) ∧
      Wf sha256 (s.resolve sha256 id state reason now).2 := by
  have hact := h.opened id c hc hopen
  have hresolve : s.resolve sha256 id state reason now = (.ok (c.resolve state hstate reason now),
      { cases := s.cases.set id (c.resolve state hstate reason now)
        openKeys := s.openKeys.erase (c.dedupeKey sha256) }) := by
    unfold InMemoryReviewCaseStore.resolve
    rw [dif_neg hstate]
    simp only [hc, hopen, ne_eq, not_true_eq_false, if_false, hact, if_true]
  rw [hresolve]
  refine ⟨rfl, rfl, ?_⟩
  constructor
  · intro id' c' hc'
    simp only [Dict.get?_set] at hc'
    split at hc'
    next hid =>
      cases hc'
      rw [hid]
      exact h.caseId id c hc
    next => exact h.caseId id' c' hc'
  · intro id' c' hc' hopen'
    simp only [Dict.get?_set] at hc'
    split at hc'
    next =>
      cases hc'
      exact absurd hopen' hstate
    next hid =>
      have hact' := h.opened id' c' hc' hopen'
      simp only [Dict.get?_erase]
      split
      next hkey =>
        -- two OPEN cases of one key are one case
        rw [hkey, hact] at hact'
        exact absurd (Option.some.inj hact').symm hid
      next => exact hact'
  · intro key id' hkey
    simp only [Dict.get?_erase] at hkey
    split at hkey
    · cases hkey
    next hne =>
      obtain ⟨c', hc', hopen', hck⟩ := h.openKey key id' hkey
      have hid : id' ≠ id := by
        intro hid
        rw [hid, hc] at hc'
        cases hc'
        exact hne hck.symm
      exact ⟨c', by rw [Dict.get?_set_ne _ _ hid]; exact hc', hopen', hck⟩

end InMemoryReviewCaseStore

end NightScout
