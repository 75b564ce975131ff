import NightScout.Core.Gates
import NightScout.Policy.ReviewCases
import NightScout.Lib.Run

/-!
# The review gate

`ReviewPolicy` and `ReviewGate` of `recon/policy/review_gate.py`. The signals of a task that the policy
does not ignore need an APPROVED case of their fingerprints, and open one otherwise. What the provider
says of a task is an argument of `evaluate`; the recorder, which is told afterwards, is left out.

`evaluate` looks for an approval and then opens a case, and others may act in between. The lookup
changes nothing and its answer is all that an ALLOW rests on, so the run in which they act in between
is also one where `evaluate` is over before them and the case is then opened by itself, as the bridges
of the scope and restrictions gates do.

The stores are known by `ReviewCaseStore.Lawful`. What a case shows is fixed by the request that opened
it, and an approval is found by fingerprints alone: `covered_along` is that the gate is right about a
signal if the signals with its fingerprint in that request, of those the store keeps, are of its
category.
-/

namespace NightScout

open Lib

instance : LT ReviewSeverity := ⟨fun a b => a.rank < b.rank⟩

instance (a b : ReviewSeverity) : Decidable (a < b) := inferInstanceAs (Decidable (a.rank < b.rank))

/-- `frozenset(ReviewCategory)`. -/
def ReviewCategory.all : List ReviewCategory :=
  [possibleSecret, privateData, authBoundary, scopeAmbiguity, policyAmbiguity, highImpactSurface,
    sensitiveArtifact, unknownSensitiveContent]

structure ReviewPolicy where
  /-- The members of the set, in any order. -/
  reviewCategories : List ReviewCategory := ReviewCategory.all
  minimumConfidence : ℚ := 1 / 2
  categoryMinimumConfidence : Dict ReviewCategory ℚ := .empty
  minimumSeverity : ReviewSeverity := .medium
  minimum_unit : 0 ≤ minimumConfidence ∧ minimumConfidence ≤ 1 := by
    first | exact half_unit | decide +kernel
  /-- "confidence threshold must be 0..1" -/
  threshold_unit : ∀ category threshold, categoryMinimumConfidence.get? category = some threshold →
    0 ≤ threshold ∧ threshold ≤ 1 := by intro _ _ h; cases h

/-- `ReviewPolicy()`. -/
def ReviewPolicy.default : ReviewPolicy := {}

def ReviewPolicy.requiresReview (policy : ReviewPolicy) (signal : ReviewSignal) : Bool :=
  if signal.category ∉ policy.reviewCategories then false
  else if signal.severity < policy.minimumSeverity then false
  else
    (policy.categoryMinimumConfidence.get? signal.category).getD policy.minimumConfidence ≤
      signal.confidence

structure ReviewEvaluation where
  outcome : GateOutcome
  taskId : String
  triggeringSignals : List ReviewSignal := []
  ignoredSignals : List ReviewSignal := []
  caseId : Option String := none
  reason : String

/-- The decision the lifecycle gets. -/
def ReviewEvaluation.decision (evaluation : ReviewEvaluation) : GateDecision where
  outcome := evaluation.outcome
  reason := some evaluation.reason
  reviewCaseId := if evaluation.outcome = .review then evaluation.caseId else none
  case_review h := by
    by_contra hout
    exact h (if_neg hout)

/-- What an operation that opens a case draws: the identifiers the case and its signals would get, the
    clock, and whether the rows a case refers to are stored. -/
structure CaseDraw where
  caseId : String
  signalIds : ℕ → String
  now : Instant
  rowsStored : Bool

section Gate

variable (sha256 : String → String) {σ : Type} (store : ReviewCaseStore σ)

def ReviewCaseStore.open (s : σ) (task : Task) (signals : List ReviewSignal) (draw : CaseDraw) :
    Except PyError ReviewCase × σ :=
  store.openOrGet s task signals draw.caseId draw.signalIds draw.now draw.rowsStored

/-- `ReviewGate.evaluate`, given what `signals_for` answers. -/
def ReviewGate.evaluate (policy : ReviewPolicy) (s : σ) (task : Task)
    (allSignals : List ReviewSignal) (draw : CaseDraw) : Except PyError ReviewEvaluation × σ :=
  let triggering := allSignals.filter fun signal => policy.requiresReview signal
  let ignored := allSignals.filter fun signal => !policy.requiresReview signal
  if triggering = [] then
    (.ok { outcome := .allow, taskId := task.taskId, ignoredSignals := ignored,
           reason := "no review signal met configured confidence/severity thresholds" }, s)
  else
    let fingerprints := signalFingerprints sha256 triggering
    match store.approvedForTask s task.taskId (some fingerprints) with
    | some approved =>
      (.ok { outcome := .allow, taskId := task.taskId, triggeringSignals := triggering,
             ignoredSignals := ignored, caseId := some approved.caseId,
             reason := s!"signals approved by human review case={approved.caseId}" }, s)
    | none =>
      match store.open s task triggering draw with
      | (.error e, s') => (.error e, s')
      | (.ok reviewCase, s') =>
        let categories := ", ".intercalate (reviewCase.categories.map ReviewCategory.value)
        (.ok { outcome := .review, taskId := task.taskId, triggeringSignals := triggering,
               ignoredSignals := ignored, caseId := some reviewCase.caseId,
               reason := s!"human review required; case={reviewCase.caseId}; " ++
                 s!"categories={categories}" }, s')

end Gate

/-! ## The laws of the stores -/

/-- What the gate needs of a store. `Wf` is the store's own invariant, and `kept` are the signals of a
    request that a case remembers. -/
structure ReviewCaseStore.Lawful (sha256 : String → String) {σ : Type} (store : ReviewCaseStore σ) where
  Wf : σ → Prop
  kept : List ReviewSignal → List ReviewSignal
  wf_empty : Wf store.empty
  get_empty : ∀ id, store.get store.empty id = none
  get_caseId : ∀ s id c, Wf s → store.get s id = some c → c.caseId = id
  /-- A request with a new identifier opens a case under it, gets a stored one, or fails. -/
  open_law : ∀ s task signals draw, Wf s → store.get s draw.caseId = none →
    Wf (store.open s task signals draw).2 ∧
    ((∃ answer c, (store.open s task signals draw).1 = .ok answer ∧ answer.caseId = draw.caseId ∧
        c.state = .open ∧ c.taskId = task.taskId ∧
        c.signalFingerprints = signalFingerprints sha256 signals ∧
        c.categories = signalCategories (kept signals) ∧
        ∀ id, store.get (store.open s task signals draw).2 id =
          if id = draw.caseId then some c else store.get s id) ∨
      (store.open s task signals draw).2 = s ∧
        ∀ answer, (store.open s task signals draw).1 = .ok answer →
          store.get s answer.caseId ≠ none)
  /-- Deciding a case changes it and no other, or fails. -/
  resolve_law : ∀ s id state reason now, Wf s →
    Wf (store.resolve s id state reason now).2 ∧
    ((∃ (c : ReviewCase) (h : state ≠ .open), store.get s id = some c ∧ c.state = .open ∧
        (store.resolve s id state reason now).1 = .ok (c.resolve state h reason now) ∧
        ∀ id', store.get (store.resolve s id state reason now).2 id' =
          if id' = id then some (c.resolve state h reason now) else store.get s id') ∨
      (store.resolve s id state reason now).2 = s ∧
        ∃ e, (store.resolve s id state reason now).1 = .error e)
  /-- An approval that is found is a stored one. -/
  approved_law : ∀ s taskId fingerprints c, Wf s →
    store.approvedForTask s taskId (some fingerprints) = some c →
    store.get s c.caseId = some c ∧ c.state = .approved ∧ c.taskId = taskId ∧
      c.signalFingerprints = fingerprints

/-! ## Runs -/

inductive ReviewGateOp where
  | evaluate (task : Task) (allSignals : List ReviewSignal) (draw : CaseDraw)
  | openOrGet (task : Task) (signals : List ReviewSignal) (draw : CaseDraw)
  | resolve (caseId : String) (state : ReviewCaseState) (reason : Option String) (now : Instant)

/-- The request that opened a case. -/
structure OpenedRequest where
  taskId : String
  signals : List ReviewSignal
  caseId : String

structure ReviewGateWorld (σ : Type) where
  store : σ
  opened : List OpenedRequest := []
  /-- The cases that were approved, as they were then. -/
  approved : List ReviewCase := []

namespace ReviewGateOp

variable (sha256 : String → String) {σ : Type} (store : ReviewCaseStore σ) (policy : ReviewPolicy)

/-- The case a request opened is the one with the identifier that was drawn for it. -/
def opening (task : Task) (signals : List ReviewSignal) (draw : CaseDraw) (answer : Option String)
    (opened : List OpenedRequest) : List OpenedRequest :=
  if answer = some draw.caseId then ⟨task.taskId, signals, draw.caseId⟩ :: opened else opened

def next (w : ReviewGateWorld σ) : ReviewGateOp → ReviewGateWorld σ
  | evaluate task allSignals draw =>
    let r := ReviewGate.evaluate sha256 store policy w.store task allSignals draw
    { w with
      store := r.2
      opened := opening task (allSignals.filter fun signal => policy.requiresReview signal) draw
        (r.1.toOption.bind ReviewEvaluation.caseId) w.opened }
  | openOrGet task signals draw =>
    let r := store.open w.store task signals draw
    { w with
      store := r.2
      opened := opening task signals draw (r.1.toOption.map ReviewCase.caseId) w.opened }
  | resolve caseId state reason now =>
    let r := store.resolve w.store caseId state reason now
    { w with
      store := r.2
      approved := r.1.toOption.toList.filter (fun c => c.state = .approved) ++ w.approved }

/-- An ALLOW that rests on an approval rests on one that showed the category of every signal that
    triggered the review. -/
def Covered (w : ReviewGateWorld σ) : ReviewGateOp → Prop
  | evaluate task allSignals draw =>
    ∀ evaluation caseId,
      (ReviewGate.evaluate sha256 store policy w.store task allSignals draw).1 = .ok evaluation →
      evaluation.outcome = .allow → evaluation.caseId = some caseId →
      ∃ c ∈ w.approved, c.caseId = caseId ∧ (∀ c' ∈ w.approved, c'.caseId = caseId → c' = c) ∧
        ∀ signal ∈ allSignals, policy.requiresReview signal = true → signal.category ∈ c.categories
  | openOrGet .. => True
  | resolve .. => True

/-- Evidence that was approved for the task is still evidence of the same thing: a signal that triggers
    a review is of the category of one with its fingerprint, of those kept of the request that opened
    the approved case. Identifiers are drawn new. -/
def SameEvidence (L : store.Lawful sha256) (w : ReviewGateWorld σ) : ReviewGateOp → Prop
  | evaluate task allSignals draw =>
    (∀ request ∈ w.opened, request.taskId = task.taskId →
      (∃ c ∈ w.approved, c.caseId = request.caseId) →
      signalFingerprints sha256 request.signals = signalFingerprints sha256
        (allSignals.filter fun signal => policy.requiresReview signal) →
      ∀ signal ∈ allSignals, policy.requiresReview signal = true →
        ∃ signal' ∈ L.kept request.signals,
          signal'.stableFingerprint sha256 = signal.stableFingerprint sha256 ∧
            signal'.category = signal.category) ∧
    store.get w.store draw.caseId = none
  | openOrGet _ _ draw => store.get w.store draw.caseId = none
  | resolve .. => True

instance (w : ReviewGateWorld σ) (op : ReviewGateOp) : Decidable (op.Covered sha256 store policy w) :=
  match op with
  | evaluate task allSignals draw =>
    match h : (ReviewGate.evaluate sha256 store policy w.store task allSignals draw).1 with
    | .error _ => .isTrue fun _ _ hok => nomatch hok.symm.trans h
    | .ok evaluation =>
      decidable_of_iff (evaluation.outcome = .allow → ∀ caseId ∈ evaluation.caseId,
        ∃ c ∈ w.approved, c.caseId = caseId ∧ (∀ c' ∈ w.approved, c'.caseId = caseId → c' = c) ∧
          ∀ signal ∈ allSignals, policy.requiresReview signal = true →
            signal.category ∈ c.categories)
        ⟨fun hall _ caseId hok hallow hid => by
          cases h.symm.trans hok
          exact hall hallow caseId hid,
        fun hall hallow caseId hid => hall evaluation caseId h hallow hid⟩
  | openOrGet .. => inferInstanceAs (Decidable True)
  | resolve .. => inferInstanceAs (Decidable True)

instance (L : store.Lawful sha256) (w : ReviewGateWorld σ) (op : ReviewGateOp) :
    Decidable (op.SameEvidence sha256 store policy L w) :=
  match op with
  | evaluate .. => inferInstanceAs (Decidable ((∀ _ ∈ _, _ → _ → _ → ∀ _ ∈ _, _ → _) ∧ _))
  | openOrGet .. => inferInstanceAs (Decidable (_ = none))
  | resolve .. => inferInstanceAs (Decidable True)

end ReviewGateOp

namespace ReviewGateWorld

variable {sha256 : String → String} {σ : Type} {store : ReviewCaseStore σ}

/-- Every case is what its request made it, and the APPROVED ones are as they were approved. -/
structure Inv (L : store.Lawful sha256) (w : ReviewGateWorld σ) : Prop where
  wf : L.Wf w.store
  opened : ∀ id c, store.get w.store id = some c → ∃ request ∈ w.opened,
    request.caseId = id ∧ c.taskId = request.taskId ∧
    c.signalFingerprints = signalFingerprints sha256 request.signals ∧
    c.categories = signalCategories (L.kept request.signals)
  approved : ∀ c, c ∈ w.approved ↔ store.get w.store c.caseId = some c ∧ c.state = .approved

variable {L : store.Lawful sha256} {w : ReviewGateWorld σ}

theorem inv_empty (L : store.Lawful sha256) : Inv L { store := store.empty } where
  wf := L.wf_empty
  opened id c h := by
    rw [L.get_empty] at h
    cases h
  approved c := by simp [L.get_empty]

/-- A request keeps the invariant. -/
theorem Inv.open (h : w.Inv L) (task : Task) (signals : List ReviewSignal) {draw : CaseDraw}
    (hfresh : store.get w.store draw.caseId = none) :
    Inv L { w with
      store := (store.open w.store task signals draw).2
      opened := ReviewGateOp.opening task signals draw
        ((store.open w.store task signals draw).1.toOption.map ReviewCase.caseId) w.opened } := by
  obtain ⟨hwf, ⟨answer, c, hanswer, hid, hopen, htask, hfs, hcats, hget⟩ | ⟨hs, hstored⟩⟩ :=
    L.open_law w.store task signals draw h.wf hfresh
  · have hopened : ReviewGateOp.opening task signals draw
        ((store.open w.store task signals draw).1.toOption.map ReviewCase.caseId) w.opened =
          ⟨task.taskId, signals, draw.caseId⟩ :: w.opened := by
      rw [hanswer]
      exact if_pos (congrArg some hid)
    rw [hopened]
    constructor
    · exact hwf
    · intro id c' hc'
      have hc' := (hget id).symm.trans hc'
      split at hc'
      next heq =>
        cases hc'
        exact ⟨_, List.mem_cons_self, heq.symm, htask, hfs, hcats⟩
      next =>
        obtain ⟨request, hrequest, hrest⟩ := h.opened id c' hc'
        exact ⟨request, List.mem_cons_of_mem _ hrequest, hrest⟩
    · intro c'
      show c' ∈ w.approved ↔ store.get (store.open w.store task signals draw).2 c'.caseId = some c' ∧ _
      rw [h.approved, hget]
      split
      next heq =>
        -- the new case is OPEN
        rw [heq, hfresh]
        constructor
        · intro ⟨hc', _⟩
          cases hc'
        · intro ⟨hc', happroved⟩
          cases hc'
          rw [hopen] at happroved
          cases happroved
      next => rfl
  · have hopened : ReviewGateOp.opening task signals draw
        ((store.open w.store task signals draw).1.toOption.map ReviewCase.caseId) w.opened =
          w.opened := by
      apply if_neg
      intro hid
      obtain ⟨answer, hanswer, hid⟩ := Option.map_eq_some_iff.mp hid
      refine hstored answer ?_ (hid ▸ hfresh)
      cases hr : (store.open w.store task signals draw).1 with
      | error e =>
        rw [hr] at hanswer
        cases hanswer
      | ok a =>
        rw [hr] at hanswer
        cases hanswer
        rfl
    rw [hopened, hs]
    exact h

/-- A decision keeps the invariant. -/
theorem Inv.resolve (h : w.Inv L) (id : String) (state : ReviewCaseState) (reason : Option String) (now : Instant) :
    Inv L { w with
      store := (store.resolve w.store id state reason now).2
      approved := (store.resolve w.store id state reason now).1.toOption.toList.filter
        (fun c => c.state = .approved) ++ w.approved } := by
  obtain ⟨hwf, ⟨c, hstate, hc, hopen, hanswer, hget⟩ | ⟨hs, e, hanswer⟩⟩ :=
    L.resolve_law w.store id state reason now h.wf
  · rw [hanswer]
    constructor
    · exact hwf
    · intro id' c' hc'
      have hc' := (hget id').symm.trans hc'
      split at hc'
      next heq =>
        cases hc'
        exact heq ▸ h.opened id c hc
      next => exact h.opened id' c' hc'
    · intro c'
      have hid : (c.resolve state hstate reason now).caseId = id := L.get_caseId _ _ c h.wf hc
      have hnew : c' ∈ [c.resolve state hstate reason now].filter (fun c => c.state = .approved) ↔
          c' = c.resolve state hstate reason now ∧ c'.state = .approved := by
        rw [List.mem_filter, List.mem_singleton, decide_eq_true_eq]
      show c' ∈ [c.resolve state hstate reason now].filter _ ++ w.approved ↔
        store.get (store.resolve w.store id state reason now).2 c'.caseId = some c' ∧ _
      rw [List.mem_append, hnew, h.approved, hget]
      split
      next heq =>
        -- before, the case was OPEN
        rw [heq, hc]
        constructor
        · rintro (⟨rfl, happroved⟩ | ⟨hc', happroved⟩)
          · exact ⟨rfl, happroved⟩
          · cases hc'
            rw [hopen] at happroved
            cases happroved
        · intro ⟨hc', happroved⟩
          exact .inl ⟨(Option.some.inj hc').symm, happroved⟩
      next hne =>
        constructor
        · rintro (⟨rfl, _⟩ | hc')
          · exact absurd hid hne
          · exact hc'
        · exact .inr
  · rw [hs, hanswer]
    exact h

end ReviewGateWorld

namespace ReviewGateOp

variable {sha256 : String → String} {σ : Type} {store : ReviewCaseStore σ} {policy : ReviewPolicy}
    {L : store.Lawful sha256} {w : ReviewGateWorld σ}

/-- What `evaluate` does to the store and which case it names. -/
theorem evaluate_effect (sha256 : String → String) (store : ReviewCaseStore σ) (policy : ReviewPolicy)
    (s : σ) (task : Task) (allSignals : List ReviewSignal) (draw : CaseDraw) :
    let triggering := allSignals.filter fun signal => policy.requiresReview signal
    let r := ReviewGate.evaluate sha256 store policy s task allSignals draw
    (r.2 = s ∧ ∃ evaluation, r.1 = .ok evaluation ∧ evaluation.outcome = .allow ∧
      ∀ caseId, evaluation.caseId = some caseId →
        ∃ c, store.approvedForTask s task.taskId (some (signalFingerprints sha256 triggering)) = some c ∧
          c.caseId = caseId) ∨
    (r.2 = (store.open s task triggering draw).2 ∧
      r.1.toOption.bind ReviewEvaluation.caseId =
        (store.open s task triggering draw).1.toOption.map ReviewCase.caseId ∧
      ∀ evaluation, r.1 = .ok evaluation → evaluation.outcome = .review) := by
  intro triggering r
  have hr : r = ReviewGate.evaluate sha256 store policy s task allSignals draw := rfl
  unfold ReviewGate.evaluate at hr
  by_cases htriggering : triggering = []
  · rw [if_pos htriggering] at hr
    rw [hr]
    refine .inl ⟨rfl, _, rfl, rfl, ?_⟩
    intro caseId hid
    cases hid
  · rw [if_neg htriggering] at hr
    cases happroved : store.approvedForTask s task.taskId
        (some (signalFingerprints sha256 triggering)) with
    | some c =>
      simp only [triggering] at happroved
      simp only [happroved] at hr
      rw [hr]
      refine .inl ⟨rfl, _, rfl, rfl, ?_⟩
      intro caseId hid
      exact ⟨c, rfl, Option.some.inj hid⟩
    | none =>
      simp only [triggering] at happroved
      simp only [happroved] at hr
      right
      cases hopen : store.open s task triggering draw with
      | mk answer s' =>
        simp only [triggering] at hopen
        simp only [hopen] at hr
        cases answer with
        | error e =>
          rw [hr]
          refine ⟨rfl, rfl, ?_⟩
          intro evaluation hok
          cases hok
        | ok c =>
          rw [hr]
          refine ⟨rfl, rfl, ?_⟩
          intro evaluation hok
          cases hok
          rfl

/-- Every operation keeps the invariant. -/
theorem inv_next (h : w.Inv L) {op : ReviewGateOp} (hop : op.SameEvidence sha256 store policy L w) :
    (op.next sha256 store policy w).Inv L := by
  cases op with
  | evaluate task allSignals draw =>
    rcases evaluate_effect sha256 store policy w.store task allSignals draw with
      ⟨hs, evaluation, hok, _, hcase⟩ | ⟨hs, hcase, _⟩
    · -- an ALLOW opens nothing: the approval it names is stored
      have hopened : opening task (allSignals.filter fun signal => policy.requiresReview signal) draw
          ((ReviewGate.evaluate sha256 store policy w.store task allSignals draw).1.toOption.bind
            ReviewEvaluation.caseId) w.opened = w.opened := by
        apply if_neg
        rw [hok]
        intro hid
        obtain ⟨c, happroved, hc⟩ := hcase draw.caseId hid
        have hstored := (L.approved_law _ _ _ _ h.wf happroved).1
        rw [hc, hop.2] at hstored
        cases hstored
      unfold next
      simp only [hopened, hs]
      exact h
    · unfold next
      simp only [hcase, hs]
      exact h.open task _ hop.2
  | openOrGet task signals draw => exact h.open task signals hop
  | resolve caseId state reason now => exact h.resolve caseId state reason now

/-- **An approval covers what triggers the review**, if the evidence is the same. -/
theorem covered (h : w.Inv L) {op : ReviewGateOp} (hop : op.SameEvidence sha256 store policy L w) :
    op.Covered sha256 store policy w := by
  cases op with
  | evaluate task allSignals draw =>
    intro evaluation caseId hok hallow hid
    rcases evaluate_effect sha256 store policy w.store task allSignals draw with
      ⟨_, evaluation', hok', _, hcase⟩ | ⟨_, _, hreview⟩
    · rw [hok] at hok'
      cases hok'
      obtain ⟨c, hfound, hc⟩ := hcase caseId hid
      obtain ⟨hstored, happroved, htask, hfs⟩ := L.approved_law _ _ _ _ h.wf hfound
      obtain ⟨request, hrequest, hrid, hrtask, hrfs, hrcats⟩ := h.opened _ _ hstored
      have hmem : c ∈ w.approved := (h.approved c).mpr ⟨hstored, happroved⟩
      refine ⟨c, hmem, hc, ?_, ?_⟩
      · intro c' hc' hid'
        have hstored' := ((h.approved c').mp hc').1
        rw [hid', ← hc, hstored] at hstored'
        exact (Option.some.inj hstored').symm
      · intro signal hsignal htrigger
        obtain ⟨signal', hsignal', _, hcategory⟩ := hop.1 request hrequest
          (hrtask.symm.trans htask) ⟨c, hmem, hrid.symm⟩ (hrfs.symm.trans hfs) signal hsignal htrigger
        rw [hrcats, ← hcategory]
        exact mem_sortedSet.mpr (List.mem_map_of_mem hsignal')
    · have hout := hreview evaluation hok
      rw [hallow] at hout
      cases hout
  | openOrGet task signals draw => trivial
  | resolve caseId state reason now => trivial

/-- Along every run. -/
theorem covered_along (sha256 : String → String) (policy : ReviewPolicy) (L : store.Lawful sha256)
    {ops : List ReviewGateOp}
    (hok : Along (fun w op => next sha256 store policy w op)
      (fun w op => SameEvidence sha256 store policy L w op) { store := store.empty } ops) :
    Along (fun w op => next sha256 store policy w op)
      (fun w op => Covered sha256 store policy w op) { store := store.empty } ops :=
  hok.of_invariant (ReviewGateWorld.inv_empty L) fun _ _ h hop => ⟨covered h hop, inv_next h hop⟩

end ReviewGateOp

end NightScout
