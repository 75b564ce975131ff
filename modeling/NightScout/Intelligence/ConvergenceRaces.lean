import NightScout.Intelligence.ConvergenceRuns
import NightScout.Lib.Races

/-!
# Evaluations that race

`ConvergenceController.evaluate` reads the state of a branch, waits for the signals, decides, and puts the
state; `_update_convergence` in `recon/runtime.py` reads the tier it passes before that. No lock is held and
nothing is compared when the state is put, so an evaluation writes over what others have put since it read.

`convergence_evaluations_linearize` is about the runs in which that does not happen: every evaluation that puts
its state would start from the same state if it read again.
-/

namespace NightScout

open Lib

section Racing

variable {σ : Type} (tables : Tables) (config : ConvergenceConfig) (maximumTier initialTier : SearchTier)
    (store : ConvergenceStateStore σ)

/-- `evaluate`, as the steps between its awaits. -/
def evaluateParts : ReadDecideWrite σ EvaluationRequest ConvergenceSignals ConvergenceState
    ConvergenceDecision PyError where
  read s request :=
    if maximumTier.rank < request.currentTier.rank then
      .error (.valueError s!"current tier {request.currentTier.value} exceeds configured maximum tier {
        maximumTier.value}")
    else do priorState tables request (← store.get s request.lane)
  decide request signals prior := decideConvergence config maximumTier prior signals request.now
  write s decision := (store.put s decision.stateAfter).2

/-- Without others in between, the steps are `evaluate`. -/
theorem evaluateParts_atomic (hput : ∀ s state, (store.put s state).1 = .ok ()) (s : σ)
    (request : EvaluationRequest) (signals : ConvergenceSignals) :
    (evaluateParts tables config maximumTier store).atomic s request signals =
      evaluate tables config maximumTier store s request signals := by
  unfold ReadDecideWrite.atomic evaluateParts evaluate
  by_cases htier : maximumTier.rank < request.currentTier.rank
  · simp only [if_pos htier]
    rfl
  · simp only [if_neg htier, bind_assoc]
    cases store.get s request.lane >>= fun stored => priorState tables request stored >>= fun prior =>
        decideConvergence config maximumTier prior signals request.now with
    | error e => rfl
    | ok decision =>
      have hok := hput s decision.stateAfter
      simp only
      generalize store.put s decision.stateAfter = result at hok ⊢
      obtain ⟨_, _⟩ := result
      cases hok
      rfl

/-- What the tasks of a runtime do to the store. -/
inductive ConvergenceMove where
  /-- `_update_convergence` reads the tier and calls `evaluate`. -/
  | update (caller : ℕ) (lane : BranchLane) (now : Instant)
  | evaluation (move : RaceMove EvaluationRequest ConvergenceSignals)

/-- The store, and the evaluations that are under way. -/
abbrev ConvergenceRace (σ : Type) := Race σ EvaluationRequest ConvergenceSignals ConvergenceState
  ConvergenceDecision PyError

/-- The call of `evaluate` that `_update_convergence` makes; a failure to read is a warning. -/
def updateCall (s : σ) (caller : ℕ) (lane : BranchLane) (now : Instant) :
    Option (RaceMove EvaluationRequest ConvergenceSignals) :=
  match store.get s lane with
  | .error _ => none
  | .ok none => some (.call caller ⟨lane, initialTier, now⟩)
  | .ok (some state) => some (.call caller ⟨lane, state.tier, now⟩)

/-- The step of an evaluation that a move is. -/
def ConvergenceMove.toRaceMove (s : σ) : ConvergenceMove →
    Option (RaceMove EvaluationRequest ConvergenceSignals)
  | .update caller lane now => updateCall initialTier store s caller lane now
  | .evaluation move => some move

/-- One move. -/
def convergenceRace (race : ConvergenceRace σ) (move : ConvergenceMove) : ConvergenceRace σ :=
  match move.toRaceMove initialTier store race.shared with
  | none => race
  | some move => (evaluateParts tables config maximumTier store).race race move

/-- The evaluation that puts its state names its lane as the stores do, and it would start from the same state
    if it read now; that state is not below the stored tier, and what is stored is not newer. -/
def UndisturbedPut (late : ConvergenceState → Instant → Bool) (s : σ) :
    Phase EvaluationRequest ConvergenceSignals ConvergenceState ConvergenceDecision PyError → Prop
  | .decided request _ prior _ =>
    request.lane.Canonical tables ∧
      (evaluateParts tables config maximumTier store).read s request = .ok prior ∧
      ∀ stored ∈ (store.get s request.lane).toOption, ∀ st ∈ stored,
        late st request.now = false ∧ st.tier.rank ≤ prior.tier.rank
  | _ => True

/-- Every evaluation may put its state only while it is undisturbed. -/
def Undisturbed (late : ConvergenceState → Instant → Bool) (race : ConvergenceRace σ) :
    ConvergenceMove → Prop
  | .evaluation (.write caller) =>
    UndisturbedPut tables config maximumTier store late race.shared (race.phase caller)
  | _ => True

instance (late : ConvergenceState → Instant → Bool) (s : σ) :
    ∀ phase, Decidable (UndisturbedPut tables config maximumTier store late s phase)
  | .decided _ _ _ _ => inferInstanceAs (Decidable (_ ∧ _ ∧ ∀ stored ∈ _, ∀ st ∈ stored, _ ∧ _))
  | .idle | .called _ | .hasRead _ _ | .gathered _ _ _ | .returned _ _ _ | .raised _ => .isTrue trivial

instance (late : ConvergenceState → Instant → Bool) (race : ConvergenceRace σ) :
    ∀ move, Decidable (Undisturbed tables config maximumTier store late race move)
  | .evaluation (.write caller) => inferInstanceAs
      (Decidable (UndisturbedPut tables config maximumTier store late race.shared (race.phase caller)))
  | .update _ _ _ | .evaluation (.call _ _) | .evaluation (.read _) | .evaluation (.gather _ _)
  | .evaluation (.decide _) => .isTrue trivial

/-- A stored state goes on: it is not opened again, and its tier does not decrease. -/
def ConvergenceState.GoesOn (before after : ConvergenceState) : Prop :=
  (before.closed = true → after.closed = true) ∧ before.tier.rank ≤ after.tier.rank

/-- Every stored state goes on. -/
def StatesGoOn (s s' : σ) : Prop :=
  ∀ lane : BranchLane, lane.Canonical tables → ∀ st, store.get s lane = .ok (some st) →
    ∃ st', store.get s' lane = .ok (some st') ∧ st.GoesOn st'

/-- Between any two points of the run the states go on; and the evaluations that returned are those that were
    put, each once, so that the store and all decisions are as if `evaluate` had run for one after the other. -/
def ConvergenceRaceLaws (moves : List ConvergenceMove) : Prop :=
  let run := runFrom (convergenceRace tables config maximumTier initialTier store)
    { shared := store.empty }
  (∀ before between after, moves = before ++ between ++ after →
    StatesGoOn tables store (run before).shared (run (before ++ between)).shared) ∧
  (∀ caller request signals decision, (run moves).phase caller = .returned request signals decision ↔
    (caller, request, signals, decision) ∈ (run moves).finished) ∧
  ((run moves).finished.map Prod.fst).Nodup ∧
  OneAfterAnother (evaluate tables config maximumTier store) store.empty (run moves).finished
    (run moves).shared

variable {tables config maximumTier initialTier store} {late : ConvergenceState → Instant → Bool}

/-! ## The states -/

theorem ConvergenceState.GoesOn.refl (state : ConvergenceState) : state.GoesOn state := ⟨id, le_refl _⟩

theorem ConvergenceState.GoesOn.trans {a b c : ConvergenceState} (h : a.GoesOn b) (h' : b.GoesOn c) :
    a.GoesOn c := ⟨h'.1 ∘ h.1, h.2.trans h'.2⟩

theorem StatesGoOn.refl (s : σ) : StatesGoOn tables store s s := fun _ _ st hst => ⟨st, hst, .refl st⟩

theorem StatesGoOn.trans {s s' s'' : σ} (h : StatesGoOn tables store s s')
    (h' : StatesGoOn tables store s' s'') : StatesGoOn tables store s s'' := by
  intro lane hlane st hst
  obtain ⟨st', hst', hgoes⟩ := h lane hlane st hst
  obtain ⟨st'', hst'', hgoes'⟩ := h' lane hlane st' hst'
  exact ⟨st'', hst'', hgoes.trans hgoes'⟩

/-- Every state is stored under its key. -/
def KeepsStates.Keyed (keeps : KeepsStates tables store late) (s : σ) : Prop :=
  ∃ states, keeps.Holds s states ∧ ∀ lane, ∀ st ∈ states lane, st.key = lane

/-- A state that was decided from what is stored. -/
theorem KeepsStates.put_decision (keeps : KeepsStates tables store late) {s : σ} (hkeyed : keeps.Keyed s)
    {request : EvaluationRequest} (hlane : request.lane.Canonical tables) {signals : ConvergenceSignals}
    {prior : ConvergenceState} {decision : ConvergenceDecision}
    (hread : (evaluateParts tables config maximumTier store).read s request = .ok prior)
    (hdecide : decideConvergence config maximumTier prior signals request.now = .ok decision)
    (hstored : ∀ stored ∈ (store.get s request.lane).toOption, ∀ st ∈ stored,
      late st request.now = false ∧ st.tier.rank ≤ prior.tier.rank) : keeps.Keyed (store.put s decision.stateAfter).2 ∧
      StatesGoOn tables store s (store.put s decision.stateAfter).2 := by
  obtain ⟨states, hholds, hkeys⟩ := hkeyed
  have hget := keeps.get hholds hlane
  have hnotLate := hstored (states request.lane) (by rw [hget]; rfl)
  have hlaws := decideConvergence_laws hdecide
  have hprior : priorState tables request (states request.lane) = .ok prior := by
    simp only [evaluateParts] at hread
    split at hread
    · cases hread
    · rwa [hget] at hread
  obtain ⟨hpriorKey, hcases⟩ := priorState_ok hlane (hkeys request.lane) hprior
  have hkey : decision.stateAfter.key = request.lane := hlaws.key.trans hpriorKey
  obtain ⟨s', hput, hholds'⟩ := keeps.put hholds (hkey.symm ▸ hlane)
  have hkept : (states request.lane).any (late · decision.stateAfter.updatedAt) = false := by
    rw [hlaws.updatedAt, Option.any_eq_false]
    intro st hst
    simp [(hnotLate st hst).1]
  have hself : putState late states decision.stateAfter request.lane = some decision.stateAfter := by
    unfold putState
    rw [if_pos hkey.symm, hkept]
    rfl
  have hother (lane : BranchLane) (hne : lane ≠ request.lane) :
      putState late states decision.stateAfter lane = states lane := by
    unfold putState
    rw [if_neg (hkey.symm ▸ hne)]
  rw [hput]
  refine ⟨⟨_, hholds', fun lane st hst => ?_⟩, fun lane hcanonical st hst => ?_⟩
  · by_cases hsame : lane = request.lane
    · rw [hsame, hself] at hst
      rw [← Option.some.inj hst, hsame]
      exact hkey
    · rw [hother lane hsame] at hst
      exact hkeys lane st hst
  · rw [keeps.get hholds hcanonical] at hst
    rw [keeps.get hholds' hcanonical]
    by_cases hsame : lane = request.lane
    · subst hsame
      have hmem := Except.ok.inj hst
      refine ⟨decision.stateAfter, congrArg _ hself, fun hclosed => hlaws.absorbing ?_, ?_⟩
      · rcases hcases with ⟨hnone, _⟩ | ⟨st', hst', hsameClosed, _⟩
        · rw [hnone] at hmem
          cases hmem
        · rw [hst'] at hmem
          cases hmem
          exact hsameClosed.trans hclosed
      · exact (hnotLate st hmem).2.trans hlaws.tier_ge
    · rw [hother lane hsame]
      exact ⟨st, hst, .refl st⟩

/-! ## The run -/

/-- The invariant: the evaluations are linear, and every state is stored under its key. -/
structure KeepsStates.RaceGood (keeps : KeepsStates tables store late) (config : ConvergenceConfig)
    (maximumTier : SearchTier) (race : ConvergenceRace σ) : Prop where
  linear : (evaluateParts tables config maximumTier store).Linear store.empty race
  keyed : keeps.Keyed race.shared

/-- An update is a call, if anything. -/
theorem updateCall_eq {s : σ} {caller : ℕ} {lane : BranchLane} {now : Instant}
    {step : RaceMove EvaluationRequest ConvergenceSignals}
    (h : updateCall initialTier store s caller lane now = some step) : ∃ request, step = .call caller request := by
  unfold updateCall at h
  split at h <;> cases h <;> exact ⟨_, rfl⟩

/-- A move that disturbs no evaluation is an undisturbed step of one. -/
theorem Undisturbed.toRaceMove {race : ConvergenceRace σ} {move : ConvergenceMove}
    (h : Undisturbed tables config maximumTier store late race move)
    {step : RaceMove EvaluationRequest ConvergenceSignals}
    (hstep : move.toRaceMove initialTier store race.shared = some step) :
    (evaluateParts tables config maximumTier store).Undisturbed race step := by
  cases move with
  | update caller lane now =>
    obtain ⟨request, rfl⟩ := updateCall_eq hstep
    trivial
  | evaluation move =>
    cases hstep
    cases step with
    | write caller =>
      simp only [Undisturbed, ReadDecideWrite.Undisturbed] at h ⊢
      split
      next hphase =>
        rw [hphase] at h
        exact h.2.1
      next => trivial
    | _ => trivial

/-- One move. -/
theorem KeepsStates.race_step (keeps : KeepsStates tables store late) {race : ConvergenceRace σ}
    {move : ConvergenceMove} (hgood : keeps.RaceGood config maximumTier race)
    (hmove : Undisturbed tables config maximumTier store late race move) : StatesGoOn tables store race.shared
        (convergenceRace tables config maximumTier initialTier store race move).shared ∧
      keeps.RaceGood config maximumTier (convergenceRace tables config maximumTier initialTier store race move) := by
  unfold convergenceRace
  cases hstep : move.toRaceMove initialTier store race.shared with
  | none => exact ⟨.refl _, hgood⟩
  | some step =>
    have hlinear := hgood.linear.step (hmove.toRaceMove hstep)
    rcases (evaluateParts tables config maximumTier store).race_shared race step with
      hshared | ⟨caller, request, signals, prior, decision, rfl, hphase, hshared⟩
    · simp only
      rw [hshared]
      exact ⟨.refl _, hlinear, hshared ▸ hgood.keyed⟩
    · -- the move is the write itself: a call is none
      have hwrite : move = .evaluation (.write caller) := by
        cases move with
        | update caller' lane now =>
          obtain ⟨request, heq⟩ := updateCall_eq hstep
          cases heq
        | evaluation move => exact congrArg _ (Option.some.inj hstep)
      subst hwrite
      simp only [Undisturbed, UndisturbedPut, hphase] at hmove
      obtain ⟨hlane, hread, hstored⟩ := hmove
      obtain ⟨hkeyed, hgoes⟩ := keeps.put_decision hgood.keyed hlane hread (hgood.linear.decides hphase)
        hstored
      simp only
      rw [hshared]
      exact ⟨hgoes, hlinear, hshared ▸ hkeyed⟩

/-- The laws of a run. -/
theorem KeepsStates.race_run (keeps : KeepsStates tables store late)
    (hput : ∀ s state, (store.put s state).1 = .ok ()) {moves : List ConvergenceMove}
    (h : Along (convergenceRace tables config maximumTier initialTier store)
      (Undisturbed tables config maximumTier store late) { shared := store.empty } moves) :
    ConvergenceRaceLaws tables config maximumTier initialTier store moves := by
  have hstart : keeps.RaceGood config maximumTier { shared := store.empty } :=
    ⟨.start _ _, _, keeps.empty, fun _ _ h => (nomatch h)⟩
  have hgood := h.invariant hstart fun race move hgood hmove => (keeps.race_step hgood hmove).2
  refine ⟨?_, hgood.linear.finished, hgood.linear.nodup, ?_⟩
  · rintro before between after rfl
    obtain ⟨hbefore, hbetween⟩ := (along_append before _).mp ((along_append (before ++ between) _).mp h).1
    rw [runFrom_append]
    have hfirst := hbefore.invariant hstart fun race move hgood hmove => (keeps.race_step hgood hmove).2
    generalize runFrom (convergenceRace tables config maximumTier initialTier store)
      { shared := store.empty } before = first at hbetween hfirst ⊢
    refine (hbetween.invariant (P := fun race => keeps.RaceGood config maximumTier race ∧
      StatesGoOn tables store first.shared race.shared) ⟨hfirst, .refl _⟩ ?_).2
    intro race move ⟨hgood, hgoes⟩ hmove
    obtain ⟨hstep, hgood'⟩ := keeps.race_step hgood hmove
    exact ⟨hgood', hgoes.trans hstep⟩
  · have hatomic : (evaluateParts tables config maximumTier store).atomic =
        evaluate tables config maximumTier store := by
      funext s request signals
      exact evaluateParts_atomic tables config maximumTier store hput s request signals
    exact hatomic ▸ hgood.linear.sequential

end Racing

theorem sqlite_put_ok (tables : Tables) (rows : Dict ConvergenceRowKey ConvergenceState)
    (state : ConvergenceState) : ((sqliteConvergenceStateStore tables).put rows state).1 = .ok () := by
  simp only [sqliteConvergenceStateStore]
  split
  · rfl
  · split <;> rfl

/-- **Undisturbed evaluations lose nothing**: in either store, they could have run one after another. -/
theorem convergence_evaluations_linearize (tables : Tables) (config : ConvergenceConfig)
    (maximumTier initialTier : SearchTier) (moves : List ConvergenceMove) :
    (Along (convergenceRace tables config maximumTier initialTier (inMemoryConvergenceStateStore tables))
        (Undisturbed tables config maximumTier (inMemoryConvergenceStateStore tables) fun _ _ => false)
        { shared := .empty } moves →
      ConvergenceRaceLaws tables config maximumTier initialTier (inMemoryConvergenceStateStore tables)
        moves) ∧
    (Along (convergenceRace tables config maximumTier initialTier (sqliteConvergenceStateStore tables))
        (Undisturbed tables config maximumTier (sqliteConvergenceStateStore tables) olderThan)
        { shared := .empty } moves →
      ConvergenceRaceLaws tables config maximumTier initialTier (sqliteConvergenceStateStore tables)
        moves) :=
  ⟨fun h => (inMemoryKeeps tables).race_run (fun _ _ => rfl) h,
    fun h => (sqliteKeeps tables).race_run (sqlite_put_ok tables) h⟩

/-! ## Two evaluations of one branch -/

/-- The second evaluation is called while the first one waits for its signals, and reads when that has put. -/
def politeMoves : List ConvergenceMove :=
  [.update 0 seedLane 0, .evaluation (.read 0), .update 1 seedLane 60,
    .evaluation (.gather 0 productiveSignals), .evaluation (.decide 0), .evaluation (.write 0),
    .evaluation (.read 1), .evaluation (.gather 1 productiveSignals), .evaluation (.decide 1),
    .evaluation (.write 1)]

theorem convergence_evaluations_linearize_polite :
    ConvergenceRaceLaws latinTables defaultConvergenceConfig .exhaustive .small
        (inMemoryConvergenceStateStore latinTables) politeMoves ∧
      ConvergenceRaceLaws latinTables defaultConvergenceConfig .exhaustive .small
        (sqliteConvergenceStateStore latinTables) politeMoves :=
  ⟨(convergence_evaluations_linearize latinTables defaultConvergenceConfig .exhaustive .small politeMoves).1
      (by decide +kernel),
    (convergence_evaluations_linearize latinTables defaultConvergenceConfig .exhaustive .small politeMoves).2
      (by decide +kernel)⟩

/-- The hard budget is spent. -/
def spentSignals : ConvergenceSignals :=
  { productiveSignals with
    budget := { productiveSignals.budget with
      hard := [⟨.requests, .hard, 100, 100, 100, 0, 1⟩] } }

/-- Both evaluations read the open state, and the one that closes the lane puts first. -/
def closingMoves : List ConvergenceMove :=
  [.update 0 seedLane 0, .update 1 seedLane 60, .evaluation (.read 0), .evaluation (.read 1),
    .evaluation (.gather 0 spentSignals), .evaluation (.gather 1 productiveSignals),
    .evaluation (.decide 0), .evaluation (.decide 1), .evaluation (.write 0)]

/-- The lane of the seed is closed. -/
def seedClosed {σ : Type} (store : ConvergenceStateStore σ) (s : σ) : Bool :=
  (store.get s seedLane).toOption.join.any fun st => st.closed

theorem StatesGoOn.seedClosed {σ : Type} {store : ConvergenceStateStore σ} {s s' : σ}
    (h : StatesGoOn latinTables store s s') (hclosed : seedClosed store s = true) : seedClosed store s' = true := by
  unfold NightScout.seedClosed at hclosed ⊢
  cases hget : store.get s seedLane with
  | error e =>
    rw [hget] at hclosed
    cases hclosed
  | ok stored =>
    rw [hget] at hclosed
    cases stored with
    | none => cases hclosed
    | some st =>
      obtain ⟨st', hst', hgoes⟩ := h seedLane (by decide +kernel) st hget
      rw [hst']
      exact hgoes.1 hclosed

/-- The second one opens the lane again, in either store. -/
theorem late_put_reopens : ¬ ConvergenceRaceLaws latinTables defaultConvergenceConfig .exhaustive .small
        (inMemoryConvergenceStateStore latinTables) (closingMoves ++ [.evaluation (.write 1)]) ∧
      ¬ ConvergenceRaceLaws latinTables defaultConvergenceConfig .exhaustive .small
        (sqliteConvergenceStateStore latinTables) (closingMoves ++ [.evaluation (.write 1)]) := by
  constructor
  · intro h
    have hgoes := h.1 closingMoves [.evaluation (.write 1)] [] (List.append_nil _).symm
    have hclosed := hgoes.seedClosed (by decide +kernel)
    exact absurd hclosed (by decide +kernel)
  · intro h
    have hgoes := h.1 closingMoves [.evaluation (.write 1)] [] (List.append_nil _).symm
    have hclosed := hgoes.seedClosed (by decide +kernel)
    exact absurd hclosed (by decide +kernel)

end NightScout
