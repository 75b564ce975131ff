import NightScout.Intelligence.Convergence
import NightScout.Lib.Run

/-!
# The convergence state machine

What holds of every evaluation, and so of every run of evaluations: a closed lane stays closed, a tier rises
by one at most, the lanes close for the reasons they may close for, and the state that is stored says what the
decision says.

There is one exception. Closing a lane for low yield leaves the soft multiplier of its state as it was, where
the decision, and every other way to close, says one. `convergence_state_machine` is about the runs without
it. SQLite also keeps the stored state where a newer one is there already.
-/

namespace NightScout

open Lib

variable {tables : Tables} {config : ConvergenceConfig} {maximumTier : SearchTier}

/-! ## One decision -/

/-- What a decision does to the state it starts from. -/
structure DecisionLaws (config : ConvergenceConfig) (maximumTier : SearchTier) (prior : ConvergenceState)
    (signals : ConvergenceSignals) (now : Instant) (decision : ConvergenceDecision) : Prop where
  key : decision.stateAfter.key = prior.key
  updatedAt : decision.stateAfter.updatedAt = now
  absorbing : prior.closed = true → decision.stateAfter.closed = true
  currentTier : decision.currentTier = prior.tier
  tier_ge : prior.tier.rank ≤ decision.stateAfter.tier.rank
  tier_step : decision.stateAfter.tier.rank ≤ prior.tier.rank + 1
  tier_max : prior.tier.rank ≤ maximumTier.rank → decision.stateAfter.tier.rank ≤ maximumTier.rank
  /-- What closes the lane, if not the hard budget. -/
  closing : prior.closed = false → decision.stateAfter.closed = true →
    ¬ hardPressureHolds config signals → prior.lane ≠ .exploration ∧
      decision.stateAfter.tier = .exhaustive ∧
      config.closeLowYieldStreak ≤ decision.stateAfter.lowYieldStreak
  multiplier : 1 ≤ prior.branchSoftMultiplier ∧
      prior.branchSoftMultiplier ≤ config.productiveSoftMultiplierMax →
    1 ≤ decision.stateAfter.branchSoftMultiplier ∧
      decision.stateAfter.branchSoftMultiplier ≤ config.productiveSoftMultiplierMax
  cooldown : ∀ cooldownUntil ∈ decision.stateAfter.cooldownUntil,
    cooldownUntil ≤ now + config.cooldownMax ∨ prior.cooldownUntil = some cooldownUntil
  closed_cooldown : (prior.closed = true → prior.cooldownUntil = none) →
    decision.stateAfter.closed = true → decision.stateAfter.cooldownUntil = none
  /-- The state has the tier of the decision, its cooldown, its action. -/
  agrees : (prior.closed = true → prior.cooldownUntil = none) →
    decision.stateAfter.tier = decision.recommendedTier ∧
      decision.stateAfter.cooldownUntil = decision.cooldownUntil ∧
      decision.stateAfter.lastAction = some decision.action ∧
      (decision.stateAfter.closed = true ↔ decision.action = .close)
  multiplier_agrees : decision.stateAfter.branchSoftMultiplier =
      decision.recommendedBranchSoftMultiplier ↔
    (lowYieldCloseTaken config maximumTier prior signals now → prior.branchSoftMultiplier = 1)
  /-- An open lane with more than its soft budget has not yielded little for long. -/
  streak : (prior.closed = false → prior.branchSoftMultiplier ≠ 1 →
      prior.lowYieldStreak < config.cooldownLowYieldStreak) →
    decision.stateAfter.closed = false → decision.stateAfter.branchSoftMultiplier ≠ 1 →
      decision.stateAfter.lowYieldStreak < config.cooldownLowYieldStreak

theorem nextCooldownUntil_le {prior : ConvergenceState} {now cooldownUntil : Instant}
    (h : nextCooldownUntil config prior now = .ok cooldownUntil) : cooldownUntil ≤ now + config.cooldownMax := by
  obtain ⟨duration, hduration, h⟩ := bind_ok h
  rw [addDelta_ok h]
  exact Int.add_le_add_left (cooldownDuration_le hduration) now

/-- **Every decision follows the laws.** -/
theorem decideConvergence_laws {prior : ConvergenceState} {signals : ConvergenceSignals} {now : Instant}
    {decision : ConvergenceDecision} (h : decideConvergence config maximumTier prior signals now = .ok decision) :
    DecisionLaws config maximumTier prior signals now decision := by
  obtain ⟨after, action, tier, multiplier, cooldownUntil, reasons, rfl, houtcome⟩ :=
    decideConvergence_ok _ _ _ _ _ h
  have hone : 1 ≤ (1 : ℚ) ∧ 1 ≤ config.productiveSoftMultiplierMax := ⟨le_refl 1, config.one_le_max⟩
  have hboth (ho : prior.closed = false) (hc : prior.closed = true) : False := by
    rw [hc] at ho
    cases ho
  unfold convergenceDecision
  cases houtcome with
  | alreadyClosed hclosed =>
    exact {
      key := rfl, updatedAt := rfl, absorbing := id, currentTier := rfl, tier_ge := le_refl _
      tier_step := Nat.le_succ _, tier_max := id
      closing := fun ho => (hboth ho hclosed).elim
      multiplier := fun _ => hone
      cooldown := fun _ hu => .inr hu
      closed_cooldown := fun hc _ => hc hclosed
      agrees := fun hc => ⟨rfl, hc hclosed, rfl, iff_of_true hclosed rfl⟩
      multiplier_agrees := iff_of_true (max_self 1).symm fun htaken => (hboth htaken.1 hclosed).elim
      streak := fun _ ho => (hboth ho hclosed).elim }
  | hardClose hopen hpressure =>
    exact {
      key := rfl, updatedAt := rfl, absorbing := fun _ => rfl, currentTier := rfl, tier_ge := le_refl _
      tier_step := Nat.le_succ _, tier_max := id
      closing := fun _ _ hnot => absurd hpressure hnot
      multiplier := fun _ => hone
      cooldown := fun _ hu => (nomatch hu)
      closed_cooldown := fun _ _ => rfl
      agrees := fun _ => ⟨rfl, rfl, rfl, iff_of_true rfl rfl⟩
      multiplier_agrees := iff_of_true (max_self 1).symm fun htaken => absurd hpressure htaken.2.1
      streak := fun _ ho => (nomatch ho) }
  | stillCooling hopen hcooling =>
    exact {
      key := rfl, updatedAt := rfl, absorbing := id, currentTier := rfl, tier_ge := le_refl _
      tier_step := Nat.le_succ _, tier_max := id
      closing := fun _ hc => (hboth hopen hc).elim
      multiplier := fun _ => hone
      cooldown := fun _ hu => .inr hu
      closed_cooldown := fun _ hc => (hboth hopen hc).elim
      agrees := fun _ => ⟨rfl, rfl, rfl, iff_of_false (hboth hopen) nofun⟩
      multiplier_agrees := iff_of_true (max_self 1).symm fun htaken => by
        rw [htaken.2.2.1] at hcooling
        cases hcooling
      streak := fun _ _ hne => absurd rfl hne }
  | pause hopen hnot lowYieldStreak productiveStreak cooldownUntil huntil =>
    exact {
      key := rfl, updatedAt := rfl, absorbing := id, currentTier := rfl, tier_ge := le_refl _
      tier_step := Nat.le_succ _, tier_max := id
      closing := fun _ hc => (hboth hopen hc).elim
      multiplier := fun _ => hone
      cooldown := fun _ hu => .inl (Option.some.inj hu ▸ nextCooldownUntil_le huntil)
      closed_cooldown := fun _ hc => (hboth hopen hc).elim
      agrees := fun _ => ⟨rfl, rfl, rfl, iff_of_false (hboth hopen) nofun⟩
      multiplier_agrees := iff_of_true (max_self 1).symm fun htaken => absurd htaken hnot
      streak := fun _ _ hne => absurd rfl hne }
  | goOn hopen hnot lowYieldStreak productiveStreak multiplier hstreak hmultiplier =>
    exact {
      key := rfl, updatedAt := rfl, absorbing := id, currentTier := rfl, tier_ge := le_refl _
      tier_step := Nat.le_succ _, tier_max := id
      closing := fun _ hc => (hboth hopen hc).elim
      multiplier := fun _ => hmultiplier
      cooldown := fun _ hu => (nomatch hu)
      closed_cooldown := fun _ _ => rfl
      agrees := fun _ => ⟨rfl, rfl, rfl, iff_of_false (hboth hopen) nofun⟩
      multiplier_agrees := iff_of_true (max_eq_right hmultiplier.1).symm fun htaken =>
        absurd htaken hnot
      streak := fun _ _ _ => hstreak }
  | advance hopen hadvances =>
    have hmultiplier := productiveSoftMultiplier_mem config signals.estimate.expectedYield
    exact {
      key := rfl, updatedAt := rfl, absorbing := id, currentTier := rfl
      tier_ge := SearchTier.rank_le_nextTier _
      tier_step := SearchTier.rank_nextTier_le _
      tier_max := fun _ => (SearchTier.rank_nextTier_le _).trans hadvances.2.2.1
      closing := fun _ hc => (hboth hopen hc).elim
      multiplier := fun _ => hmultiplier
      cooldown := fun _ hu => (nomatch hu)
      closed_cooldown := fun _ _ => rfl
      agrees := fun _ => ⟨rfl, rfl, rfl, iff_of_false (hboth hopen) nofun⟩
      multiplier_agrees := iff_of_true (max_eq_right hmultiplier.1).symm fun htaken =>
        absurd hadvances htaken.2.2.2.2.1
      streak := fun _ _ _ => config.streaks_pos.2 }
  | lowYieldClose htaken =>
    obtain ⟨_, _, _, _, _, _, hlane, hexhaustive, hstreak, _⟩ := id htaken
    exact {
      key := rfl, updatedAt := rfl, absorbing := fun _ => rfl, currentTier := rfl, tier_ge := le_refl _
      tier_step := Nat.le_succ _, tier_max := id
      closing := fun _ _ _ => ⟨hlane, of_decide_eq_true hexhaustive, hstreak⟩
      multiplier := id
      cooldown := fun _ hu => (nomatch hu)
      closed_cooldown := fun _ _ => rfl
      agrees := fun _ => ⟨rfl, rfl, rfl, iff_of_true rfl rfl⟩
      multiplier_agrees := by
        change prior.branchSoftMultiplier = max 1 1 ↔ _
        rw [max_self]
        exact ⟨fun h _ => h, fun h => h htaken⟩
      streak := fun _ ho => (nomatch ho) }

/-! ## The stores -/

/-- A key that `get` and `put` spell alike. -/
structure BranchLane.Canonical (tables : Tables) (lane : BranchLane) : Prop where
  target : normalizeTargetKey tables lane.targetKey = lane.targetKey
  lower : lowerTarget tables lane.targetKey = lane.targetKey
  branch : strip lane.branchId = lane.branchId

theorem BranchLane.canonical_iff {lane : BranchLane} : lane.Canonical tables ↔
    normalizeTargetKey tables lane.targetKey = lane.targetKey ∧
      lowerTarget tables lane.targetKey = lane.targetKey ∧ strip lane.branchId = lane.branchId :=
  ⟨fun h => ⟨h.target, h.lower, h.branch⟩, fun h => ⟨h.1, h.2.1, h.2.2⟩⟩

instance (lane : BranchLane) : Decidable (lane.Canonical tables) :=
  decidable_of_iff' _ BranchLane.canonical_iff

/-- The stored states, with the one that is put under its key unless it comes too `late`. -/
def putState (late : ConvergenceState → Instant → Bool)
    (states : BranchLane → Option ConvergenceState) (state : ConvergenceState) :
    BranchLane → Option ConvergenceState :=
  fun lane =>
    if lane = state.key then
      if (states lane).any (late · state.updatedAt) then states lane else some state
    else states lane

/-- What a store does with canonical keys: it is a function from keys to states. -/
structure KeepsStates (tables : Tables) {σ : Type} (store : ConvergenceStateStore σ)
    (late : ConvergenceState → Instant → Bool) where
  Holds : σ → (BranchLane → Option ConvergenceState) → Prop
  empty : Holds store.empty fun _ => none
  get : ∀ {s states lane}, Holds s states → lane.Canonical tables → store.get s lane = .ok (states lane)
  put : ∀ {s states state}, Holds s states → state.key.Canonical tables →
    ∃ s', store.put s state = (.ok (), s') ∧ Holds s' (putState late states state)

/-- Memory keeps the last state. -/
def inMemoryKeeps (tables : Tables) :
    KeepsStates tables (inMemoryConvergenceStateStore tables) fun _ _ => false where
  Holds s states := ∀ lane, s.get? lane = states lane
  empty _ := rfl
  get {s states lane} h hlane := by
    change Except.ok (s.get? { lane with targetKey := lowerTarget tables lane.targetKey }) = _
    rw [hlane.lower, h lane]
  put {s states state} h _ := by
    refine ⟨_, rfl, fun lane => ?_⟩
    unfold putState
    rw [Dict.get?_set]
    by_cases hkey : lane = state.key
    · rw [if_pos hkey, if_pos hkey, if_neg (by simp)]
    · rw [if_neg hkey, if_neg hkey, h lane]

/-- The column of a normal target key is the key, and empty if there is none. -/
theorem databaseTargetKey_normal {target : Option String} (h : normalizeTargetKey tables target = target) :
    (target = none ∧ databaseTargetKey tables target = "") ∨
      ∃ k, k ≠ "" ∧ target = some k ∧ databaseTargetKey tables target = k := by
  cases target with
  | none => exact .inl ⟨rfl, rfl⟩
  | some k =>
    right
    unfold normalizeTargetKey at h
    rw [Option.bind_some] at h
    simp only [databaseTargetKey]
    generalize strLower tables (strip k) = lowered at h ⊢
    by_cases hempty : lowered = ""
    · rw [if_pos hempty] at h
      cases h
    · rw [if_neg hempty] at h
      cases h
      exact ⟨k, hempty, rfl, rfl⟩

theorem databaseTargetKey_injective {target target' : Option String}
    (h : normalizeTargetKey tables target = target) (h' : normalizeTargetKey tables target' = target')
    (heq : databaseTargetKey tables target = databaseTargetKey tables target') : target = target' := by
  rcases databaseTargetKey_normal h with ⟨hnone, hcolumn⟩ | ⟨k, hne, hsome, hcolumn⟩ <;>
    rcases databaseTargetKey_normal h' with ⟨hnone', hcolumn'⟩ | ⟨k', hne', hsome', hcolumn'⟩
  · rw [hnone, hnone']
  · exact absurd (hcolumn'.symm.trans (heq.symm.trans hcolumn)) hne'
  · exact absurd (hcolumn.symm.trans (heq.trans hcolumn')) hne
  · rw [hsome, hsome', ← hcolumn, ← hcolumn', heq]

/-- The columns that identify the row of a key. -/
def BranchLane.rowKey (tables : Tables) (lane : BranchLane) : ConvergenceRowKey :=
  (databaseTargetKey tables lane.targetKey, lane.branchId, lane.lane)

/-- A row is the row of one canonical key. -/
theorem rowKey_injective {lane lane' : BranchLane} (h : lane.Canonical tables)
    (h' : lane'.Canonical tables) (heq : lane.rowKey tables = lane'.rowKey tables) : lane = lane' := by
  obtain ⟨htarget, hrest⟩ := Prod.mk.inj heq
  obtain ⟨hbranch, hlane⟩ := Prod.mk.inj hrest
  have hsame := databaseTargetKey_injective h.target h'.target htarget
  cases lane
  cases lane'
  congr

/-- An older state comes too late. -/
def olderThan (stored : ConvergenceState) (updatedAt : Instant) : Bool := updatedAt < stored.updatedAt

/-- SQLite keeps the newest state. -/
def sqliteKeeps (tables : Tables) :
    KeepsStates tables (sqliteConvergenceStateStore tables) olderThan where
  Holds s states := ∀ lane, lane.Canonical tables →
    s.get? (lane.rowKey tables) = states lane ∧ ∀ state ∈ states lane, state.key = lane
  empty _ _ := ⟨rfl, fun _ h => (nomatch h)⟩
  get {s states lane} h hlane := by
    obtain ⟨hrow, hkey⟩ := h lane hlane
    unfold BranchLane.rowKey at hrow
    unfold sqliteConvergenceStateStore
    simp only [hrow]
    cases hstate : states lane with
    | none => rfl
    | some state =>
      have hsame : state.key = lane := hkey state hstate
      subst hsame
      have hlower : lowerTarget tables state.key.targetKey = state.targetKey := hlane.lower
      have hbranch : state.key.branchId = state.branchId := rfl
      have hlane' : state.key.lane = state.lane := rfl
      simp only [hlower, hbranch, hlane', ne_eq, not_true_eq_false, or_self, if_false]
  put {s states state} h hkey := by
    obtain ⟨hrow, _⟩ := h state.key hkey
    -- the row of the key is rewritten, and no other row
    have hset (hkept : (states state.key).any (olderThan · state.updatedAt) = false)
        (lane : BranchLane) (hlane : lane.Canonical tables) :
        (s.set (state.key.rowKey tables) state).get? (lane.rowKey tables) =
            putState olderThan states state lane ∧
          ∀ st ∈ putState olderThan states state lane, st.key = lane := by
      unfold putState
      by_cases hsame : lane = state.key
      · rw [hsame, if_pos rfl, Dict.get?_set_self, hkept]
        exact ⟨rfl, fun st hst => by rw [← Option.some.inj hst]⟩
      · rw [if_neg hsame, Dict.get?_set_ne _ _ fun heq => hsame (rowKey_injective hlane hkey heq)]
        exact h lane hlane
    unfold BranchLane.rowKey at hrow
    unfold sqliteConvergenceStateStore
    simp only
    cases hstored : states state.key with
    | none =>
      rw [hstored] at hrow hset
      have hrow' : s.get? (databaseTargetKey tables state.targetKey, state.branchId, state.lane) = none :=
        hrow
      rw [hrow']
      exact ⟨_, rfl, hset rfl⟩
    | some stored =>
      rw [hstored] at hrow hset
      have hrow' : s.get? (databaseTargetKey tables state.targetKey, state.branchId, state.lane) =
          some stored := hrow
      rw [hrow']
      simp only
      by_cases hlate : state.updatedAt < stored.updatedAt
      · rw [if_pos hlate]
        refine ⟨s, rfl, fun lane hlane => ?_⟩
        have hsame : putState olderThan states state lane = states lane := by
          unfold putState
          by_cases hkey' : lane = state.key
          · rw [if_pos hkey', hkey', hstored]
            simp only [Option.any_some, olderThan, hlate, decide_true, if_true]
          · rw [if_neg hkey']
        rw [hsame]
        exact h lane hlane
      · rw [if_neg hlate]
        exact ⟨_, rfl, hset (by simp only [Option.any_some, olderThan, hlate, decide_false])⟩

/-! ## One evaluation -/

/-- What holds of a stored state. -/
structure ConvergenceState.Sound (config : ConvergenceConfig) (maximumTier : SearchTier)
    (state : ConvergenceState) : Prop where
  tier_le : state.tier.rank ≤ maximumTier.rank
  multiplier : 1 ≤ state.branchSoftMultiplier ∧
    state.branchSoftMultiplier ≤ config.productiveSoftMultiplierMax
  closed_cooldown : state.closed = true → state.cooldownUntil = none
  streak : state.closed = false → state.branchSoftMultiplier ≠ 1 →
    state.lowYieldStreak < config.cooldownLowYieldStreak

/-- What an evaluation does to the stored state of its lane. -/
structure EvaluationLaws (config : ConvergenceConfig) (maximumTier : SearchTier)
    (request : EvaluationRequest) (signals : ConvergenceSignals) (before : Option ConvergenceState)
    (decision : ConvergenceDecision) (after : ConvergenceState) : Prop where
  absorbing : ∀ st ∈ before, st.closed = true → after.closed = true
  /-- The tier the decision starts from: the caller's, and that of a closed state. -/
  current : decision.currentTier = request.currentTier ∨
    ∃ st ∈ before, st.closed = true ∧ decision.currentTier = st.tier
  tier_ge : decision.currentTier.rank ≤ after.tier.rank
  tier_step : after.tier.rank ≤ decision.currentTier.rank + 1
  tier_max : after.tier.rank ≤ maximumTier.rank
  exploration : (∀ st ∈ before, st.closed = false) → after.closed = true →
    request.lane.lane = .exploration → hardPressureHolds config signals
  normal : (∀ st ∈ before, st.closed = false) → after.closed = true →
    ¬ hardPressureHolds config signals →
      after.tier = maximumTier ∧ config.closeLowYieldStreak ≤ after.lowYieldStreak
  multiplier : 1 ≤ after.branchSoftMultiplier ∧
    after.branchSoftMultiplier ≤ config.productiveSoftMultiplierMax
  cooldown : ∀ cooldownUntil ∈ after.cooldownUntil,
    cooldownUntil ≤ request.now + config.cooldownMax ∨
      ∃ st ∈ before, st.cooldownUntil = some cooldownUntil
  /-- What is stored says what the decision says. -/
  agrees : after.tier = decision.recommendedTier ∧
    after.branchSoftMultiplier = decision.recommendedBranchSoftMultiplier ∧
    after.cooldownUntil = decision.cooldownUntil ∧ after.lastAction = some decision.action ∧
    (after.closed = true ↔ decision.action = .close)

section Evaluations

/-- The state an evaluation starts from is the stored one with the tier of the caller. -/
theorem priorState_ok {request : EvaluationRequest} (hlane : request.lane.Canonical tables)
    {stored : Option ConvergenceState} (hkey : ∀ st ∈ stored, st.key = request.lane)
    {prior : ConvergenceState} (h : priorState tables request stored = .ok prior) : prior.key = request.lane ∧
      (stored = none ∧ prior.tier = request.currentTier ∧ prior.closed = false ∧
          prior.cooldownUntil = none ∧ prior.branchSoftMultiplier = 1 ∨
        ∃ st ∈ stored, prior.closed = st.closed ∧ prior.cooldownUntil = st.cooldownUntil ∧
          prior.branchSoftMultiplier = st.branchSoftMultiplier ∧ prior.lowYieldStreak = st.lowYieldStreak ∧
          (prior.tier = request.currentTier ∨ st.closed = true ∧ prior.tier = st.tier)) := by
  cases stored with
  | none =>
    unfold priorState at h
    simp only at h
    split at h
    · cases h
    · cases h
      refine ⟨?_, .inl ⟨rfl, rfl, rfl, rfl, rfl⟩⟩
      unfold ConvergenceState.key
      simp only [hlane.target, hlane.branch]
  | some st =>
    unfold priorState at h
    cases h
    by_cases hsync : st.tier ≠ request.currentTier ∧ st.closed = false
    · rw [if_pos hsync]
      exact ⟨hkey st rfl, .inr ⟨st, rfl, rfl, rfl, rfl, rfl, .inl rfl⟩⟩
    · rw [if_neg hsync]
      refine ⟨hkey st rfl, .inr ⟨st, rfl, rfl, rfl, rfl, rfl, ?_⟩⟩
      by_cases htier : st.tier = request.currentTier
      · exact .inl htier
      · right
        refine ⟨?_, rfl⟩
        by_contra hopen
        exact hsync ⟨htier, Bool.eq_false_iff.mpr hopen⟩

/-- What an evaluation starts from is as sound as what is stored. -/
theorem priorState_sound {request : EvaluationRequest}
    (htier : request.currentTier.rank ≤ maximumTier.rank) (hlane : request.lane.Canonical tables)
    {stored : Option ConvergenceState} (hstored : ∀ st ∈ stored, st.key = request.lane ∧ st.Sound config maximumTier)
    {prior : ConvergenceState} (hprior : priorState tables request stored = .ok prior) :
    prior.Sound config maximumTier := by
  obtain ⟨_, hcases⟩ := priorState_ok hlane (fun st hst => (hstored st hst).1) hprior
  rcases hcases with ⟨_, hcurrent, _, hnone, hone⟩ | ⟨st, hst, hclosed, hcooldown, hmultiplier, hstreak, htiers⟩
  · refine ⟨hcurrent ▸ htier, ?_, fun _ => hnone, fun _ hne => absurd hone hne⟩
    rw [hone]
    exact ⟨le_refl 1, config.one_le_max⟩
  · have hsound := (hstored st hst).2
    refine ⟨?_, hmultiplier ▸ hsound.multiplier, ?_, ?_⟩
    · rcases htiers with hcurrent | ⟨_, hcurrent⟩
      · exact hcurrent ▸ htier
      · exact hcurrent ▸ hsound.tier_le
    · rw [hclosed, hcooldown]
      exact hsound.closed_cooldown
    · rw [hclosed, hmultiplier, hstreak]
      exact hsound.streak

/-- The laws of a decision, read off the stored states. -/
theorem DecisionLaws.evaluation {request : EvaluationRequest} {signals : ConvergenceSignals}
    (htier : request.currentTier.rank ≤ maximumTier.rank) (hlane : request.lane.Canonical tables)
    {stored : Option ConvergenceState} (hstored : ∀ st ∈ stored, st.key = request.lane ∧ st.Sound config maximumTier)
    {prior : ConvergenceState} (hprior : priorState tables request stored = .ok prior) {decision : ConvergenceDecision}
    (h : DecisionLaws config maximumTier prior signals request.now decision)
    (hsettled : lowYieldCloseTaken config maximumTier prior signals request.now → prior.branchSoftMultiplier = 1) :
    decision.stateAfter.key = request.lane ∧ decision.stateAfter.Sound config maximumTier ∧
      EvaluationLaws config maximumTier request signals stored decision decision.stateAfter := by
  obtain ⟨hkey, hcases⟩ := priorState_ok hlane (fun st hst => (hstored st hst).1) hprior
  have hsound := priorState_sound htier hlane hstored hprior
  have hpriorOpen : (∀ st ∈ stored, st.closed = false) → prior.closed = false := by
    intro hall
    rcases hcases with ⟨_, _, hopen, _⟩ | ⟨st, hst, hclosed, _⟩
    · exact hopen
    · exact hclosed ▸ hall st hst
  have hlaneLane : prior.lane = request.lane.lane := congrArg BranchLane.lane hkey
  have hafterTier := h.tier_max hsound.tier_le
  obtain ⟨hrecommended, huntil, haction, hclose⟩ := h.agrees hsound.closed_cooldown
  refine ⟨h.key.trans hkey, ⟨hafterTier, h.multiplier hsound.multiplier,
    h.closed_cooldown hsound.closed_cooldown, h.streak hsound.streak⟩, ?_⟩
  exact {
    absorbing := by
      intro st hst hclosed
      apply h.absorbing
      rcases hcases with ⟨hnone, _⟩ | ⟨st', hst', hsame, _⟩
      · rw [hnone] at hst
        cases hst
      · have hst'' : st' = st := Option.some.inj (hst'.symm.trans hst)
        rw [hsame, hst'', hclosed]
    current := by
      rw [h.currentTier]
      rcases hcases with ⟨_, hcurrent, _⟩ | ⟨st, hst, _, _, _, _, hcurrent | ⟨hclosed, hcurrent⟩⟩
      · exact .inl hcurrent
      · exact .inl hcurrent
      · exact .inr ⟨st, hst, hclosed, hcurrent⟩
    tier_ge := h.currentTier ▸ h.tier_ge
    tier_step := h.currentTier ▸ h.tier_step
    tier_max := hafterTier
    exploration := by
      intro hall hclosed hexploration
      by_contra hpressure
      exact (h.closing (hpriorOpen hall) hclosed hpressure).1 (hlaneLane.trans hexploration)
    normal := by
      intro hall hclosed hpressure
      obtain ⟨_, hexhaustive, hstreak⟩ := h.closing (hpriorOpen hall) hclosed hpressure
      refine ⟨SearchTier.rank_injective (le_antisymm hafterTier ?_), hstreak⟩
      rw [hexhaustive]
      exact maximumTier.rank_le_four
    multiplier := h.multiplier hsound.multiplier
    cooldown := by
      intro cooldownUntil hmem
      refine (h.cooldown cooldownUntil hmem).imp_right fun hprior' => ?_
      rcases hcases with ⟨_, _, _, hnone, _⟩ | ⟨st, hst, _, hsame, _⟩
      · rw [hnone] at hprior'
        cases hprior'
      · exact ⟨st, hst, hsame ▸ hprior'⟩
    agrees := ⟨hrecommended, h.multiplier_agrees.mpr hsettled, huntil, haction, hclose⟩ }

end Evaluations

/-! ## Runs -/

section Runs

/-- An evaluation, with what it gathers. -/
structure EvaluationCmd where
  request : EvaluationRequest
  signals : ConvergenceSignals

variable {σ : Type} (tables : Tables) (config : ConvergenceConfig) (maximumTier : SearchTier)
    (store : ConvergenceStateStore σ)

/-- The store after an evaluation. -/
def evaluationStep (s : σ) (cmd : EvaluationCmd) : σ :=
  (evaluate tables config maximumTier store s cmd.request cmd.signals).2

/-- The evaluation names its lane as the stores do, does not come too late, and does not close it for low
    yield while its state has more than its soft budget. -/
def EvaluationCmd.Proper (late : ConvergenceState → Instant → Bool) (s : σ) (cmd : EvaluationCmd) : Prop :=
  cmd.request.lane.Canonical tables ∧
    ∀ stored ∈ (store.get s cmd.request.lane).toOption,
      (∀ st ∈ stored, late st cmd.request.now = false) ∧
      ∀ prior ∈ (priorState tables cmd.request stored).toOption,
        lowYieldCloseTaken config maximumTier prior cmd.signals cmd.request.now →
          prior.branchSoftMultiplier = 1

instance (late : ConvergenceState → Instant → Bool) (s : σ) (cmd : EvaluationCmd) :
    Decidable (cmd.Proper tables config maximumTier store late s) :=
  inferInstanceAs (Decidable (_ ∧ ∀ stored ∈ _, (∀ st ∈ stored, _) ∧ ∀ prior ∈ _, _ → _))

/-- The evaluation does not come too late for its lane. -/
def EvaluationCmd.InTime (store : ConvergenceStateStore σ) (late : ConvergenceState → Instant → Bool) (s : σ)
    (cmd : EvaluationCmd) : Prop :=
  ∀ stored ∈ (store.get s cmd.request.lane).toOption, ∀ st ∈ stored, late st cmd.request.now = false

instance (late : ConvergenceState → Instant → Bool) (s : σ) (cmd : EvaluationCmd) :
    Decidable (cmd.InTime store late s) :=
  inferInstanceAs (Decidable (∀ stored ∈ _, ∀ st ∈ stored, _))

/-- The evaluation follows the laws: it changes the state of its lane only, and that as `EvaluationLaws` says,
    or it raises and changes nothing. -/
def EvaluationCmd.Lawful (s : σ) (cmd : EvaluationCmd) : Prop :=
  (∀ lane, lane.Canonical tables → lane ≠ cmd.request.lane →
    store.get (evaluationStep tables config maximumTier store s cmd) lane = store.get s lane) ∧
  match (evaluate tables config maximumTier store s cmd.request cmd.signals).1 with
  | .error _ => evaluationStep tables config maximumTier store s cmd = s
  | .ok decision => ∃ before after, store.get s cmd.request.lane = .ok before ∧
      store.get (evaluationStep tables config maximumTier store s cmd) cmd.request.lane =
        .ok (some after) ∧
      EvaluationLaws config maximumTier cmd.request cmd.signals before decision after

/-- Every evaluation of the run follows the laws, every state stored on the way is sound, and what is closed
    once is closed at the end. -/
def ConvergenceRunLaws (cmds : List EvaluationCmd) : Prop :=
  Along (evaluationStep tables config maximumTier store)
      (EvaluationCmd.Lawful tables config maximumTier store) store.empty cmds ∧
    ∀ before after, cmds = before ++ after → ∀ lane : BranchLane, lane.Canonical tables →
      ∀ st, store.get (runFrom (evaluationStep tables config maximumTier store) store.empty before)
          lane = .ok (some st) →
        st.Sound config maximumTier ∧
        (st.closed = true → ∃ st', store.get (runFrom
          (evaluationStep tables config maximumTier store) store.empty cmds) lane =
            .ok (some st') ∧ st'.closed = true)

variable {tables config maximumTier store} {late : ConvergenceState → Instant → Bool}

/-- What is stored in every reachable state. -/
def KeepsStates.Good (keeps : KeepsStates tables store late) (config : ConvergenceConfig)
    (maximumTier : SearchTier) (s : σ) : Prop :=
  ∃ states, keeps.Holds s states ∧
    ∀ lane, ∀ st ∈ states lane, st.key = lane ∧ st.Sound config maximumTier

/-- One evaluation. -/
theorem KeepsStates.step (keeps : KeepsStates tables store late) {s : σ} {cmd : EvaluationCmd}
    (hgood : keeps.Good config maximumTier s) (hproper : cmd.Proper tables config maximumTier store late s) :
    cmd.Lawful tables config maximumTier store s ∧
      keeps.Good config maximumTier (evaluationStep tables config maximumTier store s cmd) := by
  obtain ⟨states, hholds, hsound⟩ := hgood
  obtain ⟨hlane, hproper⟩ := hproper
  have hget := keeps.get hholds hlane
  obtain ⟨hlate, hsettled⟩ := hproper (states cmd.request.lane) (by rw [hget]; rfl)
  unfold EvaluationCmd.Lawful evaluationStep evaluate
  split
  next => exact ⟨⟨fun _ _ _ => rfl, rfl⟩, states, hholds, hsound⟩
  next htier =>
  have htier := not_lt.mp htier
  rw [hget, ok_bind]
  cases hprior : priorState tables cmd.request (states cmd.request.lane) with
  | error e => exact ⟨⟨fun _ _ _ => rfl, rfl⟩, states, hholds, hsound⟩
  | ok prior =>
    rw [ok_bind]
    cases hdecision : decideConvergence config maximumTier prior cmd.signals cmd.request.now with
    | error e => exact ⟨⟨fun _ _ _ => rfl, rfl⟩, states, hholds, hsound⟩
    | ok decision =>
      have hdecisionLaws := decideConvergence_laws hdecision
      obtain ⟨hkey, hafter, hlaws⟩ := hdecisionLaws.evaluation htier hlane
        (hsound cmd.request.lane) hprior (hsettled prior (by rw [hprior]; rfl))
      obtain ⟨s', hput, hholds'⟩ := keeps.put hholds (hkey.symm ▸ hlane)
      have hkept : (states cmd.request.lane).any (late · decision.stateAfter.updatedAt) = false := by
        rw [hdecisionLaws.updatedAt, Option.any_eq_false]
        intro st hst
        simp [hlate st hst]
      have hself : putState late states decision.stateAfter cmd.request.lane =
          some decision.stateAfter := by
        unfold putState
        rw [if_pos hkey.symm, hkept]
        rfl
      have hother (lane : BranchLane) (hne : lane ≠ cmd.request.lane) :
          putState late states decision.stateAfter lane = states lane := by
        unfold putState
        rw [if_neg (hkey.symm ▸ hne)]
      simp only [hput]
      refine ⟨⟨fun lane hcanonical hne => ?_, ?_⟩, _, hholds', fun lane st hst => ?_⟩
      · rw [keeps.get hholds' hcanonical, keeps.get hholds hcanonical, hother lane hne]
      · refine ⟨states cmd.request.lane, decision.stateAfter, rfl, ?_, hlaws⟩
        rw [keeps.get hholds' hlane, hself]
      · by_cases hsame : lane = cmd.request.lane
        · rw [hsame, hself] at hst
          rw [← Option.some.inj hst, hsame]
          exact ⟨hkey, hafter⟩
        · rw [hother lane hsame] at hst
          exact hsound lane st hst

/-- A closed lane stays closed. -/
theorem closed_stays (keeps : KeepsStates tables store late) {cmds : List EvaluationCmd} {s : σ}
    (h : Along (evaluationStep tables config maximumTier store)
      (EvaluationCmd.Proper tables config maximumTier store late) s cmds)
    (hgood : keeps.Good config maximumTier s) {lane : BranchLane} (hlane : lane.Canonical tables)
    (hclosed : ∃ st, store.get s lane = .ok (some st) ∧ st.closed = true) :
    ∃ st, store.get (runFrom (evaluationStep tables config maximumTier store) s cmds) lane =
      .ok (some st) ∧ st.closed = true := by
  refine (h.invariant (P := fun s => keeps.Good config maximumTier s ∧
    ∃ st, store.get s lane = .ok (some st) ∧ st.closed = true) ⟨hgood, hclosed⟩ ?_).2
  intro s cmd ⟨hgood, st, hget, hclosed⟩ hproper
  obtain ⟨⟨hother, hlawful⟩, hgood'⟩ := keeps.step hgood hproper
  refine ⟨hgood', ?_⟩
  by_cases hsame : lane = cmd.request.lane
  · cases hresult : (evaluate tables config maximumTier store s cmd.request cmd.signals).1 with
    | error e =>
      rw [hresult] at hlawful
      exact ⟨st, hlawful.symm ▸ hget, hclosed⟩
    | ok decision =>
      rw [hresult] at hlawful
      obtain ⟨before, after, hbefore, hafter, hlaws⟩ := hlawful
      rw [← hsame, hget] at hbefore
      cases hbefore
      exact ⟨after, hsame ▸ hafter, hlaws.absorbing st rfl hclosed⟩
  · rw [hother lane hlane hsame]
    exact ⟨st, hget, hclosed⟩

/-- The laws along a run. -/
theorem KeepsStates.run (keeps : KeepsStates tables store late) {cmds : List EvaluationCmd}
    (h : Along (evaluationStep tables config maximumTier store)
      (EvaluationCmd.Proper tables config maximumTier store late) store.empty cmds) :
    ConvergenceRunLaws tables config maximumTier store cmds := by
  have hempty : keeps.Good config maximumTier store.empty :=
    ⟨_, keeps.empty, fun _ _ h => (nomatch h)⟩
  refine ⟨h.of_invariant hempty fun s cmd hgood hproper => keeps.step hgood hproper, ?_⟩
  rintro before after rfl lane hlane st hst
  obtain ⟨hbefore, hafter⟩ := (along_append before _).mp h
  have hgood := hbefore.invariant hempty fun s cmd hgood hproper => (keeps.step hgood hproper).2
  refine ⟨?_, fun hclosed => ?_⟩
  · obtain ⟨states, hholds, hsound⟩ := hgood
    rw [keeps.get hholds hlane] at hst
    exact (hsound lane st (Except.ok.inj hst)).2
  · rw [runFrom_append]
    exact closed_stays keeps hafter hgood hlane ⟨st, hst, hclosed⟩

/-- With a closing streak above that of a cooldown, the exception does not come up. -/
theorem KeepsStates.proper_of_lt (keeps : KeepsStates tables store late)
    (hlt : config.cooldownLowYieldStreak < config.closeLowYieldStreak) {s : σ}
    (hgood : keeps.Good config maximumTier s) {cmd : EvaluationCmd} (hlane : cmd.request.lane.Canonical tables)
    (hlate : cmd.InTime store late s) : cmd.Proper tables config maximumTier store late s := by
  refine ⟨hlane, fun stored hget => ⟨hlate stored hget, fun prior hprior htaken => ?_⟩⟩
  obtain ⟨states, hholds, hsound⟩ := hgood
  rw [keeps.get hholds hlane] at hget
  cases hget
  have hprior' : priorState tables cmd.request (states cmd.request.lane) = .ok prior := by
    cases hresult : priorState tables cmd.request (states cmd.request.lane) with
    | error e =>
      rw [hresult] at hprior
      cases hprior
    | ok prior' =>
      rw [hresult] at hprior
      exact congrArg _ (Option.some.inj hprior)
  obtain ⟨hopen, _, _, _, _, _, _, _, hclose, _⟩ := htaken
  by_contra hne
  obtain ⟨_, hcases⟩ := priorState_ok hlane (fun st hst => (hsound _ st hst).1) hprior'
  rcases hcases with ⟨_, _, _, _, hone⟩ | ⟨st, hst, hclosed, _, hmultiplier, hstreak, _⟩
  · exact hne hone
  · -- a raised soft budget is kept only as long as the lane does not cool down
    have hbelow := (hsound _ st hst).2.streak (hclosed.symm.trans hopen) (hmultiplier ▸ hne)
    have hnext : nextLowYieldStreak config prior cmd.signals ≤ prior.lowYieldStreak + 1 := by
      unfold nextLowYieldStreak
      split
      · exact le_refl _
      · exact Nat.zero_le _
    omega

theorem KeepsStates.run_of_lt (keeps : KeepsStates tables store late)
    (hlt : config.cooldownLowYieldStreak < config.closeLowYieldStreak) {cmds : List EvaluationCmd}
    (hlanes : ∀ cmd ∈ cmds, cmd.request.lane.Canonical tables)
    (htimes : Along (evaluationStep tables config maximumTier store) (fun s cmd => cmd.InTime store late s)
      store.empty cmds) : ConvergenceRunLaws tables config maximumTier store cmds :=
  keeps.run (((Along.of_forall hlanes).and htimes).of_invariant (P := keeps.Good config maximumTier)
    ⟨_, keeps.empty, fun _ _ h => (nomatch h)⟩ fun _ _ hgood ⟨hlane, hlate⟩ =>
      have hproper := keeps.proper_of_lt hlt hgood hlane hlate
      ⟨hproper, (keeps.step hgood hproper).2⟩)

end Runs

/-- **The convergence state machine**: in either store, every run of proper evaluations follows the laws. -/
theorem convergence_state_machine (tables : Tables) (config : ConvergenceConfig)
    (maximumTier : SearchTier) (cmds : List EvaluationCmd) :
    (Along (evaluationStep tables config maximumTier (inMemoryConvergenceStateStore tables))
        (EvaluationCmd.Proper tables config maximumTier (inMemoryConvergenceStateStore tables)
          fun _ _ => false) .empty cmds →
      ConvergenceRunLaws tables config maximumTier (inMemoryConvergenceStateStore tables) cmds) ∧
    (Along (evaluationStep tables config maximumTier (sqliteConvergenceStateStore tables))
        (EvaluationCmd.Proper tables config maximumTier (sqliteConvergenceStateStore tables) olderThan) .empty cmds →
      ConvergenceRunLaws tables config maximumTier (sqliteConvergenceStateStore tables) cmds) :=
  ⟨fun h => (inMemoryKeeps tables).run h, fun h => (sqliteKeeps tables).run h⟩

/-! ## One branch -/

/-- Every text is ASCII. -/
def latinTables : Tables := ⟨id, some, id, fun _ => true⟩

/-- The normal lane of a seed. -/
def seedLane : BranchLane := ⟨some "example.com", "evt_seed", .normal⟩

/-- Half of what is tried is a hit. -/
def productiveSignals : ConvergenceSignals where
  trend := ⟨8, 1 / 2, 1 / 2, 0, false⟩
  estimate := ⟨9 / 10, 1 / 2, by decide +kernel, by decide +kernel⟩
  budget := { branchId := "evt_seed", lane := .normal, explorationReserveFraction := 1 / 10 }

/-- Nothing is found, and little is left to learn. -/
def barrenSignals : ConvergenceSignals where
  trend := ⟨8, 0, 0, 1, true⟩
  estimate := ⟨1 / 10, 1 / 10, by decide +kernel, by decide +kernel⟩
  budget := { branchId := "evt_seed", lane := .normal, explorationReserveFraction := 1 / 10 }

/-- Twice productive, and then the lane goes up a tier and cools down. -/
def climbingRun : List EvaluationCmd :=
  [⟨⟨seedLane, .small, 0⟩, productiveSignals⟩, ⟨⟨seedLane, .small, 60⟩, productiveSignals⟩,
    ⟨⟨seedLane, .medium, 120⟩, barrenSignals⟩, ⟨⟨seedLane, .medium, 180⟩, barrenSignals⟩]

theorem convergence_state_machine_climbing : ConvergenceRunLaws latinTables defaultConvergenceConfig .exhaustive
        (inMemoryConvergenceStateStore latinTables) climbingRun ∧
      ConvergenceRunLaws latinTables defaultConvergenceConfig .exhaustive
        (sqliteConvergenceStateStore latinTables) climbingRun :=
  ⟨(convergence_state_machine latinTables defaultConvergenceConfig .exhaustive climbingRun).1
      (by decide +kernel),
    (convergence_state_machine latinTables defaultConvergenceConfig .exhaustive climbingRun).2
      (by decide +kernel)⟩

/-- **No lane is closed with a raised soft budget where a cooldown comes first**: with a closing streak above that
    of a cooldown, every run follows the laws, in memory whatever its times, in the database if none is late. -/
theorem convergence_cools_down_first (tables : Tables) {config : ConvergenceConfig} (maximumTier : SearchTier)
    (hlt : config.cooldownLowYieldStreak < config.closeLowYieldStreak) {cmds : List EvaluationCmd}
    (hlanes : ∀ cmd ∈ cmds, cmd.request.lane.Canonical tables) :
    ConvergenceRunLaws tables config maximumTier (inMemoryConvergenceStateStore tables) cmds ∧
    (Along (evaluationStep tables config maximumTier (sqliteConvergenceStateStore tables))
        (fun s cmd => cmd.InTime (sqliteConvergenceStateStore tables) olderThan s) .empty cmds →
      ConvergenceRunLaws tables config maximumTier (sqliteConvergenceStateStore tables) cmds) :=
  ⟨(inMemoryKeeps tables).run_of_lt hlt hlanes
      ((Along.of_forall hlanes).imp fun _ _ _ _ _ _ _ => rfl),
    (sqliteKeeps tables).run_of_lt hlt hlanes⟩

theorem convergence_cools_down_first_climbing : ConvergenceRunLaws latinTables defaultConvergenceConfig .exhaustive
        (inMemoryConvergenceStateStore latinTables) climbingRun ∧
      ConvergenceRunLaws latinTables defaultConvergenceConfig .exhaustive
        (sqliteConvergenceStateStore latinTables) climbingRun :=
  (convergence_cools_down_first latinTables .exhaustive (by decide +kernel) (by decide +kernel)).imp_right fun h =>
    h (by decide +kernel)

/-- One evaluation of low yield is enough to close. -/
def hastyConfig : ConvergenceConfig :=
  { defaultConvergenceConfig with
    cooldownLowYieldStreak := 1, closeLowYieldStreak := 1, streaks_pos := by decide, close_le := by decide }

/-- A productive evaluation, and one that closes the lane for low yield. -/
def hastyRun : List EvaluationCmd :=
  [⟨⟨seedLane, .exhaustive, 0⟩, productiveSignals⟩, ⟨⟨seedLane, .exhaustive, 60⟩, barrenSignals⟩]

/-- The second of them, from the state the first leaves. -/
def closingEvaluation : Except PyError ConvergenceDecision × ConvergenceStates :=
  evaluate latinTables hastyConfig .exhaustive (inMemoryConvergenceStateStore latinTables)
    (evaluationStep latinTables hastyConfig .exhaustive (inMemoryConvergenceStateStore latinTables)
      (inMemoryConvergenceStateStore latinTables).empty ⟨⟨seedLane, .exhaustive, 0⟩, productiveSignals⟩)
    ⟨seedLane, .exhaustive, 60⟩ barrenSignals

/-- The stored state of the closed lane keeps a raised soft budget; the decision says the plain one. -/
theorem lowYieldClose_keeps_multiplier :
    ¬ ConvergenceRunLaws latinTables hastyConfig .exhaustive (inMemoryConvergenceStateStore latinTables) hastyRun := by
  intro h
  obtain ⟨⟨_, ⟨_, hlawful⟩, _⟩, _⟩ := h
  cases hresult : closingEvaluation.1 with
  | error e =>
    have hdecides : closingEvaluation.1.toOption.isSome = true := by decide +kernel
    rw [hresult] at hdecides
    cases hdecides
  | ok decision =>
    have hdiffer : closingEvaluation.1.toOption.map (fun d => d.recommendedBranchSoftMultiplier) ≠
        ((closingEvaluation.2.get? seedLane).map fun st => st.branchSoftMultiplier) := by
      decide +kernel
    unfold closingEvaluation at hresult
    rw [hresult] at hlawful
    obtain ⟨_, after, _, hafter, hlaws⟩ := hlawful
    have hstored : closingEvaluation.2.get? seedLane = some after := Except.ok.inj hafter
    apply hdiffer
    rw [hstored]
    unfold closingEvaluation
    rw [hresult]
    exact congrArg some hlaws.agrees.2.1.symm

end NightScout
