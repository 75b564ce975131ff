import NightScout.Core.Budgets
import NightScout.Policy.Domains
import Mathlib.Data.Rat.Floor

/-!
# Convergence of branches

`recon/intelligence/convergence.py`: from the trend of a branch, the estimate of its yield and the pressure on
its budgets, a decision to go on, to advance a tier, to cool down or to close, and the state the branch has
afterwards. The two stores of these states are here and in `recon/storage/intelligence.py`.

A state is rewritten by `model_copy`, which validates nothing; so what holds of the states that come about is
proved of them and is no field. Amounts are exact rationals.
-/

namespace NightScout

open Lib

/-! ## Actions and tiers -/

inductive ConvergenceAction where
  | continue | advanceTier | cooldown | close
  deriving DecidableEq, Repr

inductive SearchTier where
  | micro | small | medium | large | exhaustive
  deriving DecidableEq, Repr

namespace SearchTier

def value : SearchTier → String
  | micro => "MICRO" | small => "SMALL" | medium => "MEDIUM" | large => "LARGE"
  | exhaustive => "EXHAUSTIVE"

def rank : SearchTier → ℕ
  | micro => 0 | small => 1 | medium => 2 | large => 3 | exhaustive => 4

def nextTier : SearchTier → SearchTier
  | micro => small | small => medium | medium => large | large | exhaustive => exhaustive

def isExhaustive (tier : SearchTier) : Bool := tier = exhaustive

theorem rank_le_nextTier (tier : SearchTier) : tier.rank ≤ tier.nextTier.rank := by
  cases tier <;> decide

theorem rank_nextTier_le (tier : SearchTier) : tier.nextTier.rank ≤ tier.rank + 1 := by
  cases tier <;> decide

theorem rank_injective {a b : SearchTier} (h : a.rank = b.rank) : a = b := by
  cases a <;> cases b <;> first | rfl | cases h

theorem rank_le_four (tier : SearchTier) : tier.rank ≤ 4 := by
  cases tier <;> decide

end SearchTier

/-! ## Pressure -/

structure BudgetMetricPressure where
  metric : BudgetMetric
  budgetClass : BudgetClass
  configuredLimit : ℚ
  effectiveLimit : ℚ
  committed : ℚ
  reserved : ℚ
  utilization : ℚ

structure BranchBudgetState where
  branchId : String
  lane : BudgetLane
  explorationReserveFraction : ℚ
  branchSoftMultiplier : ℚ := 1
  soft : List BudgetMetricPressure := []
  hard : List BudgetMetricPressure := []

/-- The highest utilization, or zero. -/
def highestPressure (pressures : List BudgetMetricPressure) : ℚ :=
  (pressures.map fun p => p.utilization).max?.getD 0

def BranchBudgetState.softPressure (budget : BranchBudgetState) : ℚ := highestPressure budget.soft

def BranchBudgetState.hardPressure (budget : BranchBudgetState) : ℚ := highestPressure budget.hard

/-! ## Yield -/

/-- A trend, as far as a decision reads it. -/
structure BranchYieldTrend where
  recentExecutions : ℕ
  recentHitRate : ℚ
  recentNovelAssetsPerExecution : ℚ
  convergenceSignal : ℚ
  lowMarginalYield : Bool

/-- An estimate, as far as a decision reads it. -/
structure YieldEstimate where
  expectedYield : ℚ
  uncertainty : ℚ
  expected_unit : 0 ≤ expectedYield ∧ expectedYield ≤ 1
  uncertainty_unit : 0 ≤ uncertainty ∧ uncertainty ≤ 1

/-! ## Configuration -/

structure ConvergenceConfig where
  minimumRecentExecutions : ℕ := 8
  productiveHitRate : ℚ := 12 / 100
  productiveNovelAssetsPerExecution : ℚ := 10 / 100
  advanceExpectedYield : ℚ := 58 / 100
  advanceProductiveStreak : ℕ := 2
  advanceMaxSoftPressure : ℚ := 80 / 100
  lowYieldConvergenceSignal : ℚ := 70 / 100
  lowInformationGain : ℚ := 35 / 100
  cooldownLowYieldStreak : ℕ := 2
  closeLowYieldStreak : ℕ := 4
  cooldownBaseSeconds : ℚ := 15 * 60
  cooldownMaxSeconds : ℚ := 24 * 60 * 60
  productiveSoftMultiplierMax : ℚ := 2
  productiveSoftMultiplierThreshold : ℚ := 62 / 100
  hardPressureCloseThreshold : ℚ := 1
  softPressureCooldownThreshold : ℚ := 1
  streaks_pos : 1 ≤ advanceProductiveStreak ∧ 1 ≤ cooldownLowYieldStreak := by decide
  close_le : cooldownLowYieldStreak ≤ closeLowYieldStreak := by decide
  base_pos : 0 < cooldownBaseSeconds := by decide +kernel
  base_le_max : cooldownBaseSeconds ≤ cooldownMaxSeconds := by decide +kernel
  one_le_max : 1 ≤ productiveSoftMultiplierMax := by decide +kernel
  thresholds_pos : 0 < hardPressureCloseThreshold ∧ 0 < softPressureCooldownThreshold := by
    decide +kernel

def defaultConvergenceConfig : ConvergenceConfig := {}

def clamp01 (value : ℚ) : ℚ := min 1 (max 0 value)

def productiveSoftMultiplier (config : ConvergenceConfig) (expectedYield : ℚ) : ℚ :=
  if expectedYield < config.productiveSoftMultiplierThreshold ∨ config.productiveSoftMultiplierMax ≤ 1 then 1
  else
    let denominator := max (1 / 1000000000) (1 - config.productiveSoftMultiplierThreshold)
    let progress := (expectedYield - config.productiveSoftMultiplierThreshold) / denominator
    min config.productiveSoftMultiplierMax
      (1 + clamp01 progress * (config.productiveSoftMultiplierMax - 1))

theorem productiveSoftMultiplier_mem (config : ConvergenceConfig) (expectedYield : ℚ) :
    1 ≤ productiveSoftMultiplier config expectedYield ∧
      productiveSoftMultiplier config expectedYield ≤ config.productiveSoftMultiplierMax := by
  unfold productiveSoftMultiplier
  split
  · exact ⟨le_refl 1, config.one_le_max⟩
  · have hclamp : 0 ≤ clamp01 ((expectedYield - config.productiveSoftMultiplierThreshold) /
        max (1 / 1000000000) (1 - config.productiveSoftMultiplierThreshold)) :=
      le_min zero_le_one (le_max_left _ _)
    have hextra := mul_nonneg hclamp (sub_nonneg.mpr config.one_le_max)
    exact ⟨le_min config.one_le_max (le_add_of_nonneg_right hextra), min_le_left _ _⟩

/-- To the nearest integer, and to the even one of two. -/
def roundHalfEven (x : ℚ) : ℤ :=
  if x - ⌊x⌋ < 1 / 2 then ⌊x⌋
  else if x - ⌊x⌋ = 1 / 2 ∧ ⌊x⌋ % 2 = 0 then ⌊x⌋
  else ⌊x⌋ + 1

/-- `timedelta(seconds=seconds)`. -/
def timedeltaSeconds (seconds : ℚ) : Except PyError Duration :=
  let microseconds := roundHalfEven (seconds * 1000000)
  if |microseconds| ≤ maxDuration then .ok microseconds
  else .error (.overflowError "days; must have magnitude <= 999999999")

/-- The seconds of `cooldown_duration`. -/
def cooldownSeconds (config : ConvergenceConfig) (cooldownNumber : ℕ) : ℚ :=
  let ordinal := max 1 cooldownNumber
  min (config.cooldownBaseSeconds * 2 ^ min (ordinal - 1) 20) config.cooldownMaxSeconds

def cooldownDuration (config : ConvergenceConfig) (cooldownNumber : ℕ) : Except PyError Duration :=
  timedeltaSeconds (cooldownSeconds config cooldownNumber)

/-- The longest cooldown. -/
def ConvergenceConfig.cooldownMax (config : ConvergenceConfig) : Duration :=
  roundHalfEven (config.cooldownMaxSeconds * 1000000)

theorem roundHalfEven_mono {x y : ℚ} (h : x ≤ y) : roundHalfEven x ≤ roundHalfEven y := by
  have hfloor := Int.floor_le_floor h
  rcases hfloor.lt_or_eq with hlt | heq
  · have hx : roundHalfEven x ≤ ⌊x⌋ + 1 := by
      unfold roundHalfEven
      split_ifs <;> omega
    have hy : ⌊y⌋ ≤ roundHalfEven y := by
      unfold roundHalfEven
      split_ifs <;> omega
    omega
  · -- on one unit interval only the fractions are compared
    unfold roundHalfEven
    rw [heq]
    have hfraction : x - ⌊y⌋ ≤ y - ⌊y⌋ := sub_le_sub_right h _
    split_ifs with hx hy hy' hx' hy hy' <;> first | omega | (exfalso; grind)

theorem cooldownDuration_le {config : ConvergenceConfig} {n : ℕ} {duration : Duration}
    (h : cooldownDuration config n = .ok duration) : duration ≤ config.cooldownMax := by
  unfold cooldownDuration timedeltaSeconds at h
  simp only at h
  split at h
  · cases h
    apply roundHalfEven_mono
    exact mul_le_mul_of_nonneg_right (min_le_right _ _) (by norm_num)
  · cases h

/-! ## States and decisions -/

structure ConvergenceState where
  targetKey : Option String := none
  branchId : String
  lane : BudgetLane
  tier : SearchTier
  branchSoftMultiplier : ℚ := 1
  evaluations : ℕ := 0
  lowYieldStreak : ℕ := 0
  productiveStreak : ℕ := 0
  cooldownCount : ℕ := 0
  cooldownUntil : Option Instant := none
  closed : Bool := false
  lastAction : Option ConvergenceAction := none
  updatedAt : Instant
  deriving DecidableEq

structure ConvergenceDecision where
  targetKey : Option String
  branchId : String
  lane : BudgetLane
  protectedExploration : Bool
  action : ConvergenceAction
  currentTier : SearchTier
  recommendedTier : SearchTier
  recommendedBranchSoftMultiplier : ℚ
  cooldownUntil : Option Instant
  expectedYield : ℚ
  informationGain : ℚ
  convergenceSignal : ℚ
  trend : BranchYieldTrend
  yieldEstimate : YieldEstimate
  budget : BranchBudgetState
  reasons : List String
  stateBefore : ConvergenceState
  stateAfter : ConvergenceState
  evaluatedAt : Instant

/-- What an evaluation gathers. -/
structure ConvergenceSignals where
  trend : BranchYieldTrend
  estimate : YieldEstimate
  budget : BranchBudgetState

section Deciding

variable (config : ConvergenceConfig) (maximumTier : SearchTier) (prior : ConvergenceState)
    (signals : ConvergenceSignals) (evaluatedAt : Instant)

/-- `_decision`. -/
def convergenceDecision (after : ConvergenceState) (action : ConvergenceAction)
    (recommendedTier : SearchTier) (multiplier : ℚ) (cooldownUntil : Option Instant)
    (reasons : List String) : ConvergenceDecision where
  targetKey := prior.targetKey
  branchId := prior.branchId
  lane := prior.lane
  protectedExploration := prior.lane = .exploration
  action
  currentTier := prior.tier
  recommendedTier
  recommendedBranchSoftMultiplier := max 1 multiplier
  cooldownUntil
  expectedYield := signals.estimate.expectedYield
  informationGain := signals.estimate.uncertainty
  convergenceSignal := signals.trend.convergenceSignal
  trend := signals.trend
  yieldEstimate := signals.estimate
  budget := signals.budget
  reasons
  stateBefore := prior
  stateAfter := after
  evaluatedAt

def historyReady : Bool := config.minimumRecentExecutions ≤ signals.trend.recentExecutions

def isProductive : Bool :=
  historyReady config signals &&
  (config.productiveHitRate ≤ signals.trend.recentHitRate ||
    config.productiveNovelAssetsPerExecution ≤ signals.trend.recentNovelAssetsPerExecution) &&
  config.advanceExpectedYield ≤ signals.estimate.expectedYield

def isLowYield : Bool :=
  historyReady config signals &&
  (signals.trend.lowMarginalYield ||
    config.lowYieldConvergenceSignal ≤ signals.trend.convergenceSignal &&
      signals.estimate.uncertainty ≤ config.lowInformationGain)

def nextLowYieldStreak : ℕ := if isLowYield config signals then prior.lowYieldStreak + 1 else 0

def nextProductiveStreak : ℕ := if isProductive config signals then prior.productiveStreak + 1 else 0

/-- The end of the next cooldown. -/
def nextCooldownUntil : Except PyError Instant := do
  addDelta evaluatedAt (← cooldownDuration config (prior.cooldownCount + 1))

/-- The state of a branch that is paused anew. -/
def cooledState (lowYieldStreak productiveStreak : ℕ) (cooldownUntil : Instant) : ConvergenceState :=
  { prior with
    evaluations := prior.evaluations + 1
    lowYieldStreak, productiveStreak
    cooldownCount := prior.cooldownCount + 1
    cooldownUntil := some cooldownUntil
    branchSoftMultiplier := 1
    lastAction := some .cooldown
    updatedAt := evaluatedAt }

/-- The pressure on the hard budget closes the branch. -/
def hardPressureHolds : Prop := config.hardPressureCloseThreshold ≤ signals.budget.hardPressure

instance : Decidable (hardPressureHolds config signals) := inferInstanceAs (Decidable (_ ≤ _))

/-- An earlier cooldown has not expired. -/
def coolingDown : Bool := prior.cooldownUntil.any (evaluatedAt < ·)

/-- The effective soft budget is spent. -/
def softPressureHolds : Prop := config.softPressureCooldownThreshold ≤ signals.budget.softPressure

instance : Decidable (softPressureHolds config signals) := inferInstanceAs (Decidable (_ ≤ _))

/-- A productive branch goes up a tier. -/
def advances : Prop :=
  isProductive config signals = true ∧
    config.advanceProductiveStreak ≤ nextProductiveStreak config prior signals ∧
    prior.tier.rank < maximumTier.rank ∧
    signals.budget.softPressure < config.advanceMaxSoftPressure

instance : Decidable (advances config maximumTier prior signals) :=
  inferInstanceAs (Decidable (_ ∧ _ ∧ _ ∧ _))

/-- The yield has been low for long enough to pause. -/
def yieldsLittle : Prop :=
  isLowYield config signals = true ∧
    config.cooldownLowYieldStreak ≤ nextLowYieldStreak config prior signals

instance : Decidable (yieldsLittle config prior signals) := inferInstanceAs (Decidable (_ ∧ _))

/-- The yield has been low for long enough to close the lane. -/
def closesForLowYield : Prop :=
  prior.lane ≠ .exploration ∧ prior.tier.isExhaustive = true ∧
    config.closeLowYieldStreak ≤ nextLowYieldStreak config prior signals ∧
    signals.estimate.uncertainty ≤ config.lowInformationGain

instance : Decidable (closesForLowYield config prior signals) :=
  inferInstanceAs (Decidable (_ ∧ _ ∧ _ ∧ _))

/-- Nothing comes before closing the lane for low yield. -/
def lowYieldCloseTaken : Prop :=
  prior.closed = false ∧ ¬ hardPressureHolds config signals ∧ coolingDown prior evaluatedAt = false ∧
    ¬ softPressureHolds config signals ∧ ¬ advances config maximumTier prior signals ∧
    yieldsLittle config prior signals ∧ closesForLowYield config prior signals

instance : Decidable (lowYieldCloseTaken config maximumTier prior signals evaluatedAt) :=
  inferInstanceAs (Decidable (_ ∧ _ ∧ _ ∧ _ ∧ _ ∧ _ ∧ _))

/-- `ConvergenceController._decide`. -/
def decideConvergence : Except PyError ConvergenceDecision :=
  let exploration := prior.lane = .exploration
  let multiplier := productiveSoftMultiplier config signals.estimate.expectedYield
  let decision := convergenceDecision prior signals evaluatedAt
  if prior.closed then
    .ok (decision
      { prior with branchSoftMultiplier := 1, lastAction := some .close, updatedAt := evaluatedAt }
      .close prior.tier 1 none ["branch is already closed"])
  else if hardPressureHolds config signals then
    .ok (decision
      { prior with
        evaluations := prior.evaluations + 1
        branchSoftMultiplier := 1
        closed := true
        cooldownUntil := none
        lastAction := some .close
        updatedAt := evaluatedAt }
      .close prior.tier 1 none
      ["hard branch budget is exhausted; future positive demand cannot be authorized"])
  else if coolingDown prior evaluatedAt then
    .ok (decision
      { prior with branchSoftMultiplier := 1, lastAction := some .cooldown, updatedAt := evaluatedAt }
      .cooldown prior.tier 1 prior.cooldownUntil
      ("existing cooldown has not expired" ::
        if exploration then ["exploration reserve remains protected during cooldown"] else []))
  else
    let evaluations := prior.evaluations + 1
    let lowYieldStreak := nextLowYieldStreak config prior signals
    let productiveStreak := nextProductiveStreak config prior signals
    if softPressureHolds config signals then do
      let cooldownUntil ← nextCooldownUntil config prior evaluatedAt
      return decision (cooledState prior evaluatedAt lowYieldStreak productiveStreak cooldownUntil)
        .cooldown prior.tier 1 (some cooldownUntil)
        ("effective soft branch budget is exhausted; preserve frontier and allow budget policy to defer further work" ::
          if exploration then ["exploration lane used the full protected soft allowance; cooldown is temporary rather than permanent close"] else [])
    else if historyReady config signals = false then
      .ok (decision
        { prior with
          evaluations, lowYieldStreak := 0, productiveStreak := 0, cooldownUntil := none
          branchSoftMultiplier := 1, lastAction := some .continue, updatedAt := evaluatedAt }
        .continue prior.tier 1 none
        ["insufficient recent history; continue bounded work to reduce uncertainty instead of treating sparse evidence as zero yield"])
    else if advances config maximumTier prior signals then
      .ok (decision
        { prior with
          evaluations, tier := prior.tier.nextTier, lowYieldStreak := 0, productiveStreak := 0
          cooldownUntil := none, branchSoftMultiplier := multiplier
          lastAction := some .advanceTier, updatedAt := evaluatedAt }
        .advanceTier prior.tier.nextTier multiplier none
        ["recent branch yield remains productive",
          "advance exactly one tier while remaining below the configured soft-budget pressure threshold"])
    else if yieldsLittle config prior signals then
      if closesForLowYield config prior signals then
        -- the soft multiplier of the state is left as it is
        .ok (decision
          { prior with
            evaluations, lowYieldStreak, productiveStreak := 0, closed := true, cooldownUntil := none
            lastAction := some .close, updatedAt := evaluatedAt }
          .close prior.tier 1 none
          ["normal lane is already at EXHAUSTIVE tier", "repeated low marginal yield persists",
            "remaining information gain is low"])
      else do
        let cooldownUntil ← nextCooldownUntil config prior evaluatedAt
        return decision (cooledState prior evaluatedAt lowYieldStreak 0 cooldownUntil)
          .cooldown prior.tier 1 (some cooldownUntil)
          ("recent marginal yield is repeatedly low; pause the branch instead of continuously spending budget" ::
            if exploration then ["exploration lane is not permanently closed by low yield; the protected lane will be eligible again after cooldown"] else [])
    else
      let multiplier := if isProductive config signals then multiplier else 1
      .ok (decision
        { prior with
          evaluations, lowYieldStreak, productiveStreak, cooldownUntil := none
          branchSoftMultiplier := multiplier, lastAction := some .continue, updatedAt := evaluatedAt }
        .continue prior.tier multiplier none
        [if isProductive config signals then "branch is productive but has not yet satisfied the consecutive-evaluation threshold for tier advancement"
          else if isLowYield config signals then "low-yield signal is present but has not persisted long enough for cooldown"
          else "branch remains within acceptable marginal-yield bounds"])

/-! ## What a decision can be -/

/-- The state after a decision, with its action, tier, multiplier and cooldown. -/
inductive ConvergenceOutcome :
    ConvergenceState → ConvergenceAction → SearchTier → ℚ → Option Instant → Prop where
  | alreadyClosed (hclosed : prior.closed = true) :
      ConvergenceOutcome
        { prior with branchSoftMultiplier := 1, lastAction := some .close, updatedAt := evaluatedAt }
        .close prior.tier 1 none
  | hardClose (hopen : prior.closed = false) (hpressure : hardPressureHolds config signals) :
      ConvergenceOutcome
        { prior with
          evaluations := prior.evaluations + 1, branchSoftMultiplier := 1, closed := true
          cooldownUntil := none, lastAction := some .close, updatedAt := evaluatedAt }
        .close prior.tier 1 none
  | stillCooling (hopen : prior.closed = false) (hcooling : coolingDown prior evaluatedAt = true) :
      ConvergenceOutcome
        { prior with branchSoftMultiplier := 1, lastAction := some .cooldown, updatedAt := evaluatedAt }
        .cooldown prior.tier 1 prior.cooldownUntil
  | pause (hopen : prior.closed = false)
      (hnot : ¬ lowYieldCloseTaken config maximumTier prior signals evaluatedAt)
      (lowYieldStreak productiveStreak : ℕ) (cooldownUntil : Instant)
      (huntil : nextCooldownUntil config prior evaluatedAt = .ok cooldownUntil) :
      ConvergenceOutcome (cooledState prior evaluatedAt lowYieldStreak productiveStreak cooldownUntil)
        .cooldown prior.tier 1 (some cooldownUntil)
  | goOn (hopen : prior.closed = false)
      (hnot : ¬ lowYieldCloseTaken config maximumTier prior signals evaluatedAt)
      (lowYieldStreak productiveStreak : ℕ) (multiplier : ℚ)
      (hstreak : lowYieldStreak < config.cooldownLowYieldStreak)
      (hmultiplier : 1 ≤ multiplier ∧ multiplier ≤ config.productiveSoftMultiplierMax) :
      ConvergenceOutcome
        { prior with
          evaluations := prior.evaluations + 1, lowYieldStreak, productiveStreak, cooldownUntil := none
          branchSoftMultiplier := multiplier, lastAction := some .continue, updatedAt := evaluatedAt }
        .continue prior.tier multiplier none
  | advance (hopen : prior.closed = false) (hadvances : advances config maximumTier prior signals) :
      ConvergenceOutcome
        { prior with
          evaluations := prior.evaluations + 1, tier := prior.tier.nextTier, lowYieldStreak := 0
          productiveStreak := 0, cooldownUntil := none
          branchSoftMultiplier := productiveSoftMultiplier config signals.estimate.expectedYield
          lastAction := some .advanceTier, updatedAt := evaluatedAt }
        .advanceTier prior.tier.nextTier
        (productiveSoftMultiplier config signals.estimate.expectedYield) none
  | lowYieldClose (htaken : lowYieldCloseTaken config maximumTier prior signals evaluatedAt) :
      ConvergenceOutcome
        { prior with
          evaluations := prior.evaluations + 1
          lowYieldStreak := nextLowYieldStreak config prior signals, productiveStreak := 0
          closed := true, cooldownUntil := none, lastAction := some .close, updatedAt := evaluatedAt }
        .close prior.tier 1 none

/-- Every decision is one of these. -/
theorem decideConvergence_ok {decision : ConvergenceDecision}
    (h : decideConvergence config maximumTier prior signals evaluatedAt = .ok decision) :
    ∃ after action tier multiplier cooldownUntil reasons,
      decision = convergenceDecision prior signals evaluatedAt after action tier multiplier cooldownUntil reasons ∧
      ConvergenceOutcome config maximumTier prior signals evaluatedAt after action tier multiplier cooldownUntil := by
  have hmultiplier := productiveSoftMultiplier_mem config signals.estimate.expectedYield
  have hone : 1 ≤ (1 : ℚ) ∧ 1 ≤ config.productiveSoftMultiplierMax := ⟨le_refl 1, config.one_le_max⟩
  unfold decideConvergence at h
  simp only at h
  split at h
  next hclosed =>
    cases h
    exact ⟨_, _, _, _, _, _, rfl, .alreadyClosed hclosed⟩
  next hopen =>
  have hopen := Bool.eq_false_iff.mpr hopen
  split at h
  next hpressure =>
    cases h
    exact ⟨_, _, _, _, _, _, rfl, .hardClose hopen hpressure⟩
  next hpressure =>
  split at h
  next hcooling =>
    cases h
    exact ⟨_, _, _, _, _, _, rfl, .stillCooling hopen hcooling⟩
  next hcooling =>
  have hcooling := Bool.eq_false_iff.mpr hcooling
  split at h
  next hsoft =>
    obtain ⟨cooldownUntil, huntil, h⟩ := bind_ok h
    cases h
    exact ⟨_, _, _, _, _, _, rfl,
      .pause hopen (fun htaken => htaken.2.2.2.1 hsoft) _ _ cooldownUntil huntil⟩
  next hsoft =>
  split at h
  next hready =>
    cases h
    have hnot : ¬ lowYieldCloseTaken config maximumTier prior signals evaluatedAt := by
      intro htaken
      have hlow := htaken.2.2.2.2.2.1.1
      unfold isLowYield at hlow
      rw [hready] at hlow
      cases hlow
    exact ⟨_, _, _, _, _, _, rfl, .goOn hopen hnot 0 0 1 config.streaks_pos.2 hone⟩
  split at h
  next hadvances =>
    cases h
    exact ⟨_, _, _, _, _, _, rfl, .advance hopen hadvances⟩
  next hadvances =>
  split at h
  next hlittle =>
    split at h
    next hcloses =>
      cases h
      exact ⟨_, _, _, _, _, _, rfl,
        .lowYieldClose ⟨hopen, hpressure, hcooling, hsoft, hadvances, hlittle, hcloses⟩⟩
    next hcloses =>
      obtain ⟨cooldownUntil, huntil, h⟩ := bind_ok h
      cases h
      exact ⟨_, _, _, _, _, _, rfl,
        .pause hopen (fun htaken => hcloses htaken.2.2.2.2.2.2) _ 0 cooldownUntil huntil⟩
  next hlittle =>
    cases h
    -- a streak that is not yet long enough, or none
    have hstreak : nextLowYieldStreak config prior signals < config.cooldownLowYieldStreak := by
      by_cases hlow : isLowYield config signals = true
      · exact not_le.mp fun hle => hlittle ⟨hlow, hle⟩
      · unfold nextLowYieldStreak
        rw [if_neg hlow]
        exact config.streaks_pos.2
    refine ⟨_, _, _, _, _, _, rfl,
      .goOn hopen (fun htaken => hlittle htaken.2.2.2.2.2.1) _ _ _ hstreak ?_⟩
    split
    · exact hmultiplier
    · exact hone

end Deciding

/-! ## Stores -/

section Stores

variable (tables : Tables)

/-- `target_key.lower() if target_key is not None else None`. -/
def lowerTarget (targetKey : Option String) : Option String := targetKey.map (strLower tables)

/-- The validator of a target key. -/
def normalizeTargetKey (targetKey : Option String) : Option String :=
  targetKey.bind fun key =>
    if strLower tables (strip key) = "" then none else some (strLower tables (strip key))

/-- A branch and a lane of it, as a caller names them. -/
structure BranchLane where
  targetKey : Option String
  branchId : String
  lane : BudgetLane
  deriving DecidableEq

/-- The key a state is put under. -/
def ConvergenceState.key (state : ConvergenceState) : BranchLane := ⟨state.targetKey, state.branchId, state.lane⟩

/-- The `ConvergenceStateStore` protocol. -/
structure ConvergenceStateStore (σ : Type) where
  empty : σ
  get : σ → BranchLane → Except PyError (Option ConvergenceState)
  put : σ → ConvergenceState → Except PyError Unit × σ

abbrev ConvergenceStates := Dict BranchLane ConvergenceState

def inMemoryConvergenceStateStore : ConvergenceStateStore ConvergenceStates where
  empty := .empty
  get states lane := .ok (states.get? { lane with targetKey := lowerTarget tables lane.targetKey })
  put states state := (.ok (), states.set state.key state)

def databaseTargetKey : Option String → String
  | none => ""
  | some key => strLower tables (strip key)

/-- The columns that identify a row. -/
abbrev ConvergenceRowKey := String × String × BudgetLane

/-- `SQLiteConvergenceStateStore`: a row holds the whole state as JSON. -/
def sqliteConvergenceStateStore :
    ConvergenceStateStore (Dict ConvergenceRowKey ConvergenceState) where
  empty := .empty
  get rows lane :=
    match rows.get? (databaseTargetKey tables lane.targetKey, lane.branchId, lane.lane) with
    | none => .ok none
    | some state =>
      if state.targetKey ≠ lowerTarget tables lane.targetKey ∨ state.branchId ≠ lane.branchId ∨
          state.lane ≠ lane.lane then
        .error (.runtimeError "convergence state row identity/payload mismatch")
      else .ok (some state)
  put rows state :=
    let key := (databaseTargetKey tables state.targetKey, state.branchId, state.lane)
    match rows.get? key with
    | none => (.ok (), rows.set key state)
    | some stored =>
      -- an older state does not replace a newer one
      if state.updatedAt < stored.updatedAt then (.ok (), rows)
      else (.ok (), rows.set key state)

end Stores

/-! ## Evaluating -/

section Evaluating

variable (tables : Tables) (config : ConvergenceConfig) (maximumTier : SearchTier)

/-- The arguments of `evaluate`, with the target key of its seed event. -/
structure EvaluationRequest where
  lane : BranchLane
  currentTier : SearchTier
  now : Instant

/-- The state an evaluation starts from. -/
def priorState (request : EvaluationRequest) (stored : Option ConvergenceState) :
    Except PyError ConvergenceState :=
  match stored with
  | none =>
    if strip request.lane.branchId = "" then .error (.valueError "branch_id must not be blank")
    else .ok {
      targetKey := normalizeTargetKey tables request.lane.targetKey
      branchId := strip request.lane.branchId
      lane := request.lane.lane
      tier := request.currentTier
      updatedAt := request.now }
  | some prior =>
    -- the caller is authoritative for the active tier
    .ok (if prior.tier ≠ request.currentTier ∧ prior.closed = false then
      { prior with tier := request.currentTier } else prior)

def evaluate {σ : Type} (store : ConvergenceStateStore σ) (s : σ) (request : EvaluationRequest)
    (signals : ConvergenceSignals) : Except PyError ConvergenceDecision × σ :=
  if maximumTier.rank < request.currentTier.rank then
    (.error (.valueError s!"current tier {request.currentTier.value} exceeds configured maximum tier {
      maximumTier.value}"), s)
  else
    match (do
      let prior ← priorState tables request (← store.get s request.lane)
      decideConvergence config maximumTier prior signals request.now) with
    | .error e => (.error e, s)
    | .ok decision =>
      match store.put s decision.stateAfter with
      | (.error e, s') => (.error e, s')
      | (.ok (), s') => (.ok decision, s')

end Evaluating

end NightScout
