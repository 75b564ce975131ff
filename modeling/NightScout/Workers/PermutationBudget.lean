import NightScout.Core.Budgets
import NightScout.Core.Scheduler
import NightScout.Workers.Permutations

/-!
# What a permutation task reserves

`PermutationBudgetPlanner` of `recon/workers/permutations.py` reserves the candidates of a lane before the task runs;
its share is that of the configured total. The worker shares out the total it is given. Both shares grow with the
total, so a smaller total stays within the reservation (`share_le_planned`).
-/

namespace NightScout

structure BudgetPlan where
  demand : BudgetDemand := {}
  context : BudgetContext := laneContext .normal

def actionGenerateTargeted : String := "generate_targeted"

def actionGenerateExploration : String := "generate_exploration"

/-- `_lane_for_action`. -/
def permutationsLaneForAction (action : String) : Option CandidateLane :=
  if action = actionGenerateTargeted then some .targeted
  else if action = actionGenerateExploration then some .exploration
  else none

/-- The demand of the planner. -/
def plannedDemand (cost : ℚ) (hcost : 0 ≤ cost) (candidateLimit : ℕ) : BudgetDemand where
  tasks := 1
  cost
  candidates := candidateLimit
  requests := 0
  concurrentTasks := 1
  nonneg := by simp [hcost]

namespace PermutationsConfig

variable (config : PermutationsConfig)

def targetedCandidateLimit : ℕ := config.targetedLimitFor config.effectiveMaxCandidates

def explorationCandidateLimit : ℕ := config.explorationLimitFor config.effectiveMaxCandidates

/-- `PermutationBudgetPlanner.plan`. -/
def plan (task : Task) (schedule : ScheduleDecision) : Except PyError BudgetPlan :=
  if task.worker.text ≠ "permutations" then
    .error (.valueError "PermutationBudgetPlanner received a non-permutations task")
  else
    let hcost := schedule.signals.cost_pos.le
    if task.action.text = actionGenerateTargeted then
      .ok { demand := plannedDemand schedule.signals.estimatedCost hcost config.targetedCandidateLimit,
            context := laneContext .normal }
    else if task.action.text = actionGenerateExploration then
      .ok { demand := plannedDemand schedule.signals.estimatedCost hcost config.explorationCandidateLimit,
            context := laneContext .exploration }
    else .error (.valueError s!"unknown permutations action: {task.action.text}")

/-- A lane's share of a total. -/
def shareOf (lane : CandidateLane) (total : ℕ) : ℕ :=
  match lane with
  | .targeted => config.targetedLimitFor total
  | .exploration => config.explorationLimitFor total

variable {config} {total total' : ℕ} {lane : CandidateLane}

theorem explorationLimitFor_le : config.explorationLimitFor total ≤ total := min_le_right _ _

theorem shares_add : config.targetedLimitFor total + config.explorationLimitFor total = total :=
  Nat.sub_add_cancel explorationLimitFor_le

theorem explorationLimitFor_mono (h : total ≤ total') :
    config.explorationLimitFor total ≤ config.explorationLimitFor total' := by
  have hceil : ⌈(total : ℚ) * config.explorationFraction⌉₊ ≤ ⌈(total' : ℚ) * config.explorationFraction⌉₊ := by
    apply Nat.ceil_mono
    exact mul_le_mul_of_nonneg_right (by exact_mod_cast h) config.fraction_open.1.le
  exact min_le_min (max_le_max_left _ hceil) h

/-- One more candidate in all takes at most one more for exploration. -/
theorem explorationLimitFor_succ : config.explorationLimitFor (total + 1) ≤ config.explorationLimitFor total + 1 := by
  have hceil : ⌈((total + 1 : ℕ) : ℚ) * config.explorationFraction⌉₊ ≤
      ⌈(total : ℚ) * config.explorationFraction⌉₊ + 1 := by
    apply Nat.ceil_le.mpr
    have hle := Nat.le_ceil ((total : ℚ) * config.explorationFraction)
    have hfraction := config.fraction_open.2
    push_cast
    linarith
  unfold explorationLimitFor
  omega

theorem targetedLimitFor_mono (h : total ≤ total') : config.targetedLimitFor total ≤ config.targetedLimitFor total' := by
  induction total', h using Nat.le_induction with
  | base => exact le_refl _
  | succ total' _ ih =>
    have hsucc : config.explorationLimitFor (total' + 1) ≤ config.explorationLimitFor total' + 1 :=
      explorationLimitFor_succ
    unfold targetedLimitFor at ih ⊢
    omega

/-- The share of targeted words grows without bound. -/
theorem exists_targetedLimitFor (config : PermutationsConfig) (n : ℕ) :
    ∃ total, total ≠ 0 ∧ n ≤ config.targetedLimitFor total := by
  obtain ⟨-, hlt⟩ := config.fraction_open
  have hleft : 0 < 1 - config.explorationFraction := sub_pos.mpr hlt
  obtain ⟨bound, hbound⟩ : ∃ bound : ℕ, (n + 1) / (1 - config.explorationFraction) ≤ bound := ⟨_, Nat.le_ceil _⟩
  rw [div_le_iff₀ hleft] at hbound
  refine ⟨bound + config.minimumExplorationCandidates + n, by have := config.minimum_pos; omega, ?_⟩
  have hceil : ⌈((bound + config.minimumExplorationCandidates + n : ℕ) : ℚ) * config.explorationFraction⌉₊ + n ≤
      bound + config.minimumExplorationCandidates + n := by
    have hrest : ((config.minimumExplorationCandidates + n : ℕ) : ℚ) * config.explorationFraction ≤
        (config.minimumExplorationCandidates + n : ℕ) :=
      mul_le_of_le_one_right (Nat.cast_nonneg _) hlt.le
    have hall : ⌈((bound + config.minimumExplorationCandidates + n : ℕ) : ℚ) * config.explorationFraction⌉₊ ≤
        bound + config.minimumExplorationCandidates := by
      apply Nat.ceil_le.mpr
      push_cast at hrest ⊢
      linarith
    omega
  unfold targetedLimitFor explorationLimitFor
  omega

theorem shareOf_mono (h : total ≤ total') : config.shareOf lane total ≤ config.shareOf lane total' := by
  cases lane with
  | targeted => exact targetedLimitFor_mono h
  | exploration => exact explorationLimitFor_mono h

/-- What a plan reserves for a lane. -/
theorem plan_candidates {task : Task} {schedule : ScheduleDecision} {plan : BudgetPlan}
    (hplan : config.plan task schedule = .ok plan) (hlane : permutationsLaneForAction task.action.text = some lane) :
    plan.demand.candidates = config.shareOf lane config.effectiveMaxCandidates := by
  obtain ⟨-, hplan⟩ := guard_ok hplan
  unfold permutationsLaneForAction at hlane
  split at hlane
  next haction =>
    simp only [haction, if_true] at hplan
    cases hplan
    cases hlane
    rfl
  next hnot =>
    simp only [hnot, if_false] at hplan
    split at hlane
    next haction =>
      simp only [haction, if_true] at hplan
      cases hplan
      cases hlane
      rfl
    next => cases hlane

/-- **A share stays within the reservation.** -/
theorem share_le_planned {task : Task} {schedule : ScheduleDecision} {plan : BudgetPlan}
    (hplan : config.plan task schedule = .ok plan) (hlane : permutationsLaneForAction task.action.text = some lane)
    (htotal : total ≤ config.effectiveMaxCandidates) : (config.shareOf lane total : ℚ) ≤ plan.demand.candidates := by
  rw [plan_candidates hplan hlane]
  exact_mod_cast shareOf_mono htotal

end PermutationsConfig

end NightScout
