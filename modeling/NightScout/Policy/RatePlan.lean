import Mathlib.Algebra.Order.Field.Basic
import Mathlib.Tactic.Linarith
import NightScout.Lib.OrderedSets
import NightScout.Policy.RateLimit

/-!
# The advertised rate

`RateLimiter.plan`: what a worker is told to configure its tools with. The least rate and the least concurrency
of the matching rules are the ceiling and the concurrency hint; the rate hint is the least of the rates, each
divided by the concurrency of its own rule.

So many consumers as the concurrency hint, each at the rate hint, stay within the ceiling if the two hints fit
together; a rule that limits only the rate is not divided by the concurrency of another
(`plan_safe_iff`).
-/

namespace NightScout

open Lib

structure RateLimitPlan where
  taskId : String
  resourceKeys : List String
  matchedRuleIds : List String
  aggregateRpsCeiling : Option ℚ := none
  safeRpsHint : Option ℚ := none
  maxConcurrencyHint : Option ℕ := none
  matched : Bool

/-- What one rule allows one of its consumers. -/
def RateLimitRule.safeRps (rule : RateLimitRule) : Option ℚ :=
  rule.requestsPerSecond.map fun rps =>
    match rule.maxConcurrency with
    | some concurrency => rps / concurrency
    | none => rps

/-- `{rule.rule_id: rule for rule, _resource in matches}`. -/
def matchedRules (found : List (RateLimitRule × Option String)) : Dict String RateLimitRule :=
  ofList (fun rule => rule.ruleId.text) (found.map Prod.fst)

/-- `RateLimiter.plan`. -/
def RateLimitProfile.plan (lower : String → String) (profile : RateLimitProfile) (task : Task)
    (context : RateLimitContext) : RateLimitPlan :=
  let found := matchingRuleResources lower profile task.worker.text context
  let resourceKeys := context.resourceKeys.insertionSort (· ≤ ·)
  if found.isEmpty then { taskId := task.taskId, resourceKeys, matchedRuleIds := [], matched := false }
  else
    let rules := matchedRules found
    { taskId := task.taskId
      resourceKeys
      matchedRuleIds := rules.keys.insertionSort (· ≤ ·)
      aggregateRpsCeiling := (rules.values.filterMap RateLimitRule.requestsPerSecond).min?
      safeRpsHint := (rules.values.filterMap RateLimitRule.safeRps).min?
      maxConcurrencyHint := (rules.values.filterMap RateLimitRule.maxConcurrency).min?
      matched := true }

section Plan

variable {lower : String → String} {profile : RateLimitProfile} {task : Task} {context : RateLimitContext}

/-- The rules of the profile that match. -/
def RateLimitProfile.Matches (lower : String → String) (profile : RateLimitProfile) (task : Task)
    (context : RateLimitContext) (rule : RateLimitRule) : Prop :=
  rule ∈ (matchingRuleResources lower profile task.worker.text context).map Prod.fst

/-- **What is asked of a plan**: its ceiling is no rule's rate exceeded, and so many consumers as it allows, each
    at its rate, stay within the ceiling. -/
def RateLimitProfile.PlanSafe (lower : String → String) (profile : RateLimitProfile) (task : Task)
    (context : RateLimitContext) : Prop :=
  ∀ k s c, (profile.plan lower task context).maxConcurrencyHint = some k →
    (profile.plan lower task context).safeRpsHint = some s →
    (profile.plan lower task context).aggregateRpsCeiling = some c →
    k * s ≤ c ∧ ∀ rule, profile.Matches lower task context rule → ∀ rps ∈ rule.requestsPerSecond, c ≤ rps

/-- The rules that are looked at are those that match. -/
theorem mem_matchedRules (rule : RateLimitRule) :
    rule ∈ (matchedRules (matchingRuleResources lower profile task.worker.text context)).values ↔
      profile.Matches lower task context rule := by
  unfold RateLimitProfile.Matches matchedRules
  constructor
  · exact mem_values_ofList
  · intro hmem
    obtain ⟨other, hother⟩ : ∃ other, (ofList (fun rule : RateLimitRule => rule.ruleId.text)
        ((matchingRuleResources lower profile task.worker.text context).map Prod.fst)).get? rule.ruleId.text =
        some other := exists_get?_ofList hmem
    obtain ⟨hfound, hid⟩ := ofList_key hother
    -- rules of a profile with one id are one rule
    have hprofile : ∀ rule ∈ (matchingRuleResources lower profile task.worker.text context).map Prod.fst,
        rule ∈ profile.rules := by
      intro rule hrule
      obtain ⟨e, he, rfl⟩ := List.mem_map.mp hrule
      exact rule_mem_of_match he
    obtain rfl := List.inj_on_of_nodup_map profile.rules_nodup (hprofile other hfound) (hprofile rule hmem) hid
    exact Dict.mem_values_iff.mpr ⟨_, hother⟩

/-- A hint is the least of what the matching rules set, if any does. -/
theorem min_matching {α : Type} [LinearOrder α] (f : RateLimitRule → Option α) (a : α) :
    ((matchedRules (matchingRuleResources lower profile task.worker.text context)).values.filterMap f).min? = some a ↔
      (∃ rule, profile.Matches lower task context rule ∧ f rule = some a) ∧
        ∀ rule, profile.Matches lower task context rule → ∀ b ∈ f rule, a ≤ b := by
  simp only [List.min?_eq_some_iff, List.mem_filterMap, mem_matchedRules]
  apply and_congr_right
  intro _
  constructor
  · intro h rule hrule b hb
    exact h b ⟨rule, hrule, hb⟩
  · rintro h b ⟨rule, hrule, hb⟩
    exact h rule hrule b hb

/-- Without a match there is nothing to take the least of. -/
theorem plan_hints : (profile.plan lower task context).maxConcurrencyHint =
      ((matchedRules (matchingRuleResources lower profile task.worker.text context)).values.filterMap
        RateLimitRule.maxConcurrency).min? ∧ (profile.plan lower task context).safeRpsHint =
      ((matchedRules (matchingRuleResources lower profile task.worker.text context)).values.filterMap
        RateLimitRule.safeRps).min? ∧ (profile.plan lower task context).aggregateRpsCeiling =
      ((matchedRules (matchingRuleResources lower profile task.worker.text context)).values.filterMap
        RateLimitRule.requestsPerSecond).min? := by
  unfold RateLimitProfile.plan
  simp only
  split
  next hempty =>
    rw [List.isEmpty_iff.mp hempty]
    exact ⟨rfl, rfl, rfl⟩
  next => exact ⟨rfl, rfl, rfl⟩

/-- The hints fit together: nobody is limited in concurrency, or nobody in rate, or a rule allows one consumer,
    or a rule that limits both leaves its consumers so little that as many of them as another rule allows stay
    within every rate. -/
def RateLimitProfile.HintsFit (lower : String → String) (profile : RateLimitProfile) (task : Task)
    (context : RateLimitContext) : Prop :=
  (∀ rule, profile.Matches lower task context rule → rule.maxConcurrency = none) ∨
  (∀ rule, profile.Matches lower task context rule → rule.requestsPerSecond = none) ∨
  (∃ rule, profile.Matches lower task context rule ∧ rule.maxConcurrency = some 1) ∨
  ∃ both, profile.Matches lower task context both ∧ ∃ rps ∈ both.requestsPerSecond, ∃ m ∈ both.maxConcurrency,
    ∃ least, profile.Matches lower task context least ∧ ∃ k ∈ least.maxConcurrency,
      ∀ rule, profile.Matches lower task context rule → ∀ other ∈ rule.requestsPerSecond, k * (rps / m) ≤ other

/-- A plan has the hints where a rule limits the concurrency and a rule the rate. -/
theorem exists_min {α : Type} [LinearOrder α] {f : RateLimitRule → Option α}
    (h : ¬ ∀ rule, profile.Matches lower task context rule → f rule = none) :
    ∃ a, ((matchedRules (matchingRuleResources lower profile task.worker.text context)).values.filterMap f).min? =
      some a := by
  push Not at h
  obtain ⟨rule, hrule, hsome⟩ := h
  obtain ⟨a, ha⟩ := Option.ne_none_iff_exists'.mp hsome
  apply Option.isSome_iff_exists.mp
  apply List.isSome_min?_of_mem
  exact List.mem_filterMap.mpr ⟨rule, (mem_matchedRules rule).mpr hrule, ha⟩

/-- A rule's own rate is no less than what it leaves a consumer. -/
theorem safeRps_le {rule : RateLimitRule} {rps safe : ℚ} (hrps : rule.requestsPerSecond = some rps)
    (hsafe : rule.safeRps = some safe) : safe ≤ rps := by
  unfold RateLimitRule.safeRps at hsafe
  rw [hrps, Option.map_some, Option.some.injEq] at hsafe
  subst hsafe
  cases hm : rule.maxConcurrency with
  | none => exact le_rfl
  | some m =>
    have hpos := rule.rps_pos rps hrps
    have hone : (1 : ℚ) ≤ m := by exact_mod_cast rule.max_pos m hm
    exact div_le_self hpos.le hone

theorem safe_of_fit (h : profile.HintsFit lower task context) : profile.PlanSafe lower task context := by
  intro k s c hk hs hc
  rw [plan_hints.1, min_matching] at hk
  rw [plan_hints.2.1, min_matching] at hs
  rw [plan_hints.2.2, min_matching] at hc
  obtain ⟨⟨leastRule, hleastRule, hleast⟩, hk⟩ := hk
  obtain ⟨⟨safeRule, hsafeRule, hsafe⟩, hs⟩ := hs
  obtain ⟨⟨ceilingRule, hceilingRule, hceiling⟩, hc⟩ := hc
  refine ⟨?_, hc⟩
  rcases h with hnone | hnone | ⟨one, hone, hsome⟩ | ⟨both, hboth, rps, hrps, m, hm, other, hother, j, hj, hle⟩
  · rw [hnone leastRule hleastRule] at hleast
    cases hleast
  · rw [hnone ceilingRule hceilingRule] at hceiling
    cases hceiling
  · -- one consumer alone has at most what the rule with the ceiling leaves it
    have hk1 : k = 1 := le_antisymm (hk one hone 1 hsome) (leastRule.max_pos k hleast)
    have hexists : ∃ t, ceilingRule.safeRps = some t := by
      unfold RateLimitRule.safeRps
      rw [hceiling]
      exact ⟨_, rfl⟩
    obtain ⟨t, ht⟩ := hexists
    rw [hk1, Nat.cast_one, one_mul]
    exact (hs ceilingRule hceilingRule t ht).trans (safeRps_le hceiling ht)
  · have hsafeBoth : both.safeRps = some (rps / m) := by
      unfold RateLimitRule.safeRps
      rw [hrps, hm]
      rfl
    have hpos : 0 ≤ rps / m := div_nonneg (both.rps_pos rps hrps).le (Nat.cast_nonneg m)
    have hkj : (k : ℚ) ≤ j := by exact_mod_cast hk other hother j hj
    calc (k : ℚ) * s ≤ k * (rps / m) :=
          mul_le_mul_of_nonneg_left (hs both hboth _ hsafeBoth) (Nat.cast_nonneg k)
      _ ≤ j * (rps / m) := mul_le_mul_of_nonneg_right hkj hpos
      _ ≤ c := hle ceilingRule hceilingRule c hceiling

theorem fit_of_safe (h : profile.PlanSafe lower task context) : profile.HintsFit lower task context := by
  unfold RateLimitProfile.HintsFit
  by_cases hconcurrency : ∀ rule, profile.Matches lower task context rule → rule.maxConcurrency = none
  · exact .inl hconcurrency
  by_cases hrate : ∀ rule, profile.Matches lower task context rule → rule.requestsPerSecond = none
  · exact .inr (.inl hrate)
  have hsafe : ¬ ∀ rule, profile.Matches lower task context rule → rule.safeRps = none := by
    intro hnone
    apply hrate
    intro rule hrule
    exact Option.map_eq_none_iff.mp (hnone rule hrule)
  obtain ⟨k, hk⟩ := exists_min hconcurrency
  obtain ⟨s, hs⟩ := exists_min hsafe
  obtain ⟨c, hc⟩ := exists_min hrate
  obtain ⟨hle, hceiling⟩ := h k s c (plan_hints.1.trans hk) (plan_hints.2.1.trans hs) (plan_hints.2.2.trans hc)
  obtain ⟨⟨leastRule, hleastRule, hleast⟩, -⟩ := (min_matching _ _).mp hk
  obtain ⟨⟨safeRule, hsafeRule, hsafeSome⟩, -⟩ := (min_matching _ _).mp hs
  right
  right
  obtain ⟨rps, hrps, rfl⟩ := Option.map_eq_some_iff.mp hsafeSome
  cases hm : safeRule.maxConcurrency with
  | none =>
    -- the rate of a rule that limits nothing else is within the ceiling for one consumer only
    left
    refine ⟨leastRule, hleastRule, ?_⟩
    rw [hm] at hle
    have hpos := safeRule.rps_pos rps hrps
    have hwithin : (k : ℚ) * rps ≤ rps := hle.trans (hceiling safeRule hsafeRule rps hrps)
    have hk1 : (k : ℚ) ≤ 1 := by
      by_contra hmore
      rw [not_le] at hmore
      have hless : rps < k * rps := lt_mul_of_one_lt_left hpos hmore
      exact absurd hwithin (not_le.mpr hless)
    have hk1 : k ≤ 1 := by exact_mod_cast hk1
    rw [hleast, le_antisymm hk1 (leastRule.max_pos k hleast)]
  | some m =>
    right
    rw [hm] at hle
    exact ⟨safeRule, hsafeRule, rps, hrps, m, hm, leastRule, hleastRule, k, hleast,
      fun rule hrule other hother => hle.trans (hceiling rule hrule other hother)⟩

end Plan

/-- **When the advertised rate is safe**: exactly if the hints fit together. -/
theorem plan_safe_iff (lower : String → String) (profile : RateLimitProfile) (task : Task)
    (context : RateLimitContext) : profile.PlanSafe lower task context ↔ profile.HintsFit lower task context :=
  ⟨fit_of_safe, safe_of_fit⟩

def rateRule : RateLimitRule where
  ruleId := ⟨"rate", by decide, by decide⟩
  scope := .global
  requestsPerSecond := some 10
  max_pos := no_concurrency_pos

def concurrencyRule : RateLimitRule where
  ruleId := ⟨"concurrency", by decide, by decide⟩
  scope := .global
  maxConcurrency := some 5
  burst_isSome := no_rate_isSome
  rps_pos := no_rate_pos
  burst_pos := no_rate_pos

/-- One rule for the rate and another for the concurrency. -/
def splitProfile : RateLimitProfile where
  rules := [rateRule, concurrencyRule]
  retry_nonneg := retry_nonneg

def plannedTask : Task where
  taskId := "task-1"
  worker := httpxName
  action := probeName
  inputEventId := ⟨"event-1", by decide, by decide⟩
  createdAt := 0
  updatedAt := 0
  availableAt := 0
  lifecycle := by decide

/-- Five consumers at ten requests a second, where ten are allowed. -/
theorem split_plan_too_fast : ¬ splitProfile.PlanSafe id plannedTask {} := by
  intro h
  have hwithin := (h 5 10 10 (by decide +kernel) (by decide +kernel) (by decide +kernel)).1
  norm_num at hwithin

end NightScout
