import NightScout.Core.Budgets
import NightScout.Lib.Lists

/-!
# What the compiled checks are

`_compile_checks` collects checks from every bucket a task falls in and merges those that read the
same counter. The merge is a formality: the bucket names of one task are distinct texts, so no two
collected checks have the same key (`rawChecks_keys_nodup`), the "conflicting budget limits" error
cannot occur, and the compiled checks are the collected ones in another order
(`compileChecks_perm`). Everything later sections need of a compiled check is therefore read off
the bucket it came from (`mem_rawChecks`).
-/

namespace NightScout

open Lib

/-! ## One bucket -/

/-- A check collected from a bucket: its metric is limited there and demanded. -/
theorem mem_checksForCaps {bucketKey : String} {caps : BudgetCaps} {demand : BudgetDemand}
    {budgetClass : BudgetClass} {context : BudgetContext} {fraction multiplier : ℚ} {check : BudgetCheck} :
    check ∈ checksForCaps bucketKey caps demand budgetClass context fraction multiplier ↔
      ∃ limit, caps.limit check.metric = some limit ∧ check.bucketKey = bucketKey ∧ check.budgetClass = budgetClass ∧
        check.requested = demand.amount check.metric ∧ check.configuredLimit = limit * multiplier ∧
        check.effectiveLimit = (if budgetClass = .soft ∧ context.lane = .normal then
          limit * multiplier * (1 - fraction) else limit * multiplier) := by
  unfold checksForCaps
  simp only [List.mem_filterMap, Prod.exists]
  constructor
  · rintro ⟨metric, limit, hmem, hc⟩
    split at hc
    · rw [Option.some.injEq] at hc
      subst hc
      exact ⟨limit, BudgetCaps.mem_asMetricLimits.mp hmem, rfl, rfl, rfl, rfl, rfl⟩
    · cases hc
  · rintro ⟨limit, hlimit, hb, hcl, hr, hconf, heff⟩
    refine ⟨check.metric, limit, BudgetCaps.mem_asMetricLimits.mpr hlimit, ?_⟩
    have hpos : 0 < demand.amount check.metric := hr ▸ check.requested_pos
    rw [dif_pos hpos]
    obtain ⟨b, m, cl, req, conf, eff, pos⟩ := check
    simp only at hb hcl hr hconf heff
    subst hb hcl hr hconf heff
    rfl

/-- A bucket is checked for each metric at most once. -/
theorem checksForCaps_metrics_nodup (bucketKey : String) (caps : BudgetCaps)
    (demand : BudgetDemand) (budgetClass : BudgetClass) (context : BudgetContext) (fraction multiplier : ℚ) :
    ((checksForCaps bucketKey caps demand budgetClass context fraction multiplier).map BudgetCheck.metric).Nodup := by
  have hlimits : (caps.asMetricLimits.map Prod.fst).Nodup := by
    refine List.Nodup.sublist (map_filterMap_sublist (h := Prod.fst) ?_ _) (by simp)
    intro e y he
    obtain ⟨l, _, rfl⟩ := Option.map_eq_some_iff.mp he
    rfl
  refine List.Nodup.sublist (map_filterMap_sublist ?_ _) hlimits
  rintro ⟨metric, limit⟩ check hc
  dsimp only at hc
  split at hc
  · rw [Option.some.injEq] at hc
    rw [← hc]
  · cases hc

/-! ## The buckets of a class -/

theorem prefix_injective (p : String) : Function.Injective (p ++ ·) := by
  intro a b h
  have hl := congrArg String.toList h
  simp only [String.toList_append, List.append_cancel_left_eq] at hl
  exact String.toList_inj.mp hl

/-- Texts that start with different characters are different, whatever follows the first. -/
theorem prefix_ne {p q a b : String} {c d : Char} (hp : p.toList.head? = some c)
    (hq : q.toList.head? = some d) (hcd : c ≠ d) : p ++ a ≠ q ++ b := by
  intro he
  have hl := congrArg (fun s => s.toList.head?) he
  simp only [String.toList_append, List.head?_append, hp, hq, Option.some_or,
    Option.some.injEq] at hl
  exact hcd hl

/-- **The bucket names of one class are distinct**: the four scopes have four prefixes, and the
    resource keys are a set. -/
theorem bucketsOfClass_nodup (profile : BudgetProfile) (task : Task) (context : BudgetContext)
    (budgetClass : BudgetClass) : ((bucketsOfClass profile task context budgetClass).map Prod.fst).Nodup := by
  have hresources : (((context.resourceKeys.insertionSort (· ≤ ·)).map
      ("resource:" ++ ·))).Nodup :=
    ((List.perm_insertionSort _ _).nodup_iff.mpr context.resourceKeys_nodup).map
      (prefix_injective _)
  have hglobal : ∀ (p a : String) (c : Char), p.toList.head? = some c → 'g' ≠ c →
      "global" ≠ p ++ a := fun p a c hp hc => by
    simpa using prefix_ne (p := "global") (a := "") (b := a) rfl hp hc
  have hgw := fun a => hglobal "worker:" a 'w' rfl (by decide)
  have hgb := fun a => hglobal "branch:" a 'b' rfl (by decide)
  have hgr := fun a => hglobal "resource:" a 'r' rfl (by decide)
  have hwb := fun a b => prefix_ne (p := "worker:") (q := "branch:") (a := a) (b := b) rfl rfl
    (by decide)
  have hwr := fun a b => prefix_ne (p := "worker:") (q := "resource:") (a := a) (b := b) rfl rfl
    (by decide)
  have hbr := fun a b => prefix_ne (p := "branch:") (q := "resource:") (a := a) (b := b) rfl rfl
    (by decide)
  unfold bucketsOfClass
  rw [List.map_cons, List.map_append, List.map_map, List.nodup_cons]
  have hmap : (Prod.fst ∘ fun resource =>
      ("resource:" ++ resource, profile.resourceLimits budgetClass, (1 : ℚ)))
      = ("resource:" ++ ·) := rfl
  rw [hmap]
  have hr' : ∀ t, (∀ a, t ≠ "resource:" ++ a) →
      t ∉ (context.resourceKeys.insertionSort (· ≤ ·)).map ("resource:" ++ ·) := by
    rintro t ht hm
    obtain ⟨a, _, ha⟩ := List.mem_map.mp hm
    exact ht a ha.symm
  cases (profile.workerLimits budgetClass).get? task.worker.text with
  | none =>
    cases task.branchId with
    | none => exact ⟨hr' _ hgr, hresources⟩
    | some branch =>
      simp only [List.nil_append, List.map_cons, List.map_nil, List.singleton_append,
        List.mem_cons, List.nodup_cons, not_or]
      exact ⟨⟨hgb branch, hr' _ hgr⟩, hr' _ (hbr branch), hresources⟩
  | some caps =>
    cases task.branchId with
    | none =>
      simp only [List.append_nil, List.map_cons, List.map_nil, List.singleton_append,
        List.mem_cons, List.nodup_cons, not_or]
      exact ⟨⟨hgw _, hr' _ hgr⟩, hr' _ (hwr _), hresources⟩
    | some branch =>
      simp only [List.nil_append, List.map_cons, List.map_nil, List.cons_append, List.mem_cons,
        List.nodup_cons, not_or]
      exact ⟨⟨hgw _, hgb branch, hr' _ hgr⟩, ⟨hwb _ branch, hr' _ (hwr _)⟩,
        hr' _ (hbr branch), hresources⟩

/-! ## All the checks of a task -/

/-- A collected check: the bucket of a class it was collected from, and what that bucket made of
    the demand. -/
theorem mem_rawChecks {profile : BudgetProfile} {task : Task} {demand : BudgetDemand}
    {context : BudgetContext} {check : BudgetCheck} : check ∈ rawChecks profile task demand context ↔ ∃ caps multiplier,
        (check.bucketKey, caps, multiplier) ∈ bucketsOfClass profile task context check.budgetClass ∧
        check ∈ checksForCaps check.bucketKey caps demand check.budgetClass context
          profile.explorationReserveFraction multiplier := by
  have hclass : ∀ cls, check ∈ checksOfClass profile task demand context cls ↔
      check.budgetClass = cls ∧ ∃ caps multiplier,
        (check.bucketKey, caps, multiplier) ∈ bucketsOfClass profile task context cls ∧
        check ∈ checksForCaps check.bucketKey caps demand cls context
          profile.explorationReserveFraction multiplier := by
    intro cls
    simp only [checksOfClass, List.mem_flatMap, Prod.exists]
    constructor
    · rintro ⟨b, caps, mult, hb, hc⟩
      obtain ⟨_, _, hbk, hcl, _⟩ := mem_checksForCaps.mp hc
      subst hbk
      exact ⟨hcl, caps, mult, hb, hc⟩
    · rintro ⟨-, caps, mult, hb, hc⟩
      exact ⟨_, caps, mult, hb, hc⟩
  rw [rawChecks, List.mem_append, hclass, hclass]
  constructor
  · rintro (⟨h, hex⟩ | ⟨h, hex⟩) <;> rw [h] <;> exact hex
  · intro hex
    cases hcls : check.budgetClass with
    | hard => exact .inl ⟨rfl, hcls ▸ hex⟩
    | soft => exact .inr ⟨rfl, hcls ▸ hex⟩

theorem checksOfClass_keys_nodup (profile : BudgetProfile) (task : Task) (demand : BudgetDemand)
    (context : BudgetContext) (budgetClass : BudgetClass) :
    ((checksOfClass profile task demand context budgetClass).map BudgetCheck.key).Nodup := by
  have hbuckets := bucketsOfClass_nodup profile task context budgetClass
  unfold checksOfClass
  generalize bucketsOfClass profile task context budgetClass = buckets at hbuckets
  induction buckets with
  | nil => exact List.nodup_nil
  | cons b bs ih =>
    obtain ⟨hb, hbs⟩ := List.nodup_cons.mp hbuckets
    rw [List.flatMap_cons, List.map_append, List.nodup_append]
    refine ⟨?_, ih hbs, ?_⟩
    · -- inside one bucket the metrics tell the keys apart
      have hmetrics := checksForCaps_metrics_nodup b.1 b.2.1 demand budgetClass context
        profile.explorationReserveFraction b.2.2
      refine List.Nodup.of_map (fun k : BudgetKey => k.2.2) ?_
      rw [List.map_map]
      exact hmetrics
    · -- across buckets the names do
      rintro k hk k' hk' rfl
      obtain ⟨check, hc, rfl⟩ := List.mem_map.mp hk
      obtain ⟨check', hc', hkey⟩ := List.mem_map.mp hk'
      obtain ⟨b', hb', hc'⟩ := List.mem_flatMap.mp hc'
      obtain ⟨_, _, hbk, _⟩ := mem_checksForCaps.mp hc
      obtain ⟨_, _, hbk', _⟩ := mem_checksForCaps.mp hc'
      have : b'.1 = b.1 := by rw [← hbk, ← hbk']; exact congrArg Prod.fst hkey
      exact hb (this ▸ List.mem_map_of_mem (f := Prod.fst) hb')

/-- **No two collected checks read the same counter.** -/
theorem rawChecks_keys_nodup (profile : BudgetProfile) (task : Task) (demand : BudgetDemand) (context : BudgetContext) :
    ((rawChecks profile task demand context).map BudgetCheck.key).Nodup := by
  have hclass : ∀ cls k, k ∈ (checksOfClass profile task demand context cls).map BudgetCheck.key →
      k.2.1 = cls := by
    intro cls k hk
    obtain ⟨check, hc, rfl⟩ := List.mem_map.mp hk
    obtain ⟨b, _, hc⟩ := List.mem_flatMap.mp hc
    obtain ⟨_, _, _, hcl, _⟩ := mem_checksForCaps.mp hc
    exact hcl
  rw [rawChecks, List.map_append, List.nodup_append]
  refine ⟨checksOfClass_keys_nodup .., checksOfClass_keys_nodup .., ?_⟩
  rintro k hk k' hk' rfl
  have h1 := hclass _ _ hk
  rw [hclass _ _ hk'] at h1
  cases h1

theorem mergeInto_of_nodup (merged : Dict BudgetKey BudgetCheck) {checks : List BudgetCheck}
    (hnd : (checks.map BudgetCheck.key).Nodup) (hfresh : ∀ check ∈ checks, merged.get? check.key = none) :
    ∃ d, mergeInto merged checks = .ok d ∧
      d.entries = merged.entries ++ checks.map fun check => (check.key, check) := by
  induction checks generalizing merged with
  | nil => exact ⟨merged, rfl, by simp⟩
  | cons check checks ih =>
    obtain ⟨hne, hnd⟩ := List.nodup_cons.mp hnd
    have hnone := hfresh check List.mem_cons_self
    obtain ⟨d, hd, hentries⟩ := ih (merged.set check.key check) hnd fun c hc => by
      have hck : c.key ≠ check.key := fun h =>
        hne (h ▸ List.mem_map_of_mem (f := BudgetCheck.key) hc)
      rw [Dict.get?_set_ne _ _ hck]
      exact hfresh c (List.mem_cons_of_mem _ hc)
    refine ⟨d, by simp only [mergeInto, hnone]; exact hd, ?_⟩
    rw [hentries, Dict.entries_set_none hnone]
    simp

/-- **The compiled checks are the collected ones**, reordered: the merge neither fails nor merges
    anything. -/
theorem compileChecks_perm (profile : BudgetProfile) (task : Task) (demand : BudgetDemand) (context : BudgetContext) :
    ∃ checks, compileChecks profile task demand context = .ok checks ∧
      checks.Perm (rawChecks profile task demand context) := by
  obtain ⟨d, hd, hentries⟩ := mergeInto_of_nodup .empty
    (rawChecks_keys_nodup profile task demand context) fun _ _ => rfl
  refine ⟨_, by simp only [compileChecks, mergeChecks, hd]; rfl, ?_⟩
  refine ((List.perm_insertionSort _ _).map _).trans ?_
  rw [hentries]
  simp [Dict.empty, Function.comp_def]

section Compiled

variable {profile : BudgetProfile} {task : Task} {demand : BudgetDemand}
    {context : BudgetContext} {checks : List BudgetCheck}

theorem mem_compileChecks (h : compileChecks profile task demand context = .ok checks)
    {check : BudgetCheck} : check ∈ checks ↔ check ∈ rawChecks profile task demand context := by
  obtain ⟨checks', h', hperm⟩ := compileChecks_perm profile task demand context
  rw [h] at h'
  cases h'
  exact hperm.mem_iff

theorem compileChecks_keys_nodup (h : compileChecks profile task demand context = .ok checks) :
    (checks.map BudgetCheck.key).Nodup := by
  obtain ⟨checks', h', hperm⟩ := compileChecks_perm profile task demand context
  rw [h] at h'
  cases h'
  exact (hperm.map _).nodup_iff.mpr (rawChecks_keys_nodup ..)

end Compiled

/-! ## Which limit a check enforces -/

/-- Where a limit applies: the whole run, one worker, one branch or one resource. -/
inductive LimitScope where
  | global
  | worker (name : String)
  | branch (id : String)
  | resource (key : String)
  deriving DecidableEq

/-- The bucket the counters of a scope are kept under. -/
def LimitScope.bucketKey : LimitScope → String
  | global => "global"
  | worker name => "worker:" ++ name
  | branch id => "branch:" ++ id
  | resource key => "resource:" ++ key

/-- The limit a profile puts on a metric in a scope. -/
def BudgetProfile.limit (profile : BudgetProfile) (budgetClass : BudgetClass) :
    LimitScope → BudgetMetric → Option ℚ
  | .global, metric => (profile.globalLimits budgetClass).limit metric
  | .worker name, metric =>
    ((profile.workerLimits budgetClass).get? name).bind fun caps => caps.limit metric
  | .branch _, metric => (profile.branchLimits budgetClass).limit metric
  | .resource _, metric => (profile.resourceLimits budgetClass).limit metric

theorem BudgetProfile.limit_nonneg {profile : BudgetProfile} {budgetClass : BudgetClass}
    {scope : LimitScope} {metric : BudgetMetric} {limit : ℚ}
    (h : profile.limit budgetClass scope metric = some limit) : 0 ≤ limit := by
  cases scope with
  | global | branch _ | resource _ => exact BudgetCaps.limit_nonneg h
  | worker name =>
    obtain ⟨caps, _, hcaps⟩ := Option.bind_eq_some_iff.mp h
    exact BudgetCaps.limit_nonneg hcaps

/-- **A bucket names its scope.** -/
theorem LimitScope.bucketKey_injective : Function.Injective LimitScope.bucketKey := by
  have hglobal : ∀ (p a : String) (c : Char), p.toList.head? = some c → 'g' ≠ c →
      "global" ≠ p ++ a := fun p a c hp hc => by
    simpa using prefix_ne (p := "global") (a := "") (b := a) rfl hp hc
  rintro a b h
  cases a with
  | global =>
    cases b with
    | global => rfl
    | worker name => exact absurd h (hglobal "worker:" name 'w' rfl (by decide))
    | branch id => exact absurd h (hglobal "branch:" id 'b' rfl (by decide))
    | resource key => exact absurd h (hglobal "resource:" key 'r' rfl (by decide))
  | worker name =>
    cases b with
    | global => exact absurd h.symm (hglobal "worker:" name 'w' rfl (by decide))
    | worker name' => rw [prefix_injective _ h]
    | branch id => exact absurd h (prefix_ne rfl rfl (by decide))
    | resource key => exact absurd h (prefix_ne rfl rfl (by decide))
  | branch id =>
    cases b with
    | global => exact absurd h.symm (hglobal "branch:" id 'b' rfl (by decide))
    | worker name => exact absurd h (prefix_ne rfl rfl (by decide))
    | branch id' => rw [prefix_injective _ h]
    | resource key => exact absurd h (prefix_ne rfl rfl (by decide))
  | resource key =>
    cases b with
    | global => exact absurd h.symm (hglobal "resource:" key 'r' rfl (by decide))
    | worker name => exact absurd h (prefix_ne rfl rfl (by decide))
    | branch id => exact absurd h (prefix_ne rfl rfl (by decide))
    | resource key' => rw [prefix_injective _ h]

/-- Every bucket a task is checked in is the bucket of a scope, with that scope's limits. -/
theorem scope_of_mem_bucketsOfClass {profile : BudgetProfile} {task : Task}
    {context : BudgetContext} {budgetClass : BudgetClass} {bucketKey : String} {caps : BudgetCaps} {multiplier : ℚ}
    (h : (bucketKey, caps, multiplier) ∈ bucketsOfClass profile task context budgetClass) :
    ∃ scope : LimitScope, bucketKey = scope.bucketKey ∧
      (∀ metric, profile.limit budgetClass scope metric = caps.limit metric) ∧
      (budgetClass = .hard → multiplier = 1) := by
  unfold bucketsOfClass at h
  rcases List.mem_cons.mp h with h | h
  · cases h
    exact ⟨.global, rfl, fun _ => rfl, fun _ => rfl⟩
  rcases List.mem_append.mp h with h | h
  rcases List.mem_append.mp h with h | h
  · cases hcaps : (profile.workerLimits budgetClass).get? task.worker.text with
    | none =>
      rw [hcaps] at h
      cases h
    | some caps' =>
      rw [hcaps] at h
      cases List.mem_singleton.mp h
      exact ⟨.worker task.worker.text, rfl, fun _ => by simp [BudgetProfile.limit, hcaps],
        fun _ => rfl⟩
  · cases hbranch : task.branchId with
    | none =>
      rw [hbranch] at h
      cases h
    | some branch =>
      rw [hbranch] at h
      cases List.mem_singleton.mp h
      refine ⟨.branch branch, rfl, fun _ => rfl, fun hclass => ?_⟩
      rw [hclass]
      rfl
  · obtain ⟨resource, _, he⟩ := List.mem_map.mp h
    cases he
    exact ⟨.resource resource, rfl, fun _ => rfl, fun _ => rfl⟩

/-- **A hard check enforces the hard limit of its scope**, without multiplier or reserve. -/
theorem effectiveLimit_of_hard {profile : BudgetProfile} {task : Task} {demand : BudgetDemand}
    {context : BudgetContext} {checks : List BudgetCheck}
    (h : compileChecks profile task demand context = .ok checks) {check : BudgetCheck}
    (hc : check ∈ checks) {scope : LimitScope} {metric : BudgetMetric}
    (hkey : check.key = (scope.bucketKey, .hard, metric)) :
    profile.limit .hard scope metric = some check.effectiveLimit := by
  obtain ⟨caps, multiplier, hbucket, hcheck⟩ := mem_rawChecks.mp ((mem_compileChecks h).mp hc)
  obtain ⟨limit, hlimit, _, _, _, _, heff⟩ := mem_checksForCaps.mp hcheck
  obtain ⟨scope', hscope, hlimits, hmult⟩ := scope_of_mem_bucketsOfClass hbucket
  simp only [BudgetCheck.key, Prod.mk.injEq] at hkey
  obtain ⟨hb, hclass, hmetric⟩ := hkey
  have hsame : scope' = scope := LimitScope.bucketKey_injective (hscope.symm.trans hb)
  subst hsame
  rw [hmult hclass, hclass] at heff
  rw [← hmetric, ← hclass, hlimits, hlimit, heff]
  simp

end NightScout
