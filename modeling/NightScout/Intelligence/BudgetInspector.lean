import NightScout.Intelligence.Convergence
import NightScout.Storage.BudgetRuns
import Mathlib.Data.Finset.Order

/-!
# When hard pressure closes a branch

`BranchBudgetInspector` of `recon/intelligence/convergence.py` reads the pressure on the budgets of a branch: what
is committed and what is reserved, capacities included, against the limit. A lane is closed for good when one of
its hard pressures reaches the threshold.

`BudgetManager.reserve` refuses for good only what exceeds a limit that is no capacity, and a reservation may be
given back. `hard_close_denies_iff` says when the two agree: when enough is committed against a limit that every
task of the branch is held to.
-/

namespace NightScout

open Lib BudgetDb

/-! ## The inspector -/

section Inspector

variable (profile : BudgetProfile) (usage : BudgetKey → BudgetUsage)

def pressuresForCaps (bucketKey : String) (budgetClass : BudgetClass) (lane : BudgetLane)
    (multiplier : ℚ) : List BudgetMetricPressure :=
  ((profile.branchLimits budgetClass).asMetricLimits.insertionSort fun a b =>
    a.1.value ≤ b.1.value).map fun (metric, limit) =>
      let row := usage (bucketKey, budgetClass, metric)
      let configuredLimit := limit * multiplier
      let effectiveLimit :=
        if budgetClass = .soft ∧ lane = .normal then
          configuredLimit * (1 - profile.explorationReserveFraction)
        else configuredLimit
      -- a limit of zero leaves no room
      let utilization := if effectiveLimit ≤ 0 then 1 else row.total / effectiveLimit
      { metric, budgetClass, configuredLimit, effectiveLimit
        committed := row.committed, reserved := row.reserved
        utilization := max 0 utilization }

/-- `BranchBudgetInspector.state_for`. -/
def branchBudgetState (branchId : String) (lane : BudgetLane) (branchSoftMultiplier : ℚ) :
    Except PyError BranchBudgetState :=
  let bucketKey := "branch:" ++ strip branchId
  if branchSoftMultiplier < 1 then .error (.valueError "branch_soft_multiplier must be >= 1")
  else if bucketKey = "branch:" then .error (.valueError "branch_id must not be blank")
  else .ok {
    branchId := strip branchId
    lane
    explorationReserveFraction := profile.explorationReserveFraction
    branchSoftMultiplier
    soft := pressuresForCaps profile usage bucketKey .soft lane branchSoftMultiplier
    hard := pressuresForCaps profile usage bucketKey .hard lane 1 }

end Inspector

/-! ## Closing for hard pressure -/

/-- The reason a decision gives for it. -/
def hardPressureReason : String :=
  "hard branch budget is exhausted; future positive demand cannot be authorized"

/-- The decision closes the lane for hard pressure. -/
def ConvergenceDecision.ClosesForHardPressure (decision : ConvergenceDecision) : Prop :=
  decision.action = .close ∧ decision.reasons = [hardPressureReason]

theorem closesForHardPressure_iff {config : ConvergenceConfig} {maximumTier : SearchTier}
    {prior : ConvergenceState} {signals : ConvergenceSignals} {now : Instant} {decision : ConvergenceDecision}
    (h : decideConvergence config maximumTier prior signals now = .ok decision) :
    decision.ClosesForHardPressure ↔ prior.closed = false ∧ hardPressureHolds config signals := by
  unfold decideConvergence at h
  simp only at h
  split at h
  next hclosed =>
    cases h
    refine iff_of_false (fun hc => ?_) fun hopen => by rw [hopen.1] at hclosed; cases hclosed
    exact absurd (List.cons.inj hc.2).1 (by decide)
  next hopen =>
  have hopen := Bool.eq_false_iff.mpr hopen
  split at h
  next hpressure =>
    cases h
    exact iff_of_true ⟨rfl, rfl⟩ ⟨hopen, hpressure⟩
  next hpressure =>
  refine iff_of_false (fun hc => ?_) fun hholds => hpressure hholds.2
  split at h
  · cases h
    cases hc.1
  split at h
  · obtain ⟨_, _, h⟩ := bind_ok h
    cases h
    cases hc.1
  split at h
  · cases h
    cases hc.1
  split at h
  · cases h
    cases hc.1
  split at h
  · split at h
    · cases h
      exact absurd (congrArg List.length hc.2) (by simp [convergenceDecision])
    · obtain ⟨_, _, h⟩ := bind_ok h
      cases h
      cases hc.1
  · cases h
    cases hc.1

/-- Hard pressure leads to a decision whatever else there is. -/
theorem decideConvergence_of_hardPressure (config : ConvergenceConfig) (maximumTier : SearchTier)
    {prior : ConvergenceState} {signals : ConvergenceSignals} (now : Instant)
    (hopen : prior.closed = false) (h : hardPressureHolds config signals) :
    ∃ decision, decideConvergence config maximumTier prior signals now = .ok decision := by
  unfold decideConvergence
  simp only [hopen, Bool.false_eq_true, if_false]
  rw [if_pos h]
  exact ⟨_, rfl⟩

/-! ## The limits every task of a branch is held to -/

section Limits

variable (profile : BudgetProfile) (branchId : String) (metric : BudgetMetric)

/-- The counters and limits a demand on the metric is checked against whatever the worker, the resources, the
    lane and the multiplier of the task are: the global ones and the hard one of the branch; and the soft one of
    the branch if it is zero, which no multiplier raises. -/
def commonLimits : List (BudgetKey × ℚ) :=
  [(LimitScope.global, BudgetClass.hard), (.global, .soft), (.branch branchId, .hard)].filterMap
      (fun (scope, budgetClass) => (profile.limit budgetClass scope metric).map fun limit =>
        ((scope.bucketKey, budgetClass, metric), limit)) ++
    if profile.limit .soft (.branch branchId) metric = some 0 then
      [(((LimitScope.branch branchId).bucketKey, .soft, metric), 0)] else []

/-- What is committed leaves no room for a demand of more than `least`. -/
def SpentForGood (usage : BudgetKey → BudgetUsage) (least : ℚ) : Prop :=
  ∃ e ∈ commonLimits profile branchId metric, e.2 + tolerance ≤ (usage e.1).committed + least

instance (usage : BudgetKey → BudgetUsage) (least : ℚ) :
    Decidable (SpentForGood profile branchId metric usage least) :=
  inferInstanceAs (Decidable (∃ e ∈ _, _))

/-- In every later state `reserve` denies every demand of more than `least` on the metric. -/
def DeniedForGood (capacityRetryAfter : Duration) (db : BudgetDb) (least : ℚ) : Prop :=
  ∀ (later : List BudgetCmd) (task : Task) (demand : BudgetDemand) (context : BudgetContext)
    (leaseFor : Duration) (now : Instant) (reservationId : String) (taskRow : Bool)
    (decision : BudgetDecision),
    task.branchId = some branchId → least < demand.amount metric →
    (BudgetManager.reserve sqliteBudgetStore profile capacityRetryAfter
      (budgetRun capacityRetryAfter db later) task demand context leaseFor now reservationId
      taskRow).1 = .ok decision → decision.outcome = .deny

end Limits

/-! ## What is spent is denied -/

section Denying

variable {profile : BudgetProfile} {task : Task} {demand : BudgetDemand} {context : BudgetContext}
    {branchId : String} {metric : BudgetMetric} {db : BudgetDb}

theorem global_mem_buckets (budgetClass : BudgetClass) :
    (LimitScope.global.bucketKey, profile.globalLimits budgetClass, (1 : ℚ)) ∈
      bucketsOfClass profile task context budgetClass := List.mem_cons_self

theorem branch_mem_buckets (h : task.branchId = some branchId) (budgetClass : BudgetClass) :
    ((LimitScope.branch branchId).bucketKey, profile.branchLimits budgetClass,
      if budgetClass = .soft then context.branchSoftMultiplier else 1) ∈
        bucketsOfClass profile task context budgetClass := by
  unfold bucketsOfClass
  refine List.mem_cons_of_mem _ (List.mem_append_left _ (List.mem_append_right _ ?_))
  rw [h]
  exact List.mem_singleton_self _

/-- A demanded metric that a bucket limits is checked, against the limit of the bucket at most. -/
theorem exists_rawCheck {bucketKey : String} {caps : BudgetCaps} {multiplier limit : ℚ} {budgetClass : BudgetClass}
    (hbucket : (bucketKey, caps, multiplier) ∈ bucketsOfClass profile task context budgetClass)
    (hlimit : caps.limit metric = some limit) (hmultiplier : 0 ≤ multiplier) (hpos : 0 < demand.amount metric) :
    ∃ check ∈ rawChecks profile task demand context, check.key = (bucketKey, budgetClass, metric) ∧
      check.requested = demand.amount metric ∧ check.effectiveLimit ≤ limit * multiplier := by
  have hraw (check : BudgetCheck) (hb : check.bucketKey = bucketKey)
      (hclass : check.budgetClass = budgetClass)
      (hcheck : check ∈ checksForCaps bucketKey caps demand budgetClass context
        profile.explorationReserveFraction multiplier) : check ∈ rawChecks profile task demand context := by
    subst hb hclass
    exact mem_rawChecks.mpr ⟨caps, multiplier, hbucket, hcheck⟩
  have hconfigured : 0 ≤ limit * multiplier := mul_nonneg (BudgetCaps.limit_nonneg hlimit) hmultiplier
  refine ⟨⟨bucketKey, metric, budgetClass, demand.amount metric, limit * multiplier,
    if budgetClass = .soft ∧ context.lane = .normal then
      limit * multiplier * (1 - profile.explorationReserveFraction) else limit * multiplier, hpos⟩,
    hraw _ rfl rfl (mem_checksForCaps.mpr ⟨limit, hlimit, rfl, rfl, rfl, rfl, rfl⟩), rfl, rfl, ?_⟩
  simp only
  split
  · exact mul_le_of_le_one_right hconfigured (sub_le_self _ profile.fraction_nonneg)
  · exact le_refl _

/-- A demand on the metric is checked against each of the common limits. -/
theorem exists_check_of_mem_commonLimits (hbranch : task.branchId = some branchId)
    (hpos : 0 < demand.amount metric) {e : BudgetKey × ℚ} (he : e ∈ commonLimits profile branchId metric) :
    ∃ check ∈ rawChecks profile task demand context, check.metric = metric ∧ check.key = e.1 ∧
      check.requested = demand.amount metric ∧ check.effectiveLimit ≤ e.2 := by
  have hmetric {check : BudgetCheck} {bucketKey : String} {budgetClass : BudgetClass}
      (hkey : check.key = (bucketKey, budgetClass, metric)) : check.metric = metric :=
    congrArg (fun key : BudgetKey => key.2.2) hkey
  unfold commonLimits at he
  rcases List.mem_append.mp he with he | he
  · obtain ⟨⟨scope, budgetClass⟩, hscope, he⟩ := List.mem_filterMap.mp he
    obtain ⟨limit, hlimit, rfl⟩ := Option.map_eq_some_iff.mp he
    -- neither the global limits nor the hard one of the branch are multiplied
    obtain ⟨caps, hbucket, hcaps⟩ : ∃ caps,
        (scope.bucketKey, caps, (1 : ℚ)) ∈ bucketsOfClass profile task context budgetClass ∧
          caps.limit metric = some limit := by
      simp only [List.mem_cons, List.not_mem_nil, or_false, Prod.mk.injEq] at hscope
      rcases hscope with ⟨rfl, rfl⟩ | ⟨rfl, rfl⟩ | ⟨rfl, rfl⟩
      · exact ⟨_, global_mem_buckets .hard, hlimit⟩
      · exact ⟨_, global_mem_buckets .soft, hlimit⟩
      · exact ⟨_, branch_mem_buckets hbranch .hard, hlimit⟩
    obtain ⟨check, hcheck, hkey, hrequested, hle⟩ := exists_rawCheck hbucket hcaps zero_le_one hpos
    exact ⟨check, hcheck, hmetric hkey, hkey, hrequested, by rwa [mul_one] at hle⟩
  · split at he
    next hzero =>
      cases List.mem_singleton.mp he
      obtain ⟨check, hcheck, hkey, hrequested, hle⟩ := @exists_rawCheck _ _ _ _ _ _ _ _ 0 _
        (branch_mem_buckets hbranch .soft) hzero (zero_le_one.trans context.multiplier_ge_one) hpos
      exact ⟨check, hcheck, hmetric hkey, hkey, hrequested, by rwa [zero_mul] at hle⟩
    next => cases he

/-- Every violated check is reported. -/
theorem violation_mem_checkAll {usage : Dict BudgetKey BudgetUsage} {checks : List BudgetCheck}
    {check : BudgetCheck} (hmem : check ∈ checks) (h : check.violated (usageAt usage check.key)) :
    check.violation (usageAt usage check.key) ∈ (checkAll usage checks).1 := by
  induction checks generalizing usage with
  | nil => cases hmem
  | cons first checks ih =>
    have hrest : usageAt (getOrCreateUsage usage first.key).2 check.key = usageAt usage check.key := by
      rw [usageAt, get?_getOrCreate]
      split
      next hkey =>
        rw [hkey]
        rfl
      next => rfl
    simp only [checkAll, usageAt_getOrCreate]
    rcases List.mem_cons.mp hmem with rfl | hmem
    · rw [if_pos h]
      exact List.mem_cons_self
    · rw [← hrest] at h
      have htail := ih hmem h
      rw [hrest] at htail
      split
      · exact List.mem_cons_of_mem _ htail
      · exact htail

/-- **A violated check that is no capacity denies the demand**, if `reserve` answers at all. -/
theorem reserve_denies (capacityRetryAfter : Duration) {check : BudgetCheck}
    (hcheck : check ∈ rawChecks profile task demand context)
    (hviolated : check.violated (usageAt db.usage check.key)) (hcapacity : check.metric.isCapacity = false)
    {leaseFor : Duration} {now : Instant} {reservationId : String} {taskRow : Bool} {decision : BudgetDecision}
    (h : (BudgetManager.reserve sqliteBudgetStore profile capacityRetryAfter db task demand context
      leaseFor now reservationId taskRow).1 = .ok decision) : decision.outcome = .deny := by
  unfold BudgetManager.reserve at h
  split at h
  · cases h
  split at h
  · cases h
    rfl
  split at h
  · cases h
    rfl
  obtain ⟨checks, hcompiled, hperm⟩ := compileChecks_perm profile task demand context
  rw [hcompiled] at h
  have hmem := hperm.mem_iff.mpr hcheck
  cases checks with
  | nil => cases hmem
  | cons first checks =>
    simp only at h
    split at h
    · cases h
    next expiresAt _ =>
    have hreported := violation_mem_checkAll hmem hviolated
    have hnonempty := List.ne_nil_of_mem hreported
    simp only [sqliteBudgetStore, tryReserve] at h
    cases hfresh : db.reservations.get? (reservationFor reservationId task (first :: checks) now
        expiresAt).reservationId with
    | some row =>
      rw [hfresh] at h
      cases h
    | none =>
      rw [hfresh] at h
      simp only [if_pos hnonempty] at h
      cases h
      unfold refusal
      have hpermanent : ((checkAll db.usage (first :: checks)).1.filter fun violation =>
          !violation.metric.isCapacity) ≠ [] := by
        refine List.ne_nil_of_mem (List.mem_filter.mpr ⟨hreported, ?_⟩)
        simp [BudgetCheck.violation, hcapacity]
      simp only [if_pos hpermanent]

/-- **What is spent is denied** in every later state. -/
theorem SpentForGood.denied (hdb : Ledger db) (capacityRetryAfter : Duration) {least : ℚ}
    (hleast : 0 ≤ least) (hcapacity : metric.isCapacity = false)
    (h : SpentForGood profile branchId metric (sqliteBudgetStore.usage db) least) :
    DeniedForGood profile branchId metric capacityRetryAfter db least := by
  obtain ⟨e, he, hspent⟩ := h
  intro later task demand context leaseFor now reservationId taskRow decision hbranch hmore hok
  obtain ⟨check, hcheck, hmetric, hkey, hrequested, hlimit⟩ :=
    exists_check_of_mem_commonLimits hbranch (hleast.trans_lt hmore) he
  refine reserve_denies capacityRetryAfter hcheck ?_ (hmetric ▸ hcapacity) hok
  have hcommitted := budgetRun_committed_le capacityRetryAfter hdb later check.key
  have hreserved := (hdb.budgetRun capacityRetryAfter later).reserved_nonneg check.key
  have hspent' : e.2 + tolerance ≤ (usageAt db.usage check.key).committed + least := hkey ▸ hspent
  unfold BudgetCheck.violated
  rw [hrequested]
  linarith

end Denying

/-! ## What is not spent is granted -/

section Granting

/-- Numbers above a bound leave room above it. -/
theorem exists_between_bound (least : ℚ) (limits : List ℚ) (h : ∀ x ∈ limits, least < x) :
    ∃ a, least < a ∧ ∀ x ∈ limits, a ≤ x := by
  induction limits with
  | nil => exact ⟨least + 1, lt_add_one least, fun _ hx => (nomatch hx)⟩
  | cons x limits ih =>
    obtain ⟨a, ha, hle⟩ := ih fun y hy => h y (List.mem_cons_of_mem _ hy)
    refine ⟨min x a, lt_min (h x List.mem_cons_self) ha, fun y hy => ?_⟩
    rcases List.mem_cons.mp hy with rfl | hy
    · exact min_le_left _ _
    · exact (min_le_right _ _).trans (hle y hy)

/-- A worker that no list of names has. -/
theorem exists_worker (names : List String) : ∃ worker : Stripped, worker.text ∉ names := by
  obtain ⟨n, hn⟩ := Infinite.exists_notMem_finset (names.map fun name => name.toList.length - 1).toFinset
  have hspace : isSpace 'w' = false := rfl
  refine ⟨⟨String.ofList (List.replicate (n + 1) 'w'), ?_, ?_⟩, fun hmem => hn ?_⟩
  · unfold strip
    rw [String.toList_ofList]
    unfold stripChars
    rw [List.replicate_succ, List.dropWhile_cons_of_neg (by simp [hspace]), ← List.replicate_succ,
      List.reverse_replicate, List.replicate_succ, List.dropWhile_cons_of_neg (by simp [hspace]),
      ← List.replicate_succ, List.reverse_replicate]
  · intro h
    have hlength := congrArg (fun s : String => s.toList.length) h
    simp at hlength
  · -- its length is none of theirs
    refine List.mem_toFinset.mpr (List.mem_map.mpr ⟨_, hmem, ?_⟩)
    rw [String.toList_ofList, List.length_replicate]
    rfl

/-- A demand on one metric only. -/
def demandOf (metric : BudgetMetric) (amount : ℚ) (h : 0 ≤ amount) : BudgetDemand where
  tasks := if metric = .tasks then amount else 0
  cost := if metric = .cost then amount else 0
  requests := if metric = .requests then amount else 0
  candidates := if metric = .candidates then amount else 0
  runtimeSeconds := if metric = .runtimeSeconds then amount else 0
  concurrentTasks := if metric = .concurrentTasks then amount else 0
  nonneg := by
    simp only [List.mem_cons, List.not_mem_nil, or_false]
    rintro x (rfl | rfl | rfl | rfl | rfl | rfl) <;> split <;> first | exact h | exact le_refl 0

theorem amount_demandOf (metric metric' : BudgetMetric) {amount : ℚ} (h : 0 ≤ amount) :
    (demandOf metric amount h).amount metric' = if metric' = metric then amount else 0 := by
  cases metric' <;> simp only [BudgetDemand.amount, demandOf, eq_comm]

variable {profile : BudgetProfile} {branchId : String} {metric : BudgetMetric} {db : BudgetDb}

/-- When all that is reserved has expired, nothing is, and what is committed is as before. -/
theorem exists_settled (hdb : Ledger db) (capacityRetryAfter : Duration) : ∃ later : List BudgetCmd,
    Ledger (budgetRun capacityRetryAfter db later) ∧ ∀ key,
      (usageAt (budgetRun capacityRetryAfter db later).usage key).reserved = 0 ∧
      (usageAt (budgetRun capacityRetryAfter db later).usage key).committed = (usageAt db.usage key).committed := by
  obtain ⟨now, hnow⟩ := (db.reservations.entries.map fun e => e.2.expiresAt).toFinset.exists_le
  obtain ⟨hpath, _, hcommitted, hactive⟩ := @reapExpired_path (fun _ => True) db hdb now
  have hledger := ledger_of_path hdb hpath
  refine ⟨[.reapExpired now], hdb.budgetRun capacityRetryAfter _, fun key => ⟨?_, hcommitted key⟩⟩
  refine hledger.reserved_eq_zero (fun id row hrow hstate => ?_) key
  obtain ⟨hbefore, hlater⟩ := hactive id row hrow hstate
  have hmem := List.mem_map_of_mem (f := fun e => e.2.expiresAt) (Dict.mem_entries_iff.mpr hbefore)
  exact absurd (hnow _ (List.mem_toFinset.mpr hmem)) (not_le.mpr hlater)

/-- A demand that all its checks admit is allowed, under a reservation that is new. -/
theorem reserve_allows (capacityRetryAfter : Duration) {task : Task} {demand : BudgetDemand}
    {context : BudgetContext} (hdepth : context.branchDepth = 0)
    (hadmits : ∀ check ∈ rawChecks profile task demand context, ¬ check.violated (usageAt db.usage check.key)) :
    ∃ reservationId decision, (BudgetManager.reserve sqliteBudgetStore profile capacityRetryAfter db task
      demand context 1 0 reservationId true).1 = .ok decision ∧ decision.outcome = .allow := by
  obtain ⟨reservationId, hnew⟩ := Infinite.exists_notMem_finset db.reservations.keys.toFinset
  have hfresh : db.reservations.get? reservationId = none :=
    Dict.get?_eq_none_iff.mpr fun hmem => hnew (List.mem_toFinset.mpr hmem)
  obtain ⟨checks, hcompiled, hperm⟩ := compileChecks_perm profile task demand context
  have hshallow (depth : Option ℕ) : depth.any (· < context.branchDepth) = false := by
    rw [hdepth]
    cases depth <;> simp
  refine ⟨reservationId, ?_⟩
  unfold BudgetManager.reserve
  rw [if_neg (by decide), if_neg (by rw [hshallow]; decide), if_neg (by rw [hshallow]; decide), hcompiled]
  cases checks with
  | nil => exact ⟨_, rfl, rfl⟩
  | cons check checks =>
    have hpasses : (checkAll db.usage (check :: checks)).1 = [] :=
      checkAll_eq_nil.mpr fun c hc => hadmits c (hperm.mem_iff.mp hc)
    have hexpires : addDelta 0 1 = .ok 1 := rfl
    obtain ⟨db', hok, _⟩ :=
      @tryReserve_admits (fun _ => True) db profile task demand context _ 0 1 _ hcompiled trivial hfresh hpasses
    simp only [hexpires, sqliteBudgetStore, hok]
    exact ⟨_, rfl, rfl⟩

/-- A task of the branch, by a worker of its own. -/
def spareTask (worker : Stripped) (branchId : String) : Task where
  taskId := "task_spare"
  worker := worker
  action := ⟨"spare", by decide, by decide⟩
  inputEventId := worker
  branchId := some branchId
  createdAt := 0
  updatedAt := 0
  availableAt := 0
  lifecycle := by constructor <;> simp

/-- Work that explores, with a soft budget of its own. -/
def spareContext (multiplier : ℚ) (h : 1 ≤ multiplier) : BudgetContext where
  lane := .exploration
  branchSoftMultiplier := multiplier
  resourceKeys_nodup := List.nodup_nil
  multiplier_ge_one := h

/-- What a task of its own is checked against: the global limits and those of the branch, whole. -/
theorem rawCheck_spare {worker : Stripped}
    (hworker : worker.text ∉ profile.hardWorkerLimits.keys ++ profile.softWorkerLimits.keys)
    {multiplier amount : ℚ} (hone : 1 ≤ multiplier) (hamount : 0 ≤ amount) {check : BudgetCheck}
    (h : check ∈ rawChecks profile (spareTask worker branchId) (demandOf metric amount hamount)
      (spareContext multiplier hone)) : check.requested = amount ∧
      ((∃ limit, profile.limit check.budgetClass .global metric = some limit ∧
          check.key = (LimitScope.global.bucketKey, check.budgetClass, metric) ∧ check.effectiveLimit = limit) ∨
        ∃ limit, profile.limit check.budgetClass (.branch branchId) metric = some limit ∧
          check.key = ((LimitScope.branch branchId).bucketKey, check.budgetClass, metric) ∧
          check.effectiveLimit = limit * if check.budgetClass = .soft then multiplier else 1) := by
  obtain ⟨caps, factor, hbucket, hcheck⟩ := mem_rawChecks.mp h
  obtain ⟨limit, hlimit, _, _, hrequested, _, heffective⟩ := mem_checksForCaps.mp hcheck
  have hmetric : check.metric = metric := by
    by_contra hne
    have hpos := check.requested_pos
    rw [hrequested, amount_demandOf, if_neg hne] at hpos
    exact lt_irrefl 0 hpos
  rw [amount_demandOf, if_pos hmetric] at hrequested
  rw [hmetric] at hlimit
  have heffective' : check.effectiveLimit = limit * factor :=
    heffective.trans (if_neg fun hlane => BudgetLane.noConfusion hlane.2)
  have hkey : check.key = (check.bucketKey, check.budgetClass, metric) := by
    rw [← hmetric]
    rfl
  refine ⟨hrequested, ?_⟩
  unfold bucketsOfClass at hbucket
  rcases List.mem_cons.mp hbucket with heq | hbucket
  · obtain ⟨hbucketKey, heq⟩ := Prod.mk.inj heq
    obtain ⟨rfl, rfl⟩ := Prod.mk.inj heq
    exact .inl ⟨limit, hlimit, hkey.trans (by rw [hbucketKey]; rfl), by rw [heffective', mul_one]⟩
  rcases List.mem_append.mp hbucket with hbucket | hbucket
  rcases List.mem_append.mp hbucket with hbucket | hbucket
  · -- no limit is for its worker
    have hnone : (profile.workerLimits check.budgetClass).get? worker.text = none := by
      refine Dict.get?_eq_none_iff.mpr fun hmem => hworker (List.mem_append.mpr ?_)
      cases hclass : check.budgetClass with
      | hard =>
        rw [hclass] at hmem
        exact .inl hmem
      | soft =>
        rw [hclass] at hmem
        exact .inr hmem
    simp only [spareTask, hnone] at hbucket
    cases hbucket
  · obtain ⟨hbucketKey, heq⟩ := Prod.mk.inj (List.mem_singleton.mp hbucket)
    obtain ⟨rfl, rfl⟩ := Prod.mk.inj heq
    exact .inr ⟨limit, hlimit, hkey.trans (by rw [hbucketKey]; rfl), heffective'⟩
  · cases hbucket

/-- **What is denied for good is spent**: otherwise a task with a worker and a lane of its own would be allowed
    once all reservations have expired. -/
theorem DeniedForGood.spent (hdb : Ledger db) (capacityRetryAfter : Duration) {least : ℚ}
    (hleast : 0 ≤ least) (h : DeniedForGood profile branchId metric capacityRetryAfter db least) :
    SpentForGood profile branchId metric (sqliteBudgetStore.usage db) least := by
  by_contra hnot
  -- an amount that every common limit has room for
  obtain ⟨amount, hmore, hroom⟩ := exists_between_bound least
    ((commonLimits profile branchId metric).map fun e =>
      e.2 + tolerance - (usageAt db.usage e.1).committed) (by
    intro x hx
    obtain ⟨e, he, rfl⟩ := List.mem_map.mp hx
    by_contra hle
    refine hnot ⟨e, he, ?_⟩
    change e.2 + tolerance ≤ (usageAt db.usage e.1).committed + least
    linarith)
  have hcommon : ∀ e ∈ commonLimits profile branchId metric,
      (usageAt db.usage e.1).committed + amount ≤ e.2 + tolerance := by
    intro e he
    have hle := hroom _ (List.mem_map_of_mem he)
    linarith
  -- a multiplier that makes room in the soft limit of the branch, if that is not zero
  obtain ⟨multiplier, hone, hsoft⟩ : ∃ multiplier : ℚ, 1 ≤ multiplier ∧
      ∀ limit, profile.limit .soft (.branch branchId) metric = some limit →
        (usageAt db.usage ((LimitScope.branch branchId).bucketKey, .soft, metric)).committed + amount ≤
          limit * multiplier + tolerance := by
    cases hlimit : profile.limit .soft (.branch branchId) metric with
    | none => exact ⟨1, le_refl 1, fun _ h => (nomatch h)⟩
    | some limit =>
      rcases (BudgetProfile.limit_nonneg hlimit).eq_or_lt with rfl | hpos
      · refine ⟨1, le_refl 1, fun _ h => ?_⟩
        cases h
        rw [zero_mul]
        refine hcommon (_, 0) (List.mem_append_right _ ?_)
        rw [if_pos hlimit]
        exact List.mem_singleton_self _
      · refine ⟨max 1 (((usageAt db.usage ((LimitScope.branch branchId).bucketKey, .soft,
          metric)).committed + amount) / limit), le_max_left _ _, fun _ h => ?_⟩
        cases h
        have hle := mul_le_mul_of_nonneg_left (le_max_right 1
          (((usageAt db.usage ((LimitScope.branch branchId).bucketKey, .soft, metric)).committed +
            amount) / limit)) hpos.le
        rw [mul_div_cancel₀ _ hpos.ne'] at hle
        have htolerance := tolerance_pos
        linarith
  have hamount : 0 ≤ amount := (hleast.trans_lt hmore).le
  obtain ⟨worker, hworker⟩ := exists_worker (profile.hardWorkerLimits.keys ++ profile.softWorkerLimits.keys)
  obtain ⟨later, hledger, hsettled⟩ := exists_settled hdb capacityRetryAfter
  obtain ⟨reservationId, decision, hok, hallow⟩ := @reserve_allows profile
    (budgetRun capacityRetryAfter db later) capacityRetryAfter (spareTask worker branchId)
    (demandOf metric amount hamount) (spareContext multiplier hone) rfl (by
      intro check hcheck hviolated
      unfold BudgetCheck.violated at hviolated
      obtain ⟨hreserved, hcommitted⟩ := hsettled check.key
      rw [hreserved, hcommitted] at hviolated
      obtain ⟨hrequested, ⟨limit, hlimit, hkey, heffective⟩ | ⟨limit, hlimit, hkey, heffective⟩⟩ :=
        rawCheck_spare hworker hone hamount hcheck
      · have hmem : (check.key, limit) ∈ commonLimits profile branchId metric := by
          refine List.mem_append_left _ (List.mem_filterMap.mpr ⟨(.global, check.budgetClass), ?_, ?_⟩)
          · cases check.budgetClass <;> simp
          · simp only [hlimit, hkey, Option.map_some]
        have hle := hcommon _ hmem
        rw [hrequested, heffective] at hviolated
        linarith
      · cases hclass : check.budgetClass with
        | hard =>
          have hmem : (check.key, limit) ∈ commonLimits profile branchId metric := by
            rw [hclass] at hlimit hkey
            refine List.mem_append_left _ (List.mem_filterMap.mpr ⟨(.branch branchId, .hard), by simp, ?_⟩)
            simp only [hlimit, hkey, Option.map_some]
          have hle := hcommon _ hmem
          rw [hrequested, heffective, hclass, if_neg (by decide), mul_one] at hviolated
          linarith
        | soft =>
          rw [hclass] at hlimit hkey
          have hle := hsoft limit hlimit
          rw [hrequested, heffective, hclass, if_pos rfl, hkey] at hviolated
          linarith)
  have hdeny := h later _ _ _ 1 0 reservationId true decision rfl
    (by rw [amount_demandOf, if_pos rfl]; exact hmore) hok
  rw [hallow] at hdeny
  cases hdeny

end Granting

/-! ## The close -/

section Close

variable (config : ConvergenceConfig) (maximumTier : SearchTier) (profile : BudgetProfile)
    (capacityRetryAfter : Duration) (db : BudgetDb) (prior : ConvergenceState) (least : ℚ)

/-- A decision on what the inspector reads closes the lane for hard pressure only if there is a metric, no
    capacity, on which every later demand of more than `least` is denied. -/
def HardCloseDenies : Prop :=
  ∀ (signals : ConvergenceSignals) (now : Instant) (decision : ConvergenceDecision),
    branchBudgetState profile (sqliteBudgetStore.usage db) prior.branchId prior.lane
      prior.branchSoftMultiplier = .ok signals.budget →
    decideConvergence config maximumTier prior signals now = .ok decision →
    decision.ClosesForHardPressure →
    ∃ metric : BudgetMetric, metric.isCapacity = false ∧
      DeniedForGood profile prior.branchId metric capacityRetryAfter db least

/-- If the lane is open and its hard pressure reaches the threshold, a metric that is no capacity is spent. -/
def PressureIsSpent : Prop :=
  prior.closed = false →
    ∀ budget ∈ (branchBudgetState profile (sqliteBudgetStore.usage db) prior.branchId prior.lane
      prior.branchSoftMultiplier).toOption,
    config.hardPressureCloseThreshold ≤ budget.hardPressure →
    ∃ metric : BudgetMetric, metric.isCapacity = false ∧
      SpentForGood profile prior.branchId metric (sqliteBudgetStore.usage db) least

variable {config maximumTier profile capacityRetryAfter db prior least}

theorem HardCloseDenies.spent (hdb : Ledger db) (hleast : 0 ≤ least)
    (h : HardCloseDenies config maximumTier profile capacityRetryAfter db prior least) :
    PressureIsSpent config profile db prior least := by
  intro hopen budget hbudget hpressure
  let signals : ConvergenceSignals :=
    ⟨⟨0, 0, 0, 0, false⟩, ⟨0, 0, ⟨le_refl 0, zero_le_one⟩, ⟨le_refl 0, zero_le_one⟩⟩, budget⟩
  have hholds : hardPressureHolds config signals := hpressure
  obtain ⟨decision, hdecision⟩ := decideConvergence_of_hardPressure config maximumTier 0 hopen hholds
  have hread : branchBudgetState profile (sqliteBudgetStore.usage db) prior.branchId prior.lane
      prior.branchSoftMultiplier = .ok budget := by
    cases hresult : branchBudgetState profile (sqliteBudgetStore.usage db) prior.branchId prior.lane
        prior.branchSoftMultiplier with
    | error e =>
      rw [hresult] at hbudget
      cases hbudget
    | ok budget' =>
      rw [hresult] at hbudget
      exact congrArg _ (Option.some.inj hbudget)
  obtain ⟨metric, hcapacity, hdenied⟩ := h signals 0 decision hread hdecision
    ((closesForHardPressure_iff hdecision).mpr ⟨hopen, hholds⟩)
  exact ⟨metric, hcapacity, hdenied.spent hdb capacityRetryAfter hleast⟩

theorem PressureIsSpent.denies (hdb : Ledger db) (hleast : 0 ≤ least)
    (h : PressureIsSpent config profile db prior least) :
    HardCloseDenies config maximumTier profile capacityRetryAfter db prior least := by
  intro signals now decision hread hdecision hcloses
  obtain ⟨hopen, hholds⟩ := (closesForHardPressure_iff hdecision).mp hcloses
  obtain ⟨metric, hcapacity, hspent⟩ := h hopen signals.budget (by rw [hread]; rfl) hholds
  exact ⟨metric, hcapacity, hspent.denied hdb capacityRetryAfter hleast hcapacity⟩

end Close

/-- **When a close for hard pressure is right**: in every state that a run of the budget manager leads to, for
    every demand above any least amount. -/
theorem hard_close_denies_iff (capacityRetryAfter : Duration) (cmds : List BudgetCmd)
    (profile : BudgetProfile) (config : ConvergenceConfig) (maximumTier : SearchTier)
    (prior : ConvergenceState) (least : ℚ≥0) : HardCloseDenies config maximumTier profile capacityRetryAfter
        (budgetRun capacityRetryAfter BudgetDb.empty cmds) prior least ↔
      PressureIsSpent config profile (budgetRun capacityRetryAfter BudgetDb.empty cmds) prior least :=
  have hdb := Ledger.empty.budgetRun capacityRetryAfter cmds
  ⟨fun h => h.spent hdb least.2, fun h => h.denies hdb least.2⟩

/-- One task of a branch at a time. -/
def oneSlotProfile : BudgetProfile where
  hardBranchLimits := { concurrentTasks := some 1 }
  hardMaxBranchDepth := some 4
  explorationReserveFraction := 1 / 4

/-- The task that runs holds the slot. -/
def slotHeld : BudgetDb :=
  budgetRun 30000000 BudgetDb.empty
    [.reserve oneSlotProfile (spareTask ⟨"naabu", by decide, by decide⟩ "evt_seed") {}
      (spareContext 1 (le_refl 1)) 60000000 0 "res_slot" true]

/-- The lane the task runs in. -/
def runningLane : ConvergenceState := { branchId := "evt_seed", lane := .normal, tier := .small, updatedAt := 0 }

/-- Its own reservation closes the lane, and gives nothing to deny later. -/
theorem own_slot_closes :
    ¬ HardCloseDenies defaultConvergenceConfig .exhaustive oneSlotProfile 30000000 slotHeld runningLane 0 := by
  intro h
  have hspent : PressureIsSpent defaultConvergenceConfig oneSlotProfile slotHeld runningLane 0 :=
    h.spent (Ledger.empty.budgetRun 30000000 _) (le_refl 0)
  obtain ⟨metric, hcapacity, hmetric⟩ := hspent rfl _ rfl (by decide +kernel)
  revert hmetric hcapacity
  cases metric <;> decide +kernel

end NightScout
