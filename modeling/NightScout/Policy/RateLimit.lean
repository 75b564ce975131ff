import NightScout.Core.Budgets
import NightScout.Lib.Fnmatch

/-!
# Shared rate limits: rules, checks and the limiter

`recon/policy/rate_limit.py`, without the stores. A rule paces requests by a token bucket, bounds
concurrency, or both; `RateLimiter.acquire` compiles the rules that match a task into one check a
bucket and hands them to a store, which makes them all at once.

Token counts are exact rationals and `str.lower` is a parameter: nothing that is proved of the
limiter depends on what lower case is.
-/

namespace NightScout

open Lib

inductive RateLimitScope where
  | global | perResource
  deriving DecidableEq, Repr

inductive RateLimitOutcome where
  | allow | defer | deny
  deriving DecidableEq, Repr

inductive RateLeaseState where
  | active | released | expired
  deriving DecidableEq, Repr

def RateLeaseState.value : RateLeaseState → String
  | active => "ACTIVE" | released => "RELEASED" | expired => "EXPIRED"

/-- A rule after `validate_rule`: the default burst is filled in. -/
def anyResource : Stripped := ⟨"*", by decide, by decide⟩

structure RateLimitRule where
  ruleId : Stripped
  scope : RateLimitScope := .perResource
  resourcePattern : Stripped := anyResource
  requestsPerSecond : Option ℚ := none
  burst : Option ℚ := requestsPerSecond
  maxConcurrency : Option ℕ := none
  workers : List String := []
  reason : Option String := none
  limited : requestsPerSecond.isSome ∨ maxConcurrency.isSome := by decide
  burst_isSome : burst.isSome = requestsPerSecond.isSome := by decide
  rps_pos : ∀ r ∈ requestsPerSecond, 0 < r := by decide +kernel
  burst_pos : ∀ b ∈ burst, 0 < b := by decide +kernel
  max_pos : ∀ m ∈ maxConcurrency, 1 ≤ m := by decide

structure RateLimitProfile where
  rules : List RateLimitRule := []
  requireMatchingRule : Bool := true
  defaultRetryAfterSeconds : ℚ := 1
  rules_nodup : (rules.map fun rule => rule.ruleId.text).Nodup := by decide
  retry_nonneg : 0 ≤ defaultRetryAfterSeconds := by decide +kernel

/-- Concrete resources a task is expected to touch: a set of normalized keys. -/
structure RateLimitContext where
  resourceKeys : List String := []
  resourceKeys_nodup : resourceKeys.Nodup := by decide

/-- `normalize_resource_keys`. -/
def RateLimitContext.normalize (lower : String → String) (keys : List String) :
    RateLimitContext where
  resourceKeys := ((keys.filter fun key => strip key ≠ "").map fun key => lower (strip key)).dedup
  resourceKeys_nodup := List.nodup_dedup _

structure RateLimitDemand where
  requests : ℚ := 1
  concurrency : ℕ := 1
  requests_nonneg : 0 ≤ requests := by decide +kernel
  some_demand : ¬ (requests = 0 ∧ concurrency = 0) := by decide +kernel

/-- The identity of one shared bucket: rule and bucket key. -/
abbrev RateBucketKey := String × String

structure RateBucketCheck where
  ruleId : String
  bucketKey : String
  requests : ℚ := 0
  concurrency : ℕ := 0
  requestsPerSecond : Option ℚ := none
  burst : Option ℚ := none
  maxConcurrency : Option ℕ := none
  requests_nonneg : 0 ≤ requests := by decide +kernel
  rps_pos : ∀ r ∈ requestsPerSecond, 0 < r := by decide +kernel
  burst_pos : ∀ b ∈ burst, 0 < b := by decide +kernel
  max_pos : ∀ m ∈ maxConcurrency, 1 ≤ m := by decide

/-! The limits that a rule or a check does not have, and the default delay. -/

theorem no_rate_pos : ∀ r ∈ (none : Option ℚ), 0 < r := by decide

theorem no_concurrency_pos : ∀ m ∈ (none : Option ℕ), 1 ≤ m := by decide

theorem no_rate_isSome : (none : Option ℚ).isSome = (none : Option ℚ).isSome := rfl

theorem retry_nonneg : (0 : ℚ) ≤ 1 := zero_le_one

instance : DecidableEq RateBucketCheck := fun a b =>
  decidable_of_iff (a.ruleId = b.ruleId ∧ a.bucketKey = b.bucketKey ∧ a.requests = b.requests ∧
    a.concurrency = b.concurrency ∧ a.requestsPerSecond = b.requestsPerSecond ∧ a.burst = b.burst ∧
    a.maxConcurrency = b.maxConcurrency) (by cases a; cases b; simp)

/-- The bucket a check is about. -/
def RateBucketCheck.key (check : RateBucketCheck) : RateBucketKey := (check.ruleId, check.bucketKey)

structure RateLimitViolation where
  ruleId : String
  bucketKey : String
  kind : String
  reason : String
  retryAfterSeconds : ℚ
  deriving DecidableEq

structure RateLeaseItem where
  ruleId : String
  bucketKey : String
  concurrency : ℕ := 0
  deriving DecidableEq

/-- The bucket an item is held in. -/
def RateLeaseItem.key (item : RateLeaseItem) : RateBucketKey := (item.ruleId, item.bucketKey)

structure RateLimitLease where
  leaseId : String
  taskId : String
  items : List RateLeaseItem
  createdAt : Instant
  expiresAt : Instant
  state : RateLeaseState := .active
  deriving DecidableEq

structure RateLimitDecision where
  outcome : RateLimitOutcome
  taskId : String
  lease : Option RateLimitLease := none
  violations : List RateLimitViolation := []
  checkedBuckets : List RateBucketCheck := []
  reason : Option String := none
  retryAfterSeconds : Option ℚ := none
  deriving DecidableEq

/-! ## Matching -/

namespace RateLimitRule

def matchesWorker (rule : RateLimitRule) (worker : String) : Bool :=
  rule.workers.isEmpty || worker ∈ rule.workers

def matchesResource (lower : String → String) (rule : RateLimitRule) (resourceKey : String) : Bool :=
  fnmatchcase resourceKey (lower rule.resourcePattern.text)

/-- What `_matching_rule_resources` appends for one rule. -/
def matchingResources (lower : String → String) (rule : RateLimitRule) (worker : String)
    (context : RateLimitContext) : List (RateLimitRule × Option String) :=
  if !rule.matchesWorker worker then []
  else
    match rule.scope with
    | .global =>
      if context.resourceKeys.isEmpty then
        if rule.resourcePattern.text = "*" then [(rule, none)] else []
      else if context.resourceKeys.any (rule.matchesResource lower) then [(rule, none)]
      else []
    | .perResource =>
      ((context.resourceKeys.insertionSort (· ≤ ·)).filter (rule.matchesResource lower)).map
        fun resourceKey => (rule, some resourceKey)

/-- The bucket a matched rule charges. `resourceKey` is `None` only for a `GLOBAL` rule. -/
def bucketKey (rule : RateLimitRule) (resourceKey : Option String) : String :=
  match rule.scope with
  | .global => "global"
  | .perResource => "resource:" ++ resourceKey.getD "None"

/-- The check of one matched rule. -/
def check (rule : RateLimitRule) (resourceKey : Option String) (demand : RateLimitDemand) :
    RateBucketCheck where
  ruleId := rule.ruleId.text
  bucketKey := rule.bucketKey resourceKey
  requests := demand.requests
  concurrency := demand.concurrency
  requestsPerSecond := rule.requestsPerSecond
  burst := rule.burst
  maxConcurrency := rule.maxConcurrency
  requests_nonneg := demand.requests_nonneg
  rps_pos := rule.rps_pos
  burst_pos := rule.burst_pos
  max_pos := rule.max_pos

end RateLimitRule

def matchingRuleResources (lower : String → String) (profile : RateLimitProfile) (worker : String)
    (context : RateLimitContext) : List (RateLimitRule × Option String) :=
  profile.rules.flatMap fun rule => rule.matchingResources lower worker context

/-- The loop of `_compile_checks`: the first match of a bucket makes its check. -/
def compileInto (demand : RateLimitDemand) (checks : Dict RateBucketKey RateBucketCheck) :
    List (RateLimitRule × Option String) → Dict RateBucketKey RateBucketCheck
  | [] => checks
  | (rule, resourceKey) :: rest =>
    let check := rule.check resourceKey demand
    match checks.get? check.key with
    | some _ => compileInto demand checks rest
    | none => compileInto demand (checks.set check.key check) rest

/-- The order of pairs of texts. -/
def pairLe (a b : RateBucketKey) : Prop := a.1 < b.1 ∨ a.1 = b.1 ∧ a.2 ≤ b.2

instance : DecidableRel pairLe := fun _ _ => inferInstanceAs (Decidable (_ ∨ _))

/-- `RateLimiter._compile_checks`. -/
def compileRateChecks (found : List (RateLimitRule × Option String)) (demand : RateLimitDemand) :
    List RateBucketCheck :=
  ((compileInto demand .empty found).entries.insertionSort fun a b => pairLe a.1 b.1).map Prod.snd

/-! ## The stores and the limiter -/

/-- `_MutableBucket`, and a row of `rate_buckets`. -/
structure RateBucket where
  tokens : ℚ
  lastRefillAt : Instant
  activeConcurrency : ℕ := 0
  deriving DecidableEq

/-- What either store keeps: `_buckets` and `_leases`, or the tables `rate_buckets`, `rate_leases`
    and `rate_lease_items`. An item is kept with its lease, which it never outlives. -/
structure RateLimitState where
  buckets : Dict RateBucketKey RateBucket
  leases : Dict String RateLimitLease

def RateLimitState.empty : RateLimitState := ⟨.empty, .empty⟩

/-- `RateLimitStore`. What the code draws from outside is an argument: the lease id
    `new_rate_lease_id` gives, and whether the task the lease names has a row. -/
structure RateLimitStore where
  tryAcquire : RateLimitState → (taskId : String) → List RateBucketCheck → (leaseFor : Duration) →
    (now : Instant) → (leaseId : String) → (taskRow : Bool) →
    Except PyError RateLimitDecision × RateLimitState
  release : RateLimitState → String → Except PyError RateLimitLease × RateLimitState
  renew : RateLimitState → String → (expiresAt now : Instant) →
    Except PyError RateLimitLease × RateLimitState
  reapExpired : RateLimitState → (now : Instant) →
    Except PyError (List RateLimitLease) × RateLimitState

/-- The checks `acquire` compiles for a task. -/
def acquireChecks (lower : String → String) (profile : RateLimitProfile) (task : Task)
    (context : RateLimitContext) (demand : RateLimitDemand) : List RateBucketCheck :=
  compileRateChecks (matchingRuleResources lower profile task.worker.text context) demand

/-- `RateLimiter.acquire`, which reads `now` before the store is entered. -/
def RateLimitStore.acquire (store : RateLimitStore) (lower : String → String)
    (profile : RateLimitProfile) (s : RateLimitState) (task : Task) (context : RateLimitContext)
    (demand : RateLimitDemand) (leaseFor : Duration) (now : Instant) (leaseId : String)
    (taskRow : Bool) : Except PyError RateLimitDecision × RateLimitState :=
  if leaseFor ≤ 0 then (.error (.valueError "lease_for must be positive"), s)
  else
    let found := matchingRuleResources lower profile task.worker.text context
    if found.isEmpty then
      if profile.requireMatchingRule ∧ (0 < demand.requests ∨ 0 < demand.concurrency) then
        (.ok { outcome := .deny, taskId := task.taskId
               reason := some ("network request demand has no matching rate-limit " ++
                 "rule; fail closed") }, s)
      else
        (.ok { outcome := .allow, taskId := task.taskId
               reason := some "no matching rate-limit rule required" }, s)
    else
      store.tryAcquire s task.taskId (acquireChecks lower profile task context demand) leaseFor now
        leaseId taskRow

/-! ## What the compiled checks are -/

section Compiled

variable {demand : RateLimitDemand} {found : List (RateLimitRule × Option String)}
  {checks : Dict RateBucketKey RateBucketCheck} {P : RateBucketCheck → Prop}

/-- Each check stands under its own key, and has whatever the checks of all matches have. -/
theorem compileInto_forall (hchecks : ∀ key check, checks.get? key = some check → check.key = key ∧ P check)
    (hfound : ∀ e ∈ found, P (e.1.check e.2 demand)) :
    ∀ key check, (compileInto demand checks found).get? key = some check → check.key = key ∧ P check := by
  induction found generalizing checks with
  | nil => exact hchecks
  | cons e found ih =>
    have hrest : ∀ e' ∈ found, P (e'.1.check e'.2 demand) :=
      fun e' he' => hfound e' (List.mem_cons_of_mem e he')
    simp only [compileInto]
    split
    · exact ih hchecks hrest
    · apply ih _ hrest
      intro key check hkey
      rw [Dict.get?_set] at hkey
      split at hkey
      next heq =>
        cases hkey
        exact ⟨heq.symm, hfound e List.mem_cons_self⟩
      next => exact hchecks key check hkey

theorem compileRateChecks_entries :
    ∀ e ∈ (compileInto demand .empty found).entries.insertionSort (fun a b => pairLe a.1 b.1),
      e.2.key = e.1 := by
  intro e he
  have hmem := (List.perm_insertionSort _ _).mem_iff.mp he
  have hget := Dict.mem_entries_iff.mp hmem
  exact (compileInto_forall (P := fun _ => True) (by simp) (by simp) e.1 e.2 hget).1

/-- A compiled list names each bucket once. -/
theorem compileRateChecks_nodup : ((compileRateChecks found demand).map RateBucketCheck.key).Nodup := by
  have hkeys : (compileRateChecks found demand).map RateBucketCheck.key =
      ((compileInto demand .empty found).entries.insertionSort
        (fun a b => pairLe a.1 b.1)).map Prod.fst := by
    rw [compileRateChecks, List.map_map]
    exact List.map_congr_left compileRateChecks_entries
  rw [hkeys]
  exact ((List.perm_insertionSort _ _).map Prod.fst).nodup_iff.mpr (Dict.nodup_keys _)

theorem compileRateChecks_forall (hfound : ∀ e ∈ found, P (e.1.check e.2 demand)) :
    ∀ check ∈ compileRateChecks found demand, P check := by
  intro check hcheck
  obtain ⟨e, he, rfl⟩ := List.mem_map.mp hcheck
  have hget := Dict.mem_entries_iff.mp ((List.perm_insertionSort _ _).mem_iff.mp he)
  exact (compileInto_forall (by simp) hfound e.1 e.2 hget).2

theorem rule_mem_of_match {lower : String → String} {profile : RateLimitProfile} {worker : String}
    {context : RateLimitContext} {e : RateLimitRule × Option String}
    (h : e ∈ matchingRuleResources lower profile worker context) : e.1 ∈ profile.rules := by
  obtain ⟨rule, hrule, he⟩ := List.mem_flatMap.mp h
  have hsame : e.1 = rule := by
    unfold RateLimitRule.matchingResources at he
    split at he
    · simp at he
    · split at he
      · split at he
        · split at he <;> simp_all
        · split at he <;> simp_all
      · obtain ⟨resourceKey, -, rfl⟩ := List.mem_map.mp he
        rfl
  exact hsame ▸ hrule

/-- The checks of an acquire are made by the rules of the profile. -/
theorem acquireChecks_forall {lower : String → String} {profile : RateLimitProfile} {task : Task}
    {context : RateLimitContext} (hrules : ∀ rule ∈ profile.rules, ∀ resourceKey, P (rule.check resourceKey demand)) :
    ∀ check ∈ acquireChecks lower profile task context demand, P check :=
  compileRateChecks_forall fun e he => hrules e.1 (rule_mem_of_match he) e.2

end Compiled

end NightScout
