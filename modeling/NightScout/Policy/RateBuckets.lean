import NightScout.Policy.RateLimit
import NightScout.Lib.Ledger
import Mathlib.Tactic.Linarith

/-!
# The arithmetic of one acquire

What both rate-limit stores do between reading the buckets and writing them: refill a copy, compare
it with the check, and project what is left. The two stores share this text line by line and differ
in how they write the result, so it is stated once here and each store is a module of its own.

The loop reads the stored buckets only, never what it has projected so far. Of two checks of one
bucket the last one's projection is what is written (`lastOn`).
-/

namespace NightScout

open Lib

namespace RateBucketCheck

/-- `_current_bucket`: the stored bucket, refilled to `now` if the check paces requests. The clock
    of a bucket moves to `now` even when `now` is in its past. -/
def currentBucket (check : RateBucketCheck) (stored : Option RateBucket) (now : Instant) :
    RateBucket :=
  match stored with
  | none => { tokens := check.burst.getD 0, lastRefillAt := now }
  | some bucket =>
    match check.requestsPerSecond, check.burst with
    | some rate, some burst =>
      let elapsed := max (totalSeconds (now - bucket.lastRefillAt)) 0
      { bucket with tokens := min burst (bucket.tokens + elapsed * rate), lastRefillAt := now }
    | _, _ => bucket

/-- The demand that can never be met: it raises. -/
def exceedsBurst (check : RateBucketCheck) : Prop :=
  0 < check.requests ∧ check.requestsPerSecond.isSome ∧
    ∃ burst ∈ check.burst, burst + tolerance < check.requests

instance (check : RateBucketCheck) : Decidable check.exceedsBurst := by
  unfold exceedsBurst
  cases check.burst with
  | none => exact .isFalse (by simp)
  | some burst => exact decidable_of_iff (0 < check.requests ∧ check.requestsPerSecond.isSome ∧
      burst + tolerance < check.requests) (by simp)

/-- Too few tokens, with the tolerance. -/
def lacksTokens (check : RateBucketCheck) (bucket : RateBucket) : Prop :=
  0 < check.requests ∧ check.requestsPerSecond.isSome ∧ check.burst.isSome ∧
    bucket.tokens + tolerance < check.requests

instance (check : RateBucketCheck) (bucket : RateBucket) : Decidable (check.lacksTokens bucket) :=
  inferInstanceAs (Decidable (_ ∧ _))

/-- `check.concurrency > 0 and check.max_concurrency is not None`. -/
def takesConcurrency (check : RateBucketCheck) : Bool :=
  0 < check.concurrency && check.maxConcurrency.isSome

/-- No free slot. -/
def lacksConcurrency (check : RateBucketCheck) (bucket : RateBucket) : Prop :=
  check.takesConcurrency ∧
    check.maxConcurrency.getD 0 < bucket.activeConcurrency + check.concurrency

instance (check : RateBucketCheck) (bucket : RateBucket) :
    Decidable (check.lacksConcurrency bucket) := inferInstanceAs (Decidable (_ ∧ _))

/-- What an acquire takes from a bucket's tokens. -/
def spent (check : RateBucketCheck) : ℚ :=
  if 0 < check.requests ∧ check.requestsPerSecond.isSome then check.requests else 0

/-- What an acquire adds to a bucket's concurrency. -/
def taken (check : RateBucketCheck) : ℕ := if check.takesConcurrency then check.concurrency else 0

/-- The candidate after the spending. -/
def spend (check : RateBucketCheck) (bucket : RateBucket) : RateBucket where
  tokens := bucket.tokens - check.spent
  lastRefillAt := bucket.lastRefillAt
  activeConcurrency := bucket.activeConcurrency + check.taken

/-- The item of the lease a check asks for. -/
def item (check : RateBucketCheck) : RateLeaseItem where
  ruleId := check.ruleId
  bucketKey := check.bucketKey
  concurrency := check.concurrency

/-- What the loop finds nothing against. -/
def Passes (check : RateBucketCheck) (bucket : RateBucket) : Prop :=
  ¬ check.exceedsBurst ∧ ¬ check.lacksTokens bucket ∧ ¬ check.lacksConcurrency bucket

instance (check : RateBucketCheck) (bucket : RateBucket) : Decidable (check.Passes bucket) :=
  inferInstanceAs (Decidable (_ ∧ _))

end RateBucketCheck

def leaseItems (checks : List RateBucketCheck) : List RateLeaseItem :=
  (checks.filter RateBucketCheck.takesConcurrency).map RateBucketCheck.item

/-- The last check of a bucket. -/
def lastOn : List RateBucketCheck → RateBucketKey → Option RateBucketCheck
  | [], _ => none
  | check :: checks, key =>
    (lastOn checks key).or (if check.key = key then some check else none)

theorem lastOn_some {checks : List RateBucketCheck} {key : RateBucketKey} {check : RateBucketCheck}
    (h : lastOn checks key = some check) : check ∈ checks ∧ check.key = key := by
  induction checks with
  | nil => cases h
  | cons first checks ih =>
    rw [lastOn, Option.or_eq_some_iff] at h
    rcases h with h | ⟨-, h⟩
    · exact ⟨List.mem_cons_of_mem first (ih h).1, (ih h).2⟩
    · split at h
      · cases h
        exact ⟨List.mem_cons_self, ‹_›⟩
      · cases h

theorem lastOn_none {checks : List RateBucketCheck} {key : RateBucketKey}
    (h : lastOn checks key = none) : ∀ check ∈ checks, check.key ≠ key := by
  induction checks with
  | nil => simp
  | cons first checks ih =>
    rw [lastOn, Option.or_eq_none_iff] at h
    refine List.forall_mem_cons.mpr ⟨fun hkey => ?_, ih h.1⟩
    rw [if_pos hkey] at h
    cases h.2

namespace RateLimitState

/-- The bucket a check reads. -/
def current (s : RateLimitState) (now : Instant) (check : RateBucketCheck) : RateBucket :=
  check.currentBucket (s.buckets.get? check.key) now

def earliestConcurrencyRelease (s : RateLimitState) (key : RateBucketKey) (now : Instant) : ℚ :=
  let expiries := (s.leases.values.filter fun lease =>
    lease.state = .active ∧ ∃ item ∈ lease.items, item.key = key ∧ 0 < item.concurrency).map
      RateLimitLease.expiresAt
  match expiries.min? with
  | none => 1 / 1000
  | some earliest => max (totalSeconds (earliest - now)) (1 / 1000)

def tokenRetry (s : RateLimitState) (now : Instant) (check : RateBucketCheck) : ℚ :=
  if check.lacksTokens (s.current now check) then
    (check.requests - (s.current now check).tokens) / check.requestsPerSecond.getD 0
  else 0

def concurrencyRetry (s : RateLimitState) (now : Instant) (check : RateBucketCheck) : ℚ :=
  if check.lacksConcurrency (s.current now check) then s.earliestConcurrencyRelease check.key now
  else 0

/-- The violation of a check that has to wait. -/
def rateViolation (s : RateLimitState) (now : Instant) (check : RateBucketCheck) :
    RateLimitViolation where
  ruleId := check.ruleId
  bucketKey := check.bucketKey
  kind :=
    if 0 < s.tokenRetry now check ∧ 0 < s.concurrencyRetry now check then "TOKENS_AND_CONCURRENCY"
    else if 0 < s.tokenRetry now check then "TOKENS"
    else "CONCURRENCY"
  reason := "shared rate/concurrency capacity is temporarily unavailable"
  retryAfterSeconds := max (s.tokenRetry now check) (s.concurrencyRetry now check)

/-- The loop of `try_acquire`: the violations, and the buckets as they will be written. -/
def checkBuckets (burstError : RateBucketCheck → PyError) (s : RateLimitState) (now : Instant)
    (projected : Dict RateBucketKey RateBucket) :
    List RateBucketCheck → Except PyError (List RateLimitViolation × Dict RateBucketKey RateBucket)
  | [] => .ok ([], projected)
  | check :: checks =>
    if check.exceedsBurst then .error (burstError check)
    else if 0 < max (s.tokenRetry now check) (s.concurrencyRetry now check) then do
      let (violations, projected) ← checkBuckets burstError s now projected checks
      return (s.rateViolation now check :: violations, projected)
    else
      checkBuckets burstError s now
        (projected.set check.key (check.spend (s.current now check))) checks

/-- The decision on violations. -/
def deferred (taskId : String) (checks : List RateBucketCheck)
    (violations : List RateLimitViolation) : RateLimitDecision where
  outcome := .defer
  taskId := taskId
  violations := violations
  checkedBuckets := checks
  reason := some "shared rate-limit capacity is temporarily exhausted"
  retryAfterSeconds := (violations.map RateLimitViolation.retryAfterSeconds).max?

/-- The decision on no violation. -/
def allowed (taskId : String) (checks : List RateBucketCheck) (lease : Option RateLimitLease) :
    RateLimitDecision where
  outcome := .allow
  taskId := taskId
  lease := lease
  checkedBuckets := checks

/-- What every check of an acquire finds room for. -/
def Admits (s : RateLimitState) (now : Instant) (checks : List RateBucketCheck) : Prop :=
  ∀ check ∈ checks, check.Passes (s.current now check)

instance (s : RateLimitState) (now : Instant) (checks : List RateBucketCheck) :
    Decidable (s.Admits now checks) := inferInstanceAs (Decidable (∀ _ ∈ _, _))

/-! ## Leaving ACTIVE -/

/-- The order of `_rate_items`. -/
def sortedItems (items : List RateLeaseItem) : List RateLeaseItem :=
  items.insertionSort fun a b => pairLe a.key b.key

/-- `_release_lease_items`, `_release_rate_items`: also the buckets as they are when it raises. -/
def releaseItems (missing underflow : RateLeaseItem → PyError)
    (buckets : Dict RateBucketKey RateBucket) :
    List RateLeaseItem → Except PyError Unit × Dict RateBucketKey RateBucket
  | [] => (.ok (), buckets)
  | item :: items =>
    if item.concurrency = 0 then releaseItems missing underflow buckets items
    else
      match buckets.get? item.key with
      | none => (.error (missing item), buckets)
      | some bucket =>
        if bucket.activeConcurrency < item.concurrency then (.error (underflow item), buckets)
        else
          releaseItems missing underflow (buckets.set item.key
            { bucket with activeConcurrency := bucket.activeConcurrency - item.concurrency }) items

/-- The items and the state of one lease leaving ACTIVE. -/
def closeLease (missing underflow : RateLeaseItem → PyError) (s : RateLimitState)
    (leaseId : String) (lease : RateLimitLease) (state : RateLeaseState) :
    Except PyError RateLimitLease × RateLimitState :=
  match releaseItems missing underflow s.buckets lease.items with
  | (.error e, buckets) => (.error e, { s with buckets })
  | (.ok (), buckets) =>
    (.ok { lease with state }, ⟨buckets, s.leases.set leaseId { lease with state }⟩)

/-- The leases `reap_expired` closes. -/
def expiredLeases (s : RateLimitState) (now : Instant) : List (String × RateLimitLease) :=
  s.leases.entries.filter fun e => e.2.state = .active ∧ e.2.expiresAt ≤ now

/-- The loop of `reap_expired`. -/
def reapAll (missing underflow : RateLeaseItem → PyError) (s : RateLimitState) :
    List (String × RateLimitLease) → Except PyError (List RateLimitLease) × RateLimitState
  | [] => (.ok [], s)
  | (leaseId, lease) :: leases =>
    match closeLease missing underflow s leaseId lease .expired with
    | (.error e, s) => (.error e, s)
    | (.ok updated, s) =>
      match reapAll missing underflow s leases with
      | (.error e, s) => (.error e, s)
      | (.ok expired, s) => (.ok (updated :: expired), s)

/-! ## What the loop finds -/

variable {s : RateLimitState} {now : Instant} {check : RateBucketCheck}

theorem earliestConcurrencyRelease_pos (key : RateBucketKey) : 0 < s.earliestConcurrencyRelease key now := by
  have hmin : (0 : ℚ) < 1 / 1000 := by norm_num
  unfold earliestConcurrencyRelease
  simp only
  split
  · exact hmin
  · exact lt_of_lt_of_le hmin (le_max_right _ _)

/-- A wait is asked for exactly when something is missing: no wait is of length zero. -/
theorem retry_pos_iff : 0 < max (s.tokenRetry now check) (s.concurrencyRetry now check) ↔
    check.lacksTokens (s.current now check) ∨ check.lacksConcurrency (s.current now check) := by
  have htoken : 0 < s.tokenRetry now check ↔ check.lacksTokens (s.current now check) := by
    unfold tokenRetry
    split
    next h =>
      obtain ⟨-, hrate, -, hlt⟩ := id h
      obtain ⟨rate, hrate⟩ := Option.isSome_iff_exists.mp hrate
      have hpos : 0 < rate := check.rps_pos rate hrate
      have hmissing : 0 < check.requests - (s.current now check).tokens := by
        have htol := tolerance_pos
        linarith
      simpa only [hrate, Option.getD_some, h, iff_true] using div_pos hmissing hpos
    next h => simpa using h
  have hconc : 0 < s.concurrencyRetry now check ↔
      check.lacksConcurrency (s.current now check) := by
    unfold concurrencyRetry
    split
    next h => simpa only [h, iff_true] using earliestConcurrencyRelease_pos check.key
    next h => simpa using h
  rw [lt_max_iff, htoken, hconc]

/-- A loop without violations: every check passes, and the last check of a bucket decides what is
    projected for it. -/
theorem checkBuckets_ok {burstError : RateBucketCheck → PyError} {checks : List RateBucketCheck}
    {projected projected' : Dict RateBucketKey RateBucket}
    (h : checkBuckets burstError s now projected checks = .ok ([], projected')) :
    s.Admits now checks ∧ ∀ key, projected'.get? key =
      ((lastOn checks key).map fun check => check.spend (s.current now check)).or
        (projected.get? key) := by
  induction checks generalizing projected with
  | nil =>
    cases h
    exact ⟨fun _ h => by simp at h, fun key => by simp [lastOn]⟩
  | cons check checks ih =>
    simp only [checkBuckets] at h
    obtain ⟨hburst, h⟩ := guard_ok h
    split at h
    next =>
      obtain ⟨⟨violations, rest⟩, -, hret⟩ := bind_ok h
      cases hret
    next hretry =>
      obtain ⟨hadmits, hget⟩ := ih h
      rw [retry_pos_iff, not_or] at hretry
      refine ⟨List.forall_mem_cons.mpr ⟨⟨hburst, hretry.1, hretry.2⟩, hadmits⟩, fun key => ?_⟩
      rw [hget key, Dict.get?_set, lastOn]
      by_cases hkey : key = check.key
      · subst hkey
        cases lastOn checks check.key <;> simp
      · cases lastOn checks key <;> simp [hkey, Ne.symm hkey]

end RateLimitState

end NightScout
