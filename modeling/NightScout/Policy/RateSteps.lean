import NightScout.Policy.InMemoryRateLimitStore
import NightScout.Storage.SQLiteRateLimitStore

/-!
# What a call of a rate-limit store can do

One statement for each operation and both stores. An acquire either leaves the state alone, or
passes every check and writes the last check of each bucket, and leases; the in-memory store has a
third outcome, in which it wrote the buckets and then raised (`AcquireOutcome`). Release and reap
touch nothing of a bucket but its concurrency (`SamePace`).
-/

namespace NightScout

open Lib

/-- The two stores of the repository. -/
inductive RateBackend where
  | memory | sqlite
  deriving DecidableEq, Repr

namespace RateBackend

def store : RateBackend → RateLimitStore
  | memory => inMemoryRateLimitStore
  | sqlite => sqliteRateLimitStore

/-- Whether an operation that raises is rolled back. -/
def rollsBack : RateBackend → Bool
  | memory => false
  | sqlite => true

end RateBackend

/-- What an acquire asks of a store. -/
structure RateAttempt where
  checks : List RateBucketCheck
  leaseFor : Duration
  now : Instant
  leaseId : String

namespace RateLimitState

/-- The buckets an acquire writes: of each bucket, what its last check leaves of it. -/
structure Wrote (s : RateLimitState) (a : RateAttempt) (buckets : Dict RateBucketKey RateBucket) :
    Prop where
  other : ∀ key, lastOn a.checks key = none → buckets.get? key = s.buckets.get? key
  named : ∀ key check, lastOn a.checks key = some check → ∃ bucket,
    buckets.get? key = some bucket ∧
    bucket.tokens = (s.current a.now check).tokens - check.spent ∧
    bucket.activeConcurrency = (s.current a.now check).activeConcurrency + check.taken ∧
    (check.requestsPerSecond.isSome → check.burst.isSome → bucket.lastRefillAt = a.now)

/-- The leases after an acquire that is allowed. -/
def Leased (s : RateLimitState) (a : RateAttempt) (lease : Option RateLimitLease)
    (leases : Dict String RateLimitLease) : Prop :=
  (leaseItems a.checks = [] ∧ lease = none ∧ leases = s.leases) ∨
  ∃ l : RateLimitLease, lease = some l ∧ l.leaseId = a.leaseId ∧ l.items = leaseItems a.checks ∧
    l.state = .active ∧ leases = s.leases.set a.leaseId l

/-- What an acquire can do. -/
inductive AcquireOutcome (rollsBack : Bool) (s : RateLimitState) (a : RateAttempt) :
    Except PyError RateLimitDecision × RateLimitState → Prop
  /-- DEFER, DENY or an exception, and the state as it was. -/
  | refused {r : Except PyError RateLimitDecision}
      (hnot : ∀ d, r = .ok d → d.outcome ≠ .allow)
      (htokens : r = .error SQLiteRateLimitStore.tokensConstraint → s.Admits a.now a.checks ∧
        ∃ key check, lastOn a.checks key = some check ∧
          (s.current a.now check).tokens < check.spent) :
      AcquireOutcome rollsBack s a (r, s)
  /-- ALLOW. -/
  | granted {d : RateLimitDecision} {buckets : Dict RateBucketKey RateBucket}
      {leases : Dict String RateLimitLease}
      (hallow : d.outcome = .allow) (hchecked : d.checkedBuckets = a.checks)
      (hadmits : s.Admits a.now a.checks) (hwrote : s.Wrote a buckets)
      (hleased : s.Leased a d.lease leases)
      (hdistinct : rollsBack = true → ((leaseItems a.checks).map RateLeaseItem.key).Nodup) :
      AcquireOutcome rollsBack s a (.ok d, ⟨buckets, leases⟩)
  /-- The buckets are written, and then the end of the lease is no date. -/
  | spentNotLeased {e : PyError} {buckets : Dict RateBucketKey RateBucket}
      (hmemory : rollsBack = false) (hitems : leaseItems a.checks ≠ [])
      (hlate : maxInstant < a.now + a.leaseFor) (he : e ≠ SQLiteRateLimitStore.tokensConstraint)
      (hadmits : s.Admits a.now a.checks) (hwrote : s.Wrote a buckets) :
      AcquireOutcome rollsBack s a (.error e, { s with buckets })

variable {s : RateLimitState} {a : RateAttempt}

/-- An exception that is not the refusal of negative tokens, with the state as it was. -/
theorem AcquireOutcome.raised {rollsBack : Bool} {e : PyError} (he : e ≠ SQLiteRateLimitStore.tokensConstraint) :
    AcquireOutcome rollsBack s a (.error e, s) :=
  .refused (fun d h => by cases h) fun h => absurd (Except.error.inj h) he

theorem AcquireOutcome.deferred {rollsBack : Bool} (taskId : String) (violations : List RateLimitViolation) :
    AcquireOutcome rollsBack s a (.ok (RateLimitState.deferred taskId a.checks violations), s) :=
  .refused (fun d h => by cases h; simp [RateLimitState.deferred]) fun h => by cases h

/-- A token bucket refilled has its clock at `now`. -/
theorem lastRefillAt_currentBucket {check : RateBucketCheck} {stored : Option RateBucket}
    {now : Instant} (hrate : check.requestsPerSecond.isSome) (hburst : check.burst.isSome) :
    (check.currentBucket stored now).lastRefillAt = now := by
  obtain ⟨rate, hrate⟩ := Option.isSome_iff_exists.mp hrate
  obtain ⟨burst, hburst⟩ := Option.isSome_iff_exists.mp hburst
  cases stored with
  | none => rfl
  | some bucket => simp only [RateBucketCheck.currentBucket, hrate, hburst]

/-- Errors raised by the loop are not the constraint's. -/
theorem checkBuckets_error {burstError : RateBucketCheck → PyError} {now : Instant}
    {projected : Dict RateBucketKey RateBucket} {checks : List RateBucketCheck} {e : PyError}
    (hburst : ∀ check, burstError check ≠ SQLiteRateLimitStore.tokensConstraint)
    (h : checkBuckets burstError s now projected checks = .error e) : e ≠ SQLiteRateLimitStore.tokensConstraint := by
  induction checks generalizing projected with
  | nil => cases h
  | cons check checks ih =>
    simp only [checkBuckets] at h
    split at h
    · cases h
      exact hburst check
    · split at h
      · cases hrest : checkBuckets burstError s now projected checks with
        | error e' =>
          rw [hrest] at h
          cases h
          exact ih hrest
        | ok rest =>
          rw [hrest] at h
          cases h
      · exact ih h

/-- What the loop projects, as it is written. -/
theorem wrote_of_projected {burstError : RateBucketCheck → PyError}
    {projected buckets : Dict RateBucketKey RateBucket} (write : RateBucket → RateBucket)
    (h : checkBuckets burstError s a.now .empty a.checks = .ok ([], projected))
    (hget : ∀ key, buckets.get? key = ((projected.get? key).map write).or (s.buckets.get? key))
    (htokens : ∀ bucket, (write bucket).tokens = bucket.tokens)
    (hactive : ∀ bucket, (write bucket).activeConcurrency = bucket.activeConcurrency)
    (hclock : ∀ bucket, bucket.lastRefillAt = a.now → (write bucket).lastRefillAt = a.now) : s.Wrote a buckets := by
  have hprojected := (checkBuckets_ok h).2
  constructor
  · intro key hnone
    rw [hget key, hprojected key, hnone]
    rfl
  · intro key check hlast
    rw [hget key, hprojected key, hlast]
    refine ⟨write (check.spend (s.current a.now check)), rfl, ?_, ?_, fun hrate hburst => ?_⟩
    · rw [htokens]
      rfl
    · rw [hactive]
      rfl
    · apply hclock
      exact lastRefillAt_currentBucket hrate hburst

/-- A projected bucket below zero is a check that spends more than there is. -/
theorem exists_overdraft {burstError : RateBucketCheck → PyError} {projected : Dict RateBucketKey RateBucket}
    (h : checkBuckets burstError s a.now .empty a.checks = .ok ([], projected))
    (hneg : ¬ ∀ bucket ∈ projected.values, 0 ≤ bucket.tokens) : ∃ key check, lastOn a.checks key = some check ∧
      (s.current a.now check).tokens < check.spent := by
  simp only [not_forall, not_le] at hneg
  obtain ⟨bucket, hmem, hlt⟩ := hneg
  obtain ⟨key, hkey⟩ := Dict.mem_values_iff.mp hmem
  rw [(checkBuckets_ok h).2 key] at hkey
  cases hlast : lastOn a.checks key with
  | none =>
    rw [hlast] at hkey
    cases hkey
  | some check =>
    rw [hlast] at hkey
    cases hkey
    refine ⟨key, check, hlast, ?_⟩
    have hspend : (s.current a.now check).tokens - check.spent < 0 := hlt
    linarith

theorem memory_outcome (s : RateLimitState) (a : RateAttempt) (taskId : String) : AcquireOutcome false s a
      (InMemoryRateLimitStore.tryAcquire s taskId a.checks a.leaseFor a.now a.leaseId) := by
  unfold InMemoryRateLimitStore.tryAcquire
  split
  · exact .raised (by simp [SQLiteRateLimitStore.tokensConstraint])
  cases hloop : checkBuckets InMemoryRateLimitStore.burstError s a.now .empty a.checks with
  | error e =>
    exact .raised (checkBuckets_error (fun check => by
      simp [InMemoryRateLimitStore.burstError, SQLiteRateLimitStore.tokensConstraint]) hloop)
  | ok found =>
    obtain ⟨violations, projected⟩ := found
    simp only
    split
    · exact .deferred taskId violations
    next hnone =>
      obtain rfl : violations = [] := not_not.mp hnone
      have hwrote : s.Wrote a (s.buckets.update projected) :=
        wrote_of_projected id hloop (by simp) (by simp) (by simp) (by simp)
      have hadmits := (checkBuckets_ok hloop).1
      split
      next hitems =>
        exact .granted rfl rfl hadmits hwrote (.inl ⟨hitems, rfl, rfl⟩) (by simp)
      next hitems =>
        cases hend : addDelta a.now a.leaseFor with
        | error e =>
          -- the lease cannot be built any more, and nothing takes the buckets back
          have he := addDelta_error hend
          subst he
          refine .spentNotLeased rfl hitems ?_ (by simp [SQLiteRateLimitStore.tokensConstraint])
            hadmits hwrote
          by_contra hle
          rw [addDelta, if_pos (not_lt.mp hle)] at hend
          cases hend
        | ok expiresAt =>
          exact .granted rfl rfl hadmits hwrote
            (.inr ⟨_, rfl, rfl, rfl, rfl, rfl⟩) (by simp)

theorem sqlite_outcome (s : RateLimitState) (a : RateAttempt) (taskId : String) (taskRow : Bool) :
    AcquireOutcome true s a (SQLiteRateLimitStore.tryAcquire s taskId a.checks a.leaseFor a.now a.leaseId taskRow) := by
  unfold SQLiteRateLimitStore.tryAcquire
  split
  · exact .raised (by simp [SQLiteRateLimitStore.tokensConstraint])
  cases hloop : checkBuckets SQLiteRateLimitStore.burstError s a.now .empty a.checks with
  | error e =>
    exact .raised (checkBuckets_error (fun check => by
      simp [SQLiteRateLimitStore.burstError, SQLiteRateLimitStore.tokensConstraint]) hloop)
  | ok found =>
    obtain ⟨violations, projected⟩ := found
    simp only
    split
    · exact .deferred taskId violations
    next hnone =>
      obtain rfl : violations = [] := not_not.mp hnone
      have hwrote : s.Wrote a (SQLiteRateLimitStore.writeBuckets s.buckets projected a.now) :=
        wrote_of_projected (SQLiteRateLimitStore.written a.now) hloop
          (by simp [SQLiteRateLimitStore.writeBuckets]) (fun _ => rfl) (fun _ => rfl)
          (fun _ _ => rfl)
      have hadmits := (checkBuckets_ok hloop).1
      -- the constraint on tokens refuses what the loop has let through
      have hrefused (hneg : ¬ ∀ bucket ∈ projected.values, 0 ≤ bucket.tokens) :
          AcquireOutcome true s a (.error SQLiteRateLimitStore.tokensConstraint, s) :=
        .refused (fun d h => by cases h) fun _ => ⟨hadmits, exists_overdraft hloop hneg⟩
      split
      next hitems =>
        split
        · exact .granted rfl rfl hadmits hwrote (.inl ⟨hitems, rfl, rfl⟩) (by simp [hitems])
        next hneg => exact hrefused hneg
      next hitems =>
        cases hend : addDelta a.now a.leaseFor with
        | error e =>
          have he := addDelta_error hend
          subst he
          exact .raised (by simp [SQLiteRateLimitStore.tokensConstraint])
        | ok expiresAt =>
          simp only
          split
          next hneg => exact hrefused hneg
          split
          · exact .raised (by simp [SQLiteRateLimitStore.tokensConstraint])
          split
          · exact .raised (by simp [SQLiteRateLimitStore.tokensConstraint])
          next hunique =>
            simp only [not_or, not_not] at hunique
            exact .granted rfl rfl hadmits hwrote (.inr ⟨_, rfl, rfl, rfl, rfl, rfl⟩)
              fun _ => hunique.2

/-! ## Leaving ACTIVE -/

/-- The tokens of a bucket and the time they are counted up to. -/
def pace (s : RateLimitState) (key : RateBucketKey) : Option (ℚ × Instant) :=
  (s.buckets.get? key).map fun bucket => (bucket.tokens, bucket.lastRefillAt)

variable (missing underflow : RateLeaseItem → PyError)

theorem pace_releaseItems (key : RateBucketKey) (leases : Dict String RateLimitLease) :
    ∀ (items : List RateLeaseItem) (buckets : Dict RateBucketKey RateBucket),
      pace ⟨(releaseItems missing underflow buckets items).2, leases⟩ key = pace ⟨buckets, leases⟩ key
  | [], _ => rfl
  | item :: items, buckets => by
    simp only [releaseItems]
    split
    · exact pace_releaseItems key leases items buckets
    split
    next => rfl
    next bucket hbucket =>
      split
      · rfl
      · rw [pace_releaseItems key leases items]
        by_cases hkey : key = item.key
        · subst hkey
          simp [pace, hbucket]
        · simp [pace, hkey]

theorem pace_closeLease (s : RateLimitState) (key : RateBucketKey) (leaseId : String) (lease : RateLimitLease)
    (state : RateLeaseState) : pace (closeLease missing underflow s leaseId lease state).2 key = pace s key := by
  have hitems := pace_releaseItems missing underflow key s.leases
    lease.items s.buckets
  unfold closeLease
  split <;> next heq =>
    rw [heq] at hitems
    exact hitems

theorem pace_reapAll (key : RateBucketKey) :
    ∀ (leases : List (String × RateLimitLease)) (s : RateLimitState),
      pace (reapAll missing underflow s leases).2 key = pace s key
  | [], _ => rfl
  | (leaseId, lease) :: leases, s => by
    have hclose := pace_closeLease missing underflow s key leaseId
      lease .expired
    simp only [reapAll]
    split
    next heq =>
      rw [heq] at hclose
      exact hclose
    next s' heq =>
      rw [heq] at hclose
      have hrest := pace_reapAll key leases s'
      split <;> next heq' =>
        rw [heq'] at hrest
        exact hrest.trans hclose

end RateLimitState

end NightScout
