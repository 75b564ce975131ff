import NightScout.Policy.RateBuckets

/-!
# `SQLiteRateLimitStore`

The durable rate-limit store of `recon/storage/database.py`. Every operation is one
`BEGIN IMMEDIATE` transaction: one function of the whole state, which returns the state it was given
when it raises. The constraints of the schema are checks of `tryAcquire`: `tokens >= 0.0` on every
bucket written, the task of a lease exists, and a lease has one item a bucket.
-/

namespace NightScout

open Lib

namespace SQLiteRateLimitStore

def burstError (_ : RateBucketCheck) : PyError :=
  .valueError ("single rate-limit acquisition exceeds burst; " ++
    "split demand into smaller acquisitions")

def missing (_ : RateLeaseItem) : PyError :=
  .runtimeError "missing rate bucket while releasing lease"

def underflow (_ : RateLeaseItem) : PyError := .runtimeError "rate-limit concurrency underflow"

/-- The constraint `rate_bucket_tokens_nonnegative` refusing a write. -/
def tokensConstraint : PyError :=
  .integrityError "CHECK constraint failed: rate_bucket_tokens_nonnegative"

/-- What is written of the projected buckets: their clock is `now`, whatever they pace. -/
def written (now : Instant) (bucket : RateBucket) : RateBucket := { bucket with lastRefillAt := now }

/-- The rows of `rate_buckets` after the write. -/
def writeBuckets (buckets projected : Dict RateBucketKey RateBucket) (now : Instant) :
    Dict RateBucketKey RateBucket :=
  buckets.update (projected.mapValues (written now))

def tryAcquire (s : RateLimitState) (taskId : String) (checks : List RateBucketCheck)
    (leaseFor : Duration) (now : Instant) (leaseId : String) (taskRow : Bool) :
    Except PyError RateLimitDecision × RateLimitState :=
  if leaseFor ≤ 0 then (.error (.valueError "lease_for must be positive"), s)
  else
    match s.checkBuckets burstError now .empty checks with
    | .error e => (.error e, s)
    | .ok (violations, projected) =>
      if violations ≠ [] then (.ok (RateLimitState.deferred taskId checks violations), s)
      else
        let buckets := writeBuckets s.buckets projected now
        if leaseItems checks = [] then
          if ∀ bucket ∈ projected.values, 0 ≤ bucket.tokens then
            (.ok (RateLimitState.allowed taskId checks none), { s with buckets })
          else (.error tokensConstraint, s)
        else
          match addDelta now leaseFor with
          | .error e => (.error e, s)
          | .ok expiresAt =>
            let lease : RateLimitLease :=
              { leaseId, taskId, items := leaseItems checks, createdAt := now, expiresAt }
            if ¬ ∀ bucket ∈ projected.values, 0 ≤ bucket.tokens then (.error tokensConstraint, s)
            else if !taskRow then (.error (.integrityError "FOREIGN KEY constraint failed"), s)
            else if (s.leases.get? leaseId).isSome ∨
                ¬ ((leaseItems checks).map RateLeaseItem.key).Nodup then
              (.error (.integrityError "UNIQUE constraint failed"), s)
            else
              (.ok (RateLimitState.allowed taskId checks (some lease)),
                ⟨buckets, s.leases.set leaseId lease⟩)

def requireActiveLease (s : RateLimitState) (leaseId : String) : Except PyError RateLimitLease :=
  match s.leases.get? leaseId with
  | none => .error (.keyError s!"unknown rate-limit lease: {leaseId}")
  | some lease =>
    if lease.state = .active then .ok lease
    else .error (.valueError s!"rate-limit lease {leaseId} is not ACTIVE")

/-- `_rate_lease_from_rows`. -/
def leaseFromRows (lease : RateLimitLease) : RateLimitLease :=
  { lease with items := RateLimitState.sortedItems lease.items }

def release (s : RateLimitState) (leaseId : String) :
    Except PyError RateLimitLease × RateLimitState :=
  match requireActiveLease s leaseId with
  | .error e => (.error e, s)
  | .ok lease =>
    match s.closeLease missing underflow leaseId lease .released with
    | (.error e, _) => (.error e, s)
    | (.ok released, s') => (.ok (leaseFromRows released), s')

def renew (s : RateLimitState) (leaseId : String) (expiresAt now : Instant) :
    Except PyError RateLimitLease × RateLimitState :=
  if expiresAt ≤ now then (.error (.valueError "expires_at must be in the future"), s)
  else
    match requireActiveLease s leaseId with
    | .error e => (.error e, s)
    | .ok lease => (.ok (leaseFromRows { lease with expiresAt }),
        { s with leases := s.leases.set leaseId { lease with expiresAt } })

def reapExpired (s : RateLimitState) (now : Instant) :
    Except PyError (List RateLimitLease) × RateLimitState :=
  match s.reapAll missing underflow (s.expiredLeases now) with
  | (.error e, _) => (.error e, s)
  | (.ok expired, s') => (.ok (expired.map leaseFromRows), s')

end SQLiteRateLimitStore

def sqliteRateLimitStore : RateLimitStore where
  tryAcquire := SQLiteRateLimitStore.tryAcquire
  release := SQLiteRateLimitStore.release
  renew := SQLiteRateLimitStore.renew
  reapExpired := SQLiteRateLimitStore.reapExpired

end NightScout
