import NightScout.Policy.RateBuckets

/-!
# `InMemoryRateLimitStore`

The store for development and tests. Its lock makes each operation atomic, but nothing rolls back:
an operation that raises half way leaves what it has written.
-/

namespace NightScout

open Lib

namespace InMemoryRateLimitStore

/-- A bucket key as Python prints the pair. -/
def keyText (item : RateLeaseItem) : String :=
  "('" ++ item.ruleId ++ "', '" ++ item.bucketKey ++ "')"

def burstError (check : RateBucketCheck) : PyError :=
  .valueError ("single rate-limit acquisition requests more " ++
    "tokens than bucket burst for " ++ check.ruleId ++ "; " ++
    "split the demand into smaller acquisitions")

def missing (item : RateLeaseItem) : PyError :=
  .runtimeError ("missing bucket while releasing rate lease: " ++ keyText item)

def underflow (item : RateLeaseItem) : PyError :=
  .runtimeError ("rate-limit concurrency underflow for " ++ keyText item)

/-- `try_acquire`. The buckets are written before the lease is built, so a lease that would end
    after the last date raises with the tokens and the concurrency gone. -/
def tryAcquire (s : RateLimitState) (taskId : String) (checks : List RateBucketCheck)
    (leaseFor : Duration) (now : Instant) (leaseId : String) :
    Except PyError RateLimitDecision × RateLimitState :=
  if leaseFor ≤ 0 then (.error (.valueError "lease_for must be positive"), s)
  else
    match s.checkBuckets burstError now .empty checks with
    | .error e => (.error e, s)
    | .ok (violations, projected) =>
      if violations ≠ [] then (.ok (RateLimitState.deferred taskId checks violations), s)
      else
        let buckets := s.buckets.update projected
        if leaseItems checks = [] then
          (.ok (RateLimitState.allowed taskId checks none), { s with buckets })
        else
          match addDelta now leaseFor with
          | .error e => (.error e, { s with buckets })
          | .ok expiresAt =>
            let lease : RateLimitLease :=
              { leaseId, taskId, items := leaseItems checks, createdAt := now, expiresAt }
            (.ok (RateLimitState.allowed taskId checks (some lease)),
              ⟨buckets, s.leases.set leaseId lease⟩)

def requireActiveLease (s : RateLimitState) (leaseId : String) : Except PyError RateLimitLease :=
  match s.leases.get? leaseId with
  | none => .error (.keyError s!"unknown rate-limit lease: {leaseId}")
  | some lease =>
    if lease.state = .active then .ok lease
    else .error (.valueError ("rate-limit lease " ++ leaseId ++ " is not ACTIVE " ++
      "(state=" ++ lease.state.value ++ ")"))

def release (s : RateLimitState) (leaseId : String) :
    Except PyError RateLimitLease × RateLimitState :=
  match requireActiveLease s leaseId with
  | .error e => (.error e, s)
  | .ok lease => s.closeLease missing underflow leaseId lease .released

def renew (s : RateLimitState) (leaseId : String) (expiresAt now : Instant) :
    Except PyError RateLimitLease × RateLimitState :=
  match requireActiveLease s leaseId with
  | .error e => (.error e, s)
  | .ok lease =>
    if expiresAt ≤ now then (.error (.valueError "expires_at must be in the future"), s)
    else (.ok { lease with expiresAt },
      { s with leases := s.leases.set leaseId { lease with expiresAt } })

def reapExpired (s : RateLimitState) (now : Instant) :
    Except PyError (List RateLimitLease) × RateLimitState :=
  s.reapAll missing underflow (s.expiredLeases now)

end InMemoryRateLimitStore

/-- `InMemoryRateLimitStore`. It has no tasks table, so a lease may name any task. -/
def inMemoryRateLimitStore : RateLimitStore where
  tryAcquire s taskId checks leaseFor now leaseId _ :=
    InMemoryRateLimitStore.tryAcquire s taskId checks leaseFor now leaseId
  release := InMemoryRateLimitStore.release
  renew := InMemoryRateLimitStore.renew
  reapExpired := InMemoryRateLimitStore.reapExpired

end NightScout
