import NightScout.Policy.RateSteps
import NightScout.Lib.Run

/-!
# Runs over a rate-limit store

A run is a list of calls: acquires through a `RateLimiter` (of any profile, so of any number of
processes), acquires made of the store directly, releases, renewals and reaps. Each acquire carries
the `now` it read before it entered the store, in whatever order the store serves them.

The world keeps the state of the store and a log of what was granted and what was closed, newest
first, read off the replies.
-/

namespace NightScout

open Lib

inductive RateCmd where
  | acquire (profile : RateLimitProfile) (task : Task) (context : RateLimitContext)
      (demand : RateLimitDemand) (leaseFor : Duration) (now : Instant) (leaseId : String)
      (taskRow : Bool)
  | tryAcquire (taskId : String) (checks : List RateBucketCheck) (leaseFor : Duration)
      (now : Instant) (leaseId : String) (taskRow : Bool)
  | release (leaseId : String)
  | renew (leaseId : String) (expiresAt now : Instant)
  | reapExpired (now : Instant)

inductive RateReply where
  | decided (result : Except PyError RateLimitDecision)
  | released (result : Except PyError RateLimitLease)
  | renewed (result : Except PyError RateLimitLease)
  | reaped (result : Except PyError (List RateLimitLease))

inductive RateEvent where
  | granted (now : Instant) (checks : List RateBucketCheck)
  | closed (leaseId : String)

structure RateWorld where
  state : RateLimitState
  log : List RateEvent := []

section Run

variable (backend : RateBackend) (lower : String → String)

/-- What an acquire asks of the store: nothing, if no rule matches. -/
def RateCmd.attempt : RateCmd → Option RateAttempt
  | .acquire profile task context demand leaseFor now leaseId _ =>
    some ⟨acquireChecks lower profile task context demand, leaseFor, now, leaseId⟩
  | .tryAcquire _ checks leaseFor now leaseId _ => some ⟨checks, leaseFor, now, leaseId⟩
  | _ => none

/-- One call. -/
def RateCmd.call (s : RateLimitState) : RateCmd → RateReply × RateLimitState
  | .acquire profile task context demand leaseFor now leaseId taskRow =>
    let (result, s) := backend.store.acquire lower profile s task context demand leaseFor now
      leaseId taskRow
    (.decided result, s)
  | .tryAcquire taskId checks leaseFor now leaseId taskRow =>
    let (result, s) := backend.store.tryAcquire s taskId checks leaseFor now leaseId taskRow
    (.decided result, s)
  | .release leaseId =>
    let (result, s) := backend.store.release s leaseId
    (.released result, s)
  | .renew leaseId expiresAt now =>
    let (result, s) := backend.store.renew s leaseId expiresAt now
    (.renewed result, s)
  | .reapExpired now =>
    let (result, s) := backend.store.reapExpired s now
    (.reaped result, s)

/-- What a reply adds to the log. -/
def RateCmd.events (cmd : RateCmd) (reply : RateReply) : List RateEvent :=
  match cmd.attempt lower, reply with
  | some a, .decided (.ok d) => if d.outcome = .allow then [.granted a.now d.checkedBuckets] else []
  | none, .released (.ok lease) => [.closed lease.leaseId]
  | none, .reaped (.ok leases) => (leases.map fun lease => .closed lease.leaseId).reverse
  | _, _ => []

/-- One call in a world. -/
def RateWorld.step (w : RateWorld) (cmd : RateCmd) : RateWorld :=
  let (reply, state) := cmd.call backend lower w.state
  ⟨state, cmd.events lower reply ++ w.log⟩

/-- A run from the empty store. -/
def rateRun (cmds : List RateCmd) : RateWorld :=
  runFrom (RateWorld.step backend lower) ⟨.empty, []⟩ cmds

end Run

namespace RateCmd

open RateLimitState

variable {backend : RateBackend} {lower : String → String} {s : RateLimitState} {cmd : RateCmd}
  {a : RateAttempt}

/-- Without checks an acquire leaves everything as it is. -/
theorem wrote_nil (h : a.checks = []) : s.Wrote a s.buckets where
  other _ _ := rfl
  named key check hlast := by
    rw [h] at hlast
    cases hlast

theorem tryAcquire_outcome (backend : RateBackend) (s : RateLimitState) (a : RateAttempt)
    (taskId : String) (taskRow : Bool) : AcquireOutcome backend.rollsBack s a
      (backend.store.tryAcquire s taskId a.checks a.leaseFor a.now a.leaseId taskRow) := by
  cases backend with
  | memory => exact memory_outcome s a taskId
  | sqlite => exact sqlite_outcome s a taskId taskRow

theorem acquire_outcome (backend : RateBackend) (lower : String → String) (s : RateLimitState)
    (profile : RateLimitProfile) (task : Task) (context : RateLimitContext)
    (demand : RateLimitDemand) (leaseFor : Duration) (now : Instant) (leaseId : String) (taskRow : Bool) :
    AcquireOutcome backend.rollsBack s ⟨acquireChecks lower profile task context demand, leaseFor, now, leaseId⟩
      (backend.store.acquire lower profile s task context demand leaseFor now leaseId taskRow) := by
  unfold RateLimitStore.acquire
  split
  · exact .raised (by simp [SQLiteRateLimitStore.tokensConstraint])
  simp only
  split
  next hnone =>
    -- no rule matches, so there is nothing to check
    have hchecks : acquireChecks lower profile task context demand = [] := by
      rw [acquireChecks, List.isEmpty_iff.mp hnone]
      rfl
    split
    · exact .refused (fun d h => by cases h; simp) fun h => by cases h
    · refine .granted rfl hchecks.symm (fun check hmem => ?_) (wrote_nil hchecks)
        (.inl ⟨?_, rfl, rfl⟩) fun _ => ?_
      · simp [hchecks] at hmem
      · simp [hchecks, leaseItems]
      · simp [hchecks, leaseItems]
  · exact tryAcquire_outcome backend s ⟨_, leaseFor, now, leaseId⟩ task.taskId taskRow

/-- **What an acquire can do**, through the limiter or directly, over either store. -/
theorem call_attempt (backend : RateBackend) (s : RateLimitState) (h : cmd.attempt lower = some a) :
    ∃ result s', cmd.call backend lower s = (.decided result, s') ∧
      AcquireOutcome backend.rollsBack s a (result, s') := by
  cases cmd with
  | tryAcquire taskId checks leaseFor now leaseId taskRow =>
    cases h
    exact ⟨_, _, rfl, tryAcquire_outcome backend s ⟨checks, leaseFor, now, leaseId⟩ taskId taskRow⟩
  | acquire profile task context demand leaseFor now leaseId taskRow =>
    cases h
    exact ⟨_, _, rfl, acquire_outcome backend lower s profile task context demand leaseFor now
      leaseId taskRow⟩
  | release leaseId => cases h
  | renew leaseId expiresAt now => cases h
  | reapExpired now => cases h

/-- What is not an acquire paces nothing. -/
theorem pace_call (h : cmd.attempt lower = none) (key : RateBucketKey) :
    (cmd.call backend lower s).2.pace key = s.pace key := by
  cases cmd with
  | acquire profile task context demand leaseFor now leaseId taskRow => cases h
  | tryAcquire taskId checks leaseFor now leaseId taskRow => cases h
  | release leaseId =>
    cases backend with
    | memory =>
      change (InMemoryRateLimitStore.release s leaseId).2.pace key = s.pace key
      unfold InMemoryRateLimitStore.release
      split
      · rfl
      · exact pace_closeLease _ _ s key leaseId _ .released
    | sqlite =>
      change (SQLiteRateLimitStore.release s leaseId).2.pace key = s.pace key
      unfold SQLiteRateLimitStore.release
      split
      · rfl
      next lease _ =>
        have hclose := pace_closeLease SQLiteRateLimitStore.missing
          SQLiteRateLimitStore.underflow s key leaseId lease .released
        split
        · rfl
        next heq =>
          rw [heq] at hclose
          exact hclose
  | renew leaseId expiresAt now =>
    cases backend with
    | memory =>
      change (InMemoryRateLimitStore.renew s leaseId expiresAt now).2.pace key = s.pace key
      unfold InMemoryRateLimitStore.renew
      split
      · rfl
      · split <;> rfl
    | sqlite =>
      change (SQLiteRateLimitStore.renew s leaseId expiresAt now).2.pace key = s.pace key
      unfold SQLiteRateLimitStore.renew
      split
      · rfl
      · split <;> rfl
  | reapExpired now =>
    cases backend with
    | memory => exact pace_reapAll _ _ key (s.expiredLeases now) s
    | sqlite =>
      change (SQLiteRateLimitStore.reapExpired s now).2.pace key = s.pace key
      have hreap := pace_reapAll SQLiteRateLimitStore.missing SQLiteRateLimitStore.underflow key
        (s.expiredLeases now) s
      unfold SQLiteRateLimitStore.reapExpired
      split
      · rfl
      next heq =>
        rw [heq] at hreap
        exact hreap

end RateCmd

end NightScout
