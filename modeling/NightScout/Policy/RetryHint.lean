import Mathlib.Data.Rat.Floor
import NightScout.Policy.TokenBuckets

/-!
# The retry hint

A store that defers an acquire names the seconds after which to try again. Tokens come back by then, unless the
bucket's clock is ahead of the caller's. Concurrency does not come back by waiting: the hint is the end of the
first lease, but an acquire does not reap, so a lease that has ended holds its slot until something else closes
it. `retry_hint_iff` says when the same acquire is allowed at the end of its hint.
-/

namespace NightScout

open Lib

namespace RateLimitState

variable {s : RateLimitState} {now t : Instant} {check : RateBucketCheck} {checks : List RateBucketCheck}

/-! ## What the loop finds -/

/-- The violations are the checks that have to wait. -/
theorem checkBuckets_found {burstError : RateBucketCheck → PyError}
    {projected projected' : Dict RateBucketKey RateBucket} {violations : List RateLimitViolation}
    (h : checkBuckets burstError s now projected checks = .ok (violations, projected')) :
    (∀ check ∈ checks, ¬ check.exceedsBurst) ∧
    violations = (checks.filter fun check =>
      0 < max (s.tokenRetry now check) (s.concurrencyRetry now check)).map (s.rateViolation now) := by
  induction checks generalizing projected projected' violations with
  | nil =>
    cases h
    exact ⟨fun check hmem => absurd hmem List.not_mem_nil, rfl⟩
  | cons check checks ih =>
    simp only [checkBuckets] at h
    obtain ⟨hburst, h⟩ := guard_ok h
    split at h
    next hretry =>
      obtain ⟨⟨rest, left⟩, hrest, hret⟩ := bind_ok h
      cases hret
      obtain ⟨hbursts, rfl⟩ := ih hrest
      refine ⟨List.forall_mem_cons.mpr ⟨hburst, hbursts⟩, ?_⟩
      rw [List.filter_cons_of_pos (by simpa using hretry), List.map_cons]
    next hretry =>
      obtain ⟨hbursts, rfl⟩ := ih h
      refine ⟨List.forall_mem_cons.mpr ⟨hburst, hbursts⟩, ?_⟩
      rw [List.filter_cons_of_neg (by simpa using hretry)]

theorem checkBuckets_of_admits {burstError : RateBucketCheck → PyError} (h : s.Admits now checks) :
    ∀ projected, ∃ projected', checkBuckets burstError s now projected checks = .ok ([], projected') := by
  induction checks with
  | nil => exact fun projected => ⟨projected, rfl⟩
  | cons check checks ih =>
    intro projected
    obtain ⟨⟨hburst, htokens, hslots⟩, hrest⟩ := List.forall_mem_cons.mp h
    have hretry : ¬ 0 < max (s.tokenRetry now check) (s.concurrencyRetry now check) := by
      rw [retry_pos_iff]
      exact fun hlacks => hlacks.elim htokens hslots
    simp only [checkBuckets, if_neg hburst, if_neg hretry]
    exact ih hrest _

/-! ## What waiting changes -/

/-- Waiting frees no slot. -/
theorem lacksConcurrency_current :
    check.lacksConcurrency (s.current t check) ↔ check.lacksConcurrency (s.current now check) := by
  have hactive : (s.current t check).activeConcurrency = (s.current now check).activeConcurrency := by
    unfold current RateBucketCheck.currentBucket
    split
    · rfl
    · split <;> rfl
  unfold RateBucketCheck.lacksConcurrency
  rw [hactive]

/-- The seconds by which a bucket's clock is ahead. -/
def aheadOf (s : RateLimitState) (now : Instant) (check : RateBucketCheck) : ℚ :=
  match s.buckets.get? check.key with
  | none => 0
  | some bucket => max (totalSeconds (bucket.lastRefillAt - now)) 0

/-- The seconds of a wait, on a clock of microseconds. -/
def wholeWait (seconds : ℚ) : Duration := ⌈seconds * 1000000⌉

theorem totalSeconds_add (a b : Duration) : totalSeconds (a + b) = totalSeconds a + totalSeconds b := by
  unfold totalSeconds
  push_cast
  ring

theorem totalSeconds_neg (a : Duration) : totalSeconds (-a) = -totalSeconds a := by
  unfold totalSeconds
  push_cast
  ring

/-- The tokens of a bucket at an instant. -/
theorem current_tokens {rate burst : ℚ} {bucket : RateBucket} (hrate : check.requestsPerSecond = some rate)
    (hburst : check.burst = some burst) (hstored : s.buckets.get? check.key = some bucket) :
    (s.current t check).tokens = min burst (bucket.tokens + max (totalSeconds (t - bucket.lastRefillAt)) 0 * rate) := by
  rw [current, hstored, RateBucketCheck.currentBucket]
  simp only [hrate, hburst]

/-- Tokens only come in by waiting. -/
theorem lacksTokens_mono (hle : now ≤ t) (h : ¬ check.lacksTokens (s.current now check)) :
    ¬ check.lacksTokens (s.current t check) := by
  rintro ⟨hrequests, hrate, hburst, hless⟩
  apply h
  refine ⟨hrequests, hrate, hburst, lt_of_le_of_lt ?_ hless⟩
  obtain ⟨rate, hrate⟩ := Option.isSome_iff_exists.mp hrate
  obtain ⟨burst, hburst⟩ := Option.isSome_iff_exists.mp hburst
  have hpos := check.rps_pos rate hrate
  have htokens : (s.current now check).tokens ≤ (s.current t check).tokens := by
    cases hstored : s.buckets.get? check.key with
    | none =>
      rw [current, current, hstored]
      exact le_rfl
    | some bucket =>
      rw [current_tokens hrate hburst hstored, current_tokens hrate hburst hstored]
      have hsec : totalSeconds (now - bucket.lastRefillAt) ≤ totalSeconds (t - bucket.lastRefillAt) := by
        unfold totalSeconds
        gcongr
      gcongr
  linarith

/-- **The tokens come back** after as long as is missing, and as the bucket's clock is ahead. -/
theorem lacksTokens_later {rate : ℚ} {wait : Duration} (hrate : check.requestsPerSecond = some rate)
    (hburst : ¬ check.exceedsBurst) (hlacks : check.lacksTokens (s.current now check)) :
    ¬ check.lacksTokens (s.current (now + wait) check) ↔ check.requests - (s.current now check).tokens ≤
        (totalSeconds wait - s.aheadOf now check) * rate + tolerance := by
  obtain ⟨hrequests, hrateSome, hburstSome, hless⟩ := id hlacks
  obtain ⟨burst, hsome⟩ := Option.isSome_iff_exists.mp hburstSome
  have hpos := check.rps_pos rate hrate
  have hwithin : check.requests ≤ burst + tolerance := by
    by_contra hmore
    exact hburst ⟨hrequests, hrateSome, burst, hsome, not_le.mp hmore⟩
  cases hstored : s.buckets.get? check.key with
  | none =>
    -- a bucket nobody touched is full
    have hfull : (s.current now check).tokens = burst := by
      rw [current, hstored, RateBucketCheck.currentBucket, hsome, Option.getD_some]
    rw [hfull] at hless
    exact absurd hless (not_lt.mpr hwithin)
  | some bucket =>
    have hnow := current_tokens (t := now) hrate hsome hstored
    have hlater := current_tokens (t := now + wait) hrate hsome hstored
    have hsplit : totalSeconds (now + wait - bucket.lastRefillAt) =
        totalSeconds wait + totalSeconds (now - bucket.lastRefillAt) := by
      rw [← totalSeconds_add]
      congr 1
      ring
    have hahead : s.aheadOf now check = max (-totalSeconds (now - bucket.lastRefillAt)) 0 := by
      rw [aheadOf, hstored, ← totalSeconds_neg, neg_sub]
    rw [hsplit] at hlater
    rw [hahead]
    generalize totalSeconds (now - bucket.lastRefillAt) = past at hnow hlater ⊢
    generalize totalSeconds wait = waited at hlater ⊢
    -- the bucket is not full, so what it has is what came in
    have hopen : bucket.tokens + max past 0 * rate < burst := by
      by_contra hfull
      rw [hnow, min_eq_left (not_lt.mp hfull)] at hless
      linarith
    rw [min_eq_right hopen.le] at hnow
    have hiff : ¬ check.lacksTokens (s.current (now + wait) check) ↔
        check.requests ≤ bucket.tokens + max (waited + past) 0 * rate + tolerance := by
      unfold RateBucketCheck.lacksTokens
      simp only [hrequests, hrateSome, hburstSome, true_and, not_lt, hlater]
      constructor
      · intro hle
        exact hle.trans (by gcongr; exact min_le_right _ _)
      · intro hle
        rcases min_cases burst (bucket.tokens + max (waited + past) 0 * rate) with ⟨hmin, -⟩ | ⟨hmin, -⟩
        · rw [hmin]
          exact hwithin
        · rw [hmin]
          exact hle
    rw [hiff, hnow]
    rw [hnow] at hless
    have htolerance := tolerance_pos
    rcases le_total 0 past with hp | hp
    · rw [max_eq_left hp, max_eq_right (by linarith : -past ≤ 0)] at *
      rcases le_total 0 (waited + past) with hw | hw
      · rw [max_eq_left hw]
        constructor <;> intro h <;> nlinarith
      · rw [max_eq_right hw]
        constructor <;> intro h <;> nlinarith
    · rw [max_eq_right hp, max_eq_left (by linarith : 0 ≤ -past)] at *
      rcases le_total 0 (waited + past) with hw | hw
      · rw [max_eq_left hw]
        constructor <;> intro h <;> nlinarith
      · rw [max_eq_right hw]
        constructor <;> intro h <;> nlinarith

/-! ## When the hint is right -/

/-- The longest wait for tokens of a list of checks. -/
def longestTokenWait (s : RateLimitState) (now : Instant) (checks : List RateBucketCheck) : ℚ :=
  (checks.map (s.tokenRetry now)).foldr max 0

/-- No check is short of slots; and whatever a check is short of comes in, behind its bucket's clock, within the
    longest wait for tokens. -/
structure HintSound (s : RateLimitState) (now : Instant) (checks : List RateBucketCheck) : Prop where
  slots : ∀ check ∈ checks, ¬ check.lacksConcurrency (s.current now check)
  tokens : ∀ check ∈ checks, check.lacksTokens (s.current now check) →
    check.requests - (s.current now check).tokens ≤
      (totalSeconds (wholeWait (s.longestTokenWait now checks)) - s.aheadOf now check) *
        check.requestsPerSecond.getD 0 + tolerance

/-- What a check waits for. -/
def checkRetry (s : RateLimitState) (now : Instant) (check : RateBucketCheck) : ℚ :=
  max (s.tokenRetry now check) (s.concurrencyRetry now check)

/-- The hint of a deferral: the longest wait of a check that has to wait. -/
structure IsHint (s : RateLimitState) (now : Instant) (checks : List RateBucketCheck) (r : ℚ) : Prop where
  attained : ∃ check ∈ checks, 0 < s.checkRetry now check ∧ s.checkRetry now check = r
  longest : ∀ check ∈ checks, 0 < s.checkRetry now check → s.checkRetry now check ≤ r

theorem wholeWait_nonneg {r : ℚ} (h : 0 ≤ r) : 0 ≤ wholeWait r :=
  Int.ceil_nonneg (by linarith)

/-- Without a shortage of slots a check waits for its tokens. -/
theorem checkRetry_eq (h : ¬ check.lacksConcurrency (s.current now check)) :
    s.checkRetry now check = max (s.tokenRetry now check) 0 := by
  rw [checkRetry, concurrencyRetry, if_neg h]

theorem tokenRetry_le_longest (h : check ∈ checks) : s.tokenRetry now check ≤ s.longestTokenWait now checks := by
  unfold longestTokenWait
  induction checks with
  | nil => cases h
  | cons first checks ih =>
    rw [List.map_cons, List.foldr_cons]
    rcases List.mem_cons.mp h with rfl | h
    · exact le_max_left _ _
    · exact (ih h).trans (le_max_right _ _)

theorem longestTokenWait_le {r : ℚ} (hr : 0 ≤ r) (h : ∀ check ∈ checks, s.tokenRetry now check ≤ r) :
    s.longestTokenWait now checks ≤ r := by
  unfold longestTokenWait
  induction checks with
  | nil => exact hr
  | cons check checks ih =>
    obtain ⟨hcheck, hchecks⟩ := List.forall_mem_cons.mp h
    exact max_le hcheck (ih hchecks)

/-- Where no slot is missing, the hint is the longest wait for tokens. -/
theorem IsHint.eq_longest {r : ℚ} (hr : s.IsHint now checks r)
    (hslots : ∀ check ∈ checks, ¬ check.lacksConcurrency (s.current now check)) :
    r = s.longestTokenWait now checks := by
  obtain ⟨⟨longest, hlongest, hpos, rfl⟩, hle⟩ := hr
  have heq := checkRetry_eq (hslots longest hlongest)
  apply le_antisymm
  · rw [heq] at hpos ⊢
    have htoken : 0 < s.tokenRetry now longest := (lt_max_iff.mp hpos).resolve_right (lt_irrefl 0)
    rw [max_eq_left htoken.le]
    exact tokenRetry_le_longest hlongest
  · apply longestTokenWait_le hpos.le
    intro check hcheck
    by_cases hwaits : 0 < s.checkRetry now check
    · exact (le_max_left _ _).trans (hle check hcheck hwaits)
    · exact (le_max_left _ _).trans ((not_lt.mp hwaits).trans hpos.le)

/-- **The end of the hint**: every check passes exactly if the hint is right. -/
theorem admits_later_iff {r : ℚ} (hburst : ∀ check ∈ checks, ¬ check.exceedsBurst) (hr : s.IsHint now checks r) :
    s.Admits (now + wholeWait r) checks ↔ s.HintSound now checks := by
  have hpositive : 0 ≤ r := by
    obtain ⟨⟨longest, -, hpos, rfl⟩, -⟩ := hr
    exact hpos.le
  constructor
  · intro h
    have hslots : ∀ check ∈ checks, ¬ check.lacksConcurrency (s.current now check) :=
      fun check hcheck hlacks => (h check hcheck).2.2 (lacksConcurrency_current.mpr hlacks)
    refine ⟨hslots, ?_⟩
    intro check hcheck hlacks
    obtain ⟨rate, hrate⟩ := Option.isSome_iff_exists.mp hlacks.2.1
    rw [hrate, Option.getD_some, ← hr.eq_longest hslots]
    exact (lacksTokens_later hrate (hburst check hcheck) hlacks).mp (h check hcheck).2.1
  · intro h check hcheck
    refine ⟨hburst check hcheck, ?_, fun hlacks => h.slots check hcheck (lacksConcurrency_current.mp hlacks)⟩
    by_cases hlacks : check.lacksTokens (s.current now check)
    · have hcovers := h.tokens check hcheck hlacks
      obtain ⟨rate, hrate⟩ := Option.isSome_iff_exists.mp hlacks.2.1
      rw [lacksTokens_later hrate (hburst check hcheck) hlacks, hr.eq_longest h.slots]
      rw [hrate, Option.getD_some] at hcovers
      exact hcovers
    · exact lacksTokens_mono (le_add_of_nonneg_right (wholeWait_nonneg hpositive)) hlacks

end RateLimitState

/-! ## Trying again -/

section Retry

variable {s : RateLimitState} {a : RateAttempt} {taskId : String} {taskRow : Bool} {d : RateLimitDecision}

/-- The same acquire, later by a wait. -/
def RateAttempt.after (a : RateAttempt) (seconds : ℚ) : RateAttempt :=
  { a with now := a.now + RateLimitState.wholeWait seconds }

/-- The acquire is allowed. -/
def RateBackend.Allows (backend : RateBackend) (s : RateLimitState) (a : RateAttempt) (taskId : String)
    (taskRow : Bool) : Prop :=
  ∃ d, (backend.store.tryAcquire s taskId a.checks a.leaseFor a.now a.leaseId taskRow).1 = .ok d ∧
    d.outcome = .allow

/-- What a deferral hints at, if the acquire is deferred. -/
def RateBackend.hint? (backend : RateBackend) (s : RateLimitState) (a : RateAttempt) (taskId : String)
    (taskRow : Bool) : Option ℚ :=
  match (backend.store.tryAcquire s taskId a.checks a.leaseFor a.now a.leaseId taskRow).1 with
  | .ok d => if d.outcome = .defer then d.retryAfterSeconds else none
  | .error _ => none

theorem RateBackend.not_allows_of_hint {backend : RateBackend} {r : ℚ}
    (h : backend.hint? s a taskId taskRow = some r) : ¬ backend.Allows s a taskId taskRow := by
  rintro ⟨d, hd, hallow⟩
  rw [RateBackend.hint?, hd] at h
  simp only [hallow, reduceCtorEq, if_false] at h

theorem RateBackend.deferred_of_hint {backend : RateBackend} {r : ℚ} (h : backend.hint? s a taskId taskRow = some r) :
    ∃ d, (backend.store.tryAcquire s taskId a.checks a.leaseFor a.now a.leaseId taskRow).1 = .ok d ∧
      d.outcome = .defer ∧ d.retryAfterSeconds = some r := by
  unfold RateBackend.hint? at h
  split at h
  next d hd =>
    split at h
    next hdefer => exact ⟨d, hd, hdefer, h⟩
    next => cases h
  next => cases h

/-- What a store can write of what it grants: a lease, if there is one, ends at a date; in the database no
    bucket falls below zero tokens, and the lease is of a known task, has a new id and names each bucket once. -/
def RateBackend.CanWrite (backend : RateBackend) (s : RateLimitState) (a : RateAttempt) (taskRow : Bool) : Prop :=
  (leaseItems a.checks = [] ∨ a.now + a.leaseFor ≤ maxInstant) ∧
  (backend = .sqlite →
    (∀ key check, lastOn a.checks key = some check → check.spent ≤ (s.current a.now check).tokens) ∧
    (leaseItems a.checks = [] ∨
      taskRow = true ∧ s.leases.get? a.leaseId = none ∧ ((leaseItems a.checks).map RateLeaseItem.key).Nodup))

theorem addDelta_isOk {now : Instant} {delta : Duration} :
    (∃ t, addDelta now delta = .ok t) ↔ now + delta ≤ maxInstant := by
  unfold addDelta
  split
  next h => exact iff_of_true ⟨_, rfl⟩ h
  next h =>
    refine iff_of_false ?_ h
    rintro ⟨t, ht⟩
    cases ht

theorem memory_allows_iff (hlease : 0 < a.leaseFor) : RateBackend.memory.Allows s a taskId taskRow ↔
    s.Admits a.now a.checks ∧ RateBackend.memory.CanWrite s a taskRow := by
  show (∃ d, (InMemoryRateLimitStore.tryAcquire s taskId a.checks a.leaseFor a.now a.leaseId).1 = .ok d ∧
    d.outcome = .allow) ↔ _
  unfold InMemoryRateLimitStore.tryAcquire RateBackend.CanWrite
  rw [if_neg (not_le.mpr hlease)]
  constructor
  · rintro ⟨d, hd, hallow⟩
    cases hloop : s.checkBuckets InMemoryRateLimitStore.burstError a.now .empty a.checks with
    | error e =>
      rw [hloop] at hd
      cases hd
    | ok found =>
      obtain ⟨violations, projected⟩ := found
      rw [hloop] at hd
      simp only at hd
      split at hd
      · cases hd
        cases hallow
      next hnone =>
        obtain rfl : violations = [] := not_not.mp hnone
        refine ⟨(RateLimitState.checkBuckets_ok hloop).1, ?_, fun hother => by cases hother⟩
        split at hd
        next hitems => exact .inl hitems
        next =>
          right
          apply addDelta_isOk.mp
          cases hend : addDelta a.now a.leaseFor with
          | error e =>
            rw [hend] at hd
            cases hd
          | ok t => exact ⟨t, rfl⟩
  · rintro ⟨hadmits, hend, -⟩
    obtain ⟨projected, hloop⟩ : ∃ projected, s.checkBuckets InMemoryRateLimitStore.burstError a.now .empty
        a.checks = .ok ([], projected) := RateLimitState.checkBuckets_of_admits hadmits .empty
    rw [hloop]
    simp only [ne_eq, not_true_eq_false, if_false]
    split
    · exact ⟨_, rfl, rfl⟩
    next hitems =>
      obtain ⟨t, ht⟩ := addDelta_isOk.mpr (hend.resolve_left hitems)
      rw [ht]
      exact ⟨_, rfl, rfl⟩

/-- The projected buckets are not below zero exactly if no last check of a bucket spends more than there is. -/
theorem projected_nonneg_iff {burstError : RateBucketCheck → PyError} {projected : Dict RateBucketKey RateBucket}
    (h : s.checkBuckets burstError a.now .empty a.checks = .ok ([], projected)) :
    (∀ bucket ∈ projected.values, 0 ≤ bucket.tokens) ↔
      ∀ key check, lastOn a.checks key = some check → check.spent ≤ (s.current a.now check).tokens := by
  constructor
  · intro hall key check hlast
    have hget := (RateLimitState.checkBuckets_ok h).2 key
    rw [hlast] at hget
    have hnonneg := hall _ (Dict.mem_values_iff.mpr ⟨key, hget⟩)
    exact sub_nonneg.mp hnonneg
  · intro hall
    by_contra hneg
    obtain ⟨key, check, hlast, hless⟩ := RateLimitState.exists_overdraft h hneg
    exact absurd (hall key check hlast) (not_le.mpr hless)

theorem sqlite_allows_iff (hlease : 0 < a.leaseFor) : RateBackend.sqlite.Allows s a taskId taskRow ↔
    s.Admits a.now a.checks ∧ RateBackend.sqlite.CanWrite s a taskRow := by
  show (∃ d, (SQLiteRateLimitStore.tryAcquire s taskId a.checks a.leaseFor a.now a.leaseId taskRow).1 = .ok d ∧
    d.outcome = .allow) ↔ _
  unfold SQLiteRateLimitStore.tryAcquire RateBackend.CanWrite
  rw [if_neg (not_le.mpr hlease)]
  constructor
  · rintro ⟨d, hd, hallow⟩
    cases hloop : s.checkBuckets SQLiteRateLimitStore.burstError a.now .empty a.checks with
    | error e =>
      rw [hloop] at hd
      cases hd
    | ok found =>
      obtain ⟨violations, projected⟩ := found
      rw [hloop] at hd
      simp only at hd
      split at hd
      · cases hd
        cases hallow
      next hnone =>
        obtain rfl : violations = [] := not_not.mp hnone
        refine ⟨(RateLimitState.checkBuckets_ok hloop).1, ?_⟩
        rw [← projected_nonneg_iff hloop]
        split at hd
        next hitems =>
          split at hd
          next hnonneg => exact ⟨.inl hitems, fun _ => ⟨hnonneg, .inl hitems⟩⟩
          next => cases hd
        next =>
          cases hend : addDelta a.now a.leaseFor with
          | error e =>
            rw [hend] at hd
            cases hd
          | ok t =>
            rw [hend] at hd
            simp only at hd
            split at hd
            · cases hd
            next hnonneg =>
              split at hd
              · cases hd
              next hrow =>
                split at hd
                · cases hd
                next hunique =>
                  simp only [not_or, not_not] at hunique
                  exact ⟨.inr (addDelta_isOk.mp ⟨t, hend⟩), fun _ => ⟨not_not.mp hnonneg, .inr
                    ⟨by simpa using hrow, by simpa using hunique.1, hunique.2⟩⟩⟩
  · rintro ⟨hadmits, hend, hwrite⟩
    obtain ⟨hspent, hunique⟩ := hwrite rfl
    obtain ⟨projected, hloop⟩ : ∃ projected, s.checkBuckets SQLiteRateLimitStore.burstError a.now .empty
        a.checks = .ok ([], projected) := RateLimitState.checkBuckets_of_admits hadmits .empty
    have hnonneg := (projected_nonneg_iff hloop).mpr hspent
    rw [hloop]
    simp only [ne_eq, not_true_eq_false, if_false]
    split
    · exact ⟨_, rfl, rfl⟩
    next hitems =>
      obtain ⟨t, ht⟩ := addDelta_isOk.mpr (hend.resolve_left hitems)
      obtain ⟨hrow, hfresh, hnodup⟩ := hunique.resolve_left hitems
      rw [ht]
      simp only [hrow, hfresh, hnodup]
      exact ⟨_, rfl, rfl⟩

/-- What a store decides of a lease of some length: a deferral if a check is violated, else it writes what it grants or
fails. -/
theorem decided_cases (backend : RateBackend)
    (hdecided : (backend.store.tryAcquire s taskId a.checks a.leaseFor a.now a.leaseId taskRow).1 = .ok d) :
    0 < a.leaseFor ∧ ∃ burstError violations projected,
      s.checkBuckets burstError a.now .empty a.checks = .ok (violations, projected) ∧
      ((violations ≠ [] ∧ d = RateLimitState.deferred taskId a.checks violations) ∨ d.outcome = .allow) := by
  cases backend with
  | memory =>
    have hdecided : (InMemoryRateLimitStore.tryAcquire s taskId a.checks a.leaseFor a.now a.leaseId).1 = .ok d := hdecided
    unfold InMemoryRateLimitStore.tryAcquire at hdecided
    split at hdecided
    · cases hdecided
    refine ⟨not_le.mp ‹_›, InMemoryRateLimitStore.burstError, ?_⟩
    split at hdecided
    · cases hdecided
    refine ⟨_, _, ‹_›, ?_⟩
    split at hdecided
    · exact .inl ⟨‹_›, (Except.ok.inj hdecided).symm⟩
    right
    split at hdecided
    · exact Except.ok.inj hdecided ▸ rfl
    split at hdecided
    · cases hdecided
    · exact Except.ok.inj hdecided ▸ rfl
  | sqlite =>
    have hdecided : (SQLiteRateLimitStore.tryAcquire s taskId a.checks a.leaseFor a.now a.leaseId taskRow).1 = .ok d :=
      hdecided
    unfold SQLiteRateLimitStore.tryAcquire at hdecided
    split at hdecided
    · cases hdecided
    refine ⟨not_le.mp ‹_›, SQLiteRateLimitStore.burstError, ?_⟩
    split at hdecided
    · cases hdecided
    refine ⟨_, _, ‹_›, ?_⟩
    split at hdecided
    · exact .inl ⟨‹_›, (Except.ok.inj hdecided).symm⟩
    right
    repeat' split at hdecided
    all_goals first | exact Except.ok.inj hdecided ▸ rfl | cases hdecided

/-- A deferral is of a whole list without an impossible demand, and its hint is the longest wait. -/
theorem deferred_hint (backend : RateBackend) {r : ℚ}
    (hdecided : (backend.store.tryAcquire s taskId a.checks a.leaseFor a.now a.leaseId taskRow).1 = .ok d)
    (hdefer : d.outcome = .defer) (hr : d.retryAfterSeconds = some r) :
    0 < a.leaseFor ∧ (∀ check ∈ a.checks, ¬ check.exceedsBurst) ∧ s.IsHint a.now a.checks r := by
  obtain ⟨hlease, burstError, violations, projected, hloop, ⟨-, rfl⟩ | hallow⟩ := decided_cases backend hdecided
  rotate_left
  · cases hallow.symm.trans hdefer
  obtain ⟨hburst, rfl⟩ := RateLimitState.checkBuckets_found hloop
  refine ⟨hlease, hburst, ?_⟩
  simp only [RateLimitState.deferred, List.map_map, List.max?_eq_some_iff, List.mem_map, List.mem_filter,
    decide_eq_true_eq] at hr
  obtain ⟨⟨check, ⟨hcheck, hpos⟩, hsame⟩, hle⟩ := hr
  refine ⟨⟨check, hcheck, hpos, hsame⟩, ?_⟩
  intro other hother hwaits
  exact hle _ ⟨other, ⟨hother, hwaits⟩, rfl⟩

end Retry

/-- **The retry hint.** Of any state of either store, and any list of checks: an acquire that is deferred is
    allowed at the end of its hint, with nothing in between, exactly if the hint is right and the store can
    write what it grants. -/
theorem retry_hint_iff (backend : RateBackend) (s : RateLimitState) (a : RateAttempt) (taskId : String)
    (taskRow : Bool) (r : ℚ) (hdeferred : backend.hint? s a taskId taskRow = some r) :
    backend.Allows s (a.after r) taskId taskRow ↔ s.HintSound a.now a.checks ∧
        backend.CanWrite s (a.after (s.longestTokenWait a.now a.checks)) taskRow := by
  obtain ⟨d, hdecided, hdefer, hr⟩ := RateBackend.deferred_of_hint hdeferred
  obtain ⟨hlease, hburst, hhint⟩ := deferred_hint backend hdecided hdefer hr
  have hallows : backend.Allows s (a.after r) taskId taskRow ↔
      s.HintSound a.now a.checks ∧ backend.CanWrite s (a.after r) taskRow := by
    rw [← RateLimitState.admits_later_iff hburst hhint]
    cases backend with
    | memory => exact memory_allows_iff hlease
    | sqlite => exact sqlite_allows_iff hlease
  refine hallows.trans (and_congr_right fun hsound => ?_)
  rw [hhint.eq_longest hsound.slots]

/-- A third request at second 0, after two of them. -/
def thirdRequest : RateAttempt where
  checks := acquireChecks id pacedProfile pacedTask noResources bareRequest
  leaseFor := 300000000
  now := 0
  leaseId := "rtl_3"

/-- The third request is told to come back after a second, and may then pass. -/
theorem retry_hint_thirdRequest :
    RateBackend.memory.Allows (rateRun .memory id [requestAt 0 "rtl_1", requestAt 0 "rtl_2"]).state
      (thirdRequest.after 1) "tsk_1" true :=
  (retry_hint_iff .memory _ thirdRequest "tsk_1" true 1 (by decide +kernel)).mpr
    ⟨⟨by decide +kernel, by decide +kernel⟩, .inl (by decide +kernel), nofun⟩

/-! ## A slot nobody gives back -/

/-- One task at a time. -/
def singleSlotProfile : RateLimitProfile where
  rules := [{ ruleId := programRule, scope := .global, maxConcurrency := some 1
              burst_isSome := no_rate_isSome, rps_pos := no_rate_pos, burst_pos := no_rate_pos }]
  retry_nonneg := retry_nonneg

/-- A request with a slot. -/
def requestWithSlot : RateLimitDemand := { requests_nonneg := retry_nonneg }

/-- The paced task takes the slot at second 0, on a lease of five seconds. -/
def takeSlot : RateCmd :=
  .acquire singleSlotProfile pacedTask noResources requestWithSlot 5000000 0 "rtl_1" true

/-- The same acquire at second 1. -/
def wantSlot : RateAttempt where
  checks := acquireChecks id singleSlotProfile pacedTask noResources requestWithSlot
  leaseFor := 5000000
  now := 1000000
  leaseId := "rtl_2"

/-- The acquire is told to come back after four seconds, when the lease ends, and is then put off by a
    millisecond, and so at the end of each millisecond. -/
theorem wantSlot_spins (backend : RateBackend) :
    backend.hint? (rateRun backend id [takeSlot]).state wantSlot "tsk_1" true = some 4 ∧
    backend.hint? (rateRun backend id [takeSlot]).state (wantSlot.after 4) "tsk_1" true = some (1 / 1000) := by
  cases backend <;> decide +kernel

/-- The lease of the slot ends with the hint, and keeps the acquire out. -/
theorem wantSlot_not_allowed :
    (∃ lease, (rateRun .memory id [takeSlot]).state.leases.get? "rtl_1" = some lease ∧
      lease.expiresAt = wantSlot.now + RateLimitState.wholeWait 4) ∧
    RateBackend.memory.hint? (rateRun .memory id [takeSlot]).state wantSlot "tsk_1" true = some 4 ∧
    ¬ RateBackend.memory.Allows (rateRun .memory id [takeSlot]).state (wantSlot.after 4) "tsk_1" true ∧
    RateBackend.sqlite.hint? (rateRun .sqlite id [takeSlot]).state wantSlot "tsk_1" true = some 4 ∧
    ¬ RateBackend.sqlite.Allows (rateRun .sqlite id [takeSlot]).state (wantSlot.after 4) "tsk_1" true := by
  refine ⟨⟨_, rfl, by decide +kernel⟩, (wantSlot_spins .memory).1, ?_, (wantSlot_spins .sqlite).1, ?_⟩
  · exact RateBackend.not_allows_of_hint (wantSlot_spins .memory).2
  · exact RateBackend.not_allows_of_hint (wantSlot_spins .sqlite).2

end NightScout
