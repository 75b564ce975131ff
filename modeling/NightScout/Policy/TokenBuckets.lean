import NightScout.Policy.RateRuns
import NightScout.Lib.TokenBucket

/-!
# The token buckets of a run

A bucket of constant rate and burst grants, over any window of clock values, at most its burst and
what it gains meanwhile. The clock of a bucket is `last_refill_at`, which every acquire that is
granted sets to the `now` it came with. `now` is read before the store is entered, so an acquire can
find the bucket's clock ahead of its own and set it back; the bucket then gains the same time twice.
`InOrder` says that none does.
-/

namespace NightScout

open Lib TokenBucket

/-- What one event granted from a bucket: when, and how many tokens. -/
def RateEvent.grant (key : RateBucketKey) : RateEvent → Option (ℚ × ℚ)
  | .granted now checks =>
    if key ∈ checks.map RateBucketCheck.key then
      some (totalSeconds now, charge (checks.map fun check => (check.key, check.requests)) key)
    else none
  | .closed _ => none

/-- What the acquires of a run were granted from one bucket. -/
def RateWorld.grants (w : RateWorld) (key : RateBucketKey) : List (ℚ × ℚ) :=
  w.log.filterMap (RateEvent.grant key)

/-- The tokens granted to calls whose `now` lies in `[s, t]` total at most the burst and what is
    gained in `t - s`, with the tolerance once a call. -/
def RateWorld.WindowBound (w : RateWorld) (key : RateBucketKey) (rate burst : ℚ) (s t : Instant) :
    Prop :=
  takenIn (totalSeconds s) (totalSeconds t) (w.grants key) ≤
    burst + rate * (totalSeconds t - totalSeconds s) +
      countIn (totalSeconds s) (totalSeconds t) (w.grants key) * tolerance

instance (w : RateWorld) (key : RateBucketKey) (rate burst : ℚ) (s t : Instant) :
    Decidable (w.WindowBound key rate burst s t) := inferInstanceAs (Decidable (_ ≤ _))

/-- Acquires that find the bucket configured with the one rate and burst. -/
def RateCmd.OnBucket (key : RateBucketKey) (rate burst : ℚ) : RateCmd → Prop
  | .acquire profile _ _ _ _ _ _ _ => ∀ rule ∈ profile.rules, rule.ruleId.text = key.1 →
      rule.requestsPerSecond = some rate ∧ rule.burst = some burst
  | .tryAcquire _ checks _ _ _ _ => (checks.map RateBucketCheck.key).Nodup ∧
      ∀ check ∈ checks, check.key = key →
        check.requestsPerSecond = some rate ∧ check.burst = some burst
  | _ => True

/-- No acquire that the store grants sets the clock of the bucket back. -/
def RateWorld.InOrder (lower : String → String) (key : RateBucketKey) (w : RateWorld)
    (cmd : RateCmd) : Prop :=
  ∀ a ∈ cmd.attempt lower, w.state.Admits a.now a.checks → key ∈ a.checks.map RateBucketCheck.key →
    ∀ bucket ∈ w.state.buckets.get? key, bucket.lastRefillAt ≤ a.now

instance (lower : String → String) (key : RateBucketKey) (w : RateWorld) (cmd : RateCmd) :
    Decidable (w.InOrder lower key cmd) := by
  unfold RateWorld.InOrder
  infer_instance

section Pacing

variable {backend : RateBackend} {lower : String → String} {key : RateBucketKey} {rate burst : ℚ}
  {w : RateWorld} {cmd : RateCmd} {a : RateAttempt} {check : RateBucketCheck}

theorem OnBucket.attempt (hcmd : cmd.OnBucket key rate burst) (ha : cmd.attempt lower = some a) :
    (a.checks.map RateBucketCheck.key).Nodup ∧ ∀ check ∈ a.checks, check.key = key →
      check.requestsPerSecond = some rate ∧ check.burst = some burst := by
  cases cmd with
  | acquire profile task context demand leaseFor now leaseId taskRow =>
    cases ha
    refine ⟨compileRateChecks_nodup, acquireChecks_forall fun rule hrule resourceKey hkey => ?_⟩
    exact hcmd rule hrule (congrArg Prod.fst hkey)
  | tryAcquire taskId checks leaseFor now leaseId taskRow =>
    cases ha
    exact hcmd
  | release leaseId => cases ha
  | renew leaseId expiresAt now => cases ha
  | reapExpired now => cases ha

/-- The bucket is in good order: full and unused, or within its bounds. -/
def RateWorld.Paced (key : RateBucketKey) (rate burst : ℚ) (w : RateWorld) : Prop :=
  match w.state.pace key with
  | none => w.grants key = []
  | some (tokens, last) =>
    Within rate burst tolerance tokens (totalSeconds last) (w.grants key)

theorem paced_congr {w' : RateWorld} (h : w.Paced key rate burst)
    (hpace : w'.state.pace key = w.state.pace key) (hgrants : w'.grants key = w.grants key) :
    w'.Paced key rate burst := by
  unfold RateWorld.Paced
  rw [hpace, hgrants]
  exact h

/-- The bucket as the check of an acquire in order finds it. -/
theorem within_current (h : w.Paced key rate burst) (hrate : 0 < rate) (hburst : 0 < burst)
    (hkey : check.key = key) (hcheck : check.requestsPerSecond = some rate ∧ check.burst = some burst) {now : Instant}
    (hclock : ∀ bucket ∈ w.state.buckets.get? key, bucket.lastRefillAt ≤ now) :
    Within rate burst tolerance (w.state.current now check).tokens (totalSeconds now) (w.grants key) := by
  have htol := tolerance_pos.le
  subst hkey
  unfold RateWorld.Paced RateLimitState.pace at h
  unfold RateLimitState.current RateBucketCheck.currentBucket
  cases hstored : w.state.buckets.get? check.key with
  | none =>
    simp only [hstored, Option.map_none] at h
    simp only [hcheck.2, Option.getD_some, h]
    exact .start hrate.le hburst.le htol
  | some bucket =>
    simp only [hstored, Option.map_some] at h
    simp only [hcheck.1, hcheck.2]
    have hle : bucket.lastRefillAt ≤ now := hclock bucket hstored
    have hsec : totalSeconds bucket.lastRefillAt ≤ totalSeconds now := by
      unfold totalSeconds
      gcongr
    have helapsed : max (totalSeconds (now - bucket.lastRefillAt)) 0 =
        totalSeconds now - totalSeconds bucket.lastRefillAt := by
      have hsub : totalSeconds (now - bucket.lastRefillAt) =
          totalSeconds now - totalSeconds bucket.lastRefillAt := by
        unfold totalSeconds
        push_cast
        ring
      rw [hsub, max_eq_left (sub_nonneg.mpr hsec)]
    rw [helapsed]
    exact h.refill hrate.le hburst.le htol hsec

/-- What a check that passes spends is there, up to the tolerance. -/
theorem spent_le {bucket : RateBucket} (hpass : check.Passes bucket)
    (hrate : check.requestsPerSecond = some rate) (hburst : check.burst = some burst)
    (hbelow : -tolerance ≤ bucket.tokens) :
    check.spent = check.requests ∧ check.requests ≤ bucket.tokens + tolerance := by
  by_cases hpos : 0 < check.requests
  · have hlacks := hpass.2.1
    simp only [RateBucketCheck.lacksTokens, hpos, hrate, hburst, Option.isSome_some, true_and,
      not_lt] at hlacks
    refine ⟨?_, hlacks⟩
    simp [RateBucketCheck.spent, hpos, hrate]
  · have hzero : check.requests = 0 := le_antisymm (not_lt.mp hpos) check.requests_nonneg
    refine ⟨?_, ?_⟩
    · simp [RateBucketCheck.spent, hzero]
    · rw [hzero]
      linarith

/-- The buckets an acquire in order writes stay within their bounds, whether the acquire is
    granted the tokens or loses them. -/
theorem paced_wrote (h : w.Paced key rate burst) (hrate : 0 < rate) (hburst : 0 < burst)
    (hnd : (a.checks.map RateBucketCheck.key).Nodup) (hchecks : ∀ check ∈ a.checks, check.key = key →
      check.requestsPerSecond = some rate ∧ check.burst = some burst) (hclock : key ∈ a.checks.map RateBucketCheck.key →
      ∀ bucket ∈ w.state.buckets.get? key, bucket.lastRefillAt ≤ a.now)
    (hadmits : w.state.Admits a.now a.checks) {buckets : Dict RateBucketKey RateBucket}
    (hwrote : w.state.Wrote a buckets) (leases : Dict String RateLimitLease) :
    RateWorld.Paced key rate burst ⟨⟨buckets, leases⟩, .granted a.now a.checks :: w.log⟩ ∧
      RateWorld.Paced key rate burst ⟨⟨buckets, leases⟩, w.log⟩ := by
  cases hlast : lastOn a.checks key with
  | none =>
    have hnot : key ∉ a.checks.map RateBucketCheck.key := by
      intro hmem
      obtain ⟨check, hcheck, hkey⟩ := List.mem_map.mp hmem
      exact lastOn_none hlast check hcheck hkey
    have hpace : RateLimitState.pace ⟨buckets, leases⟩ key = w.state.pace key :=
      congrArg _ (hwrote.other key hlast)
    exact ⟨paced_congr h hpace (List.filterMap_cons_none (by rw [RateEvent.grant, if_neg hnot])), paced_congr h hpace rfl⟩
  | some check =>
    obtain ⟨hmem, hkey⟩ := lastOn_some hlast
    obtain ⟨hr, hb⟩ := hchecks check hmem hkey
    have hin : key ∈ a.checks.map RateBucketCheck.key := hkey ▸ List.mem_map_of_mem hmem
    obtain ⟨bucket, hget, htokens, -, hnow⟩ := hwrote.named key check hlast
    have hwithin := within_current h hrate hburst hkey ⟨hr, hb⟩ (hclock hin)
    obtain ⟨hspent, hle⟩ := spent_le (hadmits check hmem) hr hb hwithin.notBelow
    have hpace : RateLimitState.pace ⟨buckets, leases⟩ key =
        some ((w.state.current a.now check).tokens - check.requests, a.now) := by
      rw [RateLimitState.pace, hget, Option.map_some, htokens, hspent, hnow (by simp [hr])
        (by simp [hb])]
    have hamount : charge (a.checks.map fun check => (check.key, check.requests)) key =
        check.requests := by
      apply charge_of_mem
      · rw [List.map_map]
        exact hnd
      · exact List.mem_map.mpr ⟨check, hmem, by rw [hkey]⟩
    have hgrants (state : RateLimitState) :
        RateWorld.grants ⟨state, .granted a.now a.checks :: w.log⟩ key =
          (totalSeconds a.now, check.requests) :: w.grants key :=
      List.filterMap_cons_some (by rw [RateEvent.grant, if_pos hin, hamount])
    unfold RateWorld.Paced
    rw [hpace, hgrants]
    exact ⟨hwithin.give hrate.le check.requests_nonneg hle,
      hwithin.lose check.requests_nonneg hle⟩

/-- What is not an acquire grants nothing. -/
theorem grants_call (h : cmd.attempt lower = none) (reply : RateReply) (state : RateLimitState) :
    RateWorld.grants ⟨state, cmd.events lower reply ++ w.log⟩ key = w.grants key := by
  unfold RateCmd.events RateWorld.grants
  rw [h]
  cases reply with
  | decided result => rfl
  | released result => cases result <;> rfl
  | renewed result => rfl
  | reaped result =>
    cases result with
    | error e => rfl
    | ok leases =>
      rw [List.filterMap_append]
      simp [List.filterMap_map, List.filterMap_reverse, Function.comp_def, RateEvent.grant]

/-- **One call keeps the bucket in good order.** -/
theorem paced_step (h : w.Paced key rate burst) (hrate : 0 < rate) (hburst : 0 < burst)
    (hcmd : cmd.OnBucket key rate burst) (horder : w.InOrder lower key cmd) :
    (w.step backend lower cmd).Paced key rate burst := by
  unfold RateWorld.step
  cases ha : cmd.attempt lower with
  | none => exact paced_congr h (RateCmd.pace_call ha key) (grants_call ha _ _)
  | some a =>
    obtain ⟨hnd, hchecks⟩ := OnBucket.attempt hcmd ha
    obtain ⟨result, s', hcall, hout⟩ := RateCmd.call_attempt backend w.state ha
    rw [hcall]
    cases hout with
    | refused hnot htokens =>
      refine paced_congr h rfl ?_
      cases result with
      | error e => simp [RateCmd.events, ha]
      | ok d => simp [RateCmd.events, ha, hnot d rfl]
    | granted hallow hchecked hadmits hwrote hleased hdistinct =>
      have hpaced := paced_wrote h hrate hburst hnd hchecks (horder a ha hadmits) hadmits hwrote
      simpa only [RateCmd.events, ha, hallow, hchecked, if_true, List.singleton_append]
        using (hpaced _).1
    | spentNotLeased hmemory hitems hlate he hadmits hwrote =>
      have hpaced := paced_wrote h hrate hburst hnd hchecks (horder a ha hadmits) hadmits hwrote
      simpa only [RateCmd.events, ha, List.nil_append] using (hpaced _).2

end Pacing

/-- **The token-bucket bound.** It holds for every window of every run over either store in which
    the bucket has one rate and one burst, and no acquire that is granted sets its clock back. -/
theorem token_bucket_bound (backend : RateBackend) (lower : String → String) (key : RateBucketKey)
    {rate burst : ℚ} (hrate : 0 < rate) (hburst : 0 < burst) (cmds : List RateCmd)
    (hcmds : ∀ cmd ∈ cmds, cmd.OnBucket key rate burst)
    (horder : Along (RateWorld.step backend lower) (RateWorld.InOrder lower key) ⟨.empty, []⟩ cmds)
    {s t : Instant} (hst : s ≤ t) : (rateRun backend lower cmds).WindowBound key rate burst s t := by
  have hpaced : (rateRun backend lower cmds).Paced key rate burst :=
    Along.invariant (P := RateWorld.Paced key rate burst) ((Along.of_forall hcmds).and horder) rfl
      fun w cmd h hok => paced_step h hrate hburst hok.1 hok.2
  have hsec : totalSeconds s ≤ totalSeconds t := by
    unfold totalSeconds
    gcongr
  unfold RateWorld.Paced at hpaced
  unfold RateWorld.WindowBound
  split at hpaced
  next =>
    -- the bucket was never touched
    have hgain : 0 ≤ rate * (totalSeconds t - totalSeconds s) :=
      mul_nonneg hrate.le (sub_nonneg.mpr hsec)
    rw [hpaced]
    simp only [takenIn, countIn, List.countP_nil, Nat.cast_zero, zero_mul, add_zero]
    exact add_nonneg hburst.le hgain
  next => exact hpaced.takenIn_le hrate.le hburst.le tolerance_pos.le hsec

/-! ## A clock set back -/

def programRule : Stripped := ⟨"program", by decide, by decide⟩

/-- One request a second for everything, two at once. -/
def pacedProfile : RateLimitProfile where
  rules := [{ ruleId := programRule, scope := .global, requestsPerSecond := some 1, burst := some 2
              max_pos := no_concurrency_pos }]
  retry_nonneg := retry_nonneg

def pacedTask : Task where
  taskId := "tsk_1"
  worker := httpxName
  action := probeName
  inputEventId := ⟨"evt_1", by decide, by decide⟩
  createdAt := 0
  updatedAt := 0
  availableAt := 0
  lifecycle := by decide

theorem no_keys_nodup : ([] : List String).Nodup := List.nodup_nil

/-- A task that names no resource. -/
def noResources : RateLimitContext := { resourceKeys_nodup := no_keys_nodup }

theorem one_request_asked : ¬ ((1 : ℚ) = 0 ∧ 0 = 0) := by decide +kernel

/-- A request without a slot. -/
def bareRequest : RateLimitDemand where
  concurrency := 0
  requests_nonneg := retry_nonneg
  some_demand := one_request_asked

/-- One request of the paced task, at a second of the clock. -/
def requestAt (second : ℤ) (leaseId : String) : RateCmd :=
  .acquire pacedProfile pacedTask noResources bareRequest 300000000 (second * 1000000) leaseId true

def programBucket : RateBucketKey := ("program", "global")

/-- Two requests at second 10, a third at second 11. -/
def promptAcquires : List RateCmd :=
  [requestAt 10 "rtl_1", requestAt 10 "rtl_2", requestAt 11 "rtl_3"]

theorem token_bucket_bound_promptAcquires :
    (rateRun .sqlite id promptAcquires).WindowBound programBucket 1 2 10000000 11000000 :=
  token_bucket_bound .sqlite id programBucket (by decide +kernel) (by decide +kernel) promptAcquires
    (by simp [promptAcquires, requestAt, RateCmd.OnBucket, pacedProfile]) (by decide +kernel)
    (by decide +kernel)

/-- Four requests, the second of which read its `now` ten seconds before it is served. -/
def lateAcquires : List RateCmd :=
  [requestAt 10 "rtl_1", requestAt 0 "rtl_2", requestAt 10 "rtl_3", requestAt 10 "rtl_4"]

/-- The late acquire sets the clock back, and the bucket of two grants three tokens at second 10. -/
theorem lateAcquires_overgrant : (∀ cmd ∈ lateAcquires, cmd.OnBucket programBucket 1 2) ∧
    ¬ (rateRun .memory id lateAcquires).WindowBound programBucket 1 2 10000000 10000000 ∧
    ¬ (rateRun .sqlite id lateAcquires).WindowBound programBucket 1 2 10000000 10000000 :=
  ⟨by simp [lateAcquires, requestAt, RateCmd.OnBucket, pacedProfile], by decide +kernel,
    by decide +kernel⟩

end NightScout
