import NightScout.Policy.RateRuns

/-!
# The ledger of rate leases

A bucket's `active_concurrency` is a counter beside the leases it counts. It is the sum of what the
ACTIVE leases hold in the bucket, it never passes the maximum it was acquired under, a lease leaves
ACTIVE once, and no bucket is overdrawn.

All of that is `RateWorld.Inv`, which a call preserves under a condition on the acquires it makes
(`Covered`): without it, an acquire can spend into the tolerance of its own comparison, lease what
it has not counted, or count what it then fails to lease.
-/

namespace NightScout

open Lib

/-- What a list of items holds in a bucket. -/
def slots (items : List RateLeaseItem) (key : RateBucketKey) : ℕ :=
  charge (items.map fun item => (item.key, item.concurrency)) key

/-- What a lease holds now. -/
def RateLimitLease.holds (lease : RateLimitLease) : List (RateBucketKey × ℕ) :=
  if lease.state = .active then lease.items.map fun item => (item.key, item.concurrency) else []

/-- The counter of a bucket. -/
def activeIn (buckets : Dict RateBucketKey RateBucket) (key : RateBucketKey) : ℕ :=
  ((buckets.get? key).map RateBucket.activeConcurrency).getD 0

namespace RateLimitState

def active (s : RateLimitState) (key : RateBucketKey) : ℕ := activeIn s.buckets key

/-- What the ACTIVE leases hold in a bucket. -/
def held (s : RateLimitState) (key : RateBucketKey) : ℕ :=
  Lib.held (fun _ lease => lease.holds) s.leases key

end RateLimitState

/-- What an acquire adds to the counter of a bucket. -/
def addedTo (checks : List RateBucketCheck) (key : RateBucketKey) : ℕ :=
  ((lastOn checks key).map RateBucketCheck.taken).getD 0

namespace RateWorld

/-- The maximum the concurrency of a bucket was last acquired under. -/
def maxFor : List RateEvent → RateBucketKey → ℕ
  | [], _ => 0
  | .closed _ :: log, key => maxFor log key
  | .granted _ checks :: log, key =>
    match lastOn checks key with
    | some check =>
      if check.takesConcurrency then check.maxConcurrency.getD 0 else maxFor log key
    | none => maxFor log key

/-- How often a lease left ACTIVE. -/
def closings (leaseId : String) (log : List RateEvent) : ℕ :=
  log.countP fun
    | .closed id => id = leaseId
    | .granted _ _ => false

/-- A lease id is new when it is drawn. -/
def Fresh (lower : String → String) (w : RateWorld) (cmd : RateCmd) : Prop :=
  ∀ a ∈ cmd.attempt lower, w.state.leases.get? a.leaseId = none

/-- An acquire that all its checks let through is covered: it spends what is there, leases what it
    counts, and its lease ends at a date there is. -/
def Covered (backend : RateBackend) (lower : String → String) (w : RateWorld) (cmd : RateCmd) :
    Prop :=
  ∀ a ∈ cmd.attempt lower, w.state.Admits a.now a.checks →
    (∀ check ∈ a.checks, lastOn a.checks check.key = some check →
      check.spent ≤ (w.state.current a.now check).tokens) ∧
    ((backend = .sqlite → ((leaseItems a.checks).map RateLeaseItem.key).Nodup) →
      ∀ check ∈ a.checks, slots (leaseItems a.checks) check.key = addedTo a.checks check.key) ∧
    (backend = .memory → leaseItems a.checks ≠ [] → a.now + a.leaseFor ≤ maxInstant)

instance (lower : String → String) (w : RateWorld) (cmd : RateCmd) :
    Decidable (w.Fresh lower cmd) := by
  unfold Fresh
  infer_instance

instance (backend : RateBackend) (lower : String → String) (w : RateWorld) (cmd : RateCmd) :
    Decidable (w.Covered backend lower cmd) := by
  unfold Covered
  infer_instance

/-- How often a lease has left ACTIVE, by its row. -/
def closedOf : Option RateLimitLease → ℕ
  | none => 0
  | some lease => if lease.state = .active then 0 else 1

/-- What holds in every reachable state. -/
structure Inv (w : RateWorld) : Prop where
  keyed : ∀ leaseId lease, w.state.leases.get? leaseId = some lease → lease.leaseId = leaseId
  counted : ∀ key, w.state.active key = w.state.held key
  bounded : ∀ key, w.state.active key ≤ maxFor w.log key
  closedOnce : ∀ leaseId, closings leaseId w.log = closedOf (w.state.leases.get? leaseId)
  funded : ∀ key bucket, w.state.buckets.get? key = some bucket → 0 ≤ bucket.tokens

variable {backend : RateBackend} {lower : String → String} {w : RateWorld} {cmd : RateCmd}
  {a : RateAttempt} {key : RateBucketKey}

theorem inv_empty : Inv ⟨.empty, []⟩ where
  keyed leaseId lease h := by cases h
  counted _ := rfl
  bounded _ := le_refl 0
  closedOnce _ := rfl
  funded key bucket h := by cases h

/-! ## Acquiring -/

theorem slots_leaseItems_eq_zero {checks : List RateBucketCheck}
    (h : ∀ check ∈ checks, check.key ≠ key) : slots (leaseItems checks) key = 0 := by
  apply charge_eq_zero
  rw [List.map_map]
  intro hmem
  obtain ⟨item, hitem, hkey⟩ := List.mem_map.mp hmem
  obtain ⟨check, hcheck, rfl⟩ := List.mem_map.mp hitem
  exact h check (List.mem_filter.mp hcheck).1 hkey

/-- A refilled bucket counts what the stored one does. -/
theorem current_activeConcurrency (s : RateLimitState) (now : Instant) (check : RateBucketCheck) :
    (s.current now check).activeConcurrency = s.active check.key := by
  unfold RateLimitState.current RateBucketCheck.currentBucket RateLimitState.active activeIn
  cases s.buckets.get? check.key with
  | none => rfl
  | some bucket =>
    simp only
    split <;> rfl

theorem active_wrote {s : RateLimitState} {buckets : Dict RateBucketKey RateBucket}
    (h : s.Wrote a buckets) (key : RateBucketKey) : activeIn buckets key = s.active key + addedTo a.checks key := by
  unfold addedTo
  cases hlast : lastOn a.checks key with
  | none => rw [activeIn, h.other key hlast, Option.map_none, Option.getD_none, add_zero]; rfl
  | some check =>
    obtain ⟨bucket, hget, -, hactive, -⟩ := h.named key check hlast
    rw [activeIn, hget, Option.map_some, Option.getD_some, hactive, current_activeConcurrency,
      (lastOn_some hlast).2, Option.map_some, Option.getD_some]

/-- An acquire that is granted counts up to its own maximum. -/
theorem active_le_max {s : RateLimitState} {check : RateBucketCheck}
    (hpass : check.Passes (s.current a.now check)) (htakes : check.takesConcurrency = true) :
    s.active check.key + check.taken ≤ check.maxConcurrency.getD 0 := by
  have hlacks := hpass.2.2
  rw [RateBucketCheck.lacksConcurrency, not_and, not_lt, current_activeConcurrency] at hlacks
  rw [RateBucketCheck.taken, if_pos htakes]
  exact hlacks htakes

/-- **An acquire that is granted keeps the ledger.** -/
theorem Inv.granted (h : w.Inv) (hfresh : w.state.leases.get? a.leaseId = none)
    (hadmits : w.state.Admits a.now a.checks) (hspent : ∀ check ∈ a.checks, lastOn a.checks check.key = some check →
      check.spent ≤ (w.state.current a.now check).tokens)
    (hcharge : ∀ check ∈ a.checks, slots (leaseItems a.checks) check.key = addedTo a.checks check.key)
    {buckets : Dict RateBucketKey RateBucket} (hwrote : w.state.Wrote a buckets)
    {lease : Option RateLimitLease} {leases : Dict String RateLimitLease} (hleased : w.state.Leased a lease leases) :
    Inv ⟨⟨buckets, leases⟩, .granted a.now a.checks :: w.log⟩ := by
  have hsame (key : RateBucketKey) : slots (leaseItems a.checks) key = addedTo a.checks key := by
    cases hlast : lastOn a.checks key with
    | none => rw [slots_leaseItems_eq_zero (lastOn_none hlast), addedTo, hlast]; rfl
    | some check =>
      obtain ⟨hmem, rfl⟩ := lastOn_some hlast
      exact hcharge check hmem
  have hbounded (key : RateBucketKey) : activeIn buckets key ≤
      maxFor (.granted a.now a.checks :: w.log) key := by
    rw [active_wrote hwrote, maxFor, addedTo]
    cases hlast : lastOn a.checks key with
    | none => exact h.bounded key
    | some check =>
      obtain ⟨hmem, rfl⟩ := lastOn_some hlast
      simp only [Option.map_some, Option.getD_some]
      split
      next htakes => exact active_le_max (hadmits check hmem) htakes
      next htakes =>
        rw [RateBucketCheck.taken, if_neg htakes, add_zero]
        exact h.bounded check.key
  have hfunded (key : RateBucketKey) (bucket : RateBucket) (hget : buckets.get? key = some bucket) :
      0 ≤ bucket.tokens := by
    cases hlast : lastOn a.checks key with
    | none =>
      rw [hwrote.other key hlast] at hget
      exact h.funded key bucket hget
    | some check =>
      obtain ⟨hmem, rfl⟩ := lastOn_some hlast
      obtain ⟨bucket', hget', htokens, -, -⟩ := hwrote.named check.key check hlast
      rw [hget] at hget'
      cases hget'
      rw [htokens]
      exact sub_nonneg.mpr (hspent check hmem hlast)
  rcases hleased with ⟨hitems, rfl, rfl⟩ | ⟨l, rfl, hid, hitems, hactive, rfl⟩
  · refine ⟨h.keyed, fun key => ?_, hbounded, h.closedOnce, hfunded⟩
    have hzero : slots (leaseItems a.checks) key = 0 := by
      rw [slots, hitems]
      rfl
    have hadd := active_wrote hwrote key
    rw [← hsame key, hzero, add_zero, h.counted key] at hadd
    exact hadd
  · have hholds : l.holds = (leaseItems a.checks).map fun item => (item.key, item.concurrency) := by
      rw [RateLimitLease.holds, if_pos hactive, hitems]
    refine ⟨fun leaseId lease hget => ?_, fun key => ?_, hbounded, fun leaseId => ?_, hfunded⟩
    · rw [Dict.get?_set] at hget
      split at hget
      next heq =>
        cases hget
        exact hid.trans heq.symm
      next => exact h.keyed leaseId lease hget
    · have hheld : RateLimitState.held ⟨buckets, w.state.leases.set a.leaseId l⟩ key =
          w.state.held key + slots (leaseItems a.checks) key := by
        rw [slots, ← hholds]
        exact held_set_none _ hfresh key
      rw [hheld, hsame key, ← h.counted key]
      exact active_wrote hwrote key
    · change closings leaseId w.log = closedOf ((w.state.leases.set a.leaseId l).get? leaseId)
      rw [h.closedOnce leaseId, Dict.get?_set]
      split
      next heq => rw [heq, hfresh, closedOf, closedOf, if_pos hactive]
      next => rfl

/-! ## Leaving ACTIVE -/

section Closing

variable (missing underflow : RateLeaseItem → PyError)

/-- The counters give back what the items hold: none is missing and none underflows. -/
theorem releaseItems_ok {items : List RateLeaseItem} {buckets : Dict RateBucketKey RateBucket}
    (h : ∀ key, slots items key ≤ activeIn buckets key) :
    ∃ buckets', RateLimitState.releaseItems missing underflow buckets items = (.ok (), buckets') ∧
      ∀ key, buckets'.get? key = (buckets.get? key).map fun bucket =>
        { bucket with activeConcurrency := bucket.activeConcurrency - slots items key } := by
  induction items generalizing buckets with
  | nil => exact ⟨buckets, rfl, fun key => by simp [slots]⟩
  | cons item items ih =>
    have hcons (key : RateBucketKey) : slots (item :: items) key =
        (if item.key = key then item.concurrency else 0) + slots items key := rfl
    simp only [hcons] at h ⊢
    simp only [RateLimitState.releaseItems]
    split
    next hzero =>
      -- an item of nothing is passed over
      have hrest (key : RateBucketKey) : slots items key ≤ activeIn buckets key :=
        le_trans (Nat.le_add_left _ _) (h key)
      obtain ⟨buckets', hok, hget⟩ := ih hrest
      refine ⟨buckets', hok, fun key => ?_⟩
      simpa [hzero] using hget key
    next hpos =>
      have hle := h item.key
      rw [if_pos rfl] at hle
      cases hbucket : buckets.get? item.key with
      | none =>
        rw [activeIn, hbucket] at hle
        simp only [Option.map_none, Option.getD_none] at hle
        omega
      | some bucket =>
        have hactive : activeIn buckets item.key = bucket.activeConcurrency := by
          rw [activeIn, hbucket]
          rfl
        rw [hactive] at hle
        simp only
        rw [if_neg (by omega)]
        have hrest (key : RateBucketKey) : slots items key ≤ activeIn (buckets.set item.key
            { bucket with activeConcurrency := bucket.activeConcurrency - item.concurrency }) key := by
          by_cases hkey : key = item.key
          · subst hkey
            simp only [activeIn, Dict.get?_set, if_true, Option.map_some, Option.getD_some]
            omega
          · have hother := h key
            simp only [activeIn, Dict.get?_set, if_neg hkey]
            rw [if_neg (Ne.symm hkey), zero_add] at hother
            exact hother
        obtain ⟨buckets', hok, hget⟩ := ih hrest
        refine ⟨buckets', hok, fun key => ?_⟩
        rw [hget key, Dict.get?_set]
        by_cases hkey : key = item.key
        · subst hkey
          simp [hbucket, Nat.sub_sub]
        · simp [hkey, Ne.symm hkey]

/-- **Closing an ACTIVE lease of a ledger succeeds**, and keeps the ledger. -/
theorem Inv.closed (h : w.Inv) {leaseId : String} {lease : RateLimitLease}
    (hget : w.state.leases.get? leaseId = some lease) (hactive : lease.state = .active)
    (state : RateLeaseState) (hstate : state ≠ .active) :
    ∃ s', w.state.closeLease missing underflow leaseId lease state =
        (.ok { lease with state }, s') ∧
      s'.leases = w.state.leases.set leaseId { lease with state } ∧
      Inv ⟨s', .closed leaseId :: w.log⟩ := by
  have hholds : lease.holds = lease.items.map fun item => (item.key, item.concurrency) :=
    if_pos hactive
  have hle (key : RateBucketKey) : slots lease.items key ≤ activeIn w.state.buckets key := by
    have hheld := charge_le_held (fun _ lease => RateLimitLease.holds lease) hget
      (fun _ _ _ _ _ => Nat.zero_le _) key
    rw [hholds] at hheld
    exact hheld.trans (h.counted key).ge
  obtain ⟨buckets, hok, hbuckets⟩ := releaseItems_ok missing underflow hle
  have hclosed : RateLimitLease.holds { lease with state } = [] := if_neg hstate
  refine ⟨⟨buckets, w.state.leases.set leaseId { lease with state }⟩, ?_, rfl, ?_⟩
  · rw [RateLimitState.closeLease, hok]
  have hsub (key : RateBucketKey) : activeIn buckets key = w.state.active key -
      slots lease.items key := by
    rw [activeIn, hbuckets key, RateLimitState.active, activeIn]
    cases w.state.buckets.get? key with
    | none => simp
    | some bucket => rfl
  constructor
  · intro id l hl
    simp only [Dict.get?_set] at hl
    split at hl
    next heq =>
      cases hl
      exact (h.keyed leaseId lease hget).trans heq.symm
    next => exact h.keyed id l hl
  · intro key
    have htrade := held_set_some (fun _ lease => RateLimitLease.holds lease) { lease with state }
      hget key
    simp only [hclosed, charge_nil, add_zero] at htrade
    have hcounted := h.counted key
    change activeIn buckets key = Lib.held _ _ key
    rw [hsub key, hcounted, slots, ← hholds]
    exact Nat.sub_eq_of_eq_add htrade.symm
  · intro key
    change activeIn buckets key ≤ maxFor w.log key
    rw [hsub key]
    exact (Nat.sub_le _ _).trans (h.bounded key)
  · intro id
    have honce := h.closedOnce id
    simp only [closings, List.countP_cons, Dict.get?_set] at honce ⊢
    by_cases hid : id = leaseId
    · subst hid
      rw [hget, closedOf, if_pos hactive] at honce
      simp [honce, closedOf, hstate]
    · simp [honce, hid, Ne.symm hid]
  · intro key bucket hbucket
    simp only [hbuckets key] at hbucket
    obtain ⟨stored, hstored, rfl⟩ := Option.map_eq_some_iff.mp hbucket
    exact h.funded key stored hstored

/-- The loop of `reap_expired` closes one lease after the other; the leases still to come are
    untouched by the ones before them. -/
theorem Inv.reaped {leases : List (String × RateLimitLease)} (h : w.Inv) (hnd : (leases.map Prod.fst).Nodup)
    (hleases : ∀ e ∈ leases, w.state.leases.get? e.1 = some e.2 ∧ e.2.state = .active) :
    ∃ expired s', w.state.reapAll missing underflow leases = (.ok expired, s') ∧
      Inv ⟨s', (expired.map fun lease => .closed lease.leaseId).reverse ++ w.log⟩ := by
  induction leases generalizing w with
  | nil => exact ⟨[], w.state, rfl, h⟩
  | cons e leases ih =>
    obtain ⟨hne, hnd⟩ := List.nodup_cons.mp hnd
    obtain ⟨hget, hactive⟩ := hleases e List.mem_cons_self
    obtain ⟨s₁, hclose, hleft, hinv⟩ := h.closed missing underflow hget hactive .expired
      (by decide)
    obtain ⟨expired, s₂, hrest, hinv⟩ := ih hinv hnd fun e' he' => by
      have hother : e'.1 ≠ e.1 := fun heq => hne (heq ▸ List.mem_map_of_mem (f := Prod.fst) he')
      simp only [hleft, Dict.get?_set, if_neg hother]
      exact hleases e' (List.mem_cons_of_mem e he')
    refine ⟨{ e.2 with state := .expired } :: expired, s₂, ?_, ?_⟩
    · simp only [RateLimitState.reapAll, hclose, hrest]
    · simpa only [List.map_cons, List.reverse_cons, List.append_assoc, List.singleton_append,
        h.keyed e.1 e.2 hget] using hinv

end Closing

/-! ## Calls -/

/-- An event that closes nothing and counts nothing. -/
theorem Inv.renewed (h : w.Inv) {leaseId : String} {lease : RateLimitLease}
    (hget : w.state.leases.get? leaseId = some lease) (expiresAt : Instant) :
    Inv ⟨{ w.state with leases := w.state.leases.set leaseId { lease with expiresAt } }, w.log⟩ := by
  refine ⟨fun id l hl => ?_, fun key => ?_, h.bounded, fun id => ?_, h.funded⟩
  · simp only [Dict.get?_set] at hl
    split at hl
    next heq =>
      cases hl
      exact (h.keyed leaseId lease hget).trans heq.symm
    next => exact h.keyed id l hl
  · have htrade := held_set_some (fun _ lease => RateLimitLease.holds lease) { lease with expiresAt }
      hget key
    have hsame : RateLimitLease.holds { lease with expiresAt } = lease.holds := rfl
    rw [hsame] at htrade
    exact (h.counted key).trans (Nat.add_right_cancel htrade).symm
  · have honce := h.closedOnce id
    simp only [Dict.get?_set]
    split
    next heq =>
      subst heq
      rw [hget] at honce
      exact honce
    next => exact honce

theorem memory_active {s : RateLimitState} {leaseId : String} {lease : RateLimitLease}
    (h : InMemoryRateLimitStore.requireActiveLease s leaseId = .ok lease) :
    s.leases.get? leaseId = some lease ∧ lease.state = .active := by
  unfold InMemoryRateLimitStore.requireActiveLease at h
  split at h
  · cases h
  next hget =>
    split at h
    · cases h
      exact ⟨hget, ‹_›⟩
    · cases h

theorem sqlite_active {s : RateLimitState} {leaseId : String} {lease : RateLimitLease}
    (h : SQLiteRateLimitStore.requireActiveLease s leaseId = .ok lease) :
    s.leases.get? leaseId = some lease ∧ lease.state = .active := by
  unfold SQLiteRateLimitStore.requireActiveLease at h
  split at h
  · cases h
  next hget =>
    split at h
    · cases h
      exact ⟨hget, ‹_›⟩
    · cases h

theorem Inv.release (h : w.Inv) (backend : RateBackend) (lower : String → String)
    (leaseId : String) : (w.step backend lower (.release leaseId)).Inv := by
  cases backend with
  | memory =>
    unfold step RateCmd.call RateBackend.store inMemoryRateLimitStore
    simp only [InMemoryRateLimitStore.release]
    cases hreq : InMemoryRateLimitStore.requireActiveLease w.state leaseId with
    | error e => exact h
    | ok lease =>
      obtain ⟨hget, hactive⟩ := memory_active hreq
      obtain ⟨s', hclose, -, hinv⟩ := h.closed InMemoryRateLimitStore.missing
        InMemoryRateLimitStore.underflow hget hactive .released (by decide)
      simpa only [hclose, RateCmd.events, RateCmd.attempt, h.keyed leaseId lease hget,
        List.singleton_append] using hinv
  | sqlite =>
    unfold step RateCmd.call RateBackend.store sqliteRateLimitStore
    simp only [SQLiteRateLimitStore.release]
    cases hreq : SQLiteRateLimitStore.requireActiveLease w.state leaseId with
    | error e => exact h
    | ok lease =>
      obtain ⟨hget, hactive⟩ := sqlite_active hreq
      obtain ⟨s', hclose, -, hinv⟩ := h.closed SQLiteRateLimitStore.missing
        SQLiteRateLimitStore.underflow hget hactive .released (by decide)
      simpa only [hclose, RateCmd.events, RateCmd.attempt, SQLiteRateLimitStore.leaseFromRows,
        h.keyed leaseId lease hget, List.singleton_append] using hinv

theorem Inv.renew (h : w.Inv) (backend : RateBackend) (lower : String → String)
    (leaseId : String) (expiresAt now : Instant) : (w.step backend lower (.renew leaseId expiresAt now)).Inv := by
  cases backend with
  | memory =>
    unfold step RateCmd.call RateBackend.store inMemoryRateLimitStore
    simp only [InMemoryRateLimitStore.renew]
    cases hreq : InMemoryRateLimitStore.requireActiveLease w.state leaseId with
    | error e => exact h
    | ok lease =>
      obtain ⟨hget, -⟩ := memory_active hreq
      simp only
      split
      · exact h
      · exact h.renewed hget expiresAt
  | sqlite =>
    unfold step RateCmd.call RateBackend.store sqliteRateLimitStore
    simp only [SQLiteRateLimitStore.renew]
    split
    · exact h
    cases hreq : SQLiteRateLimitStore.requireActiveLease w.state leaseId with
    | error e => exact h
    | ok lease =>
      obtain ⟨hget, -⟩ := sqlite_active hreq
      exact h.renewed hget expiresAt

theorem expiredLeases_active (s : RateLimitState) (now : Instant) : ((s.expiredLeases now).map Prod.fst).Nodup ∧
      ∀ e ∈ s.expiredLeases now, s.leases.get? e.1 = some e.2 ∧ e.2.state = .active := by
  refine ⟨s.leases.nodup_keys.sublist (List.filter_sublist.map Prod.fst), fun e he => ?_⟩
  obtain ⟨hmem, hexpired⟩ := List.mem_filter.mp he
  exact ⟨Dict.mem_entries_iff.mp hmem, (of_decide_eq_true hexpired).1⟩

theorem Inv.reapExpired (h : w.Inv) (backend : RateBackend) (lower : String → String)
    (now : Instant) : (w.step backend lower (.reapExpired now)).Inv := by
  obtain ⟨hnd, hactive⟩ := expiredLeases_active w.state now
  cases backend with
  | memory =>
    obtain ⟨expired, s', hreap, hinv⟩ := h.reaped InMemoryRateLimitStore.missing
      InMemoryRateLimitStore.underflow hnd hactive
    unfold step RateCmd.call RateBackend.store inMemoryRateLimitStore
    simpa only [InMemoryRateLimitStore.reapExpired, hreap, RateCmd.events, RateCmd.attempt] using hinv
  | sqlite =>
    obtain ⟨expired, s', hreap, hinv⟩ := h.reaped SQLiteRateLimitStore.missing
      SQLiteRateLimitStore.underflow hnd hactive
    unfold step RateCmd.call RateBackend.store sqliteRateLimitStore
    simpa only [SQLiteRateLimitStore.reapExpired, hreap, RateCmd.events, RateCmd.attempt,
      SQLiteRateLimitStore.leaseFromRows, List.map_map, Function.comp_def] using hinv

theorem Inv.acquire (h : w.Inv) (ha : cmd.attempt lower = some a) (hfresh : w.Fresh lower cmd)
    (hcovered : w.Covered backend lower cmd) : (w.step backend lower cmd).Inv := by
  obtain ⟨result, s', hcall, hout⟩ := RateCmd.call_attempt backend w.state ha
  unfold step
  rw [hcall]
  cases hout with
  | refused hnot htokens =>
    cases result with
    | error e => simpa only [RateCmd.events, ha, List.nil_append] using h
    | ok d => simpa only [RateCmd.events, ha, hnot d rfl, if_false, List.nil_append] using h
  | granted hallow hchecked hadmits hwrote hleased hdistinct =>
    obtain ⟨hspent, hcharge, -⟩ := hcovered a ha hadmits
    have hdistinct : backend = .sqlite → ((leaseItems a.checks).map RateLeaseItem.key).Nodup := by
      intro hsqlite
      exact hdistinct (hsqlite ▸ rfl)
    have hinv := h.granted (hfresh a ha) hadmits hspent (hcharge hdistinct) hwrote hleased
    simpa only [RateCmd.events, ha, hallow, hchecked, if_true, List.singleton_append] using hinv
  | spentNotLeased hmemory hitems hlate he hadmits hwrote =>
    have hmem : backend = .memory := by
      cases backend
      · rfl
      · cases hmemory
    exact absurd ((hcovered a ha hadmits).2.2 hmem hitems) (not_le.mpr hlate)

/-- **One call keeps the ledger.** -/
theorem Inv.step (h : w.Inv) (hfresh : w.Fresh lower cmd) (hcovered : w.Covered backend lower cmd) :
    (w.step backend lower cmd).Inv := by
  cases ha : cmd.attempt lower with
  | some a => exact h.acquire ha hfresh hcovered
  | none =>
    cases cmd with
    | acquire profile task context demand leaseFor now leaseId taskRow => cases ha
    | tryAcquire taskId checks leaseFor now leaseId taskRow => cases ha
    | release leaseId => exact h.release backend lower leaseId
    | renew leaseId expiresAt now => exact h.renew backend lower leaseId expiresAt now
    | reapExpired now => exact h.reapExpired backend lower now

/-- An acquire that is not allowed changes nothing, and none is refused for overdrawing a bucket. -/
theorem acquire_atomic (ha : cmd.attempt lower = some a) (hcovered : w.Covered backend lower cmd) :
    ∃ result, (cmd.call backend lower w.state).1 = .decided result ∧ ((∀ d, result = .ok d → d.outcome ≠ .allow) →
        (cmd.call backend lower w.state).2 = w.state) ∧ result ≠ .error SQLiteRateLimitStore.tokensConstraint := by
  obtain ⟨result, s', hcall, hout⟩ := RateCmd.call_attempt backend w.state ha
  rw [hcall]
  refine ⟨result, rfl, ?_, ?_⟩
  · intro hnot
    cases hout with
    | refused _ _ => rfl
    | granted hallow hchecked hadmits hwrote hleased hdistinct => exact absurd hallow (hnot _ rfl)
    | spentNotLeased hmemory hitems hlate he hadmits hwrote =>
      have hmem : backend = .memory := by
        cases backend
        · rfl
        · cases hmemory
      exact absurd ((hcovered a ha hadmits).2.2 hmem hitems) (not_le.mpr hlate)
  · intro hresult
    cases hout with
    | refused hnot htokens =>
      obtain ⟨hadmits, key, check, hlast, hlt⟩ := htokens hresult
      obtain ⟨hmem, rfl⟩ := lastOn_some hlast
      exact absurd ((hcovered a ha hadmits).1 check hmem hlast) (not_le.mpr hlt)
    | granted hallow hchecked hadmits hwrote hleased hdistinct => cases hresult
    | spentNotLeased hmemory hitems hlate he hadmits hwrote => exact he (Except.error.inj hresult)

end RateWorld

open RateWorld in
/-- **The ledger of rate leases.** In every run over either store whose acquires are covered: each
    bucket's counter is the sum of its items over the ACTIVE leases, and at most the maximum it was
    acquired under; each lease is released or expired at most once; no stored token count is below
    zero; and of the next acquire, one that is not allowed changes nothing, and none trips the
    constraint on tokens. -/
theorem rate_lease_ledger (backend : RateBackend) (lower : String → String) (cmds : List RateCmd)
    (hfresh : Along (RateWorld.step backend lower) (Fresh lower) ⟨.empty, []⟩ cmds)
    (hcovered : Along (RateWorld.step backend lower) (Covered backend lower) ⟨.empty, []⟩ cmds) :
    let w := rateRun backend lower cmds
    (∀ key, w.state.active key = w.state.held key ∧ w.state.active key ≤ maxFor w.log key) ∧
    (∀ leaseId, closings leaseId w.log ≤ 1) ∧
    (∀ key bucket, w.state.buckets.get? key = some bucket → 0 ≤ bucket.tokens) ∧
    ∀ cmd a, cmd.attempt lower = some a → w.Covered backend lower cmd →
      ∃ result, (cmd.call backend lower w.state).1 = .decided result ∧
        ((∀ d, result = .ok d → d.outcome ≠ .allow) →
          (cmd.call backend lower w.state).2 = w.state) ∧
        result ≠ .error SQLiteRateLimitStore.tokensConstraint := by
  intro w
  have hinv : w.Inv := Along.invariant (P := Inv) (hfresh.and hcovered) inv_empty
    fun w cmd h hok => h.step hok.1 hok.2
  refine ⟨fun key => ⟨hinv.counted key, hinv.bounded key⟩, fun leaseId => ?_, hinv.funded,
    fun cmd a ha hcovered => acquire_atomic ha hcovered⟩
  rw [hinv.closedOnce leaseId]
  unfold closedOf
  split
  · exact Nat.zero_le 1
  · split <;> simp

/-! ## Acquires that are not covered -/

/-- A bucket of three tokens that gains three a second. -/
def paceCheck (requests : ℚ) (h : 0 ≤ requests := by decide +kernel) : RateBucketCheck where
  ruleId := "program"
  bucketKey := "global"
  requests := requests
  requestsPerSecond := some 3
  burst := some 3
  requests_nonneg := h
  max_pos := no_concurrency_pos

def slotCheck : RateBucketCheck where
  ruleId := "target"
  bucketKey := "resource:host:a.example"
  concurrency := 1
  maxConcurrency := some 2
  rps_pos := no_rate_pos
  burst_pos := no_rate_pos

/-- A request and a slot, given back. -/
def coveredRun : List RateCmd :=
  [.tryAcquire "tsk_1" [paceCheck (1 / 2), slotCheck] 300000000 0 "rtl_1" true, .release "rtl_1",
   .tryAcquire "tsk_2" [slotCheck] 300000000 1 "rtl_2" true, .reapExpired 300000001]

theorem rate_lease_ledger_coveredRun :
    let w := rateRun .sqlite id coveredRun
    w.state.active slotCheck.key = w.state.held slotCheck.key ∧
      RateWorld.closings "rtl_1" w.log ≤ 1 :=
  have h := rate_lease_ledger .sqlite id coveredRun (by decide +kernel) (by decide +kernel)
  ⟨(h.1 slotCheck.key).1, h.2.1 "rtl_1"⟩

/-- Half of the tolerance more than the bucket holds. -/
def overdraft : RateBucketCheck := paceCheck (3 + 1 / 2000000000)

def overdrawing : RateCmd := .tryAcquire "tsk_1" [overdraft] 300000000 0 "rtl_1" true

/-- One bucket named twice. -/
def doubling : RateCmd := .tryAcquire "tsk_1" [slotCheck, slotCheck] 300000000 0 "rtl_1" true

/-- A lease that would end after the last date. -/
def endless : RateCmd := .tryAcquire "tsk_1" [slotCheck] (maxInstant + 1) 0 "rtl_1" true

/-- An acquire within the tolerance overdraws the bucket, which the in-memory store keeps and SQLite
    refuses with an exception. In memory, a bucket named twice is leased twice and counted once, and
    a lease without an end is counted though the acquire raised. -/
theorem uncovered_acquires : (∃ bucket ∈ (rateRun .memory id [overdrawing]).state.buckets.get? overdraft.key,
      bucket.tokens < 0) ∧
    (sqliteRateLimitStore.tryAcquire .empty "tsk_1" [overdraft] 300000000 0
      "rtl_1" true).1 = .error SQLiteRateLimitStore.tokensConstraint ∧
    (rateRun .memory id [doubling]).state.active slotCheck.key ≠
      (rateRun .memory id [doubling]).state.held slotCheck.key ∧
    (rateRun .memory id [endless]).state.active slotCheck.key ≠
      (rateRun .memory id [endless]).state.held slotCheck.key := by
  decide +kernel

end NightScout
