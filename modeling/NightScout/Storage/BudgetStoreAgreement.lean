import NightScout.Core.InMemoryBudgetStore
import NightScout.Storage.BudgetRuns

/-!
# Whether the two budget stores agree

The manager makes the same calls over the in-memory store and over SQLite, and what it is told and the
counters are compared. The two part where a reservation leaves a counter with a small rest: the
in-memory store drops a counter of at most `tolerance` although another ACTIVE reservation holds the
rest, SQLite keeps it. The rests that were dropped add up, and the in-memory store then raises the
underflow error SQLite never raises.

`LeavesNoCrumbs` is the condition under which a counter is never dropped that way;
`budget_stores_agree` says that the stores then agree along every run. Answers are compared by what
they say (`BudgetReply.answer`): not by the text of an error, nor by the order of a reservation's items.
-/

namespace NightScout

open Lib BudgetDb

/-! ## Answers -/

/-- The class of an exception. -/
def PyError.className : PyError → String
  | .keyError _ => "KeyError"
  | .valueError _ => "ValueError"
  | .runtimeError _ => "RuntimeError"
  | .integrityError _ => "IntegrityError"
  | .overflowError _ => "OverflowError"
  | .cancelledError => "CancelledError"
  | .exception _ => "Exception"

/-- A reservation, whatever the order of its items. -/
structure ReservationAnswer where
  reservationId : String
  taskId : String
  items : Multiset BudgetReservationItem
  createdAt : Instant
  expiresAt : Instant
  state : ReservationState
  deriving DecidableEq

def BudgetReservation.answer (r : BudgetReservation) : ReservationAnswer where
  reservationId := r.reservationId
  taskId := r.taskId
  items := r.items
  createdAt := r.createdAt
  expiresAt := r.expiresAt
  state := r.state

inductive BudgetAnswer where
  | decision (decision : BudgetDecision)
  | reservation (reservation : ReservationAnswer)
  | reaped (reservations : List ReservationAnswer)
  | raised (className : String)
  deriving DecidableEq

namespace BudgetReply

/-- What a reply says. -/
def answer : BudgetReply → BudgetAnswer
  | decision (.ok d) => .decision d
  | reservation (.ok r) => .reservation r.answer
  | reaped (.ok rs) => .reaped (rs.map BudgetReservation.answer)
  | decision (.error e) | reservation (.error e) | reaped (.error e) => .raised e.className

end BudgetReply

/-- A call of the manager, with what its reply says. -/
def BudgetCmd.step {σ : Type} (store : BudgetStore σ) (capacityRetryAfter : Duration) (s : σ)
    (cmd : BudgetCmd) : BudgetAnswer × σ :=
  ((cmd.run store capacityRetryAfter s).1.answer, (cmd.run store capacityRetryAfter s).2)

/-! ## When they agree -/

/-- Items are taken out of the counters one by one, and no counter is left with a rest of at most
    `tolerance`. -/
def LeavesNoCrumbs (reserved : BudgetKey → ℚ) : List BudgetReservationItem → Prop
  | [] => True
  | item :: items =>
    (reserved item.key - item.amount = 0 ∨ tolerance < reserved item.key - item.amount) ∧
      LeavesNoCrumbs (fun key =>
        if key = item.key then reserved item.key - item.amount else reserved key) items

instance LeavesNoCrumbs.decidable : ∀ (reserved : BudgetKey → ℚ)
    (items : List BudgetReservationItem), Decidable (LeavesNoCrumbs reserved items)
  | _, [] => .isTrue trivial
  | reserved, item :: items =>
    haveI := LeavesNoCrumbs.decidable (fun key =>
      if key = item.key then reserved item.key - item.amount else reserved key) items
    inferInstanceAs (Decidable (_ ∧ _))

namespace InMemoryBudgetStore

/-- The ACTIVE reservations that have expired. -/
def expired (s : InMemoryBudgetStore) (now : Instant) : List BudgetReservation :=
  s.reservations.values.filter fun r => r.state = .active ∧ r.expiresAt ≤ now

/-- The items of an ACTIVE reservation. -/
def activeItems (s : InMemoryBudgetStore) (reservationId : String) : List BudgetReservationItem :=
  match s.reservations.get? reservationId with
  | some r => if r.state = .active then r.items else []
  | none => []

end InMemoryBudgetStore

/-- The calls on which the two stores agree, in the state they are made in: the row a reservation is
    for is in `tasks`, what leaves the counters leaves no crumbs, and a reservation that is renewed is
    known or renewed in time. -/
def BudgetCmd.Agreeable (s : InMemoryBudgetStore) : BudgetCmd → Prop
  | reserve _ _ _ _ _ _ _ taskRow => taskRow = true
  | commit reservationId | release reservationId =>
    LeavesNoCrumbs (fun key => (s.usage key).reserved) (s.activeItems reservationId)
  | renew reservationId leaseFor now now' =>
    s.reservations.get? reservationId ≠ none ∨ now' < now + leaseFor
  | reapExpired now =>
    LeavesNoCrumbs (fun key => (s.usage key).reserved)
      ((s.expired now).flatMap BudgetReservation.items)

instance BudgetCmd.decidableAgreeable (s : InMemoryBudgetStore) :
    ∀ cmd : BudgetCmd, Decidable (cmd.Agreeable s)
  | reserve .. => inferInstanceAs (Decidable (_ = _))
  | commit _ | release _ | reapExpired _ => inferInstanceAs (Decidable (LeavesNoCrumbs _ _))
  | renew .. => inferInstanceAs (Decidable (_ ∨ _))

/-! ## The loops of the in-memory store -/

theorem leavesNoCrumbs_append {reserved : BudgetKey → ℚ} {items items' : List BudgetReservationItem} :
    LeavesNoCrumbs reserved (items ++ items') ↔ LeavesNoCrumbs reserved items ∧
      LeavesNoCrumbs (fun key => reserved key - itemCharge items key) items' := by
  induction items generalizing reserved with
  | nil => simp [LeavesNoCrumbs]
  | cons item items ih =>
    have hcharge : (fun key => (if key = item.key then reserved item.key - item.amount
        else reserved key) - itemCharge items key) =
          fun key => reserved key - itemCharge (item :: items) key := by
      funext key
      rw [itemCharge_cons]
      by_cases hk : key = item.key
      · subst hk
        rw [if_pos rfl, if_pos rfl]
        ring
      · rw [if_neg hk, if_neg (Ne.symm hk), zero_add]
    rw [List.cons_append, LeavesNoCrumbs, LeavesNoCrumbs, ih, hcharge, and_assoc]

namespace InMemoryBudgetStore

variable {s : InMemoryBudgetStore}

theorem reserveItems_get (reserved : Dict BudgetKey ℚ) (items : List BudgetReservationItem)
    (key : BudgetKey) : ((reserveItems reserved items).get? key).getD 0 =
      (reserved.get? key).getD 0 + itemCharge items key := by
  unfold reserveItems
  induction items generalizing reserved with
  | nil => simp
  | cons item items ih =>
    rw [List.foldl_cons, ih, Dict.get?_set, itemCharge_cons]
    by_cases hk : key = item.key
    · subst hk
      rw [if_pos rfl, if_pos rfl, Option.getD_some]
      ring
    · rw [if_neg hk, if_neg (Ne.symm hk), zero_add]

/-- A counter that is left empty, or with more than a crumb, is subtracted from exactly. -/
theorem subtractReserved_ok {reserved : Dict BudgetKey ℚ} {item : BudgetReservationItem}
    (h : (reserved.get? item.key).getD 0 - item.amount = 0 ∨
      tolerance < (reserved.get? item.key).getD 0 - item.amount) :
    ∃ reserved', subtractReserved reserved item = .ok reserved' ∧ ∀ key,
      (reserved'.get? key).getD 0 = if key = item.key then
        (reserved.get? item.key).getD 0 - item.amount else (reserved.get? key).getD 0 := by
  have htol := tolerance_pos
  unfold subtractReserved
  rcases h with hzero | hmore
  · have hguard : ¬ (reserved.get? item.key).getD 0 - item.amount < -tolerance := by linarith
    refine ⟨reserved.erase item.key, ?_, ?_⟩
    · rw [if_neg hguard, if_pos (by linarith)]
    · intro key
      rw [Dict.get?_erase]
      split
      · rw [hzero]
        rfl
      · rfl
  · have hguard : ¬ (reserved.get? item.key).getD 0 - item.amount < -tolerance := by linarith
    refine ⟨reserved.set item.key ((reserved.get? item.key).getD 0 - item.amount), ?_, ?_⟩
    · rw [if_neg hguard, if_neg (not_le.mpr hmore)]
    · intro key
      rw [Dict.get?_set]
      split <;> rfl

/-- **The loop that takes items out of the counters**, when it leaves no crumbs, ends normally and
    subtracts exactly the charge. -/
theorem releaseItems_ok (commitCumulative : Bool) {items : List BudgetReservationItem}
    (h : LeavesNoCrumbs (fun key => (s.usage key).reserved) items) :
    ∃ s', releaseItems commitCumulative s items = (none, s') ∧ s'.reservations = s.reservations ∧
      ∀ key, s'.usage key = BudgetUsage.closed (s.usage key) items commitCumulative key := by
  induction items generalizing s with
  | nil =>
    refine ⟨s, rfl, rfl, ?_⟩
    intro key
    cases commitCumulative <;> simp [BudgetUsage.closed, cumulative]
  | cons item items ih =>
    obtain ⟨hitem, hitems⟩ := h
    obtain ⟨reserved, hok, hget⟩ := subtractReserved_ok hitem
    let committed :=
      if commitCumulative && !item.metric.isCapacity then
        s.committed.set item.key ((s.committed.get? item.key).getD 0 + item.amount)
      else s.committed
    have hcommitted : ∀ key, (committed.get? key).getD 0 = (s.committed.get? key).getD 0 +
        if commitCumulative = true ∧ item.key = key ∧ item.metric.isCapacity = false then item.amount
        else 0 := by
      intro key
      by_cases hcond : (commitCumulative && !item.metric.isCapacity) = true
      · have hset : committed = s.committed.set item.key
            ((s.committed.get? item.key).getD 0 + item.amount) := if_pos hcond
        rw [Bool.and_eq_true, Bool.not_eq_true'] at hcond
        rw [hset, Dict.get?_set]
        by_cases hk : key = item.key
        · subst hk
          rw [if_pos rfl, if_pos ⟨hcond.1, rfl, hcond.2⟩, Option.getD_some]
        · rw [if_neg hk, if_neg fun hc => hk hc.2.1.symm, add_zero]
      · have hkeep : committed = s.committed := if_neg hcond
        rw [Bool.and_eq_true, Bool.not_eq_true'] at hcond
        rw [hkeep, if_neg fun hc => hcond ⟨hc.1, hc.2.2⟩, add_zero]
    have hclean : LeavesNoCrumbs
        (fun key => (usage { s with reserved, committed } key).reserved) items := by
      have hfun : (fun key => (usage { s with reserved, committed } key).reserved) = fun key =>
          if key = item.key then (s.usage item.key).reserved - item.amount
          else (s.usage key).reserved := funext hget
      rw [hfun]
      exact hitems
    obtain ⟨s', hloop, hres, husage⟩ := ih hclean
    refine ⟨s', ?_, hres, ?_⟩
    · rw [releaseItems, hok]
      exact hloop
    · intro key
      rw [husage key]
      unfold BudgetUsage.closed usage
      rw [hget key, hcommitted key, itemCharge_cons, itemCharge_cumulative_cons]
      congr 1
      · cases commitCumulative with
        | false => simp
        | true => simp [add_assoc]
      · by_cases hk : key = item.key
        · subst hk
          rw [if_pos rfl, if_pos rfl]
          ring
        · rw [if_neg hk, if_neg (Ne.symm hk), zero_add]

end InMemoryBudgetStore

/-! ## States that agree -/

/-- The row a reservation is stored in. -/
def BudgetReservation.toRow (r : BudgetReservation) : BudgetReservationRow where
  taskId := r.taskId
  state := r.state
  createdAt := r.createdAt
  expiresAt := r.expiresAt

/-- The two stores hold the same reservations and the same counters. -/
structure BudgetStoresAgree (s : InMemoryBudgetStore) (db : BudgetDb) : Prop where
  ledger : Ledger db
  rows : db.reservations = s.reservations.mapValues BudgetReservation.toRow
  items : ∀ id r, s.reservations.get? id = some r →
    r.reservationId = id ∧ r.items.Perm (db.budgetItems id)
  usage : ∀ key, s.usage key = usageAt db.usage key

namespace BudgetStoresAgree

variable {s : InMemoryBudgetStore} {db : BudgetDb}

theorem empty : BudgetStoresAgree .empty .empty where
  ledger := Ledger.empty
  rows := rfl
  items _ _ h := by cases h
  usage _ := rfl

theorem get (h : BudgetStoresAgree s db) (id : String) :
    db.reservations.get? id = (s.reservations.get? id).map BudgetReservation.toRow := by
  rw [h.rows, Dict.get?_mapValues]

/-- What is read of a row is what is stored in memory. -/
theorem answer_fromRows (h : BudgetStoresAgree s db) {id : String} {r : BudgetReservation}
    (hr : s.reservations.get? id = some r) (r' : BudgetReservation)
    (hid : r'.reservationId = r.reservationId) (hitems : r'.items = r.items) :
    r'.answer = (reservationFromRows id r'.toRow (db.budgetItems id)).answer := by
  obtain ⟨hown, hperm⟩ := h.items id r hr
  have hmulti : (r'.items : Multiset BudgetReservationItem) = db.budgetItems id := by
    rw [hitems]
    exact Multiset.coe_eq_coe.mpr hperm
  show (⟨r'.reservationId, r'.taskId, r'.items, r'.createdAt, r'.expiresAt, r'.state⟩ :
    ReservationAnswer) = ⟨id, r'.taskId, db.budgetItems id, r'.createdAt, r'.expiresAt, r'.state⟩
  rw [hid, hown, hmulti]

/-- A reservation is rewritten in both stores, and the counters are left alike. -/
theorem rewrite (h : BudgetStoresAgree s db) {id : String} {r : BudgetReservation}
    (hr : s.reservations.get? id = some r) (r' : BudgetReservation) (hid : r'.reservationId = r.reservationId)
    (hitems : r'.items = r.items) {s' : InMemoryBudgetStore} {db' : BudgetDb}
    (hledger : Ledger db') (hres : s'.reservations = s.reservations.set id r')
    (hres' : db'.reservations = db.reservations.set id r'.toRow) (hitems' : db'.items = db.items)
    (husage : ∀ key, s'.usage key = usageAt db'.usage key) : BudgetStoresAgree s' db' where
  ledger := hledger
  rows := by rw [hres, hres', Dict.mapValues_set, h.rows]
  items id' q hq := by
    have hsame : db'.budgetItems id' = db.budgetItems id' := by
      unfold budgetItems
      rw [hitems']
    rw [hsame]
    rw [hres, Dict.get?_set] at hq
    split at hq
    next heq =>
      cases hq
      subst heq
      rw [hid, hitems]
      exact h.items id' r hr
    next => exact h.items id' q hq
  usage := husage

/-- **An ACTIVE reservation is closed by both stores**, if it leaves no crumbs. -/
theorem close (h : BudgetStoresAgree s db) {id : String} {r : BudgetReservation}
    (hr : s.reservations.get? id = some r) (hact : r.state = .active) {state : ReservationState}
    (hstate : state ≠ .active) {commitCumulative : Bool} (hcommit : commitCumulative = decide (state = .committed))
    (hclean : LeavesNoCrumbs (fun key => (s.usage key).reserved) r.items) :
    ∃ s₁ db₁, InMemoryBudgetStore.releaseItems commitCumulative s r.items = (none, s₁) ∧
      db.closeReservation id r.toRow state commitCumulative =
        .ok (reservationFromRows id { r with state }.toRow (db.budgetItems id), db₁) ∧
      s₁.reservations = s.reservations ∧
      (∀ key, (s₁.usage key).reserved = (s.usage key).reserved - itemCharge r.items key) ∧
      BudgetStoresAgree { s₁ with reservations := s₁.reservations.set id { r with state } } db₁ := by
  have hrow : db.reservations.get? id = some r.toRow := by rw [h.get, hr]; rfl
  obtain ⟨s₁, hloop, hkept, husage⟩ := InMemoryBudgetStore.releaseItems_ok commitCumulative hclean
  obtain ⟨usage, hok, hcounters⟩ := releaseBudgetUsage_ok commitCumulative
    (fun item hitem => h.ledger.counted _ (mem_budgetItems.mp hitem))
    (fun key => h.ledger.itemCharge_le hrow hact key)
  have hperm := (h.items id r hr).2
  refine ⟨s₁, { db with usage, reservations := db.reservations.set id { r with state }.toRow },
    hloop, ?_, hkept, ?_, ?_⟩
  · simp only [closeReservation, hok]
    rfl
  · intro key
    rw [husage key]
    rfl
  · have hstep : Step (fun _ => True) db
        { db with usage, reservations := db.reservations.set id { r.toRow with state } } := by
      subst hcommit
      exact .close hrow hact hstate hcounters
    refine h.rewrite hr { r with state } rfl rfl (hstep.ledger h.ledger) ?_ rfl rfl ?_
    · rw [hkept]
    · intro key
      show s₁.usage key = usageAt usage key
      rw [husage key, h.ledger.usageAt_close hcounters key, h.usage key]
      have hcumulative : itemCharge (cumulative r.items) key =
          itemCharge (cumulative (db.budgetItems id)) key := itemCharge_perm (hperm.filter _) key
      unfold BudgetUsage.closed
      rw [itemCharge_perm hperm key, hcumulative]

/-! ### The calls -/

/-- Both stores know a reservation, or neither does, and it is ACTIVE in both. -/
theorem requireActive (h : BudgetStoresAgree s db) (id : String) :
    (∃ e e', s.requireActive id = .error e ∧ db.requireActive id = .error e' ∧
      e.className = e'.className ∧ s.activeItems id = [] ∧ e.className ≠ "RuntimeError") ∨
    ∃ r, s.requireActive id = .ok r ∧ db.requireActive id = .ok r.toRow ∧
      s.reservations.get? id = some r ∧ r.state = .active ∧ s.activeItems id = r.items := by
  have hget := h.get id
  unfold InMemoryBudgetStore.requireActive BudgetDb.requireActive InMemoryBudgetStore.activeItems
  cases hr : s.reservations.get? id with
  | none =>
    rw [hr] at hget
    rw [hget]
    exact .inl ⟨_, _, rfl, rfl, rfl, rfl, by simp [PyError.className]⟩
  | some r =>
    rw [hr] at hget
    rw [hget]
    by_cases hact : r.state = .active
    · have hact' : r.toRow.state = .active := hact
      simp only [Option.map_some, hact, hact', if_true]
      exact .inr ⟨r, rfl, rfl, rfl, hact, rfl⟩
    · have hact' : ¬ r.toRow.state = .active := hact
      simp only [Option.map_some, hact, hact', if_false]
      exact .inl ⟨_, _, rfl, rfl, rfl, trivial, by simp [PyError.className]⟩

/-- What the two stores say of a call, and what they are left with. -/
def Alike (left : BudgetAnswer × InMemoryBudgetStore) (right : BudgetAnswer × BudgetDb) : Prop :=
  left.1 = right.1 ∧ left.1 ≠ .raised "RuntimeError" ∧ BudgetStoresAgree left.2 right.2

theorem finalize (h : BudgetStoresAgree s db) (id : String) {state : ReservationState}
    (hstate : state ≠ .active) {commitCumulative : Bool} (hcommit : commitCumulative = decide (state = .committed))
    (hclean : LeavesNoCrumbs (fun key => (s.usage key).reserved) (s.activeItems id)) :
    Alike ((BudgetReply.reservation (s.finalize id state commitCumulative).1).answer,
        (s.finalize id state commitCumulative).2)
      ((BudgetReply.reservation (db.finalize id state commitCumulative).1).answer,
        (db.finalize id state commitCumulative).2) := by
  unfold InMemoryBudgetStore.finalize BudgetDb.finalize
  rcases h.requireActive id with ⟨e, e', he, he', hclass, _, hne⟩ | ⟨r, hr, hrow, hget, hact, hitems⟩
  · rw [he, he']
    exact ⟨congrArg BudgetAnswer.raised hclass, fun heq => hne (BudgetAnswer.raised.inj heq), h⟩
  · rw [hitems] at hclean
    obtain ⟨s₁, db₁, hloop, hclose, _, _, hagree⟩ := h.close hget hact hstate hcommit hclean
    rw [hr, hrow]
    simp only [hloop, hclose]
    refine ⟨congrArg BudgetAnswer.reservation ?_, by simp [BudgetReply.answer], hagree⟩
    exact h.answer_fromRows hget { r with state } rfl rfl

theorem renew (h : BudgetStoresAgree s db) (id : String) (expiresAt now : Instant)
    (hok : s.reservations.get? id ≠ none ∨ now < expiresAt) :
    Alike ((BudgetReply.reservation (s.renew id expiresAt now).1).answer, (s.renew id expiresAt now).2)
      ((BudgetReply.reservation (db.renew id expiresAt now).1).answer, (db.renew id expiresAt now).2) := by
  unfold InMemoryBudgetStore.renew BudgetDb.renew
  by_cases hlate : expiresAt ≤ now
  · -- a known reservation is refused with a `ValueError` for either reason
    obtain ⟨r, hr⟩ := Option.ne_none_iff_exists'.mp (hok.resolve_right (not_lt.mpr hlate))
    rw [if_pos hlate]
    unfold InMemoryBudgetStore.requireActive
    rw [hr]
    by_cases hact : r.state = .active
    · simp only [hact, if_true, if_pos hlate]
      exact ⟨rfl, by simp [BudgetReply.answer, PyError.className], h⟩
    · simp only [hact, if_false]
      exact ⟨rfl, by simp [BudgetReply.answer, PyError.className], h⟩
  · rw [if_neg hlate]
    rcases h.requireActive id with ⟨e, e', he, he', hclass, _, hne⟩ | ⟨r, hr, hrow, hget, hact, _⟩
    · rw [he, he']
      exact ⟨congrArg BudgetAnswer.raised hclass, fun heq => hne (BudgetAnswer.raised.inj heq), h⟩
    · rw [hr, hrow]
      simp only [if_neg hlate]
      refine ⟨congrArg BudgetAnswer.reservation ?_, by simp [BudgetReply.answer], ?_⟩
      · exact h.answer_fromRows hget { r with expiresAt } rfl rfl
      · have hrow' : db.reservations.get? id = some r.toRow := by rw [h.get, hget]; rfl
        have hstep : Step (fun _ => True) db
            { db with reservations := db.reservations.set id { r.toRow with expiresAt } } :=
          .renew hrow' hact
        exact h.rewrite hget { r with expiresAt } rfl rfl (hstep.ledger h.ledger) rfl rfl rfl h.usage

/-- The violations SQLite reports are those of the counters as they were. -/
theorem checkAll_violations (usage : Dict BudgetKey BudgetUsage) (checks : List BudgetCheck) :
    (checkAll usage checks).1 = checks.filterMap fun check =>
      if check.violated (usageAt usage check.key) then
        some (check.violation (usageAt usage check.key)) else none := by
  have hgeneral : ∀ (checks : List BudgetCheck) (usage' : Dict BudgetKey BudgetUsage),
      (∀ key, usageAt usage' key = usageAt usage key) →
        (checkAll usage' checks).1 = checks.filterMap fun check =>
          if check.violated (usageAt usage check.key) then
            some (check.violation (usageAt usage check.key)) else none := by
    intro checks
    induction checks with
    | nil => exact fun _ _ => rfl
    | cons check checks ih =>
      intro usage' hsame
      have hrest : ∀ key, usageAt (getOrCreateUsage usage' check.key).2 key = usageAt usage key := by
        intro key
        rw [← hsame key, usageAt, get?_getOrCreate]
        split
        · rename_i hk
          rw [hk]
          rfl
        · rfl
      simp only [checkAll, usageAt_getOrCreate, hsame, ih _ hrest]
      split
      next hv => rw [List.filterMap_cons, if_pos hv]
      next hv => rw [List.filterMap_cons, if_neg hv]
  exact hgeneral checks usage fun _ => rfl

/-- A reservation of compiled checks is refused by both stores with the same violations, or made by
    both. -/
theorem tryReserve (h : BudgetStoresAgree s db) {profile : BudgetProfile} {task : Task}
    {demand : BudgetDemand} {context : BudgetContext} {checks : List BudgetCheck}
    (compiled : compileChecks profile task demand context = .ok checks) (now expiresAt : Instant) (id : String) :
    let reservation := reservationFor id task checks now expiresAt
    (∃ m m', s.tryReserve reservation checks = (.error (.valueError m), s) ∧
      db.tryReserve reservation checks true = (.error (.valueError m'), db)) ∨
    ∃ result s' db', s.tryReserve reservation checks = (.ok result, s') ∧
      db.tryReserve reservation checks true = (.ok result, db') ∧ BudgetStoresAgree s' db' := by
  intro reservation
  have hid : reservation.reservationId = id := rfl
  have hget := h.get id
  have hviolations : (checkAll db.usage checks).1 = checks.filterMap fun check =>
      if check.violated (s.usage check.key) then some (check.violation (s.usage check.key))
      else none := by
    rw [checkAll_violations]
    simp only [h.usage]
  cases hr : s.reservations.get? id with
  | some r =>
    rw [hr, Option.map_some] at hget
    left
    unfold InMemoryBudgetStore.tryReserve BudgetDb.tryReserve
    rw [hid, hr, hget]
    exact ⟨_, _, rfl, rfl⟩
  | none =>
    rw [hr, Option.map_none] at hget
    right
    by_cases hv : (checkAll db.usage checks).1 = []
    · have hforce : (profile = ·) profile := rfl
      obtain ⟨db', hok, hstep, hres, hitems, husage⟩ :=
        tryReserve_admits now expiresAt compiled hforce hget hv
      refine ⟨(true, []), { s with
        reservations := s.reservations.set id reservation
        reserved := InMemoryBudgetStore.reserveItems s.reserved reservation.items }, db', ?_, hok, ?_⟩
      · unfold InMemoryBudgetStore.tryReserve
        simp only [hid, hr, ← hviolations, hv, ne_eq, not_true_eq_false, if_false]
      · -- no item of the database belongs to the fresh identifier
        have hnone : ∀ e ∈ db.items, e.1 ≠ id := by
          intro e he heq
          exact h.ledger.owned e he (heq ▸ hget)
        refine ⟨hstep.ledger h.ledger, ?_, ?_, ?_⟩
        · rw [hres, Dict.mapValues_set, h.rows]
          rfl
        · intro id' r' hr'
          rw [Dict.get?_set] at hr'
          split at hr'
          next heq =>
            cases hr'
            subst heq
            refine ⟨rfl, ?_⟩
            refine List.Perm.trans ?_ (db'.budgetItems_perm id').symm
            rw [hitems, filter_append_self hnone]
          next hne =>
            have hsame : db'.budgetItems id' = db.budgetItems id' := by
              unfold budgetItems
              rw [hitems, filter_append_of_ne hne]
            rw [hsame]
            exact h.items id' r' hr'
        · intro key
          rw [husage key, ← h.usage key]
          unfold InMemoryBudgetStore.usage
          simp only [InMemoryBudgetStore.reserveItems_get]
          rfl
    · refine ⟨(false, (checkAll db.usage checks).1), s,
        { db with usage := (checkAll db.usage checks).2 }, ?_, ?_, ?_⟩
      · unfold InMemoryBudgetStore.tryReserve
        simp only [hid, hr, ← hviolations, hv, ne_eq, not_false_eq_true, if_true]
      · unfold BudgetDb.tryReserve
        simp only [hid, hget, hv, ne_eq, not_false_eq_true, if_true]
      · have hstep : Step (fun _ => True) db { db with usage := (checkAll db.usage checks).2 } :=
          .refuse checks
        refine ⟨hstep.ledger h.ledger, h.rows, h.items, ?_⟩
        intro key
        rw [usageAt_checkAll]
        exact h.usage key

/-- The rows SQLite selects are the reservations the in-memory store finds. -/
theorem expiredRows_eq (h : BudgetStoresAgree s db) (now : Instant) :
    db.expiredRows now = (s.reservations.entries.filter fun e =>
      e.2.state = .active ∧ e.2.expiresAt ≤ now).map fun e => (e.1, e.2.toRow) := by
  unfold expiredRows
  rw [h.rows]
  unfold Dict.mapValues
  rw [List.filter_map]
  rfl

theorem reapAll (now : Instant) : ∀ (entries : List (String × BudgetReservation))
    {s : InMemoryBudgetStore} {db : BudgetDb}, BudgetStoresAgree s db → (entries.map Prod.fst).Nodup →
    (∀ e ∈ entries, s.reservations.get? e.1 = some e.2) →
    LeavesNoCrumbs (fun key => (s.usage key).reserved) ((entries.filter fun e =>
      e.2.state = .active ∧ e.2.expiresAt ≤ now).flatMap fun e => e.2.items) →
    ∃ expired expired' s' db', InMemoryBudgetStore.reapAll now s entries = (.ok expired, s') ∧
      db.reapAll ((entries.filter fun e =>
        e.2.state = .active ∧ e.2.expiresAt ≤ now).map fun e => (e.1, e.2.toRow)) =
          .ok (expired', db') ∧ expired.map BudgetReservation.answer = expired'.map BudgetReservation.answer ∧
      BudgetStoresAgree s' db' := by
  intro entries
  induction entries with
  | nil => exact fun h _ _ _ => ⟨[], [], _, _, rfl, rfl, rfl, h⟩
  | cons e entries ih =>
    intro s db h hnd hstored hclean
    obtain ⟨id, r⟩ := e
    obtain ⟨hne, hnd'⟩ := List.nodup_cons.mp hnd
    have hstored' := fun e' he' => hstored e' (List.mem_cons_of_mem (id, r) he')
    by_cases hexpired : r.state = .active ∧ r.expiresAt ≤ now
    · have hget : s.reservations.get? id = some r := hstored (id, r) List.mem_cons_self
      rw [List.filter_cons_of_pos (by simpa using hexpired), List.flatMap_cons,
        leavesNoCrumbs_append] at hclean
      have hcommit : false = decide (ReservationState.expired = .committed) := rfl
      have hleaves : ReservationState.expired ≠ .active := by decide
      obtain ⟨s₁, db₁, hloop, hclose, hkept, hreserved, hagree⟩ :=
        h.close hget hexpired.1 hleaves hcommit hclean.1
      have hrest : ∀ e' ∈ entries, (s₁.reservations.set id { r with state := .expired }).get? e'.1 =
          some e'.2 := by
        intro e' he'
        have hk : e'.1 ≠ id := fun hk => hne (List.mem_map.mpr ⟨e', he', hk⟩)
        rw [Dict.get?_set_ne _ _ hk, hkept]
        exact hstored' e' he'
      have hclean' : LeavesNoCrumbs (fun key => (s₁.usage key).reserved) ((entries.filter fun e =>
          e.2.state = .active ∧ e.2.expiresAt ≤ now).flatMap fun e => e.2.items) := by
        have hfun : (fun key => (s₁.usage key).reserved) =
            fun key => (s.usage key).reserved - itemCharge r.items key := funext hreserved
        rw [hfun]
        exact hclean.2
      obtain ⟨expired, expired', s', db', hmem, hsql, hanswers, hagree'⟩ :=
        ih hagree hnd' hrest hclean'
      refine ⟨{ r with state := .expired } :: expired, reservationFromRows id
        { r with state := .expired }.toRow (db.budgetItems id) :: expired', s', db', ?_, ?_, ?_,
        hagree'⟩
      · have hcond : ¬ (r.state ≠ .active ∨ now < r.expiresAt) := by
          rw [not_or, not_not, not_lt]
          exact hexpired
        simp only [InMemoryBudgetStore.reapAll, if_neg hcond, hloop, hmem]
        rfl
      · rw [List.filter_cons_of_pos (by simpa using hexpired), List.map_cons]
        simp only [BudgetDb.reapAll, hclose, bind, Except.bind, hsql]
        rfl
      · rw [List.map_cons, List.map_cons, hanswers,
          h.answer_fromRows hget { r with state := .expired } rfl rfl]
    · have hcond : r.state ≠ .active ∨ now < r.expiresAt := by
        rw [not_and_or, not_le] at hexpired
        exact hexpired
      rw [List.filter_cons_of_neg (by simpa using hexpired)] at hclean ⊢
      simp only [InMemoryBudgetStore.reapAll, if_pos hcond]
      exact ih h hnd' hstored' hclean

theorem reapExpired (h : BudgetStoresAgree s db) (now : Instant)
    (hclean : LeavesNoCrumbs (fun key => (s.usage key).reserved)
      ((s.expired now).flatMap BudgetReservation.items)) :
    Alike ((BudgetReply.reaped (s.reapExpired now).1).answer, (s.reapExpired now).2)
      ((BudgetReply.reaped (db.reapExpired now).1).answer, (db.reapExpired now).2) := by
  have hitems : (s.expired now).flatMap BudgetReservation.items =
      (s.reservations.entries.filter fun e =>
        e.2.state = .active ∧ e.2.expiresAt ≤ now).flatMap fun e => e.2.items := by
    unfold InMemoryBudgetStore.expired Dict.values
    rw [List.filter_map, List.flatMap_map]
    rfl
  rw [hitems] at hclean
  obtain ⟨expired, expired', s', db', hmem, hsql, hanswers, hagree⟩ :=
    reapAll now s.reservations.entries h s.reservations.nodup_keys
      (fun e he => Dict.mem_entries_iff.mp he) hclean
  unfold InMemoryBudgetStore.reapExpired BudgetDb.reapExpired
  rw [hmem, h.expiredRows_eq, hsql]
  exact ⟨congrArg BudgetAnswer.reaped hanswers, by simp [BudgetReply.answer], hagree⟩

theorem reserve (h : BudgetStoresAgree s db) (capacityRetryAfter : Duration)
    (profile : BudgetProfile) (task : Task) (demand : BudgetDemand) (context : BudgetContext)
    (leaseFor : Duration) (now : Instant) (id : String) :
    let left := BudgetManager.reserve inMemoryBudgetStore profile capacityRetryAfter s task demand
      context leaseFor now id true
    let right := BudgetManager.reserve sqliteBudgetStore profile capacityRetryAfter db task demand
      context leaseFor now id true
    Alike ((BudgetReply.decision left.1).answer, left.2)
      ((BudgetReply.decision right.1).answer, right.2) := by
  unfold BudgetManager.reserve
  dsimp only
  split
  · exact ⟨rfl, by simp [BudgetReply.answer, PyError.className], h⟩
  split
  · exact ⟨rfl, by simp [BudgetReply.answer], h⟩
  split
  · exact ⟨rfl, by simp [BudgetReply.answer], h⟩
  obtain ⟨checks, compiled, _⟩ := compileChecks_perm profile task demand context
  rw [compiled]
  cases checks with
  | nil => exact ⟨rfl, by simp [BudgetReply.answer], h⟩
  | cons check checks =>
    dsimp only
    cases hexpires : addDelta now leaseFor with
    | error e =>
      rw [addDelta_error hexpires]
      exact ⟨rfl, by simp [BudgetReply.answer, PyError.className], h⟩
    | ok expiresAt =>
      dsimp only
      have hmemory : inMemoryBudgetStore.tryReserve s
          (reservationFor id task (check :: checks) now expiresAt) (check :: checks) true =
          s.tryReserve (reservationFor id task (check :: checks) now expiresAt) (check :: checks) :=
        rfl
      have hsqlite : sqliteBudgetStore.tryReserve db
          (reservationFor id task (check :: checks) now expiresAt) (check :: checks) true =
          db.tryReserve (reservationFor id task (check :: checks) now expiresAt) (check :: checks)
            true := rfl
      rw [hmemory, hsqlite]
      rcases h.tryReserve compiled now expiresAt id with
        ⟨m, m', hs, hdb⟩ | ⟨⟨admitted, violations⟩, s', db', hs, hdb, hagree⟩
      · rw [hs, hdb]
        exact ⟨rfl, by simp [BudgetReply.answer, PyError.className], h⟩
      · rw [hs, hdb]
        cases admitted <;> exact ⟨rfl, by simp [BudgetReply.answer], hagree⟩

end BudgetStoresAgree

/-! ## Runs -/

/-- **An agreeable call is answered alike**, without a `RuntimeError`, and leaves stores that
    agree. -/
theorem BudgetCmd.step_alike {s : InMemoryBudgetStore} {db : BudgetDb} (h : BudgetStoresAgree s db)
    (capacityRetryAfter : Duration) {cmd : BudgetCmd} (hok : cmd.Agreeable s) :
    BudgetStoresAgree.Alike (cmd.step inMemoryBudgetStore capacityRetryAfter s)
      (cmd.step sqliteBudgetStore capacityRetryAfter db) := by
  cases cmd with
  | reserve profile task demand context leaseFor now id taskRow =>
    have hrow : taskRow = true := hok
    subst hrow
    exact h.reserve capacityRetryAfter profile task demand context leaseFor now id
  | commit id =>
    have hleaves : ReservationState.committed ≠ .active := by decide
    exact h.finalize id hleaves rfl hok
  | release id =>
    have hleaves : ReservationState.released ≠ .active := by decide
    exact h.finalize id hleaves rfl hok
  | renew id leaseFor now now' =>
    unfold BudgetCmd.step BudgetCmd.run BudgetManager.renew
    dsimp only
    split
    · exact ⟨rfl, by simp [BudgetReply.answer, PyError.className], h⟩
    cases hexpires : addDelta now leaseFor with
    | error e =>
      rw [addDelta_error hexpires]
      exact ⟨rfl, by simp [BudgetReply.answer, PyError.className], h⟩
    | ok expiresAt =>
      have hexpiry := addDelta_ok hexpires
      subst hexpiry
      exact h.renew id (now + leaseFor) now' hok
  | reapExpired now => exact h.reapExpired now hok

/-- A task to reserve for. -/
def meteredTask : Task where
  taskId := "tsk_metered"
  worker := katanaName
  action := ⟨"crawl", by decide, by decide⟩
  inputEventId := ⟨"evt_metered", by decide, by decide⟩
  createdAt := 0
  updatedAt := 0
  availableAt := 0
  lifecycle := by decide

/-- Only the cost is limited. -/
def costProfile : BudgetProfile := { hardGlobalLimits := { cost := some 10 } }

/-- A cost alone. -/
theorem onlyCost_nonneg {cost : ℚ} (h : 0 ≤ cost) : ∀ amount ∈ [1, cost, 0, 0, 0, 1], 0 ≤ amount := by
  intro amount hamount
  simp only [List.mem_cons, List.not_mem_nil, or_false] at hamount
  rcases hamount with rfl | rfl | rfl | rfl | rfl | rfl <;> first | exact h | norm_num

/-- A reservation of a cost. -/
def reserveCost (reservationId : String) (cost : ℚ) (h : 0 ≤ cost) : BudgetCmd :=
  .reserve costProfile meteredTask { cost, nonneg := onlyCost_nonneg h }
    { resourceKeys_nodup := List.nodup_nil } 1000 0 reservationId true

/-- A whole unit next to a billionth, and the unit is released: what is left is dropped in memory. -/
def dropCrumb (crumb unit : String) : List BudgetCmd :=
  [reserveCost crumb tolerance tolerance_pos.le, reserveCost unit 1 zero_le_one, .release unit]

/-- Two billionths are dropped, a unit is reserved, and all three are released. -/
def crumbRun : List BudgetCmd :=
  dropCrumb "bdg_1" "bdg_2" ++ dropCrumb "bdg_3" "bdg_4" ++
    [reserveCost "bdg_5" 1 zero_le_one, .release "bdg_1", .release "bdg_3", .release "bdg_5"]

end NightScout
