import NightScout.Storage.SQLiteBudgetStore
import NightScout.Core.BudgetChecks
import NightScout.Lib.Ledger
import NightScout.Lib.Run
import Mathlib.Tactic.Linarith
import Mathlib.Tactic.Ring

/-!
# The SQLite budget store is a ledger

`budget_usage` repeats what the reservations already say: its `reserved` is the sum of the items of
the ACTIVE ones, its `committed` the sum of the non-capacity items of the COMMITTED ones. Admission
reads only the counters, so everything rests on the repetition being faithful. `BudgetDb.Ledger` is
that statement; each loop of the store gets one lemma that says what it does to every counter at
once, and each transaction preserves the ledger.

The hard limits then follow from the check a reservation passed: between two reservations a counter
only goes down, since committing moves an amount and every other way out of ACTIVE drops it.
-/

namespace NightScout

open Lib

namespace BudgetReservationItem

/-- The item as a ledger entry. -/
def entry (item : BudgetReservationItem) : BudgetKey × ℚ := (item.key, item.amount)

end BudgetReservationItem

/-- What committing a list of items adds to the cumulative counters. -/
def cumulative (items : List BudgetReservationItem) : List BudgetReservationItem :=
  items.filter fun item => !item.metric.isCapacity

/-- The amount a list of items puts on a counter. -/
def itemCharge (items : List BudgetReservationItem) (key : BudgetKey) : ℚ :=
  charge (items.map BudgetReservationItem.entry) key

/-- A counter as a store reads it: a missing row is zero. -/
def usageAt (usage : Dict BudgetKey BudgetUsage) (key : BudgetKey) : BudgetUsage :=
  (usage.get? key).getD {}

/-! ## Charges -/

@[simp] theorem itemCharge_nil (key : BudgetKey) : itemCharge [] key = 0 := rfl

theorem itemCharge_cons (item : BudgetReservationItem) (items : List BudgetReservationItem) (key : BudgetKey) :
    itemCharge (item :: items) key = (if item.key = key then item.amount else 0) +
      itemCharge items key := rfl

theorem itemCharge_nonneg (items : List BudgetReservationItem) (key : BudgetKey) : 0 ≤ itemCharge items key := by
  refine charge_nonneg (fun e he => ?_) key
  obtain ⟨item, _, rfl⟩ := List.mem_map.mp he
  exact item.amount_pos.le

/-- An item that is not a capacity is committed whole, a capacity not at all. -/
theorem itemCharge_cumulative_cons (item : BudgetReservationItem)
    (items : List BudgetReservationItem) (key : BudgetKey) : itemCharge (cumulative (item :: items)) key =
      (if item.key = key ∧ item.metric.isCapacity = false then item.amount else 0) +
        itemCharge (cumulative items) key := by
  cases hcap : item.metric.isCapacity with
  | true => simp [cumulative, hcap]
  | false => simp [cumulative, hcap, itemCharge_cons]

/-- Committing never puts more on a counter than the reservation held there. -/
theorem itemCharge_cumulative_le (items : List BudgetReservationItem) (key : BudgetKey) :
    itemCharge (cumulative items) key ≤ itemCharge items key := by
  induction items with
  | nil => exact le_refl _
  | cons item items ih =>
    rw [itemCharge_cumulative_cons, itemCharge_cons]
    have hpos := item.amount_pos.le
    split
    · rename_i h
      rw [if_pos h.1]
      linarith
    · split <;> linarith

theorem itemCharge_perm {items items' : List BudgetReservationItem} (h : items.Perm items')
    (key : BudgetKey) : itemCharge items key = itemCharge items' key :=
  charge_perm (h.map _) key

namespace BudgetDb

/-! ## The two readings of the reservation tables -/

/-- What a row holds of the `reserved` counters. -/
def reservedEntries (items : List (String × BudgetReservationItem)) (reservationId : String)
    (row : BudgetReservationRow) : List (BudgetKey × ℚ) :=
  if row.state = .active then
    ((items.filter (·.1 = reservationId)).map Prod.snd).map BudgetReservationItem.entry
  else []

/-- What a row has put on the `committed` counters. -/
def committedEntries (items : List (String × BudgetReservationItem)) (reservationId : String)
    (row : BudgetReservationRow) : List (BudgetKey × ℚ) :=
  if row.state = .committed then
    (cumulative ((items.filter (·.1 = reservationId)).map Prod.snd)).map
      BudgetReservationItem.entry
  else []

/-- **The ledger.** Both counters of every key are the sums they stand for; an item belongs to a
    reservation and has its counter. -/
structure Ledger (db : BudgetDb) : Prop where
  reserved : ∀ key, (usageAt db.usage key).reserved =
    held (reservedEntries db.items) db.reservations key
  committed : ∀ key, (usageAt db.usage key).committed =
    held (committedEntries db.items) db.reservations key
  counted : ∀ e ∈ db.items, db.usage.get? e.2.key ≠ none
  owned : ∀ e ∈ db.items, db.reservations.get? e.1 ≠ none

theorem Ledger.empty : Ledger BudgetDb.empty where
  reserved _ := rfl
  committed _ := rfl
  counted _ h := by simp [BudgetDb.empty] at h
  owned _ h := by simp [BudgetDb.empty] at h

/-- Nothing is reserved below zero. -/
theorem Ledger.reserved_nonneg {db : BudgetDb} (h : Ledger db) (key : BudgetKey) :
    0 ≤ (usageAt db.usage key).reserved := by
  rw [h.reserved]
  refine Dict.sumBy_nonneg fun id row _ => charge_nonneg (fun e he => ?_) key
  unfold reservedEntries at he
  split at he
  · obtain ⟨item, _, rfl⟩ := List.mem_map.mp he
    exact item.amount_pos.le
  · cases he

/-- Without an ACTIVE reservation nothing is reserved. -/
theorem Ledger.reserved_eq_zero {db : BudgetDb} (h : Ledger db)
    (hnone : ∀ id row, db.reservations.get? id = some row → row.state ≠ .active) (key : BudgetKey) :
    (usageAt db.usage key).reserved = 0 := by
  rw [h.reserved]
  refine Dict.sumBy_eq_zero fun id row hrow => ?_
  unfold reservedEntries
  rw [if_neg (hnone id row hrow)]
  rfl

theorem budgetItems_perm (db : BudgetDb) (reservationId : String) : (db.budgetItems reservationId).Perm
      ((db.items.filter (·.1 = reservationId)).map Prod.snd) := List.perm_insertionSort _ _

theorem mem_budgetItems {db : BudgetDb} {reservationId : String} {item : BudgetReservationItem} :
    item ∈ db.budgetItems reservationId ↔ (reservationId, item) ∈ db.items := by
  rw [(db.budgetItems_perm reservationId).mem_iff]
  simp

/-- An ACTIVE row holds its items. -/
theorem charge_reservedEntries {db : BudgetDb} {reservationId : String}
    {row : BudgetReservationRow} (h : row.state = .active) (key : BudgetKey) :
    charge (reservedEntries db.items reservationId row) key = itemCharge (db.budgetItems reservationId) key := by
  rw [reservedEntries, if_pos h, itemCharge_perm (db.budgetItems_perm reservationId)]
  rfl

/-- A COMMITTED row has put its cumulative items on the counters. -/
theorem charge_committedEntries {db : BudgetDb} {reservationId : String}
    {row : BudgetReservationRow} (h : row.state = .committed) (key : BudgetKey) :
    charge (committedEntries db.items reservationId row) key =
      itemCharge (cumulative (db.budgetItems reservationId)) key := by
  rw [committedEntries, if_pos h]
  exact (itemCharge_perm ((db.budgetItems_perm reservationId).filter _) key).symm

theorem reservedEntries_of_ne {items : List (String × BudgetReservationItem)}
    {reservationId : String} {row : BudgetReservationRow} (h : row.state ≠ .active) :
    reservedEntries items reservationId row = [] := if_neg h

theorem committedEntries_of_ne {items : List (String × BudgetReservationItem)}
    {reservationId : String} {row : BudgetReservationRow} (h : row.state ≠ .committed) :
    committedEntries items reservationId row = [] := if_neg h

/-- What an ACTIVE reservation holds of a counter is in the counter. -/
theorem Ledger.itemCharge_le {db : BudgetDb} (h : Ledger db) {reservationId : String}
    {row : BudgetReservationRow} (hrow : db.reservations.get? reservationId = some row)
    (hact : row.state = .active) (key : BudgetKey) :
    itemCharge (db.budgetItems reservationId) key ≤ (usageAt db.usage key).reserved := by
  rw [h.reserved, ← charge_reservedEntries hact]
  refine charge_le_held _ hrow (fun i r _ e he => ?_) key
  rw [reservedEntries] at he
  split at he
  · obtain ⟨item, _, rfl⟩ := List.mem_map.mp he
    exact item.amount_pos.le
  · simp at he

/-! ## The loops -/

@[simp] theorem usageAt_getOrCreate (usage : Dict BudgetKey BudgetUsage) (key : BudgetKey) :
    (getOrCreateUsage usage key).1 = usageAt usage key := by
  unfold getOrCreateUsage usageAt
  cases usage.get? key <;> rfl

/-- Creating a counter changes no reading. -/
theorem get?_getOrCreate (usage : Dict BudgetKey BudgetUsage) (key key' : BudgetKey) :
    (getOrCreateUsage usage key).2.get? key' =
      if key' = key then some (usageAt usage key) else usage.get? key' := by
  unfold getOrCreateUsage usageAt
  cases hrow : usage.get? key with
  | none => simp
  | some row =>
    dsimp only
    split
    · rename_i h
      rw [h, hrow]
      rfl
    · rfl

/-- What the loop over the checks leaves of the counters: it creates the missing ones at zero. -/
theorem get?_checkAll (usage : Dict BudgetKey BudgetUsage) (checks : List BudgetCheck) (key : BudgetKey) :
    (checkAll usage checks).2.get? key =
      if key ∈ checks.map BudgetCheck.key then some (usageAt usage key)
      else usage.get? key := by
  induction checks generalizing usage with
  | nil => rfl
  | cons check checks ih =>
    simp only [checkAll, ih, get?_getOrCreate, usageAt, List.map_cons, List.mem_cons]
    by_cases hk : key = check.key
    · subst hk
      simp
    · simp [hk]

theorem usageAt_checkAll (usage : Dict BudgetKey BudgetUsage) (checks : List BudgetCheck)
    (key : BudgetKey) : usageAt (checkAll usage checks).2 key = usageAt usage key := by
  rw [usageAt, get?_checkAll]
  split <;> rfl

/-- **The loop over the checks passes** exactly when every check passes against the counters as they
    were: the rows it creates on the way are zero. -/
theorem checkAll_eq_nil {usage : Dict BudgetKey BudgetUsage} {checks : List BudgetCheck} :
    (checkAll usage checks).1 = [] ↔ ∀ check ∈ checks, ¬ check.violated (usageAt usage check.key) := by
  induction checks generalizing usage with
  | nil => simp [checkAll]
  | cons check checks ih =>
    have hrest : ∀ c : BudgetCheck, usageAt (getOrCreateUsage usage check.key).2 c.key =
        usageAt usage c.key := by
      intro c
      rw [usageAt, get?_getOrCreate]
      split
      · rename_i h
        rw [h]
        rfl
      · rfl
    simp only [checkAll, usageAt_getOrCreate, List.forall_mem_cons]
    split
    · rename_i hv
      simp [hv]
    · rename_i hv
      simp only [ih, hrest, hv, not_false_eq_true, true_and]

/-- The loop over the items finds every counter and adds the reservation's charge to it. -/
theorem reserveItems_ok {checked : List BudgetKey} {items : List BudgetReservationItem}
    {usage : Dict BudgetKey BudgetUsage} (hchecked : ∀ item ∈ items, item.key ∈ checked)
    (hrows : ∀ key ∈ checked, usage.get? key ≠ none) : ∃ usage', reserveItems checked usage items = .ok usage' ∧ ∀ key,
      usage'.get? key = (usage.get? key).map fun row =>
        { row with reserved := row.reserved + itemCharge items key } := by
  induction items generalizing usage with
  | nil => exact ⟨usage, rfl, fun key => by cases usage.get? key <;> simp⟩
  | cons item items ih =>
    have hmem := hchecked item List.mem_cons_self
    obtain ⟨row, hrow⟩ := Option.ne_none_iff_exists'.mp (hrows item.key hmem)
    have hrows' : ∀ key ∈ checked, (usage.set item.key
        { row with reserved := row.reserved + item.amount }).get? key ≠ none := by
      intro key hkey
      rw [Dict.get?_set]
      split
      · exact Option.some_ne_none _
      · exact hrows key hkey
    obtain ⟨usage', hok, hget⟩ := ih (fun i hi => hchecked i (List.mem_cons_of_mem _ hi)) hrows'
    refine ⟨usage', by simp only [reserveItems, hrow, hmem, if_true]; exact hok, fun key => ?_⟩
    rw [hget, Dict.get?_set]
    by_cases hk : key = item.key
    · subst hk
      simp [hrow, itemCharge_cons, add_assoc]
    · simp [hk, Ne.symm hk, itemCharge_cons]

/-- A counter after a reservation left it. -/
def BudgetUsage.closed (row : BudgetUsage) (items : List BudgetReservationItem)
    (commitCumulative : Bool) (key : BudgetKey) : BudgetUsage where
  committed := row.committed +
    if commitCumulative then itemCharge (cumulative items) key else 0
  reserved := row.reserved - itemCharge items key

/-- **No underflow.** When every counter holds at least the items' charge, the loop that takes the
    items out of the counters ends normally, and subtracts exactly the charge. -/
theorem releaseBudgetUsage_ok (commitCumulative : Bool) {items : List BudgetReservationItem}
    {usage : Dict BudgetKey BudgetUsage} (hrows : ∀ item ∈ items, usage.get? item.key ≠ none)
    (hle : ∀ key, itemCharge items key ≤ (usageAt usage key).reserved) :
    ∃ usage', releaseBudgetUsage commitCumulative usage items = .ok usage' ∧ ∀ key,
      usage'.get? key = (usage.get? key).map fun row =>
        BudgetUsage.closed row items commitCumulative key := by
  induction items generalizing usage with
  | nil =>
    refine ⟨usage, rfl, fun key => ?_⟩
    cases usage.get? key <;> simp [BudgetUsage.closed, cumulative]
  | cons item items ih =>
    obtain ⟨row, hrow⟩ := Option.ne_none_iff_exists'.mp (hrows item (List.mem_cons_self))
    have hhere : item.amount + itemCharge items item.key ≤ row.reserved := by
      simpa [itemCharge_cons, usageAt, hrow] using hle item.key
    have hrest := itemCharge_nonneg items item.key
    have htol := tolerance_pos
    -- neither the underflow guard nor the clamp to zero fires
    have hguard : ¬ row.reserved - item.amount < -tolerance := by linarith
    have hclamp : ¬ row.reserved - item.amount < 0 := by linarith
    let row' : BudgetUsage :=
      { committed := if commitCumulative && !item.metric.isCapacity then
          row.committed + item.amount else row.committed
        reserved := row.reserved - item.amount }
    have hrows' : ∀ i ∈ items, (usage.set item.key row').get? i.key ≠ none := by
      intro i hi
      rw [Dict.get?_set]
      split
      · exact Option.some_ne_none _
      · exact hrows i (List.mem_cons_of_mem _ hi)
    have hle' : ∀ key, itemCharge items key ≤ (usageAt (usage.set item.key row') key).reserved := by
      intro key
      by_cases hk : key = item.key
      · subst hk
        simp only [usageAt, Dict.get?_set_self, Option.getD_some, row']
        linarith
      · have := hle key
        simpa [usageAt, hk, Ne.symm hk, itemCharge_cons] using this
    obtain ⟨usage', hok, hget⟩ := ih hrows' hle'
    refine ⟨usage', by simp only [releaseBudgetUsage, hrow, hguard, hclamp, if_false]; exact hok,
      fun key => ?_⟩
    rw [hget, Dict.get?_set]
    by_cases hk : key = item.key
    · subst hk
      rw [if_pos rfl, hrow]
      simp only [Option.map_some, BudgetUsage.closed, row', itemCharge_cumulative_cons,
        itemCharge_cons, if_true, true_and, Option.some.injEq, BudgetUsage.mk.injEq]
      constructor
      · cases commitCumulative <;> cases item.metric.isCapacity <;> simp [add_assoc]
      · ring
    · simp [hk, Ne.symm hk, BudgetUsage.closed, itemCharge_cons, itemCharge_cumulative_cons]

/-! ## What a transaction can do

Four moves, stated with what each does to every counter. A transaction is a path of them: one for
everything but `reap_expired`, which closes a reservation at a time.
-/

/-- One move of the store. `inForce` are the profiles reservations are compiled under. -/
inductive Step (inForce : BudgetProfile → Prop) (db : BudgetDb) : BudgetDb → Prop where
  /-- A refused reservation leaves the counters it looked at. -/
  | refuse (checks : List BudgetCheck) :
      Step inForce db { db with usage := (checkAll db.usage checks).2 }
  /-- A reservation under a fresh identifier, every check of which passed. -/
  | reserve {profile : BudgetProfile} {task : Task} {demand : BudgetDemand}
      {context : BudgetContext} {checks : List BudgetCheck} {now expiresAt : Instant}
      {reservationId : String} {row : BudgetReservationRow} {usage : Dict BudgetKey BudgetUsage}
      (profile_inForce : inForce profile)
      (compiled : compileChecks profile task demand context = .ok checks)
      (fresh : db.reservations.get? reservationId = none)
      (active : row.state = .active)
      (admitted : ∀ check ∈ checks, ¬ check.violated (usageAt db.usage check.key))
      (counters : ∀ key, usage.get? key = ((checkAll db.usage checks).2.get? key).map fun row =>
        { row with reserved := row.reserved +
            itemCharge (reservationFor reservationId task checks now expiresAt).items key }) :
      Step inForce db
        { usage
          reservations := db.reservations.set reservationId row
          items := db.items ++ (reservationFor reservationId task checks now expiresAt).items.map
            (reservationId, ·) }
  /-- An ACTIVE reservation leaves ACTIVE. -/
  | close {reservationId : String} {row : BudgetReservationRow} {state : ReservationState}
      {usage : Dict BudgetKey BudgetUsage}
      (present : db.reservations.get? reservationId = some row)
      (active : row.state = .active) (leaves : state ≠ .active)
      (counters : ∀ key, usage.get? key = (db.usage.get? key).map fun row =>
        BudgetUsage.closed row (db.budgetItems reservationId) (state = .committed) key) :
      Step inForce db
        { db with usage, reservations := db.reservations.set reservationId { row with state } }
  /-- An ACTIVE reservation is extended. -/
  | renew {reservationId : String} {row : BudgetReservationRow} {expiresAt : Instant}
      (present : db.reservations.get? reservationId = some row) (active : row.state = .active) :
      Step inForce db
        { db with reservations := db.reservations.set reservationId { row with expiresAt } }

/-- A reservation charges a counter what its checks asked for there. -/
theorem itemCharge_reservationFor (reservationId : String) (task : Task)
    (checks : List BudgetCheck) (now expiresAt : Instant) (key : BudgetKey) :
    itemCharge (reservationFor reservationId task checks now expiresAt).items key =
      charge (checks.map fun check => (check.key, check.requested)) key := by
  simp only [itemCharge, reservationFor, List.map_map]
  rfl

section Items

variable {items : List (String × BudgetReservationItem)} {new : List BudgetReservationItem}
    {reservationId : String}

/-- The items of one reservation do not show up in another. -/
theorem filter_append_of_ne {id : String} (h : id ≠ reservationId) :
    (items ++ new.map (reservationId, ·)).filter (·.1 = id) = items.filter (·.1 = id) := by
  have : (new.map (reservationId, ·)).filter (·.1 = id) = [] := by
    rw [List.filter_eq_nil_iff]
    intro e he
    obtain ⟨item, _, rfl⟩ := List.mem_map.mp he
    simpa using Ne.symm h
  rw [List.filter_append, this, List.append_nil]

/-- A fresh reservation has the items it was given. -/
theorem filter_append_self (h : ∀ e ∈ items, e.1 ≠ reservationId) :
    ((items ++ new.map (reservationId, ·)).filter (·.1 = reservationId)).map Prod.snd = new := by
  have h1 : items.filter (·.1 = reservationId) = [] := by
    rw [List.filter_eq_nil_iff]
    intro e he
    simpa using h e he
  have h2 : (new.map (reservationId, ·)).filter (·.1 = reservationId) =
      new.map (reservationId, ·) := by
    rw [List.filter_eq_self]
    intro e he
    obtain ⟨item, _, rfl⟩ := List.mem_map.mp he
    simp
  rw [List.filter_append, h1, h2, List.nil_append, List.map_map]
  simp

end Items

/-- A counter that exists is rewritten by `f`. -/
theorem usageAt_map {usage usage' : Dict BudgetKey BudgetUsage} {key : BudgetKey}
    {f : BudgetUsage → BudgetUsage} (h : usage'.get? key = (usage.get? key).map f)
    (hrow : usage.get? key ≠ none) : usageAt usage' key = f (usageAt usage key) := by
  obtain ⟨row, hr⟩ := Option.ne_none_iff_exists'.mp hrow
  simp [usageAt, h, hr]

theorem usageAt_map_none {usage usage' : Dict BudgetKey BudgetUsage} {key : BudgetKey}
    {f : BudgetUsage → BudgetUsage} (h : usage'.get? key = (usage.get? key).map f)
    (hrow : usage.get? key = none) : usageAt usage' key = usageAt usage key := by
  simp [usageAt, h, hrow]

/-- A counter nobody created is charged by no stored item. -/
theorem Ledger.itemCharge_eq_zero {db : BudgetDb} (h : Ledger db) {key : BudgetKey}
    (hrow : db.usage.get? key = none) (reservationId : String) : itemCharge (db.budgetItems reservationId) key = 0 := by
  refine charge_eq_zero fun hm => ?_
  obtain ⟨e, he, hkey⟩ := List.mem_map.mp hm
  obtain ⟨item, hitem, rfl⟩ := List.mem_map.mp he
  have hkey : item.key = key := hkey
  exact h.counted _ (mem_budgetItems.mp hitem) (by rw [hkey]; exact hrow)

/-- What closing a reservation leaves in a counter, created or not. -/
theorem Ledger.usageAt_close {db : BudgetDb} (h : Ledger db) {reservationId : String}
    {usage : Dict BudgetKey BudgetUsage} {b : Bool}
    (hcounters : ∀ key, usage.get? key = (db.usage.get? key).map fun row =>
        BudgetUsage.closed row (db.budgetItems reservationId) b key) (key : BudgetKey) :
    usageAt usage key = BudgetUsage.closed (usageAt db.usage key) (db.budgetItems reservationId) b key := by
  by_cases hrow : db.usage.get? key = none
  · have h0 := h.itemCharge_eq_zero hrow reservationId
    have h1 := itemCharge_cumulative_le (db.budgetItems reservationId) key
    have h2 := itemCharge_nonneg (cumulative (db.budgetItems reservationId)) key
    have h3 : itemCharge (cumulative (db.budgetItems reservationId)) key = 0 := by linarith
    rw [usageAt_map_none (hcounters key) hrow]
    simp [BudgetUsage.closed, h0, h3]
  · exact usageAt_map (hcounters key) hrow

/-- What an admitted reservation leaves in a counter. -/
theorem usageAt_reserve {usage usage' : Dict BudgetKey BudgetUsage} {checks : List BudgetCheck}
    {items : List BudgetReservationItem} (hkeys : ∀ i ∈ items, i.key ∈ checks.map BudgetCheck.key)
    (hcounters : ∀ key, usage'.get? key = ((checkAll usage checks).2.get? key).map fun row =>
        { row with reserved := row.reserved + itemCharge items key }) (key : BudgetKey) :
    usageAt usage' key = { usageAt usage key with
      reserved := (usageAt usage key).reserved + itemCharge items key } := by
  by_cases hrow : (checkAll usage checks).2.get? key = none
  · have h0 : itemCharge items key = 0 := by
      refine charge_eq_zero fun hm => ?_
      obtain ⟨e, he, hkey⟩ := List.mem_map.mp hm
      obtain ⟨item, hitem, rfl⟩ := List.mem_map.mp he
      rw [get?_checkAll, if_pos (hkey ▸ hkeys item hitem)] at hrow
      cases hrow
    rw [usageAt_map_none (hcounters key) hrow, usageAt_checkAll, h0, add_zero]
  · rw [usageAt_map (hcounters key) hrow, usageAt_checkAll]

theorem reservationFor_keys {reservationId : String} {task : Task} {checks : List BudgetCheck}
    {now expiresAt : Instant} : ∀ i ∈ (reservationFor reservationId task checks now expiresAt).items,
      i.key ∈ checks.map BudgetCheck.key := by
  intro i hi
  obtain ⟨check, hc, rfl⟩ := List.mem_map.mp hi
  exact List.mem_map_of_mem (f := BudgetCheck.key) hc

/-! ## The moves keep the ledger -/

variable {inForce : BudgetProfile → Prop} {db db' : BudgetDb}

/-- Rows other than the new one read the same items after a reservation. -/
theorem held_reserve {entries : List (String × BudgetReservationItem) → String →
      BudgetReservationRow → List (BudgetKey × ℚ)} (hentries : ∀ items items' id row,
      items.filter (·.1 = id) = items'.filter (·.1 = id) → entries items id row = entries items' id row)
    {reservationId : String} {row : BudgetReservationRow} {new : List BudgetReservationItem}
    (hfresh : db.reservations.get? reservationId = none) (key : BudgetKey) :
    held (entries (db.items ++ new.map (reservationId, ·))) (db.reservations.set reservationId row) key =
      held (entries db.items) db.reservations key +
        charge (entries (db.items ++ new.map (reservationId, ·)) reservationId row) key := by
  rw [held_set_none _ hfresh]
  congr 1
  refine held_congr (fun id r hr => hentries _ _ id r (filter_append_of_ne ?_)) key
  rintro rfl
  rw [hfresh] at hr
  cases hr

theorem reservedEntries_congr (items items' : List (String × BudgetReservationItem)) (id : String)
    (row : BudgetReservationRow) (h : items.filter (·.1 = id) = items'.filter (·.1 = id)) :
    reservedEntries items id row = reservedEntries items' id row := by
  simp only [reservedEntries, h]

theorem committedEntries_congr (items items' : List (String × BudgetReservationItem)) (id : String)
    (row : BudgetReservationRow) (h : items.filter (·.1 = id) = items'.filter (·.1 = id)) :
    committedEntries items id row = committedEntries items' id row := by
  simp only [committedEntries, h]

/-- **Every move keeps the ledger.** -/
theorem Step.ledger (hstep : Step inForce db db') (h : Ledger db) : Ledger db' := by
  cases hstep with
  | refuse checks =>
    refine ⟨fun key => ?_, fun key => ?_, fun e he => ?_, h.owned⟩
    · rw [usageAt_checkAll]
      exact h.reserved key
    · rw [usageAt_checkAll]
      exact h.committed key
    · rw [get?_checkAll]
      split
      · exact Option.some_ne_none _
      · exact h.counted e he
  | @reserve profile task demand context checks now expiresAt reservationId row usage _ _ fresh active
      _ counters =>
    have husage := usageAt_reserve reservationFor_keys counters
    have hnone : ∀ e ∈ db.items, e.1 ≠ reservationId := by
      rintro e he rfl
      exact h.owned e he fresh
    refine ⟨fun key => ?_, fun key => ?_, fun e he => ?_, fun e he => ?_⟩
    · rw [husage, held_reserve reservedEntries_congr fresh, h.reserved, reservedEntries,
        if_pos active, filter_append_self hnone]
      rfl
    · have hne : row.state ≠ .committed := by rw [active]; decide
      rw [husage, held_reserve committedEntries_congr fresh, h.committed,
        committedEntries_of_ne hne, charge_nil, add_zero]
    · rw [counters, get?_checkAll]
      rcases List.mem_append.mp he with he | he
      · split
        · exact Option.some_ne_none _
        · obtain ⟨r, hr⟩ := Option.ne_none_iff_exists'.mp (h.counted e he)
          rw [hr]
          exact Option.some_ne_none _
      · obtain ⟨item, hitem, rfl⟩ := List.mem_map.mp he
        rw [if_pos (reservationFor_keys item hitem)]
        exact Option.some_ne_none _
    · rw [Dict.get?_set]
      split
      · exact Option.some_ne_none _
      · rename_i hne
        rcases List.mem_append.mp he with he | he
        · exact h.owned e he
        · obtain ⟨item, _, rfl⟩ := List.mem_map.mp he
          exact absurd rfl hne
  | @close reservationId row state usage present active leaves counters =>
    have husage := h.usageAt_close counters
    refine ⟨fun key => ?_, fun key => ?_, fun e he => ?_, fun e he => ?_⟩
    · have hset := held_set_some (reservedEntries db.items) { row with state } present key
      have hleft : reservedEntries db.items reservationId { row with state } = [] :=
        reservedEntries_of_ne leaves
      rw [hleft, charge_nil, add_zero, charge_reservedEntries active] at hset
      rw [husage, BudgetUsage.closed, h.reserved]
      dsimp only
      linarith
    · have hset := held_set_some (committedEntries db.items) { row with state } present key
      have hne : row.state ≠ .committed := by rw [active]; decide
      rw [committedEntries_of_ne hne, charge_nil, add_zero] at hset
      rw [husage, BudgetUsage.closed, h.committed, hset]
      by_cases hc : state = .committed
      · rw [charge_committedEntries hc]
        simp [hc]
      · have hleft : committedEntries db.items reservationId { row with state } = [] :=
          committedEntries_of_ne hc
        simp [hleft, hc]
    · obtain ⟨r, hr⟩ := Option.ne_none_iff_exists'.mp (h.counted e he)
      rw [counters, hr]
      exact Option.some_ne_none _
    · rw [Dict.get?_set]
      split
      · exact Option.some_ne_none _
      · exact h.owned e he
  | @renew reservationId row expiresAt present active =>
    refine ⟨fun key => ?_, fun key => ?_, h.counted, fun e he => ?_⟩
    · have hset := held_set_some (reservedEntries db.items) { row with expiresAt } present key
      have : reservedEntries db.items reservationId { row with expiresAt } =
          reservedEntries db.items reservationId row := rfl
      rw [this, add_left_inj] at hset
      exact (h.reserved key).trans hset.symm
    · have hset := held_set_some (committedEntries db.items) { row with expiresAt } present key
      have : committedEntries db.items reservationId { row with expiresAt } =
          committedEntries db.items reservationId row := rfl
      rw [this, add_left_inj] at hset
      exact (h.committed key).trans hset.symm
    · rw [Dict.get?_set]
      split
      · exact Option.some_ne_none _
      · exact h.owned e he

/-- **A reservation that left ACTIVE is never touched again.** -/
theorem Step.closed_row (hstep : Step inForce db db') {reservationId : String}
    {row : BudgetReservationRow} (hrow : db.reservations.get? reservationId = some row)
    (hst : row.state ≠ .active) : db'.reservations.get? reservationId = some row := by
  cases hstep with
  | refuse _ => exact hrow
  | @reserve _ _ _ _ _ _ _ id _ _ _ _ fresh _ _ _ =>
    have hne : reservationId ≠ id := by
      rintro rfl
      rw [fresh] at hrow
      cases hrow
    rw [Dict.get?_set_ne _ _ hne, hrow]
  | @close id row' _ _ present active _ _ | @renew id row' _ present active =>
    have hne : reservationId ≠ id := by
      rintro rfl
      rw [hrow] at present
      cases present
      exact hst active
    rw [Dict.get?_set_ne _ _ hne, hrow]

/-- What is committed stays committed. -/
theorem Step.committed_le (hstep : Step inForce db db') (h : Ledger db) (key : BudgetKey) :
    (usageAt db.usage key).committed ≤ (usageAt db'.usage key).committed := by
  cases hstep with
  | refuse checks => rw [usageAt_checkAll]
  | reserve _ _ _ _ _ counters => rw [usageAt_reserve reservationFor_keys counters]
  | @close reservationId row state usage present active leaves counters =>
    rw [h.usageAt_close counters]
    have hnonneg := itemCharge_nonneg (cumulative (db.budgetItems reservationId)) key
    simp only [BudgetUsage.closed]
    split <;> linarith
  | renew _ _ => exact le_refl _

/-- **A limit every reservation was checked against is never exceeded**: a reservation raises a
    counter only by what its check admitted, and every other move lowers it. -/
theorem Step.total_le (hstep : Step inForce db db') (h : Ledger db) {key : BudgetKey} {bound : ℚ}
    (hchecks : ∀ profile, inForce profile → ∀ task demand context checks,
      compileChecks profile task demand context = .ok checks → ∀ check ∈ checks,
        check.key = key → check.effectiveLimit + tolerance ≤ bound)
    (htotal : (usageAt db.usage key).total ≤ bound) : (usageAt db'.usage key).total ≤ bound := by
  cases hstep with
  | refuse checks => rwa [usageAt_checkAll]
  | @reserve profile task demand context checks now expiresAt reservationId row usage inForce
      compiled _ _ admitted counters =>
    rw [usageAt_reserve reservationFor_keys counters, itemCharge_reservationFor, BudgetUsage.total]
    rw [BudgetUsage.total] at htotal
    by_cases hk : key ∈ checks.map BudgetCheck.key
    · obtain ⟨check, hc, rfl⟩ := List.mem_map.mp hk
      have hnd := compileChecks_keys_nodup compiled
      have hcharge : charge (checks.map fun check => (check.key, check.requested)) check.key =
          check.requested := by
        refine charge_of_mem ?_ (List.mem_map_of_mem (f := fun c => (c.key, c.requested)) hc)
        rw [List.map_map]
        exact hnd
      have hadm := not_lt.mp (admitted check hc)
      have hlim := hchecks profile inForce task demand context checks compiled check hc rfl
      rw [hcharge]
      linarith
    · have hcharge : charge (checks.map fun check => (check.key, check.requested)) key = 0 := by
        refine charge_eq_zero ?_
        rw [List.map_map]
        exact hk
      rw [hcharge, add_zero]
      exact htotal
  | @close reservationId row state usage present active leaves counters =>
    rw [h.usageAt_close counters]
    have hle := itemCharge_cumulative_le (db.budgetItems reservationId) key
    have hnonneg := itemCharge_nonneg (db.budgetItems reservationId) key
    simp only [BudgetUsage.total, BudgetUsage.closed] at htotal ⊢
    split <;> linarith
  | renew _ _ => exact htotal

end BudgetDb

end NightScout
