import NightScout.Core.Budgets

/-!
# `SQLiteBudgetStore`

The durable budget store of `recon/storage/database.py`. Three tables: the counters
(`budget_usage`, keyed by bucket, class and metric), the reservations, and the items of the
reservations. Every operation is one `BEGIN IMMEDIATE` transaction, so it is one function of the
whole database; an exception rolls back, so it returns the database it was given.

`updated_at` is written and read by nothing and is left out, and so are items of early schema
versions whose `budget_class` is null.
-/

namespace NightScout

open Lib

/-- A row of `budget_reservations`. -/
structure BudgetReservationRow where
  taskId : String
  state : ReservationState
  createdAt : Instant
  expiresAt : Instant
  deriving DecidableEq

structure BudgetDb where
  usage : Dict BudgetKey BudgetUsage
  reservations : Dict String BudgetReservationRow
  /-- `budget_reservation_items`: each item with the reservation it belongs to. -/
  items : List (String × BudgetReservationItem)

namespace BudgetDb

def empty : BudgetDb := ⟨.empty, .empty, []⟩

/-- `_budget_items`, ordered by bucket and metric. -/
def budgetItems (db : BudgetDb) (reservationId : String) : List BudgetReservationItem :=
  ((db.items.filter (·.1 = reservationId)).map Prod.snd).insertionSort fun a b =>
    a.bucketKey < b.bucketKey ∨ a.bucketKey = b.bucketKey ∧ a.metric.value ≤ b.metric.value

/-- `_budget_reservation_from_rows`. -/
def reservationFromRows (reservationId : String) (row : BudgetReservationRow)
    (items : List BudgetReservationItem) : BudgetReservation where
  reservationId := reservationId
  taskId := row.taskId
  items := items
  createdAt := row.createdAt
  expiresAt := row.expiresAt
  state := row.state

/-! ## Reserving -/

def getOrCreateUsage (usage : Dict BudgetKey BudgetUsage) (key : BudgetKey) :
    BudgetUsage × Dict BudgetKey BudgetUsage :=
  match usage.get? key with
  | some row => (row, usage)
  | none => ({}, usage.set key {})

/-- The loop of `try_reserve` over the checks: the violations, and the counters with the rows it
    created. -/
def checkAll (usage : Dict BudgetKey BudgetUsage) :
    List BudgetCheck → List BudgetViolation × Dict BudgetKey BudgetUsage
  | [] => ([], usage)
  | check :: checks =>
    let row := (getOrCreateUsage usage check.key).1
    let rest := checkAll (getOrCreateUsage usage check.key).2 checks
    (if check.violated row then check.violation row :: rest.1 else rest.1, rest.2)

/-- The loop of `try_reserve` over the items. `checked` are the keys of `usages`, the rows the first
    loop read. -/
def reserveItems (checked : List BudgetKey) (usage : Dict BudgetKey BudgetUsage) :
    List BudgetReservationItem → Except PyError (Dict BudgetKey BudgetUsage)
  | [] => .ok usage
  | item :: items =>
    match usage.get? item.key with
    | some row =>
      if item.key ∈ checked then
        reserveItems checked
          (usage.set item.key { row with reserved := row.reserved + item.amount }) items
      else .error (.keyError item.bucketKey)
    | none => .error (.keyError item.bucketKey)

/-- `try_reserve`. A refusal returns normally, so the rows the checks created are committed. -/
def tryReserve (db : BudgetDb) (reservation : BudgetReservation) (checks : List BudgetCheck)
    (taskRow : Bool) : Except PyError (Bool × List BudgetViolation) × BudgetDb :=
  match db.reservations.get? reservation.reservationId with
  | some _ =>
    (.error (.valueError s!"budget reservation already exists: {reservation.reservationId}"), db)
  | none =>
    let (violations, usage) := checkAll db.usage checks
    if violations ≠ [] then (.ok (false, violations), { db with usage })
    else if !taskRow then (.error (.integrityError "FOREIGN KEY constraint failed"), db)
    else
      match reserveItems (checks.map BudgetCheck.key) usage reservation.items with
      | .error e => (.error e, db)
      | .ok usage =>
        if (reservation.items.map BudgetReservationItem.key).Nodup then
          (.ok (true, []),
            { usage
              reservations := db.reservations.set reservation.reservationId
                { taskId := reservation.taskId, state := reservation.state
                  createdAt := reservation.createdAt, expiresAt := reservation.expiresAt }
              items := db.items ++ reservation.items.map (reservation.reservationId, ·) })
        else (.error (.integrityError "UNIQUE constraint failed"), db)

/-! ## Leaving ACTIVE -/

/-- The message of the underflow error. -/
def underflow (item : BudgetReservationItem) : PyError :=
  .runtimeError ("budget reserved usage underflow for " ++ item.bucketKey ++ "/" ++
    item.budgetClass.value ++ "/" ++ item.metric.value)

def releaseBudgetUsage (commitCumulative : Bool) (usage : Dict BudgetKey BudgetUsage) :
    List BudgetReservationItem → Except PyError (Dict BudgetKey BudgetUsage)
  | [] => .ok usage
  | item :: items =>
    match usage.get? item.key with
    | none => .error (.runtimeError "missing budget usage row for reservation item")
    | some row =>
      let reserved := row.reserved - item.amount
      if reserved < -tolerance then .error (underflow item)
      else
        releaseBudgetUsage commitCumulative
          (usage.set item.key
            { committed := if commitCumulative && !item.metric.isCapacity then
                row.committed + item.amount else row.committed
              reserved := if reserved < 0 then 0 else reserved }) items

/-- `_require_active_reservation`. -/
def requireActive (db : BudgetDb) (reservationId : String) : Except PyError BudgetReservationRow :=
  match db.reservations.get? reservationId with
  | none => .error (.keyError s!"unknown budget reservation: {reservationId}")
  | some row =>
    if row.state = .active then .ok row
    else .error (.valueError s!"budget reservation {reservationId} is not ACTIVE")

/-- The counters and the state of one reservation leaving ACTIVE, which `_finalize` and
    `reap_expired` share. -/
def closeReservation (db : BudgetDb) (reservationId : String) (row : BudgetReservationRow)
    (state : ReservationState) (commitCumulative : Bool) :
    Except PyError (BudgetReservation × BudgetDb) := do
  let items := db.budgetItems reservationId
  let usage ← releaseBudgetUsage commitCumulative db.usage items
  return (reservationFromRows reservationId { row with state } items,
    { db with usage, reservations := db.reservations.set reservationId { row with state } })

def finalize (db : BudgetDb) (reservationId : String) (state : ReservationState)
    (commitCumulative : Bool) : Except PyError BudgetReservation × BudgetDb :=
  match db.requireActive reservationId with
  | .error e => (.error e, db)
  | .ok row =>
    match db.closeReservation reservationId row state commitCumulative with
    | .error e => (.error e, db)
    | .ok (reservation, db') => (.ok reservation, db')

def renew (db : BudgetDb) (reservationId : String) (expiresAt now : Instant) :
    Except PyError BudgetReservation × BudgetDb :=
  if expiresAt ≤ now then (.error (.valueError "expires_at must be in the future"), db)
  else
    match db.requireActive reservationId with
    | .error e => (.error e, db)
    | .ok row =>
      (.ok (reservationFromRows reservationId { row with expiresAt }
        (db.budgetItems reservationId)),
        { db with reservations := db.reservations.set reservationId { row with expiresAt } })

/-- The rows `reap_expired` selects. -/
def expiredRows (db : BudgetDb) (now : Instant) : List (String × BudgetReservationRow) :=
  db.reservations.entries.filter fun e => e.2.state = .active ∧ e.2.expiresAt ≤ now

/-- The loop of `reap_expired`. -/
def reapAll (db : BudgetDb) :
    List (String × BudgetReservationRow) → Except PyError (List BudgetReservation × BudgetDb)
  | [] => .ok ([], db)
  | (reservationId, row) :: rows => do
    let (reservation, db) ← db.closeReservation reservationId row .expired false
    let (rest, db) ← reapAll db rows
    return (reservation :: rest, db)

def reapExpired (db : BudgetDb) (now : Instant) :
    Except PyError (List BudgetReservation) × BudgetDb :=
  match db.reapAll (db.expiredRows now) with
  | .error e => (.error e, db)
  | .ok (expired, db') => (.ok expired, db')

end BudgetDb

def sqliteBudgetStore : BudgetStore BudgetDb where
  tryReserve := BudgetDb.tryReserve
  commit db reservationId := db.finalize reservationId .committed true
  release db reservationId := db.finalize reservationId .released false
  renew := BudgetDb.renew
  reapExpired := BudgetDb.reapExpired
  usage db key := (db.usage.get? key).getD {}
  getReservation db reservationId :=
    (db.reservations.get? reservationId).map fun row =>
      BudgetDb.reservationFromRows reservationId row (db.budgetItems reservationId)

end NightScout
