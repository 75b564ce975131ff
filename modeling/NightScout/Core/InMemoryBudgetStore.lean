import NightScout.Core.Budgets

/-!
# `InMemoryBudgetStore`

The development budget store of `recon/core/budgets.py`: the reservations, and two dictionaries of
counters that have no entry for zero. The lock is held over each method, so a method is one function of
the whole state; nothing is rolled back, so a method that raises leaves what it has written.

A counter that has at most `tolerance` left is dropped, whoever the rest belongs to.
-/

namespace NightScout

open Lib

structure InMemoryBudgetStore where
  reservations : Dict String BudgetReservation
  committed : Dict BudgetKey ℚ
  reserved : Dict BudgetKey ℚ

namespace InMemoryBudgetStore

def empty : InMemoryBudgetStore := ⟨.empty, .empty, .empty⟩

def usage (s : InMemoryBudgetStore) (key : BudgetKey) : BudgetUsage where
  committed := (s.committed.get? key).getD 0
  reserved := (s.reserved.get? key).getD 0

/-- The loop of `try_reserve` over the items. -/
def reserveItems (reserved : Dict BudgetKey ℚ) (items : List BudgetReservationItem) :
    Dict BudgetKey ℚ :=
  items.foldl (fun reserved item =>
    reserved.set item.key ((reserved.get? item.key).getD 0 + item.amount)) reserved

def tryReserve (s : InMemoryBudgetStore) (reservation : BudgetReservation)
    (checks : List BudgetCheck) :
    Except PyError (Bool × List BudgetViolation) × InMemoryBudgetStore :=
  match s.reservations.get? reservation.reservationId with
  | some _ =>
    (.error (.valueError s!"reservation already exists: {reservation.reservationId}"), s)
  | none =>
    let violations := checks.filterMap fun check =>
      if check.violated (s.usage check.key) then some (check.violation (s.usage check.key)) else none
    if violations ≠ [] then (.ok (false, violations), s)
    else
      (.ok (true, []),
        { s with
          reservations := s.reservations.set reservation.reservationId reservation
          reserved := reserveItems s.reserved reservation.items })

def requireActive (s : InMemoryBudgetStore) (reservationId : String) :
    Except PyError BudgetReservation :=
  match s.reservations.get? reservationId with
  | none => .error (.keyError s!"unknown budget reservation: {reservationId}")
  | some reservation =>
    if reservation.state = .active then .ok reservation
    else .error (.valueError s!"reservation {reservationId} is not ACTIVE")

def subtractReserved (reserved : Dict BudgetKey ℚ) (item : BudgetReservationItem) :
    Except PyError (Dict BudgetKey ℚ) :=
  let updated := (reserved.get? item.key).getD 0 - item.amount
  if updated < -tolerance then
    .error (.runtimeError ("reserved budget underflow for " ++ item.bucketKey ++ "/" ++
      item.budgetClass.value ++ "/" ++ item.metric.value))
  else if updated ≤ tolerance then .ok (reserved.erase item.key)
  else .ok (reserved.set item.key updated)

/-- The loop of `commit`, `release` and `reap_expired` over the items: the error it stops with, if any,
    and the counters it leaves. -/
def releaseItems (commitCumulative : Bool) (s : InMemoryBudgetStore) :
    List BudgetReservationItem → Option PyError × InMemoryBudgetStore
  | [] => (none, s)
  | item :: items =>
    match subtractReserved s.reserved item with
    | .error e => (some e, s)
    | .ok reserved =>
      let committed :=
        if commitCumulative && !item.metric.isCapacity then
          s.committed.set item.key ((s.committed.get? item.key).getD 0 + item.amount)
        else s.committed
      releaseItems commitCumulative { s with reserved, committed } items

/-- `commit` and `release`. -/
def finalize (s : InMemoryBudgetStore) (reservationId : String) (state : ReservationState)
    (commitCumulative : Bool) : Except PyError BudgetReservation × InMemoryBudgetStore :=
  match s.requireActive reservationId with
  | .error e => (.error e, s)
  | .ok reservation =>
    match releaseItems commitCumulative s reservation.items with
    | (some e, s) => (.error e, s)
    | (none, s) =>
      (.ok { reservation with state },
        { s with reservations := s.reservations.set reservationId { reservation with state } })

def renew (s : InMemoryBudgetStore) (reservationId : String) (expiresAt now : Instant) :
    Except PyError BudgetReservation × InMemoryBudgetStore :=
  match s.requireActive reservationId with
  | .error e => (.error e, s)
  | .ok reservation =>
    if expiresAt ≤ now then (.error (.valueError "expires_at must be in the future"), s)
    else
      (.ok { reservation with expiresAt },
        { s with reservations := s.reservations.set reservationId { reservation with expiresAt } })

/-- The loop of `reap_expired` over the reservations it has read. -/
def reapAll (now : Instant) (s : InMemoryBudgetStore) :
    List (String × BudgetReservation) →
      Except PyError (List BudgetReservation) × InMemoryBudgetStore
  | [] => (.ok [], s)
  | (reservationId, reservation) :: rest =>
    if reservation.state ≠ .active ∨ now < reservation.expiresAt then reapAll now s rest
    else
      match releaseItems false s reservation.items with
      | (some e, s) => (.error e, s)
      | (none, s) =>
        let updated := { reservation with state := .expired }
        let (expired, s) := reapAll now
          { s with reservations := s.reservations.set reservationId updated } rest
        (expired.map (updated :: ·), s)

def reapExpired (s : InMemoryBudgetStore) (now : Instant) :
    Except PyError (List BudgetReservation) × InMemoryBudgetStore :=
  reapAll now s s.reservations.entries

end InMemoryBudgetStore

/-- `InMemoryBudgetStore`, as a budget store. -/
def inMemoryBudgetStore : BudgetStore InMemoryBudgetStore where
  tryReserve s reservation checks _ := s.tryReserve reservation checks
  commit s reservationId := s.finalize reservationId .committed true
  release s reservationId := s.finalize reservationId .released false
  renew := InMemoryBudgetStore.renew
  reapExpired := InMemoryBudgetStore.reapExpired
  usage := InMemoryBudgetStore.usage
  getReservation s reservationId := s.reservations.get? reservationId

end NightScout
