import NightScout.Storage.BudgetLedger

/-!
# Runs of the budget manager over SQLite

Each call of `BudgetManager` over `SQLiteBudgetStore` is a path of the ledger's moves
(`BudgetCmd.run_path`), and none of them raises a `RuntimeError`: a reservation that is ACTIVE has
its counters, and they hold at least what it holds. Every statement about runs is then an induction
over one of the moves' lemmas.
-/

namespace NightScout

open Lib Relation

namespace BudgetDb

variable {inForce : BudgetProfile → Prop} {db : BudgetDb}

/-! ## Transactions -/

theorem requireActive_ok {reservationId : String} {row : BudgetReservationRow}
    (h : db.requireActive reservationId = .ok row) :
    db.reservations.get? reservationId = some row ∧ row.state = .active := by
  unfold requireActive at h
  cases hrow : db.reservations.get? reservationId with
  | none =>
    rw [hrow] at h
    cases h
  | some r =>
    simp only [hrow] at h
    split at h
    · cases h
      exact ⟨rfl, ‹_›⟩
    · cases h

/-- `_require_active_reservation` raises a `KeyError` or a `ValueError`. -/
theorem requireActive_error {reservationId : String} {e : PyError}
    (h : db.requireActive reservationId = .error e) : e.isKeyOrValue := by
  unfold requireActive at h
  cases hrow : db.reservations.get? reservationId with
  | none =>
    rw [hrow] at h
    cases h
    rfl
  | some r =>
    simp only [hrow] at h
    split at h
    · cases h
    · cases h
      rfl

/-- **Closing an ACTIVE reservation of a ledger succeeds**, and is one move. -/
theorem closeReservation_ok (inForce : BudgetProfile → Prop) (h : Ledger db)
    {reservationId : String} {row : BudgetReservationRow} (state : ReservationState) {commitCumulative : Bool}
    (hcommit : commitCumulative = decide (state = .committed))
    (hrow : db.reservations.get? reservationId = some row) (hact : row.state = .active) (hst : state ≠ .active) :
    ∃ reservation db', db.closeReservation reservationId row state commitCumulative =
        .ok (reservation, db') ∧ Step inForce db db' ∧
        db'.reservations = db.reservations.set reservationId { row with state } ∧
        ∀ key, usageAt db'.usage key = BudgetUsage.closed (usageAt db.usage key)
          (db.budgetItems reservationId) (decide (state = .committed)) key := by
  obtain ⟨usage, hok, hcounters⟩ := releaseBudgetUsage_ok (decide (state = .committed))
    (fun item hitem => h.counted _ (mem_budgetItems.mp hitem))
    (fun key => h.itemCharge_le hrow hact key)
  subst hcommit
  refine ⟨reservationFromRows reservationId { row with state } (db.budgetItems reservationId), _,
    ?_, .close hrow hact hst hcounters, rfl, h.usageAt_close hcounters⟩
  simp only [closeReservation, hok]
  rfl

theorem finalize_path (h : Ledger db) (reservationId : String) (state : ReservationState)
    {commitCumulative : Bool} (hcommit : commitCumulative = decide (state = .committed)) (hst : state ≠ .active) :
    ReflTransGen (Step inForce) db (db.finalize reservationId state commitCumulative).2 ∧
      ∀ e, (db.finalize reservationId state commitCumulative).1 = .error e → e.isKeyOrValue := by
  unfold finalize
  cases hreq : db.requireActive reservationId with
  | error e =>
    refine ⟨.refl, fun e' he => ?_⟩
    cases he
    exact requireActive_error hreq
  | ok row =>
    obtain ⟨hrow, hact⟩ := requireActive_ok hreq
    obtain ⟨reservation, db', hok, hstep, -⟩ :=
      closeReservation_ok inForce h state hcommit hrow hact hst
    simp only [hok]
    exact ⟨.single hstep, fun e he => by cases he⟩

variable (db) in
theorem renew_path (reservationId : String) (expiresAt now : Instant) :
    ReflTransGen (Step inForce) db (db.renew reservationId expiresAt now).2 ∧
      ∀ e, (db.renew reservationId expiresAt now).1 = .error e → e.isKeyOrValue := by
  unfold renew
  split
  · exact ⟨.refl, fun e he => by cases he; rfl⟩
  · cases hreq : db.requireActive reservationId with
    | error e =>
      refine ⟨.refl, fun e' he => ?_⟩
      cases he
      exact requireActive_error hreq
    | ok row =>
      obtain ⟨hrow, hact⟩ := requireActive_ok hreq
      exact ⟨.single (.renew hrow hact), fun e he => by cases he⟩

/-- The loop of `reap_expired` closes one reservation after the other; the rows still to come are
    untouched by the ones before them. It commits nothing, and what is ACTIVE afterwards was and is not among
    the rows. -/
theorem reapAll_ok (inForce : BudgetProfile → Prop) {rows : List (String × BudgetReservationRow)} (h : Ledger db)
    (hnd : (rows.map Prod.fst).Nodup) (hrows : ∀ e ∈ rows, db.reservations.get? e.1 = some e.2 ∧ e.2.state = .active) :
    ∃ expired db', db.reapAll rows = .ok (expired, db') ∧ ReflTransGen (Step inForce) db db' ∧
      (∀ key, (usageAt db'.usage key).committed = (usageAt db.usage key).committed) ∧
      ∀ id row, db'.reservations.get? id = some row → row.state = .active →
        id ∉ rows.map Prod.fst ∧ db.reservations.get? id = some row := by
  induction rows generalizing db with
  | nil => exact ⟨[], db, rfl, .refl, fun _ => rfl, fun _ _ hrow _ => ⟨List.not_mem_nil, hrow⟩⟩
  | cons e rows ih =>
    obtain ⟨hne, hnd⟩ := List.nodup_cons.mp hnd
    obtain ⟨hrow, hact⟩ := hrows e List.mem_cons_self
    have hcommit : false = decide (ReservationState.expired = .committed) := rfl
    obtain ⟨reservation, db₁, hok, hstep, hres, husage⟩ :=
      closeReservation_ok inForce h .expired hcommit hrow hact (by decide)
    have hrows₁ : ∀ e' ∈ rows, db₁.reservations.get? e'.1 = some e'.2 ∧ e'.2.state = .active := by
      intro e' he'
      have hk : e'.1 ≠ e.1 := fun hk => hne (hk ▸ List.mem_map_of_mem (f := Prod.fst) he')
      rw [hres, Dict.get?_set_ne _ _ hk]
      exact hrows e' (List.mem_cons_of_mem _ he')
    obtain ⟨rest, db', hrest, hpath, hcommitted, hactive⟩ := ih (hstep.ledger h) hnd hrows₁
    refine ⟨reservation :: rest, db', ?_, .head hstep hpath, fun key => ?_, fun id row hid hrowActive => ?_⟩
    · simp only [reapAll, hok, bind, Except.bind, hrest]
      rfl
    · rw [hcommitted key, husage key]
      exact add_zero _
    · obtain ⟨hnot, hid₁⟩ := hactive id row hid hrowActive
      have hne' : id ≠ e.1 := by
        rintro rfl
        rw [hres, Dict.get?_set_self] at hid₁
        cases hid₁
        cases hrowActive
      rw [hres, Dict.get?_set_ne _ _ hne'] at hid₁
      exact ⟨List.not_mem_cons_of_ne_of_not_mem hne' hnot, hid₁⟩

theorem reapExpired_path (h : Ledger db) (now : Instant) : ReflTransGen (Step inForce) db (db.reapExpired now).2 ∧
      (∃ expired, (db.reapExpired now).1 = .ok expired) ∧
      (∀ key, (usageAt (db.reapExpired now).2.usage key).committed = (usageAt db.usage key).committed) ∧
      ∀ id row, (db.reapExpired now).2.reservations.get? id = some row → row.state = .active →
        db.reservations.get? id = some row ∧ now < row.expiresAt := by
  have hnd : ((db.expiredRows now).map Prod.fst).Nodup :=
    db.reservations.nodup_keys.sublist (List.filter_sublist.map Prod.fst)
  have hrows : ∀ e ∈ db.expiredRows now,
      db.reservations.get? e.1 = some e.2 ∧ e.2.state = .active := by
    intro e he
    obtain ⟨hmem, hcond⟩ := List.mem_filter.mp he
    exact ⟨Dict.mem_entries_iff.mp hmem, (by simpa using hcond : _ ∧ _).1⟩
  obtain ⟨expired, db', hok, hpath, hcommitted, hactive⟩ := reapAll_ok inForce h hnd hrows
  simp only [reapExpired, hok]
  refine ⟨hpath, ⟨expired, rfl⟩, hcommitted, fun id row hid hrowActive => ?_⟩
  obtain ⟨hnot, hrow⟩ := hactive id row hid hrowActive
  refine ⟨hrow, ?_⟩
  by_contra hexpired
  have hmem : (id, row) ∈ db.expiredRows now := List.mem_filter.mpr
    ⟨Dict.mem_entries_iff.mpr hrow, by simpa using ⟨hrowActive, not_lt.mp hexpired⟩⟩
  exact hnot (List.mem_map_of_mem (f := Prod.fst) hmem)

section Reserve

variable {profile : BudgetProfile} {task : Task} {demand : BudgetDemand}
    {context : BudgetContext} {checks : List BudgetCheck}

/-- **A reservation every check of which passes is admitted.** -/
theorem tryReserve_admits (now expiresAt : Instant) {reservationId : String}
    (compiled : compileChecks profile task demand context = .ok checks)
    (hprofile : inForce profile) (hfresh : db.reservations.get? reservationId = none)
    (hv : (checkAll db.usage checks).1 = []) :
    let reservation := reservationFor reservationId task checks now expiresAt
    ∃ db', db.tryReserve reservation checks true = (.ok (true, []), db') ∧ Step inForce db db' ∧
      db'.reservations = db.reservations.set reservationId
        { taskId := task.taskId, state := .active, createdAt := now, expiresAt } ∧
      db'.items = db.items ++ reservation.items.map (reservationId, ·) ∧
      ∀ key, usageAt db'.usage key = { usageAt db.usage key with
        reserved := (usageAt db.usage key).reserved + itemCharge reservation.items key } := by
  intro reservation
  have hid : reservation.reservationId = reservationId := rfl
  have hrows : ∀ key ∈ checks.map BudgetCheck.key, (checkAll db.usage checks).2.get? key ≠ none := by
    intro key hkey
    rw [get?_checkAll, if_pos hkey]
    exact Option.some_ne_none _
  have hkeys : ∀ i ∈ reservation.items, i.key ∈ checks.map BudgetCheck.key := reservationFor_keys
  obtain ⟨usage, hok, hcounters⟩ := reserveItems_ok hkeys hrows
  have hnd : (reservation.items.map BudgetReservationItem.key).Nodup := by
    have := compileChecks_keys_nodup compiled
    simp only [reservation, reservationFor, List.map_map]
    exact this
  let row : BudgetReservationRow :=
    { taskId := task.taskId, state := .active, createdAt := now, expiresAt }
  have hactive : row.state = .active := rfl
  refine ⟨_, ?_, .reserve hprofile compiled hfresh hactive (checkAll_eq_nil.mp hv) hcounters, rfl,
    rfl, usageAt_reserve hkeys hcounters⟩
  unfold tryReserve
  simp only [hid, hfresh, hv, ne_eq, not_true_eq_false, if_false, Bool.not_true, Bool.false_eq_true,
    hok]
  rw [if_pos hnd]
  rfl

variable (db) in
/-- Everything `try_reserve` does with the checks compiled for a task: it knows the identifier, it
    refuses, the task's row is missing, or it admits. -/
theorem tryReserve_cases (now expiresAt : Instant) (reservationId : String) (taskRow : Bool)
    (compiled : compileChecks profile task demand context = .ok checks) (hprofile : inForce profile) :
    let reservation := reservationFor reservationId task checks now expiresAt
    (∃ e : PyError, (∀ message, e ≠ .runtimeError message) ∧
      db.tryReserve reservation checks taskRow = (.error e, db)) ∨
    (∃ violations, violations ≠ [] ∧ db.tryReserve reservation checks taskRow =
      (.ok (false, violations), { db with usage := (checkAll db.usage checks).2 })) ∨
    (∃ db', db.tryReserve reservation checks taskRow = (.ok (true, []), db') ∧
      Step inForce db db' ∧ db.reservations.get? reservationId = none ∧
      ∃ row : BudgetReservationRow,
        db'.reservations = db.reservations.set reservationId row ∧ row.state = .active ∧
        row.taskId = task.taskId ∧
        db'.items = db.items ++ reservation.items.map (reservationId, ·)) := by
  intro reservation
  have hid : reservation.reservationId = reservationId := rfl
  cases hfresh : db.reservations.get? reservationId with
  | some row =>
    refine .inl ⟨.valueError s!"budget reservation already exists: {reservationId}",
      fun _ => PyError.noConfusion, ?_⟩
    unfold tryReserve
    rw [hid, hfresh]
  | none =>
    by_cases hv : (checkAll db.usage checks).1 = []
    · cases taskRow with
      | false =>
        refine .inl ⟨.integrityError "FOREIGN KEY constraint failed",
          fun _ => PyError.noConfusion, ?_⟩
        simp only [tryReserve, hid, hfresh, hv, ne_eq, not_true_eq_false, if_false, Bool.not_false,
          if_true]
      | true =>
        obtain ⟨db', hok, hstep, hres, hitems, _⟩ :=
          tryReserve_admits now expiresAt compiled hprofile hfresh hv
        exact .inr (.inr ⟨db', hok, hstep, rfl, _, hres, rfl, rfl, hitems⟩)
    · refine .inr (.inl ⟨_, hv, ?_⟩)
      simp only [tryReserve, hid, hfresh, hv, ne_eq, not_false_eq_true, if_true]

end Reserve

end BudgetDb

open BudgetDb

/-! ## The manager's calls -/

/-- **The outcomes of `BudgetManager.reserve`**, with what each leaves of the store. -/
inductive ReserveOutcome (profile : BudgetProfile) (task : Task) (demand : BudgetDemand)
    (context : BudgetContext) (now : Instant) (reservationId : String) (db : BudgetDb) : Except PyError BudgetDecision → BudgetDb → Prop where
  | raised {e : PyError} (not_runtime : ∀ message, e ≠ .runtimeError message) :
      ReserveOutcome profile task demand context now reservationId db (.error e) db
  | tooDeep {decision : BudgetDecision} (denied : decision.outcome = .deny)
      (no_reservation : decision.reservation = none) :
      ReserveOutcome profile task demand context now reservationId db (.ok decision) db
  | unlimited {decision : BudgetDecision} (allowed : decision.outcome = .allow)
      (no_reservation : decision.reservation = none)
      (compiled : compileChecks profile task demand context = .ok []) :
      ReserveOutcome profile task demand context now reservationId db (.ok decision) db
  | refused {decision : BudgetDecision} {checks : List BudgetCheck}
      (not_allowed : decision.outcome ≠ .allow) (no_reservation : decision.reservation = none) :
      ReserveOutcome profile task demand context now reservationId db (.ok decision)
        { db with usage := (checkAll db.usage checks).2 }
  | admitted {decision : BudgetDecision} {checks : List BudgetCheck} {db' : BudgetDb}
      {row : BudgetReservationRow} {expiresAt : Instant} (allowed : decision.outcome = .allow)
      (compiled : compileChecks profile task demand context = .ok checks)
      (reservation : decision.reservation =
        some (reservationFor reservationId task checks now expiresAt))
      (step : Step (profile = ·) db db')
      (fresh : db.reservations.get? reservationId = none)
      (reservations : db'.reservations = db.reservations.set reservationId row)
      (active : row.state = .active) (owner : row.taskId = task.taskId)
      (items : db'.items = db.items ++
        (reservationFor reservationId task checks now expiresAt).items.map (reservationId, ·)) :
      ReserveOutcome profile task demand context now reservationId db (.ok decision) db'

theorem refusal_outcome (capacityRetryAfter : Duration) (task : Task) (checks : List BudgetCheck)
    (violations : List BudgetViolation) : (refusal capacityRetryAfter task checks violations).outcome ≠ .allow ∧
      (refusal capacityRetryAfter task checks violations).reservation = none := by
  unfold refusal
  dsimp only
  split <;> exact ⟨BudgetOutcome.noConfusion, rfl⟩

section Manager

variable (capacityRetryAfter : Duration) {db : BudgetDb}

variable (db) in
theorem reserve_outcome (profile : BudgetProfile) (task : Task) (demand : BudgetDemand)
    (context : BudgetContext) (leaseFor : Duration) (now : Instant) (reservationId : String) (taskRow : Bool) :
    let result := BudgetManager.reserve sqliteBudgetStore profile capacityRetryAfter db task demand
      context leaseFor now reservationId taskRow
    ReserveOutcome profile task demand context now reservationId db result.1 result.2 := by
  intro result
  simp only [result, BudgetManager.reserve]
  split
  · exact .raised fun _ => PyError.noConfusion
  split
  · exact .tooDeep rfl rfl
  split
  · exact .tooDeep rfl rfl
  obtain ⟨checks, hcompiled, _⟩ := compileChecks_perm profile task demand context
  rw [hcompiled]
  cases checks with
  | nil => exact .unlimited rfl rfl hcompiled
  | cons check checks =>
    dsimp only
    cases hexpires : addDelta now leaseFor with
    | error e =>
      exact .raised fun message => by rw [addDelta_error hexpires]; exact PyError.noConfusion
    | ok expiresAt =>
    dsimp only
    have hforce : (profile = ·) profile := rfl
    rcases tryReserve_cases db now expiresAt reservationId taskRow hcompiled hforce with
      ⟨e, hne, he⟩ | ⟨violations, -, he⟩ | ⟨db', he, hstep, hfresh, row, hres, hact, hown,
        hitems⟩
    · simp only [sqliteBudgetStore, he]
      exact .raised hne
    · simp only [sqliteBudgetStore, he]
      obtain ⟨hout, hnone⟩ := refusal_outcome capacityRetryAfter task (check :: checks) violations
      exact .refused hout hnone
    · simp only [sqliteBudgetStore, he]
      exact .admitted rfl hcompiled rfl hstep hfresh hres hact hown hitems

/-- The profile a call compiles its checks under. -/
def BudgetCmd.profile? : BudgetCmd → Option BudgetProfile
  | .reserve profile .. => some profile
  | _ => none

/-- **A call of the manager is a path of ledger moves**, and raises no `RuntimeError`. -/
theorem BudgetCmd.run_path (h : Ledger db) (cmd : BudgetCmd) :
    ReflTransGen (Step fun profile => cmd.profile? = some profile) db
        (cmd.run sqliteBudgetStore capacityRetryAfter db).2 ∧
      ∀ message, (cmd.run sqliteBudgetStore capacityRetryAfter db).1.raised? ≠ some (.runtimeError message) := by
  -- a call of `commit`, `release` or `renew` raises a key or value error
  have hraised : ∀ {result : Except PyError BudgetReservation},
      (∀ e, result = .error e → e.isKeyOrValue) → ∀ message,
        (BudgetReply.reservation result).raised? ≠ some (.runtimeError message) := by
    intro result hresult message
    cases result with
    | ok _ => exact fun h => by cases h
    | error e =>
      intro he
      cases Option.some.inj he
      exact absurd (hresult _ rfl) Bool.false_ne_true
  cases cmd with
  | reserve profile task demand context leaseFor now reservationId taskRow =>
    have hout := reserve_outcome capacityRetryAfter db profile task demand
      context leaseFor now reservationId taskRow
    simp only [BudgetCmd.run, BudgetCmd.profile?, Option.some.injEq]
    generalize BudgetManager.reserve sqliteBudgetStore profile capacityRetryAfter db task demand
      context leaseFor now reservationId taskRow = result at hout
    obtain ⟨reply, db'⟩ := result
    cases hout with
    | raised hne => exact ⟨.refl, fun m he => hne m (Option.some.inj he)⟩
    | tooDeep _ _ | unlimited _ _ _ => exact ⟨.refl, fun m he => by cases he⟩
    | refused _ _ => exact ⟨.single (.refuse _), fun m he => by cases he⟩
    | admitted _ _ _ hstep _ _ _ _ _ =>
      exact ⟨.single hstep, fun m he => by cases he⟩
  | commit reservationId =>
    obtain ⟨hpath, herr⟩ := finalize_path h reservationId .committed rfl (by decide)
    exact ⟨hpath, hraised herr⟩
  | release reservationId =>
    obtain ⟨hpath, herr⟩ := finalize_path h reservationId .released rfl (by decide)
    exact ⟨hpath, hraised herr⟩
  | renew reservationId leaseFor now now' =>
    simp only [BudgetCmd.run, BudgetManager.renew]
    split
    · exact ⟨.refl, hraised fun e he => by cases he; rfl⟩
    cases hexpires : addDelta now leaseFor with
    | error e =>
      refine ⟨.refl, fun message he => ?_⟩
      rw [addDelta_error hexpires] at he
      cases he
    | ok expiresAt =>
      obtain ⟨hpath, herr⟩ := renew_path db reservationId expiresAt now'
      exact ⟨hpath, hraised herr⟩
  | reapExpired now =>
    obtain ⟨hpath, ⟨expired, hok⟩, _⟩ := reapExpired_path h now
    refine ⟨hpath, fun m he => ?_⟩
    simp only [BudgetCmd.run, sqliteBudgetStore, hok, BudgetReply.raised?] at he
    cases he

/-! ## Runs -/

/-- The database a list of calls leaves. -/
def budgetRun (capacityRetryAfter : Duration) (db : BudgetDb) (cmds : List BudgetCmd) : BudgetDb :=
  runFrom (fun db cmd => (cmd.run sqliteBudgetStore capacityRetryAfter db).2) db cmds

theorem ledger_of_path {inForce : BudgetProfile → Prop} {db' : BudgetDb} (h : Ledger db)
    (hpath : ReflTransGen (Step inForce) db db') : Ledger db' := by
  induction hpath with
  | refl => exact h
  | tail _ hstep ih => exact hstep.ledger ih

theorem closed_row_of_path {inForce : BudgetProfile → Prop} {db' : BudgetDb}
    (hpath : ReflTransGen (Step inForce) db db') {reservationId : String}
    {row : BudgetReservationRow} (hrow : db.reservations.get? reservationId = some row)
    (hst : row.state ≠ .active) : db'.reservations.get? reservationId = some row := by
  induction hpath with
  | refl => exact hrow
  | tail _ hstep ih => exact hstep.closed_row ih hst

theorem total_le_of_path {inForce : BudgetProfile → Prop} {db' : BudgetDb} (h : Ledger db)
    (hpath : ReflTransGen (Step inForce) db db') {key : BudgetKey} {bound : ℚ}
    (hchecks : ∀ profile, inForce profile → ∀ task demand context checks,
      compileChecks profile task demand context = .ok checks → ∀ check ∈ checks,
        check.key = key → check.effectiveLimit + tolerance ≤ bound)
    (htotal : (usageAt db.usage key).total ≤ bound) : (usageAt db'.usage key).total ≤ bound := by
  induction hpath with
  | refl => exact htotal
  | tail hpre hstep ih => exact hstep.total_le (ledger_of_path h hpre) hchecks ih

theorem committed_le_of_path {inForce : BudgetProfile → Prop} {db' : BudgetDb} (h : Ledger db)
    (hpath : ReflTransGen (Step inForce) db db') (key : BudgetKey) :
    (usageAt db.usage key).committed ≤ (usageAt db'.usage key).committed := by
  induction hpath with
  | refl => exact le_refl _
  | tail hpre hstep ih => exact ih.trans (hstep.committed_le (ledger_of_path h hpre) key)

/-- Every reachable database is a ledger. -/
theorem BudgetDb.Ledger.budgetRun (h : Ledger db) (cmds : List BudgetCmd) :
    Ledger (budgetRun capacityRetryAfter db cmds) :=
  runFrom_invariant h fun _ cmd hdb => ledger_of_path hdb (cmd.run_path capacityRetryAfter hdb).1

/-- What is committed stays committed in every later state. -/
theorem budgetRun_committed_le (h : Ledger db) (cmds : List BudgetCmd) (key : BudgetKey) :
    (usageAt db.usage key).committed ≤ (usageAt (budgetRun capacityRetryAfter db cmds).usage key).committed := by
  refine (runFrom_invariant (P := fun db' => Ledger db' ∧
    (usageAt db.usage key).committed ≤ (usageAt db'.usage key).committed) ⟨h, le_refl _⟩ ?_).2
  rintro s cmd ⟨hs, hle⟩
  have hpath := (cmd.run_path capacityRetryAfter hs).1
  exact ⟨ledger_of_path hs hpath, hle.trans (committed_le_of_path hs hpath key)⟩

/-- A reservation that left ACTIVE stays as it is in every later state. -/
theorem budgetRun_closed_row (h : Ledger db) {reservationId : String} {row : BudgetReservationRow}
    (hrow : db.reservations.get? reservationId = some row) (hst : row.state ≠ .active) (cmds : List BudgetCmd) :
    (budgetRun capacityRetryAfter db cmds).reservations.get? reservationId = some row := by
  refine (runFrom_invariant (P := fun db => Ledger db ∧
    db.reservations.get? reservationId = some row) ⟨h, hrow⟩ ?_).2
  rintro s cmd ⟨hs, hr⟩
  have hpath := (cmd.run_path capacityRetryAfter hs).1
  exact ⟨ledger_of_path hs hpath, closed_row_of_path hpath hr hst⟩

/-- **A hard limit that stays in force is never exceeded.** -/
theorem budgetRun_total_le (h : Ledger db) {scope : LimitScope} {metric : BudgetMetric} {limit : ℚ}
    (hdb : (usageAt db.usage (scope.bucketKey, .hard, metric)).total ≤ limit + tolerance) {cmds : List BudgetCmd}
    (hforce : ∀ cmd ∈ cmds, ∀ profile, cmd.profile? = some profile → profile.limit .hard scope metric = some limit) :
    (usageAt (budgetRun capacityRetryAfter db cmds).usage
      (scope.bucketKey, .hard, metric)).total ≤ limit + tolerance := by
  refine (runFrom_invariant_mem (P := fun db => Ledger db ∧
    (usageAt db.usage (scope.bucketKey, .hard, metric)).total ≤ limit + tolerance)
    ⟨h, hdb⟩ ?_).2
  rintro s cmd hcmd ⟨hs, ht⟩
  have hpath := (cmd.run_path capacityRetryAfter hs).1
  have hchecks : ∀ profile, cmd.profile? = some profile → ∀ task demand context checks,
      compileChecks profile task demand context = .ok checks → ∀ check ∈ checks,
        check.key = (scope.bucketKey, .hard, metric) →
          check.effectiveLimit + tolerance ≤ limit + tolerance := by
    intro profile hprofile task demand context checks hcompiled check hc hkey
    have heff := effectiveLimit_of_hard hcompiled hc hkey
    rw [hforce cmd hcmd profile hprofile] at heff
    rw [← Option.some.inj heff]
  exact ⟨ledger_of_path hs hpath, total_le_of_path hs hpath hchecks ht⟩

variable (db) in
/-- **A reservation that is not allowed changes no row.** The counters it looked at for the first
    time are created, at zero. -/
theorem reserve_not_allowed (profile : BudgetProfile) (task : Task) (demand : BudgetDemand)
    (context : BudgetContext) (leaseFor : Duration) (now : Instant) (reservationId : String) (taskRow : Bool) :
    let result := BudgetManager.reserve sqliteBudgetStore profile capacityRetryAfter db task demand
      context leaseFor now reservationId taskRow
    (∀ decision, result.1 = .ok decision → decision.outcome ≠ .allow) →
      result.2.reservations = db.reservations ∧ result.2.items = db.items ∧
      (∀ key row, db.usage.get? key = some row → result.2.usage.get? key = some row) ∧
      ∀ key row, result.2.usage.get? key = some row → db.usage.get? key = none → row = {} := by
  intro result hnot
  have hout : ReserveOutcome profile task demand context now reservationId db result.1
      result.2 := reserve_outcome capacityRetryAfter db profile task demand context leaseFor now reservationId
      taskRow
  have hsame : ∀ key row, db.usage.get? key = some row → db.usage.get? key = none →
      row = ({} : BudgetUsage) := by
    intro key row hrow hnone
    rw [hnone] at hrow
    cases hrow
  revert hnot
  generalize result.1 = reply at hout
  generalize result.2 = db' at hout
  intro hnot
  cases hout with
  | raised _ | tooDeep _ _ => exact ⟨rfl, rfl, fun _ _ hrow => hrow, hsame⟩
  | unlimited allowed _ _ => exact absurd allowed (hnot _ rfl)
  | admitted allowed _ _ _ _ _ _ _ _ => exact absurd allowed (hnot _ rfl)
  | refused _ _ =>
    refine ⟨rfl, rfl, fun key row hrow => ?_, fun key row hrow hnone => ?_⟩
    · rw [get?_checkAll]
      split
      · simp [usageAt, hrow]
      · exact hrow
    · rw [get?_checkAll] at hrow
      split at hrow
      · simpa [usageAt, hnone] using hrow.symm
      · exact hsame key row hrow hnone

end Manager

/-- **The budget ledger.** In every state a sequence of calls leads to from the empty store: each
    counter is the sum of what the reservations hold in it, reserved by the ACTIVE ones and
    committed by the COMMITTED ones; a hard limit all the reservations were made under bounds its
    counter; a reservation that is not allowed changes no row and leaves only zero rows behind; one
    that has left ACTIVE never changes again; and no call raises the underflow error. -/
theorem sqlite_budget_ledger (capacityRetryAfter : Duration) (cmds : List BudgetCmd) :
    let db := budgetRun capacityRetryAfter BudgetDb.empty cmds
    (∀ key, (sqliteBudgetStore.usage db key).reserved =
      held (reservedEntries db.items) db.reservations key) ∧
    (∀ key, (sqliteBudgetStore.usage db key).committed =
      held (committedEntries db.items) db.reservations key) ∧
    (∀ (inForce : BudgetProfile) (scope : LimitScope) (metric : BudgetMetric) (limit : ℚ),
      inForce.limit .hard scope metric = some limit →
      (∀ cmd ∈ cmds, ∀ profile, cmd.profile? = some profile →
        profile.limit .hard scope metric = some limit) →
      (sqliteBudgetStore.usage db (scope.bucketKey, .hard, metric)).committed +
        (sqliteBudgetStore.usage db (scope.bucketKey, .hard, metric)).reserved ≤
          limit + tolerance) ∧
    (∀ profile task demand context leaseFor now reservationId taskRow,
      let result := BudgetManager.reserve sqliteBudgetStore profile capacityRetryAfter db task
        demand context leaseFor now reservationId taskRow
      (∀ decision, result.1 = .ok decision → decision.outcome ≠ .allow) →
      result.2.reservations = db.reservations ∧ result.2.items = db.items ∧
      (∀ key row, db.usage.get? key = some row → result.2.usage.get? key = some row) ∧
      ∀ key row, result.2.usage.get? key = some row → db.usage.get? key = none → row = {}) ∧
    (∀ reservationId row, db.reservations.get? reservationId = some row → row.state ≠ .active →
      ∀ later, (budgetRun capacityRetryAfter db later).reservations.get? reservationId =
        some row) ∧
    (∀ (cmd : BudgetCmd) (item : BudgetReservationItem),
      (cmd.run sqliteBudgetStore capacityRetryAfter db).1.raised? ≠ some (underflow item)) := by
  intro db
  have h : Ledger db := Ledger.empty.budgetRun capacityRetryAfter cmds
  refine ⟨h.reserved, h.committed, fun inForce scope metric limit hlimit hforce => ?_,
    fun profile task demand context leaseFor now reservationId taskRow =>
      reserve_not_allowed capacityRetryAfter db profile task demand context leaseFor now
        reservationId taskRow,
    fun _ _ hrow hst later => budgetRun_closed_row capacityRetryAfter h hrow hst later,
    fun cmd item => (cmd.run_path capacityRetryAfter h).2 _⟩
  have hstart : (usageAt BudgetDb.empty.usage (scope.bucketKey, .hard, metric)).total ≤
      limit + tolerance := by
    have hzero : (usageAt BudgetDb.empty.usage (scope.bucketKey, .hard, metric)).total = 0 :=
      add_zero (0 : ℚ)
    rw [hzero]
    exact add_nonneg (BudgetProfile.limit_nonneg hlimit) tolerance_pos.le
  exact budgetRun_total_le capacityRetryAfter Ledger.empty hstart hforce

end NightScout
