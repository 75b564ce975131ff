import NightScout.Lib.Lists
import NightScout.Storage.Snapshots

/-!
# The change log

Runs over one asset and one kind of state, each a list of observations that are captured and compared one after the
other. What a run has stored at its end is its latest observation. What it has recorded are the changes of all that
was stored on the way: the log only grows, so it is the comparison with the run before only if no state on the way
has a change that the last one does not have (`snapshot_change_log`).
-/

namespace NightScout

open Lib SnapshotDb

/-! ## What is stored -/

structure Capture where
  state : SurfaceState
  observedAt : Instant
  deriving DecidableEq

/-- What is stored after a capture, if `stored` was before it. -/
def Capture.over (c : Capture) : Option Capture → Capture
  | none => c
  | some stored => if stored.observedAt ≤ c.observedAt then c else stored

/-- What is stored after a list of captures. -/
def storedAfter (captures : List Capture) : Option Capture :=
  captures.foldl (fun stored c => some (c.over stored)) none

/-- What is stored on the way, after each capture. -/
def storedOnTheWay (captures : List Capture) : List Capture := captures.inits.filterMap storedAfter

/-- The latest of the captures, and the last of those. -/
def IsLatest (captures : List Capture) (c : Capture) : Prop :=
  ∃ before after, captures = before ++ c :: after ∧ (∀ c' ∈ before, c'.observedAt ≤ c.observedAt) ∧
    ∀ c' ∈ after, c'.observedAt < c.observedAt

theorem storedAfter_concat (captures : List Capture) (c : Capture) :
    storedAfter (captures ++ [c]) = some (c.over (storedAfter captures)) := by
  unfold storedAfter
  rw [List.foldl_append]
  rfl

theorem storedOnTheWay_concat (captures : List Capture) (c : Capture) :
    storedOnTheWay (captures ++ [c]) = storedOnTheWay captures ++ [c.over (storedAfter captures)] := by
  unfold storedOnTheWay
  rw [List.inits_append, List.filterMap_append]
  simp [storedAfter_concat]

theorem storedAfter_eq_none {captures : List Capture} : storedAfter captures = none ↔ captures = [] := by
  cases captures using List.reverseRecOn with
  | nil => exact iff_of_true rfl rfl
  | append_singleton captures c =>
    rw [storedAfter_concat]
    exact iff_of_false nofun (List.append_ne_nil_of_right_ne_nil _ (List.cons_ne_nil _ _))

theorem storedAfter_isLatest {captures : List Capture} {c : Capture} (h : storedAfter captures = some c) :
    IsLatest captures c := by
  induction captures using List.reverseRecOn generalizing c with
  | nil => cases h
  | append_singleton captures last ih =>
    rw [storedAfter_concat] at h
    cases h
    cases hstored : storedAfter captures with
    | none =>
      rw [storedAfter_eq_none] at hstored
      subst hstored
      exact ⟨[], [], rfl, fun _ h => (nomatch h), fun _ h => (nomatch h)⟩
    | some stored =>
      obtain ⟨before, after, rfl, hbefore, hafter⟩ := ih hstored
      unfold Capture.over
      simp only
      split
      next hle =>
        refine ⟨before ++ stored :: after, [], rfl, fun c' hc' => ?_, fun _ h => (nomatch h)⟩
        rcases List.mem_append.mp hc' with hc' | hc'
        · exact (hbefore c' hc').trans hle
        · rcases List.mem_cons.mp hc' with rfl | hc'
          · exact hle
          · exact (hafter c' hc').le.trans hle
      next hlt =>
        refine ⟨before, after ++ [last], by simp, hbefore, fun c' hc' => ?_⟩
        rcases List.mem_append.mp hc' with hc' | hc'
        · exact hafter c' hc'
        · rw [List.mem_singleton.mp hc']
          exact not_le.mp hlt

theorem storedOnTheWay_isPrefix {captures : List Capture} {c : Capture} :
    c ∈ storedOnTheWay captures ↔ ∃ l, l <+: captures ∧ storedAfter l = some c := by
  unfold storedOnTheWay
  rw [List.mem_filterMap]
  simp only [List.mem_inits]

/-! ## The changes of a comparison are distinct -/

theorem map_changeIf_sublist (condition : Prop) [Decidable condition] (change : SurfaceChange) :
    ((changeIf condition change).map SurfaceChange.changeType).Sublist [change.changeType] := by
  unfold changeIf
  split
  · exact List.Sublist.refl _
  · exact List.nil_sublist _

theorem map_changeIf_append_sublist (condition : Prop) [Decidable condition] (change : SurfaceChange)
    {changes : List SurfaceChange} {types : List ChangeType}
    (h : (changes.map SurfaceChange.changeType).Sublist types) :
    ((changeIf condition change ++ changes).map SurfaceChange.changeType).Sublist (change.changeType :: types) := by
  rw [List.map_append]
  exact (map_changeIf_sublist condition change).append h

/-- A comparison has a type of change at most once. -/
theorem stateChanges_types_nodup (previous current : SurfaceState) :
    ((stateChanges previous current).map SurfaceChange.changeType).Nodup := by
  have hsublist : ((stateChanges previous current).map SurfaceChange.changeType).Sublist
      [.ipChanged, .statusChanged, .titleChanged, .bodyHashChanged, .certificateChanged, .newCertSan,
        .newJavascript, .newEndpoint, .scopeChanged, .stateChanged] := by
    unfold stateChanges
    refine map_changeIf_append_sublist _ _ (map_changeIf_append_sublist _ _ (map_changeIf_append_sublist _ _
      (map_changeIf_append_sublist _ _ (map_changeIf_append_sublist _ _ (map_changeIf_append_sublist _ _
        (map_changeIf_append_sublist _ _ (map_changeIf_append_sublist _ _ (map_changeIf_append_sublist _ _
          (map_changeIf_sublist _ _)))))))))
  exact hsublist.nodup (by decide)

theorem diffSnapshots_nodup {previous : Option SurfaceSnapshot} {current : SurfaceSnapshot}
    {changes : List SurfaceChange} (h : diffSnapshots previous current = .ok changes) : changes.Nodup := by
  refine List.Nodup.of_map SurfaceChange.changeType ?_
  unfold diffSnapshots at h
  split at h
  · cases h
    split <;> simp
  · split at h
    · cases h
    split at h
    · cases h
    cases h
    split
    · exact List.nodup_singleton _
    · exact List.nodup_singleton _
    · exact List.nodup_nil
    · exact stateChanges_types_nodup _ _

/-! ## Runs -/

/-- A run over the asset: the identifier its row has, and what it captures. -/
structure SnapshotRun where
  runId : String
  snapshotId : String
  captures : List Capture

/-- Runs one after the other, each with identifiers of its own. -/
structure SnapshotHistory where
  runs : List SnapshotRun
  runIds_nodup : (runs.map SnapshotRun.runId).Nodup := by decide
  snapshotIds_nodup : (runs.map SnapshotRun.snapshotId).Nodup := by decide

/-- A recorded change, with the row it was compared with. -/
abbrev LoggedChange := Option String × SurfaceChange

section Playing

variable {κ : Type} [DecidableEq κ] (digest : ChangePayload → κ) (assetId : String)
    (eventType : EventType) (kind : SnapshotKind)

/-- The captures of a run, each with its comparison. -/
def playRun (db : SnapshotDb κ) (run : SnapshotRun) : SnapshotDb κ :=
  run.captures.foldl (fun db c =>
    db.captureAndDiff digest run.runId assetId kind c.state c.observedAt run.snapshotId) db

def playRuns (db : SnapshotDb κ) (runs : List SnapshotRun) : SnapshotDb κ :=
  runs.foldl (playRun digest assetId kind) db

/-- Nothing is captured yet. -/
def startDb (κ : Type) (runs : List SnapshotRun) : SnapshotDb κ where
  runs := runs.map SnapshotRun.runId
  assets := Dict.empty.set assetId eventType

/-- The row of a run. -/
def SnapshotRun.row (run : SnapshotRun) (c : Capture) : SnapshotRow where
  snapshotId := run.snapshotId
  runId := run.runId
  assetId
  kind
  observedAt := c.observedAt
  state := c.state

/-- The changes that are recorded for the run and its row. -/
def recorded (rows : List (ChangeRow κ)) (run : SnapshotRun) : List LoggedChange :=
  (rows.filter fun row => row.runId = run.runId ∧ row.assetId = assetId ∧
    row.currentSnapshotId = run.snapshotId).map fun row => (row.previousSnapshotId, row.change)

/-- `diff_snapshots` of two rows, with the row it was compared with. -/
def loggedDiff (previous : Option SnapshotRow) (current : SnapshotRow) : List LoggedChange :=
  ((diffSnapshots (previous.map (SnapshotRow.toSnapshot · eventType))
    (current.toSnapshot eventType)).toOption.getD []).map fun change =>
      (previous.map SnapshotRow.snapshotId, change)

theorem loggedDiff_nodup (eventType : EventType) (previous : Option SnapshotRow) (current : SnapshotRow) :
    (loggedDiff eventType previous current).Nodup := by
  unfold loggedDiff
  refine List.Nodup.map (fun a b h => (Prod.mk.inj h).2) ?_
  cases hdiff : diffSnapshots (previous.map (SnapshotRow.toSnapshot · eventType))
      (current.toSnapshot eventType) with
  | error e => exact List.nodup_nil
  | ok changes => exact diffSnapshots_nodup hdiff

/-- Every change found on the way: of each state that is stored, against the row observed last before it. -/
def foundOnTheWay (others : List SnapshotRow) (run : SnapshotRun) (captures : List Capture) :
    List LoggedChange :=
  (storedOnTheWay captures).flatMap fun c =>
    loggedDiff eventType (previousRow others (run.row assetId kind c)) (run.row assetId kind c)

variable {digest assetId eventType kind}

/-! ## Recording -/

/-- The key of a row is the digest of what it holds. -/
def Keyed (digest : ChangePayload → κ) (rows : List (ChangeRow κ)) : Prop :=
  ∀ row ∈ rows, row.changeKey =
    digest ⟨row.assetId, row.previousSnapshotId, row.currentSnapshotId, row.change⟩

theorem Keyed.recordChange {rows : List (ChangeRow κ)} (h : Keyed digest rows)
    (previous : Option SurfaceSnapshot) (current : SurfaceSnapshot) (change : SurfaceChange) :
    Keyed digest (recordChange digest rows previous current change) := by
  unfold SnapshotDb.recordChange
  simp only
  split
  · exact h
  · intro row hrow
    rcases List.mem_append.mp hrow with hrow | hrow
    · exact h row hrow
    · rw [List.mem_singleton.mp hrow]

/-- A change is recorded unless it is already. -/
theorem recorded_recordChange (assetId : String) (eventType : EventType) (kind : SnapshotKind)
    (hdigest : Function.Injective digest) {rows : List (ChangeRow κ)} (h : Keyed digest rows)
    (run : SnapshotRun) (previous : Option SnapshotRow) (c : Capture) (change : SurfaceChange) :
    recorded assetId (recordChange digest rows (previous.map (SnapshotRow.toSnapshot · eventType))
        ((run.row assetId kind c).toSnapshot eventType) change) run =
      if (previous.map SnapshotRow.snapshotId, change) ∈ recorded assetId rows run then
        recorded assetId rows run
      else recorded assetId rows run ++ [(previous.map SnapshotRow.snapshotId, change)] := by
  have hid : (previous.map (SnapshotRow.toSnapshot · eventType)).map (fun p => p.snapshotId) =
      previous.map SnapshotRow.snapshotId := by
    cases previous <;> rfl
  unfold SnapshotDb.recordChange
  simp only [hid]
  have hiff : (rows.any fun row => decide (row.runId = run.runId ∧ row.changeKey = digest
      ⟨assetId, previous.map SnapshotRow.snapshotId, run.snapshotId, change⟩)) = true ↔
        (previous.map SnapshotRow.snapshotId, change) ∈ recorded assetId rows run := by
    unfold recorded
    simp only [List.any_eq_true, decide_eq_true_eq, List.mem_map, List.mem_filter, Prod.mk.injEq]
    constructor
    · rintro ⟨row, hrow, hrun, hkey⟩
      rw [h row hrow] at hkey
      obtain ⟨hasset, hprevious, hcurrent, hchange⟩ := ChangePayload.mk.inj (hdigest hkey)
      exact ⟨row, ⟨hrow, hrun, hasset, hcurrent⟩, hprevious, hchange⟩
    · rintro ⟨row, ⟨hrow, hrun, hasset, hcurrent⟩, hprevious, hchange⟩
      refine ⟨row, hrow, hrun, ?_⟩
      rw [h row hrow, hasset, hprevious, hcurrent, hchange]
  by_cases hmem : (previous.map SnapshotRow.snapshotId, change) ∈ recorded assetId rows run
  · rw [if_pos hmem]
    exact congrArg (recorded assetId · run) (if_pos (hiff.mpr hmem))
  · rw [if_neg hmem]
    refine (congrArg (recorded assetId · run) (if_neg fun hany => hmem (hiff.mp hany))).trans ?_
    unfold recorded
    rw [List.filter_append, List.map_append]
    congr 1
    simp [SnapshotRow.toSnapshot, SnapshotRun.row]

/-- What one comparison leaves recorded. -/
theorem recorded_foldl (eventType : EventType) (kind : SnapshotKind)
    (hdigest : Function.Injective digest) (run : SnapshotRun)
    (previous : Option SnapshotRow) (c : Capture) (changes : List SurfaceChange)
    {rows : List (ChangeRow κ)} (h : Keyed digest rows) {found : List LoggedChange}
    (hrecorded : recorded assetId rows run = fromkeys found) :
    let rows' := changes.foldl (fun rows change =>
      recordChange digest rows (previous.map (SnapshotRow.toSnapshot · eventType))
        ((run.row assetId kind c).toSnapshot eventType) change) rows
    Keyed digest rows' ∧ recorded assetId rows' run =
      fromkeys (found ++ changes.map fun change => (previous.map SnapshotRow.snapshotId, change)) := by
  induction changes generalizing rows found with
  | nil => exact ⟨h, by rw [List.map_nil, List.append_nil]; exact hrecorded⟩
  | cons change changes ih =>
    have hnext : recorded assetId (recordChange digest rows
        (previous.map (SnapshotRow.toSnapshot · eventType)) ((run.row assetId kind c).toSnapshot eventType)
        change) run = fromkeys (found ++ [(previous.map SnapshotRow.snapshotId, change)]) := by
      rw [recorded_recordChange assetId eventType kind hdigest h run previous c change, hrecorded,
        fromkeys_concat]
      congr
    have htail := ih (h.recordChange _ _ change) hnext
    rw [List.append_assoc] at htail
    exact htail

/-- A comparison records nothing for another row. -/
theorem recordChange_current (rows : List (ChangeRow κ)) (previous : Option SurfaceSnapshot)
    (current : SurfaceSnapshot) (changes : List SurfaceChange) :
    ∀ row ∈ changes.foldl (fun rows change => recordChange digest rows previous current change) rows,
      row ∈ rows ∨ row.currentSnapshotId = current.snapshotId := by
  induction changes generalizing rows with
  | nil => exact fun row hrow => .inl hrow
  | cons change changes ih =>
    intro row hrow
    rcases ih _ row hrow with hrow | hcurrent
    · unfold SnapshotDb.recordChange at hrow
      simp only at hrow
      split at hrow
      · exact .inl hrow
      · rcases List.mem_append.mp hrow with hrow | hrow
        · exact .inl hrow
        · rw [List.mem_singleton.mp hrow]
          exact .inr rfl
    · exact .inr hcurrent

/-! ## One run -/

/-- The run has not begun: no row is its own, and all are rows of the asset. -/
structure Fresh (digest : ChangePayload → κ) (assetId : String) (eventType : EventType)
    (kind : SnapshotKind) (db : SnapshotDb κ) (run : SnapshotRun) : Prop where
  known : run.runId ∈ db.runs
  asset : db.assets.get? assetId = some eventType
  others : ∀ row ∈ db.snapshots, row.runId ≠ run.runId ∧ row.snapshotId ≠ run.snapshotId
  same : ∀ row ∈ db.snapshots, row.assetId = assetId ∧ row.kind = kind
  keyed : Keyed digest db.changes
  unlogged : ∀ row ∈ db.changes, row.currentSnapshotId ≠ run.snapshotId

/-- In the middle of a run. -/
structure InRun (digest : ChangePayload → κ) (assetId : String) (eventType : EventType)
    (kind : SnapshotKind) (before : SnapshotDb κ) (run : SnapshotRun) (done : List Capture)
    (db : SnapshotDb κ) : Prop where
  runs : db.runs = before.runs
  assets : db.assets = before.assets
  snapshots : db.snapshots = before.snapshots ++ (storedAfter done).toList.map (run.row assetId kind)
  keyed : Keyed digest db.changes
  recorded : recorded assetId db.changes run =
    fromkeys (foundOnTheWay assetId eventType kind before.snapshots run done)
  own : ∀ row ∈ db.changes, row ∈ before.changes ∨ row.currentSnapshotId = run.snapshotId

omit [DecidableEq κ] in
theorem Fresh.inRun {db : SnapshotDb κ} {run : SnapshotRun} (h : Fresh digest assetId eventType kind db run) :
    InRun digest assetId eventType kind db run [] db where
  runs := rfl
  assets := rfl
  snapshots := (List.append_nil _).symm
  keyed := h.keyed
  recorded := by
    have hnone : (db.changes.filter fun row => row.runId = run.runId ∧ row.assetId = assetId ∧
        row.currentSnapshotId = run.snapshotId) = [] := by
      refine List.filter_eq_nil_iff.mpr fun row hrow hc => ?_
      exact h.unlogged row hrow (of_decide_eq_true hc).2.2
    unfold NightScout.recorded
    rw [hnone]
    rfl
  own _ hrow := .inl hrow

omit [DecidableEq κ] in
/-- What is captured is stored if it is not older. -/
theorem InRun.capture {before db : SnapshotDb κ} {run : SnapshotRun} {done : List Capture}
    (hfresh : Fresh digest assetId eventType kind before run)
    (h : InRun digest assetId eventType kind before run done db) (c : Capture) :
    ∃ result, db.capture run.runId assetId kind c.state c.observedAt run.snapshotId =
        (.ok result, { db with
          snapshots := before.snapshots ++ [run.row assetId kind (c.over (storedAfter done))] }) ∧
      result.snapshot.snapshotId = run.snapshotId := by
  have hknown : ¬ run.runId ∉ db.runs := not_not.mpr (h.runs ▸ hfresh.known)
  have hasset : db.assets.get? assetId = some eventType := h.assets ▸ hfresh.asset
  have hothers : before.snapshots.find? (fun row =>
      row.runId = run.runId ∧ row.assetId = assetId ∧ row.kind = kind) = none := by
    refine List.find?_eq_none.mpr fun row hrow hc => ?_
    exact (hfresh.others row hrow).1 (of_decide_eq_true hc).1
  unfold SnapshotDb.capture
  rw [if_neg hknown, hasset, h.snapshots, List.find?_append, hothers]
  cases hstored : storedAfter done with
  | none =>
    refine ⟨⟨(run.row assetId kind c).toSnapshot eventType, true, false⟩, ?_, rfl⟩
    simp [Capture.over, SnapshotRun.row]
  | some stored =>
    have hown : ([run.row assetId kind stored].find? fun row =>
        row.runId = run.runId ∧ row.assetId = assetId ∧ row.kind = kind) =
          some (run.row assetId kind stored) := by
      rw [List.find?_cons_of_pos]
      simp [SnapshotRun.row]
    have hrow : (if (run.row assetId kind stored).observedAt ≤ c.observedAt then
        { run.row assetId kind stored with observedAt := c.observedAt, state := c.state }
          else run.row assetId kind stored) = run.row assetId kind (c.over (some stored)) := by
      have hobserved : (run.row assetId kind stored).observedAt = stored.observedAt := rfl
      simp only [Capture.over, hobserved]
      by_cases hle : stored.observedAt ≤ c.observedAt
      · rw [if_pos hle, if_pos hle]
        rfl
      · rw [if_neg hle, if_neg hle]
    -- the rows of other runs stay
    have hmap (new : SnapshotRow) : (before.snapshots ++ [run.row assetId kind stored]).map (fun row =>
        if row.snapshotId = run.snapshotId then new else row) = before.snapshots ++ [new] := by
      have hsame : (run.row assetId kind stored).snapshotId = run.snapshotId := rfl
      rw [List.map_append, List.map_singleton, if_pos hsame]
      congr 1
      refine (List.map_congr_left fun row hrow => ?_).trans (List.map_id _)
      exact if_neg (hfresh.others row hrow).2
    simp only [Option.none_or, Option.toList_some, List.map_cons, List.map_nil, hown, hrow]
    refine ⟨_, congrArg (Prod.mk _) ?_, rfl⟩
    exact congrArg (fun rows => { db with snapshots := rows }) (hmap _)

/-- The row itself is not observed before itself. -/
theorem previousRow_append_self (rows : List SnapshotRow) (row : SnapshotRow) :
    previousRow (rows ++ [row]) row = previousRow rows row := by
  unfold previousRow
  rw [List.filter_append, List.filter_singleton]
  simp

theorem mem_of_previousRow {rows : List SnapshotRow} {current row : SnapshotRow}
    (h : previousRow rows current = some row) : row ∈ rows ∧ row.assetId = current.assetId ∧
      row.kind = current.kind ∧ row.snapshotId ≠ current.snapshotId ∧ row.observedAt < current.observedAt := by
  have hmem := List.mem_of_mem_head? h
  rw [List.mem_insertionSort, List.mem_filter] at hmem
  exact ⟨hmem.1, of_decide_eq_true hmem.2⟩

/-- A row and the one observed last before it can be compared. -/
theorem diffSnapshots_previousRow (eventType : EventType) (rows : List SnapshotRow) (current : SnapshotRow) :
    ∃ changes, diffSnapshots ((previousRow rows current).map (SnapshotRow.toSnapshot · eventType))
        (current.toSnapshot eventType) = .ok changes ∧ loggedDiff eventType (previousRow rows current) current =
        changes.map fun change => ((previousRow rows current).map SnapshotRow.snapshotId, change) := by
  obtain ⟨changes, hok⟩ : ∃ changes, diffSnapshots
      ((previousRow rows current).map (SnapshotRow.toSnapshot · eventType))
      (current.toSnapshot eventType) = .ok changes := by
    cases hprevious : previousRow rows current with
    | none => exact ⟨_, rfl⟩
    | some row =>
      obtain ⟨_, hasset, hkind, _⟩ := mem_of_previousRow hprevious
      refine ⟨_, (if_neg ?_).trans (if_neg ?_)⟩
      · exact not_not.mpr hasset
      · exact not_not.mpr hkind
  refine ⟨changes, hok, ?_⟩
  unfold loggedDiff
  rw [hok]
  rfl

/-- **One observation of a run.** -/
theorem InRun.step (hdigest : Function.Injective digest) {before db : SnapshotDb κ} {run : SnapshotRun}
    {done : List Capture} (hfresh : Fresh digest assetId eventType kind before run)
    (h : InRun digest assetId eventType kind before run done db) (c : Capture) :
    InRun digest assetId eventType kind before run (done ++ [c])
      (db.captureAndDiff digest run.runId assetId kind c.state c.observedAt run.snapshotId) := by
  obtain ⟨result, hcapture, hid⟩ := h.capture hfresh c
  generalize hstored : c.over (storedAfter done) = stored at hcapture
  have hfind : (before.snapshots ++ [run.row assetId kind stored]).find?
      (fun row => row.snapshotId = run.snapshotId) = some (run.row assetId kind stored) := by
    have hnone : before.snapshots.find? (fun row => row.snapshotId = run.snapshotId) = none := by
      refine List.find?_eq_none.mpr fun row hrow hc => ?_
      exact (hfresh.others row hrow).2 (of_decide_eq_true hc)
    rw [List.find?_append, hnone, Option.none_or, List.find?_cons_of_pos]
    exact decide_eq_true rfl
  have hasset : db.assets.get? assetId = some eventType := h.assets ▸ hfresh.asset
  obtain ⟨changes, hdiff, hlogged⟩ := diffSnapshots_previousRow eventType before.snapshots
    (run.row assetId kind stored)
  obtain ⟨hkeyed, hrecorded⟩ := recorded_foldl eventType kind hdigest run
    (previousRow before.snapshots (run.row assetId kind stored)) stored changes h.keyed h.recorded
  have hafter : db.captureAndDiff digest run.runId assetId kind c.state c.observedAt run.snapshotId =
      { db with
        snapshots := before.snapshots ++ [run.row assetId kind stored]
        changes := changes.foldl (fun rows change => recordChange digest rows
          ((previousRow before.snapshots (run.row assetId kind stored)).map
            (SnapshotRow.toSnapshot · eventType))
          ((run.row assetId kind stored).toSnapshot eventType) change) db.changes } := by
    unfold captureAndDiff
    rw [hcapture]
    simp only [hid]
    unfold diffAndRecord
    simp only [hfind]
    have hrowAsset : (run.row assetId kind stored).assetId = assetId := rfl
    simp only [hrowAsset, hasset, previousRow_append_self, hdiff]
  rw [hafter]
  exact {
    runs := h.runs
    assets := h.assets
    snapshots := by rw [storedAfter_concat, hstored]; rfl
    keyed := hkeyed
    recorded := by
      unfold foundOnTheWay at hrecorded ⊢
      rw [storedOnTheWay_concat, hstored, List.flatMap_append, List.flatMap_singleton, hlogged]
      exact hrecorded
    own := by
      intro row hrow
      rcases recordChange_current _ _ _ _ row hrow with hrow | hcurrent
      · exact h.own row hrow
      · exact .inr hcurrent }

/-- **A whole run.** -/
theorem Fresh.run (hdigest : Function.Injective digest) {before : SnapshotDb κ} {run : SnapshotRun}
    (h : Fresh digest assetId eventType kind before run) : InRun digest assetId eventType kind before run run.captures
      (playRun digest assetId kind before run) := by
  unfold playRun
  generalize hcaptures : run.captures = captures
  clear hcaptures
  induction captures using List.reverseRecOn with
  | nil => exact h.inRun
  | append_singleton captures c ih =>
    rw [List.foldl_append]
    exact ih.step hdigest h c

/-! ## Run after run -/

/-- What the runs that are over leave. -/
structure Played (digest : ChangePayload → κ) (assetId : String) (eventType : EventType)
    (kind : SnapshotKind) (all played : List SnapshotRun) (db : SnapshotDb κ) : Prop where
  runs : db.runs = all.map SnapshotRun.runId
  asset : db.assets.get? assetId = some eventType
  snapshots : db.snapshots = played.filterMap fun run => (storedAfter run.captures).map (run.row assetId kind)
  keyed : Keyed digest db.changes
  logged : ∀ row ∈ db.changes, ∃ run ∈ played, row.currentSnapshotId = run.snapshotId

omit [DecidableEq κ] in
theorem Played.fresh {all played : List SnapshotRun} {db : SnapshotDb κ}
    (h : Played digest assetId eventType kind all played db) {run : SnapshotRun} (hrun : run ∈ all)
    (hnew : ∀ r ∈ played, r.runId ≠ run.runId ∧ r.snapshotId ≠ run.snapshotId) :
    Fresh digest assetId eventType kind db run := by
  have hrow {row : SnapshotRow} (hrow : row ∈ db.snapshots) :
      ∃ r ∈ played, ∃ c, row = r.row assetId kind c := by
    rw [h.snapshots] at hrow
    obtain ⟨r, hr, hrow⟩ := List.mem_filterMap.mp hrow
    obtain ⟨c, _, rfl⟩ := Option.map_eq_some_iff.mp hrow
    exact ⟨r, hr, c, rfl⟩
  exact {
    known := h.runs ▸ List.mem_map_of_mem hrun
    asset := h.asset
    others := by
      intro row hmem
      obtain ⟨r, hr, c, rfl⟩ := hrow hmem
      exact hnew r hr
    same := by
      intro row hmem
      obtain ⟨r, _, c, rfl⟩ := hrow hmem
      exact ⟨rfl, rfl⟩
    keyed := h.keyed
    unlogged := by
      intro row hmem
      obtain ⟨r, hr, hcurrent⟩ := h.logged row hmem
      rw [hcurrent]
      exact (hnew r hr).2 }

omit [DecidableEq κ] in
theorem InRun.played {all played : List SnapshotRun} {before db : SnapshotDb κ} {run : SnapshotRun}
    (h : InRun digest assetId eventType kind before run run.captures db)
    (hplayed : Played digest assetId eventType kind all played before) :
    Played digest assetId eventType kind all (played ++ [run]) db where
  runs := h.runs.trans hplayed.runs
  asset := h.assets ▸ hplayed.asset
  snapshots := by
    rw [h.snapshots, hplayed.snapshots, List.filterMap_append]
    congr 1
    cases hstored : storedAfter run.captures <;> simp [hstored]
  keyed := h.keyed
  logged := by
    intro row hrow
    rcases h.own row hrow with hbefore | hcurrent
    · obtain ⟨r, hr, hcurrent⟩ := hplayed.logged row hbefore
      exact ⟨r, List.mem_append_left _ hr, hcurrent⟩
    · exact ⟨run, List.mem_append_right _ (List.mem_singleton_self run), hcurrent⟩

/-- **Every run of the history begins fresh**, after the ones before it. -/
theorem played_before (hdigest : Function.Injective digest) {all before after : List SnapshotRun}
    (hids : (all.map SnapshotRun.runId).Nodup) (hids' : (all.map SnapshotRun.snapshotId).Nodup)
    (hsplit : all = before ++ after) : Played digest assetId eventType kind all before
      (playRuns digest assetId kind (startDb assetId eventType κ all) before) := by
  induction before using List.reverseRecOn generalizing after with
  | nil => exact ⟨rfl, Dict.get?_set_self .., rfl, fun _ h => (nomatch h), fun _ h => (nomatch h)⟩
  | append_singleton before run ih =>
    have hbefore := ih (show all = before ++ (run :: after) by rw [hsplit, List.append_assoc]; rfl)
    unfold playRuns at hbefore ⊢
    rw [List.foldl_append]
    have hrun : run ∈ all := hsplit ▸ List.mem_append_left _ (List.mem_append_right _ (List.mem_singleton_self run))
    refine ((hbefore.fresh hrun fun r hr => ?_).run hdigest).played hbefore
    rw [hsplit, List.map_append, List.map_append] at hids hids'
    have hne := (List.nodup_append.mp (List.nodup_append.mp hids).1).2.2
    have hne' := (List.nodup_append.mp (List.nodup_append.mp hids').1).2.2
    exact ⟨hne _ (List.mem_map_of_mem hr) _ (List.mem_singleton_self _),
      hne' _ (List.mem_map_of_mem hr) _ (List.mem_singleton_self _)⟩

/-! ## The log of a run -/

section Log

variable (digest assetId eventType kind)

/-- The row of a run, if it has captured anything. -/
def snapshotOf (db : SnapshotDb κ) (run : SnapshotRun) : Option SnapshotRow :=
  db.snapshots.find? fun row => row.runId = run.runId ∧ row.assetId = assetId ∧ row.kind = kind

/-- The row of the latest of the runs that has one. -/
def latestSnapshot (db : SnapshotDb κ) (runs : List SnapshotRun) : Option SnapshotRow :=
  runs.reverse.findSome? (snapshotOf assetId kind db)

/-- The run has recorded the comparison of its last state with the run before, and each change of it once. -/
def LogsLastState (before : List SnapshotRun) (run : SnapshotRun) (db : SnapshotDb κ) (row : SnapshotRow) :
    Prop :=
  (recorded assetId db.changes run).Perm
    (loggedDiff eventType (latestSnapshot assetId kind db before) row)

/-- What the states on the way have changed, each against the row observed last before it, is what the last
    state has changed against the run before. -/
def FindsLastState (before : List SnapshotRun) (run : SnapshotRun) (earlier db : SnapshotDb κ)
    (row : SnapshotRow) : Prop :=
  ∀ change, change ∈ foundOnTheWay assetId eventType kind earlier.snapshots run run.captures ↔
    change ∈ loggedDiff eventType (latestSnapshot assetId kind db before) row

/-- The first observation of a run is later than all of the runs before it. -/
def InTime (runs : List SnapshotRun) : Prop :=
  runs.Pairwise fun r r' => ∀ c ∈ r.captures, ∀ c' ∈ r'.captures.head?, c.observedAt < c'.observedAt

/-- No state on the way has a change against the run before that the last one does not have. -/
def NothingPasses (before : List SnapshotRun) (run : SnapshotRun) (db : SnapshotDb κ) (row : SnapshotRow) :
    Prop :=
  ∀ c ∈ storedOnTheWay run.captures, ∀ change ∈ loggedDiff eventType (latestSnapshot assetId kind db before)
    (run.row assetId kind c), change ∈ loggedDiff eventType (latestSnapshot assetId kind db before) row

end Log

omit [DecidableEq κ] in
/-- With all rows observed in the order of their runs, the row observed last before the run is that of the latest
    run. -/
theorem previousRow_inTime {rows : List SnapshotRow} {current : SnapshotRow}
    (hrows : rows.Pairwise fun a b => a.observedAt < b.observedAt)
    (hall : ∀ row ∈ rows, row.assetId = current.assetId ∧ row.kind = current.kind ∧
      row.snapshotId ≠ current.snapshotId ∧ row.observedAt < current.observedAt) :
    previousRow rows current = rows.getLast? := by
  have hfilter : (rows.filter fun row => row.assetId = current.assetId ∧ row.kind = current.kind ∧
      row.snapshotId ≠ current.snapshotId ∧ row.observedAt < current.observedAt) = rows :=
    List.filter_eq_self.mpr fun row hrow => decide_eq_true (hall row hrow)
  unfold previousRow
  rw [hfilter]
  cases rows using List.reverseRecOn with
  | nil => rfl
  | append_singleton rows last =>
    rw [List.getLast?_concat]
    have : Std.Total fun a b : SnapshotRow => b.observedAt < a.observedAt ∨
        b.observedAt = a.observedAt ∧ b.snapshotId ≤ a.snapshotId := by
      refine ⟨fun a b => ?_⟩
      rcases lt_trichotomy a.observedAt b.observedAt with h | h | h
      · exact .inr (.inl h)
      · exact (le_total a.snapshotId b.snapshotId).elim (fun hle => .inr (.inr ⟨h, hle⟩))
          fun hle => .inl (.inr ⟨h.symm, hle⟩)
      · exact .inl (.inl h)
    have : IsTrans SnapshotRow fun a b => b.observedAt < a.observedAt ∨
        b.observedAt = a.observedAt ∧ b.snapshotId ≤ a.snapshotId := by
      refine ⟨fun a b c h h' => ?_⟩
      rcases h with h | ⟨h, hid⟩ <;> rcases h' with h' | ⟨h', hid'⟩
      · exact .inl (h'.trans h)
      · exact .inl (h' ▸ h)
      · exact .inl (h ▸ h')
      · exact .inr ⟨h'.trans h, hid'.trans hid⟩
    refine head?_insertionSort (List.mem_append_right _ (List.mem_singleton_self last)) fun row hrow hbefore => ?_
    rcases List.mem_append.mp hrow with hrow | hrow
    · have hlt := (List.pairwise_append.mp hrows).2.2 row hrow last (List.mem_singleton_self last)
      rcases hbefore with h | ⟨h, _⟩
      · exact absurd (h.trans hlt) (lt_irrefl _)
      · exact absurd h hlt.ne'
    · exact List.mem_singleton.mp hrow

omit [DecidableEq κ] in
/-- The row of a run that is over. -/
theorem Played.snapshotOf {all played : List SnapshotRun} {db : SnapshotDb κ}
    (h : Played digest assetId eventType kind all played db)
    (hids : (played.map SnapshotRun.runId).Nodup) {run : SnapshotRun} (hrun : run ∈ played) :
    snapshotOf assetId kind db run = (storedAfter run.captures).map (run.row assetId kind) := by
  have hown (r : SnapshotRun) : ((storedAfter r.captures).map (r.row assetId kind)).any (fun row =>
      row.runId = run.runId ∧ row.assetId = assetId ∧ row.kind = kind) = true ↔
        r.runId = run.runId ∧ (storedAfter r.captures).isSome = true := by
    cases storedAfter r.captures <;> simp [SnapshotRun.row]
  unfold NightScout.snapshotOf
  rw [h.snapshots, List.find?_filterMap]
  cases hfound : played.find? fun r => ((storedAfter r.captures).map (r.row assetId kind)).any fun row =>
      row.runId = run.runId ∧ row.assetId = assetId ∧ row.kind = kind with
  | some r =>
    have hany := List.find?_some hfound
    have hsame : r = run := List.inj_on_of_nodup_map hids (List.mem_of_find?_eq_some hfound) hrun
      ((hown r).mp hany).1
    rw [hsame]
    rfl
  | none =>
    have hnot := List.find?_eq_none.mp hfound run hrun
    rw [hown] at hnot
    cases hstored : storedAfter run.captures with
    | none => rfl
    | some c => exact absurd ⟨rfl, by rw [hstored]; rfl⟩ hnot

omit [DecidableEq κ] in
/-- The row of the latest of them. -/
theorem Played.latestSnapshot {all played before : List SnapshotRun} {db : SnapshotDb κ}
    (h : Played digest assetId eventType kind all played db)
    (hids : (played.map SnapshotRun.runId).Nodup) (hbefore : ∀ run ∈ before, run ∈ played) :
    latestSnapshot assetId kind db before =
      (before.filterMap fun run => (storedAfter run.captures).map (run.row assetId kind)).getLast? := by
  unfold NightScout.latestSnapshot
  rw [← List.getLast?_filterMap]
  refine congrArg List.getLast? (List.filterMap_congr fun run hrun => ?_)
  exact h.snapshotOf hids (hbefore run hrun)

/-- What is stored on the way is captured, and not before the first capture. -/
theorem storedAfter_bounds {captures : List Capture} {c : Capture} (h : storedAfter captures = some c) :
    c ∈ captures ∧ ∀ first ∈ captures.head?, first.observedAt ≤ c.observedAt := by
  obtain ⟨before, after, rfl, hbefore, _⟩ := storedAfter_isLatest h
  refine ⟨List.mem_append_right _ List.mem_cons_self, fun first hfirst => ?_⟩
  cases before with
  | nil =>
    cases hfirst
    exact le_refl _
  | cons b before =>
    cases hfirst
    exact hbefore first List.mem_cons_self

theorem storedOnTheWay_bounds {captures : List Capture} {c : Capture} (h : c ∈ storedOnTheWay captures) :
    ∀ first ∈ captures.head?, first.observedAt ≤ c.observedAt := by
  obtain ⟨l, hruns, hstored⟩ := storedOnTheWay_isPrefix.mp h
  obtain ⟨hmem, hle⟩ := storedAfter_bounds hstored
  intro first hfirst
  cases l with
  | nil => cases hmem
  | cons b l =>
    obtain ⟨rest, rfl⟩ := hruns
    exact hle first hfirst

/-- In time, the row observed last before a state of the run is that of the latest run before. -/
theorem previousRow_latest {before : List SnapshotRun} {run : SnapshotRun}
    (hids : ((before ++ [run]).map SnapshotRun.snapshotId).Nodup) (hintime : InTime (before ++ [run]))
    {c : Capture} (hc : c ∈ storedOnTheWay run.captures) :
    previousRow (before.filterMap fun run => (storedAfter run.captures).map (run.row assetId kind))
        (run.row assetId kind c) =
      (before.filterMap fun run => (storedAfter run.captures).map (run.row assetId kind)).getLast? := by
  obtain ⟨hbefore, _, hcross⟩ := List.pairwise_append.mp hintime
  have hrow {row : SnapshotRow} (h : row ∈ before.filterMap fun run =>
      (storedAfter run.captures).map (run.row assetId kind)) :
      ∃ r ∈ before, ∃ c ∈ r.captures, row = r.row assetId kind c := by
    obtain ⟨r, hr, hstored⟩ := List.mem_filterMap.mp h
    obtain ⟨c, hc, rfl⟩ := Option.map_eq_some_iff.mp hstored
    exact ⟨r, hr, c, (storedAfter_bounds hc).1, rfl⟩
  -- a run stores nothing before its first observation
  have hlt {r : SnapshotRun} {c c' : Capture} {captures : List Capture} (hc : c ∈ r.captures)
      (hstored : ∀ first ∈ captures.head?, first.observedAt ≤ c'.observedAt) (hsome : captures ≠ [])
      (h : ∀ c ∈ r.captures, ∀ first ∈ captures.head?, c.observedAt < first.observedAt) :
      c.observedAt < c'.observedAt := by
    obtain ⟨first, rest, rfl⟩ := List.exists_cons_of_ne_nil hsome
    exact (h c hc first rfl).trans_le (hstored first rfl)
  apply previousRow_inTime
  · refine List.Pairwise.filterMap _ ?_ hbefore
    intro r r' hafter row hrowOf row' hrowOf'
    obtain ⟨c, hc, rfl⟩ := Option.map_eq_some_iff.mp hrowOf
    obtain ⟨c', hc', rfl⟩ := Option.map_eq_some_iff.mp hrowOf'
    obtain ⟨hmem', hfirst'⟩ := storedAfter_bounds hc'
    exact hlt (storedAfter_bounds hc).1 hfirst' (List.ne_nil_of_mem hmem') hafter
  · intro row hmem
    obtain ⟨r, hr, c', hc', rfl⟩ := hrow hmem
    refine ⟨rfl, rfl, ?_, ?_⟩
    · rw [List.map_append] at hids
      exact (List.nodup_append.mp hids).2.2 _ (List.mem_map_of_mem hr) _ (List.mem_singleton_self _)
    · have hsome : run.captures ≠ [] := by
        rintro hnil
        rw [hnil] at hc
        cases hc
      exact hlt hc' (storedOnTheWay_bounds hc) hsome (hcross r hr run (List.mem_singleton_self run))

end Playing

/-- **The change log.** When a run ends, its row is the latest of its observations; it has recorded what this state
    has changed against the run before, once each, if and only if this is what the states on the way have changed;
    and as long as time goes on from run to run, if and only if no state on the way has a change that the last one
    does not have. -/
theorem snapshot_change_log {κ : Type} [DecidableEq κ] {digest : ChangePayload → κ}
    (hdigest : Function.Injective digest) (assetId : String) (eventType : EventType) (kind : SnapshotKind)
    (history : SnapshotHistory) {before after : List SnapshotRun} {run : SnapshotRun}
    (hsplit : history.runs = before ++ run :: after) (hcaptures : run.captures ≠ []) :
    let earlier := playRuns digest assetId kind (startDb assetId eventType κ history.runs) before
    let db := playRun digest assetId kind earlier run
    ∃ c, snapshotOf assetId kind db run = some (run.row assetId kind c) ∧ IsLatest run.captures c ∧
      (LogsLastState assetId eventType kind before run db (run.row assetId kind c) ↔
        FindsLastState assetId eventType kind before run earlier db (run.row assetId kind c)) ∧
      (InTime (before ++ [run]) →
        (LogsLastState assetId eventType kind before run db (run.row assetId kind c) ↔
          NothingPasses assetId eventType kind before run db (run.row assetId kind c))) := by
  intro earlier db
  -- the run is played after the ones before it
  have hruns : history.runs = (before ++ [run]) ++ after := by
    rw [hsplit, List.append_assoc]
    rfl
  have hids : ((before ++ [run]).map SnapshotRun.runId).Nodup := by
    have hnodup := history.runIds_nodup
    rw [hruns, List.map_append] at hnodup
    exact (List.nodup_append.mp hnodup).1
  have hids' : ((before ++ [run]).map SnapshotRun.snapshotId).Nodup := by
    have hnodup := history.snapshotIds_nodup
    rw [hruns, List.map_append] at hnodup
    exact (List.nodup_append.mp hnodup).1
  have hbefore : Played digest assetId eventType kind history.runs before earlier :=
    played_before hdigest history.runIds_nodup history.snapshotIds_nodup hsplit
  have hfresh : Fresh digest assetId eventType kind earlier run := by
    refine hbefore.fresh (hsplit ▸ List.mem_append_right _ List.mem_cons_self) fun r hr => ?_
    rw [List.map_append] at hids hids'
    exact ⟨(List.nodup_append.mp hids).2.2 _ (List.mem_map_of_mem hr) _ (List.mem_singleton_self _),
      (List.nodup_append.mp hids').2.2 _ (List.mem_map_of_mem hr) _ (List.mem_singleton_self _)⟩
  have hinRun : InRun digest assetId eventType kind earlier run run.captures db := hfresh.run hdigest
  have hplayed := hinRun.played hbefore
  cases hstored : storedAfter run.captures with
  | none =>
    rw [storedAfter_eq_none] at hstored
    exact absurd hstored hcaptures
  | some c =>
    have hlogs : LogsLastState assetId eventType kind before run db (run.row assetId kind c) ↔
        FindsLastState assetId eventType kind before run earlier db (run.row assetId kind c) := by
      unfold LogsLastState FindsLastState
      rw [hinRun.recorded, List.perm_ext_iff_of_nodup (nodup_fromkeys _) (loggedDiff_nodup _ _ _)]
      simp only [mem_fromkeys]
    refine ⟨c, ?_, storedAfter_isLatest hstored, hlogs, fun hintime => hlogs.trans ?_⟩
    · rw [hplayed.snapshotOf hids (List.mem_append_right _ (List.mem_singleton_self run)), hstored]
      rfl
    -- the row observed last before is that of the run before
    have hprevious {c : Capture} (hc : c ∈ storedOnTheWay run.captures) :
        previousRow earlier.snapshots (run.row assetId kind c) = latestSnapshot assetId kind db before := by
      rw [hbefore.snapshots, previousRow_latest hids' hintime hc,
        hplayed.latestSnapshot hids fun r hr => List.mem_append_left _ hr]
    have hlast : c ∈ storedOnTheWay run.captures :=
      storedOnTheWay_isPrefix.mpr ⟨run.captures, List.prefix_rfl, hstored⟩
    unfold FindsLastState NothingPasses foundOnTheWay
    simp only [List.mem_flatMap]
    constructor
    · intro h c' hc' change hchange
      exact (h change).mp ⟨c', hc', by rwa [hprevious hc']⟩
    · intro h change
      constructor
      · rintro ⟨c', hc', hchange⟩
        rw [hprevious hc'] at hchange
        exact h c' hc' change hchange
      · intro hchange
        exact ⟨c, hlast, by rwa [hprevious hlast]⟩

/-- A run that finds a page. -/
def pageThere : SnapshotRun where
  runId := "monday"
  snapshotId := "page-monday"
  captures := [⟨{ statusCode := some 200 }, 1⟩]

/-- A run that finds it gone, and then back. -/
def pageFlaps : SnapshotRun where
  runId := "tuesday"
  snapshotId := "page-tuesday"
  captures := [⟨{ statusCode := some 404 }, 2⟩, ⟨{ statusCode := some 200 }, 3⟩]

def flappingPage : SnapshotHistory where
  runs := [pageThere, pageFlaps]

theorem snapshot_change_log_flapping :
    let earlier := playRuns id "page" .http (startDb "page" .url ChangePayload flappingPage.runs) [pageThere]
    let db := playRun id "page" .http earlier pageFlaps
    ∃ c, snapshotOf "page" .http db pageFlaps = some (pageFlaps.row "page" .http c) ∧
      IsLatest pageFlaps.captures c ∧
      (LogsLastState "page" .url .http [pageThere] pageFlaps db (pageFlaps.row "page" .http c) ↔
        NothingPasses "page" .url .http [pageThere] pageFlaps db (pageFlaps.row "page" .http c)) := by
  intro earlier db
  obtain ⟨c, hrow, hlatest, _, hintime⟩ := snapshot_change_log Function.injective_id "page" .url .http
    flappingPage (show flappingPage.runs = [pageThere] ++ pageFlaps :: [] from rfl) (List.cons_ne_nil _ _)
  exact ⟨c, hrow, hlatest, hintime (by unfold InTime; decide)⟩

/-- The last state of the run is that of the run before, and it has recorded that the page was gone. -/
theorem passing_state_is_logged :
    ¬ ∀ (history : SnapshotHistory) (before after : List SnapshotRun) (run : SnapshotRun) (c : Capture),
      history.runs = before ++ run :: after → InTime (before ++ [run]) →
      let earlier := playRuns id "page" .http (startDb "page" .url ChangePayload history.runs) before
      let db := playRun id "page" .http earlier run
      snapshotOf "page" .http db run = some (run.row "page" .http c) →
        LogsLastState "page" .url .http before run db (run.row "page" .http c) := by
  intro h
  have hlogs := h flappingPage [pageThere] [] pageFlaps ⟨{ statusCode := some 200 }, 3⟩ rfl
    (by unfold InTime; decide) rfl
  exact absurd hlogs.length_eq (by decide)

end NightScout
