import NightScout.Lib.OrderedSets
import NightScout.Surface.Models

/-!
# Snapshots of the surface

`recon/storage/snapshots.py`: the state of an asset in a run, the comparison of two states, and the two tables they
are kept in. `capture` keeps one row for a run, an asset and a kind of state, and rewrites it in place;
`diff_and_record` compares a row with the one observed last before it, and adds the changes that are not recorded
yet.

A state is held as its validators leave it, dictionaries in the order of their keys. The digest in the key of a
change is a parameter, and so are the identifiers of rows; the identifier of a change is read by nothing and left
out.
-/

namespace NightScout

open Lib

/-! ## Comparing dictionaries -/

/-- The number a value is for `==`. -/
def JsonValue.number? : JsonValue → Option ℚ
  | .bool b => some (if b then 1 else 0)
  | .int n => some n
  | .float x => some x
  | _ => none

mutual

/-- Python's `==`. -/
def JsonValue.pyEq : JsonValue → JsonValue → Bool
  | .null, .null => true
  | .infinity a, .infinity b => a = b
  | .string a, .string b => a = b
  | .array as, .array bs => JsonValue.pyEqItems as bs
  | .object as, .object bs => as.length = bs.length && JsonValue.pyEqEntries as bs
  | a, b =>
    match a.number?, b.number? with
    | some x, some y => x = y
    | _, _ => false

def JsonValue.pyEqItems : List JsonValue → List JsonValue → Bool
  | [], [] => true
  | a :: as, b :: bs => JsonValue.pyEq a b && JsonValue.pyEqItems as bs
  | _, _ => false

def JsonValue.pyEqEntries : List (String × JsonValue) → List (String × JsonValue) → Bool
  | [], _ => true
  | (k, a) :: as, bs =>
    (match bs.lookup k with
      | some b => JsonValue.pyEq a b
      | none => false) && JsonValue.pyEqEntries as bs

end

/-! ## States -/

inductive SnapshotKind where
  | dns | http | tls | javascript | api | asset
  deriving DecidableEq, Repr

inductive ChangeType where
  | newHost | newUrl | newEndpoint | newCertSan | newJavascript | newAsset
  | resurrectedHost | reappearedAsset
  | disappearedHost | disappearedAsset
  | ipChanged | statusChanged | titleChanged | bodyHashChanged | certificateChanged | scopeChanged
  | stateChanged
  deriving DecidableEq, Repr

structure SurfaceState where
  present : Bool := true
  ips : List String := []
  statusCode : Option ℤ := none
  title : Option String := none
  bodyHash : Option String := none
  certificateFingerprints : List String := []
  certificateSans : List String := []
  javascriptHashes : List String := []
  endpointKeys : List String := []
  scopeState : Option ScopeState := none
  extra : List (String × JsonValue) := []
  status_range : ∀ code ∈ statusCode, 100 ≤ code ∧ code ≤ 599 := by decide
  /-- `absence_has_no_live_state`. -/
  absent : present = false → ips = [] ∧ statusCode = none ∧ title = none ∧ bodyHash = none ∧
    certificateFingerprints = [] ∧ certificateSans = [] ∧ javascriptHashes = [] ∧ endpointKeys = [] := by
      decide
  deriving DecidableEq

structure SurfaceSnapshot where
  snapshotId : String
  runId : String
  assetId : String
  assetEventType : EventType
  kind : SnapshotKind
  observedAt : Instant
  state : SurfaceState

/-- An entry of the `before`, `after` or `details` of a change. -/
abbrev ChangeEntry := String × JsonValue

structure SurfaceChange where
  changeType : ChangeType
  before : List ChangeEntry := []
  after : List ChangeEntry := []
  details : List ChangeEntry := []
  deriving DecidableEq

/-! ## The comparison -/

def textsJson (texts : List String) : JsonValue := .array (texts.map .string)

def textJson : Option String → JsonValue
  | none => .null
  | some text => .string text

def stateSummary (state : SurfaceState) : List ChangeEntry :=
  [("present", .bool state.present), ("ips", textsJson state.ips),
    ("status_code", (state.statusCode.map JsonValue.int).getD .null), ("title", textJson state.title),
    ("body_hash", textJson state.bodyHash),
    ("certificate_fingerprints", textsJson state.certificateFingerprints),
    ("certificate_sans", textsJson state.certificateSans),
    ("javascript_hashes", textsJson state.javascriptHashes),
    ("endpoint_keys", textsJson state.endpointKeys),
    ("scope_state", textJson (state.scopeState.map ScopeState.value)), ("extra", .object state.extra)]

def initialChangeType : EventType → ChangeType
  | .dnsName => .newHost | .url => .newUrl | .apiEndpoint => .newEndpoint | .certSan => .newCertSan
  | .javascript => .newJavascript | _ => .newAsset

def reappearanceChangeType : EventType → ChangeType
  | .dnsName => .resurrectedHost | _ => .reappearedAsset

def disappearanceChangeType : EventType → ChangeType
  | .dnsName => .disappearedHost | _ => .disappearedAsset

/-- `sorted(set(xs) - set(ys))`. -/
def sortedDifference (xs ys : List String) : List String := sortedSet id (xs.filter (· ∉ ys))

/-- `changes.append(change)` under a condition. -/
def changeIf (condition : Prop) [Decidable condition] (change : SurfaceChange) : List SurfaceChange :=
  if condition then [change] else []

/-- The changes between two states that are both present, in the order they are appended. -/
def stateChanges (previous current : SurfaceState) : List SurfaceChange :=
  let newSans := sortedDifference current.certificateSans previous.certificateSans
  let newJs := sortedDifference current.javascriptHashes previous.javascriptHashes
  let newEndpoints := sortedDifference current.endpointKeys previous.endpointKeys
  changeIf (previous.ips ≠ current.ips) {
    changeType := .ipChanged
    before := [("ips", textsJson previous.ips)]
    after := [("ips", textsJson current.ips)]
    details := [("added", textsJson (sortedDifference current.ips previous.ips)),
      ("removed", textsJson (sortedDifference previous.ips current.ips))] } ++
  (changeIf (previous.statusCode ≠ current.statusCode) {
    changeType := .statusChanged
    before := [("status_code", (previous.statusCode.map JsonValue.int).getD .null)]
    after := [("status_code", (current.statusCode.map JsonValue.int).getD .null)] } ++
  (changeIf (previous.title ≠ current.title) {
    changeType := .titleChanged
    before := [("title", textJson previous.title)]
    after := [("title", textJson current.title)] } ++
  (changeIf (previous.bodyHash ≠ current.bodyHash) {
    changeType := .bodyHashChanged
    before := [("body_hash", textJson previous.bodyHash)]
    after := [("body_hash", textJson current.bodyHash)] } ++
  (changeIf (previous.certificateFingerprints ≠ current.certificateFingerprints) {
    changeType := .certificateChanged
    before := [("certificate_fingerprints", textsJson previous.certificateFingerprints)]
    after := [("certificate_fingerprints", textsJson current.certificateFingerprints)] } ++
  (changeIf (newSans ≠ []) {
    changeType := .newCertSan
    after := [("certificate_sans", textsJson newSans)]
    details := [("added", textsJson newSans)] } ++
  (changeIf (newJs ≠ []) {
    changeType := .newJavascript
    after := [("javascript_hashes", textsJson newJs)]
    details := [("added", textsJson newJs)] } ++
  (changeIf (newEndpoints ≠ []) {
    changeType := .newEndpoint
    after := [("endpoint_keys", textsJson newEndpoints)]
    details := [("added", textsJson newEndpoints)] } ++
  (changeIf (previous.scopeState ≠ current.scopeState) {
    changeType := .scopeChanged
    before := [("scope_state", textJson (previous.scopeState.map ScopeState.value))]
    after := [("scope_state", textJson (current.scopeState.map ScopeState.value))] } ++
  changeIf ((JsonValue.object previous.extra).pyEq (.object current.extra) = false) {
    changeType := .stateChanged
    before := [("extra", .object previous.extra)]
    after := [("extra", .object current.extra)] }))))))))

def diffSnapshots (previous : Option SurfaceSnapshot) (current : SurfaceSnapshot) :
    Except PyError (List SurfaceChange) :=
  match previous with
  | none =>
    .ok (if current.state.present then
      [{ changeType := initialChangeType current.assetEventType
         after := stateSummary current.state
         details := [("initial_observation", .bool true)] }] else [])
  | some previous =>
    if previous.assetId ≠ current.assetId then
      .error (.valueError "cannot diff snapshots for different assets")
    else if previous.kind ≠ current.kind then
      .error (.valueError "cannot diff different snapshot kinds")
    else .ok (match previous.state.present, current.state.present with
      | false, true =>
        [{ changeType := reappearanceChangeType current.assetEventType
           before := stateSummary previous.state, after := stateSummary current.state }]
      | true, false =>
        [{ changeType := disappearanceChangeType current.assetEventType
           before := stateSummary previous.state, after := stateSummary current.state }]
      | false, false => []
      | true, true => stateChanges previous.state current.state)

/-! ## The tables -/

/-- A row of `surface_snapshots`. -/
structure SnapshotRow where
  snapshotId : String
  runId : String
  assetId : String
  kind : SnapshotKind
  observedAt : Instant
  state : SurfaceState
  deriving DecidableEq

/-- `_snapshot_from_record`. -/
def SnapshotRow.toSnapshot (row : SnapshotRow) (assetEventType : EventType) : SurfaceSnapshot where
  snapshotId := row.snapshotId
  runId := row.runId
  assetId := row.assetId
  assetEventType
  kind := row.kind
  observedAt := row.observedAt
  state := row.state

/-- What `_change_key` digests. -/
structure ChangePayload where
  assetId : String
  previousSnapshotId : Option String
  currentSnapshotId : String
  change : SurfaceChange
  deriving DecidableEq

/-- A row of `snapshot_changes`. -/
structure ChangeRow (κ : Type) where
  runId : String
  assetId : String
  previousSnapshotId : Option String
  currentSnapshotId : String
  changeKey : κ
  detectedAt : Instant
  change : SurfaceChange

structure SnapshotDb (κ : Type) where
  /-- The runs there are. -/
  runs : List String
  /-- The assets there are, with their types. -/
  assets : Dict String EventType
  snapshots : List SnapshotRow := []
  changes : List (ChangeRow κ) := []

structure CaptureResult where
  snapshot : SurfaceSnapshot
  created : Bool
  changedWithinRun : Bool

namespace SnapshotDb

variable {κ : Type} (db : SnapshotDb κ)

/-- `capture`. `snapshotId` is what a new row is called. -/
def capture (runId assetId : String) (kind : SnapshotKind) (state : SurfaceState) (observedAt : Instant)
    (snapshotId : String) : Except PyError CaptureResult × SnapshotDb κ :=
  if runId ∉ db.runs then (.error (.keyError ("unknown run_id: " ++ runId)), db)
  else
    match db.assets.get? assetId with
    | none => (.error (.keyError ("unknown asset_id: " ++ assetId)), db)
    | some eventType =>
      match db.snapshots.find? fun row => row.runId = runId ∧ row.assetId = assetId ∧ row.kind = kind with
      | none =>
        let row : SnapshotRow := { snapshotId, runId, assetId, kind, observedAt, state }
        (.ok ⟨row.toSnapshot eventType, true, false⟩, { db with snapshots := db.snapshots ++ [row] })
      | some existing =>
        let row := if existing.observedAt ≤ observedAt then { existing with observedAt, state } else existing
        (.ok ⟨row.toSnapshot eventType, false, existing.state ≠ state⟩,
          { db with snapshots := db.snapshots.map fun r =>
              if r.snapshotId = existing.snapshotId then row else r })

/-- The row observed last before the row, of the rows for its asset and its kind. -/
def previousRow (rows : List SnapshotRow) (current : SnapshotRow) : Option SnapshotRow :=
  ((rows.filter fun row => row.assetId = current.assetId ∧ row.kind = current.kind ∧
      row.snapshotId ≠ current.snapshotId ∧ row.observedAt < current.observedAt).insertionSort fun a b =>
    b.observedAt < a.observedAt ∨ b.observedAt = a.observedAt ∧ b.snapshotId ≤ a.snapshotId).head?

variable [DecidableEq κ] (digest : ChangePayload → κ)

/-- One change of `diff_and_record`: it is added if the run has no change with its key. -/
def recordChange (changes : List (ChangeRow κ)) (previous : Option SurfaceSnapshot)
    (current : SurfaceSnapshot) (change : SurfaceChange) : List (ChangeRow κ) :=
  let previousSnapshotId := previous.map fun p => p.snapshotId
  let changeKey := digest ⟨current.assetId, previousSnapshotId, current.snapshotId, change⟩
  if changes.any fun row => row.runId = current.runId ∧ row.changeKey = changeKey then changes
  else changes ++ [{
    runId := current.runId
    assetId := current.assetId
    previousSnapshotId
    currentSnapshotId := current.snapshotId
    changeKey
    detectedAt := current.observedAt
    change }]

/-- `diff_and_record`. The changes it returns are those of the comparison. -/
def diffAndRecord (snapshotId : String) : Except PyError (List SurfaceChange) × SnapshotDb κ :=
  match db.snapshots.find? fun row => row.snapshotId = snapshotId with
  | none => (.error (.keyError ("unknown snapshot: " ++ snapshotId)), db)
  | some currentRow =>
    match db.assets.get? currentRow.assetId with
    | none => (.error (.runtimeError "surface snapshot references missing asset"), db)
    | some eventType =>
      let current := currentRow.toSnapshot eventType
      let previous := (previousRow db.snapshots currentRow).map fun row => row.toSnapshot eventType
      match diffSnapshots previous current with
      | .error e => (.error e, db)
      | .ok changes =>
        (.ok changes, { db with
          changes := changes.foldl (fun rows change => recordChange digest rows previous current change)
            db.changes })

/-- What the runtime does with an observation: an error is a warning. -/
def captureAndDiff (runId assetId : String) (kind : SnapshotKind) (state : SurfaceState)
    (observedAt : Instant) (snapshotId : String) : SnapshotDb κ :=
  match db.capture runId assetId kind state observedAt snapshotId with
  | (.error _, db') => db'
  | (.ok result, db') => (db'.diffAndRecord digest result.snapshot.snapshotId).2

end SnapshotDb

end NightScout
