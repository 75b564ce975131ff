import NightScout.Core.Queue
import NightScout.Core.Router
import NightScout.Lib.Programs
import NightScout.Storage.EventRepository

/-!
# The event bus

`RuntimeEventBus.publish` of `recon/runtime.py`: an event is prepared, ingested, and, if that made an
observation, appended to the log, linked to its parent, projected, captured and routed. The write lock is
held from the ingestion to the end of the routing, so that much is one program on the state; the events
derived from it afterwards are published by calls of their own. Metrics are left out.

Each collaborator may raise (`PublishCall`). What the projector, the snapshots and the branches store is
not modelled, only that they did it.
-/

namespace NightScout

open Lib

structure BusConfiguration where
  runId : Option String := none
  projectSurfaceRelationships : Bool := true
  snapshotCapture : Bool := true
  disabledWorkers : List String := []

/-- The state behind the bus, with the tasks in a store of `σ`. -/
structure BusState (σ : Type) where
  events : EventDb
  tasks : σ
  /-- The events in the event log. -/
  eventLog : List String := []
  /-- The events whose primary parent was captured. -/
  primaryParents : List String := []
  /-- The events whose relationships were projected. -/
  projected : List String := []
  /-- The events whose snapshot was captured. -/
  snapshots : List String := []
  /-- The branches that were ensured. -/
  branches : List String := []
  warnings : List String := []

/-- A call of `publish`, and how its collaborators behave. -/
structure PublishCall where
  event : Event
  /-- `_prepare_event`: scope, confidence and novelty. -/
  prepared : Except PyError Event
  prepared_id : ∀ normalized, prepared = .ok normalized → normalized.eventId = event.eventId
  /-- The branch the call is bound to. -/
  branchId : Option String := none
  /-- The identifier of a new asset. -/
  assetId : String
  runStored : Bool := true
  /-- The identifiers of new tasks, and whether the rows a task refers to are stored. -/
  taskIds : ℕ → String
  foreignKeys : ℕ → Bool := fun _ => true
  now : Instant
  ingestError : Option PyError := none
  logError : Option PyError := none
  parentError : Option PyError := none
  /-- The warnings of the projection. -/
  projection : Except PyError (List String) := .ok []
  snapshotError : Option PyError := none
  branchError : Option PyError := none
  enqueueError : ℕ → Option PyError := fun _ => none
  /-- What the derived events raise. -/
  followUpError : Option PyError := none

section Bus

variable (lower : String → String) (lib : Sanitizer) (knownKind : String → Bool) (router : Router)
    (config : BusConfiguration) {σ : Type} (store : TaskStore σ)

namespace PublishCall

def context (call : PublishCall) : RoutingContext where
  branchId := call.branchId
  disabledWorkers := config.disabledWorkers

def ingest (call : PublishCall) (normalized : Event) : Prog (BusState σ) PyError EventWriteResult :=
  .act fun s =>
    match call.ingestError with
    | some e => (.error e, s)
    | none =>
      let r := s.events.ingest lib normalized config.runId call.assetId call.runStored
      (r.1, { s with events := r.2 })

/-- `_event_log.append`. -/
def appendLog (call : PublishCall) (normalized : Event) : Prog (BusState σ) PyError Unit := do
  .raising call.logError
  .write fun s => { s with eventLog := normalized.eventId :: s.eventLog }

def warn (message : String) : Prog (BusState σ) PyError Unit :=
  .write fun s => { s with warnings := s.warnings ++ [message] }

/-- `_provenance.capture_primary_parent`, with its handler. -/
def captureParent (call : PublishCall) (normalized : Event) : Prog (BusState σ) PyError Unit :=
  match normalized.parentEventId with
  | none => pure ()
  | some _ =>
    match call.parentError with
    | none => .write fun s => { s with primaryParents := normalized.eventId :: s.primaryParents }
    | some e =>
      if e.isKeyOrValue then warn s!"provenance edge skipped for {normalized.eventId}"
      else .answer (.error e)

def project (call : PublishCall) (normalized : Event) : Prog (BusState σ) PyError Unit :=
  if config.projectSurfaceRelationships then do
    let warnings ← .answer call.projection
    .write fun s => { s with
      projected := normalized.eventId :: s.projected
      warnings := s.warnings ++ warnings.map fun warning =>
        s!"surface relationship skipped for {normalized.eventId}: {warning}" }
  else pure ()

/-- `_capture_snapshot`, with its handler. -/
def captureSnapshot (call : PublishCall) (normalized : Event) : Prog (BusState σ) PyError Unit :=
  if config.runId = none ∨ config.snapshotCapture = false then pure ()
  else
    match normalized.metadata.get? "snapshot_kind", normalized.metadata.get? "surface_state" with
    | some (.string kind), some (.object _) =>
      if !knownKind kind then warn s!"unknown snapshot kind on event {normalized.eventId}"
      else
        match call.snapshotError with
        | none => .write fun s => { s with snapshots := normalized.eventId :: s.snapshots }
        | some e =>
          if e.isKeyOrValue then warn s!"snapshot skipped for {normalized.eventId}"
          else .answer (.error e)
    | _, _ => pure ()

/-- `_branches.ensure`, if the call is bound to a branch. -/
def ensureBranch (call : PublishCall) : Prog (BusState σ) PyError Unit :=
  match call.branchId with
  | none => pure ()
  | some branchId => do
    .raising call.branchError
    .write fun s => { s with branches := branchId :: s.branches }

/-- One round of `enqueue_many`. -/
def enqueue (call : PublishCall) (i : ℕ) (task : Task) : Prog (BusState σ) PyError Unit := do
  .raising (call.enqueueError i)
  .act fun s =>
    let r := TaskQueue.enqueue store s.tasks task call.now config.runId (call.foreignKeys i)
    (r.1.map fun _ => (), { s with tasks := r.2 })

/-- `enqueue_many`, from the `i`-th task on. -/
def enqueueMany (call : PublishCall) : ℕ → List Task → Prog (BusState σ) PyError Unit
  | _, [] => pure ()
  | i, task :: tasks => do
    call.enqueue config store i task
    enqueueMany call (i + 1) tasks

def route (call : PublishCall) (normalized : Event) : Prog (BusState σ) PyError Unit := do
  call.ensureBranch
  let tasks ← .answer (router.expand lower normalized (call.context config) call.taskIds call.now)
  call.enqueueMany config store 0 tasks

/-- What follows an ingestion that made an observation, up to the end of the write lock. -/
def envelope (call : PublishCall) (normalized : Event) : Prog (BusState σ) PyError Unit := do
  call.appendLog normalized
  call.captureParent normalized
  call.project config normalized
  call.captureSnapshot knownKind config normalized
  call.route lower router config store normalized

def publish (call : PublishCall) : Prog (BusState σ) PyError Bool := do
  let normalized ← .answer call.prepared
  let write ← call.ingest lib config normalized
  if write.observationCreated = false then pure false
  else do
    call.envelope lower knownKind router config store normalized
    .raising call.followUpError
    pure true

end PublishCall

end Bus

end NightScout
