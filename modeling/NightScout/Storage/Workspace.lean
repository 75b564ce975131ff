import NightScout.Core.Python
import NightScout.Lib.Run

/-!
# The target a workspace belongs to

`recon/storage/workspace.py`. A database holds what was learned about *one* target, and its
`workspace_metadata` row (at most one: `singleton_id = 1` is its key and its check) says which.
`bind_or_validate` writes that row, or refuses, after reconciling it with the target ids of the
recorded runs and with whatever else an older version left behind.

The body of the transaction raises or gives what is committed: a raise abandons its writes.
A text shown with `!r` goes through `repr`, whose escapes follow the interpreter's Unicode tables.
-/

namespace NightScout

open Lib

/-- A row of `recon_runs`, as far as the binding reads and writes it. -/
structure ReconRunRecord where
  runId : String
  targetId : Option String
  deriving DecidableEq, Repr

/-- The row of `workspace_metadata`. -/
structure WorkspaceMetadataRecord where
  targetId : String
  schemaVersion : ℕ
  deriving DecidableEq, Repr

/-- One database: the singleton row, the runs, and how many rows every other table has. -/
structure WorkspaceDatabase where
  workspaceMetadata : Option WorkspaceMetadataRecord
  reconRuns : List ReconRunRecord
  otherTables : List ℕ
  deriving DecidableEq, Repr

/-- `class WorkspaceBindingError(RuntimeError)` and its three subclasses, and the `ValueError`. -/
inductive WorkspaceError where
  | valueError (message : String)
  | targetMismatch (message : String)
  | contaminated (message : String)
  | unbound (message : String)
  deriving DecidableEq, Repr

structure WorkspaceBinding where
  targetId : String
  created : Bool
  adoptedFromHistory : Bool
  deriving DecidableEq, Repr

namespace ReconRunRecord

/-- The target id a run counts for in the history: not null and not blank. -/
def attribution (run : ReconRunRecord) : Option String :=
  run.targetId.filter fun value => strip value ≠ ""

/-- `update(ReconRunRecord).where(target_id IS NULL).values(target_id=…)`, for one row. -/
def withTarget (targetId : String) (run : ReconRunRecord) : ReconRunRecord :=
  { run with targetId := some (run.targetId.getD targetId) }

theorem attribution_of_some {run : ReconRunRecord} {t : String} (h : run.targetId = some t)
    (ht : strip t ≠ "") : run.attribution = some t := by
  rw [attribution, h]
  simp [Option.filter, ht]

theorem attribution_withTarget {run : ReconRunRecord} {t u : String}
    (h : (run.withTarget t).attribution = some u) : u = t ∨ run.attribution = some u := by
  cases hrun : run.targetId with
  | none =>
    left
    have hfilter : (some t).filter (fun value => strip value ≠ "") = some u := by
      simpa [attribution, withTarget, hrun] using h
    exact (Option.mem_filter_iff.mp hfilter).1 |> Option.some.inj |> Eq.symm
  | some v =>
    right
    simpa [attribution, withTarget, hrun] using h

end ReconRunRecord

namespace WorkspaceDatabase

/-- A database at migration head with nothing in it. -/
def empty : WorkspaceDatabase where
  workspaceMetadata := none
  reconRuns := []
  otherTables := []

/-- The target the database is bound to. -/
def boundTo (db : WorkspaceDatabase) : Option String := db.workspaceMetadata.map (·.targetId)

/-- The `history` of `bind_or_validate`: the distinct target ids of the attributed runs. -/
def history (db : WorkspaceDatabase) : List String :=
  (db.reconRuns.filterMap ReconRunRecord.attribution).dedup

def hasPersistedData (db : WorkspaceDatabase) : Bool :=
  decide (0 < db.reconRuns.length) || db.otherTables.any fun count => decide (0 < count)

/-- Every row of `recon_runs` that carries no target id is given one. -/
def attributeRuns (db : WorkspaceDatabase) (targetId : String) : WorkspaceDatabase :=
  { db with reconRuns := db.reconRuns.map (ReconRunRecord.withTarget targetId) }

/-- `session.add(WorkspaceMetadataRecord(…))`. -/
def addMarker (db : WorkspaceDatabase) (targetId : String) : WorkspaceDatabase :=
  { db with workspaceMetadata := some { targetId, schemaVersion := 1 } }

def start (db : WorkspaceDatabase) (runId : String) (targetId : Option String) :
    WorkspaceDatabase :=
  { db with reconRuns := db.reconRuns ++ [{ runId, targetId }] }

@[simp] theorem boundTo_attributeRuns (db : WorkspaceDatabase) (t : String) :
    (db.attributeRuns t).boundTo = db.boundTo := rfl

@[simp] theorem boundTo_addMarker (db : WorkspaceDatabase) (t : String) : (db.addMarker t).boundTo = some t := rfl

@[simp] theorem boundTo_start (db : WorkspaceDatabase) (runId : String) (t : Option String) :
    (db.start runId t).boundTo = db.boundTo := rfl

@[simp] theorem history_addMarker (db : WorkspaceDatabase) (t : String) : (db.addMarker t).history = db.history := rfl

@[simp] theorem attributeRuns_addMarker (db : WorkspaceDatabase) (t u : String) :
    (db.addMarker t).attributeRuns u = (db.attributeRuns u).addMarker t := rfl

theorem mem_history {db : WorkspaceDatabase} {t : String} :
    t ∈ db.history ↔ ∃ run ∈ db.reconRuns, run.attribution = some t := by
  simp [history]

/-- Every attributed run carries this target id. -/
def RunsCarry (db : WorkspaceDatabase) (t : String) : Prop := ∀ u ∈ db.history, u = t

theorem RunsCarry.attributeRuns {db : WorkspaceDatabase} {t : String} (h : db.RunsCarry t) :
    (db.attributeRuns t).RunsCarry t := by
  intro u hu
  obtain ⟨run, hrun, hattribution⟩ := mem_history.mp hu
  obtain ⟨before, hbefore, rfl⟩ := List.mem_map.mp hrun
  rcases ReconRunRecord.attribution_withTarget hattribution with rfl | hold
  · rfl
  · exact h u (mem_history.mpr ⟨before, hbefore, hold⟩)

theorem RunsCarry.start {db : WorkspaceDatabase} {t : String} (h : db.RunsCarry t)
    (runId : String) : (db.start runId (some t)).RunsCarry t := by
  intro u hu
  obtain ⟨run, hrun, hattribution⟩ := mem_history.mp hu
  rcases List.mem_append.mp hrun with hold | hnew
  · exact h u (mem_history.mpr ⟨run, hold, hattribution⟩)
  · rw [List.mem_singleton.mp hnew] at hattribution
    exact (Option.some.inj (Option.mem_filter_iff.mp hattribution).1).symm

/-- A history of at most one target id that all runs carry is empty or that target alone. -/
theorem history_of_runsCarry {db : WorkspaceDatabase} {t : String} (h : db.RunsCarry t) :
    db.history = [] ∨ db.history = [t] := by
  have hnodup : db.history.Nodup := List.nodup_dedup _
  cases hhistory : db.history with
  | nil => exact Or.inl rfl
  | cons u rest =>
    right
    have hu : u = t := h u (by simp [hhistory])
    cases rest with
    | nil => rw [hu]
    | cons v rest =>
      have hv : v = t := h v (by simp [hhistory])
      rw [hhistory, hu, hv] at hnodup
      simp at hnodup

end WorkspaceDatabase

/-! ## `WorkspaceRepository.bind_or_validate` -/

section Binding

open WorkspaceDatabase

variable (repr : String → String)

/-- The body of the transaction, for a target id that is stripped and not blank. -/
def bindTransaction (normalized : String) (allowUnattributedAdoption : Bool)
    (db : WorkspaceDatabase) : Except WorkspaceError (WorkspaceBinding × WorkspaceDatabase) :=
  if db.history.length > 1 then
    .error (.contaminated ("workspace contains runs attributed to multiple targets: " ++
      ", ".intercalate (sortedTexts db.history.toFinset) ++
      "; use a fresh target workspace and recover data manually"))
  else
    match db.workspaceMetadata with
    | some marker =>
      if marker.targetId ≠ normalized then
        .error (.targetMismatch ("workspace belongs to target " ++ repr marker.targetId ++
          ", but scope requests " ++ repr normalized ++
          "; select the matching scope or a different workspace"))
      else
        match db.history with
        | historical :: _ =>
          if historical ≠ normalized then
            .error (.contaminated ("workspace marker is " ++ repr normalized ++
              ", but historical runs belong to " ++ repr historical))
          else
            .ok ({ targetId := normalized, created := false, adoptedFromHistory := false },
              db.attributeRuns normalized)
        | [] =>
          .ok ({ targetId := normalized, created := false, adoptedFromHistory := false },
            db.attributeRuns normalized)
    | none =>
      match db.history with
      | historical :: _ =>
        if historical ≠ normalized then
          .error (.targetMismatch ("unbound legacy workspace contains runs for " ++
            repr historical ++ ", but scope requests " ++ repr normalized))
        else
          .ok ({ targetId := normalized, created := true, adoptedFromHistory := true },
            (db.addMarker normalized).attributeRuns normalized)
      | [] =>
        if db.hasPersistedData && !allowUnattributedAdoption then
          .error (.unbound ("populated legacy workspace has no target attribution; inspect it, " ++
            "then run 'nightscout workspace adopt' with the intended scope"))
        else
          .ok ({ targetId := normalized, created := true, adoptedFromHistory := false },
            (db.addMarker normalized).attributeRuns normalized)

/-- What the transaction leaves: its writes if the body returned, the database as it was if not. -/
def bindOrValidate (targetId : String) (allowUnattributedAdoption : Bool)
    (db : WorkspaceDatabase) : Except WorkspaceError WorkspaceBinding × WorkspaceDatabase :=
  if strip targetId = "" then
    (.error (.valueError "workspace target_id must not be blank"), db)
  else
    match bindTransaction repr (strip targetId) allowUnattributedAdoption db with
    | .ok (binding, committed) => (.ok binding, committed)
    | .error e => (.error e, db)

variable {repr : String → String} {targetId : String} {adopt : Bool} {db : WorkspaceDatabase}

/-- What a transaction that returns has seen and done. -/
theorem bindTransaction_ok {normalized : String} {binding : WorkspaceBinding} {committed : WorkspaceDatabase}
    (h : bindTransaction repr normalized adopt db = .ok (binding, committed)) :
    binding.targetId = normalized ∧ db.RunsCarry normalized ∧
      (db.boundTo = some normalized ∧ committed = db.attributeRuns normalized ∨
        db.boundTo = none ∧ committed = (db.attributeRuns normalized).addMarker normalized) := by
  unfold bindTransaction at h
  split at h
  · cases h
  rename_i hlength
  cases hmarker : db.workspaceMetadata with
  | some marker =>
    simp only [hmarker] at h
    split at h
    · cases h
    rename_i hsame
    have hbound : db.boundTo = some normalized := by
      simpa [boundTo, hmarker] using hsame
    cases hhistory : db.history with
    | nil =>
      simp only [hhistory] at h
      cases h
      exact ⟨rfl, by simp [RunsCarry, hhistory], Or.inl ⟨hbound, rfl⟩⟩
    | cons historical rest =>
      have hrest : rest = [] := by
        cases rest with
        | nil => rfl
        | cons v rest => simp [hhistory] at hlength
      simp only [hhistory] at h
      split at h
      · cases h
      rename_i hcarry
      cases h
      refine ⟨rfl, ?_, Or.inl ⟨hbound, rfl⟩⟩
      simpa [RunsCarry, hhistory, hrest] using hcarry
  | none =>
    simp only [hmarker] at h
    have hbound : db.boundTo = none := by simp [boundTo, hmarker]
    cases hhistory : db.history with
    | nil =>
      simp only [hhistory] at h
      split at h
      · cases h
      cases h
      exact ⟨rfl, by simp [RunsCarry, hhistory], Or.inr ⟨hbound, rfl⟩⟩
    | cons historical rest =>
      have hrest : rest = [] := by
        cases rest with
        | nil => rfl
        | cons v rest => simp [hhistory] at hlength
      simp only [hhistory] at h
      split at h
      · cases h
      rename_i hcarry
      cases h
      refine ⟨rfl, ?_, Or.inr ⟨hbound, rfl⟩⟩
      simpa [RunsCarry, hhistory, hrest] using hcarry

/-- A bound database whose attributed runs carry its target accepts that target. -/
theorem bindTransaction_bound {normalized : String} (hbound : db.boundTo = some normalized)
    (hcarry : db.RunsCarry normalized) : bindTransaction repr normalized adopt db =
      .ok ({ targetId := normalized, created := false, adoptedFromHistory := false },
        db.attributeRuns normalized) := by
  obtain ⟨marker, hmarker, hsame⟩ := Option.map_eq_some_iff.mp hbound
  unfold bindTransaction
  rcases history_of_runsCarry hcarry with hhistory | hhistory <;> simp [hmarker, hsame, hhistory]

/-- An empty database accepts every target. -/
theorem bindTransaction_empty {normalized : String} : bindTransaction repr normalized adopt .empty =
      .ok ({ targetId := normalized, created := true, adoptedFromHistory := false },
        WorkspaceDatabase.empty.addMarker normalized) := rfl

/-- A successful bind, as the database before and after it shows. -/
theorem bindOrValidate_ok {binding : WorkspaceBinding} (h : (bindOrValidate repr targetId adopt db).1 = .ok binding) :
    binding.targetId = strip targetId ∧ strip targetId ≠ "" ∧ db.RunsCarry (strip targetId) ∧
      (db.boundTo = none ∨ db.boundTo = some (strip targetId)) ∧
      (bindOrValidate repr targetId adopt db).2.boundTo = some (strip targetId) ∧
      (bindOrValidate repr targetId adopt db).2.RunsCarry (strip targetId) := by
  unfold bindOrValidate at h ⊢
  split at h
  · cases h
  rename_i hblank
  rw [if_neg hblank]
  cases hbody : bindTransaction repr (strip targetId) adopt db with
  | error e =>
    rw [hbody] at h
    cases h
  | ok result =>
    obtain ⟨given, committed⟩ := result
    rw [hbody] at h
    cases h
    obtain ⟨htarget, hcarry, hwritten⟩ := bindTransaction_ok hbody
    refine ⟨htarget, hblank, hcarry, ?_⟩
    rcases hwritten with ⟨hbound, rfl⟩ | ⟨hbound, rfl⟩
    · exact ⟨Or.inr hbound, hbound, hcarry.attributeRuns⟩
    · exact ⟨Or.inl hbound, rfl, hcarry.attributeRuns⟩

/-- A bind that raises leaves the database as it was. -/
theorem bindOrValidate_error {e : WorkspaceError} (h : (bindOrValidate repr targetId adopt db).1 = .error e) :
    (bindOrValidate repr targetId adopt db).2 = db := by
  unfold bindOrValidate at h ⊢
  split
  · rfl
  rename_i hblank
  rw [if_neg hblank] at h
  split at h
  · cases h
  · rfl

/-- A bound database takes no other target. -/
theorem boundTo_bindOrValidate {t : String} (hbound : db.boundTo = some t) :
    (bindOrValidate repr targetId adopt db).2.boundTo = some t := by
  cases h : (bindOrValidate repr targetId adopt db).1 with
  | error e => rw [bindOrValidate_error h, hbound]
  | ok binding =>
    obtain ⟨-, -, -, hbefore, hafter, -⟩ := bindOrValidate_ok h
    rw [hbound] at hbefore
    rcases hbefore with hnone | hsame
    · cases hnone
    · rw [hafter, hsame]

/-- Which targets a bound database accepts, when its attributed runs carry its target. -/
theorem bindOrValidate_isOk_iff {t : String} (hbound : db.boundTo = some t) (ht : t ≠ "")
    (hcarry : db.RunsCarry t) : (bindOrValidate repr targetId adopt db).1.isOk = true ↔ strip targetId = t := by
  constructor
  · intro h
    cases hresult : (bindOrValidate repr targetId adopt db).1 with
    | error e =>
      rw [hresult] at h
      cases h
    | ok binding =>
      obtain ⟨-, -, -, hbefore, -, -⟩ := bindOrValidate_ok hresult
      rw [hbound] at hbefore
      rcases hbefore with hnone | hsame
      · cases hnone
      · exact (Option.some.inj hsame).symm
  · intro hsame
    have hbody : bindTransaction repr t adopt db = .ok _ := bindTransaction_bound hbound hcarry
    rw [bindOrValidate, hsame, if_neg ht, hbody]
    rfl

end Binding

end NightScout
