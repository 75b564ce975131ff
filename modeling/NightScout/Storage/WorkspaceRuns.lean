import NightScout.Storage.Workspace

/-!
# One workspace, one target

Two halves of the isolation between targets.

* *Inside* one database: binds with any target ids, runs recorded under the bound target and rows
  in other tables, in any order. Once a bind has succeeded, `BoundRuns` is what every later step
  keeps, and it decides every later bind.
* *Between* databases: `workspace_directory_name` sends a target to its directory. A target id
  that is safe as a path component is its own name, any other one is named by its digest; and the
  name a digest gives is itself a safe target id.
-/

namespace NightScout

open Lib WorkspaceDatabase

/-! ## Runs on one database -/

/-- What happens on one database. -/
inductive WorkspaceOp where
  | bindOrValidate (targetId : String) (allowUnattributedAdoption : Bool)
  /-- `RunRepository.start`. -/
  | start (runId : String) (targetId : Option String)
  /-- Anything else the program stores: new row counts of the other tables. -/
  | store (otherTables : List ℕ)
  deriving DecidableEq, Repr

/-- The recorded runs are recorded under the bound target. -/
def WorkspaceOp.UnderBoundTarget (db : WorkspaceDatabase) : WorkspaceOp → Prop
  | .start _ targetId => db.boundTo ≠ none ∧ targetId = db.boundTo
  | _ => True

section Runs

variable (repr : String → String)

def WorkspaceDatabase.step (db : WorkspaceDatabase) : WorkspaceOp → WorkspaceDatabase
  | .bindOrValidate targetId adopt => (bindOrValidate repr targetId adopt db).2
  | .start runId targetId => db.start runId targetId
  | .store otherTables => { db with otherTables }

/-- The law of a run on one database. -/
structure OneTarget (db : WorkspaceDatabase) (ops : List WorkspaceOp) : Prop where
  never_rebound : ∀ t, db.boundTo = some t → (runFrom (step repr) db ops).boundTo = some t
  raise_changes_nothing : ∀ targetId adopt e,
    (bindOrValidate repr targetId adopt (runFrom (step repr) db ops)).1 = .error e →
    (bindOrValidate repr targetId adopt (runFrom (step repr) db ops)).2 = runFrom (step repr) db ops
  runs_carry : ∀ targetId adopt binding,
    (bindOrValidate repr targetId adopt (runFrom (step repr) db ops)).1 = .ok binding →
    (bindOrValidate repr targetId adopt (runFrom (step repr) db ops)).2.boundTo =
        some (strip targetId) ∧
      ∀ run ∈ (bindOrValidate repr targetId adopt (runFrom (step repr) db ops)).2.reconRuns,
        ∃ t, run.targetId = some t ∧ (t = strip targetId ∨ strip t = "")
  accepted_iff : ∀ before first adopt after,
    ops = before ++ .bindOrValidate first adopt :: after →
    (bindOrValidate repr first adopt (runFrom (step repr) db before)).1.isOk = true →
    ∀ targetId adopt',
      (bindOrValidate repr targetId adopt' (runFrom (step repr) db ops)).1.isOk = true ↔
        strip targetId = strip first

variable {repr : String → String} {db : WorkspaceDatabase} {op : WorkspaceOp}
  {ops : List WorkspaceOp} {t : String}

@[simp] theorem step_bindOrValidate (targetId : String) (adopt : Bool) :
    db.step repr (.bindOrValidate targetId adopt) = (bindOrValidate repr targetId adopt db).2 := rfl

@[simp] theorem step_start (runId : String) (targetId : Option String) :
    db.step repr (.start runId targetId) = db.start runId targetId := rfl

theorem boundTo_step (h : db.boundTo = some t) : (db.step repr op).boundTo = some t := by
  cases op with
  | bindOrValidate targetId adopt => exact boundTo_bindOrValidate h
  | start runId targetId => exact h
  | store otherTables => exact h

/-- The database is bound to the target, and its attributed runs carry it. -/
structure BoundRuns (t : String) (db : WorkspaceDatabase) : Prop where
  boundTo : db.boundTo = some t
  runsCarry : db.RunsCarry t

/-- One step keeps a bound database bound to its target, with the runs its own. -/
theorem BoundRuns.step (h : BoundRuns t db) (hop : op.UnderBoundTarget db) : BoundRuns t (db.step repr op) := by
  refine ⟨boundTo_step h.boundTo, ?_⟩
  cases op with
  | bindOrValidate targetId adopt =>
    rw [step_bindOrValidate]
    cases hresult : (bindOrValidate repr targetId adopt db).1 with
    | error e =>
      rw [bindOrValidate_error hresult]
      exact h.runsCarry
    | ok binding =>
      obtain ⟨-, -, -, hbefore, -, hcarry⟩ := bindOrValidate_ok hresult
      rw [h.boundTo] at hbefore
      rcases hbefore with hnone | hsame
      · cases hnone
      · rw [Option.some.inj hsame]
        exact hcarry
  | start runId targetId =>
    have htarget : targetId = some t := hop.2.trans h.boundTo
    rw [step_start, htarget]
    exact h.runsCarry.start runId
  | store otherTables => exact h.runsCarry

theorem BoundRuns.of_ok {targetId : String} {adopt : Bool} (h : (bindOrValidate repr targetId adopt db).1.isOk = true) :
    BoundRuns (strip targetId) (bindOrValidate repr targetId adopt db).2 ∧ strip targetId ≠ "" := by
  cases hresult : (bindOrValidate repr targetId adopt db).1 with
  | error e =>
    rw [hresult] at h
    cases h
  | ok binding =>
    obtain ⟨-, hblank, -, -, hbound, hcarry⟩ := bindOrValidate_ok hresult
    exact ⟨⟨hbound, hcarry⟩, hblank⟩

/-- Every run of a successful bind's database carries the target or a blank id. -/
theorem targetId_of_runsCarry {run : ReconRunRecord} {u : String} (h : db.RunsCarry t)
    (hrun : run ∈ db.reconRuns) (htarget : run.targetId = some u) : u = t ∨ strip u = "" := by
  by_cases hblank : strip u = ""
  · exact Or.inr hblank
  · left
    apply h
    exact mem_history.mpr ⟨run, hrun, ReconRunRecord.attribution_of_some htarget hblank⟩

/-- A successful bind leaves no run without a target id. -/
theorem targetId_isSome_of_ok {targetId : String} {adopt : Bool} {binding : WorkspaceBinding}
    (h : (bindOrValidate repr targetId adopt db).1 = .ok binding) {run : ReconRunRecord}
    (hrun : run ∈ (bindOrValidate repr targetId adopt db).2.reconRuns) : ∃ u, run.targetId = some u := by
  unfold bindOrValidate at h hrun
  split at h
  · cases h
  rename_i hblank
  rw [if_neg hblank] at hrun
  cases hbody : bindTransaction repr (strip targetId) adopt db with
  | error e =>
    rw [hbody] at h
    cases h
  | ok result =>
    obtain ⟨given, committed⟩ := result
    rw [hbody] at hrun
    have hwritten : committed.reconRuns = (db.attributeRuns (strip targetId)).reconRuns := by
      obtain ⟨-, -, ⟨-, rfl⟩ | ⟨-, rfl⟩⟩ := bindTransaction_ok hbody <;> rfl
    obtain ⟨before, -, rfl⟩ := List.mem_map.mp (hwritten ▸ hrun)
    exact ⟨_, rfl⟩

/-- The law holds of every run on every database. -/
theorem oneTarget_of_underBoundTarget
    (h : Along (step repr) (fun db op => op.UnderBoundTarget db) db ops) :
    OneTarget repr db ops where
  never_rebound t ht := by
    apply runFrom_invariant (P := fun db : WorkspaceDatabase => db.boundTo = some t) ht
    intro db op hbound
    exact boundTo_step hbound
  raise_changes_nothing _ _ _ hraise := bindOrValidate_error hraise
  runs_carry targetId adopt binding hbind := by
    obtain ⟨-, -, -, -, hbound, hcarry⟩ := bindOrValidate_ok hbind
    refine ⟨hbound, ?_⟩
    intro run hrun
    obtain ⟨u, hu⟩ := targetId_isSome_of_ok hbind hrun
    exact ⟨u, hu, targetId_of_runsCarry hcarry hrun hu⟩
  accepted_iff before first adopt after hops hfirst targetId adopt' := by
    subst hops
    obtain ⟨-, -, hafter⟩ := (along_append before db).mp h
    obtain ⟨hstart, hblank⟩ := BoundRuns.of_ok hfirst
    -- the invariant the first success starts is what the rest of the run keeps
    have hend : BoundRuns (strip first) (runFrom (step repr) db
        (before ++ .bindOrValidate first adopt :: after)) := by
      rw [runFrom_append, runFrom_cons]
      exact hafter.invariant hstart fun _ _ hbound hop => hbound.step hop
    exact bindOrValidate_isOk_iff hend.boundTo hblank hend.runsCarry

end Runs

/-! ## Directory names -/

/-- `hashlib.sha256(….encode("utf-8")).hexdigest()`: 64 lower-case hexadecimal digits. -/
structure Sha256 where
  hexdigest : String → String
  length : ∀ s, (hexdigest s).toList.length = 64
  hex : ∀ s, ∀ c ∈ (hexdigest s).toList, c ∈ "0123456789abcdef".toList

/-- `….hexdigest()[:16]`. -/
def Sha256.digest (sha : Sha256) (s : String) : String :=
  String.ofList ((sha.hexdigest s).toList.take 16)

/-- `_SAFE_WORKSPACE_COMPONENT.fullmatch`: `[A-Za-z0-9][A-Za-z0-9._-]{0,79}`. -/
def safeWorkspaceComponent (s : String) : Bool :=
  match s.toList with
  | [] => false
  | c :: cs => c.isAlphanum && decide (cs.length ≤ 79) &&
      cs.all fun c => c.isAlphanum || c == '.' || c == '_' || c == '-'

/-- `workspace_directory_name`, of a target id that is stripped and not blank. -/
def directoryName (sha : Sha256) (normalized : String) : String :=
  if normalized ≠ "." ∧ normalized ≠ ".." ∧ safeWorkspaceComponent normalized = true then normalized
  else "target-" ++ sha.digest normalized

def workspaceDirectoryName (sha : Sha256) (targetId : String) : Except WorkspaceError String :=
  if strip targetId = "" then .error (.valueError "workspace target_id must not be blank")
  else .ok (directoryName sha (strip targetId))

section Names

variable {sha : Sha256}

/-- The first target is, letter for letter, the hashed name of the second. -/
def HashedNameOf (sha : Sha256) (a b : Stripped) : Prop :=
  safeWorkspaceComponent b.text = false ∧ a.text = "target-" ++ sha.digest b.text

instance (sha : Sha256) (a b : Stripped) : Decidable (HashedNameOf sha a b) :=
  inferInstanceAs (Decidable (_ ∧ _))

theorem workspaceDirectoryName_stripped (t : Stripped) :
    workspaceDirectoryName sha t.text = .ok (directoryName sha t.text) := by
  rw [workspaceDirectoryName, t.stripped, if_neg t.nonblank]

theorem directoryName_of_safe {s : String} (h : safeWorkspaceComponent s = true) : directoryName sha s = s := by
  have hdots : s ≠ "." ∧ s ≠ ".." := by
    constructor <;> rintro rfl <;> exact Bool.noConfusion h
  rw [directoryName, if_pos ⟨hdots.1, hdots.2, h⟩]

theorem directoryName_of_refused {s : String} (h : safeWorkspaceComponent s = false) :
    directoryName sha s = "target-" ++ sha.digest s := by
  rw [directoryName, if_neg (by simp [h])]

theorem isAlphanum_of_hex {c : Char} (h : c ∈ "0123456789abcdef".toList) : c.isAlphanum = true := by
  have hall : ("0123456789abcdef".toList.all Char.isAlphanum) = true := by decide
  exact List.all_eq_true.mp hall c h

/-- What a digest gives as a name is a safe path component itself. -/
theorem safe_hashedName (sha : Sha256) (s : String) :
    safeWorkspaceComponent ("target-" ++ sha.digest s) = true := by
  have hlength : (sha.digest s).toList.length = 16 := by simp [Sha256.digest, sha.length]
  have hdigits : ∀ c ∈ (sha.digest s).toList, c.isAlphanum = true := by
    intro c hc
    apply isAlphanum_of_hex
    apply sha.hex s
    rw [Sha256.digest, String.toList_ofList] at hc
    exact List.mem_of_mem_take hc
  have hall : ((sha.digest s).toList.all fun c => c.isAlphanum || c == '.' || c == '_' || c == '-')
      = true := by
    rw [List.all_eq_true]
    intro c hc
    simp [hdigits c hc]
  have htext : ("target-" ++ sha.digest s).toList =
      't' :: ("arget-".toList ++ (sha.digest s).toList) := by
    rw [String.toList_append]
    rfl
  unfold safeWorkspaceComponent
  rw [htext]
  simp only [List.length_append, hlength, List.all_append, hall]
  decide

/-- **Which two targets share a directory**, digests that differ for different targets given. -/
theorem directoryName_eq_iff {a b : Stripped} (hne : a ≠ b) (hcollision : sha.digest a.text ≠ sha.digest b.text) :
    directoryName sha a.text = directoryName sha b.text ↔ HashedNameOf sha a b ∨ HashedNameOf sha b a := by
  have htexts : a.text ≠ b.text := fun h => hne (Stripped.ext_text h)
  unfold HashedNameOf
  cases ha : safeWorkspaceComponent a.text <;> cases hb : safeWorkspaceComponent b.text
  case false.false =>
    have hleft : a.text ≠ "target-" ++ sha.digest b.text := by
      intro h
      rw [h, safe_hashedName] at ha
      cases ha
    have hright : b.text ≠ "target-" ++ sha.digest a.text := by
      intro h
      rw [h, safe_hashedName] at hb
      cases hb
    simp [directoryName_of_refused ha, directoryName_of_refused hb, hcollision, hleft, hright]
  case false.true =>
    simp [directoryName_of_refused ha, directoryName_of_safe hb, eq_comm]
  case true.false =>
    simp [directoryName_of_safe ha, directoryName_of_refused hb]
  case true.true =>
    simp [directoryName_of_safe ha, directoryName_of_safe hb, htexts]

end Names

/-! ## Every target in its own directory

`base_root/workspaces`, from a tree in which no target has been opened yet. A session opens the
directory of its target, creating the database if there is none; if the bind succeeds it records
runs under the bound target and stores rows, and if it raises the session is over. -/

/-- One start of the program for one target. -/
structure Session where
  target : Stripped
  allowUnattributedAdoption : Bool
  runIds : List String
  otherTables : List ℕ

section Directories

variable (repr : String → String) (sha : Sha256)

/-- What the bind of a session gives, on the database of the target's directory. -/
def Session.bind (s : Session) (directories : String → WorkspaceDatabase) :
    Except WorkspaceError WorkspaceBinding × WorkspaceDatabase :=
  bindOrValidate repr s.target.text s.allowUnattributedAdoption
    (directories (directoryName sha s.target.text))

/-- What a session does after its bind. -/
def Session.record (s : Session) (binding : WorkspaceBinding) : List WorkspaceOp :=
  .store s.otherTables :: s.runIds.map fun runId => .start runId (some binding.targetId)

def Session.run (directories : String → WorkspaceDatabase) (s : Session) :
    String → WorkspaceDatabase :=
  match s.bind repr sha directories with
  | (.error _, db) => Function.update directories (directoryName sha s.target.text) db
  | (.ok binding, db) => Function.update directories (directoryName sha s.target.text)
      (runFrom (step repr) db (s.record binding))

/-- No session is refused. -/
def NoneLockedOut (directories : String → WorkspaceDatabase) (sessions : List Session) : Prop :=
  Along (Session.run repr sha) (fun directories s => (s.bind repr sha directories).1.isOk = true)
    directories sessions

/-- A directory is as it was made, or its database is bound to the target it is named for. -/
def OwnDirectories (targets : Set Stripped) (directories : String → WorkspaceDatabase) : Prop :=
  ∀ name, directories name = .empty ∨
    ∃ t ∈ targets, name = directoryName sha t.text ∧ BoundRuns t.text (directories name)

variable {repr : String → String} {sha : Sha256} {targets : Set Stripped}
  {directories : String → WorkspaceDatabase} {s : Session}

/-- The runs a session records keep the database its target's. -/
theorem BoundRuns.record {db : WorkspaceDatabase} {t : String} (h : BoundRuns t db)
    {binding : WorkspaceBinding} (hbinding : binding.targetId = t) :
    BoundRuns t (runFrom (WorkspaceDatabase.step repr) db (s.record binding)) := by
  apply runFrom_invariant_mem h
  intro db op hop hbound
  apply hbound.step
  rcases List.mem_cons.mp hop with rfl | hop
  · trivial
  · obtain ⟨runId, -, rfl⟩ := List.mem_map.mp hop
    exact ⟨by simp [hbound.boundTo], by rw [hbound.boundTo, hbinding]⟩

/-- Where different targets have different names, each is accepted by its own directory. -/
theorem Session.bind_isOk
    (hnames : ∀ a ∈ targets, ∀ b ∈ targets, a ≠ b → directoryName sha a.text ≠ directoryName sha b.text)
    (h : OwnDirectories sha targets directories) (hs : s.target ∈ targets) :
    (s.bind repr sha directories).1.isOk = true := by
  rcases h (directoryName sha s.target.text) with hempty | ⟨t, ht, hname, hbound⟩
  · rw [Session.bind, hempty, bindOrValidate, s.target.stripped, if_neg s.target.nonblank,
      bindTransaction_empty]
    rfl
  · have hsame : s.target = t := by
      by_contra hne
      exact hnames _ hs t ht hne hname
    rw [Session.bind, bindOrValidate_isOk_iff hbound.boundTo t.nonblank hbound.runsCarry,
      s.target.stripped, hsame]

/-- A session that is accepted leaves every directory its target's. -/
theorem OwnDirectories.run (h : OwnDirectories sha targets directories) (hs : s.target ∈ targets)
    (hok : (s.bind repr sha directories).1.isOk = true) :
    OwnDirectories sha targets (Session.run repr sha directories s) := by
  intro name
  cases hbind : (s.bind repr sha directories).1 with
  | error e =>
    rw [hbind] at hok
    cases hok
  | ok binding =>
    have hrun : Session.run repr sha directories s =
        Function.update directories (directoryName sha s.target.text)
          (runFrom (step repr) (s.bind repr sha directories).2 (s.record binding)) := by
      unfold Session.run
      split
      · rename_i hresult
        rw [hresult] at hbind
        cases hbind
      · rename_i hresult
        rw [hresult] at hbind ⊢
        cases hbind
        rfl
    rw [hrun]
    by_cases hname : name = directoryName sha s.target.text
    · right
      subst hname
      rw [Function.update_self]
      refine ⟨s.target, hs, rfl, ?_⟩
      obtain ⟨hbound, -⟩ := BoundRuns.of_ok hok
      obtain ⟨hbinding, -⟩ := bindOrValidate_ok hbind
      rw [s.target.stripped] at hbound hbinding
      exact hbound.record hbinding
    · rw [Function.update_of_ne hname]
      exact h name

/-- Where different targets have different names, no run of sessions refuses one. -/
theorem noneLockedOut_of_names
    (hnames : ∀ a ∈ targets, ∀ b ∈ targets, a ≠ b → directoryName sha a.text ≠ directoryName sha b.text)
    {sessions : List Session} (hsessions : ∀ s ∈ sessions, s.target ∈ targets) :
    NoneLockedOut repr sha (fun _ => .empty) sessions := by
  have hmember : Along (Session.run repr sha) (fun _ s => s.target ∈ targets) (fun _ => .empty)
      sessions := Along.of_forall hsessions
  apply hmember.of_invariant (P := OwnDirectories sha targets)
  · intro name
    exact Or.inl rfl
  · intro directories s h hs
    have hok : (s.bind repr sha directories).1.isOk = true := Session.bind_isOk hnames h hs
    exact ⟨hok, h.run hs hok⟩

end Directories

/-! ## The law, and where it fails -/

/-- **One workspace, one target**, for any set of targets whose digests differ: every run on a
    database keeps its law; and the targets have directories of their own, in which none is locked
    out, exactly when no target is the hashed name of another. -/
theorem one_workspace_one_target_iff (repr : String → String) (sha : Sha256) (targets : Set Stripped)
    (hcollision : ∀ a ∈ targets, ∀ b ∈ targets, a ≠ b → sha.digest a.text ≠ sha.digest b.text) :
    ((∀ db ops, Along (step repr) (fun db op => op.UnderBoundTarget db) db ops →
        OneTarget repr db ops) ∧ (∀ a ∈ targets, ∀ b ∈ targets, a ≠ b →
        workspaceDirectoryName sha a.text ≠ workspaceDirectoryName sha b.text) ∧
      (∀ sessions : List Session, (∀ s ∈ sessions, s.target ∈ targets) →
        NoneLockedOut repr sha (fun _ => .empty) sessions)) ↔
    ∀ a ∈ targets, ∀ b ∈ targets, ¬ HashedNameOf sha a b := by
  have hnames : ∀ a b : Stripped,
      workspaceDirectoryName sha a.text = workspaceDirectoryName sha b.text ↔
        directoryName sha a.text = directoryName sha b.text := by
    intro a b
    simp [workspaceDirectoryName_stripped]
  constructor
  · intro ⟨_, hdistinct, _⟩ a ha b hb hhashed
    -- the hashed name is safe and the target it is the name of is not
    have hne : a ≠ b := by
      rintro rfl
      have hsafe := safe_hashedName sha a.text
      rw [← hhashed.2, hhashed.1] at hsafe
      cases hsafe
    apply hdistinct a ha b hb hne
    rw [hnames, directoryName_eq_iff hne (hcollision a ha b hb hne)]
    exact Or.inl hhashed
  · intro hnone
    have hdistinct : ∀ a ∈ targets, ∀ b ∈ targets, a ≠ b →
        directoryName sha a.text ≠ directoryName sha b.text := by
      intro a ha b hb hne hsame
      rcases (directoryName_eq_iff hne (hcollision a ha b hb hne)).mp hsame with hhashed | hhashed
      · exact hnone a ha b hb hhashed
      · exact hnone b hb a ha hhashed
    refine ⟨fun db ops h => oneTarget_of_underBoundTarget h, ?_, ?_⟩
    · intro a ha b hb hne hsame
      exact hdistinct a ha b hb hne ((hnames a b).mp hsame)
    · intro sessions hsessions
      exact noneLockedOut_of_names hdistinct hsessions

/-- `sha256` on the target ids below, and one digest for every other text. -/
def sampleHexdigest (s : String) : String :=
  if s = "corp" then "19f4c684a3ff4f2dfa73b8d9098257cfb08e3da6b5ac7f86aa3aa36537018265"
  else if s = "another-company" then
    "ed87d542c527bc8693b151635d6f31c71875ec97535f6bafeff0a0df82d52350"
  else "df9891e3242af85b4f246875aa9db2a806c7c212acb838c763bf7228ed966d7a"

theorem sampleHexdigest_length (s : String) : (sampleHexdigest s).toList.length = 64 := by
  unfold sampleHexdigest
  split
  · decide
  · split <;> decide

theorem sampleHexdigest_hex (s : String) :
    ∀ c ∈ (sampleHexdigest s).toList, c ∈ "0123456789abcdef".toList := by
  have hall : ((sampleHexdigest s).toList.all fun c => "0123456789abcdef".toList.elem c) = true := by
    unfold sampleHexdigest
    split
    · decide
    · split <;> decide
  intro c hc
  simpa using List.all_eq_true.mp hall c hc

/-- Three digests of `sha256`, and the third for every other text. -/
def sampleSha256 : Sha256 where
  hexdigest := sampleHexdigest
  length := sampleHexdigest_length
  hex := sampleHexdigest_hex

theorem stripped_corp : strip "corp" = "corp" ∧ "corp" ≠ "" := by decide

theorem stripped_anotherCompany : strip "another-company" = "another-company" ∧ "another-company" ≠ "" := by decide

theorem stripped_acmeProd : strip "acme/prod" = "acme/prod" ∧ "acme/prod" ≠ "" := by decide

theorem stripped_hashed : strip "target-df9891e3242af85b" = "target-df9891e3242af85b" ∧ "target-df9891e3242af85b" ≠ "" := by decide

def corp : Stripped where
  text := "corp"
  stripped := stripped_corp.1
  nonblank := stripped_corp.2

def anotherCompany : Stripped where
  text := "another-company"
  stripped := stripped_anotherCompany.1
  nonblank := stripped_anotherCompany.2

def acmeProd : Stripped where
  text := "acme/prod"
  stripped := stripped_acmeProd.1
  nonblank := stripped_acmeProd.2

def hashedAcmeProd : Stripped where
  text := "target-df9891e3242af85b"
  stripped := stripped_hashed.1
  nonblank := stripped_hashed.2

theorem one_workspace_one_target_sample :
    ((∀ db ops, Along (step id) (fun db op => op.UnderBoundTarget db) db ops →
        OneTarget id db ops) ∧
      (∀ a ∈ ({corp, anotherCompany} : Set Stripped), ∀ b ∈ ({corp, anotherCompany} : Set Stripped), a ≠ b →
          workspaceDirectoryName sampleSha256 a.text ≠ workspaceDirectoryName sampleSha256 b.text) ∧
      (∀ sessions : List Session, (∀ s ∈ sessions, s.target ∈ ({corp, anotherCompany} : Set Stripped)) →
        NoneLockedOut id sampleSha256 (fun _ => .empty) sessions)) := by
  apply (one_workspace_one_target_iff id sampleSha256 _ _).mpr
  · simp only [Set.mem_insert_iff, Set.mem_singleton_iff, forall_eq_or_imp, forall_eq]
    decide
  · simp only [Set.mem_insert_iff, Set.mem_singleton_iff, forall_eq_or_imp, forall_eq]
    decide

/-- Two different target ids, one directory: whichever is opened second is refused by the
    database of the first. -/
theorem hashed_name_is_a_target_id : hashedAcmeProd ≠ acmeProd ∧
      workspaceDirectoryName sampleSha256 hashedAcmeProd.text = workspaceDirectoryName sampleSha256 acmeProd.text ∧
      ¬ NoneLockedOut id sampleSha256 (fun _ => .empty)
        [{ target := hashedAcmeProd, allowUnattributedAdoption := false, runIds := ["run_1"],
           otherTables := [] },
         { target := acmeProd, allowUnattributedAdoption := true, runIds := [],
           otherTables := [] }] := by
  refine ⟨by decide, by decide, ?_⟩
  unfold NoneLockedOut
  decide

end NightScout
