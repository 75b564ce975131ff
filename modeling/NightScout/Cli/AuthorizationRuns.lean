import NightScout.Cli.AuthorizedTargets

/-!
# Runs over the targets

What a run of `_prepare_default_scope_for_run` leaves of the classifications, and when that is
everything it should. The run lemmas are the step lemmas of `Authorized` carried along
(`Along.invariant`). Only keeping a classification needs the added rules to be outranked, and at every
authorization: a subject that loses its state becomes IN_SCOPE, and what is IN_SCOPE stays so, so the
run cannot make up for it later.
-/

namespace NightScout

open Lib

section Runs

variable {lib : ScopeLib} {digest : String → String} {flags : AuthorizeFlags} {w : ScopeRun}
  {target : Target} {targets : List Target} {file : ScopeFile} {subject : ScopeSubject}
  {state state' : ScopeState}

theorem Gives.unique (h : file.Gives lib digest subject state)
    (h' : file.Gives lib digest subject state') : state = state' := by
  obtain ⟨d, hd, rfl⟩ := h
  obtain ⟨d', hd', rfl⟩ := h'
  rw [hd] at hd'
  rw [Except.ok.inj hd']

/-- The command goes on after the target, which is plain if it is authorized. -/
def Goes (lib : ScopeLib) (digest : String → String) (flags : AuthorizeFlags) (w : ScopeRun)
    (target : Target) : Prop :=
  (∃ engine, (w.step lib digest flags target).engine = .ok engine) ∧
    WhenAuthorized lib (fun file name _ => Plain lib file name) flags w target

/-- The target is covered, or its name is confirmed. -/
theorem Goes.cases (hready : w.Ready lib digest) (h : Goes lib digest flags w target) :
    ∃ subject, ScopeSubject.modelValidate lib .domain target.name = .ok subject ∧
      (((w.file.Gives lib digest subject .inScope ∨ w.file.Gives lib digest subject .passiveOnly) ∧
          w.step lib digest flags target = w ∧ authorization lib flags w target = none) ∨
        ∃ name rules added anchors anchors', w.file.Gives lib digest subject .unknown ∧ HostIs lib subject name ∧
          authorization lib flags w target = some (name, target.includeSubdomains flags) ∧
          Authorized lib digest w.file (w.step lib digest flags target).file rules added anchors
            anchors' name (target.includeSubdomains flags)) := by
  obtain ⟨⟨engine', hengine'⟩, hplain⟩ := h
  obtain ⟨subject, hvalid, hcases⟩ := ScopeRun.step_cases hready hengine'
  refine ⟨subject, hvalid, hcases.imp_right ?_⟩
  intro ⟨name, hgives, hname, hfile, hauthorization⟩
  obtain ⟨kind, value⟩ := subject
  obtain rfl : kind = .domain := kind_of_modelValidate hvalid
  cases hengine : w.engine with
  | error e =>
    rw [ScopeRun.step_of_error hengine, hengine] at hengine'
    cases hengine'
  | ok engine =>
    have hnamed : Plain lib w.file name :=
      hplain (name, target.includeSubdomains flags) hauthorization
    have hready' : (w.step lib digest flags target).Ready lib digest := hready.step
    obtain ⟨rules, added, anchors, anchors', h⟩ := authorized_of_files (hready engine hengine)
      (hready' engine' hengine') hfile hnamed hname hgives
    exact ⟨name, rules, added, anchors, anchors', hgives,
      ⟨value, rfl, canonicalDomain_of_normalizeDomain hname⟩, hauthorization, h⟩

/-- What every target does to the file, whatever the added rules reach. -/
theorem Goes.file_cases (hready : w.Ready lib digest) (h : Goes lib digest flags w target) :
    (w.step lib digest flags target).file = w.file ∨ ∃ name rules added anchors anchors', target.Named lib name ∧
        authorization lib flags w target = some (name, target.includeSubdomains flags) ∧
        Authorized lib digest w.file (w.step lib digest flags target).file rules added anchors
          anchors' name (target.includeSubdomains flags) := by
  obtain ⟨subject, hvalid, hcases⟩ := h.cases hready
  rcases hcases with ⟨-, hsame, -⟩ | ⟨name, rules, added, anchors, anchors', -, hhost, hsome, h⟩
  · exact .inl (by rw [hsame])
  · exact .inr ⟨name, rules, added, anchors, anchors', ⟨subject, hvalid, hhost⟩, hsome, h⟩

theorem step_inScope (hready : w.Ready lib digest) (h : Goes lib digest flags w target)
    (hgives : w.file.Gives lib digest subject .inScope) :
    (w.step lib digest flags target).file.Gives lib digest subject .inScope := by
  rcases h.file_cases hready with hsame | ⟨name, rules, added, anchors, anchors', -, -, hauth⟩
  · rw [hsame]
    exact hgives
  · exact hauth.inScope_stays hgives

theorem step_keeps (hready : w.Ready lib digest) (h : Goes lib digest flags w target)
    (houtranked : WhenAuthorized lib (Outranked lib digest) flags w target)
    (hvalid : ValidSubject lib subject) (hstate : state ≠ .unknown) (hgives : w.file.Gives lib digest subject state) :
    (w.step lib digest flags target).file.Gives lib digest subject state := by
  rcases h.file_cases hready with hsame | ⟨name, rules, added, anchors, anchors', -, hsome, hauth⟩
  · rw [hsame]
    exact hgives
  · have hnamed : Outranked lib digest w.file name (target.includeSubdomains flags) :=
      houtranked (name, target.includeSubdomains flags) hsome
    exact hauth.keeps hnamed hvalid hstate hgives

theorem step_before (hready : w.Ready lib digest) (h : Goes lib digest flags w target)
    (hstate : state ≠ .unknown) (hin : state ≠ .inScope)
    (hgives : (w.step lib digest flags target).file.Gives lib digest subject state) :
    ∃ state, state ≠ .unknown ∧ state ≠ .inScope ∧ w.file.Gives lib digest subject state := by
  rcases h.file_cases hready with hsame | ⟨name, rules, added, anchors, anchors', -, -, hauth⟩
  · rw [hsame] at hgives
    exact ⟨state, hstate, hin, hgives⟩
  · exact hauth.before hstate hin hgives

/-- What the target makes IN_SCOPE is on its name, or below it if its subdomains are confirmed. -/
theorem step_became (hready : w.Ready lib digest) (h : Goes lib digest flags w target)
    (hgives : (w.step lib digest flags target).file.Gives lib digest subject .inScope)
    (hbefore : ¬ w.file.Gives lib digest subject .inScope) :
    ∃ host, HostIs lib subject host ∧ ∃ name, target.Named lib name ∧
      (host = name ∨ target.includeSubdomains flags = true ∧ isSubdomain host name = true) := by
  rcases h.file_cases hready with hsame | ⟨name, rules, added, anchors, anchors', hnamed, -, hauth⟩
  · rw [hsame] at hgives
    exact absurd hgives hbefore
  · obtain ⟨host, hhost, hor⟩ := hauth.became hgives hbefore
    exact ⟨host, hhost, name, hnamed, hor⟩

/-- After its turn a target is covered. -/
theorem step_covers (hready : w.Ready lib digest) (h : Goes lib digest flags w target) :
    ∃ subject, ScopeSubject.modelValidate lib .domain target.name = .ok subject ∧
      ((w.step lib digest flags target).file.Gives lib digest subject .inScope ∨
        (w.step lib digest flags target).file.Gives lib digest subject .passiveOnly) := by
  obtain ⟨subject, hvalid, hcases⟩ := h.cases hready
  refine ⟨subject, hvalid, ?_⟩
  rcases hcases with ⟨hcovered, hsame, -⟩ |
    ⟨name, rules, added, anchors, anchors', hunknown, hhost, -, hauth⟩
  · rw [hsame]
    exact hcovered
  · exact .inl (hauth.name_inScope hhost hunknown)

/-! ### Along the targets -/

theorem runFrom_of_error {e : PyError} : ∀ (targets : List Target) {w : ScopeRun},
    w.engine = .error e → runFrom (ScopeRun.step lib digest flags) w targets = w
  | [], _, _ => rfl
  | target :: targets, w, h => by
    rw [runFrom_cons, ScopeRun.step_of_error h]
    exact runFrom_of_error targets h

/-- A command that returns went on after every target. -/
theorem along_goes : ∀ {targets : List Target} {w : ScopeRun},
    (∃ engine, (runFrom (ScopeRun.step lib digest flags) w targets).engine = .ok engine) →
      Along (ScopeRun.step lib digest flags) (fun w target =>
        ∃ engine, (w.step lib digest flags target).engine = .ok engine) w targets
  | [], _, _ => trivial
  | target :: targets, w, h => by
    refine ⟨?_, along_goes h⟩
    cases hengine : (w.step lib digest flags target).engine with
    | ok engine => exact ⟨engine, hengine⟩
    | error e =>
      obtain ⟨engine, h⟩ := h
      rw [runFrom_cons, runFrom_of_error targets hengine, hengine] at h
      cases h

variable (hready : w.Ready lib digest)
  (h : Along (ScopeRun.step lib digest flags) (Goes lib digest flags) w targets)

include hready

theorem run_ready : (runFrom (ScopeRun.step lib digest flags) w targets).Ready lib digest :=
  runFrom_invariant hready fun _ _ hready => hready.step

include h

theorem run_inScope (hgives : w.file.Gives lib digest subject .inScope) :
    (runFrom (ScopeRun.step lib digest flags) w targets).file.Gives lib digest subject .inScope :=
  (h.invariant (P := fun w => w.Ready lib digest ∧ w.file.Gives lib digest subject .inScope)
    ⟨hready, hgives⟩ fun _ _ hw hgoes => ⟨hw.1.step, step_inScope hw.1 hgoes hw.2⟩).2

theorem run_keeps (houtranked : Along (ScopeRun.step lib digest flags)
      (WhenAuthorized lib (Outranked lib digest) flags) w targets)
    (hvalid : ValidSubject lib subject) (hstate : state ≠ .unknown) (hgives : w.file.Gives lib digest subject state) :
    (runFrom (ScopeRun.step lib digest flags) w targets).file.Gives lib digest subject state :=
  ((h.and houtranked).invariant
    (P := fun w => w.Ready lib digest ∧ w.file.Gives lib digest subject state) ⟨hready, hgives⟩
    fun _ _ hw hgoes =>
      ⟨hw.1.step, step_keeps hw.1 hgoes.1 hgoes.2 hvalid hstate hw.2⟩).2

/-- What is classified, but not IN_SCOPE, after some targets was so at the start. -/
theorem run_before (hstate : state ≠ .unknown) (hin : state ≠ .inScope)
    (hgives : (runFrom (ScopeRun.step lib digest flags) w targets).file.Gives lib digest subject state) :
    ∃ state, state ≠ .unknown ∧ state ≠ .inScope ∧ w.file.Gives lib digest subject state := by
  have hrun := h.invariant (P := fun w' => w'.Ready lib digest ∧ ∀ state, state ≠ .unknown →
    state ≠ .inScope → w'.file.Gives lib digest subject state →
      ∃ state, state ≠ .unknown ∧ state ≠ .inScope ∧ w.file.Gives lib digest subject state)
    ⟨hready, fun state hstate hin hgives => ⟨state, hstate, hin, hgives⟩⟩ ?_
  · exact hrun.2 state hstate hin hgives
  · intro w' target ⟨hready', hback⟩ hgoes
    refine ⟨hready'.step, fun state hstate hin hgives => ?_⟩
    obtain ⟨earlier, hearlier, hearlierin, hgave⟩ := step_before hready' hgoes hstate hin hgives
    exact hback earlier hearlier hearlierin hgave

theorem run_became (hgives : (runFrom (ScopeRun.step lib digest flags) w targets).file.Gives lib digest subject
      .inScope) (hbefore : ¬ w.file.Gives lib digest subject .inScope) :
    ∃ host, HostIs lib subject host ∧ ∃ target ∈ targets, ∃ name, target.Named lib name ∧
      (host = name ∨ target.includeSubdomains flags = true ∧ isSubdomain host name = true) := by
  by_contra hnone
  have hmem : Along (ScopeRun.step lib digest flags) (fun _ target => target ∈ targets) w targets :=
    Along.of_forall fun target htarget => htarget
  have hrun := (h.and hmem).invariant (P := fun w' => w'.Ready lib digest ∧
    ¬ w'.file.Gives lib digest subject .inScope) ⟨hready, hbefore⟩ ?_
  · exact hrun.2 hgives
  · intro w' target ⟨hready', hnot⟩ ⟨hgoes, htarget⟩
    refine ⟨hready'.step, fun hgives' => hnone ?_⟩
    obtain ⟨host, hhost, hname⟩ := step_became hready' hgoes hgives' hnot
    exact ⟨host, hhost, target, htarget, hname⟩

/-- Every target ends covered, if what is classified is kept. -/
theorem run_covers (houtranked : Along (ScopeRun.step lib digest flags)
      (WhenAuthorized lib (Outranked lib digest) flags) w targets) (htarget : target ∈ targets) :
    ∃ subject, ScopeSubject.modelValidate lib .domain target.name = .ok subject ∧
      ((runFrom (ScopeRun.step lib digest flags) w targets).file.Gives lib digest subject .inScope ∨
        (runFrom (ScopeRun.step lib digest flags) w targets).file.Gives lib digest subject .passiveOnly) := by
  obtain ⟨before, after, rfl⟩ := List.append_of_mem htarget
  obtain ⟨hbefore, hgoes, hafter⟩ := (along_append before w).mp h
  have hrest := ((along_append before w).mp houtranked).2.2
  have hready' : (runFrom (ScopeRun.step lib digest flags) w before).Ready lib digest :=
    run_ready hready
  obtain ⟨subject, hmake, hcovers⟩ := step_covers hready' hgoes
  rw [runFrom_append, runFrom_cons]
  have hvalid : ValidSubject lib subject := by
    have hkind := kind_of_modelValidate hmake
    refine ⟨.inl hkind, target.name, ?_⟩
    rw [hkind]
    exact hmake
  refine ⟨subject, hmake, hcovers.imp (fun hgives => ?_) fun hgives => ?_⟩
  · exact run_keeps hready'.step hafter hrest hvalid (by decide) hgives
  · exact run_keeps hready'.step hafter hrest hvalid (by decide) hgives

/-- A run that keeps the classifications has outranked rules at every authorization. -/
theorem run_outranked (hkeeps : ∀ subject, ValidSubject lib subject → ∀ state, state ≠ .unknown →
      w.file.Gives lib digest subject state →
        (runFrom (ScopeRun.step lib digest flags) w targets).file.Gives lib digest subject state) :
    Along (ScopeRun.step lib digest flags) (WhenAuthorized lib (Outranked lib digest) flags) w targets := by
  refine along_iff_forall_split.mpr fun before target after hsplit p hp => ?_
  by_contra hnot
  rw [hsplit] at h hkeeps
  obtain ⟨hbefore, hgoes, hafter⟩ := (along_append before w).mp h
  have hready' : (runFrom (ScopeRun.step lib digest flags) w before).Ready lib digest :=
    run_ready hready
  obtain ⟨subject, -, hcases⟩ := hgoes.cases hready'
  rcases hcases with ⟨-, -, hnone⟩ | ⟨name, rules, added, anchors, anchors', -, -, hsome, hauth⟩
  · rw [hnone] at hp
    cases hp
  · rw [hsome] at hp
    cases hp
    -- the subject that loses its state here had one at the start, and ends IN_SCOPE
    obtain ⟨subject, hvalid, state, hstate, hin, hgave, hgives⟩ :=
      hauth.inScope_of_not_outranked' hnot
    obtain ⟨state₀, hstate₀, hin₀, hgave₀⟩ := run_before hready hbefore hstate hin hgave
    have hend := run_inScope hready'.step hafter hgives
    have hkept := hkeeps subject hvalid state₀ hstate₀ hgave₀
    rw [runFrom_append, runFrom_cons] at hkept
    exact hin₀ (Gives.unique hkept hend)

end Runs

/-! ## The command -/

section Command

variable {lib : ScopeLib} {digest : String → String} {flags : AuthorizeFlags}
  {targets : List Target} {file : ScopeFile}

/-- What a command that returns has done: nothing without targets, and otherwise a run from the file
    to the file it leaves. -/
theorem prepare_returns (h : (prepareDefaultScopeForRun lib digest flags targets file).1 = .ok ()) :
    (targets = [] ∧ (prepareDefaultScopeForRun lib digest flags targets file).2 = file) ∨
      ∃ engine engine', file.preflight lib digest = .ok engine ∧
        (runFrom (ScopeRun.step lib digest flags) ⟨file, .ok engine⟩ targets).engine = .ok engine' ∧
        (prepareDefaultScopeForRun lib digest flags targets file).2 =
          (runFrom (ScopeRun.step lib digest flags) ⟨file, .ok engine⟩ targets).file := by
  unfold prepareDefaultScopeForRun at h ⊢
  split at h
  next hempty => exact .inl ⟨List.isEmpty_iff.mp hempty, by simp [hempty]⟩
  next hne =>
    right
    cases hengine : file.preflight lib digest with
    | error e =>
      rw [hengine] at h
      cases h
    | ok engine =>
      rw [hengine] at h
      simp only [if_neg hne] at h ⊢
      cases hend : (runFrom (ScopeRun.step lib digest flags) ⟨file, .ok engine⟩ targets).engine with
      | error e =>
        rw [hend] at h
        cases h
      | ok engine' => exact ⟨engine, engine', rfl, hend, rfl⟩

/-- A command whose targets are all covered changes nothing. -/
theorem prepare_covered {engine : ScopeEngine} (hengine : file.preflight lib digest = .ok engine)
    (h : ∀ target ∈ targets, ∃ subject, ScopeSubject.modelValidate lib .domain target.name =
      .ok subject ∧ (file.Gives lib digest subject .inScope ∨ file.Gives lib digest subject .passiveOnly)) :
    prepareDefaultScopeForRun lib digest flags targets file = (.ok (), file) := by
  have hrun : runFrom (ScopeRun.step lib digest flags) ⟨file, .ok engine⟩ targets =
      ⟨file, .ok engine⟩ := by
    refine runFrom_invariant_mem (P := fun w : ScopeRun => w = ⟨file, .ok engine⟩) rfl ?_
    rintro _ target htarget rfl
    obtain ⟨subject, hmake, hcovers⟩ := h target htarget
    have hverdict : verdict lib flags engine target = .covered := by
      unfold verdict
      rcases hcovers with hgives | hgives
      · simp [(lookUp_ok_iff hengine).mpr ⟨hmake, hgives⟩]
      · simp [(lookUp_ok_iff hengine).mpr ⟨hmake, hgives⟩]
    simp only [ScopeRun.step, hverdict]
  unfold prepareDefaultScopeForRun
  split
  · rfl
  · rw [hengine]
    simp only [hrun]
    rfl

end Command

/-! ### Two first runs -/

/-- The first twelve digits of the digests of the ids for `example.com`. -/
def confirmedDigest (text : String) : String :=
  if text = "example.com|exact" then "161d2b438548" else "d71172562813"

def exampleTarget : Target := { name := "example.com" }

/-- The file a new user has. -/
def noRules : ScopeFile := ⟨[]⟩

/-- A file that excludes the administration of `example.com`. -/
def adminExcluded : ScopeFile :=
  ⟨[{ ruleId := "no-admin", kind := .url, pattern := "https://example.com/admin/*"
      state := .outOfScope }]⟩

end NightScout
