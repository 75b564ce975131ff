import NightScout.Cli.DefaultScope
import NightScout.Policy.ConfirmedRules
import NightScout.Lib.Lists

/-!
# What authorizing targets changes

The runs of `_prepare_default_scope_for_run`. An authorization is `Confirmed` for the validated rules
(`ScopeRun.step_cases`), so what a run does to a classification follows from the step lemmas of
`ConfirmedRules`: IN_SCOPE stays, nothing but a target or a confirmed subdomain becomes IN_SCOPE, and
an existing classification is kept exactly if the rules added are outranked wherever they reach it
(`OutrankedRun`). The command looks only at the target before it adds them.

All of this is about names that mean themselves (`Plain`): no wildcard is passed as a target, and the
canonical form of each name, and of the apex of each wildcard in the file, is the name.
-/

namespace NightScout

open Lib

section Conditions

variable (lib : ScopeLib) (digest : String → String)

/-- The name is stable and has no glob, and so are the apexes of the wildcards in the file. -/
def Plain (file : ScopeFile) (name : String) : Prop :=
  Stable lib.toTables name ∧ hasGlob name = false ∧
    ∀ rules ∈ (file.load lib).toOption, ∀ rule ∈ rules, isAnchored rule = true →
      Stable lib.toTables (suffixOf rule.pattern)

instance (file : ScopeFile) (name : String) : Decidable (Plain lib file name) :=
  inferInstanceAs (Decidable (_ ∧ _ ∧ _))

/-- A subject as the code makes it. -/
def ValidSubject (subject : ScopeSubject) : Prop :=
  (subject.kind = .domain ∨ subject.kind = .url) ∧
    ∃ value, ScopeSubject.modelValidate lib subject.kind value = .ok subject

/-- The rules the file gains for a name are outranked by a rule of the file on every subject that the
    file classifies as something else than IN_SCOPE. -/
def Outranked (file : ScopeFile) (name : String) (sub : Bool) : Prop :=
  ∀ subject, ValidSubject lib subject →
    ∀ d, file.classify lib digest subject = .ok d → d.state ≠ .unknown → d.state ≠ .inScope →
      ∀ raw ∈ confirmedRules digest file name sub, ∀ rule,
        ScopeRule.modelValidate lib raw = .ok rule → rule.Matches lib subject →
          ∃ rules, file.load lib = .ok rules ∧ ∃ old ∈ rules, old.Matches lib subject ∧
            rule.sortKey lib < old.sortKey lib

/-- What the command authorizes for a target, if anything: the name and whether its subdomains. -/
def authorization (flags : AuthorizeFlags) (w : ScopeRun) (target : Target) :
    Option (String × Bool) :=
  match w.engine with
  | .error _ => none
  | .ok engine =>
    match verdict lib flags engine target with
    | .authorize subject sub => (normalizeDomain lib subject.value).toOption.map (·, sub)
    | _ => none

/-- If the target is authorized, the file it is added to, the name and the answer meet `ok`. -/
def WhenAuthorized (ok : ScopeFile → String → Bool → Prop) (flags : AuthorizeFlags) (w : ScopeRun)
    (target : Target) : Prop :=
  ∀ p ∈ authorization lib flags w target, ok w.file p.1 p.2

/-- Every authorization of the command meets the condition. -/
def AlongTargets (ok : ScopeFile → String → Bool → Prop) (flags : AuthorizeFlags)
    (targets : List Target) (file : ScopeFile) : Prop :=
  ∀ engine ∈ (file.preflight lib digest).toOption,
    Along (ScopeRun.step lib digest flags) (WhenAuthorized lib ok flags) ⟨file, .ok engine⟩ targets

instance (ok : ScopeFile → String → Bool → Prop) [∀ file name sub, Decidable (ok file name sub)]
    (flags : AuthorizeFlags) (targets : List Target) (file : ScopeFile) :
    Decidable (AlongTargets lib digest ok flags targets file) := by
  unfold AlongTargets WhenAuthorized
  infer_instance

/-- The state a file gives a subject, if it gives one. -/
def ScopeFile.Gives (file : ScopeFile) (subject : ScopeSubject) (state : ScopeState) : Prop :=
  ∃ d, file.classify lib digest subject = .ok d ∧ d.state = state

/-- The canonical name of a target. -/
def Target.Named (target : Target) (name : String) : Prop :=
  ∃ subject, ScopeSubject.modelValidate lib .domain target.name = .ok subject ∧
    HostIs lib subject name

/-- What authorizing is to leave alone: the file loads, a classified subject keeps its state, only
    the targets and their confirmed subdomains become IN_SCOPE, every target is covered, and another
    run changes nothing. -/
structure AuthorizationKeeps (flags : AuthorizeFlags) (targets : List Target)
    (file file' : ScopeFile) : Prop where
  loads : ∃ rules, file'.load lib = .ok rules
  keeps : ∀ subject, ValidSubject lib subject → ∀ state, state ≠ .unknown →
    file.Gives lib digest subject state → file'.Gives lib digest subject state
  became : ∀ subject, ValidSubject lib subject → file'.Gives lib digest subject .inScope →
    ¬ file.Gives lib digest subject .inScope → ∃ host, HostIs lib subject host ∧
      ∃ target ∈ targets, ∃ name, target.Named lib name ∧
        (host = name ∨ target.includeSubdomains flags = true ∧ isSubdomain host name = true)
  covers : ∀ target ∈ targets, ∃ subject, ScopeSubject.modelValidate lib .domain target.name =
    .ok subject ∧ (file'.Gives lib digest subject .inScope ∨
      file'.Gives lib digest subject .passiveOnly)
  rerun : prepareDefaultScopeForRun lib digest flags targets file' = (.ok (), file')

end Conditions

/-! ## One target -/

section Step

variable {lib : ScopeLib} {digest : String → String} {flags : AuthorizeFlags} {w : ScopeRun}
  {target : Target} {file file' : ScopeFile} {rules : List ScopeRule} {name : String} {sub : Bool}
  {subject : ScopeSubject} {state : ScopeState}

theorem canonicalDomain_of_normalizeDomain {value : String}
    (h : normalizeDomain lib value = .ok name) : canonicalDomain lib.toTables value = .ok name := by
  unfold normalizeDomain at h
  simp only at h
  obtain ⟨hcandidate, h⟩ := guard_ok h
  cases hencode : idnaEncode lib.toTables (strLower lib.toTables (rstripDots (strip value))) with
  | none =>
    rw [hencode] at h
    cases h
  | some encoded =>
    rw [hencode] at h
    obtain ⟨hlabels, h⟩ := guard_ok h
    cases h
    refine canonicalDomain_ok_iff.mpr ⟨fun hempty => hcandidate (.inl hempty), hencode, ?_⟩
    intro hempty
    exact hlabels (.inr ⟨[], hempty, .inl rfl⟩)

theorem preflight_ok {engine : ScopeEngine} (h : file.preflight lib digest = .ok engine) :
    ∃ rules anchors, file.load lib = .ok rules ∧ derivedWildcardAnchorRules lib digest rules = .ok anchors ∧
      ScopeEngine.ofRules (rules ++ anchors) = .ok engine := by
  obtain ⟨rules, hload, h⟩ := bind_ok h
  obtain ⟨effective, heffective, h⟩ := bind_ok h
  obtain ⟨anchors, hanchors, heffective⟩ := bind_ok heffective
  cases heffective
  exact ⟨rules, anchors, hload, hanchors, h⟩

theorem fileClassify_eq {anchors : List ScopeRule} (hload : file.load lib = .ok rules)
    (hanchors : derivedWildcardAnchorRules lib digest rules = .ok anchors) :
    file.classify lib digest subject = classify lib (rules ++ anchors) subject := by
  simp only [ScopeFile.classify, hload, ok_bind, classifyEffective_of hanchors]

/-- The engine of the command says what the file says. -/
theorem evaluate_eq_fileClassify {engine : ScopeEngine} (h : file.preflight lib digest = .ok engine) :
    engine.evaluate lib subject = file.classify lib digest subject := by
  obtain ⟨rules, anchors, hload, hanchors, hengine⟩ := preflight_ok h
  rw [fileClassify_eq hload hanchors, evaluate_eq_classify hengine]

theorem lookUp_ok_iff {engine : ScopeEngine} (h : file.preflight lib digest = .ok engine) :
    lookUp lib engine target.name = .ok (subject, state) ↔
      ScopeSubject.modelValidate lib .domain target.name = .ok subject ∧ file.Gives lib digest subject state := by
  unfold lookUp ScopeFile.Gives
  rw [← evaluate_eq_fileClassify h]
  cases hvalid : ScopeSubject.modelValidate lib .domain target.name with
  | error e => simp
  | ok found =>
    rw [ok_bind]
    constructor
    · intro hlook
      obtain ⟨d, hd, hlook⟩ := bind_ok hlook
      cases hlook
      exact ⟨rfl, d, hd, rfl⟩
    · intro ⟨hsame, d, hd, hstate⟩
      cases hsame
      simp only [hd, ok_bind, hstate, pure_eq_ok]

/-- The command between two targets has the engine of the file. -/
def ScopeRun.Ready (lib : ScopeLib) (digest : String → String) (w : ScopeRun) : Prop :=
  ∀ engine, w.engine = .ok engine → w.file.preflight lib digest = .ok engine

theorem ScopeRun.step_of_error {e : PyError} (h : w.engine = .error e) : w.step lib digest flags target = w := by
  unfold ScopeRun.step
  rw [h]

theorem ready_authorize : (w.authorize lib digest subject sub).Ready lib digest := by
  unfold ScopeRun.authorize
  cases addConfirmedDomainScope lib digest w.file subject.value sub with
  | error e =>
    intro engine hengine
    cases hengine
  | ok file => exact fun engine hengine => hengine

theorem ScopeRun.Ready.step (h : w.Ready lib digest) : (w.step lib digest flags target).Ready lib digest := by
  unfold ScopeRun.step
  split
  · exact h
  · split
    · exact h
    · intro engine hengine
      cases hengine
    · exact ready_authorize

theorem authorize_file {engine' : ScopeEngine} (h : (w.authorize lib digest subject sub).engine = .ok engine') :
    ∃ name, normalizeDomain lib subject.value = .ok name ∧ (w.authorize lib digest subject sub).file =
        ⟨w.file.rules ++ confirmedRules digest w.file name sub⟩ := by
  unfold ScopeRun.authorize addConfirmedDomainScope at h ⊢
  cases hname : normalizeDomain lib subject.value with
  | error e =>
    rw [hname] at h
    cases h
  | ok name => exact ⟨name, rfl, rfl⟩

/-- **What the command does about a target**, if it does not end there: the target is covered, or the
    rules for its name are added and the file is loaded again. -/
theorem ScopeRun.step_cases {engine' : ScopeEngine} (hready : w.Ready lib digest)
    (h : (w.step lib digest flags target).engine = .ok engine') :
    ∃ subject, ScopeSubject.modelValidate lib .domain target.name = .ok subject ∧
      (((w.file.Gives lib digest subject .inScope ∨ w.file.Gives lib digest subject .passiveOnly) ∧
          w.step lib digest flags target = w ∧ authorization lib flags w target = none) ∨
        ∃ name, w.file.Gives lib digest subject .unknown ∧ normalizeDomain lib subject.value = .ok name ∧
          (w.step lib digest flags target).file = ⟨w.file.rules ++
            confirmedRules digest w.file name (target.includeSubdomains flags)⟩ ∧
          authorization lib flags w target = some (name, target.includeSubdomains flags)) := by
  cases hengine : w.engine with
  | error e =>
    rw [ScopeRun.step_of_error hengine, hengine] at h
    cases h
  | ok engine =>
    have hpreflight := hready engine hengine
    unfold ScopeRun.step at h ⊢
    unfold authorization
    simp only [hengine] at h ⊢
    unfold verdict at h ⊢
    cases hlook : lookUp lib engine target.name with
    | error e =>
      rw [hlook] at h
      cases h
    | ok found =>
      obtain ⟨subject, state⟩ := found
      obtain ⟨hvalid, hgives⟩ := (lookUp_ok_iff hpreflight).mp hlook
      refine ⟨subject, hvalid, ?_⟩
      simp only [hlook] at h ⊢
      by_cases hcovered : state = .inScope ∨ state = .passiveOnly
      · left
        simp only [if_pos hcovered]
        refine ⟨?_, trivial, trivial⟩
        rcases hcovered with rfl | rfl
        · exact .inl hgives
        · exact .inr hgives
      · right
        simp only [if_neg hcovered] at h ⊢
        by_cases hrefused : state ≠ .unknown ∨ !target.authorized flags
        · rw [if_pos hrefused] at h
          cases h
        · simp only [if_neg hrefused] at h ⊢
          obtain ⟨name, hname, hfile⟩ := authorize_file h
          have hunknown : state = .unknown := by
            by_contra hne
            exact hrefused (.inl hne)
          rw [hunknown] at hgives
          exact ⟨name, hgives, hname, hfile, by rw [hname]; rfl⟩

end Step

/-! ## One authorization -/

/-- The rules for a plain name were added to a file. -/
structure Authorized (lib : ScopeLib) (digest : String → String) (file file' : ScopeFile)
    (rules added anchors anchors' : List ScopeRule) (name : String) (sub : Bool) : Prop extends
    Confirmed lib digest rules added anchors anchors' name sub where
  loaded : file.load lib = .ok rules
  loaded' : file'.load lib = .ok (rules ++ added)
  added_eq : (confirmedRules digest file name sub).mapM (ScopeRule.modelValidate lib) = .ok added

section Authorization

variable {lib : ScopeLib} {digest : String → String} {file file' : ScopeFile}
  {rules added anchors anchors' : List ScopeRule} {name : String} {sub : Bool}
  {subject : ScopeSubject} {state : ScopeState}

/-- The rule added for a name is for the name, and the wildcard for its subdomains. -/
theorem confirmedRules_spec (hstable : Stable lib.toTables name) (hglob : hasGlob name = false)
    {raw : RawScopeRule} {rule : ScopeRule} (hraw : raw ∈ confirmedRules digest file name sub)
    (hrule : ScopeRule.modelValidate lib raw = .ok rule) : rule.kind = .domain ∧ rule.state = .inScope ∧
      (rule.pattern = name ∨ sub = true ∧ rule.pattern = "*." ++ name) := by
  obtain ⟨hkind, hstate, -, hpattern⟩ := modelValidate_fields hrule
  unfold confirmedRules at hraw
  rcases List.mem_append.mp hraw with hraw | hraw
  · split at hraw
    · cases hraw
    · obtain rfl := List.mem_singleton.mp hraw
      exact ⟨hkind, hstate, .inl (canonicalizeRulePattern_domain hstable hglob hpattern)⟩
  · split at hraw
    next hsub =>
      obtain rfl := List.mem_singleton.mp hraw
      refine ⟨hkind, hstate, .inr ⟨hsub.1, ?_⟩⟩
      rw [show (wildcardRule digest name).kind = .domain from rfl,
        show (wildcardRule digest name).pattern = "*." ++ name from rfl,
        canonicalizeRulePattern_wildcard hstable] at hpattern
      exact (Except.ok.inj hpattern).symm
    next =>
      cases hraw

/-- A file that has a DOMAIN rule written with the name classifies the name, so the exact rule is
    always added. -/
theorem exact_added (hstable : Stable lib.toTables name) (hglob : hasGlob name = false)
    (hload : file.load lib = .ok rules) (hunmatched : ∀ rule ∈ rules, ¬ rule.Matches lib ⟨.domain, name⟩) :
    exactRule digest name ∈ confirmedRules digest file name sub := by
  unfold confirmedRules
  apply List.mem_append_left
  rw [if_neg, List.mem_singleton]
  intro hhas
  obtain ⟨raw, hraw, hsame⟩ := List.any_eq_true.mp hhas
  simp only [Bool.and_eq_true, decide_eq_true_eq] at hsame
  obtain ⟨rule, hrule, hvalid⟩ := mem_of_forall₂_left (forall₂_of_mapM_ok hload) hraw
  obtain ⟨hkind, -, -, hpattern⟩ := modelValidate_fields hvalid
  rw [hsame.1, hsame.2] at hpattern
  refine hunmatched rule hrule ((domain_matches_iff (hkind.trans hsame.1)).mpr
    ⟨name, hostIs_domain hstable, ?_⟩)
  rw [canonicalizeRulePattern_domain hstable hglob hpattern, matchesHost_plain hglob]

theorem gives_iff (hload : file.load lib = .ok rules)
    (hanchors : derivedWildcardAnchorRules lib digest rules = .ok anchors) : file.Gives lib digest subject state ↔
      ∃ d, classify lib (rules ++ anchors) subject = .ok d ∧ d.state = state := by
  unfold ScopeFile.Gives
  rw [fileClassify_eq hload hanchors]

/-- **An authorization confirms the name.** -/
theorem authorized_of_files {engine engine' : ScopeEngine} {value : String}
    (hengine : file.preflight lib digest = .ok engine) (hengine' : file'.preflight lib digest = .ok engine')
    (hfile : file' = ⟨file.rules ++ confirmedRules digest file name sub⟩)
    (hplain : Plain lib file name) (hname : normalizeDomain lib value = .ok name)
    (hunknown : file.Gives lib digest ⟨.domain, value⟩ .unknown) : ∃ rules added anchors anchors',
      Authorized lib digest file file' rules added anchors anchors' name sub := by
  obtain ⟨hstable, hglob, hapexes⟩ := hplain
  obtain ⟨rules, anchors, hload, hanchors, hof⟩ := preflight_ok hengine
  obtain ⟨rules', anchors', hload', hanchors', hof'⟩ := preflight_ok hengine'
  have hsplit := hload'
  rw [hfile, ScopeFile.load, List.mapM_append] at hsplit
  obtain ⟨old, hold, hsplit⟩ := bind_ok hsplit
  obtain ⟨added, hadded, hsplit⟩ := bind_ok hsplit
  cases hsplit
  obtain rfl : old = rules := Except.ok.inj (hold.symm.trans hload)
  refine ⟨old, added, anchors, anchors', ⟨?_, hload, hload', hadded⟩⟩
  obtain ⟨d, hd, hstate⟩ := (gives_iff hload hanchors).mp hunknown
  have hhost : HostIs lib ⟨.domain, value⟩ name :=
    ⟨value, rfl, canonicalDomain_of_normalizeDomain hname⟩
  have hunmatched : ∀ rule ∈ old, ¬ rule.Matches lib ⟨.domain, name⟩ := by
    intro rule hrule hmatch
    refine (unknown_iff hd).mp hstate rule (List.mem_append_left anchors hrule) ?_
    exact (matches_congr_host (kind_of_matches_domain hmatch) hhost
      (hostIs_domain hstable)).mpr hmatch
  have hforall := forall₂_of_mapM_ok hadded
  refine ⟨hanchors, hanchors', (ofRules_ok_iff.mp hof).1, (ofRules_ok_iff.mp hof').1, hstable, hglob,
    hapexes old (by rw [hload]; rfl), ?_, ?_⟩
  · obtain ⟨rule, hrule, hvalid⟩ := mem_of_forall₂_left hforall
      (exact_added hstable hglob hload hunmatched)
    obtain ⟨-, -, -, hpattern⟩ := modelValidate_fields hvalid
    exact ⟨rule, hrule, canonicalizeRulePattern_domain hstable hglob hpattern⟩
  · intro rule hrule
    obtain ⟨raw, hraw, hvalid⟩ := mem_of_forall₂_right hforall hrule
    exact confirmedRules_spec hstable hglob hraw hvalid

namespace Authorized

theorem gives (h : Authorized lib digest file file' rules added anchors anchors' name sub) :
    file.Gives lib digest subject state ↔ ∃ d, classify lib (rules ++ anchors) subject = .ok d ∧ d.state = state :=
  gives_iff h.loaded h.anchors_eq

theorem gives' (h : Authorized lib digest file file' rules added anchors anchors' name sub) :
    file'.Gives lib digest subject state ↔
      ∃ d, classify lib (rules ++ added ++ anchors') subject = .ok d ∧ d.state = state :=
  gives_iff h.loaded' h.anchors'_eq

theorem inScope_stays (h : Authorized lib digest file file' rules added anchors anchors' name sub)
    (hgives : file.Gives lib digest subject .inScope) : file'.Gives lib digest subject .inScope := by
  obtain ⟨d, hd, hstate⟩ := h.gives.mp hgives
  exact h.gives'.mpr (h.inScope_of_inScope hd hstate)

/-- The apexes of the anchors are not reached: they are PASSIVE_ONLY, and no rule outranks anything
    there. -/
theorem apex_unreached (h : Authorized lib digest file file' rules added anchors anchors' name sub)
    (houtranked : Outranked lib digest file name sub) :
    ∀ anchor ∈ anchors, ¬ Reached lib added ⟨.domain, anchor.pattern⟩ := by
  intro anchor hanchor ⟨rule, hrule, hmatch⟩
  obtain ⟨hkind, -, hstable, hglob, d₀, hd₀, hunknown⟩ := h.anchor_spec hanchor
  have hunmatched := (unknown_iff hd₀).mp hunknown
  have hanchormatch : anchor.Matches lib ⟨.domain, anchor.pattern⟩ :=
    (domain_matches_iff hkind).mpr
      ⟨anchor.pattern, hostIs_domain hstable, (matchesHost_plain hglob).mpr rfl⟩
  obtain ⟨d, hd⟩ : ∃ d, classify lib (rules ++ anchors) ⟨.domain, anchor.pattern⟩ = .ok d := by
    refine classify_total h.nodup fun rule hrule => ?_
    rcases List.mem_append.mp hrule with hrule | hrule
    · exact (classify_ok_iff.mp hd₀).2.1 rule hrule
    · exact domain_ok_of_host (derived_passive h.anchors_eq rule hrule).1 (hostIs_domain hstable)
  have hstate : d.state ≠ .unknown := by
    intro hcontra
    exact (unknown_iff hd).mp hcontra anchor (List.mem_append_right rules hanchor) hanchormatch
  have hnotInScope : d.state ≠ .inScope := by
    obtain ⟨w, hw, hwstate⟩ := exists_winner hd hstate
    obtain ⟨hwmem, hwmatch⟩ := mem_applicable.mp (winner_mem hw)
    rcases List.mem_append.mp hwmem with hwmem | hwmem
    · exact absurd hwmatch (hunmatched w hwmem)
    · rw [hwstate, (derived_passive h.anchors_eq w hwmem).2]
      intro hcontra
      cases hcontra
  obtain ⟨raw, hraw, hvalid⟩ := mem_of_forall₂_right (forall₂_of_mapM_ok h.added_eq) hrule
  obtain ⟨found, hfound, old, hold, holdmatch, -⟩ := houtranked ⟨.domain, anchor.pattern⟩
    ⟨.inl rfl, anchor.pattern, modelValidate_domain hstable⟩ d
    (by rw [fileClassify_eq h.loaded h.anchors_eq]; exact hd) hstate hnotInScope raw hraw rule
    hvalid hmatch
  obtain rfl : found = rules := Except.ok.inj (hfound.symm.trans h.loaded)
  exact hunmatched old hold holdmatch

/-- **Where the added rules are outranked, a classified subject keeps its state.** -/
theorem keeps (h : Authorized lib digest file file' rules added anchors anchors' name sub)
    (houtranked : Outranked lib digest file name sub) (hvalid : ValidSubject lib subject)
    (hstate : state ≠ .unknown) (hgives : file.Gives lib digest subject state) :
    file'.Gives lib digest subject state := by
  by_cases hin : state = .inScope
  · subst hin
    exact h.inScope_stays hgives
  · obtain ⟨d, hd, rfl⟩ := h.gives.mp hgives
    refine h.gives'.mpr (h.kept_of_outranked (h.apex_unreached houtranked) hd hstate ?_)
    intro rule hrule hmatch
    obtain ⟨raw, hraw, hmake⟩ := mem_of_forall₂_right (forall₂_of_mapM_ok h.added_eq) hrule
    obtain ⟨found, hfound, old, hold, hbest⟩ := houtranked subject hvalid d
      (by rw [fileClassify_eq h.loaded h.anchors_eq]; exact hd) hstate hin raw hraw rule hmake hmatch
    obtain rfl : found = rules := Except.ok.inj (hfound.symm.trans h.loaded)
    exact ⟨old, hold, hbest⟩

/-- What the file gives up, if the added rules are not outranked, is IN_SCOPE afterwards. -/
theorem inScope_of_not_outranked' (h : Authorized lib digest file file' rules added anchors anchors' name sub)
    (hnot : ¬ Outranked lib digest file name sub) :
    ∃ subject, ValidSubject lib subject ∧ ∃ state, state ≠ .unknown ∧ state ≠ .inScope ∧
      file.Gives lib digest subject state ∧ file'.Gives lib digest subject .inScope := by
  unfold Outranked at hnot
  push Not at hnot
  obtain ⟨subject, hvalid, d, hd, hstate, hin, raw, hraw, rule, hmake, hmatch, hbest⟩ := hnot
  refine ⟨subject, hvalid, d.state, hstate, hin, ⟨d, hd, rfl⟩, h.gives'.mpr ?_⟩
  rw [fileClassify_eq h.loaded h.anchors_eq] at hd
  obtain ⟨made, hmade, hsame⟩ := mem_of_forall₂_left (forall₂_of_mapM_ok h.added_eq) hraw
  obtain rfl : made = rule := Except.ok.inj (hsame.symm.trans hmake)
  refine h.inScope_of_not_outranked hd hstate hmade hmatch ?_
  intro ⟨old, hold, holdmatch, hlt⟩
  exact absurd hlt (not_lt.mpr (hbest rules h.loaded old hold holdmatch))

/-- What is classified afterwards but not IN_SCOPE was so before. -/
theorem before (h : Authorized lib digest file file' rules added anchors anchors' name sub)
    (hstate : state ≠ .unknown) (hin : state ≠ .inScope) (hgives : file'.Gives lib digest subject state) :
    ∃ state, state ≠ .unknown ∧ state ≠ .inScope ∧ file.Gives lib digest subject state := by
  obtain ⟨d', hd', rfl⟩ := h.gives'.mp hgives
  obtain ⟨d, hd⟩ := h.classify_ok_before hd' hstate
  refine ⟨d.state, ?_, ?_, h.gives.mpr ⟨d, hd, rfl⟩⟩
  · intro hunknown
    -- what classifies it afterwards is neither an old rule nor an old anchor, so it is added
    obtain ⟨w, hw, hwstate⟩ := exists_winner hd' hstate
    obtain ⟨hwmem, hwmatch⟩ := mem_applicable.mp (winner_mem hw)
    have hnone := (unknown_iff hd).mp hunknown
    rcases List.mem_append.mp hwmem with hwmem | hwmem
    · rcases List.mem_append.mp hwmem with hwmem | hwmem
      · exact hnone w (List.mem_append_left anchors hwmem) hwmatch
      · rw [hwstate] at hin
        exact hin (h.added_rule w hwmem).2.1
    · exact hnone w (List.mem_append_right rules (h.mem_anchors'_iff.mp hwmem).1) hwmatch
  · intro hcontra
    obtain ⟨d'', hd'', hstate''⟩ := h.inScope_of_inScope hd hcontra
    rw [hd'] at hd''
    cases hd''
    exact hin hstate''

theorem became (h : Authorized lib digest file file' rules added anchors anchors' name sub)
    (hgives : file'.Gives lib digest subject .inScope) (hbefore : ¬ file.Gives lib digest subject .inScope) :
    ∃ host, HostIs lib subject host ∧ (host = name ∨ sub = true ∧ isSubdomain host name = true) := by
  obtain ⟨d', hd', hstate⟩ := h.gives'.mp hgives
  exact h.host_of_became hd' hstate fun d hd hin => hbefore (h.gives.mpr ⟨d, hd, hin⟩)

theorem name_inScope (h : Authorized lib digest file file' rules added anchors anchors' name sub)
    (hhost : HostIs lib subject name) (hgives : file.Gives lib digest subject .unknown) :
    file'.Gives lib digest subject .inScope := by
  obtain ⟨d, hd, hstate⟩ := h.gives.mp hgives
  exact h.gives'.mpr (h.inScope_of_name hhost hd hstate)

end Authorized

end Authorization

end NightScout
