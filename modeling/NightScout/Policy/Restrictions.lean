import NightScout.Core.Gates
import NightScout.Core.Task
import NightScout.Lib.Fnmatch
import NightScout.Lib.Winner
import Mathlib.Data.Prod.Lex

/-!
# Action restrictions

`RestrictionRule` and `RestrictionEngine` of `recon/policy/restrictions.py`. A rule blocks a task or
sends it to review; there is no rule that allows. The baseline is looked at first, and then the
matching rule that ranks first decides: by priority, specificity, the severity of its outcome, and id.

Severity comes after priority and specificity, so a REVIEW rule can decide over a BLOCK rule. The
engine is the most restrictive reading of its rules only where none does (`Shadowed`).
-/

namespace NightScout

open Lib

inductive ActionClass where
  | passiveDiscovery | dnsQuery | httpProbe | tlsInspection | archiveLookup | crawl
  | javascriptAnalysis | contentDiscovery | parameterDiscovery | vhostDiscovery
  | mobileStaticAnalysis | fingerprinting | vulnerabilityValidation
  | authenticatedAccess | credentialUse | bruteForce | destructiveAction | resourceExhaustion
  | socialEngineering | exploitation
  deriving DecidableEq, Repr

namespace ActionClass

def value : ActionClass → String
  | passiveDiscovery => "PASSIVE_DISCOVERY" | dnsQuery => "DNS_QUERY" | httpProbe => "HTTP_PROBE"
  | tlsInspection => "TLS_INSPECTION" | archiveLookup => "ARCHIVE_LOOKUP" | crawl => "CRAWL"
  | javascriptAnalysis => "JAVASCRIPT_ANALYSIS" | contentDiscovery => "CONTENT_DISCOVERY"
  | parameterDiscovery => "PARAMETER_DISCOVERY" | vhostDiscovery => "VHOST_DISCOVERY"
  | mobileStaticAnalysis => "MOBILE_STATIC_ANALYSIS" | fingerprinting => "FINGERPRINTING"
  | vulnerabilityValidation => "VULNERABILITY_VALIDATION"
  | authenticatedAccess => "AUTHENTICATED_ACCESS" | credentialUse => "CREDENTIAL_USE"
  | bruteForce => "BRUTE_FORCE" | destructiveAction => "DESTRUCTIVE_ACTION"
  | resourceExhaustion => "RESOURCE_EXHAUSTION" | socialEngineering => "SOCIAL_ENGINEERING"
  | exploitation => "EXPLOITATION"

end ActionClass

inductive ActionCapability where
  | passiveOnly | activeNetwork | readOnly | stateChange | authenticatedSession | usesCredentials
  | accessesOtherUsersData | passwordGuessing | highVolumeGuessing | fileUpload
  | accountModification | transactionalAction | resourceExhaustion | availabilityImpact
  | socialInteraction | exploitExecution | directoryEnumeration | parameterEnumeration
  | hostHeaderVariation | historicalData | localStaticAnalysis | auditedTemplateExecution
  deriving DecidableEq, Repr

namespace ActionCapability

def value : ActionCapability → String
  | passiveOnly => "PASSIVE_ONLY" | activeNetwork => "ACTIVE_NETWORK" | readOnly => "READ_ONLY"
  | stateChange => "STATE_CHANGE" | authenticatedSession => "AUTHENTICATED_SESSION"
  | usesCredentials => "USES_CREDENTIALS" | accessesOtherUsersData => "ACCESSES_OTHER_USERS_DATA"
  | passwordGuessing => "PASSWORD_GUESSING" | highVolumeGuessing => "HIGH_VOLUME_GUESSING"
  | fileUpload => "FILE_UPLOAD" | accountModification => "ACCOUNT_MODIFICATION"
  | transactionalAction => "TRANSACTIONAL_ACTION" | resourceExhaustion => "RESOURCE_EXHAUSTION"
  | availabilityImpact => "AVAILABILITY_IMPACT" | socialInteraction => "SOCIAL_INTERACTION"
  | exploitExecution => "EXPLOIT_EXECUTION" | directoryEnumeration => "DIRECTORY_ENUMERATION"
  | parameterEnumeration => "PARAMETER_ENUMERATION"
  | hostHeaderVariation => "HOST_HEADER_VARIATION" | historicalData => "HISTORICAL_DATA"
  | localStaticAnalysis => "LOCAL_STATIC_ANALYSIS"
  | auditedTemplateExecution => "AUDITED_TEMPLATE_EXECUTION"

end ActionCapability

inductive RestrictionOutcome where
  | block | review
  deriving DecidableEq, Repr

inductive RestrictionSource where
  | baseline | program | default | unknownAction
  deriving DecidableEq, Repr

/-- What a worker invocation intends to do. -/
structure ActionDescriptor where
  actionClass : ActionClass
  capabilities : Finset ActionCapability := ∅
  description : Option String := none
  passive_consistent : ¬ (.passiveOnly ∈ capabilities ∧ .activeNetwork ∈ capabilities) := by decide
  readOnly_consistent : ¬ (.readOnly ∈ capabilities ∧ .stateChange ∈ capabilities) := by decide
  deriving DecidableEq

/-! ## Rules -/

/-- The fields of a rule before validation. -/
structure RawRestrictionRule where
  ruleId : String
  outcome : RestrictionOutcome
  actionClasses : Finset ActionClass := ∅
  workers : Finset String := ∅
  actions : Finset String := ∅
  allCapabilities : Finset ActionCapability := ∅
  anyCapabilities : Finset ActionCapability := ∅
  excludedCapabilities : Finset ActionCapability := ∅
  priority : ℤ := 0
  reason : String
  deriving DecidableEq

namespace RawRestrictionRule

def hasSelector (raw : RawRestrictionRule) : Prop :=
  raw.actionClasses ≠ ∅ ∨ raw.workers ≠ ∅ ∨ raw.actions ≠ ∅ ∨ raw.allCapabilities ≠ ∅ ∨
    raw.anyCapabilities ≠ ∅ ∨ raw.excludedCapabilities ≠ ∅

instance (raw : RawRestrictionRule) : Decidable raw.hasSelector :=
  inferInstanceAs (Decidable (_ ∨ _))

/-- Capabilities required and excluded at once. -/
def overlap (raw : RawRestrictionRule) : Finset ActionCapability :=
  (raw.allCapabilities ∪ raw.anyCapabilities) ∩ raw.excludedCapabilities

end RawRestrictionRule

/-- A validated rule: texts stripped, a selector, and no contradiction among the capabilities. -/
structure RestrictionRule extends RawRestrictionRule where
  ruleId_stripped : ruleId ≠ "" ∧ strip ruleId = ruleId
  reason_stripped : reason ≠ "" ∧ strip reason = reason
  selector : toRawRestrictionRule.hasSelector
  consistent : toRawRestrictionRule.overlap = ∅
  deriving DecidableEq

def normalizePatterns (patterns : Finset String) : Finset String :=
  (patterns.image strip).erase ""

/-- The values of a set of capabilities, as messages list them. -/
def joinCapabilities (capabilities : Finset ActionCapability) : String :=
  ", ".intercalate (sortedTexts (capabilities.image ActionCapability.value))

/-- What the field validators make of the fields. -/
def RawRestrictionRule.normalized (raw : RawRestrictionRule) : RawRestrictionRule :=
  { raw with
    ruleId := strip raw.ruleId
    reason := strip raw.reason
    workers := normalizePatterns raw.workers
    actions := normalizePatterns raw.actions }

namespace RestrictionRule

/-- `RestrictionRule(**raw)`. -/
def modelValidate (raw : RawRestrictionRule) : Except PyError RestrictionRule :=
  if hid : strip raw.ruleId = "" then .error (.valueError "must not be blank")
  else if hreason : strip raw.reason = "" then .error (.valueError "must not be blank")
  else if hselector : raw.normalized.hasSelector then
    if hoverlap : raw.normalized.overlap = ∅ then
      .ok
        { raw.normalized with
          ruleId_stripped := ⟨hid, strip_strip raw.ruleId⟩
          reason_stripped := ⟨hreason, strip_strip raw.reason⟩
          selector := hselector
          consistent := hoverlap }
    else
      .error (.valueError ("required and excluded capabilities overlap: " ++
        joinCapabilities raw.normalized.overlap))
  else .error (.valueError "restriction rule must define at least one selector")

/-- `matches`: all populated selectors select. -/
def matchesTask (rule : RestrictionRule) (task : Task) (descriptor : ActionDescriptor) : Bool :=
  (rule.actionClasses = ∅ || descriptor.actionClass ∈ rule.actionClasses) &&
  (rule.workers = ∅ || ∃ pattern ∈ rule.workers, fnmatchcase task.worker.text pattern) &&
  (rule.actions = ∅ || ∃ pattern ∈ rule.actions, fnmatchcase task.action.text pattern) &&
  rule.allCapabilities ⊆ descriptor.capabilities &&
  (rule.anyCapabilities = ∅ || (rule.anyCapabilities ∩ descriptor.capabilities).Nonempty) &&
  rule.excludedCapabilities ∩ descriptor.capabilities = ∅

/-- `RuleSpecificity`. -/
def generic : ℕ := 10
def actionClass : ℕ := 20
def workerOrAction : ℕ := 30
def capability : ℕ := 40
def combined : ℕ := 50

def specificity (rule : RestrictionRule) : ℕ × ℕ :=
  let selectorGroups := [rule.actionClasses.card, rule.workers.card, rule.actions.card,
    rule.allCapabilities.card, rule.anyCapabilities.card, rule.excludedCapabilities.card]
  let tier :=
    if 3 ≤ selectorGroups.countP (0 < ·) then combined
    else if 0 < rule.allCapabilities.card ∨ 0 < rule.anyCapabilities.card then capability
    else if 0 < rule.workers.card ∨ 0 < rule.actions.card then workerOrAction
    else if 0 < rule.actionClasses.card then actionClass
    else generic
  (tier, selectorGroups.foldl (· + ·) 0)

def outcomeSafety (rule : RestrictionRule) : ℕ := if rule.outcome = .block then 2 else 1

/-- The type of `_restriction_rule_sort_key`. -/
abbrev SortKey := ℤ ×ₗ ℕ ×ₗ ℕ ×ₗ ℕ ×ₗ String

/-- `_restriction_rule_sort_key`. -/
def sortKey (rule : RestrictionRule) : SortKey :=
  toLex (rule.priority, toLex (rule.specificity.1, toLex (rule.specificity.2,
    toLex (rule.outcomeSafety, rule.ruleId))))

end RestrictionRule

/-! ## The engine -/

def baselineBlockedActionClasses : Finset ActionClass :=
  {.authenticatedAccess, .credentialUse, .bruteForce, .destructiveAction, .resourceExhaustion,
    .socialEngineering, .exploitation}

def baselineBlockedCapabilities : Finset ActionCapability :=
  {.stateChange, .authenticatedSession, .usesCredentials, .accessesOtherUsersData,
    .passwordGuessing, .highVolumeGuessing, .fileUpload, .accountModification,
    .transactionalAction, .resourceExhaustion, .availabilityImpact, .socialInteraction,
    .exploitExecution}

def baselineViolationReason (descriptor : ActionDescriptor) : Option String :=
  let classReasons := if descriptor.actionClass ∈ baselineBlockedActionClasses then
    [s!"action_class={descriptor.actionClass.value}"] else []
  let blocked := descriptor.capabilities ∩ baselineBlockedCapabilities
  let reasons := classReasons ++
    if blocked ≠ ∅ then [s!"capabilities={joinCapabilities blocked}"] else []
  if reasons = [] then none
  else some ("Night Scout recon-only baseline blocks this action: " ++ "; ".intercalate reasons)

structure RestrictionDecision where
  outcome : GateOutcome
  source : RestrictionSource
  taskId : String
  worker : String
  action : String
  descriptor : Option ActionDescriptor := none
  matchedRuleId : Option String := none
  matchedRuleIds : List String := []
  reason : String
  deriving DecidableEq

/-- `RestrictionEngine`: its rules have distinct ids. -/
structure RestrictionEngine where
  rules : List RestrictionRule
  nodup : (rules.map fun rule => rule.ruleId).Nodup

namespace RestrictionEngine

/-- The first id that has come before. -/
def firstRepeated (seen : List String) : List String → Option String
  | [] => none
  | ruleId :: rest => if ruleId ∈ seen then some ruleId else firstRepeated (ruleId :: seen) rest

/-- `RestrictionEngine(rules)`. -/
def ofRules (rules : List RestrictionRule) : Except PyError RestrictionEngine :=
  if h : (rules.map fun rule => rule.ruleId).Nodup then .ok ⟨rules, h⟩
  else
    .error (.valueError ("duplicate restriction rule_id: " ++
      (firstRepeated [] (rules.map fun rule => rule.ruleId)).getD ""))

/-- The rules that match. -/
def matching (rules : List RestrictionRule) (task : Task) (descriptor : ActionDescriptor) :
    List RestrictionRule :=
  rules.filter fun rule => rule.matchesTask task descriptor

/-- The decision about a task on the matches, best first. -/
def decision (task : Task) (descriptor : ActionDescriptor) :
    List RestrictionRule → RestrictionDecision
  | [] =>
    { outcome := .allow, source := .default, taskId := task.taskId, worker := task.worker.text
      action := task.action.text, descriptor
      reason := "no baseline or program restriction matched" }
  | first :: rest =>
    { outcome := if first.outcome = .block then .block else .review
      source := .program, taskId := task.taskId, worker := task.worker.text
      action := task.action.text, descriptor
      matchedRuleId := first.ruleId
      matchedRuleIds := (first :: rest).map fun rule => rule.ruleId
      reason := first.reason }

def evaluate (engine : RestrictionEngine) (task : Task) (descriptor : ActionDescriptor) :
    RestrictionDecision :=
  match baselineViolationReason descriptor with
  | some reason =>
    { outcome := .block, source := .baseline, taskId := task.taskId, worker := task.worker.text
      action := task.action.text, descriptor, reason }
  | none =>
    decision task descriptor
      (ranked RestrictionRule.sortKey (matching engine.rules task descriptor))

end RestrictionEngine

/-- `RestrictionEngine(rules).evaluate(task=task, descriptor=descriptor)`. -/
def restrict (rules : List RestrictionRule) (task : Task) (descriptor : ActionDescriptor) :
    Except PyError RestrictionDecision := do
  let engine ← RestrictionEngine.ofRules rules
  return engine.evaluate task descriptor

/-! ## The most restrictive reading -/

namespace GateOutcome

/-- How restrictive an outcome of the engine is. -/
def severity : GateOutcome → ℕ
  | allow => 0 | defer => 0 | review => 1 | block => 2

end GateOutcome

/-- What a rule that matches asks for. -/
def RestrictionRule.effect (rule : RestrictionRule) : GateOutcome :=
  if rule.outcome = .block then .block else .review

section Restrictive

variable {rules rules' : List RestrictionRule} {extra rule : RestrictionRule} {task : Task}
  {descriptor : ActionDescriptor} {d : RestrictionDecision}

/-- The outcome is the most restrictive effect among the baseline and the matching rules. -/
def MostRestrictive (rules : List RestrictionRule) (task : Task) (descriptor : ActionDescriptor) :
    Prop :=
  ∀ d, restrict rules task descriptor = .ok d →
    if (baselineViolationReason descriptor).isSome then d.outcome = .block
    else (∀ rule ∈ RestrictionEngine.matching rules task descriptor,
        rule.effect.severity ≤ d.outcome.severity) ∧
      (d.outcome = .allow ∨ ∃ rule ∈ RestrictionEngine.matching rules task descriptor,
        rule.effect = d.outcome)

/-- Another rule never makes the outcome less restrictive, the outcome is the most restrictive effect
    with it and without it, and the order of the rules is immaterial. -/
structure RestrictionsSubtract (rules : List RestrictionRule) (extra : RestrictionRule) (task : Task)
    (descriptor : ActionDescriptor) : Prop where
  monotone : ∀ d d', restrict rules task descriptor = .ok d →
    restrict (rules ++ [extra]) task descriptor = .ok d' → d.outcome.severity ≤ d'.outcome.severity
  without : MostRestrictive rules task descriptor
  withExtra : MostRestrictive (rules ++ [extra]) task descriptor
  order : ∀ rules', rules'.Perm rules → ∀ d, restrict rules task descriptor = .ok d →
    restrict rules' task descriptor = .ok d

/-- The engine accepts the rules, the baseline has no objection, and of the matching rules a REVIEW
    rule outranks every BLOCK rule, of which there is one. -/
def Shadowed (rules : List RestrictionRule) (task : Task) (descriptor : ActionDescriptor) : Prop :=
  (rules.map fun rule => rule.ruleId).Nodup ∧ baselineViolationReason descriptor = none ∧
    ∃ weak ∈ RestrictionEngine.matching rules task descriptor, weak.outcome = .review ∧
      (∃ strong ∈ RestrictionEngine.matching rules task descriptor, strong.outcome = .block) ∧
      ∀ strong ∈ RestrictionEngine.matching rules task descriptor, strong.outcome = .block →
        strong.sortKey < weak.sortKey

theorem restrict_ok_iff : restrict rules task descriptor = .ok d ↔
    ∃ h : (rules.map fun rule => rule.ruleId).Nodup,
      RestrictionEngine.evaluate ⟨rules, h⟩ task descriptor = d := by
  unfold restrict RestrictionEngine.ofRules
  by_cases h : (rules.map fun rule => rule.ruleId).Nodup
  · simp [h]
  · simp [h]

theorem sortKey_nodup (h : (rules.map fun rule => rule.ruleId).Nodup) :
    ((RestrictionEngine.matching rules task descriptor).map RestrictionRule.sortKey).Nodup := by
  have hall : (rules.map RestrictionRule.sortKey).Nodup := by
    apply List.Nodup.of_map fun key : RestrictionRule.SortKey =>
      (ofLex (ofLex (ofLex (ofLex key).2).2).2).2
    rw [List.map_map]
    exact h
  exact hall.sublist (List.filter_sublist.map _)

/-- Without a baseline objection the decision is ALLOW for want of a rule, or the winner's. -/
theorem outcome_cases (h : restrict rules task descriptor = .ok d)
    (hbaseline : baselineViolationReason descriptor = none) :
    (RestrictionEngine.matching rules task descriptor = [] ∧ d.outcome = .allow) ∨
      ∃ w, winner RestrictionRule.sortKey (RestrictionEngine.matching rules task descriptor) =
        some w ∧ d.outcome = w.effect := by
  obtain ⟨hnd, rfl⟩ := restrict_ok_iff.mp h
  unfold RestrictionEngine.evaluate
  rw [hbaseline]
  simp only
  cases hm : RestrictionEngine.matching rules task descriptor with
  | nil => exact .inl ⟨rfl, rfl⟩
  | cons first rest =>
    right
    obtain ⟨w, hw⟩ := winner_isSome RestrictionRule.sortKey
      (List.mem_cons_self : first ∈ first :: rest)
    refine ⟨w, hw, ?_⟩
    unfold winner at hw
    cases hranked : ranked RestrictionRule.sortKey (first :: rest) with
    | nil =>
      rw [hranked] at hw
      cases hw
    | cons w' others =>
      rw [hranked] at hw
      cases hw
      rfl

theorem outcome_of_baseline {reason : String} (h : restrict rules task descriptor = .ok d)
    (hbaseline : baselineViolationReason descriptor = some reason) : d.outcome = .block := by
  obtain ⟨hnd, rfl⟩ := restrict_ok_iff.mp h
  unfold RestrictionEngine.evaluate
  rw [hbaseline]

@[simp] theorem effect_block (h : rule.outcome = .block) : rule.effect = .block := if_pos h

theorem effect_review (h : rule.outcome = .review) : rule.effect = .review := by
  unfold RestrictionRule.effect
  rw [h]
  rfl

theorem severity_effect_le (rule : RestrictionRule) : rule.effect.severity ≤ 2 := by
  cases h : rule.outcome with
  | block => rw [effect_block h]; rfl
  | review => rw [effect_review h]; decide

/-- **The engine reads its rules in the most restrictive way exactly if no BLOCK rule is shadowed.** -/
theorem mostRestrictive_iff : MostRestrictive rules task descriptor ↔ ¬ Shadowed rules task descriptor := by
  constructor
  · intro hmost ⟨hnd, hbaseline, weak, hweak, hreview, ⟨strong, hstrong, hblock⟩, hbest⟩
    obtain ⟨d, hd⟩ : ∃ d, restrict rules task descriptor = .ok d :=
      ⟨_, restrict_ok_iff.mpr ⟨hnd, rfl⟩⟩
    have hd' := hmost d hd
    rw [hbaseline] at hd'
    simp only [Option.isSome_none, Bool.false_eq_true, if_false] at hd'
    rcases outcome_cases hd hbaseline with ⟨hnil, -⟩ | ⟨w, hw, hout⟩
    · rw [hnil] at hweak
      cases hweak
    · -- the winner is no BLOCK rule, since the weak one outranks those
      have hwreview : w.outcome = .review := by
        cases hwout : w.outcome with
        | review => rfl
        | block =>
          have hlt := hbest w (winner_mem hw) hwout
          exact absurd hlt (not_lt.mpr (le_winner hw weak hweak))
      have hle := hd'.1 strong hstrong
      rw [hout, effect_review hwreview, effect_block hblock] at hle
      exact absurd hle (by decide)
  · intro hshadow d hd
    cases hbaseline : baselineViolationReason descriptor with
    | some reason =>
      simp only [Option.isSome_some, if_true]
      exact outcome_of_baseline hd hbaseline
    | none =>
      simp only [Option.isSome_none, Bool.false_eq_true, if_false]
      rcases outcome_cases hd hbaseline with ⟨hnil, hallow⟩ | ⟨w, hw, hout⟩
      · rw [hnil]
        exact ⟨fun rule hrule => absurd hrule List.not_mem_nil, .inl hallow⟩
      · refine ⟨fun rule hrule => ?_, .inr ⟨w, winner_mem hw, hout.symm⟩⟩
        rw [hout]
        cases hwout : w.outcome with
        | block =>
          rw [effect_block hwout]
          exact severity_effect_le rule
        | review =>
          rw [effect_review hwout]
          cases hrule' : rule.outcome with
          | review => rw [effect_review hrule']
          | block =>
            -- then the winner shadows it
            exfalso
            obtain ⟨hnd, -⟩ := restrict_ok_iff.mp hd
            refine hshadow ⟨hnd, hbaseline, w, winner_mem hw, hwout, ⟨rule, hrule, hrule'⟩, ?_⟩
            intro strong hstrong hblock
            refine lt_of_le_of_ne (le_winner hw strong hstrong) fun heq => ?_
            have hsame := List.inj_on_of_nodup_map (sortKey_nodup hnd) hstrong (winner_mem hw) heq
            rw [hsame, hwout] at hblock
            cases hblock

/-- The order of the rules is immaterial. -/
theorem restrict_perm (hperm : rules'.Perm rules) (h : restrict rules task descriptor = .ok d) :
    restrict rules' task descriptor = .ok d := by
  obtain ⟨hnd, rfl⟩ := restrict_ok_iff.mp h
  have hnd' := ((hperm.map fun rule => rule.ruleId).nodup_iff).mpr hnd
  have hranked : ranked RestrictionRule.sortKey (RestrictionEngine.matching rules' task descriptor) =
      ranked RestrictionRule.sortKey (RestrictionEngine.matching rules task descriptor) :=
    ranked_eq_of_perm (sortKey_nodup hnd') (hperm.filter _)
  refine restrict_ok_iff.mpr ⟨hnd', ?_⟩
  simp only [RestrictionEngine.evaluate, hranked]

/-- Another rule makes the outcome less restrictive only by shadowing. -/
theorem severity_le_of_not_shadowed (hshadow : ¬ Shadowed (rules ++ [extra]) task descriptor) {d' : RestrictionDecision}
    (h : restrict rules task descriptor = .ok d) (h' : restrict (rules ++ [extra]) task descriptor = .ok d') :
    d.outcome.severity ≤ d'.outcome.severity := by
  have hmost := mostRestrictive_iff.mpr hshadow d' h'
  cases hbaseline : baselineViolationReason descriptor with
  | some reason => rw [outcome_of_baseline h hbaseline, outcome_of_baseline h' hbaseline]
  | none =>
    rw [hbaseline] at hmost
    simp only [Option.isSome_none, Bool.false_eq_true, if_false] at hmost
    rcases outcome_cases h hbaseline with ⟨-, hallow⟩ | ⟨w, hw, hout⟩
    · rw [hallow]
      exact Nat.zero_le _
    · -- what decided before still matches
      rw [hout]
      apply hmost.1 w
      unfold RestrictionEngine.matching
      rw [List.filter_append]
      exact List.mem_append_left _ (winner_mem hw)

end Restrictive

/-- **Restrictions only subtract exactly if no BLOCK rule is shadowed**, without the extra rule and
    with it. -/
theorem restrictions_subtract_iff (rules : List RestrictionRule) (extra : RestrictionRule)
    (task : Task) (descriptor : ActionDescriptor) : RestrictionsSubtract rules extra task descriptor ↔
      ¬ Shadowed rules task descriptor ∧ ¬ Shadowed (rules ++ [extra]) task descriptor := by
  constructor
  · intro h
    exact ⟨mostRestrictive_iff.mp h.without, mostRestrictive_iff.mp h.withExtra⟩
  · intro ⟨hwithout, hwith⟩
    exact
      { monotone := fun d d' h h' => severity_le_of_not_shadowed hwith h h'
        without := mostRestrictive_iff.mpr hwithout
        withExtra := mostRestrictive_iff.mpr hwith
        order := fun rules' hperm d h => restrict_perm hperm h }

/-! ## A shadowed rule -/

/-- No content discovery. -/
def noDiscovery : RestrictionRule where
  ruleId := "no-discovery"
  outcome := .block
  actionClasses := {.contentDiscovery}
  reason := "content discovery is not allowed"
  ruleId_stripped := by decide
  reason_stripped := by decide
  selector := by decide
  consistent := by decide

/-- Everything the prober does is looked at, with priority. -/
def proberReviewed : RestrictionRule where
  ruleId := "prober"
  outcome := .review
  workers := {"ffuf"}
  priority := 10
  reason := "ask first"
  ruleId_stripped := by decide
  reason_stripped := by decide
  selector := by decide
  consistent := by decide

def discoveryTask : Task where
  taskId := "tsk_ffuf"
  worker := ⟨"ffuf", by decide, by decide⟩
  action := ⟨"discover", by decide, by decide⟩
  inputEventId := ⟨"evt_ffuf", by decide, by decide⟩
  createdAt := 0
  updatedAt := 0
  availableAt := 0
  lifecycle := by decide

def discoveryDescriptor : ActionDescriptor where
  actionClass := .contentDiscovery
  capabilities := {.activeNetwork, .readOnly}

/-- The added rule makes REVIEW of a BLOCK. -/
theorem review_shadows_block :
    ¬ RestrictionsSubtract [noDiscovery] proberReviewed discoveryTask discoveryDescriptor := by
  intro h
  have hbefore : (restrict [noDiscovery] discoveryTask discoveryDescriptor).map
      RestrictionDecision.outcome = .ok .block := by decide +kernel
  have hafter : (restrict ([noDiscovery] ++ [proberReviewed]) discoveryTask
      discoveryDescriptor).map RestrictionDecision.outcome = .ok .review := by decide +kernel
  cases hd : restrict [noDiscovery] discoveryTask discoveryDescriptor with
  | error e =>
    rw [hd] at hbefore
    cases hbefore
  | ok d =>
    cases hd' : restrict ([noDiscovery] ++ [proberReviewed]) discoveryTask
        discoveryDescriptor with
    | error e =>
      rw [hd'] at hafter
      cases hafter
    | ok d' =>
      have hle := h.monotone d d' hd hd'
      rw [hd] at hbefore
      rw [hd'] at hafter
      rw [Except.ok.inj hbefore, Except.ok.inj hafter] at hle
      exact absurd hle (by decide)

end NightScout
