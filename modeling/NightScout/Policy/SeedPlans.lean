import NightScout.Lib.OrderedSets
import NightScout.Policy.Seeds

/-!
# Domain seeds

`plan_domain_seeds` of `recon/policy/seeds.py`: where discovery starts. Every IN_SCOPE rule for a domain or a wildcard
leads to a seed, or to a warning that it does not, under the rules together with their anchors. Seeds of one domain
are merged.
-/

namespace NightScout

open Lib

inductive DomainSeedMode where
  | exact | wildcardAnchor | explicit
  deriving DecidableEq, Repr

structure DomainSeedSpec where
  domain : String
  scopeState : ScopeState
  mode : DomainSeedMode
  matchedRuleId : Option String := none
  sourceRuleIds : List String := []
  deriving DecidableEq

structure DomainSeedPlan where
  seeds : List DomainSeedSpec
  warnings : List String := []
  deriving DecidableEq

/-- What the loop makes of a rule. -/
inductive Planned where
  | seed (spec : DomainSeedSpec)
  | warning (text : String)

def Planned.seed? : Planned → Option DomainSeedSpec
  | seed spec => some spec
  | warning _ => none

def Planned.warning? : Planned → Option String
  | seed _ => none
  | warning text => some text

/-! ## Merging -/

/-- Two seeds of one domain. -/
def mergeSeeds (current seed : DomainSeedSpec) : DomainSeedSpec :=
  let mergedRules := fromkeys (current.sourceRuleIds ++ seed.sourceRuleIds)
  if current.scopeState = .inScope then { current with sourceRuleIds := mergedRules }
  else if seed.scopeState = .inScope then { seed with sourceRuleIds := mergedRules }
  else { current with sourceRuleIds := mergedRules }

/-- The seeds by their domain. -/
def byDomain (seeds : List DomainSeedSpec) : Dict String DomainSeedSpec :=
  seeds.foldl (fun d seed =>
    match d.get? seed.domain with
    | none => d.set seed.domain seed
    | some current => d.set seed.domain (mergeSeeds current seed)) .empty

def dedupeSeeds (seeds : List DomainSeedSpec) : List DomainSeedSpec :=
  (sortedTexts (byDomain seeds).keys.toFinset).filterMap (byDomain seeds).get?

/-! ## Planning -/

section Planning

variable (lib : ScopeLib) (digest quoted : String → String)

/-- A state that a seed may have. -/
def isSeedState (state : ScopeState) : Bool := state = .inScope || state = .passiveOnly

/-- The engine's decision on a domain. -/
def decideDomain (engine : ScopeEngine) (domain : String) : Except PyError ScopeDecision := do
  let subject ← ScopeSubject.modelValidate lib .domain domain
  engine.evaluate lib subject

def isAnchorId (anchors : List ScopeRule) (ruleId : Option String) : Bool :=
  ruleId ∈ anchors.map fun rule => some rule.ruleId.text

/-- The domain of a rule and the mode of its seed; none for a glob. -/
def seedDomain (rule : ScopeRule) : Option (String × DomainSeedMode) :=
  if isWildcard rule.pattern && !hasGlob (suffixOf rule.pattern) then some (suffixOf rule.pattern, .wildcardAnchor)
  else if !hasGlob rule.pattern then some (rule.pattern, .exact)
  else none

def globWarning (rule : ScopeRule) : String :=
  s!"scope rule {rule.ruleId.text} uses unsupported DOMAIN glob {quoted rule.pattern}; " ++
    "it remains an authorization rule but was not auto-seeded"

def stateWarning (rule : ScopeRule) (domain : String) (state : ScopeState) : String :=
  s!"scope rule {rule.ruleId.text} did not produce an executable seed for {domain}: " ++
    s!"effective state is {state.value}"

/-- The loop body. -/
def planRule (engine : ScopeEngine) (anchors : List ScopeRule) (rule : ScopeRule) :
    Except PyError (Option Planned) :=
  if rule.kind ≠ .domain ∨ rule.state ≠ .inScope then .ok none
  else
    match seedDomain rule with
    | none => .ok (some (.warning (globWarning quoted rule)))
    | some (domain, expectedMode) => do
      let decision ← decideDomain lib engine domain
      if !isSeedState decision.state then return some (.warning (stateWarning rule domain decision.state))
      else return some (.seed
        { domain, scopeState := decision.state
          mode := if isAnchorId anchors decision.matchedRuleId then .wildcardAnchor else expectedMode
          matchedRuleId := decision.matchedRuleId
          sourceRuleIds := fromkeys (rule.ruleId.text :: decision.matchedRuleIds) })

/-- The loop over the rules. -/
def planRules (engine : ScopeEngine) (anchors : List ScopeRule) :
    List ScopeRule → Except PyError (List Planned)
  | [] => .ok []
  | rule :: rules => do
    let planned ← planRule lib quoted engine anchors rule
    let rest ← planRules engine anchors rules
    return planned.toList ++ rest

/-- The seed of a requested domain. -/
def requestedSeed (engine : ScopeEngine) (anchors : List ScopeRule) (raw : String) :
    Except PyError DomainSeedSpec := do
  let subject ← ScopeSubject.modelValidate lib .domain raw
  let decision ← engine.evaluate lib subject
  if !isSeedState decision.state then
    .error (.valueError (s!"requested seed {quoted subject.value} is {decision.state.value}; " ++
      "it must be explicitly IN_SCOPE or PASSIVE_ONLY"))
  else return {
    domain := subject.value, scopeState := decision.state
    mode := if isAnchorId anchors decision.matchedRuleId then .wildcardAnchor else .explicit
    matchedRuleId := decision.matchedRuleId
    sourceRuleIds := decision.matchedRuleIds }

def planDomainSeeds (rules : List ScopeRule) (requestedDomains : List String) : Except PyError DomainSeedPlan := do
  let anchors ← derivedWildcardAnchorRules lib digest rules
  let engine ← ScopeEngine.ofRules (rules ++ anchors)
  if requestedDomains ≠ [] then
    let seeds ← requestedDomains.mapM (requestedSeed lib quoted engine anchors)
    return { seeds := dedupeSeeds seeds }
  else
    let planned ← planRules lib quoted engine anchors rules
    return { seeds := dedupeSeeds (planned.filterMap Planned.seed?)
             warnings := fromkeys (planned.filterMap Planned.warning?) }

end Planning

/-! ## What merging keeps -/

/-- The seed that stands for all of its domain. -/
structure StandsFor (seeds : List DomainSeedSpec) (domain : String) (spec : DomainSeedSpec) : Prop where
  domain_eq : spec.domain = domain
  source : ∃ seed ∈ seeds, seed.domain = domain ∧ seed.scopeState = spec.scopeState ∧ seed.mode = spec.mode ∧
    seed.matchedRuleId = spec.matchedRuleId
  inScope : ∀ seed ∈ seeds, seed.domain = domain → seed.scopeState = .inScope → spec.scopeState = .inScope
  sources : ∀ ruleId, ruleId ∈ spec.sourceRuleIds ↔
    ∃ seed ∈ seeds, seed.domain = domain ∧ ruleId ∈ seed.sourceRuleIds

section Merging

variable {seeds : List DomainSeedSpec} {domain : String} {spec seed : DomainSeedSpec}

theorem byDomain_concat (seeds : List DomainSeedSpec) (seed : DomainSeedSpec) : byDomain (seeds ++ [seed]) =
    (byDomain seeds).set seed.domain
      (((byDomain seeds).get? seed.domain).elim seed fun current => mergeSeeds current seed) := by
  unfold byDomain
  rw [List.foldl_append, List.foldl_cons, List.foldl_nil]
  split
  next hnone => rw [hnone]; rfl
  next current hsome => rw [hsome]; rfl

theorem mem_mergeSeeds {current : DomainSeedSpec} (ruleId : String) :
    ruleId ∈ (mergeSeeds current seed).sourceRuleIds ↔ ruleId ∈ current.sourceRuleIds ∨ ruleId ∈ seed.sourceRuleIds := by
  unfold mergeSeeds
  simp only
  split
  · simp
  split
  · simp
  · simp

/-- A seed more of the domain. -/
theorem StandsFor.merge (h : StandsFor seeds domain spec) (hdomain : seed.domain = domain) :
    StandsFor (seeds ++ [seed]) domain (mergeSeeds spec seed) := by
  have hsources : ∀ ruleId, ruleId ∈ (mergeSeeds spec seed).sourceRuleIds ↔
      ∃ other ∈ seeds ++ [seed], other.domain = domain ∧ ruleId ∈ other.sourceRuleIds := by
    intro ruleId
    rw [mem_mergeSeeds, h.sources]
    simp only [List.mem_append, List.mem_singleton, or_and_right, exists_or, exists_eq_left, hdomain, true_and]
  obtain ⟨source, hmem, hsource, hrest⟩ := h.source
  by_cases hspec : spec.scopeState = .inScope
  · have hmerged : mergeSeeds spec seed = { spec with
        sourceRuleIds := fromkeys (spec.sourceRuleIds ++ seed.sourceRuleIds) } := if_pos hspec
    refine ⟨?_, ?_, ?_, hsources⟩
    · rw [hmerged]
      exact h.domain_eq
    · rw [hmerged]
      exact ⟨source, List.mem_append_left _ hmem, hsource, hrest⟩
    · rw [hmerged]
      exact fun _ _ _ _ => hspec
  · by_cases hseed : seed.scopeState = .inScope
    · have hmerged : mergeSeeds spec seed = { seed with
          sourceRuleIds := fromkeys (spec.sourceRuleIds ++ seed.sourceRuleIds) } := by
        rw [mergeSeeds, if_neg hspec, if_pos hseed]
      refine ⟨?_, ?_, ?_, hsources⟩
      · rw [hmerged]
        exact hdomain
      · rw [hmerged]
        exact ⟨seed, List.mem_append_right _ List.mem_cons_self, hdomain, rfl, rfl, rfl⟩
      · rw [hmerged]
        exact fun _ _ _ _ => hseed
    · have hmerged : mergeSeeds spec seed = { spec with
          sourceRuleIds := fromkeys (spec.sourceRuleIds ++ seed.sourceRuleIds) } := by
        rw [mergeSeeds, if_neg hspec, if_neg hseed]
      refine ⟨?_, ?_, ?_, hsources⟩
      · rw [hmerged]
        exact h.domain_eq
      · rw [hmerged]
        exact ⟨source, List.mem_append_left _ hmem, hsource, hrest⟩
      · rw [hmerged]
        intro other hother hsame hstate
        rcases List.mem_append.mp hother with hother | hother
        · exact h.inScope other hother hsame hstate
        · rw [List.mem_singleton.mp hother] at hstate
          exact absurd hstate hseed

/-- A seed of another domain. -/
theorem StandsFor.other (h : StandsFor seeds domain spec) (hdomain : seed.domain ≠ domain) :
    StandsFor (seeds ++ [seed]) domain spec := by
  have hin : ∀ other, other.domain = domain → (other ∈ seeds ++ [seed] ↔ other ∈ seeds) := by
    intro other hsame
    rw [List.mem_append, List.mem_singleton, or_iff_left]
    rintro rfl
    exact hdomain hsame
  obtain ⟨source, hmem, hrest⟩ := h.source
  refine ⟨h.domain_eq, ⟨source, List.mem_append_left _ hmem, hrest⟩, ?_, ?_⟩
  · intro other hother hsame
    exact h.inScope other ((hin other hsame).mp hother) hsame
  · intro ruleId
    rw [h.sources]
    constructor
    · rintro ⟨other, hother, hsame, hid⟩
      exact ⟨other, (hin other hsame).mpr hother, hsame, hid⟩
    · rintro ⟨other, hother, hsame, hid⟩
      exact ⟨other, (hin other hsame).mp hother, hsame, hid⟩

/-- The seed that is filed under a domain stands for all of them. -/
theorem byDomain_spec (seeds : List DomainSeedSpec) (domain : String) :
    (∀ spec, (byDomain seeds).get? domain = some spec → StandsFor seeds domain spec) ∧
      ((byDomain seeds).get? domain = none → ∀ seed ∈ seeds, seed.domain ≠ domain) := by
  induction seeds using List.reverseRecOn with
  | nil =>
    constructor
    · intro spec h
      cases h
    · intro _ seed h
      cases h
  | append_singleton seeds seed ih =>
    rw [byDomain_concat, Dict.get?_set]
    by_cases hdomain : domain = seed.domain
    · rw [if_pos hdomain]
      refine ⟨fun spec h => ?_, fun h => absurd h (Option.some_ne_none _)⟩
      rw [← hdomain] at h
      cases hget : (byDomain seeds).get? domain with
      | some current =>
        rw [hget] at h
        obtain rfl := Option.some.inj h
        exact (ih.1 current hget).merge hdomain.symm
      | none =>
        rw [hget] at h
        obtain rfl := Option.some.inj h
        have hnone := ih.2 hget
        have honly : ∀ other ∈ seeds ++ [seed], other.domain = domain → other = seed := by
          intro other hother hsame
          rcases List.mem_append.mp hother with hother | hother
          · exact absurd hsame (hnone other hother)
          · exact List.mem_singleton.mp hother
        refine ⟨hdomain.symm, ?_, ?_, ?_⟩
        · exact ⟨seed, List.mem_append_right _ List.mem_cons_self, hdomain.symm, rfl, rfl, rfl⟩
        · intro other hother hsame hstate
          rwa [← honly other hother hsame]
        · intro ruleId
          constructor
          · intro hid
            exact ⟨seed, List.mem_append_right _ List.mem_cons_self, hdomain.symm, hid⟩
          · rintro ⟨other, hother, hsame, hid⟩
            rwa [← honly other hother hsame]
    · rw [if_neg hdomain]
      refine ⟨fun spec h => (ih.1 spec h).other (Ne.symm hdomain), fun h other hother => ?_⟩
      rcases List.mem_append.mp hother with hother | hother
      · exact ih.2 h other hother
      · rw [List.mem_singleton.mp hother]
        exact Ne.symm hdomain

theorem mem_dedupeSeeds : spec ∈ dedupeSeeds seeds ↔ (byDomain seeds).get? spec.domain = some spec := by
  unfold dedupeSeeds
  rw [List.mem_filterMap]
  constructor
  · rintro ⟨domain, -, hget⟩
    rwa [((byDomain_spec seeds domain).1 spec hget).domain_eq]
  · intro hget
    refine ⟨spec.domain, ?_, hget⟩
    rw [sortedTexts, Finset.mem_sort, List.mem_toFinset, Dict.mem_keys_iff]
    exact ⟨spec, hget⟩

/-- The domains are in order, each once. -/
theorem dedupeSeeds_sorted (seeds : List DomainSeedSpec) : (dedupeSeeds seeds).Pairwise fun a b => a.domain < b.domain := by
  unfold dedupeSeeds
  rw [List.pairwise_filterMap]
  have hsorted : (sortedTexts (byDomain seeds).keys.toFinset).Pairwise (· < ·) := (Finset.sortedLT_sort _).pairwise
  refine hsorted.imp ?_
  intro domain domain' hlt spec hspec spec' hspec'
  rwa [((byDomain_spec seeds domain).1 spec hspec).domain_eq, ((byDomain_spec seeds domain').1 spec' hspec').domain_eq]

/-- **Merging.** The seeds of a domain become one, which is IN_SCOPE if one of them is and has the rules of all. -/
theorem dedupeSeeds_spec (seeds : List DomainSeedSpec) :
    (∀ spec ∈ dedupeSeeds seeds, StandsFor seeds spec.domain spec) ∧
      ∀ seed ∈ seeds, ∃ spec ∈ dedupeSeeds seeds, spec.domain = seed.domain := by
  constructor
  · intro spec hspec
    exact (byDomain_spec seeds spec.domain).1 spec (mem_dedupeSeeds.mp hspec)
  · intro seed hseed
    cases hget : (byDomain seeds).get? seed.domain with
    | none => exact absurd rfl ((byDomain_spec seeds seed.domain).2 hget seed hseed)
    | some spec =>
      have hdomain := ((byDomain_spec seeds seed.domain).1 spec hget).domain_eq
      refine ⟨spec, mem_dedupeSeeds.mpr ?_, hdomain⟩
      rw [hdomain, hget]

end Merging

/-! ## Plans -/

section Plans

variable {lib : ScopeLib} {digest quoted : String → String} {engine : ScopeEngine} {rules anchors : List ScopeRule}
  {rule : ScopeRule} {plan : DomainSeedPlan}

/-- A rule that calls for a seed. -/
def CallsForSeed (rule : ScopeRule) : Prop := rule.kind = .domain ∧ rule.state = .inScope

/-- What a rule that calls for a seed gets. -/
inductive PlannedFor (lib : ScopeLib) (quoted : String → String) (engine : ScopeEngine) (anchors : List ScopeRule)
    (rule : ScopeRule) : Planned → Prop
  | glob (h : seedDomain rule = none) : PlannedFor lib quoted engine anchors rule (.warning (globWarning quoted rule))
  | refused {domain : String} {mode : DomainSeedMode} {decision : ScopeDecision}
      (h : seedDomain rule = some (domain, mode)) (hdecision : decideDomain lib engine domain = .ok decision)
      (hstate : isSeedState decision.state = false) :
      PlannedFor lib quoted engine anchors rule (.warning (stateWarning rule domain decision.state))
  | seed {domain : String} {mode : DomainSeedMode} {decision : ScopeDecision} {spec : DomainSeedSpec}
      (h : seedDomain rule = some (domain, mode)) (hdecision : decideDomain lib engine domain = .ok decision)
      (hstate : isSeedState decision.state = true) (hdomain : spec.domain = domain)
      (hspec : spec.scopeState = decision.state)
      (hrules : ∀ ruleId, ruleId ∈ spec.sourceRuleIds ↔ ruleId = rule.ruleId.text ∨ ruleId ∈ decision.matchedRuleIds) :
      PlannedFor lib quoted engine anchors rule (.seed spec)

theorem planRule_none (h : ¬ CallsForSeed rule) : planRule lib quoted engine anchors rule = .ok none := by
  rw [planRule, if_pos]
  rw [CallsForSeed, not_and_or] at h
  exact h

/-- **One rule.** What calls for a seed gets one, or a warning. -/
theorem planRule_spec (h : CallsForSeed rule) {planned : Option Planned}
    (hplanned : planRule lib quoted engine anchors rule = .ok planned) :
    ∃ outcome, planned = some outcome ∧ PlannedFor lib quoted engine anchors rule outcome := by
  have hcalls : ¬ (rule.kind ≠ .domain ∨ rule.state ≠ .inScope) := by
    rintro (hkind | hstate)
    · exact hkind h.1
    · exact hstate h.2
  unfold planRule at hplanned
  rw [if_neg hcalls] at hplanned
  split at hplanned
  next hdomain =>
    obtain rfl := Except.ok.inj hplanned
    exact ⟨_, rfl, .glob hdomain⟩
  next domain mode hdomain =>
    obtain ⟨decision, hdecision, hplanned⟩ := bind_ok hplanned
    split at hplanned
    next hstate =>
      obtain rfl := Except.ok.inj hplanned
      exact ⟨_, rfl, .refused hdomain hdecision (by simpa using hstate)⟩
    next hstate =>
      obtain rfl := Except.ok.inj hplanned
      refine ⟨_, rfl, .seed hdomain hdecision (by simpa using hstate) rfl rfl ?_⟩
      intro ruleId
      rw [mem_fromkeys, List.mem_cons]

/-- **The loop.** Everything planned is planned for a rule, and every rule that calls for a seed is planned. -/
theorem planRules_spec {planned : List Planned} (h : planRules lib quoted engine anchors rules = .ok planned) :
    (∀ outcome ∈ planned, ∃ rule ∈ rules, CallsForSeed rule ∧ PlannedFor lib quoted engine anchors rule outcome) ∧
      ∀ rule ∈ rules, CallsForSeed rule → ∃ outcome ∈ planned, PlannedFor lib quoted engine anchors rule outcome := by
  induction rules generalizing planned with
  | nil =>
    obtain rfl := Except.ok.inj h
    constructor
    · intro outcome houtcome
      cases houtcome
    · intro rule hrule
      cases hrule
  | cons rule rules ih =>
    obtain ⟨first, hfirst, h⟩ := bind_ok h
    obtain ⟨rest, hrest, h⟩ := bind_ok h
    obtain rfl := Except.ok.inj h
    obtain ⟨hsound, hcomplete⟩ := ih hrest
    by_cases hcalls : CallsForSeed rule
    · obtain ⟨outcome, rfl, houtcome⟩ := planRule_spec hcalls hfirst
      constructor
      · intro other hother
        rcases List.mem_append.mp hother with hother | hother
        · rw [Option.mem_toList] at hother
          obtain rfl := Option.some.inj hother
          exact ⟨rule, List.mem_cons_self, hcalls, houtcome⟩
        · obtain ⟨rule', hrule', hrest'⟩ := hsound other hother
          exact ⟨rule', List.mem_cons_of_mem rule hrule', hrest'⟩
      · intro rule' hrule' hcalls'
        rcases List.mem_cons.mp hrule' with rfl | hrule'
        · exact ⟨outcome, List.mem_append_left _ (Option.mem_toList.mpr rfl), houtcome⟩
        · obtain ⟨other, hother, hplanned⟩ := hcomplete rule' hrule' hcalls'
          exact ⟨other, List.mem_append_right _ hother, hplanned⟩
    · rw [planRule_none hcalls] at hfirst
      obtain rfl := Except.ok.inj hfirst
      constructor
      · intro other hother
        obtain ⟨rule', hrule', hrest'⟩ := hsound other hother
        exact ⟨rule', List.mem_cons_of_mem rule hrule', hrest'⟩
      · intro rule' hrule' hcalls'
        rcases List.mem_cons.mp hrule' with rfl | hrule'
        · exact absurd hcalls' hcalls
        · exact hcomplete rule' hrule' hcalls'

/-- The engine decides on every domain that it is asked about. -/
def Decides (lib : ScopeLib) (engine : ScopeEngine) (rules : List ScopeRule) : Prop :=
  ∀ rule ∈ rules, CallsForSeed rule → ∀ domain mode, seedDomain rule = some (domain, mode) →
    ∃ decision, decideDomain lib engine domain = .ok decision

theorem planRule_ok_iff : (∃ planned, planRule lib quoted engine anchors rule = .ok planned) ↔
    (CallsForSeed rule → ∀ domain mode, seedDomain rule = some (domain, mode) →
      ∃ decision, decideDomain lib engine domain = .ok decision) := by
  by_cases hcalls : CallsForSeed rule
  · have hnot : ¬ (rule.kind ≠ .domain ∨ rule.state ≠ .inScope) := by
      rintro (hkind | hstate)
      · exact hkind hcalls.1
      · exact hstate hcalls.2
    unfold planRule
    rw [if_neg hnot]
    simp only [hcalls, forall_const]
    cases hdomain : seedDomain rule with
    | none => simp
    | some found =>
      obtain ⟨domain, mode⟩ := found
      simp only [Option.some.injEq, Prod.mk.injEq, and_imp]
      cases hdecision : decideDomain lib engine domain with
      | error e =>
        simp only [error_bind, reduceCtorEq, exists_false, false_iff, not_forall]
        refine ⟨domain, mode, rfl, rfl, ?_⟩
        rintro ⟨decision, h⟩
        rw [hdecision] at h
        cases h
      | ok decision =>
        refine iff_of_true ?_ ?_
        · rw [ok_bind]
          split
          · exact ⟨_, rfl⟩
          · exact ⟨_, rfl⟩
        · rintro _ _ rfl rfl
          exact ⟨decision, hdecision⟩
  · refine iff_of_true ⟨none, planRule_none hcalls⟩ fun h => absurd h hcalls

/-- The loop ends if it does for every rule. -/
theorem planRules_ok_iff : (∃ planned, planRules lib quoted engine anchors rules = .ok planned) ↔
    Decides lib engine rules := by
  unfold Decides
  induction rules with
  | nil => exact iff_of_true ⟨[], rfl⟩ fun rule hrule => by cases hrule
  | cons rule rules ih =>
    have hfirst : (∃ planned, planRule lib quoted engine anchors rule = .ok planned) ↔ _ := planRule_ok_iff
    rw [List.forall_mem_cons, ← ih, ← hfirst]
    constructor
    · rintro ⟨planned, h⟩
      obtain ⟨first, hfirst, h⟩ := bind_ok h
      obtain ⟨rest, hrest, -⟩ := bind_ok h
      exact ⟨⟨first, hfirst⟩, ⟨rest, hrest⟩⟩
    · rintro ⟨⟨first, hfirst⟩, ⟨rest, hrest⟩⟩
      refine ⟨first.toList ++ rest, ?_⟩
      rw [planRules, hfirst, ok_bind, hrest, ok_bind]
      rfl

/-- The rules have an engine, with their anchors, that decides on the domains of the rules. -/
def Plannable (lib : ScopeLib) (digest : String → String) (rules : List ScopeRule) : Prop :=
  ∃ anchors engine, derivedWildcardAnchorRules lib digest rules = .ok anchors ∧
    ScopeEngine.ofRules (rules ++ anchors) = .ok engine ∧ Decides lib engine rules

theorem planDomainSeeds_ok (h : planDomainSeeds lib digest quoted rules [] = .ok plan) :
    ∃ anchors engine planned, derivedWildcardAnchorRules lib digest rules = .ok anchors ∧
      ScopeEngine.ofRules (rules ++ anchors) = .ok engine ∧ planRules lib quoted engine anchors rules = .ok planned ∧
      plan.seeds = dedupeSeeds (planned.filterMap Planned.seed?) ∧
      plan.warnings = fromkeys (planned.filterMap Planned.warning?) := by
  obtain ⟨anchors, hanchors, h⟩ := bind_ok h
  obtain ⟨engine, hengine, h⟩ := bind_ok h
  simp only [ne_eq, not_true_eq_false, if_false] at h
  obtain ⟨planned, hplanned, h⟩ := bind_ok h
  obtain rfl := Except.ok.inj h
  exact ⟨anchors, engine, planned, hanchors, hengine, hplanned, rfl, rfl⟩

theorem planDomainSeeds_ok_iff :
    (∃ plan, planDomainSeeds lib digest quoted rules [] = .ok plan) ↔ Plannable lib digest rules := by
  constructor
  · rintro ⟨plan, h⟩
    obtain ⟨anchors, engine, planned, hanchors, hengine, hplanned, -⟩ := planDomainSeeds_ok h
    exact ⟨anchors, engine, hanchors, hengine, planRules_ok_iff.mp ⟨planned, hplanned⟩⟩
  · rintro ⟨anchors, engine, hanchors, hengine, hdecides⟩
    obtain ⟨planned, hplanned⟩ : ∃ planned, planRules lib quoted engine anchors rules = .ok planned :=
      planRules_ok_iff.mpr hdecides
    refine ⟨{ seeds := dedupeSeeds (planned.filterMap Planned.seed?)
              warnings := fromkeys (planned.filterMap Planned.warning?) }, ?_⟩
    rw [planDomainSeeds, hanchors, ok_bind, hengine, ok_bind]
    simp only [ne_eq, not_true_eq_false, if_false]
    rw [hplanned, ok_bind]
    rfl

/-- The engine of a plan is the effective one. -/
theorem decideDomain_effective (hanchors : derivedWildcardAnchorRules lib digest rules = .ok anchors)
    (hengine : ScopeEngine.ofRules (rules ++ anchors) = .ok engine) {domain : String} {decision : ScopeDecision}
    (h : decideDomain lib engine domain = .ok decision) :
    ∃ subject, ScopeSubject.modelValidate lib .domain domain = .ok subject ∧
      classifyEffective lib digest rules subject = .ok decision := by
  obtain ⟨subject, hsubject, h⟩ := bind_ok h
  refine ⟨subject, hsubject, ?_⟩
  rw [classifyEffective_of hanchors, ← evaluate_eq_classify hengine]
  exact h

/-- The seed is one of an IN_SCOPE rule, and the effective rules decide on its domain as it says. -/
structure SoundSeed (lib : ScopeLib) (digest : String → String) (rules : List ScopeRule) (seed : DomainSeedSpec) :
    Prop where
  rule : ∃ rule ∈ rules, CallsForSeed rule ∧ ∃ mode, seedDomain rule = some (seed.domain, mode)
  state : seed.scopeState = .inScope ∨ seed.scopeState = .passiveOnly
  decided : ∃ subject decision, ScopeSubject.modelValidate lib .domain seed.domain = .ok subject ∧
    classifyEffective lib digest rules subject = .ok decision ∧ decision.state = seed.scopeState

/-- A warning about a rule. -/
def WarnsAbout (quoted : String → String) (rule : ScopeRule) (warning : String) : Prop :=
  warning = globWarning quoted rule ∨ ∃ domain state, warning = stateWarning rule domain state

theorem soundSeed_of_planned (hanchors : derivedWildcardAnchorRules lib digest rules = .ok anchors)
    (hengine : ScopeEngine.ofRules (rules ++ anchors) = .ok engine) {spec : DomainSeedSpec} (hrule : rule ∈ rules)
    (hcalls : CallsForSeed rule) (h : PlannedFor lib quoted engine anchors rule (.seed spec)) :
    SoundSeed lib digest rules spec := by
  cases h with
  | seed hdomain hdecision hstate hspecDomain hspec hrules =>
    obtain ⟨subject, hsubject, hclassify⟩ := decideDomain_effective hanchors hengine hdecision
    rw [← hspecDomain] at hdomain hsubject
    refine ⟨⟨rule, hrule, hcalls, _, hdomain⟩, ?_, ⟨subject, _, hsubject, hclassify, hspec.symm⟩⟩
    rw [hspec]
    simpa [isSeedState] using hstate

theorem rule_mem_of_planned {spec : DomainSeedSpec} (h : PlannedFor lib quoted engine anchors rule (.seed spec)) :
    rule.ruleId.text ∈ spec.sourceRuleIds := by
  cases h with
  | seed hdomain hdecision hstate hspecDomain hspec hrules => exact (hrules _).mpr (.inl rfl)

theorem warnsAbout_of_planned {warning : String} (h : PlannedFor lib quoted engine anchors rule (.warning warning)) :
    WarnsAbout quoted rule warning := by
  cases h with
  | glob hdomain => exact .inl rfl
  | refused hdomain hdecision hstate => exact .inr ⟨_, _, rfl⟩

theorem mem_seeds {planned : List Planned} {spec : DomainSeedSpec} :
    spec ∈ planned.filterMap Planned.seed? ↔ .seed spec ∈ planned := by
  rw [List.mem_filterMap]
  constructor
  · rintro ⟨outcome, houtcome, hspec⟩
    cases outcome with
    | seed other =>
      obtain rfl := Option.some.inj hspec
      exact houtcome
    | warning text => cases hspec
  · intro h
    exact ⟨_, h, rfl⟩

theorem mem_warnings {planned : List Planned} {text : String} :
    text ∈ planned.filterMap Planned.warning? ↔ .warning text ∈ planned := by
  rw [List.mem_filterMap]
  constructor
  · rintro ⟨outcome, houtcome, htext⟩
    cases outcome with
    | seed spec => cases htext
    | warning other =>
      obtain rfl := Option.some.inj htext
      exact houtcome
  · intro h
    exact ⟨_, h, rfl⟩

/-- The same domain, the same decision: a seed that stands for sound ones is sound. -/
theorem SoundSeed.of_standsFor {seeds : List DomainSeedSpec} {spec : DomainSeedSpec}
    (h : StandsFor seeds spec.domain spec) (hall : ∀ seed ∈ seeds, SoundSeed lib digest rules seed) :
    SoundSeed lib digest rules spec := by
  obtain ⟨seed, hseed, hdomain, hstate, -⟩ := h.source
  obtain ⟨hrule, hseedState, hdecided⟩ := hall seed hseed
  rw [hdomain] at hrule hdecided
  rw [hstate] at hseedState hdecided
  exact ⟨hrule, hseedState, hdecided⟩

/-- **Domain seed planning.** A plan is made exactly if the engine can be built and decides on the domains of the
    rules. Its seeds are in order, each domain once, and sound; every rule that calls for a seed is a source of one or
    is warned about. And merging keeps the IN_SCOPE state and the rules of all. -/
theorem plan_domain_seeds_law (lib : ScopeLib) (digest quoted : String → String) (rules : List ScopeRule) :
    ((∃ plan, planDomainSeeds lib digest quoted rules [] = .ok plan) ↔ Plannable lib digest rules) ∧
    (∀ plan, planDomainSeeds lib digest quoted rules [] = .ok plan →
      (plan.seeds.Pairwise fun a b => a.domain < b.domain) ∧
      (∀ seed ∈ plan.seeds, SoundSeed lib digest rules seed) ∧
      ∀ rule ∈ rules, CallsForSeed rule → (∃ seed ∈ plan.seeds, rule.ruleId.text ∈ seed.sourceRuleIds) ∨
        ∃ warning ∈ plan.warnings, WarnsAbout quoted rule warning) ∧
    ∀ seeds : List DomainSeedSpec, (∀ spec ∈ dedupeSeeds seeds, StandsFor seeds spec.domain spec) ∧
      ∀ seed ∈ seeds, ∃ spec ∈ dedupeSeeds seeds, spec.domain = seed.domain := by
  refine ⟨planDomainSeeds_ok_iff, fun plan h => ?_, dedupeSeeds_spec⟩
  obtain ⟨anchors, engine, planned, hanchors, hengine, hplanned, hseeds, hwarnings⟩ := planDomainSeeds_ok h
  obtain ⟨hsound, hcomplete⟩ := planRules_spec hplanned
  obtain ⟨hstands, hkept⟩ := dedupeSeeds_spec (planned.filterMap Planned.seed?)
  rw [hseeds, hwarnings]
  refine ⟨dedupeSeeds_sorted _, ?_, ?_⟩
  · intro seed hseed
    refine SoundSeed.of_standsFor (hstands seed hseed) fun other hother => ?_
    obtain ⟨rule, hrule, hcalls, hfor⟩ := hsound _ (mem_seeds.mp hother)
    exact soundSeed_of_planned hanchors hengine hrule hcalls hfor
  · intro rule hrule hcalls
    obtain ⟨outcome, houtcome, hfor⟩ := hcomplete rule hrule hcalls
    cases outcome with
    | seed spec =>
      left
      have hspec := mem_seeds.mpr houtcome
      obtain ⟨seed, hseed, hdomain⟩ := hkept spec hspec
      refine ⟨seed, hseed, ((hstands seed hseed).sources _).mpr ⟨spec, hspec, hdomain.symm, ?_⟩⟩
      exact rule_mem_of_planned hfor
    | warning text =>
      right
      exact ⟨text, mem_fromkeys.mpr (mem_warnings.mpr houtcome), warnsAbout_of_planned hfor⟩

end Plans

end NightScout
