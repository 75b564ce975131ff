import NightScout.Policy.Scope

/-!
# Wildcard seed anchors

`derived_wildcard_anchor_rules` and `effective_scope_rules` of `recon/policy/seeds.py`. An IN_SCOPE
wildcard whose apex no rule classifies gives rise to a PASSIVE_ONLY rule for the apex, with the
priority of the wildcard, that discovery starts from and nothing active may touch.

The anchor is a DOMAIN rule, and a DOMAIN rule matches the URLs on its host as well. That the apex
is unclassified says nothing about those: a URL rule of lower priority can classify them, and the
anchor then outranks it. `Yields` is the condition under which no anchor does.

The digest in an anchor's id is a parameter, and so is whether two of them collide.
-/

namespace NightScout

open Lib

section Anchors

variable (lib : ScopeLib) (digest : String → String)

/-- The rules `derived_wildcard_anchor_rules` considers. -/
def isAnchored (rule : ScopeRule) : Bool :=
  rule.kind = .domain && rule.state = .inScope && isWildcard rule.pattern &&
    !hasGlob (suffixOf rule.pattern)

/-- The anchor of a wildcard rule, before its validation. -/
def rawAnchor (rule : ScopeRule) : RawScopeRule where
  ruleId := "seed-anchor-" ++ digest rule.ruleId.text
  kind := .domain
  pattern := suffixOf rule.pattern
  state := .passiveOnly
  priority := rule.priority
  tier := rule.tier
  reason := some ("Ephemeral passive discovery anchor derived from explicit " ++
    s!"wildcard scope rule {rule.ruleId.text}; active probing of the apex " ++
    "is not authorized by this anchor")

/-- The loop body: the anchor a rule gives rise to, if any. -/
def anchorFor (engine : ScopeEngine) (rule : ScopeRule) : Except PyError (Option ScopeRule) :=
  if !isAnchored rule then .ok none
  else do
    let subject ← ScopeSubject.modelValidate lib .domain (suffixOf rule.pattern)
    let decision ← engine.evaluate lib subject
    if decision.state ≠ .unknown then return none
    else return some (← ScopeRule.modelValidate lib (rawAnchor digest rule))

/-- The loop of `derived_wildcard_anchor_rules`. -/
def anchorsFor (engine : ScopeEngine) : List ScopeRule → Except PyError (List ScopeRule)
  | [] => .ok []
  | rule :: rules => do
    let anchor ← anchorFor lib digest engine rule
    let rest ← anchorsFor engine rules
    return anchor.toList ++ rest

def derivedWildcardAnchorRules (rules : List ScopeRule) : Except PyError (List ScopeRule) := do
  let engine ← ScopeEngine.ofRules rules
  anchorsFor lib digest engine rules

def effectiveScopeRules (rules : List ScopeRule) : Except PyError (List ScopeRule) := do
  let anchors ← derivedWildcardAnchorRules lib digest rules
  return rules ++ anchors

/-- `ScopeEngine(effective_scope_rules(rules)).evaluate(subject)`. -/
def classifyEffective (rules : List ScopeRule) (subject : ScopeSubject) :
    Except PyError ScopeDecision := do
  let effective ← effectiveScopeRules lib digest rules
  classify lib effective subject

end Anchors

section Yielding

variable {lib : ScopeLib} {digest : String → String} {rules anchors : List ScopeRule}
  {subject : ScopeSubject} {d : ScopeDecision}

theorem modelValidate_fields {raw : RawScopeRule} {rule : ScopeRule} (h : ScopeRule.modelValidate lib raw = .ok rule) :
    rule.kind = raw.kind ∧ rule.state = raw.state ∧ rule.priority = raw.priority ∧
      canonicalizeRulePattern lib raw.kind raw.pattern = .ok rule.pattern := by
  unfold ScopeRule.modelValidate at h
  split at h
  · cases h
  · split at h
    · cases h
    · cases hpattern : canonicalizeRulePattern lib raw.kind raw.pattern with
      | error e =>
        rw [hpattern] at h
        cases h
      | ok pattern =>
        rw [hpattern] at h
        cases h
        exact ⟨rfl, rfl, rfl, rfl⟩

/-- An anchor is a PASSIVE_ONLY rule for a domain. -/
theorem anchor_passive {engine : ScopeEngine} {rule anchor : ScopeRule}
    (h : anchorFor lib digest engine rule = .ok (some anchor)) :
    anchor.kind = .domain ∧ anchor.state = .passiveOnly := by
  unfold anchorFor at h
  split at h
  · cases h
  · obtain ⟨apex, -, h⟩ := bind_ok h
    obtain ⟨decision, -, h⟩ := bind_ok h
    split at h
    · cases h
    · obtain ⟨found, hfound, h⟩ := bind_ok h
      cases h
      obtain ⟨hkind, hstate, -, -⟩ := modelValidate_fields hfound
      exact ⟨hkind, hstate⟩

theorem anchorsFor_passive {engine : ScopeEngine} :
    ∀ {rules anchors : List ScopeRule}, anchorsFor lib digest engine rules = .ok anchors →
      ∀ anchor ∈ anchors, anchor.kind = .domain ∧ anchor.state = .passiveOnly
  | [], anchors, h => by
    cases h
    simp
  | rule :: rules, anchors, h => by
    obtain ⟨anchor?, hanchor, h⟩ := bind_ok h
    obtain ⟨rest, hrest, h⟩ := bind_ok h
    cases h
    intro anchor hmem
    rcases List.mem_append.mp hmem with hmem | hmem
    · obtain rfl := Option.mem_toList.mp hmem
      exact anchor_passive hanchor
    · exact anchorsFor_passive hrest anchor hmem

theorem derived_passive (h : derivedWildcardAnchorRules lib digest rules = .ok anchors) :
    ∀ anchor ∈ anchors, anchor.kind = .domain ∧ anchor.state = .passiveOnly := by
  obtain ⟨engine, -, h⟩ := bind_ok h
  exact anchorsFor_passive h

theorem classifyEffective_ok (h : classifyEffective lib digest rules subject = .ok d) :
    ∃ anchors, derivedWildcardAnchorRules lib digest rules = .ok anchors ∧
      classify lib (rules ++ anchors) subject = .ok d := by
  obtain ⟨effective, heffective, h⟩ := bind_ok h
  obtain ⟨anchors, hanchors, heffective⟩ := bind_ok heffective
  cases heffective
  exact ⟨anchors, hanchors, h⟩

theorem classifyEffective_of (h : derivedWildcardAnchorRules lib digest rules = .ok anchors) :
    classifyEffective lib digest rules subject = classify lib (rules ++ anchors) subject := by
  simp only [classifyEffective, effectiveScopeRules, h, ok_bind, pure_eq_ok]

theorem applicable_append : applicable lib (rules ++ anchors) subject =
    applicable lib rules subject ++ applicable lib anchors subject := List.filter_append _ _

/-- The anchors leave a subject's classification alone: what was classified keeps its state, and
    what becomes IN_SCOPE was. -/
def AnchorsKeep (lib : ScopeLib) (digest : String → String) (rules : List ScopeRule)
    (subject : ScopeSubject) : Prop :=
  (∀ d, classify lib rules subject = .ok d → d.state ≠ .unknown →
    ∃ d', classifyEffective lib digest rules subject = .ok d' ∧ d'.state = d.state) ∧
  ∀ d', classifyEffective lib digest rules subject = .ok d' → d'.state = .inScope →
    ∃ d, classify lib rules subject = .ok d ∧ d.state = .inScope

/-- For a classified subject: the anchors can be made and their ids are new, and an anchor that
    applies to a subject that is not PASSIVE_ONLY already is outranked by a rule that does. -/
def Yields (lib : ScopeLib) (digest : String → String) (rules : List ScopeRule)
    (subject : ScopeSubject) : Prop :=
  ∀ d, classify lib rules subject = .ok d → d.state ≠ .unknown →
    ∃ anchors, derivedWildcardAnchorRules lib digest rules = .ok anchors ∧
      DistinctIds (rules ++ anchors) ∧ (d.state = .passiveOnly ∨
        ∀ anchor ∈ anchors, anchor.Matches lib subject → ∃ rule ∈ rules,
          rule.Matches lib subject ∧ anchor.sortKey lib < rule.sortKey lib)

/-- The decision over the rules and anchors that do not raise. -/
theorem classify_append_anchors (h : classify lib rules subject = .ok d)
    (hanchors : derivedWildcardAnchorRules lib digest rules = .ok anchors)
    (hnd : DistinctIds (rules ++ anchors)) (hstate : d.state ≠ .unknown) :
    ∃ d', classify lib (rules ++ anchors) subject = .ok d' := by
  obtain ⟨w, hw, -⟩ := exists_winner h hstate
  have hmatch := (mem_applicable.mp (winner_mem hw)).2
  refine ⟨_, classify_ok_iff.mpr ⟨hnd, fun rule hrule => ?_, rfl⟩⟩
  rcases List.mem_append.mp hrule with hrule | hrule
  · exact (classify_ok_iff.mp h).2.1 rule hrule
  · exact domain_matches_ok hmatch (derived_passive hanchors rule hrule).1

/-- Nothing becomes IN_SCOPE by an anchor: the winner over both is a rule, and it won before. -/
theorem inScope_of_effective (h : classifyEffective lib digest rules subject = .ok d) (hstate : d.state = .inScope) :
    ∃ d, classify lib rules subject = .ok d ∧ d.state = .inScope := by
  obtain ⟨anchors, hanchors, h⟩ := classifyEffective_ok h
  obtain ⟨hnd, hall, -⟩ := classify_ok_iff.mp h
  obtain ⟨w, hw, hwstate⟩ := exists_winner h (by rw [hstate]; simp)
  have hndrules : DistinctIds rules := by
    unfold DistinctIds at hnd
    rw [List.map_append] at hnd
    exact hnd.of_append_left
  have hclassify := (classify_ok_iff (d := _)).mpr
    ⟨hndrules, fun rule hrule => hall rule (List.mem_append_left anchors hrule), rfl⟩
  have hwin := hw
  rw [applicable_append] at hwin
  have hkeys := applicable_nodup lib subject hnd
  rw [applicable_append] at hkeys
  rcases winner_append_cases hkeys hwin with hold | hnew
  · exact ⟨_, hclassify, (state_of_winner hclassify hold).trans (hwstate.symm.trans hstate)⟩
  · have hpassive := (derived_passive hanchors w (mem_applicable.mp hnew).1).2
    rw [hstate, hpassive] at hwstate
    cases hwstate

/-- **The wildcard anchors of a rule set leave a subject's classification alone exactly if they
    yield to the rules that classify it.** -/
theorem anchors_keep_iff (lib : ScopeLib) (digest : String → String) (rules : List ScopeRule)
    (subject : ScopeSubject) : AnchorsKeep lib digest rules subject ↔ Yields lib digest rules subject := by
  constructor
  · intro ⟨hkeep, _⟩ d h hstate
    obtain ⟨d', heffective, hsame⟩ := hkeep d h hstate
    obtain ⟨anchors, hanchors, h'⟩ := classifyEffective_ok heffective
    refine ⟨anchors, hanchors, (classify_ok_iff.mp h').1, ?_⟩
    by_cases hpassive : d.state = .passiveOnly
    · exact .inl hpassive
    · right
      intro anchor hanchor hmatch
      -- the winner over both is no anchor, since its state is not PASSIVE_ONLY
      obtain ⟨w, hw, hwstate⟩ := exists_winner h' (by rw [hsame]; exact hstate)
      obtain ⟨hwmem, hwmatch⟩ := mem_applicable.mp (winner_mem hw)
      have hwrule : w ∈ rules := by
        rcases List.mem_append.mp hwmem with hmem | hmem
        · exact hmem
        · have hwpassive := (derived_passive hanchors w hmem).2
          exact absurd (hsame.symm.trans (hwstate.trans hwpassive)) hpassive
      refine ⟨w, hwrule, hwmatch, lt_of_le_of_ne ?_ fun heq => ?_⟩
      · exact le_winner hw anchor
          (mem_applicable.mpr ⟨List.mem_append_right rules hanchor, hmatch⟩)
      · have hnd := sortKeys_nodup lib (classify_ok_iff.mp h').1
        rw [List.map_append] at hnd
        exact (List.nodup_append.mp hnd).2.2 _ (List.mem_map_of_mem hwrule) _
          (List.mem_map_of_mem hanchor) heq.symm
  · intro hyields
    refine ⟨fun d h hstate => ?_, fun d' h hstate => inScope_of_effective h hstate⟩
    obtain ⟨anchors, hanchors, hnd, hor⟩ := hyields d h hstate
    obtain ⟨d', h'⟩ := classify_append_anchors h hanchors hnd hstate
    obtain ⟨w, hw, hwstate⟩ := exists_winner h hstate
    refine ⟨d', by rw [classifyEffective_of hanchors]; exact h', ?_⟩
    have hkeys := applicable_nodup lib subject hnd
    rw [applicable_append] at hkeys
    rcases hor with hpassive | houtranked
    · -- whichever wins, the state is PASSIVE_ONLY
      obtain ⟨w', hw'⟩ := winner_isSome (ScopeRule.sortKey lib)
        (List.mem_append_left (applicable lib anchors subject) (winner_mem hw))
      have hstate' := state_of_winner h' (by rw [applicable_append]; exact hw')
      rcases winner_append_cases hkeys hw' with hold | hnew
      · rw [hw] at hold
        cases hold
        exact hstate'.trans hwstate.symm
      · have hwpassive := (derived_passive hanchors w' (mem_applicable.mp hnew).1).2
        exact hstate'.trans (hwpassive.trans hpassive.symm)
    · have hsame := winner_append_of_outranked hkeys (fun anchor hanchor => by
        obtain ⟨hmem, hmatch⟩ := mem_applicable.mp hanchor
        obtain ⟨rule, hrule, hrulematch, hlt⟩ := houtranked anchor hmem hmatch
        exact ⟨rule, mem_applicable.mpr ⟨hrule, hrulematch⟩, hlt⟩) hw
      exact (state_of_winner h' (by rw [applicable_append]; exact hsame)).trans hwstate.symm

end Yielding

/-! ## Anchors of stable apexes -/

section Stable

variable {lib : ScopeLib} {digest : String → String} {rules anchors : List ScopeRule}
  {engine : ScopeEngine} {rule anchor : ScopeRule}

theorem kind_of_modelValidate {kind : ScopeAssetKind} {value : String} {subject : ScopeSubject}
    (h : ScopeSubject.modelValidate lib kind value = .ok subject) : subject.kind = kind := by
  unfold ScopeSubject.modelValidate at h
  obtain ⟨-, h⟩ := guard_ok h
  cases hvalue : canonicalizeSubjectValue lib kind (strip value) with
  | error e =>
    rw [hvalue] at h
    cases h
  | ok canonical =>
    rw [hvalue] at h
    cases h
    rfl

theorem modelValidate_domain {value : String} (h : Stable lib.toTables value) :
    ScopeSubject.modelValidate lib .domain value = .ok ⟨.domain, value⟩ := by
  unfold ScopeSubject.modelValidate
  rw [h.strip_eq, if_neg h.ne_empty]
  simp only [canonicalizeSubjectValue]
  rw [show canonicalDomain lib.toTables value = .ok value from h]
  rfl

/-- The pattern of a DOMAIN rule for a stable name is the name. -/
theorem canonicalizeRulePattern_domain {value pattern : String} (h : Stable lib.toTables value)
    (hglob : hasGlob value = false)
    (hpattern : canonicalizeRulePattern lib .domain value = .ok pattern) : pattern = value := by
  unfold canonicalizeRulePattern at hpattern
  simp only [h.strip_eq, if_neg h.ne_empty, isWildcard_of_not_hasGlob hglob, hglob,
    Bool.false_eq_true, if_false] at hpattern
  rw [show canonicalDomain lib.toTables value = .ok value from h] at hpattern
  exact (Except.ok.inj hpattern).symm

/-- The pattern of a wildcard for a stable name. -/
theorem canonicalizeRulePattern_wildcard {value : String} (h : Stable lib.toTables value) :
    canonicalizeRulePattern lib .domain ("*." ++ value) = .ok ("*." ++ value) := by
  have hne : "*." ++ value ≠ "" := by
    intro hempty
    exact h.ne_empty (String.append_eq_empty_iff.mp hempty).2
  unfold canonicalizeRulePattern
  simp only [h.strip_wildcard, if_neg hne, isWildcard_star, if_true, suffixOf_star]
  rw [show canonicalDomain lib.toTables value = .ok value from h]
  rfl

theorem isAnchored_glob (h : isAnchored rule = true) : hasGlob (suffixOf rule.pattern) = false := by
  simp only [isAnchored, Bool.and_eq_true, Bool.not_eq_true'] at h
  exact h.2

theorem evaluate_eq_classify (h : ScopeEngine.ofRules rules = .ok engine) (subject : ScopeSubject) :
    engine.evaluate lib subject = classify lib rules subject := by
  simp only [classify, h, ok_bind]

/-- A rule has an anchor if its apex is unclassified. -/
theorem anchorFor_some_iff (hengine : ScopeEngine.ofRules rules = .ok engine)
    (hanchored : isAnchored rule = true) (hstable : Stable lib.toTables (suffixOf rule.pattern)) :
    anchorFor lib digest engine rule = .ok (some anchor) ↔
      ∃ d, classify lib rules ⟨.domain, suffixOf rule.pattern⟩ = .ok d ∧ d.state = .unknown ∧
        ScopeRule.modelValidate lib (rawAnchor digest rule) = .ok anchor := by
  unfold anchorFor
  rw [hanchored, modelValidate_domain hstable]
  simp only [Bool.not_true, Bool.false_eq_true, if_false, ok_bind,
    evaluate_eq_classify hengine]
  cases hd : classify lib rules ⟨.domain, suffixOf rule.pattern⟩ with
  | error e => simp
  | ok d =>
    by_cases hstate : d.state = .unknown
    · cases hmake : ScopeRule.modelValidate lib (rawAnchor digest rule) with
      | error e => simp [hstate]
      | ok made => simp [hstate]
    · simp [hstate]

theorem mem_anchorsFor_iff : ∀ {rules anchors : List ScopeRule},
    anchorsFor lib digest engine rules = .ok anchors →
      (anchor ∈ anchors ↔ ∃ rule ∈ rules, anchorFor lib digest engine rule = .ok (some anchor))
  | [], anchors, h => by
    cases h
    simp
  | rule :: rules, anchors, h => by
    obtain ⟨anchor?, hanchor, h⟩ := bind_ok h
    obtain ⟨rest, hrest, h⟩ := bind_ok h
    cases h
    rw [List.mem_append, mem_anchorsFor_iff hrest, Option.mem_toList, List.exists_mem_cons_iff,
      hanchor, Except.ok.injEq]

/-- **The anchors of a rule set with stable apexes**: one for each wildcard whose apex no rule
    classifies. -/
theorem mem_derived_iff (h : derivedWildcardAnchorRules lib digest rules = .ok anchors)
    (hstable : ∀ rule ∈ rules, isAnchored rule = true → Stable lib.toTables (suffixOf rule.pattern)) :
    anchor ∈ anchors ↔ ∃ rule ∈ rules, isAnchored rule = true ∧
      (∃ d, classify lib rules ⟨.domain, suffixOf rule.pattern⟩ = .ok d ∧ d.state = .unknown) ∧
      ScopeRule.modelValidate lib (rawAnchor digest rule) = .ok anchor := by
  obtain ⟨engine, hengine, h⟩ := bind_ok h
  rw [mem_anchorsFor_iff h]
  refine exists_congr fun rule => and_congr_right fun hrule => ?_
  by_cases hanchored : isAnchored rule = true
  · rw [anchorFor_some_iff hengine hanchored (hstable rule hrule hanchored)]
    simp only [hanchored, true_and]
    exact ⟨fun ⟨d, hd, hstate, hmake⟩ => ⟨⟨d, hd, hstate⟩, hmake⟩,
      fun ⟨⟨d, hd, hstate⟩, hmake⟩ => ⟨d, hd, hstate, hmake⟩⟩
  · simp [anchorFor, hanchored]

/-- An anchor's pattern is the apex. -/
theorem anchor_pattern (hanchored : isAnchored rule = true) (hstable : Stable lib.toTables (suffixOf rule.pattern))
    (hmake : ScopeRule.modelValidate lib (rawAnchor digest rule) = .ok anchor) :
    anchor.pattern = suffixOf rule.pattern ∧ anchor.kind = .domain ∧ anchor.state = .passiveOnly := by
  obtain ⟨hkind, hstate, -, hpattern⟩ := modelValidate_fields hmake
  exact ⟨canonicalizeRulePattern_domain hstable (isAnchored_glob hanchored) hpattern, hkind, hstate⟩

end Stable

/-! ## An anchor that does not yield -/

/-- A wildcard of priority 10, and a URL rule of priority 0 on the wildcard's apex. -/
def anchoredRules : List ScopeRule :=
  [{ ruleId := ⟨"program-wildcard", by decide, by decide⟩, kind := .domain
     pattern := "*.example.com", state := .inScope, priority := 10, tier := none, reason := none
     state_known := by decide },
   { ruleId := ⟨"no-admin", by decide, by decide⟩, kind := .url
     pattern := "https://example.com/admin/*", state := .outOfScope, priority := 0, tier := none
     reason := none, state_known := by decide }]

def adminUrl : ScopeSubject := ⟨.url, "https://example.com/admin/login"⟩

/-- The first twelve digits of the digest of `program-wildcard`. -/
def wildcardDigest (_ : String) : String := "ce21c9830303"

theorem not_anchorsKeep {lib : ScopeLib} {digest : String → String} {rules : List ScopeRule}
    {subject : ScopeSubject} (state : ScopeState) (h : (classify lib rules subject).map ScopeDecision.state = .ok state)
    (hstate : state ≠ .unknown)
    (h' : (classifyEffective lib digest rules subject).map ScopeDecision.state ≠ .ok state) :
    ¬ AnchorsKeep lib digest rules subject := by
  intro hkeep
  cases hd : classify lib rules subject with
  | error e =>
    rw [hd] at h
    cases h
  | ok d =>
    rw [hd] at h
    cases h
    obtain ⟨d', hd', hsame⟩ := hkeep.1 d hd hstate
    rw [hd'] at h'
    exact h' (congrArg Except.ok hsame)

/-- The excluded URL becomes PASSIVE_ONLY: its rule has a lower priority than the anchor of the
    apex, which no rule classifies. -/
theorem anchor_overrides_url : ¬ AnchorsKeep asciiLib wildcardDigest anchoredRules adminUrl :=
  not_anchorsKeep .outOfScope (by decide +kernel) (by decide) (by decide +kernel)

/-! ## Rules that do not apply -/

/-- **Rules that do not apply change nothing**, wherever they stand, and neither does the order of the rules. -/
theorem classify_of_not_applicable {lib : ScopeLib} {rules extra rules' : List ScopeRule} {subject : ScopeSubject}
    {d : ScopeDecision} (hperm : rules'.Perm (rules ++ extra)) (hnd : DistinctIds rules')
    (hextra : ∀ rule ∈ extra, rule.matchesSubject lib subject = .ok false) :
    classify lib rules' subject = .ok d ↔ classify lib rules subject = .ok d := by
  have hnone : applicable lib extra subject = [] := by
    refine List.filter_eq_nil_iff.mpr fun rule hrule hmatch => ?_
    cases (hextra rule hrule).symm.trans (of_decide_eq_true hmatch)
  have happlicable : (applicable lib rules' subject).Perm (applicable lib rules subject) := by
    have h := hperm.filter fun rule => rule.Matches lib subject
    rwa [List.filter_append, show extra.filter _ = [] from hnone, List.append_nil] at h
  rw [classify_ok_iff, classify_ok_iff, ranked_eq_of_perm (applicable_nodup lib subject hnd) happlicable]
  constructor
  · rintro ⟨-, hall, hd⟩
    refine ⟨?_, fun rule hrule => hall rule (hperm.symm.subset (List.mem_append_left _ hrule)), hd⟩
    exact ((hperm.map _).nodup_iff.mp hnd).sublist ((List.sublist_append_left _ _).map _)
  · rintro ⟨-, hall, hd⟩
    refine ⟨hnd, fun rule hrule => ?_, hd⟩
    exact (List.mem_append.mp (hperm.subset hrule)).elim (hall rule) fun hmem => ⟨false, hextra rule hmem⟩

theorem classify_of_not_applicable_wildcard :
    classify asciiLib anchoredRules adminUrl =
      .ok (ScopeEngine.decision adminUrl anchoredRules.tail) := by
  have hperm : anchoredRules.Perm (anchoredRules.tail ++ anchoredRules.take 1) := .swap _ _ []
  exact (classify_of_not_applicable hperm (by decide) (by decide +kernel)).mpr (by decide +kernel)

end NightScout
