import NightScout.Core.Events
import NightScout.Policy.Urls
import NightScout.Lib.Winner
import Mathlib.Data.Prod.Lex

/-!
# Scope evaluation

`ScopeRule` and `ScopeEngine` of `recon/policy/scope.py`. A rule is validated into its canonical
pattern; the engine keeps rules with distinct ids and classifies a subject by the matching rule that
ranks first, by priority, specificity, pattern length, safety of the state, and id.

`ipaddress` is a parameter (`ScopeLib`): no DOMAIN or URL subject asks it anything but whether a
canonical network still parses.
-/

namespace NightScout

open Lib

inductive ScopeAssetKind where
  | domain | url | ipAddress | cidr | mobileApp
  deriving DecidableEq, Repr

/-- The Unicode tables and the `ipaddress` module. -/
structure ScopeLib extends Tables where
  /-- `str(ip_address(value))`; `none` is a `ValueError`. -/
  address : String → Option String
  /-- `str(ip_network(value, strict=False))`. -/
  network : String → Option String
  prefixLength : String → ℕ
  /-- Whether an address lies in a network of its version. -/
  addressIn : String → String → Bool
  subnetOf : String → String → Bool

/-- The library as it answers on ASCII text without IP addresses. -/
def asciiLib : ScopeLib where
  lower := id
  toASCII _ := none
  nfkc := id
  bracketed _ := false
  address _ := none
  network _ := none
  prefixLength _ := 0
  addressIn _ _ := false
  subnetOf _ _ := false

structure ScopeSubject where
  kind : ScopeAssetKind
  value : String
  deriving DecidableEq, Repr

/-- The fields of a rule before validation, as a scope file has them. -/
structure RawScopeRule where
  ruleId : String
  kind : ScopeAssetKind
  pattern : String
  state : ScopeState
  priority : ℤ := 0
  tier : Option String := none
  reason : Option String := none
  deriving DecidableEq, Repr

/-- A validated rule. -/
structure ScopeRule where
  ruleId : Stripped
  kind : ScopeAssetKind
  pattern : String
  state : ScopeState
  priority : ℤ
  tier : Option String
  reason : Option String
  state_known : state ≠ .unknown
  deriving DecidableEq

structure ScopeDecision where
  subject : ScopeSubject
  state : ScopeState
  matchedRuleId : Option String := none
  matchedRuleIds : List String := []
  tier : Option String := none
  reason : Option String := none
  deriving DecidableEq

/-! ## Validation -/

section Validation

variable (lib : ScopeLib)

def ipOr (result : Option String) (value : String) : Except PyError String :=
  match result with
  | some text => .ok text
  | none => .error (.valueError s!"{value} does not appear to be an IPv4 or IPv6 address or network")

def canonicalizeSubjectValue (kind : ScopeAssetKind) (value : String) : Except PyError String :=
  match kind with
  | .domain => canonicalDomain lib.toTables value
  | .url => canonicalUrl lib.toTables value
  | .ipAddress => ipOr (lib.address value) value
  | .cidr => ipOr (lib.network value) value
  | .mobileApp => .ok (strip value)

/-- `ScopeSubject(kind=kind, value=value)`. -/
def ScopeSubject.modelValidate (kind : ScopeAssetKind) (value : String) :
    Except PyError ScopeSubject :=
  if strip value = "" then .error (.valueError "scope subject value must not be blank")
  else (canonicalizeSubjectValue lib kind (strip value)).map fun value => ⟨kind, value⟩

def canonicalizeRulePattern (kind : ScopeAssetKind) (pattern : String) : Except PyError String :=
  let value := strip pattern
  if value = "" then .error (.valueError "scope rule pattern must not be blank")
  else
    match kind with
    | .domain =>
      if isWildcard value then (canonicalDomain lib.toTables (suffixOf value)).map ("*." ++ ·)
      else if hasGlob value then
        .error (.valueError "DOMAIN rules support only the leading '*.' wildcard form")
      else canonicalDomain lib.toTables value
    | .url => canonicalUrlPattern lib.toTables value
    | .ipAddress => if hasGlob value then .ok value else ipOr (lib.address value) value
    | .cidr => ipOr (lib.network value) value
    | .mobileApp => .ok value

/-- `ScopeRule(**raw)`. -/
def ScopeRule.modelValidate (raw : RawScopeRule) : Except PyError ScopeRule :=
  match optionalText raw.ruleId with
  | none => .error (.valueError "rule_id must not be blank")
  | some ruleId =>
    if hstate : raw.state = .unknown then
      .error (.valueError "scope rules cannot explicitly classify UNKNOWN")
    else
      (canonicalizeRulePattern lib raw.kind raw.pattern).map fun pattern =>
        { ruleId, kind := raw.kind, pattern, state := raw.state, priority := raw.priority
          tier := raw.tier.bind stripOrNone, reason := raw.reason.bind stripOrNone
          state_known := hstate }

end Validation

/-! ## Precedence -/

namespace ScopeState

/-- `state_safety`. -/
def safety : ScopeState → ℕ
  | inScope => 1 | passiveOnly => 2 | ambiguous => 3 | outOfScope => 4 | unknown => 0

end ScopeState

namespace ScopeRule

/-- `RuleSpecificity`. -/
def generic : ℕ := 10
def wildcard : ℕ := 20
def exact : ℕ := 30
def urlPath : ℕ := 40

/-- `specificity`. A URL pattern is taken apart again, which cannot fail for a rule that matched:
    matching has taken it apart before. -/
def specificity (lib : ScopeLib) (rule : ScopeRule) : ℕ × ℕ :=
  match rule.kind with
  | .domain => (if isWildcard rule.pattern then wildcard else exact, rule.pattern.length)
  | .url =>
    match urlsplit lib.toTables rule.pattern with
    | .error _ => (generic, rule.pattern.length)
    | .ok parsed =>
      let pathHasGlob := hasGlob parsed.path
      let hostHasGlob := (parsed.hostname lib.toTables).any fun host => '*' ∈ host.toList
      let tier :=
        if pathHasGlob ∨ (parsed.path ≠ "" ∧ parsed.path ≠ "/") then urlPath
        else if hostHasGlob then wildcard
        else exact
      (tier, rule.pattern.length)
  | .ipAddress | .mobileApp =>
    (if hasGlob rule.pattern then wildcard else exact, rule.pattern.length)
  | .cidr => (exact, lib.prefixLength rule.pattern)

/-- The type of `_rule_sort_key`. -/
abbrev SortKey := ℤ ×ₗ ℕ ×ₗ ℕ ×ₗ ℕ ×ₗ String

/-- `_rule_sort_key`. -/
def sortKey (lib : ScopeLib) (rule : ScopeRule) : SortKey :=
  toLex (rule.priority, toLex ((rule.specificity lib).1, toLex ((rule.specificity lib).2,
    toLex (rule.state.safety, rule.ruleId.text))))

def subjectHostname (lib : ScopeLib) (subject : ScopeSubject) : Except PyError (Option String) :=
  match subject.kind with
  | .domain => .ok (some subject.value)
  | .url => (urlsplit lib.toTables subject.value).map (SplitResult.hostname lib.toTables)
  | _ => .ok none

/-- `matches`. -/
def matchesSubject (lib : ScopeLib) (rule : ScopeRule) (subject : ScopeSubject) :
    Except PyError Bool :=
  match rule.kind with
  | .domain => do
    match ← subjectHostname lib subject with
    | none => return false
    | some host => matchDomainPattern lib.toTables host rule.pattern
  | .url =>
    if subject.kind ≠ .url then return false
    else matchUrlPattern lib.toTables subject.value rule.pattern
  | .ipAddress =>
    if subject.kind ≠ .ipAddress then return false
    else do
      let canonical ← ipOr (lib.address subject.value) subject.value
      return if hasGlob rule.pattern then fnmatchcase canonical rule.pattern
        else canonical = rule.pattern
  | .cidr => do
    let ruleNetwork ← ipOr (lib.network rule.pattern) rule.pattern
    match subject.kind with
    | .ipAddress => do
      let address ← ipOr (lib.address subject.value) subject.value
      return lib.addressIn address ruleNetwork
    | .cidr => do
      let candidate ← ipOr (lib.network subject.value) subject.value
      return lib.subnetOf candidate ruleNetwork
    | _ => return false
  | .mobileApp =>
    if subject.kind ≠ .mobileApp then return false
    else return fnmatchcase subject.value rule.pattern

end ScopeRule

/-! ## The engine -/

/-- `ScopeEngine`: the registered rules, in order, their ids distinct. -/
structure ScopeEngine where
  rules : List ScopeRule
  nodup : (rules.map fun rule => rule.ruleId.text).Nodup

namespace ScopeEngine

def register (engine : ScopeEngine) (rule : ScopeRule) : Except PyError ScopeEngine :=
  if h : rule.ruleId.text ∈ engine.rules.map fun rule => rule.ruleId.text then
    .error (.valueError s!"scope rule already registered: {rule.ruleId.text}")
  else
    .ok ⟨engine.rules ++ [rule], by
      rw [List.map_append]
      exact List.nodup_append.mpr ⟨engine.nodup, List.nodup_singleton _, by
        intro a ha b hb
        rw [List.map_singleton, List.mem_singleton] at hb
        subst hb
        exact fun heq => h (heq ▸ ha)⟩⟩

/-- `ScopeEngine(rules)`. -/
def ofRules (rules : List ScopeRule) : Except PyError ScopeEngine :=
  rules.foldlM register ⟨[], List.nodup_nil⟩

/-- `[rule for rule in self._rules.values() if rule.matches(subject)]`. -/
def matching (lib : ScopeLib) (subject : ScopeSubject) :
    List ScopeRule → Except PyError (List ScopeRule)
  | [] => .ok []
  | rule :: rules => do
    let found ← rule.matchesSubject lib subject
    let rest ← matching lib subject rules
    return if found then rule :: rest else rest

/-- The decision on the matches, best first. -/
def decision (subject : ScopeSubject) : List ScopeRule → ScopeDecision
  | [] => { subject, state := .unknown, reason := some "no configured scope rule matched this asset" }
  | winner :: rest =>
    { subject, state := winner.state, matchedRuleId := some winner.ruleId.text
      matchedRuleIds := (winner :: rest).map fun rule => rule.ruleId.text
      tier := winner.tier
      reason := some (winner.reason.getD s!"matched scope rule {winner.ruleId.text}") }

def evaluate (lib : ScopeLib) (engine : ScopeEngine) (subject : ScopeSubject) :
    Except PyError ScopeDecision := do
  let found ← matching lib subject engine.rules
  return decision subject (ranked (ScopeRule.sortKey lib) found)

end ScopeEngine

/-- `ScopeEngine(rules).evaluate(subject)`. -/
def classify (lib : ScopeLib) (rules : List ScopeRule) (subject : ScopeSubject) :
    Except PyError ScopeDecision := do
  let engine ← ScopeEngine.ofRules rules
  engine.evaluate lib subject

/-! ## What a classification is -/

section Classification

variable {lib : ScopeLib} {rules : List ScopeRule} {subject : ScopeSubject} {d : ScopeDecision}

/-- The rule applies to the subject. -/
def ScopeRule.Matches (lib : ScopeLib) (rule : ScopeRule) (subject : ScopeSubject) : Prop :=
  rule.matchesSubject lib subject = .ok true

instance ScopeRule.decidableMatches (rule : ScopeRule) : Decidable (rule.Matches lib subject) :=
  inferInstanceAs (Decidable (_ = _))

/-- The rules that apply. -/
def applicable (lib : ScopeLib) (rules : List ScopeRule) (subject : ScopeSubject) :
    List ScopeRule :=
  rules.filter fun rule => rule.Matches lib subject

/-- Rules with distinct ids are accepted. -/
def DistinctIds (rules : List ScopeRule) : Prop :=
  (rules.map fun rule => rule.ruleId.text).Nodup

instance : Decidable (DistinctIds rules) := inferInstanceAs (Decidable (List.Nodup _))

theorem foldlM_register : ∀ (rules : List ScopeRule) (engine : ScopeEngine),
    (DistinctIds (engine.rules ++ rules) → ∃ h,
      rules.foldlM ScopeEngine.register engine = .ok ⟨engine.rules ++ rules, h⟩) ∧
    ∀ engine', rules.foldlM ScopeEngine.register engine = .ok engine' →
      DistinctIds (engine.rules ++ rules) ∧ engine'.rules = engine.rules ++ rules
  | [], engine => by
    refine ⟨fun h => ⟨by simpa using engine.nodup, by simp⟩, fun engine' h => ?_⟩
    cases h
    exact ⟨by simpa [DistinctIds] using engine.nodup, (List.append_nil _).symm⟩
  | rule :: rules, engine => by
    have hassoc : engine.rules ++ rule :: rules = (engine.rules ++ [rule]) ++ rules := by simp
    simp only [List.foldlM_cons, ScopeEngine.register]
    split
    next hmem =>
      refine ⟨fun hnd => ?_, fun engine' h => by cases h⟩
      unfold DistinctIds at hnd
      rw [List.map_append, List.map_cons] at hnd
      exact absurd rfl ((List.nodup_append.mp hnd).2.2 _ hmem _ List.mem_cons_self)
    next hmem =>
      simp only [ok_bind, hassoc]
      exact foldlM_register rules ⟨engine.rules ++ [rule], _⟩

theorem ofRules_ok_iff {engine : ScopeEngine} :
    ScopeEngine.ofRules rules = .ok engine ↔ DistinctIds rules ∧ engine.rules = rules := by
  obtain ⟨hok, hinv⟩ := foldlM_register rules ⟨[], List.nodup_nil⟩
  constructor
  · exact hinv engine
  · intro ⟨hnd, hrules⟩
    obtain ⟨h, hok⟩ := hok hnd
    have hsame : engine = ⟨[] ++ rules, h⟩ := by
      cases engine
      cases hrules
      rfl
    rw [hsame]
    exact hok

theorem matching_ok_iff {found : List ScopeRule} : ScopeEngine.matching lib subject rules = .ok found ↔
      (∀ rule ∈ rules, ∃ b, rule.matchesSubject lib subject = .ok b) ∧ found = applicable lib rules subject := by
  induction rules generalizing found with
  | nil => simp [ScopeEngine.matching, applicable, eq_comm]
  | cons rule rules ih =>
    cases hrule : rule.matchesSubject lib subject with
    | error e =>
      simp only [ScopeEngine.matching, hrule, error_bind, List.forall_mem_cons]
      constructor
      · intro h
        cases h
      · rintro ⟨⟨⟨b, hb⟩, -⟩, -⟩
        cases hb
    | ok b =>
      cases hrest : ScopeEngine.matching lib subject rules with
      | error e =>
        simp only [ScopeEngine.matching, hrule, hrest, ok_bind, error_bind, List.forall_mem_cons]
        constructor
        · intro h
          cases h
        · rintro ⟨⟨-, hall⟩, -⟩
          rw [ih.mpr ⟨hall, rfl⟩] at hrest
          cases hrest
      | ok rest =>
        obtain ⟨hall, hfound⟩ := ih.mp hrest
        have hsame : (if b then rule :: rest else rest) = applicable lib (rule :: rules) subject := by
          rw [hfound, applicable, applicable, List.filter_cons]
          cases b <;> simp [ScopeRule.Matches, hrule]
        simp only [ScopeEngine.matching, hrule, hrest, ok_bind, pure_eq_ok, Except.ok.injEq,
          List.forall_mem_cons, hsame]
        exact ⟨fun h => ⟨⟨⟨b, rfl⟩, hall⟩, h.symm⟩, fun h => h.2.symm⟩

/-- **What a classification is**: the ids are distinct, no rule raises, and the applicable rules are
    ranked. -/
theorem classify_ok_iff : classify lib rules subject = .ok d ↔
    DistinctIds rules ∧ (∀ rule ∈ rules, ∃ b, rule.matchesSubject lib subject = .ok b) ∧
      d = ScopeEngine.decision subject (ranked (ScopeRule.sortKey lib) (applicable lib rules subject)) := by
  constructor
  · intro h
    obtain ⟨engine, hengine, h⟩ := bind_ok h
    obtain ⟨hnd, hrules⟩ := ofRules_ok_iff.mp hengine
    obtain ⟨found, hfound, h⟩ := bind_ok h
    rw [hrules] at hfound
    obtain ⟨hall, rfl⟩ := matching_ok_iff.mp hfound
    exact ⟨hnd, hall, (Except.ok.inj h).symm⟩
  · rintro ⟨hnd, hall, rfl⟩
    have hengine : ScopeEngine.ofRules rules = .ok ⟨rules, hnd⟩ := ofRules_ok_iff.mpr ⟨hnd, rfl⟩
    have hfound := matching_ok_iff.mpr ⟨hall, rfl⟩
    simp only [classify, hengine, ok_bind, ScopeEngine.evaluate, hfound, pure_eq_ok]

/-- Rules with distinct ids that do not raise on the subject classify it. -/
theorem classify_total (hnd : DistinctIds rules) (hall : ∀ rule ∈ rules, ∃ b, rule.matchesSubject lib subject = .ok b) :
    ∃ d, classify lib rules subject = .ok d :=
  ⟨_, classify_ok_iff.mpr ⟨hnd, hall, rfl⟩⟩

/-- The state of a decision is its winner's. -/
theorem decision_state (found : List ScopeRule) :
    (ScopeEngine.decision subject (ranked (ScopeRule.sortKey lib) found)).state =
      ((winner (ScopeRule.sortKey lib) found).map ScopeRule.state).getD .unknown := by
  unfold winner
  cases ranked (ScopeRule.sortKey lib) found <;> rfl

/-- Distinct ids make distinct sort keys. -/
theorem sortKeys_nodup (lib : ScopeLib) (h : DistinctIds rules) : (rules.map (ScopeRule.sortKey lib)).Nodup := by
  apply List.Nodup.of_map fun key : ScopeRule.SortKey => (ofLex (ofLex (ofLex (ofLex key).2).2).2).2
  rw [List.map_map]
  exact h

theorem applicable_nodup (lib : ScopeLib) (subject : ScopeSubject) (h : DistinctIds rules) :
    ((applicable lib rules subject).map (ScopeRule.sortKey lib)).Nodup :=
  (sortKeys_nodup lib h).sublist (List.filter_sublist.map _)

theorem mem_applicable {rule : ScopeRule} :
    rule ∈ applicable lib rules subject ↔ rule ∈ rules ∧ rule.Matches lib subject := by
  simp [applicable]

/-- A classified subject has a winner, and its state is the winner's. -/
theorem exists_winner (h : classify lib rules subject = .ok d) (hstate : d.state ≠ .unknown) :
    ∃ w, winner (ScopeRule.sortKey lib) (applicable lib rules subject) = some w ∧ d.state = w.state := by
  obtain ⟨-, -, rfl⟩ := classify_ok_iff.mp h
  rw [decision_state] at hstate ⊢
  cases hw : winner (ScopeRule.sortKey lib) (applicable lib rules subject) with
  | none =>
    rw [hw] at hstate
    exact absurd rfl hstate
  | some w => exact ⟨w, rfl, rfl⟩

theorem state_of_winner (h : classify lib rules subject = .ok d) {w : ScopeRule}
    (hw : winner (ScopeRule.sortKey lib) (applicable lib rules subject) = some w) : d.state = w.state := by
  obtain ⟨-, -, rfl⟩ := classify_ok_iff.mp h
  rw [decision_state, hw]
  rfl

/-- Where one rule applies, the host of the subject has been read, or there is none. -/
theorem hostname_of_matches {rule : ScopeRule} (h : rule.Matches lib subject) :
    ScopeRule.subjectHostname lib subject = .ok none ∨ ∃ host host',
      ScopeRule.subjectHostname lib subject = .ok (some host) ∧ canonicalDomain lib.toTables host = .ok host' := by
  unfold ScopeRule.Matches ScopeRule.matchesSubject at h
  cases hkind : rule.kind with
  | domain =>
    simp only [hkind] at h
    obtain ⟨host?, hhost, h⟩ := bind_ok h
    cases host? with
    | none => exact .inl hhost
    | some host =>
      obtain ⟨host', hhost', -⟩ := bind_ok h
      exact .inr ⟨host, host', hhost, hhost'⟩
  | url =>
    simp only [hkind] at h
    split at h
    · cases h
    next hsubject =>
      obtain ⟨url, hurl⟩ := matchUrlPattern_ok h
      obtain ⟨parsed, host, host', hparsed, hhost, hhost'⟩ := canonicalUrl_ok hurl
      refine .inr ⟨host, host', ?_, hhost'⟩
      simp only [ScopeRule.subjectHostname, not_not.mp hsubject, hparsed, Except.map, hhost]
  | ipAddress =>
    simp only [hkind] at h
    split at h
    · cases h
    next hsubject => exact .inl (by simp only [ScopeRule.subjectHostname, not_not.mp hsubject])
  | cidr =>
    simp only [hkind] at h
    obtain ⟨ruleNetwork, -, h⟩ := bind_ok h
    unfold ScopeRule.subjectHostname
    cases hsubject : subject.kind with
    | ipAddress => exact .inl rfl
    | cidr => exact .inl rfl
    | mobileApp => exact .inl rfl
    | domain =>
      rw [hsubject] at h
      cases h
    | url =>
      rw [hsubject] at h
      cases h
  | mobileApp =>
    simp only [hkind] at h
    split at h
    · cases h
    next hsubject => exact .inl (by simp only [ScopeRule.subjectHostname, not_not.mp hsubject])

/-- Where one rule applies, no DOMAIN rule raises. -/
theorem domain_matches_ok {rule other : ScopeRule} (h : rule.Matches lib subject)
    (hother : other.kind = .domain) : ∃ b, other.matchesSubject lib subject = .ok b := by
  rcases hostname_of_matches h with hnone | ⟨host, host', hhost, hhost'⟩
  · exact ⟨false, by simp only [ScopeRule.matchesSubject, hother, hnone, ok_bind]; rfl⟩
  · refine ⟨matchesHost host' other.pattern, ?_⟩
    simp only [ScopeRule.matchesSubject, hother, hhost, ok_bind, matchDomainPattern, hhost',
      pure_eq_ok]

/-! ## Hosts -/

/-- The canonical host of a DOMAIN or URL subject. -/
def HostIs (lib : ScopeLib) (subject : ScopeSubject) (host : String) : Prop :=
  ∃ raw, ScopeRule.subjectHostname lib subject = .ok (some raw) ∧
    canonicalDomain lib.toTables raw = .ok host

theorem HostIs.unique {host host' : String} (h : HostIs lib subject host)
    (h' : HostIs lib subject host') : host = host' := by
  obtain ⟨raw, hraw, hhost⟩ := h
  obtain ⟨raw', hraw', hhost'⟩ := h'
  rw [hraw] at hraw'
  cases hraw'
  rw [hhost] at hhost'
  exact Except.ok.inj hhost'

/-- **A DOMAIN rule applies by the host.** -/
theorem domain_matches_iff {rule : ScopeRule} (hkind : rule.kind = .domain) : rule.Matches lib subject ↔
      ∃ host, HostIs lib subject host ∧ matchesHost host rule.pattern = true := by
  unfold ScopeRule.Matches HostIs
  simp only [ScopeRule.matchesSubject, hkind]
  constructor
  · intro h
    obtain ⟨host?, hhost, h⟩ := bind_ok h
    cases host? with
    | none => cases h
    | some raw =>
      obtain ⟨host, hcanonical, h⟩ := bind_ok h
      exact ⟨host, ⟨raw, hhost, hcanonical⟩, Except.ok.inj h⟩
  · rintro ⟨host, ⟨raw, hraw, hcanonical⟩, hmatch⟩
    simp only [hraw, ok_bind, matchDomainPattern, hcanonical, hmatch, pure_eq_ok]

/-- A stable name is the host of its own subject. -/
theorem hostIs_domain {value : String} (h : Stable lib.toTables value) :
    HostIs lib ⟨.domain, value⟩ value := ⟨value, rfl, h⟩

/-- A subject that has a host makes no DOMAIN rule raise. -/
theorem domain_ok_of_host {rule : ScopeRule} {host : String} (hkind : rule.kind = .domain)
    (h : HostIs lib subject host) : ∃ b, rule.matchesSubject lib subject = .ok b := by
  obtain ⟨raw, hraw, hcanonical⟩ := h
  refine ⟨matchesHost host rule.pattern, ?_⟩
  simp only [ScopeRule.matchesSubject, hkind, hraw, ok_bind, matchDomainPattern, hcanonical,
    pure_eq_ok]

/-- A subject is unclassified exactly if no rule applies. -/
theorem unknown_iff (h : classify lib rules subject = .ok d) :
    d.state = .unknown ↔ ∀ rule ∈ rules, ¬ rule.Matches lib subject := by
  obtain ⟨-, -, rfl⟩ := classify_ok_iff.mp h
  rw [decision_state]
  constructor
  · intro hunknown rule hrule hmatch
    obtain ⟨w, hw⟩ := winner_isSome (ScopeRule.sortKey lib) (mem_applicable.mpr ⟨hrule, hmatch⟩)
    rw [hw] at hunknown
    exact w.state_known hunknown
  · intro hnone
    have hempty : applicable lib rules subject = [] :=
      List.filter_eq_nil_iff.mpr fun rule hrule hmatch => hnone rule hrule (of_decide_eq_true hmatch)
    rw [hempty]
    rfl

/-- The winner classifies. -/
theorem classify_state_iff (h : classify lib rules subject = .ok d) {rule : ScopeRule}
    (hrule : rule ∈ rules) (hmatch : rule.Matches lib subject) (hbest : ∀ other ∈ rules, other.Matches lib subject →
      other.sortKey lib ≤ rule.sortKey lib) : d.state = rule.state := by
  refine state_of_winner h ((winner_iff ?_).mpr ⟨mem_applicable.mpr ⟨hrule, hmatch⟩, ?_⟩)
  · exact applicable_nodup lib subject (classify_ok_iff.mp h).1
  · intro other hother
    obtain ⟨hmem, hothermatch⟩ := mem_applicable.mp hother
    exact hbest other hmem hothermatch

end Classification

end NightScout
