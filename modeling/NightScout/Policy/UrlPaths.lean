import NightScout.Policy.Scope
import NightScout.Policy.UrlReading

/-!
# Paths of URL rules

A URL rule whose path is `P/*` is matched by `fnmatchcase` on the path of the subject as it stands:
neither `_canonical_url` nor `_match_url_pattern` takes `.` and `..` out of it. So the rule is about
the beginning of the written path, and a path that leaves `P` by a `..` still begins with `P/`.

What a reader of the URL makes of such a path is `remove_dot_segments` of RFC 3986, 5.2.4. It is
stated here for comparison; no function of the scope module computes it.
-/

namespace NightScout

open Lib

/-! ## `remove_dot_segments` -/

/-- The segments of an absolute path that are left, the ones already put out in reverse. A dot
    segment at the end leaves an empty one. -/
def removeSegments (out : List (List Char)) : List (List Char) → List (List Char)
  | [] => out.reverse
  | [segment] =>
    if segment = ['.'] then ([] :: out).reverse
    else if segment = ['.', '.'] then ([] :: out.tail).reverse
    else (segment :: out).reverse
  | segment :: rest =>
    if segment = ['.'] then removeSegments out rest
    else if segment = ['.', '.'] then removeSegments out.tail rest
    else removeSegments (segment :: out) rest

/-- The segments of an absolute path. -/
def segments (path : String) : List (List Char) := (path.toList.drop 1).splitOn '/'

/-- `remove_dot_segments`, of an absolute path. -/
def removeDotSegments (path : String) : String :=
  String.ofList ((removeSegments [] (segments path)).flatMap fun segment => '/' :: segment)

/-- No segment is `.` or `..`. -/
def DotFree (path : String) : Prop := ∀ segment ∈ segments path, segment ≠ ['.'] ∧ segment ≠ ['.', '.']

theorem removeSegments_dotFree {rest : List (List Char)}
    (h : ∀ segment ∈ rest, segment ≠ ['.'] ∧ segment ≠ ['.', '.']) (out : List (List Char)) :
    removeSegments out rest = out.reverse ++ rest := by
  induction rest generalizing out with
  | nil => simp [removeSegments]
  | cons segment rest ih =>
    obtain ⟨hdot, hdots⟩ := h segment List.mem_cons_self
    have hrest := ih fun other hother => h other (List.mem_cons_of_mem segment hother)
    cases rest with
    | nil => simp [removeSegments, hdot, hdots]
    | cons next rest =>
      rw [removeSegments, if_neg hdot, if_neg hdots, hrest]
      · simp
      · simp

theorem flatMap_segments (segment : List Char) (rest : List (List Char)) :
    (segment :: rest).flatMap (fun segment => '/' :: segment) =
      '/' :: List.intercalate ['/'] (segment :: rest) := by
  induction rest generalizing segment with
  | nil => simp [List.intercalate]
  | cons next rest ih =>
    rw [List.flatMap_cons, ih, List.intercalate_cons_cons]
    simp

/-- **A path without dot segments stays as it is.** -/
theorem removeDotSegments_dotFree {path : String} (habs : path.toList.head? = some '/')
    (h : DotFree path) : removeDotSegments path = path := by
  rw [removeDotSegments, removeSegments_dotFree h]
  apply String.toList_inj.mp
  rw [String.toList_ofList, List.reverse_nil, List.nil_append]
  cases hpath : path.toList with
  | nil =>
    rw [hpath] at habs
    cases habs
  | cons c rest =>
    rw [hpath] at habs
    obtain rfl := Option.some.inj habs
    have hsegments : segments path = rest.splitOn '/' := by rw [segments, hpath]; rfl
    have hjoin : List.intercalate ['/'] (rest.splitOn '/') = rest := List.intercalate_splitOn '/'
    rw [hsegments]
    cases hsplit : rest.splitOn '/' with
    | nil => exact absurd hsplit (List.splitOn_ne_nil '/' rest)
    | cons segment others =>
      rw [flatMap_segments, ← hsplit, hjoin]

/-! ## Rules of the form `P/*` -/

section PathRules

variable (lib : ScopeLib)

/-- The parts a URL subject is matched by. -/
def Reads (subject : ScopeSubject) (candidate : SplitResult) : Prop :=
  subject.kind = .url ∧ ∃ url, canonicalUrl lib.toTables subject.value = .ok url ∧
    urlsplit lib.toTables url = .ok candidate

/-- A URL rule with the path `base/*`, where `base` has no wildcards, and without a query. -/
structure PathRule (rule : ScopeRule) (base : String) (parts : SplitResult) : Prop where
  kind : rule.kind = .url
  reads : urlsplit lib.toTables rule.pattern = .ok parts
  path : parts.path = base ++ "/*"
  query : parts.query = ""
  literal : base.toList.all Fnmatch.isLiteral = true

/-- The scheme, the host and the port are the rule's. -/
structure Addressed (parts candidate : SplitResult) : Prop where
  scheme : candidate.scheme = parts.scheme
  host : ∃ host ruleHost, candidate.hostname lib.toTables = some host ∧
    parts.hostname lib.toTables = some ruleHost ∧
    matchDomainPattern lib.toTables host ruleHost = .ok true
  port : ∃ port, effectivePort candidate = .ok port ∧ effectivePort parts = .ok port

/-- Two subjects whose parts differ in the path only. -/
structure SameAddress (subject other : ScopeSubject) (candidate candidate' : SplitResult) : Prop where
  reads : Reads lib subject candidate
  reads' : Reads lib other candidate'
  hostname : ScopeRule.subjectHostname lib subject = ScopeRule.subjectHostname lib other
  parts : candidate' = { candidate with path := candidate'.path }

end PathRules

/-- A path lies under `base`: it begins with `base/`. -/
def Under (base path : String) : Prop := base.toList ++ ['/'] <+: path.toList

instance (base path : String) : Decidable (Under base path) := inferInstanceAs (Decidable (_ <+: _))

/-- The written path and the path that is meant agree on whether they lie under `base`. -/
def Agrees (base path : String) : Prop := Under base path ↔ Under base (removeDotSegments path)

theorem agrees_dotFree {path : String} (habs : path.toList.head? = some '/') (h : DotFree path)
    (base : String) : Agrees base path := by
  unfold Agrees
  rw [removeDotSegments_dotFree habs h]

section Matching

variable {lib : ScopeLib} {rule : ScopeRule} {base : String} {parts candidate candidate' : SplitResult}
  {subject other : ScopeSubject}

theorem matchesSubject_url (hkind : rule.kind = .url) (hreads : urlsplit lib.toTables rule.pattern = .ok parts)
    (hsubject : Reads lib subject candidate) :
    rule.matchesSubject lib subject =
      if candidate.scheme ≠ parts.scheme then .ok false
      else
        match candidate.hostname lib.toTables, parts.hostname lib.toTables with
        | some host, some ruleHost => do
          let sameHost ← matchDomainPattern lib.toTables host ruleHost
          if sameHost then matchUrlParts candidate parts else return false
        | _, _ => .ok false := by
  obtain ⟨hurl, url, hcanonical, hcandidate⟩ := hsubject
  unfold ScopeRule.matchesSubject
  rw [hkind]
  dsimp only
  rw [if_neg (not_not.mpr hurl)]
  unfold matchUrlPattern
  rw [hcanonical, ok_bind, hcandidate, ok_bind, hreads, ok_bind]
  rfl

/-- The path of a rule is compared with the path as it is written. -/
theorem PathRule.fnmatchcase_iff (h : PathRule lib rule base parts) (path : String) :
    fnmatchcase path (pathOf parts) = true ↔ Under base path := by
  have hne : parts.path ≠ "" := by
    intro hempty
    have htext := congrArg String.toList (h.path.symm.trans hempty)
    simp [String.toList_append] at htext
  rw [pathOf, if_neg hne, h.path]
  apply fnmatchcase_literal_star
  · simp [String.toList_append]
  · intro c hc
    rcases List.mem_append.mp hc with hbase | hslash
    · exact List.all_eq_true.mp h.literal c hbase
    · obtain rfl := List.mem_singleton.mp hslash
      rfl

theorem PathRule.matchUrlParts_eq (h : PathRule lib rule base parts) {port : ℕ}
    (hport : effectivePort candidate = .ok port) (hport' : effectivePort parts = .ok port) :
    matchUrlParts candidate parts = .ok (decide (Under base (pathOf candidate))) := by
  have hpath : fnmatchcase (pathOf candidate) (pathOf parts) = decide (Under base (pathOf candidate)) := by
    rw [Bool.eq_iff_iff, decide_eq_true_eq]
    exact h.fnmatchcase_iff _
  simp [matchUrlParts, hport, hport', hpath, h.query]

/-- **What a path rule asks of a subject it addresses**: that its written path lies under `P`. -/
theorem PathRule.matches_iff (h : PathRule lib rule base parts) (hsubject : Reads lib subject candidate)
    (haddr : Addressed lib parts candidate) : rule.Matches lib subject ↔ Under base (pathOf candidate) := by
  obtain ⟨host, ruleHost, hhost, hruleHost, hmatch⟩ := haddr.host
  obtain ⟨port, hport, hport'⟩ := haddr.port
  unfold ScopeRule.Matches
  rw [matchesSubject_url h.kind h.reads hsubject, if_neg (not_not.mpr haddr.scheme)]
  simp only [hhost, hruleHost, hmatch, ok_bind, if_true, h.matchUrlParts_eq hport hport',
    Except.ok.injEq, decide_eq_true_eq]

end Matching

/-! ## Two spellings of one path -/

section Spellings

variable {lib : ScopeLib} {rule : ScopeRule} {base : String} {parts candidate candidate' : SplitResult}
  {subject other : ScopeSubject}

/-- The rule is a path rule, and does not tell the written paths of the two subjects from the paths
    that are meant. -/
def SeesThrough (lib : ScopeLib) (candidate candidate' : SplitResult) (rule : ScopeRule) : Prop :=
  ∃ base parts, PathRule lib rule base parts ∧
    (Addressed lib parts candidate →
      Agrees base (pathOf candidate) ∧ Agrees base (pathOf candidate'))

theorem SameAddress.hostname_eq (h : SameAddress lib subject other candidate candidate') :
    candidate'.hostname lib.toTables = candidate.hostname lib.toTables := by
  rw [h.parts]
  rfl

theorem SameAddress.port_eq (h : SameAddress lib subject other candidate candidate') :
    effectivePort candidate' = effectivePort candidate := by
  rw [h.parts]
  rfl

/-- Paths that are meant to be the same lie under the same bases, as far as the rule sees through. -/
theorem under_iff (hsame : removeDotSegments (pathOf candidate) = removeDotSegments (pathOf candidate'))
    (hagrees : Agrees base (pathOf candidate) ∧ Agrees base (pathOf candidate')) :
    Under base (pathOf candidate) ↔ Under base (pathOf candidate') := by
  exact hagrees.1.trans ((iff_of_eq (congrArg (Under base) hsame)).trans hagrees.2.symm)

/-- Only a URL rule looks at the path. -/
theorem matchesSubject_same (h : SameAddress lib subject other candidate candidate')
    (hsame : removeDotSegments (pathOf candidate) = removeDotSegments (pathOf candidate'))
    (hrule : rule.kind = .url → SeesThrough lib candidate candidate' rule) :
    rule.matchesSubject lib subject = rule.matchesSubject lib other := by
  have hkinds : subject.kind = .url ∧ other.kind = .url := ⟨h.reads.1, h.reads'.1⟩
  cases hkind : rule.kind with
  | domain => simp only [ScopeRule.matchesSubject, hkind, h.hostname]
  | ipAddress => simp only [ScopeRule.matchesSubject, hkind, hkinds.1, hkinds.2]; rfl
  | cidr => simp only [ScopeRule.matchesSubject, hkind, hkinds.1, hkinds.2]
  | mobileApp => simp only [ScopeRule.matchesSubject, hkind, hkinds.1, hkinds.2]; rfl
  | url =>
    obtain ⟨base, parts, hpath, hagrees⟩ := hrule hkind
    rw [matchesSubject_url hkind hpath.reads h.reads, matchesSubject_url hkind hpath.reads h.reads',
      h.hostname_eq, show candidate'.scheme = candidate.scheme by rw [h.parts]]
    by_cases hscheme : candidate.scheme = parts.scheme
    · rw [if_neg (not_not.mpr hscheme), if_neg (not_not.mpr hscheme)]
      cases hhost : candidate.hostname lib.toTables with
      | none => rfl
      | some host =>
        cases hruleHost : parts.hostname lib.toTables with
        | none => rfl
        | some ruleHost =>
          cases hmatch : matchDomainPattern lib.toTables host ruleHost with
          | error e => simp only [hmatch, error_bind]
          | ok b =>
            simp only [hmatch, ok_bind]
            cases b with
            | false => rfl
            | true =>
              simp only [if_true]
              have hports := h.port_eq
              cases hport : effectivePort candidate with
              | error e => simp only [matchUrlParts, hports, hport, error_bind]
              | ok port =>
                cases hrulePort : effectivePort parts with
                | error e => simp only [matchUrlParts, hports, hport, hrulePort, ok_bind, error_bind]
                | ok rulePort =>
                  by_cases heq : port = rulePort
                  · subst heq
                    rw [hpath.matchUrlParts_eq hport hrulePort,
                      hpath.matchUrlParts_eq (hports.trans hport) hrulePort]
                    have haddr : Addressed lib parts candidate :=
                      ⟨hscheme, ⟨host, ruleHost, hhost, hruleHost, hmatch⟩, port, hport, hrulePort⟩
                    simp only [under_iff hsame (hagrees haddr)]
                  · simp [matchUrlParts, hports, hport, hrulePort, heq]
    · rw [if_pos hscheme, if_pos hscheme]

theorem matching_same {rules : List ScopeRule}
    (h : ∀ rule ∈ rules, rule.matchesSubject lib subject = rule.matchesSubject lib other) :
    ScopeEngine.matching lib subject rules = ScopeEngine.matching lib other rules := by
  induction rules with
  | nil => rfl
  | cons rule rules ih =>
    rw [ScopeEngine.matching, ScopeEngine.matching, h rule List.mem_cons_self,
      ih fun other hother => h other (List.mem_cons_of_mem rule hother)]

/-- The state of a classification, where there is one. -/
def stateOf (lib : ScopeLib) (rules : List ScopeRule) (subject : ScopeSubject) :
    Except PyError ScopeState :=
  (classify lib rules subject).map ScopeDecision.state

theorem stateOf_same {rules : List ScopeRule}
    (h : ∀ rule ∈ rules, rule.matchesSubject lib subject = rule.matchesSubject lib other) :
    stateOf lib rules subject = stateOf lib rules other := by
  unfold stateOf classify
  cases hengine : ScopeEngine.ofRules rules with
  | error e => rfl
  | ok engine =>
    have hrules := (ofRules_ok_iff.mp hengine).2
    simp only [ok_bind, ScopeEngine.evaluate, hrules, matching_same h]
    cases ScopeEngine.matching lib other rules with
    | error e => rfl
    | ok found =>
      simp only [ok_bind, pure_eq_ok, Except.map, decision_state]

/-- **Path rules and dot segments.** A path rule is about the path that is meant exactly if the
    written path agrees with it, which a path without dot segments always does; and two spellings of
    one path are classified alike by any rules that see through both. -/
theorem url_path_rule_iff (hrule : PathRule lib rule base parts)
    (hsubject : Reads lib subject candidate) (haddr : Addressed lib parts candidate) :
    ((rule.Matches lib subject ↔ Under base (removeDotSegments (pathOf candidate))) ↔ Agrees base (pathOf candidate)) ∧
    (DotFree (pathOf candidate) → Agrees base (pathOf candidate)) ∧
    ∀ other candidate', SameAddress lib subject other candidate candidate' →
      removeDotSegments (pathOf candidate) = removeDotSegments (pathOf candidate') → ∀ rules : List ScopeRule,
        (∀ rule ∈ rules, rule.kind = .url → SeesThrough lib candidate candidate' rule) →
        stateOf lib rules subject = stateOf lib rules other := by
  refine ⟨?_, ?_, ?_⟩
  · rw [hrule.matches_iff hsubject haddr]
    rfl
  · intro hfree
    obtain ⟨-, url, hurl, hcandidate⟩ := hsubject
    exact agrees_dotFree (candidate_path hurl hcandidate) hfree base
  · intro other candidate' hsame hpaths rules hrules
    apply stateOf_same
    intro rule hmem
    exact matchesSubject_same hsame hpaths (hrules rule hmem)

end Spellings

/-! ## A path that leaves what is allowed -/

theorem inScope_known : ScopeState.inScope ≠ .unknown := by decide

/-- Everything under `/allowed/` is in scope. -/
def allowedRule : ScopeRule where
  ruleId := { text := "allowed" }
  kind := .url
  pattern := "https://example.com/allowed/*"
  state := .inScope
  priority := 0
  tier := none
  reason := none
  state_known := inScope_known

def exampleParts (path : String) : SplitResult := ⟨"https", "example.com", path, "", ""⟩

def exampleSubject (path : String) : ScopeSubject := ⟨.url, "https://example.com" ++ path⟩

theorem allowedRule_path :
    PathRule asciiLib allowedRule "/allowed" (exampleParts "/allowed/*") where
  kind := rfl
  reads := by decide +kernel
  path := by decide
  query := rfl
  literal := by decide

theorem allowedRule_addressed :
    Addressed asciiLib (exampleParts "/allowed/*") (exampleParts "/allowed/../admin") where
  scheme := rfl
  host := ⟨"example.com", "example.com", by decide +kernel⟩
  port := ⟨443, by decide +kernel⟩

theorem url_path_rule_admin :
    ((allowedRule.Matches asciiLib (exampleSubject "/allowed/../admin") ↔
      Under "/allowed" (removeDotSegments (pathOf (exampleParts "/allowed/../admin")))) ↔
      Agrees "/allowed" (pathOf (exampleParts "/allowed/../admin"))) :=
  (url_path_rule_iff allowedRule_path ⟨rfl, "https://example.com/allowed/../admin", by decide +kernel⟩
    allowedRule_addressed).1

/-- The rule and both subjects are accepted, the two spellings mean one path, and yet the rule
    applies to one of them and not to the other. -/
theorem dotted_path_is_allowed : ScopeRule.modelValidate asciiLib
      { ruleId := "allowed", kind := .url, pattern := "https://example.com/allowed/*", state := .inScope } =
        .ok allowedRule ∧
    ScopeSubject.modelValidate asciiLib .url "https://example.com/allowed/../admin" =
      .ok (exampleSubject "/allowed/../admin") ∧
    removeDotSegments "/allowed/../admin" = "/admin" ∧
    stateOf asciiLib [allowedRule] (exampleSubject "/allowed/../admin") = .ok .inScope ∧
    stateOf asciiLib [allowedRule] (exampleSubject "/admin") = .ok .unknown := by
  decide +kernel

end NightScout
