import NightScout.Policy.Seeds

/-!
# Confirming a name

What happens to the classifications when IN_SCOPE rules for an unclassified name are added to a rule
set: `add_confirmed_domain_scope` seen from the rules. Rules and anchors before, `rules` and
`anchors`; rules added, `added`; anchors after, `anchors'`.

A subject is *reached* if an added rule applies to it. Nothing changes for a subject that is not
reached. For one that is, the anchors that applied to it are gone, because its host is their apex and
the apex is reached too; what is left is the added rules against the old ones. So an old
classification survives if and only if the added rules are outranked.
-/

namespace NightScout

open Lib

/-- Rules for a name, and with `sub` for its subdomains, added to a rule set. -/
structure Confirmed (lib : ScopeLib) (digest : String → String)
    (rules added anchors anchors' : List ScopeRule) (name : String) (sub : Bool) : Prop where
  anchors_eq : derivedWildcardAnchorRules lib digest rules = .ok anchors
  anchors'_eq : derivedWildcardAnchorRules lib digest (rules ++ added) = .ok anchors'
  nodup : DistinctIds (rules ++ anchors)
  nodup' : DistinctIds (rules ++ added ++ anchors')
  stable : Stable lib.toTables name
  no_glob : hasGlob name = false
  apexes : ∀ rule ∈ rules, isAnchored rule = true → Stable lib.toTables (suffixOf rule.pattern)
  has_exact : ∃ rule ∈ added, rule.pattern = name
  added_rule : ∀ rule ∈ added, rule.kind = .domain ∧ rule.state = .inScope ∧
    (rule.pattern = name ∨ sub = true ∧ rule.pattern = "*." ++ name)

/-- An added rule applies to the subject. -/
def Reached (lib : ScopeLib) (added : List ScopeRule) (subject : ScopeSubject) : Prop :=
  ∃ rule ∈ added, rule.Matches lib subject

section Hosts

variable {lib : ScopeLib} {rule : ScopeRule} {subject other : ScopeSubject} {host : String}

/-- A DOMAIN rule does not tell two subjects with one host apart. -/
theorem matches_congr_host (hkind : rule.kind = .domain) (h : HostIs lib subject host)
    (h' : HostIs lib other host) : rule.Matches lib subject ↔ rule.Matches lib other := by
  rw [domain_matches_iff hkind, domain_matches_iff hkind]
  constructor
  · intro ⟨found, hfound, hmatch⟩
    obtain rfl := h.unique hfound
    exact ⟨host, h', hmatch⟩
  · intro ⟨found, hfound, hmatch⟩
    obtain rfl := h'.unique hfound
    exact ⟨host, h, hmatch⟩

/-- Only DOMAIN rules apply to a DOMAIN subject. -/
theorem kind_of_matches_domain {value : String} (h : rule.Matches lib ⟨.domain, value⟩) : rule.kind = .domain := by
  unfold ScopeRule.Matches ScopeRule.matchesSubject at h
  cases hkind : rule.kind with
  | domain => rfl
  | cidr =>
    simp only [hkind] at h
    obtain ⟨ruleNetwork, -, h⟩ := bind_ok h
    cases h
  | url =>
    rw [hkind] at h
    cases h
  | ipAddress =>
    rw [hkind] at h
    cases h
  | mobileApp =>
    rw [hkind] at h
    cases h

end Hosts

namespace Confirmed

variable {lib : ScopeLib} {digest : String → String} {rules added anchors anchors' : List ScopeRule}
  {name : String} {sub : Bool} {subject : ScopeSubject} {rule anchor : ScopeRule}
  {d d' : ScopeDecision}

/-- Every rule of the old set is accepted, alone and with the added ones. -/
theorem nodup_rules (h : Confirmed lib digest rules added anchors anchors' name sub) : DistinctIds rules := by
  have hnd := h.nodup
  unfold DistinctIds at hnd
  rw [List.map_append] at hnd
  exact hnd.of_append_left

theorem nodup_added (h : Confirmed lib digest rules added anchors anchors' name sub) :
    DistinctIds (rules ++ added) := by
  have hnd := h.nodup'
  unfold DistinctIds at hnd
  rw [List.map_append] at hnd
  exact hnd.of_append_left

/-- What an added rule applies to. -/
theorem host_of_reached (h : Confirmed lib digest rules added anchors anchors' name sub)
    (hreached : Reached lib added subject) :
    ∃ host, HostIs lib subject host ∧ (host = name ∨ sub = true ∧ isSubdomain host name = true) := by
  obtain ⟨rule, hrule, hmatch⟩ := hreached
  obtain ⟨hkind, -, hpattern⟩ := h.added_rule rule hrule
  obtain ⟨host, hhost, hmatch⟩ := (domain_matches_iff hkind).mp hmatch
  refine ⟨host, hhost, ?_⟩
  rcases hpattern with hpattern | ⟨hsub, hpattern⟩
  · rw [hpattern, matchesHost_plain h.no_glob] at hmatch
    exact .inl hmatch
  · rw [hpattern, matchesHost_star] at hmatch
    exact .inr ⟨hsub, hmatch.2⟩

/-- The name itself is reached. -/
theorem reached_of_host (h : Confirmed lib digest rules added anchors anchors' name sub)
    (hhost : HostIs lib subject name) : Reached lib added subject := by
  obtain ⟨rule, hrule, hpattern⟩ := h.has_exact
  refine ⟨rule, hrule, (domain_matches_iff (h.added_rule rule hrule).1).mpr ⟨name, hhost, ?_⟩⟩
  rw [hpattern, matchesHost_plain h.no_glob]

theorem reached_congr (h : Confirmed lib digest rules added anchors anchors' name sub)
    {other : ScopeSubject} {host : String} (hhost : HostIs lib subject host)
    (hother : HostIs lib other host) : Reached lib added subject ↔ Reached lib added other :=
  exists_congr fun rule => and_congr_right fun hrule =>
    matches_congr_host (h.added_rule rule hrule).1 hhost hother

/-! ### The anchors after -/

/-- An anchored wildcard among all rules is an old one: the apex of an added one is the name. -/
theorem anchored_of_unreached (h : Confirmed lib digest rules added anchors anchors' name sub)
    (hrule : rule ∈ rules ++ added) (hanchored : isAnchored rule = true)
    (hunreached : ¬ Reached lib added ⟨.domain, suffixOf rule.pattern⟩) : rule ∈ rules := by
  rcases List.mem_append.mp hrule with hrule | hrule
  · exact hrule
  · exfalso
    apply hunreached
    rcases (h.added_rule rule hrule).2.2 with hpattern | ⟨-, hpattern⟩
    · -- the exact rule is no wildcard
      simp only [isAnchored, Bool.and_eq_true] at hanchored
      rw [hpattern, isWildcard_of_not_hasGlob h.no_glob] at hanchored
      cases hanchored.1.2
    · rw [hpattern, suffixOf_star]
      exact h.reached_of_host (hostIs_domain h.stable)

theorem apexes_added (h : Confirmed lib digest rules added anchors anchors' name sub) :
    ∀ rule ∈ rules ++ added, isAnchored rule = true → Stable lib.toTables (suffixOf rule.pattern) := by
  intro rule hrule hanchored
  rcases List.mem_append.mp hrule with hrule | hrule
  · exact h.apexes rule hrule hanchored
  · rcases (h.added_rule rule hrule).2.2 with hpattern | ⟨-, hpattern⟩
    · simp only [isAnchored, Bool.and_eq_true] at hanchored
      rw [hpattern, isWildcard_of_not_hasGlob h.no_glob] at hanchored
      cases hanchored.1.2
    · rw [hpattern, suffixOf_star]
      exact h.stable

/-- The apex of a wildcard is unclassified with the added rules exactly if it was without them and
    is not reached. -/
theorem apex_unclassified_iff (h : Confirmed lib digest rules added anchors anchors' name sub)
    {value : String} (hvalue : Stable lib.toTables value) :
    (∃ d, classify lib (rules ++ added) ⟨.domain, value⟩ = .ok d ∧ d.state = .unknown) ↔
      (∃ d, classify lib rules ⟨.domain, value⟩ = .ok d ∧ d.state = .unknown) ∧
        ¬ Reached lib added ⟨.domain, value⟩ := by
  constructor
  · intro ⟨d, hd, hstate⟩
    have hnone := (unknown_iff hd).mp hstate
    obtain ⟨old, hold⟩ := classify_total h.nodup_rules fun rule hrule =>
      (classify_ok_iff.mp hd).2.1 rule (List.mem_append_left added hrule)
    refine ⟨⟨old, hold, (unknown_iff hold).mpr fun rule hrule =>
      hnone rule (List.mem_append_left added hrule)⟩, ?_⟩
    intro ⟨rule, hrule, hmatch⟩
    exact hnone rule (List.mem_append_right rules hrule) hmatch
  · intro ⟨⟨d, hd, hstate⟩, hunreached⟩
    have hnone := (unknown_iff hd).mp hstate
    obtain ⟨new, hnew⟩ : ∃ new, classify lib (rules ++ added) ⟨.domain, value⟩ = .ok new := by
      refine classify_total h.nodup_added fun rule hrule => ?_
      rcases List.mem_append.mp hrule with hrule | hrule
      · exact (classify_ok_iff.mp hd).2.1 rule hrule
      · exact domain_ok_of_host (h.added_rule rule hrule).1 (hostIs_domain hvalue)
    refine ⟨new, hnew, (unknown_iff hnew).mpr fun rule hrule hmatch => ?_⟩
    rcases List.mem_append.mp hrule with hrule | hrule
    · exact hnone rule hrule hmatch
    · exact hunreached ⟨rule, hrule, hmatch⟩

/-- **The anchors after are the old ones whose apex is not reached.** -/
theorem mem_anchors'_iff (h : Confirmed lib digest rules added anchors anchors' name sub) :
    anchor ∈ anchors' ↔ anchor ∈ anchors ∧ ¬ Reached lib added ⟨.domain, anchor.pattern⟩ := by
  rw [mem_derived_iff h.anchors'_eq h.apexes_added, mem_derived_iff h.anchors_eq h.apexes]
  constructor
  · intro ⟨rule, hrule, hanchored, hapex, hmake⟩
    have hstable := h.apexes_added rule hrule hanchored
    obtain ⟨hold, hunreached⟩ := (h.apex_unclassified_iff hstable).mp hapex
    refine ⟨⟨rule, h.anchored_of_unreached hrule hanchored hunreached, hanchored, hold, hmake⟩, ?_⟩
    rw [(anchor_pattern hanchored hstable hmake).1]
    exact hunreached
  · intro ⟨⟨rule, hrule, hanchored, hapex, hmake⟩, hunreached⟩
    have hstable := h.apexes rule hrule hanchored
    rw [(anchor_pattern hanchored hstable hmake).1] at hunreached
    exact ⟨rule, List.mem_append_left added hrule, hanchored,
      (h.apex_unclassified_iff hstable).mpr ⟨hapex, hunreached⟩, hmake⟩

/-- An anchor applies to what is on its apex, and no rule classifies the apex. -/
theorem anchor_spec (h : Confirmed lib digest rules added anchors anchors' name sub)
    (hanchor : anchor ∈ anchors) : anchor.kind = .domain ∧ anchor.state = .passiveOnly ∧
      Stable lib.toTables anchor.pattern ∧ hasGlob anchor.pattern = false ∧
      ∃ d, classify lib rules ⟨.domain, anchor.pattern⟩ = .ok d ∧ d.state = .unknown := by
  obtain ⟨rule, hrule, hanchored, hunknown, hmake⟩ :=
    (mem_derived_iff h.anchors_eq h.apexes).mp hanchor
  obtain ⟨hpattern, hkind, hpassive⟩ :=
    anchor_pattern hanchored (h.apexes rule hrule hanchored) hmake
  rw [hpattern]
  exact ⟨hkind, hpassive, h.apexes rule hrule hanchored, isAnchored_glob hanchored, hunknown⟩

theorem host_of_anchor (h : Confirmed lib digest rules added anchors anchors' name sub)
    (hanchor : anchor ∈ anchors) (hmatch : anchor.Matches lib subject) : HostIs lib subject anchor.pattern := by
  obtain ⟨hkind, -, -, hglob, -⟩ := h.anchor_spec hanchor
  obtain ⟨host, hhost, hmatch⟩ := (domain_matches_iff hkind).mp hmatch
  rw [matchesHost_plain hglob] at hmatch
  rw [← hmatch]
  exact hhost

/-- Of the anchors that apply to a subject all stay or all go. -/
theorem anchor_stays_iff (h : Confirmed lib digest rules added anchors anchors' name sub)
    (hanchor : anchor ∈ anchors) (hmatch : anchor.Matches lib subject) :
    anchor ∈ anchors' ↔ ¬ Reached lib added subject := by
  obtain ⟨-, -, hstable, -, -⟩ := h.anchor_spec hanchor
  rw [h.mem_anchors'_iff, and_iff_right hanchor,
    h.reached_congr (h.host_of_anchor hanchor hmatch) (hostIs_domain hstable)]

/-! ### The classifications after -/

/-- A subject that had a classification still has one. -/
theorem classify_ok (h : Confirmed lib digest rules added anchors anchors' name sub)
    (hd : classify lib (rules ++ anchors) subject = .ok d) (hstate : d.state ≠ .unknown) :
    ∃ d', classify lib (rules ++ added ++ anchors') subject = .ok d' := by
  obtain ⟨w, hw, -⟩ := exists_winner hd hstate
  have hmatch := (mem_applicable.mp (winner_mem hw)).2
  refine classify_total h.nodup' fun rule hrule => ?_
  rcases List.mem_append.mp hrule with hrule | hrule
  · rcases List.mem_append.mp hrule with hrule | hrule
    · exact (classify_ok_iff.mp hd).2.1 rule (List.mem_append_left anchors hrule)
    · exact domain_matches_ok hmatch (h.added_rule rule hrule).1
  · exact domain_matches_ok hmatch (derived_passive h.anchors'_eq rule hrule).1

/-- A classification after comes from a rule that applied before or is added. -/
theorem classify_ok_before (h : Confirmed lib digest rules added anchors anchors' name sub)
    (hd' : classify lib (rules ++ added ++ anchors') subject = .ok d')
    (hstate : d'.state ≠ .unknown) : ∃ d, classify lib (rules ++ anchors) subject = .ok d := by
  obtain ⟨w, hw, -⟩ := exists_winner hd' hstate
  have hmatch := (mem_applicable.mp (winner_mem hw)).2
  refine classify_total h.nodup fun rule hrule => ?_
  rcases List.mem_append.mp hrule with hrule | hrule
  · exact (classify_ok_iff.mp hd').2.1 rule
      (List.mem_append_left anchors' (List.mem_append_left added hrule))
  · exact domain_matches_ok hmatch (derived_passive h.anchors_eq rule hrule).1

/-- **Nothing changes for a subject that is not reached.** -/
theorem state_of_not_reached (h : Confirmed lib digest rules added anchors anchors' name sub)
    (hunreached : ¬ Reached lib added subject) (hd : classify lib (rules ++ anchors) subject = .ok d)
    (hd' : classify lib (rules ++ added ++ anchors') subject = .ok d') : d'.state = d.state := by
  have hsame : ∀ rule, rule.Matches lib subject →
      (rule ∈ rules ++ added ++ anchors' ↔ rule ∈ rules ++ anchors) := by
    intro rule hmatch
    have hadded : rule ∉ added := fun hrule => hunreached ⟨rule, hrule, hmatch⟩
    simp only [List.mem_append, hadded, or_false]
    refine or_congr_right ⟨fun hrule => (h.mem_anchors'_iff.mp hrule).1, fun hrule => ?_⟩
    exact (h.anchor_stays_iff hrule hmatch).mpr hunreached
  by_cases hstate : d.state = .unknown
  · rw [hstate]
    refine (unknown_iff hd').mpr fun rule hrule hmatch => ?_
    exact (unknown_iff hd).mp hstate rule ((hsame rule hmatch).mp hrule) hmatch
  · obtain ⟨w, hw, hwstate⟩ := exists_winner hd hstate
    obtain ⟨hwmem, hwmatch⟩ := mem_applicable.mp (winner_mem hw)
    rw [hwstate]
    refine classify_state_iff hd' ((hsame w hwmatch).mpr hwmem) hwmatch fun other hother hmatch => ?_
    exact le_winner hw other (mem_applicable.mpr ⟨(hsame other hmatch).mp hother, hmatch⟩)

/-- What classifies a reached subject afterwards is an old rule or an added one. -/
theorem winner_of_reached (h : Confirmed lib digest rules added anchors anchors' name sub)
    (hreached : Reached lib added subject) (hd' : classify lib (rules ++ added ++ anchors') subject = .ok d') :
    ∃ w, (w ∈ rules ∨ w ∈ added) ∧ w.Matches lib subject ∧ d'.state = w.state ∧
      ∀ other ∈ rules ++ added, other.Matches lib subject → other.sortKey lib ≤ w.sortKey lib := by
  obtain ⟨rule, hrule, hmatch⟩ := hreached
  have hstate : d'.state ≠ .unknown := fun hunknown =>
    (unknown_iff hd').mp hunknown rule (by simp [hrule]) hmatch
  obtain ⟨w, hw, hwstate⟩ := exists_winner hd' hstate
  obtain ⟨hwmem, hwmatch⟩ := mem_applicable.mp (winner_mem hw)
  refine ⟨w, ?_, hwmatch, hwstate, fun other hother hothermatch => ?_⟩
  · rcases List.mem_append.mp hwmem with hwmem | hwmem
    · exact List.mem_append.mp hwmem
    · obtain ⟨hanchor, -⟩ := h.mem_anchors'_iff.mp hwmem
      exact absurd ⟨rule, hrule, hmatch⟩ ((h.anchor_stays_iff hanchor hwmatch).mp hwmem)
  · exact le_winner hw other
      (mem_applicable.mpr ⟨List.mem_append_left anchors' hother, hothermatch⟩)

/-- **IN_SCOPE stays IN_SCOPE.** -/
theorem inScope_of_inScope (h : Confirmed lib digest rules added anchors anchors' name sub)
    (hd : classify lib (rules ++ anchors) subject = .ok d) (hstate : d.state = .inScope) :
    ∃ d', classify lib (rules ++ added ++ anchors') subject = .ok d' ∧ d'.state = .inScope := by
  have hne : d.state ≠ .unknown := by
    rw [hstate]
    intro hcontra
    cases hcontra
  obtain ⟨d', hd'⟩ := h.classify_ok hd hne
  refine ⟨d', hd', ?_⟩
  by_cases hreached : Reached lib added subject
  · obtain ⟨w', hw'mem, hw'match, hw'state, hw'best⟩ := h.winner_of_reached hreached hd'
    rcases hw'mem with hold | hadded
    · -- the old winner is a rule, since anchors are PASSIVE_ONLY, so it is still the best
      obtain ⟨w, hw, hwstate⟩ := exists_winner hd hne
      obtain ⟨hwmem, hwmatch⟩ := mem_applicable.mp (winner_mem hw)
      have hwrule : w ∈ rules := by
        rcases List.mem_append.mp hwmem with hwmem | hwmem
        · exact hwmem
        · have hpassive := (derived_passive h.anchors_eq w hwmem).2
          rw [hstate, hpassive] at hwstate
          cases hwstate
      have hle := hw'best w (List.mem_append_left added hwrule) hwmatch
      have hge := le_winner hw w' (mem_applicable.mpr ⟨List.mem_append_left anchors hold, hw'match⟩)
      have hsame : w' = w := List.inj_on_of_nodup_map (sortKeys_nodup lib h.nodup_rules)
        hold hwrule (le_antisymm hge hle)
      rw [hw'state, hsame, ← hwstate, hstate]
    · rw [hw'state]
      exact (h.added_rule w' hadded).2.1
  · rw [h.state_of_not_reached hreached hd hd', hstate]

/-- **What becomes IN_SCOPE is the name or, if they were confirmed, a subdomain.** -/
theorem host_of_became (h : Confirmed lib digest rules added anchors anchors' name sub)
    (hd' : classify lib (rules ++ added ++ anchors') subject = .ok d') (hstate : d'.state = .inScope)
    (hbefore : ∀ d, classify lib (rules ++ anchors) subject = .ok d → d.state ≠ .inScope) :
    ∃ host, HostIs lib subject host ∧ (host = name ∨ sub = true ∧ isSubdomain host name = true) := by
  apply h.host_of_reached
  by_contra hunreached
  obtain ⟨d, hd⟩ := h.classify_ok_before hd' (by rw [hstate]; exact fun hcontra => by cases hcontra)
  exact hbefore d hd ((h.state_of_not_reached hunreached hd hd').symm.trans hstate)

/-- What is on the name and was unclassified is IN_SCOPE afterwards. -/
theorem inScope_of_name (h : Confirmed lib digest rules added anchors anchors' name sub)
    (hhost : HostIs lib subject name) (hd : classify lib (rules ++ anchors) subject = .ok d)
    (hstate : d.state = .unknown) :
    ∃ d', classify lib (rules ++ added ++ anchors') subject = .ok d' ∧ d'.state = .inScope := by
  obtain ⟨d', hd'⟩ : ∃ d', classify lib (rules ++ added ++ anchors') subject = .ok d' := by
    refine classify_total h.nodup' fun rule hrule => ?_
    rcases List.mem_append.mp hrule with hrule | hrule
    · rcases List.mem_append.mp hrule with hrule | hrule
      · exact (classify_ok_iff.mp hd).2.1 rule (List.mem_append_left anchors hrule)
      · exact domain_ok_of_host (h.added_rule rule hrule).1 hhost
    · exact domain_ok_of_host (derived_passive h.anchors'_eq rule hrule).1 hhost
  refine ⟨d', hd', ?_⟩
  obtain ⟨w, hwmem, hwmatch, hwstate, -⟩ := h.winner_of_reached (h.reached_of_host hhost) hd'
  rcases hwmem with hrule | hadded
  · exact absurd hwmatch ((unknown_iff hd).mp hstate w (List.mem_append_left anchors hrule))
  · rw [hwstate]
    exact (h.added_rule w hadded).2.1

/-! ### Being outranked -/

/-- An added rule that no old rule outranks makes what it applies to IN_SCOPE. -/
theorem inScope_of_not_outranked (h : Confirmed lib digest rules added anchors anchors' name sub)
    (hd : classify lib (rules ++ anchors) subject = .ok d) (hstate : d.state ≠ .unknown)
    (hrule : rule ∈ added) (hmatch : rule.Matches lib subject)
    (hbest : ¬ ∃ old ∈ rules, old.Matches lib subject ∧ rule.sortKey lib < old.sortKey lib) :
    ∃ d', classify lib (rules ++ added ++ anchors') subject = .ok d' ∧ d'.state = .inScope := by
  obtain ⟨d', hd'⟩ := h.classify_ok hd hstate
  refine ⟨d', hd', ?_⟩
  obtain ⟨w, hwmem, hwmatch, hwstate, hle⟩ := h.winner_of_reached ⟨rule, hrule, hmatch⟩ hd'
  rcases hwmem with hold | hadded
  · exfalso
    have hkey := hle rule (List.mem_append_right rules hrule) hmatch
    refine hbest ⟨w, hold, hwmatch, lt_of_le_of_ne hkey fun heq => ?_⟩
    have hnd := sortKeys_nodup lib h.nodup_added
    rw [List.map_append] at hnd
    exact (List.nodup_append.mp hnd).2.2 _ (List.mem_map_of_mem hold) _
      (List.mem_map_of_mem hrule) heq.symm
  · rw [hwstate]
    exact (h.added_rule w hadded).2.1

/-- A reached subject that keeps its classification is not classified by an anchor: the apex would
    lose it. -/
theorem kept_of_outranked (h : Confirmed lib digest rules added anchors anchors' name sub)
    (hapex : ∀ anchor ∈ anchors, ¬ Reached lib added ⟨.domain, anchor.pattern⟩)
    (hd : classify lib (rules ++ anchors) subject = .ok d) (hstate : d.state ≠ .unknown)
    (hbest : ∀ rule ∈ added, rule.Matches lib subject →
      ∃ old ∈ rules, old.Matches lib subject ∧ rule.sortKey lib < old.sortKey lib) :
    ∃ d', classify lib (rules ++ added ++ anchors') subject = .ok d' ∧ d'.state = d.state := by
  obtain ⟨d', hd'⟩ := h.classify_ok hd hstate
  refine ⟨d', hd', ?_⟩
  obtain ⟨w, hw, hwstate⟩ := exists_winner hd hstate
  obtain ⟨hwmem, hwmatch⟩ := mem_applicable.mp (winner_mem hw)
  rw [hwstate]
  -- no anchor goes, so the old winner is still there
  have hwstays : w ∈ rules ++ added ++ anchors' := by
    rcases List.mem_append.mp hwmem with hrule | hanchor
    · exact List.mem_append_left anchors' (List.mem_append_left added hrule)
    · exact List.mem_append_right _ (h.mem_anchors'_iff.mpr ⟨hanchor, hapex w hanchor⟩)
  refine classify_state_iff hd' hwstays hwmatch fun other hother hmatch => ?_
  rcases List.mem_append.mp hother with hother | hother
  · rcases List.mem_append.mp hother with hother | hother
    · exact le_winner hw other (mem_applicable.mpr ⟨List.mem_append_left anchors hother, hmatch⟩)
    · obtain ⟨old, hold, holdmatch, hlt⟩ := hbest other hother hmatch
      exact hlt.le.trans
        (le_winner hw old (mem_applicable.mpr ⟨List.mem_append_left anchors hold, holdmatch⟩))
  · exact le_winner hw other (mem_applicable.mpr
      ⟨List.mem_append_right rules (h.mem_anchors'_iff.mp hother).1, hmatch⟩)

end Confirmed

end NightScout
