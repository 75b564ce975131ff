import Mathlib.Tactic.Ring
import NightScout.Intelligence.ConfidenceOrder

/-!
# One piece of evidence more

More support does not always raise a confidence, nor more contradiction lower it. A new piece of evidence never
weakens its group, but it may bring another source family or upstream into it, or let it rank before another
group; then a group is discounted that was not (`support_lowers_confidence`). Where it makes no group discounted
that was not, the confidence moves the right way (`more_evidence_monotone`).
-/

namespace NightScout

open Lib

/-! ## The strength of a group -/

section Strength

variable (config : ConfidenceModelConfig) {strength : ConfidenceEvidence → ℚ}

theorem groupStrength_cons (strongest : ℚ) (rest : List ℚ) : groupStrength config (strongest :: rest) =
      1 - (1 - strongest) * leftOpen (rest.map (· * config.sameGroupRepeatDiscount)) := by
  rw [groupStrength, combineNoisyOr_eq]
  ring

/-- A strength more, wherever it comes among them, leaves the group no weaker. -/
theorem groupStrength_le {strengths strengths' : List ℚ} {new : ℚ}
    (hsorted : strengths.Pairwise (· ≥ ·)) (hsorted' : strengths'.Pairwise (· ≥ ·))
    (hperm : strengths'.Perm (new :: strengths)) (hnew : IsUnit01 new) (hunit : ∀ s ∈ strengths, IsUnit01 s) :
    groupStrength config strengths ≤ groupStrength config strengths' := by
  cases strengths with
  | nil =>
    rw [List.perm_singleton.mp hperm, groupStrength_cons, groupStrength]
    simp only [List.map_nil, leftOpen, List.prod_nil, mul_one, sub_sub_cancel]
    exact hnew.1
  | cons strongest rest =>
    obtain ⟨hfirst, hrest⟩ := List.pairwise_cons.mp hsorted
    have hstrongest := hunit strongest List.mem_cons_self
    by_cases hless : strongest ≤ new
    · -- the new one leads
      have hlead : (new :: strongest :: rest).Pairwise (· ≥ ·) := by
        refine List.pairwise_cons.mpr ⟨?_, hsorted⟩
        intro s hs
        rcases List.mem_cons.mp hs with rfl | hs
        · exact hless
        · exact (hfirst s hs).le.trans hless
      have heq : strengths' = new :: strongest :: rest :=
        hperm.eq_of_pairwise (fun a b _ _ hab hba => le_antisymm hba hab) hsorted' hlead
      rw [heq, groupStrength_cons, groupStrength_cons, List.map_cons, leftOpen_cons]
      apply sub_le_sub_left
      have hopen := leftOpen_unit (rest.map (· * config.sameGroupRepeatDiscount))
      have hfactor := (clamp01_unit (strongest * config.sameGroupRepeatDiscount)).compl
      have htail : (1 - clamp01 (strongest * config.sameGroupRepeatDiscount)) *
          leftOpen (rest.map (· * config.sameGroupRepeatDiscount)) ≤
            leftOpen (rest.map (· * config.sameGroupRepeatDiscount)) :=
        mul_le_of_le_one_left hopen.1 hfactor.2
      exact mul_le_mul (sub_le_sub_left hless 1) htail (mul_nonneg hfactor.1 hopen.1) hstrongest.compl.1
    · -- the strongest stays, and the new one is among the rest
      cases strengths' with
      | nil => exact absurd hperm.symm.eq_nil (List.cons_ne_nil _ _)
      | cons lead rest' =>
        obtain ⟨hfirst', -⟩ := List.pairwise_cons.mp hsorted'
        have hlead : lead = strongest := by
          apply le_antisymm
          · rcases List.mem_cons.mp (hperm.subset List.mem_cons_self) with rfl | hmem
            · exact (not_le.mp hless).le
            · rcases List.mem_cons.mp hmem with rfl | hmem
              · exact le_rfl
              · exact hfirst lead hmem
          · have hmem : strongest ∈ lead :: rest' :=
              hperm.symm.subset (List.mem_cons_of_mem _ List.mem_cons_self)
            rcases List.mem_cons.mp hmem with rfl | hmem
            · exact le_rfl
            · exact hfirst' strongest hmem
        subst hlead
        have hrest' : rest'.Perm (new :: rest) := (hperm.trans (List.Perm.swap lead new rest)).cons_inv
        rw [groupStrength_cons, groupStrength_cons, leftOpen_perm (hrest'.map _), List.map_cons, leftOpen_cons]
        apply sub_le_sub_left
        have hopen := leftOpen_unit (rest.map (· * config.sameGroupRepeatDiscount))
        have hfactor := (clamp01_unit (new * config.sameGroupRepeatDiscount)).compl
        exact mul_le_mul_of_nonneg_left (mul_le_of_le_one_left hopen.1 hfactor.2) hstrongest.compl.1

theorem strongestFirst_sorted (members : List ConfidenceEvidence) :
    ((strongestFirst strength members).map strength).Pairwise (· ≥ ·) := by
  rw [List.pairwise_map]
  have htotal : Std.Total fun a b : ConfidenceEvidence =>
      toLex (-strength a, a.evidenceId) ≤ toLex (-strength b, b.evidenceId) := ⟨fun a b => le_total _ _⟩
  have htrans : IsTrans ConfidenceEvidence fun a b =>
      toLex (-strength a, a.evidenceId) ≤ toLex (-strength b, b.evidenceId) := ⟨fun a b c => le_trans⟩
  have hsorted : (strongestFirst strength members).Pairwise fun a b =>
      toLex (-strength a, a.evidenceId) ≤ toLex (-strength b, b.evidenceId) := List.pairwise_insertionSort _ _
  refine hsorted.imp ?_
  intro a b hab
  rcases Prod.Lex.le_iff.mp hab with hless | ⟨hsame, -⟩
  · exact (neg_lt_neg_iff.mp hless).le
  · exact (neg_inj.mp hsame).ge

/-- **A group is no weaker for one member more.** -/
theorem rawStrength_le (key : String × EvidencePolarity) (members : List ConfidenceEvidence)
    (new : ConfidenceEvidence) (hunit : ∀ item, IsUnit01 (strength item)) :
    (groupAssessment config strength key members).rawStrength ≤
      (groupAssessment config strength key (members ++ [new])).rawStrength := by
  apply clamp01_le
  have hperm : (strongestFirst strength (members ++ [new])).Perm (new :: strongestFirst strength members) := by
    refine (List.perm_insertionSort _ _).trans ((List.perm_append_comm).trans ?_)
    exact (List.perm_insertionSort _ _).symm.cons new
  apply groupStrength_le config (strongestFirst_sorted members) (strongestFirst_sorted _) (hperm.map strength)
  · exact hunit new
  · intro s hs
    obtain ⟨item, -, rfl⟩ := List.mem_map.mp hs
    exact hunit item

end Strength

/-! ## Discounts -/

section Discounts

variable (config : ConfidenceModelConfig) {groups groups' : List ConfidenceGroupAssessment}
variable {group : ConfidenceGroupAssessment} {polarity : EvidencePolarity}

/-- A group of its polarity that ranks before it has one of its source families. -/
def SharesFamily (groups : List ConfidenceGroupAssessment) (group : ConfidenceGroupAssessment) : Prop :=
  ∃ other ∈ groups, other.polarity = group.polarity ∧ other.rank < group.rank ∧
    ∃ family ∈ group.sourceFamilies, family ∈ other.sourceFamilies

/-- A group of its polarity that ranks before it has its upstream. -/
def SharesUpstream (groups : List ConfidenceGroupAssessment) (group : ConfidenceGroupAssessment) : Prop :=
  ∃ other ∈ groups, other.polarity = group.polarity ∧ other.rank < group.rank ∧
    ∃ upstream ∈ group.upstreamKey, upstream ∈ other.upstreamKey

instance : Decidable (SharesFamily groups group) := inferInstanceAs (Decidable (∃ other ∈ groups, _))

instance : Decidable (SharesUpstream groups group) := inferInstanceAs (Decidable (∃ other ∈ groups, _))

/-- The factor of a group among others. -/
def factorAmong (groups : List ConfidenceGroupAssessment) (group : ConfidenceGroupAssessment) : ℚ :=
  (if SharesFamily groups group then config.sameSourceFamilyDiscount else 1) *
    (if SharesUpstream groups group then config.sameUpstreamDiscount else 1)

/-- The strength of a group among others. -/
def effectiveAmong (groups : List ConfidenceGroupAssessment) (group : ConfidenceGroupAssessment) : ℚ :=
  clamp01 (group.rawStrength * factorAmong config groups group)

theorem factorAmong_congr (h : ∀ other, other.polarity = group.polarity → (other ∈ groups ↔ other ∈ groups')) :
    factorAmong config groups group = factorAmong config groups' group := by
  have hfamily : SharesFamily groups group ↔ SharesFamily groups' group := by
    constructor
    · rintro ⟨other, hmem, hpolarity, hrest⟩
      exact ⟨other, (h other hpolarity).mp hmem, hpolarity, hrest⟩
    · rintro ⟨other, hmem, hpolarity, hrest⟩
      exact ⟨other, (h other hpolarity).mpr hmem, hpolarity, hrest⟩
  have hupstream : SharesUpstream groups group ↔ SharesUpstream groups' group := by
    constructor
    · rintro ⟨other, hmem, hpolarity, hrest⟩
      exact ⟨other, (h other hpolarity).mp hmem, hpolarity, hrest⟩
    · rintro ⟨other, hmem, hpolarity, hrest⟩
      exact ⟨other, (h other hpolarity).mpr hmem, hpolarity, hrest⟩
  simp only [factorAmong, hfamily, hupstream]

/-- In a ranked list, what has been seen at a group is what ranks before it. -/
theorem dependencyFactor_eq {before after : List ConfidenceGroupAssessment}
    (hsorted : (before ++ group :: after).Pairwise fun a b => a.rank < b.rank)
    (hpolarity : ∀ other ∈ before, other.polarity = group.polarity) :
    dependencyFactor config (before.flatMap fun other => other.sourceFamilies)
        (before.flatMap fun other => other.upstreamKey.toList) group =
      factorAmong config (before ++ group :: after) group := by
  obtain ⟨-, hrest, hcross⟩ := List.pairwise_append.mp hsorted
  have hbefore : ∀ other, other ∈ before ↔
      other ∈ before ++ group :: after ∧ other.polarity = group.polarity ∧ other.rank < group.rank := by
    intro other
    constructor
    · intro hmem
      exact ⟨List.mem_append_left _ hmem, hpolarity other hmem, hcross other hmem group List.mem_cons_self⟩
    · rintro ⟨hmem, -, hless⟩
      rcases List.mem_append.mp hmem with hmem | hmem
      · exact hmem
      rcases List.mem_cons.mp hmem with rfl | hmem
      · exact absurd hless (lt_irrefl _)
      · exact absurd (hless.trans ((List.pairwise_cons.mp hrest).1 other hmem)) (lt_irrefl _)
  have hfamily : (∃ family ∈ group.sourceFamilies, family ∈ before.flatMap fun other => other.sourceFamilies) ↔
      SharesFamily (before ++ group :: after) group := by
    simp only [List.mem_flatMap, hbefore]
    constructor
    · rintro ⟨family, hfamily, other, ⟨hmem, hsame, hless⟩, hother⟩
      exact ⟨other, hmem, hsame, hless, family, hfamily, hother⟩
    · rintro ⟨other, hmem, hsame, hless, family, hfamily, hother⟩
      exact ⟨family, hfamily, other, ⟨hmem, hsame, hless⟩, hother⟩
  have hupstream : (∃ upstream ∈ group.upstreamKey, upstream ∈ before.flatMap fun other =>
      other.upstreamKey.toList) ↔ SharesUpstream (before ++ group :: after) group := by
    simp only [List.mem_flatMap, Option.mem_toList, hbefore]
    constructor
    · rintro ⟨upstream, hupstream, other, ⟨hmem, hsame, hless⟩, hother⟩
      exact ⟨other, hmem, hsame, hless, upstream, hupstream, hother⟩
    · rintro ⟨other, hmem, hsame, hless, upstream, hupstream, hother⟩
      exact ⟨upstream, hupstream, other, ⟨hmem, hsame, hless⟩, hother⟩
  simp only [dependencyFactor, factorAmong, hfamily, hupstream]

theorem discountInOrder_eq (rest : List ConfidenceGroupAssessment) : ∀ before : List ConfidenceGroupAssessment,
    (before ++ rest).Pairwise (fun a b => a.rank < b.rank) →
    (∀ group ∈ before ++ rest, group.polarity = polarity) →
    discountInOrder config (before.flatMap fun other => other.sourceFamilies)
        (before.flatMap fun other => other.upstreamKey.toList) rest =
      rest.map fun group => group.discounted (factorAmong config (before ++ rest) group) := by
  induction rest with
  | nil => exact fun _ _ _ => rfl
  | cons group rest ih =>
    intro before hsorted hpolarity
    have hgroup : group.polarity = polarity := hpolarity group (by simp)
    rw [discountInOrder, List.map_cons, dependencyFactor_eq config hsorted
      fun other hother => (hpolarity other (List.mem_append_left _ hother)).trans hgroup.symm]
    have hassoc : before ++ group :: rest = (before ++ [group]) ++ rest := by simp
    rw [hassoc] at hsorted hpolarity
    have hrest := ih (before ++ [group]) hsorted hpolarity
    rw [List.flatMap_append, List.flatMap_append, List.flatMap_singleton, List.flatMap_singleton] at hrest
    rw [hrest, hassoc]

/-- What tells the groups of a list apart. -/
def DistinctGroups (groups : List ConfidenceGroupAssessment) : Prop :=
  (groups.map fun group => (group.independenceKey, group.polarity)).Nodup

theorem mem_relevantGroups : group ∈ relevantGroups groups polarity ↔ group ∈ groups ∧ group.polarity = polarity := by
  rw [relevantGroups, List.mem_insertionSort, List.mem_filter, decide_eq_true_eq]

theorem relevantGroups_perm :
    (relevantGroups groups polarity).Perm (groups.filter fun group => group.polarity = polarity) :=
  List.perm_insertionSort _ _

/-- Groups of one polarity have distinct ranks. -/
theorem relevantGroups_sorted (h : DistinctGroups groups) (polarity : EvidencePolarity) :
    (relevantGroups groups polarity).Pairwise fun a b => a.rank < b.rank := by
  have htotal : Std.Total fun a b : ConfidenceGroupAssessment => a.rank ≤ b.rank := ⟨fun a b => le_total _ _⟩
  have htrans : IsTrans ConfidenceGroupAssessment fun a b => a.rank ≤ b.rank := ⟨fun a b c => le_trans⟩
  have hsorted : (relevantGroups groups polarity).Pairwise fun a b => a.rank ≤ b.rank :=
    List.pairwise_insertionSort _ _
  have hfilter : ((groups.filter fun group => group.polarity = polarity).map
      fun group => (group.independenceKey, group.polarity)).Nodup := h.sublist (List.filter_sublist.map _)
  have hnodup : (relevantGroups groups polarity).Nodup := relevantGroups_perm.nodup_iff.mpr hfilter.of_map
  refine (hsorted.and hnodup).imp_of_mem ?_
  rintro a b ha hb ⟨hle, hne⟩
  refine lt_of_le_of_ne hle fun hsame => hne ?_
  obtain ⟨ha, hpolarityA⟩ := mem_relevantGroups.mp ha
  obtain ⟨hb, hpolarityB⟩ := mem_relevantGroups.mp hb
  have hkey : a.independenceKey = b.independenceKey :=
    congrArg (fun rank : ℚ ×ₗ String => (ofLex rank).2) hsame
  exact List.inj_on_of_nodup_map h ha hb (Prod.ext hkey (hpolarityA.trans hpolarityB.symm))

/-- The groups of a polarity after the discounts. -/
theorem discounted_eq (h : DistinctGroups groups) (polarity : EvidencePolarity) :
    discountInOrder config [] [] (relevantGroups groups polarity) =
      (relevantGroups groups polarity).map fun group => group.discounted (factorAmong config groups group) := by
  have hpolarity : ∀ group ∈ [] ++ relevantGroups groups polarity, group.polarity = polarity :=
    fun group hgroup => (mem_relevantGroups.mp hgroup).2
  have heq := discountInOrder_eq config (relevantGroups groups polarity) [] (relevantGroups_sorted h polarity)
    hpolarity
  rw [List.flatMap_nil, List.flatMap_nil, List.nil_append] at heq
  rw [heq]
  apply List.map_congr_left
  intro group hgroup
  rw [factorAmong_congr config fun other hother => ?_]
  rw [mem_relevantGroups]
  exact and_iff_left (hother.trans (mem_relevantGroups.mp hgroup).2)

/-- **The strengths of a polarity**: each group's own, by what ranks before it. -/
theorem strengthsOf_perm (h : DistinctGroups groups) (polarity : EvidencePolarity) :
    (strengthsOf (applyDependencyDiscounts config groups) polarity).Perm
      ((groups.filter fun group => group.polarity = polarity).map (effectiveAmong config groups)) := by
  have hwhole : ∀ q, (discountInOrder config [] [] (relevantGroups groups q)).filter
      (fun group => group.polarity = polarity) =
        if q = polarity then discountInOrder config [] [] (relevantGroups groups q) else [] := by
    intro q
    rw [discounted_eq config h]
    split
    next hq =>
      rw [List.filter_eq_self]
      intro group hgroup
      obtain ⟨other, hother, rfl⟩ := List.mem_map.mp hgroup
      exact decide_eq_true ((mem_relevantGroups.mp hother).2.trans hq)
    next hq =>
      rw [List.filter_eq_nil_iff]
      intro group hgroup
      obtain ⟨other, hother, rfl⟩ := List.mem_map.mp hgroup
      rw [decide_eq_true_eq]
      exact fun hsame => hq ((mem_relevantGroups.mp hother).2.symm.trans hsame)
  have hflat : ([EvidencePolarity.supports, .contradicts].flatMap fun q =>
      discountInOrder config [] [] (relevantGroups groups q)).filter (fun group => group.polarity = polarity) =
        discountInOrder config [] [] (relevantGroups groups polarity) := by
    simp only [List.flatMap_cons, List.flatMap_nil, List.append_nil, List.filter_append, hwhole]
    cases polarity <;> simp
  have hsorted := ((List.perm_insertionSort (fun a b : ConfidenceGroupAssessment =>
    toLex (a.polarity.value, toLex (-a.effectiveStrength, a.independenceKey)) ≤
      toLex (b.polarity.value, toLex (-b.effectiveStrength, b.independenceKey)))
    ([EvidencePolarity.supports, .contradicts].flatMap fun q =>
      discountInOrder config [] [] (relevantGroups groups q))).filter
        (fun group => group.polarity = polarity)).map fun group => group.effectiveStrength
  rw [hflat, discounted_eq config h, List.map_map] at hsorted
  exact hsorted.trans (relevantGroups_perm.map _)

end Discounts

/-! ## The groups before and after -/

section Added

variable (config : ConfidenceModelConfig) (strength : ConfidenceEvidence → ℚ)
variable {evidence : List ConfidenceEvidence} {item : ConfidenceEvidence} {polarity : EvidencePolarity}
variable {key : String × EvidencePolarity} {group : ConfidenceGroupAssessment}

/-- The members of a group. -/
def membersAt (evidence : List ConfidenceEvidence) (key : String × EvidencePolarity) : List ConfidenceEvidence :=
  membersOf (evidence.map fun item => ((item.independenceKey, item.polarity), item)) key

/-- The group of a key. -/
def groupAt (evidence : List ConfidenceEvidence) (key : String × EvidencePolarity) : ConfidenceGroupAssessment :=
  groupAssessment config strength key (membersAt evidence key)

theorem membersAt_concat : membersAt (evidence ++ [item]) key =
    membersAt evidence key ++ if (item.independenceKey, item.polarity) = key then [item] else [] := by
  unfold membersAt membersOf
  rw [List.map_append, List.filter_append, List.map_append]
  by_cases hkey : (item.independenceKey, item.polarity) = key
  · simp [hkey]
  · simp [hkey]

theorem keys_groupedEvidence_concat : (groupedEvidence (evidence ++ [item])).keys =
    if (item.independenceKey, item.polarity) ∈ (groupedEvidence evidence).keys then (groupedEvidence evidence).keys
    else (groupedEvidence evidence).keys ++ [(item.independenceKey, item.polarity)] := by
  unfold groupedEvidence
  rw [List.map_append, List.map_singleton, groupPairs_concat]
  split
  next hmem => exact Dict.keys_set_mem hmem _
  next hnot =>
    rw [Dict.keys, Dict.entries_set_none (Dict.get?_eq_none_iff.mpr hnot), List.map_append, Dict.keys]
    rfl

theorem collapseEvidenceGroups_keys : (collapseEvidenceGroups config strength evidence).Perm
      ((groupedEvidence evidence).keys.map (groupAt config strength evidence)) := by
  have hmap : (groupedEvidence evidence).entries.map
      (fun group => groupAssessment config strength group.1 group.2) =
        (groupedEvidence evidence).keys.map (groupAt config strength evidence) := by
    rw [Dict.keys, List.map_map]
    apply List.map_congr_left
    rintro ⟨key, members⟩ hmem
    rw [(mem_groupPairs.mp hmem).1]
    rfl
  rw [← hmap]
  exact List.perm_insertionSort _ _

theorem mem_collapseEvidenceGroups : group ∈ collapseEvidenceGroups config strength evidence ↔
    ∃ key ∈ (groupedEvidence evidence).keys, groupAt config strength evidence key = group := by
  rw [(collapseEvidenceGroups_keys config strength).mem_iff, List.mem_map]

theorem collapseEvidenceGroups_distinct (evidence : List ConfidenceEvidence) :
    DistinctGroups (collapseEvidenceGroups config strength evidence) := by
  unfold DistinctGroups
  rw [((collapseEvidenceGroups_keys config strength).map _).nodup_iff, List.map_map]
  have hid : (groupedEvidence evidence).keys.map
      ((fun group : ConfidenceGroupAssessment => (group.independenceKey, group.polarity)) ∘
        groupAt config strength evidence) = (groupedEvidence evidence).keys :=
    (List.map_congr_left fun key _ => rfl).trans (List.map_id _)
  rw [hid]
  exact (groupedEvidence evidence).nodup_keys

/-- The keys of one polarity. -/
def keysOf (evidence : List ConfidenceEvidence) (polarity : EvidencePolarity) :
    List (String × EvidencePolarity) :=
  (groupedEvidence evidence).keys.filter fun key => key.2 = polarity

/-- What the groups of a polarity leave open, group by group. -/
theorem leftOpen_strengthsOf (evidence : List ConfidenceEvidence) (polarity : EvidencePolarity) :
    leftOpen (strengthsOf (applyDependencyDiscounts config (collapseEvidenceGroups config strength evidence))
        polarity) =
      leftOpen ((keysOf evidence polarity).map fun key =>
        effectiveAmong config (collapseEvidenceGroups config strength evidence)
          (groupAt config strength evidence key)) := by
  apply leftOpen_perm
  refine (strengthsOf_perm config (collapseEvidenceGroups_distinct config strength evidence) polarity).trans ?_
  have hperm := ((@collapseEvidenceGroups_keys config strength evidence).filter
    fun group => group.polarity = polarity).map
      (effectiveAmong config (collapseEvidenceGroups config strength evidence))
  rw [List.filter_map, List.map_map] at hperm
  exact hperm

end Added

/-! ## The confidence before and after -/

section Growth

variable {config : ConfidenceModelConfig} {strength : ConfidenceEvidence → ℚ}
variable {evidence : List ConfidenceEvidence} {item : ConfidenceEvidence} {polarity : EvidencePolarity}
variable {groups groups' : List ConfidenceGroupAssessment} {group group' : ConfidenceGroupAssessment}

/-- No group of the polarity is discounted after that was not before. -/
structure AddsNoDiscount (polarity : EvidencePolarity) (groups groups' : List ConfidenceGroupAssessment) :
    Prop where
  family : ∀ group ∈ groups, ∀ group' ∈ groups', group.polarity = polarity → group'.polarity = polarity →
    group'.independenceKey = group.independenceKey → SharesFamily groups' group' → SharesFamily groups group
  upstream : ∀ group ∈ groups, ∀ group' ∈ groups', group.polarity = polarity → group'.polarity = polarity →
    group'.independenceKey = group.independenceKey → SharesUpstream groups' group' → SharesUpstream groups group

theorem factor_le {p q : Prop} [Decidable p] [Decidable q] {d : ℚ} (hd : IsUnit01 d) (h : q → p) :
    (if p then d else 1) ≤ if q then d else 1 := by
  by_cases hq : q
  · rw [if_pos hq, if_pos (h hq)]
  · rw [if_neg hq]
    split
    · exact hd.2
    · exact le_rfl

theorem factor_unit {p : Prop} [Decidable p] {d : ℚ} (hd : IsUnit01 d) : IsUnit01 (if p then d else 1) := by
  split
  · exact hd
  · exact isUnit01_one

theorem effectiveAmong_le (hraw : group.rawStrength ≤ group'.rawStrength) (hnonneg : 0 ≤ group'.rawStrength)
    (hfamily : SharesFamily groups' group' → SharesFamily groups group)
    (hupstream : SharesUpstream groups' group' → SharesUpstream groups group) :
    effectiveAmong config groups group ≤ effectiveAmong config groups' group' := by
  apply clamp01_le
  have hfamilies := factor_le config.sameSourceFamilyDiscount_unit hfamily
  have hupstreams := factor_le config.sameUpstreamDiscount_unit hupstream
  have hpos := factor_unit (p := SharesUpstream groups group) config.sameUpstreamDiscount_unit
  have hpos' := factor_unit (p := SharesFamily groups' group') config.sameSourceFamilyDiscount_unit
  have hpos'' := factor_unit (p := SharesFamily groups group) config.sameSourceFamilyDiscount_unit
  exact mul_le_mul hraw (mul_le_mul hfamilies hupstreams hpos.1 hpos'.1) (mul_nonneg hpos''.1 hpos.1) hnonneg

/-- A piece of evidence more leaves the other groups as they are. -/
theorem groupAt_concat_of_ne {key : String × EvidencePolarity} (h : (item.independenceKey, item.polarity) ≠ key) :
    groupAt config strength (evidence ++ [item]) key = groupAt config strength evidence key := by
  rw [groupAt, membersAt_concat, if_neg h, List.append_nil, groupAt]

theorem rawStrength_groupAt_le (hunit : ∀ item, IsUnit01 (strength item)) (key : String × EvidencePolarity) :
    (groupAt config strength evidence key).rawStrength ≤
      (groupAt config strength (evidence ++ [item]) key).rawStrength := by
  by_cases hkey : (item.independenceKey, item.polarity) = key
  · unfold groupAt
    rw [membersAt_concat, if_pos hkey]
    exact rawStrength_le config key _ item hunit
  · rw [groupAt_concat_of_ne hkey]

/-- **The polarity of the evidence**: it leaves no more open. -/
theorem leftOpen_concat_le (hunit : ∀ item, IsUnit01 (strength item))
    (h : AddsNoDiscount item.polarity (collapseEvidenceGroups config strength evidence)
      (collapseEvidenceGroups config strength (evidence ++ [item]))) :
    leftOpen (strengthsOf (applyDependencyDiscounts config
        (collapseEvidenceGroups config strength (evidence ++ [item]))) item.polarity) ≤
      leftOpen (strengthsOf (applyDependencyDiscounts config
        (collapseEvidenceGroups config strength evidence)) item.polarity) := by
  rw [leftOpen_strengthsOf, leftOpen_strengthsOf]
  have hkeys : ∃ new, keysOf (evidence ++ [item]) item.polarity = keysOf evidence item.polarity ++ new := by
    unfold keysOf
    rw [keys_groupedEvidence_concat]
    split
    · exact ⟨[], (List.append_nil _).symm⟩
    · rw [List.filter_append]
      exact ⟨_, rfl⟩
  obtain ⟨new, hnew⟩ := hkeys
  rw [hnew, List.map_append]
  refine (leftOpen_append_le _ _).trans (leftOpen_map_le ?_)
  intro key hkey
  have hkey' : key ∈ keysOf (evidence ++ [item]) item.polarity := hnew ▸ List.mem_append_left _ hkey
  obtain ⟨hmem, hpolarity⟩ := List.mem_filter.mp hkey
  obtain ⟨hmem', -⟩ := List.mem_filter.mp hkey'
  have hpolarity : key.2 = item.polarity := of_decide_eq_true hpolarity
  have hgroup : groupAt config strength evidence key ∈ collapseEvidenceGroups config strength evidence :=
    (mem_collapseEvidenceGroups config strength).mpr ⟨key, hmem, rfl⟩
  have hgroup' : groupAt config strength (evidence ++ [item]) key ∈
      collapseEvidenceGroups config strength (evidence ++ [item]) :=
    (mem_collapseEvidenceGroups config strength).mpr ⟨key, hmem', rfl⟩
  exact effectiveAmong_le (rawStrength_groupAt_le hunit key) (clamp01_unit _).1
    (h.family _ hgroup _ hgroup' hpolarity hpolarity rfl)
    (h.upstream _ hgroup _ hgroup' hpolarity hpolarity rfl)

/-- **The other polarity**: nothing changes. -/
theorem leftOpen_concat_eq (hne : item.polarity ≠ polarity) : leftOpen (strengthsOf (applyDependencyDiscounts config
        (collapseEvidenceGroups config strength (evidence ++ [item]))) polarity) =
      leftOpen (strengthsOf (applyDependencyDiscounts config
        (collapseEvidenceGroups config strength evidence)) polarity) := by
  rw [leftOpen_strengthsOf, leftOpen_strengthsOf]
  have hkeys : keysOf (evidence ++ [item]) polarity = keysOf evidence polarity := by
    unfold keysOf
    rw [keys_groupedEvidence_concat]
    split
    · rfl
    · rw [List.filter_append, List.filter_cons_of_neg (by simpa using hne), List.filter_nil, List.append_nil]
  have hgroup : ∀ key : String × EvidencePolarity, key.2 = polarity →
      groupAt config strength (evidence ++ [item]) key = groupAt config strength evidence key := by
    intro key hkey
    exact groupAt_concat_of_ne fun hsame => hne (congrArg Prod.snd hsame |>.trans hkey)
  rw [hkeys]
  congr 1
  apply List.map_congr_left
  intro key hkey
  have hpolarity : key.2 = polarity := of_decide_eq_true (List.mem_filter.mp hkey).2
  rw [hgroup key hpolarity, effectiveAmong, effectiveAmong, factorAmong_congr config fun other hother => ?_]
  -- the groups of this polarity are the same
  have hother : other.polarity = polarity := hother.trans hpolarity
  have hiff : ∀ k : String × EvidencePolarity, k.2 = polarity →
      (k ∈ (groupedEvidence (evidence ++ [item])).keys ↔ k ∈ (groupedEvidence evidence).keys) := by
    intro k hk
    have hfilter : k ∈ keysOf (evidence ++ [item]) polarity ↔ k ∈ keysOf evidence polarity := by rw [hkeys]
    simpa [keysOf, hk] using hfilter
  rw [mem_collapseEvidenceGroups, mem_collapseEvidenceGroups]
  constructor
  · rintro ⟨k, hk, rfl⟩
    exact ⟨k, (hiff k hother).mp hk, (hgroup k hother).symm⟩
  · rintro ⟨k, hk, rfl⟩
    exact ⟨k, (hiff k hother).mpr hk, hgroup k hother⟩

end Growth

/-! ## The assessment before and after -/

section Assessment

variable {config : ConfidenceModelConfig} {evidence : List ConfidenceEvidence} {item : ConfidenceEvidence}

theorem finalConfidence_le {prior s s' c c' : ℚ} (hprior : IsUnit01 prior) (hs' : IsUnit01 s')
    (hc : IsUnit01 c) (hle : s ≤ s') (hle' : c' ≤ c) :
    finalConfidence config prior s c ≤ finalConfidence config prior s' c' := by
  have hopen := hprior.compl
  have hsupport : prior + (1 - prior) * s ≤ prior + (1 - prior) * s' :=
    add_le_add_right (mul_le_mul_of_nonneg_left hle hopen.1) prior
  have hnonneg : 0 ≤ prior + (1 - prior) * s' := add_nonneg hprior.1 (mul_nonneg hopen.1 hs'.1)
  have himpact : c' * config.contradictionImpact ≤ c * config.contradictionImpact :=
    mul_le_mul_of_nonneg_right hle' config.contradictionImpact_unit.1
  have hremains := (hc.mul config.contradictionImpact_unit).compl
  apply clamp01_le
  exact mul_le_mul hsupport (sub_le_sub_left himpact 1) hremains.1 hnonneg

/-- The confidence of deduplicated evidence, and with one piece more. -/
theorem assessDeduped_concat {strength : ConfidenceEvidence → ℚ} (hunit : ∀ item, IsUnit01 (strength item))
    (showConfidence : ℚ → String) (subjectKey : String) (eventType : EventType)
    (h : AddsNoDiscount item.polarity (collapseEvidenceGroups config strength evidence)
      (collapseEvidenceGroups config strength (evidence ++ [item]))) : (item.polarity = .supports →
      (assessDeduped config strength showConfidence subjectKey eventType evidence).confidence ≤
        (assessDeduped config strength showConfidence subjectKey eventType (evidence ++ [item])).confidence) ∧
    (item.polarity = .contradicts →
      (assessDeduped config strength showConfidence subjectKey eventType (evidence ++ [item])).confidence ≤
        (assessDeduped config strength showConfidence subjectKey eventType evidence).confidence) := by
  have hopen := leftOpen_concat_le hunit h
  constructor
  · intro hpolarity
    have hother : item.polarity ≠ .contradicts := by
      rw [hpolarity]
      decide
    rw [hpolarity] at hopen
    apply finalConfidence_le (prior_unit config eventType) (combineNoisyOr_unit _) (combineNoisyOr_unit _)
    · rw [combineNoisyOr_eq, combineNoisyOr_eq]
      exact sub_le_sub_left hopen 1
    · rw [combineNoisyOr_eq, combineNoisyOr_eq, leftOpen_concat_eq hother]
  · intro hpolarity
    have hother : item.polarity ≠ .supports := by
      rw [hpolarity]
      decide
    rw [hpolarity] at hopen
    apply finalConfidence_le (prior_unit config eventType) (combineNoisyOr_unit _) (combineNoisyOr_unit _)
    · rw [combineNoisyOr_eq, combineNoisyOr_eq, leftOpen_concat_eq hother]
    · rw [combineNoisyOr_eq, combineNoisyOr_eq]
      exact sub_le_sub_left hopen 1

/-- The groups of the evidence about a subject. -/
def evidenceGroups (config : ConfidenceModelConfig) (otherWeight : ℚ) (subjectKey : String)
    (evidence : List ConfidenceEvidence) : List ConfidenceGroupAssessment :=
  collapseEvidenceGroups config (evidenceRawStrength config otherWeight)
    (dedupeEvidence (evidenceRawStrength config otherWeight) subjectKey evidence).values

/-- The piece of evidence is new, or no stronger than the one that has its id; and it makes no group of its
    polarity discounted that was not. -/
structure PlainlyAdded (config : ConfidenceModelConfig) (otherWeight : ℚ) (subjectKey : String)
    (evidence : List ConfidenceEvidence) (item : ConfidenceEvidence) : Prop where
  fresh : ∀ existing,
    (dedupeEvidence (evidenceRawStrength config otherWeight) subjectKey evidence).get? item.evidenceId =
      some existing →
    evidenceRawStrength config otherWeight item ≤ evidenceRawStrength config otherWeight existing
  discounts : AddsNoDiscount item.polarity (evidenceGroups config otherWeight subjectKey evidence)
    (evidenceGroups config otherWeight subjectKey (evidence ++ [item]))

/-- What is left after deduplication is what was, or that and the new piece of evidence. -/
theorem dedupeEvidence_added {strength : ConfidenceEvidence → ℚ} {subjectKey : String}
    (hfresh : ∀ existing, (dedupeEvidence strength subjectKey evidence).get? item.evidenceId = some existing →
      strength item ≤ strength existing) : (dedupeEvidence strength subjectKey (evidence ++ [item])).values =
        (dedupeEvidence strength subjectKey evidence).values ∨
      (dedupeEvidence strength subjectKey (evidence ++ [item])).values =
        (dedupeEvidence strength subjectKey evidence).values ++ [item] := by
  rw [dedupeEvidence_concat]
  split
  · exact .inl rfl
  cases hold : (dedupeEvidence strength subjectKey evidence).get? item.evidenceId with
  | none =>
    right
    simp only [Dict.values, Dict.entries_set_none hold, List.map_append, List.map_singleton]
  | some existing =>
    left
    simp only
    rw [if_neg (not_lt.mpr (hfresh existing hold))]

theorem tls_plainlyAdded :
    PlainlyAdded .standard (55 / 100) "DNS_NAME:api.example.com" [dnsEvidence] tlsEvidence where
  fresh existing h := by
    have hnone : ((dedupeEvidence (evidenceRawStrength .standard (55 / 100)) "DNS_NAME:api.example.com"
        [dnsEvidence]).get? tlsEvidence.evidenceId).isNone = true := by decide +kernel
    rw [h] at hnone
    cases hnone
  discounts := ⟨by decide +kernel, by decide +kernel⟩

def strongerEvidence : ConfidenceEvidence := sampleEvidence "dns:1" "dns" "dns" 60 (by decide)

def weakerEvidence : ConfidenceEvidence := sampleEvidence "http:1" "http" "http" 59 (by decide)

/-- A repeat of the weaker observation that came by the family of the stronger. -/
def repeatedEvidence : ConfidenceEvidence := sampleEvidence "http:2" "dns" "http" 10 (by decide)

end Assessment

end NightScout
