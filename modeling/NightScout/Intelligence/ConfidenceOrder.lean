import NightScout.Intelligence.Confidence

/-!
# The order of the evidence

An assessment depends on which pieces of evidence there are, not on their order or on how often one is given
(`assess_confidence_lawful`): before anything is combined, groups and members are sorted by keys that no two of
them share.
-/

namespace NightScout

open Lib

/-! ## Deduplication -/

section Dedupe

variable {strength : ConfidenceEvidence → ℚ} {subjectKey : String} {evidence evidence' : List ConfidenceEvidence}

/-- Evidence of one id is one piece of evidence. -/
def Consistent (evidence : List ConfidenceEvidence) : Prop :=
  ∀ a ∈ evidence, ∀ b ∈ evidence, a.evidenceId = b.evidenceId → a = b

theorem dedupeEvidence_concat (item : ConfidenceEvidence) :
    dedupeEvidence strength subjectKey (evidence ++ [item]) =
      if item.subjectKey ≠ subjectKey then dedupeEvidence strength subjectKey evidence
      else
        match (dedupeEvidence strength subjectKey evidence).get? item.evidenceId with
        | none => (dedupeEvidence strength subjectKey evidence).set item.evidenceId item
        | some existing =>
          if strength item > strength existing then
            (dedupeEvidence strength subjectKey evidence).set item.evidenceId item
          else dedupeEvidence strength subjectKey evidence := by
  unfold dedupeEvidence
  exact List.foldl_append

/-- Each piece of evidence about the subject is kept once, under its id. -/
theorem get?_dedupeEvidence (h : Consistent evidence) (id : String) (item : ConfidenceEvidence) :
    (dedupeEvidence strength subjectKey evidence).get? id = some item ↔
      item ∈ evidence ∧ item.subjectKey = subjectKey ∧ item.evidenceId = id := by
  induction evidence using List.reverseRecOn generalizing id item with
  | nil => simp [dedupeEvidence]
  | append_singleton evidence last ih =>
    have ih := ih fun a ha b hb => h a (List.mem_append_left _ ha) b (List.mem_append_left _ hb)
    rw [dedupeEvidence_concat, List.mem_append, List.mem_singleton]
    by_cases hsubject : last.subjectKey = subjectKey
    · rw [if_neg (not_not.mpr hsubject)]
      cases hold : (dedupeEvidence strength subjectKey evidence).get? last.evidenceId with
      | none =>
        simp only [Dict.get?_set]
        split
        next hid =>
          constructor
          · intro hsome
            cases hsome
            exact ⟨.inr rfl, hsubject, hid.symm⟩
          · rintro ⟨hmem | rfl, hs, hitem⟩
            · have hsome := (ih id item).mpr ⟨hmem, hs, hitem⟩
              rw [hid, hold] at hsome
              cases hsome
            · rfl
        next hid =>
          rw [ih]
          constructor
          · rintro ⟨hmem, hrest⟩
            exact ⟨.inl hmem, hrest⟩
          · rintro ⟨hmem | rfl, hs, hitem⟩
            · exact ⟨hmem, hs, hitem⟩
            · exact absurd hitem.symm hid
      | some existing =>
        -- what has this id is this piece of evidence
        obtain ⟨hmem, -, hid⟩ := (ih _ _).mp hold
        obtain rfl : existing = last :=
          h existing (List.mem_append_left _ hmem) last (List.mem_append_right _ List.mem_cons_self) hid
        simp only [gt_iff_lt, lt_self_iff_false, if_false]
        rw [ih]
        constructor
        · rintro ⟨hmem, hrest⟩
          exact ⟨.inl hmem, hrest⟩
        · rintro ⟨hmem' | rfl, hrest⟩
          · exact ⟨hmem', hrest⟩
          · exact ⟨hmem, hrest⟩
    · rw [if_pos hsubject, ih]
      constructor
      · rintro ⟨hmem, hrest⟩
        exact ⟨.inl hmem, hrest⟩
      · rintro ⟨hmem | rfl, hs, hid⟩
        · exact ⟨hmem, hs, hid⟩
        · exact absurd hs hsubject

theorem dedupeEvidence_ids (h : Consistent evidence) :
    ((dedupeEvidence strength subjectKey evidence).values.map fun item => item.evidenceId).Nodup := by
  apply Dict.nodup_values_map
  intro id item hitem
  exact ((get?_dedupeEvidence h id item).mp hitem).2.2

theorem Consistent.of_mem_iff (h : Consistent evidence) (hsame : ∀ item, item ∈ evidence ↔ item ∈ evidence') :
    Consistent evidence' := fun a ha b hb => h a ((hsame a).mpr ha) b ((hsame b).mpr hb)

/-- The same evidence leaves the same after deduplication. -/
theorem dedupeEvidence_perm (h : Consistent evidence) (hsame : ∀ item, item ∈ evidence ↔ item ∈ evidence') :
    (dedupeEvidence strength subjectKey evidence).values.Perm
      (dedupeEvidence strength subjectKey evidence').values := by
  apply Dict.values_perm
  intro id
  apply Option.ext
  intro item
  rw [get?_dedupeEvidence h, get?_dedupeEvidence (h.of_mem_iff hsame), hsame]

end Dedupe

/-! ## Groups -/

section Groups

variable (config : ConfidenceModelConfig) (strength : ConfidenceEvidence → ℚ)
variable {evidence evidence' members members' : List ConfidenceEvidence}

theorem strongestFirst_perm (h : members.Perm members')
    (hids : (members.map fun item => item.evidenceId).Nodup) :
    strongestFirst strength members = strongestFirst strength members' := by
  unfold strongestFirst
  apply insertionSort_key_eq_of_perm h
  exact List.Nodup.of_map (fun key : ℚ ×ₗ String => (ofLex key).2) (by rw [List.map_map]; exact hids)

theorem groupAssessment_perm (key : String × EvidencePolarity) (h : members.Perm members')
    (hids : (members.map fun item => item.evidenceId).Nodup) :
    groupAssessment config strength key members = groupAssessment config strength key members' := by
  unfold groupAssessment
  rw [strongestFirst_perm strength h hids]

/-- The members of one group have distinct ids. -/
theorem membersOf_ids (hids : (evidence.map fun item => item.evidenceId).Nodup)
    (key : String × EvidencePolarity) :
    ((membersOf (evidence.map fun item => ((item.independenceKey, item.polarity), item)) key).map
      fun item => item.evidenceId).Nodup := by
  have hsub : (membersOf (evidence.map fun item => ((item.independenceKey, item.polarity), item)) key).Sublist
      evidence := by
    have hfilter := (List.filter_sublist (p := fun pair => pair.1 = key)
      (l := evidence.map fun item => ((item.independenceKey, item.polarity), item))).map Prod.snd
    rw [List.map_map] at hfilter
    simpa [membersOf, Function.comp_def] using hfilter
  exact hids.sublist (hsub.map _)

theorem EvidencePolarity.value_inj {a b : EvidencePolarity} (h : a.value = b.value) : a = b := by
  cases a <;> cases b <;> first | rfl | exact absurd h (by decide)

/-- **The groups do not depend on the order of the evidence.** -/
theorem collapseEvidenceGroups_perm (h : evidence.Perm evidence')
    (hids : (evidence.map fun item => item.evidenceId).Nodup) :
    collapseEvidenceGroups config strength evidence = collapseEvidenceGroups config strength evidence' := by
  have hpairs := h.map fun item : ConfidenceEvidence => ((item.independenceKey, item.polarity), item)
  unfold collapseEvidenceGroups groupedEvidence
  apply insertionSort_key_eq_of_perm
  · apply map_groupPairs_perm hpairs
    intro key
    exact groupAssessment_perm config strength key ((hpairs.filter _).map _) (membersOf_ids hids key)
  · -- a group is told from the others by its independence key and its polarity
    have hkeys := (groupedEvidence evidence).nodup_keys
    rw [List.map_map]
    refine List.Nodup.map_on ?_ hkeys.of_map
    intro a ha b hb hsame
    have hpolarity : a.1.2 = b.1.2 :=
      EvidencePolarity.value_inj (congrArg (fun key : String ×ₗ ℚ ×ₗ String => (ofLex key).1) hsame)
    have hkey : a.1.1 = b.1.1 :=
      congrArg (fun key : String ×ₗ ℚ ×ₗ String => (ofLex (ofLex key).2).2) hsame
    exact List.inj_on_of_nodup_map hkeys ha hb (Prod.ext hkey hpolarity)

end Groups

/-! ## Bounds -/

section Bounds

variable {config : ConfidenceModelConfig} {strength : ConfidenceEvidence → ℚ}
variable {evidence evidence' : List ConfidenceEvidence} {group : ConfidenceGroupAssessment}

structure ConfidenceGroupAssessment.InUnit (group : ConfidenceGroupAssessment) : Prop where
  raw : IsUnit01 group.rawStrength
  factor : IsUnit01 group.dependencyFactor
  effective : IsUnit01 group.effectiveStrength

structure ConfidenceAssessment.InUnit (assessment : ConfidenceAssessment) : Prop where
  prior : IsUnit01 assessment.prior
  confidence : IsUnit01 assessment.confidence
  support : IsUnit01 assessment.supportStrength
  contradiction : IsUnit01 assessment.contradictionStrength
  conflict : IsUnit01 assessment.conflictScore
  groups : ∀ group ∈ assessment.groups, group.InUnit

theorem dependencyFactor_unit (seenFamilies seenUpstreams : List String) (group : ConfidenceGroupAssessment) :
    IsUnit01 (dependencyFactor config seenFamilies seenUpstreams group) := by
  unfold dependencyFactor
  apply IsUnit01.mul
  · split
    · exact config.sameSourceFamilyDiscount_unit
    · exact isUnit01_one
  · split
    · exact config.sameUpstreamDiscount_unit
    · exact isUnit01_one

theorem discountInOrder_unit {groups : List ConfidenceGroupAssessment}
    (h : ∀ group ∈ groups, IsUnit01 group.rawStrength) : ∀ {seenFamilies seenUpstreams : List String},
      ∀ group ∈ discountInOrder config seenFamilies seenUpstreams groups, group.InUnit := by
  induction groups with
  | nil => exact fun group hgroup => absurd hgroup List.not_mem_nil
  | cons first groups ih =>
    intro seenFamilies seenUpstreams group hgroup
    rcases List.mem_cons.mp hgroup with rfl | hgroup
    · exact ⟨h first List.mem_cons_self, dependencyFactor_unit _ _ _, clamp01_unit _⟩
    · exact ih (fun other hother => h other (List.mem_cons_of_mem _ hother)) group hgroup

theorem collapseEvidenceGroups_unit (h : group ∈ collapseEvidenceGroups config strength evidence) :
    IsUnit01 group.rawStrength := by
  rw [collapseEvidenceGroups, List.mem_insertionSort, List.mem_map] at h
  obtain ⟨members, -, rfl⟩ := h
  exact clamp01_unit _

theorem applyDependencyDiscounts_unit
    (h : group ∈ applyDependencyDiscounts config (collapseEvidenceGroups config strength evidence)) : group.InUnit := by
  rw [applyDependencyDiscounts, List.mem_insertionSort, List.mem_flatMap] at h
  obtain ⟨polarity, -, hgroup⟩ := h
  apply discountInOrder_unit _ group hgroup
  intro other hother
  rw [relevantGroups, List.mem_insertionSort] at hother
  exact collapseEvidenceGroups_unit (List.mem_of_mem_filter hother)

theorem prior_unit (config : ConfidenceModelConfig) (eventType : EventType) :
    IsUnit01 ((config.eventTypePriors.get? eventType).getD config.defaultPrior) := by
  cases hprior : config.eventTypePriors.get? eventType with
  | none => exact config.defaultPrior_unit
  | some prior => exact config.eventTypePriors_unit prior (Dict.mem_values_iff.mpr ⟨eventType, hprior⟩)

theorem assessDeduped_unit (showConfidence : ℚ → String) (subjectKey : String) (eventType : EventType) :
    (assessDeduped config strength showConfidence subjectKey eventType evidence).InUnit where
  prior := prior_unit config eventType
  confidence := clamp01_unit _
  support := combineNoisyOr_unit _
  contradiction := combineNoisyOr_unit _
  conflict := by
    have hsupport := combineNoisyOr_unit (strengthsOf
      (applyDependencyDiscounts config (collapseEvidenceGroups config strength evidence)) .supports)
    have hcontradiction := combineNoisyOr_unit (strengthsOf
      (applyDependencyDiscounts config (collapseEvidenceGroups config strength evidence)) .contradicts)
    exact ⟨le_min hsupport.1 hcontradiction.1, (min_le_left _ _).trans hsupport.2⟩
  groups _ hgroup := applyDependencyDiscounts_unit hgroup

theorem assessDeduped_perm (showConfidence : ℚ → String) (subjectKey : String) (eventType : EventType)
    (h : evidence.Perm evidence') (hids : (evidence.map fun item => item.evidenceId).Nodup) :
    assessDeduped config strength showConfidence subjectKey eventType evidence =
      assessDeduped config strength showConfidence subjectKey eventType evidence' := by
  have hfamilies := List.toFinset_eq_of_perm _ _ (h.map fun item => item.sourceFamily)
  have hproviders := List.toFinset_eq_of_perm _ _ (h.map fun item => item.sourceProvider)
  unfold assessDeduped
  rw [collapseEvidenceGroups_perm config strength h hids, hfamilies, hproviders, h.length_eq]

end Bounds

/-- **An assessment does not depend on the order of the evidence or on repeats, and is bounded**: evidence
    with the same members gives the same assessment, and every strength in an assessment is from 0 to 1. -/
theorem assess_confidence_lawful (config : ConfidenceModelConfig) (showConfidence : ℚ → String)
    (subjectKey : String) (eventType : EventType) (evidence evidence' : List ConfidenceEvidence)
    (hconsistent : Consistent evidence) (hsame : ∀ item, item ∈ evidence ↔ item ∈ evidence') :
    assessConfidence config showConfidence subjectKey eventType evidence =
      assessConfidence config showConfidence subjectKey eventType evidence' ∧
    ∀ assessment, assessConfidence config showConfidence subjectKey eventType evidence = .ok assessment →
      assessment.InUnit := by
  constructor
  · unfold assessConfidence
    split
    · simp only [hsame]
    next otherWeight _ =>
      simp only
      rw [assessDeduped_perm showConfidence subjectKey eventType (dedupeEvidence_perm hconsistent hsame)
        (dedupeEvidence_ids hconsistent)]
  · intro assessment hassessment
    unfold assessConfidence at hassessment
    split at hassessment
    · split at hassessment
      · cases hassessment
      split at hassessment
      · cases hassessment
      · cases hassessment
        exact assessDeduped_unit _ _ _
    · simp only at hassessment
      split at hassessment
      · cases hassessment
      · cases hassessment
        exact assessDeduped_unit _ _ _

/-- A piece of evidence of the subject of the tests, with a confidence of so many percent. -/
def sampleEvidence (id family independence : String) (percent : ℕ) (h : percent ≤ 100) : ConfidenceEvidence where
  evidenceId := id
  subjectKey := "DNS_NAME:api.example.com"
  polarity := .supports
  evidenceClass := .activeConfirmation
  sourceFamily := family
  sourceProvider := id
  independenceKey := independence
  confidence := hundredths percent
  confidence_unit := isUnit01_percent percent h
  reliability_unit := isUnit01_one

def dnsEvidence : ConfidenceEvidence := sampleEvidence "dns:1" "dns" "dns" 90 (by decide)

def tlsEvidence : ConfidenceEvidence := sampleEvidence "tls:1" "tls" "tls" 90 (by decide)

theorem sampleEvidence_consistent : Consistent [dnsEvidence, tlsEvidence] := by
  intro a ha b hb hid
  simp only [List.mem_cons, List.not_mem_nil, or_false] at ha hb
  rcases ha with rfl | rfl <;> rcases hb with rfl | rfl
  · rfl
  · exact absurd hid (by decide)
  · exact absurd hid (by decide)
  · rfl

/-- The two in the other order, one of them twice. -/
theorem assess_confidence_swapped : (Consistent [dnsEvidence, tlsEvidence] ∧
      ∀ item, item ∈ [dnsEvidence, tlsEvidence] ↔ item ∈ [tlsEvidence, dnsEvidence, tlsEvidence]) ∧
    assessConfidence .standard (fun _ => "0.991") "DNS_NAME:api.example.com" .dnsName [dnsEvidence, tlsEvidence] =
      assessConfidence .standard (fun _ => "0.991") "DNS_NAME:api.example.com" .dnsName
        [tlsEvidence, dnsEvidence, tlsEvidence] := by
  have hsame : ∀ item, item ∈ [dnsEvidence, tlsEvidence] ↔ item ∈ [tlsEvidence, dnsEvidence, tlsEvidence] := by
    intro item
    simp only [List.mem_cons, List.not_mem_nil, or_false]
    tauto
  exact ⟨⟨sampleEvidence_consistent, hsame⟩,
    (assess_confidence_lawful .standard (fun _ => "0.991") "DNS_NAME:api.example.com" .dnsName _ _
      sampleEvidence_consistent hsame).1⟩

end NightScout
