import NightScout.Intelligence.SoundHypotheses

/-!
# Whether the closest hypotheses come first

A hypothesis one place away gains `3/2`, a wider one only a part of that, but every variable slot adds the logarithm of
how often its value was seen. Frequent values in several slots outweigh the distance;
`closest_hypotheses_first_iff` says when they do not.
-/

namespace NightScout

open Lib

variable {tables : Tables} {config : PatternEngineConfig} {log1p : ℚ → ℚ} {pattern : NamingPattern}
  {existing near far : List String} {hypothesis other : LearnedHostnameHypothesis tables}
  {hypotheses : List (LearnedHostnameHypothesis tables)}

/-- The distance that a hypothesis carries. -/
def recordedDistance (hypothesis : LearnedHostnameHypothesis tables) : ℕ :=
  match hypothesis.metadata.get? "hamming_distance_from_observed" with
  | some (.int distance) => distance.toNat
  | _ => 0

/-- Those at distance one come first and are dropped last. -/
structure ClosestFirst (tables : Tables) (pattern : NamingPattern) (existing : List String)
    (hypotheses : List (LearnedHostnameHypothesis tables)) : Prop where
  first : hypotheses.Pairwise fun a b => ¬ (2 ≤ recordedDistance a ∧ recordedDistance b = 1)
  kept : ∀ components ∈ mutations tables pattern, usable pattern existing components = true →
    hostnameOf pattern components ∈ hypotheses.map (·.hostname) ∨ ∀ hypothesis ∈ hypotheses, recordedDistance hypothesis = 1

/-- The bonus of the distance outweighs that of the frequencies. -/
def Outranks (tables : Tables) (config : PatternEngineConfig) (log1p : ℚ → ℚ) (pattern : NamingPattern)
    (near far : List String) : Prop :=
  let distance := distanceTo (observedTuples tables pattern) far
  let nearBonus := patternValueFrequencyScore log1p pattern near + 3 / 2
  let farBonus := patternValueFrequencyScore log1p pattern far + 3 / 2 / distance
  farBonus < nearBonus ∨ farBonus = nearBonus ∧
    (candidateConfidence config pattern distance < candidateConfidence config pattern 1 ∨
      candidateConfidence config pattern distance = candidateConfidence config pattern 1 ∧
        hostnameOf pattern near < hostnameOf pattern far)

theorem recordedDistance_eq {entry : List String × ℕ} (h : HypothesisOf config log1p pattern entry hypothesis) :
    recordedDistance hypothesis = entry.2 := by
  unfold recordedDistance
  rw [h.distance]
  exact Int.toNat_natCast entry.2

/-- Comparing the ranks of two hypotheses is comparing their bonuses. -/
theorem rank_lt_iff {entry entry' : List String × ℕ} (h : HypothesisOf config log1p pattern entry hypothesis)
    (h' : HypothesisOf config log1p pattern entry' other) (hone : entry.2 = 1)
    (hdistance : entry'.2 = distanceTo (observedTuples tables pattern) entry'.1) (htwo : 2 ≤ entry'.2) :
    hypothesisRank hypothesis < hypothesisRank other ↔ Outranks tables config log1p pattern entry.1 entry'.1 := by
  have hmax : max 1 entry'.2 = entry'.2 := max_eq_right (by omega)
  have hscore : hypothesis.score = pattern.score + patternValueFrequencyScore log1p pattern entry.1 + 3 / 2 +
      pattern.yieldRatio * (3 / 2) := by
    rw [h.score, hone]
    unfold candidateScore
    norm_num
  have hscore' : other.score = pattern.score + patternValueFrequencyScore log1p pattern entry'.1 +
      3 / 2 / entry'.2 + pattern.yieldRatio * (3 / 2) := by
    rw [h'.score]
    unfold candidateScore
    rw [hmax]
  unfold hypothesisRank Outranks
  rw [Prod.Lex.toLex_lt_toLex, Prod.Lex.toLex_lt_toLex]
  simp only [neg_lt_neg_iff, neg_inj]
  rw [h.confidence, h'.confidence, h.hostname, h'.hostname, hone, ← hdistance]
  have hlt : other.score < hypothesis.score ↔ patternValueFrequencyScore log1p pattern entry'.1 + 3 / 2 / entry'.2 <
      patternValueFrequencyScore log1p pattern entry.1 + 3 / 2 := by
    rw [hscore, hscore']
    constructor <;> intro hlt <;> linarith
  have heq : hypothesis.score = other.score ↔ patternValueFrequencyScore log1p pattern entry'.1 + 3 / 2 / entry'.2 =
      patternValueFrequencyScore log1p pattern entry.1 + 3 / 2 := by
    rw [hscore, hscore']
    constructor <;> intro heq <;> linarith
  rw [hlt, heq, eq_comm (a := candidateConfidence config pattern 1)]

section Learned

variable (hforall : List.Forall₂ (HypothesisOf config log1p pattern)
    (((consideredCombinations tables config pattern).filter (usable pattern existing)).map fun c =>
      (c, distanceTo (observedTuples tables pattern) c)) hypotheses)

include hforall

/-- Each hypothesis comes from a combination. -/
theorem combination_of_hypothesis (hmem : hypothesis ∈ hypotheses) :
    ∃ components ∈ consideredCombinations tables config pattern, usable pattern existing components = true ∧
      HypothesisOf config log1p pattern (components, distanceTo (observedTuples tables pattern) components) hypothesis := by
  obtain ⟨entry, hentry, hof⟩ := mem_of_forall₂_right hforall hmem
  obtain ⟨components, hcomponents, rfl⟩ := List.mem_map.mp hentry
  obtain ⟨hconsidered, husable⟩ := List.mem_filter.mp hcomponents
  exact ⟨components, hconsidered, husable, hof⟩

theorem hypothesis_of_combination (hmem : near ∈ consideredCombinations tables config pattern)
    (husable : usable pattern existing near = true) : ∃ hypothesis ∈ hypotheses,
      HypothesisOf config log1p pattern (near, distanceTo (observedTuples tables pattern) near) hypothesis :=
  mem_of_forall₂_left hforall (List.mem_map.mpr ⟨near, List.mem_filter.mpr ⟨hmem, husable⟩, rfl⟩)

variable (h : LearnedPattern tables pattern)

include h

theorem sortHypotheses_sorted : (sortHypotheses hypotheses).Pairwise fun a b => hypothesisRank a < hypothesisRank b := by
  have hperm : (sortHypotheses hypotheses).Perm hypotheses := List.perm_insertionSort _ _
  have hnodup : ((sortHypotheses hypotheses).map (·.hostname)).Nodup :=
    (hperm.map _).nodup_iff.mpr (nodup_hostnames h hforall)
  have hle : (sortHypotheses hypotheses).Pairwise fun a b => hypothesisRank a ≤ hypothesisRank b := by
    have : Std.Total fun a b : LearnedHostnameHypothesis tables => hypothesisRank a ≤ hypothesisRank b :=
      ⟨fun a b => le_total _ _⟩
    have : IsTrans (LearnedHostnameHypothesis tables) fun a b => hypothesisRank a ≤ hypothesisRank b :=
      ⟨fun _ _ _ => le_trans⟩
    exact List.pairwise_insertionSort _ _
  refine (hle.and (List.pairwise_map.mp hnodup)).imp fun {a b} hab => lt_of_le_of_ne hab.1 fun heq => hab.2 ?_
  unfold hypothesisRank at heq
  exact (Prod.mk.inj (toLex.injective (Prod.mk.inj (toLex.injective heq)).2)).2

/-- If wider combinations are considered at all, there is room for all at distance one. -/
theorem few_near (hwide : ∃ hypothesis ∈ hypotheses, ¬ recordedDistance hypothesis = 1) :
    (hypotheses.filter fun hypothesis => recordedDistance hypothesis = 1).length < config.maxHypothesesPerPattern := by
  obtain ⟨hypothesis, hmem, hfar⟩ := hwide
  obtain ⟨components, hconsidered, -, hof⟩ := combination_of_hypothesis hforall hmem
  rw [recordedDistance_eq hof] at hfar
  have hroom : (fromkeys (mutations tables pattern)).length < config.maxHypothesesPerPattern := by
    unfold consideredCombinations at hconsidered
    simp only at hconsidered
    split at hconsidered
    next hroom => exact hroom
    next => exact absurd ((mem_mutations h).mp (mem_fromkeys.mp hconsidered)).2 hfar
  refine lt_of_le_of_lt ?_ hroom
  have hsub : ((hypotheses.filter fun hypothesis => recordedDistance hypothesis = 1).map (·.hostname)) ⊆
      (fromkeys (mutations tables pattern)).map (hostnameOf pattern) := by
    intro host hhost
    obtain ⟨near, hnear, rfl⟩ := List.mem_map.mp hhost
    obtain ⟨hin, hone⟩ := List.mem_filter.mp hnear
    obtain ⟨components, hconsidered, -, hof⟩ := combination_of_hypothesis hforall hin
    rw [decide_eq_true_eq, recordedDistance_eq hof] at hone
    refine List.mem_map.mpr ⟨components, mem_fromkeys.mpr ?_, hof.hostname.symm⟩
    exact (mem_mutations h).mpr ⟨considered_missing h hconsidered, hone⟩
  have hnodup := (nodup_hostnames h hforall).sublist
    ((List.filter_sublist (p := fun hypothesis => recordedDistance hypothesis = 1)).map (·.hostname))
  have hlength := (List.subperm_of_subset hnodup hsub).length_le
  rwa [List.length_map, List.length_map] at hlength

/-- What is sorted and cut off puts the closest first exactly if they outrank the others. -/
theorem closestFirst_iff : ClosestFirst tables pattern existing
      ((sortHypotheses hypotheses).take config.maxHypothesesPerPattern) ↔
    ∀ near ∈ consideredCombinations tables config pattern, ∀ far ∈ consideredCombinations tables config pattern,
      usable pattern existing near = true → usable pattern existing far = true →
      distanceTo (observedTuples tables pattern) near = 1 → 2 ≤ distanceTo (observedTuples tables pattern) far →
      Outranks tables config log1p pattern near far := by
  have hperm : (sortHypotheses hypotheses).Perm hypotheses := List.perm_insertionSort _ _
  have hpositive : ∀ hypothesis ∈ hypotheses, 1 ≤ recordedDistance hypothesis := by
    intro hypothesis hmem
    obtain ⟨components, hconsidered, -, hof⟩ := combination_of_hypothesis hforall hmem
    rw [recordedDistance_eq hof]
    exact distanceTo_ne_zero h (considered_missing h hconsidered)
  have hfew : (∃ a ∈ sortHypotheses hypotheses, ¬ recordedDistance a = 1) →
      ((sortHypotheses hypotheses).filter fun a => recordedDistance a = 1).length < config.maxHypothesesPerPattern := by
    rintro ⟨a, ha, hfar⟩
    rw [(hperm.filter _).length_eq]
    exact few_near hforall h ⟨a, hperm.mem_iff.mp ha, hfar⟩
  have htake := take_near_iff (fun a : LearnedHostnameHypothesis tables => recordedDistance a = 1)
    (sortHypotheses_sorted hforall h) hfew
  have hleft : ClosestFirst tables pattern existing ((sortHypotheses hypotheses).take config.maxHypothesesPerPattern) ↔
      (((sortHypotheses hypotheses).take config.maxHypothesesPerPattern).Pairwise
          (fun a b => recordedDistance b = 1 → recordedDistance a = 1) ∧
        ∀ c ∈ sortHypotheses hypotheses, recordedDistance c = 1 →
          c ∈ (sortHypotheses hypotheses).take config.maxHypothesesPerPattern ∨
            ∀ a ∈ (sortHypotheses hypotheses).take config.maxHypothesesPerPattern, recordedDistance a = 1) := by
    constructor
    · rintro ⟨hfirst, hkept⟩
      refine ⟨hfirst.imp_of_mem fun {a b} ha hb hab hone => ?_, fun c hc hone => ?_⟩
      · have hpos := hpositive a (hperm.mem_iff.mp (List.mem_of_mem_take ha))
        by_contra hfar
        exact hab ⟨by omega, hone⟩
      · obtain ⟨components, hconsidered, husable, hof⟩ := combination_of_hypothesis hforall (hperm.mem_iff.mp hc)
        rw [recordedDistance_eq hof] at hone
        have hmutation := (mem_mutations h).mpr ⟨considered_missing h hconsidered, hone⟩
        refine (hkept components hmutation husable).imp_left fun hname => ?_
        obtain ⟨a, ha, hsame⟩ := List.mem_map.mp hname
        have hnodup : ((sortHypotheses hypotheses).map (·.hostname)).Nodup :=
          (hperm.map _).nodup_iff.mpr (nodup_hostnames h hforall)
        rw [← hof.hostname] at hsame
        rw [← List.inj_on_of_nodup_map hnodup (List.mem_of_mem_take ha) hc hsame]
        exact ha
    · rintro ⟨hfirst, hkept⟩
      refine ⟨hfirst.imp fun {a b} hab hboth => ?_, fun components hmutation husable => ?_⟩
      · have hone := hab hboth.2
        omega
      · obtain ⟨c, hc, hof⟩ := hypothesis_of_combination hforall (mutations_considered h hmutation) husable
        have hone : recordedDistance c = 1 := by
          rw [recordedDistance_eq hof]
          exact ((mem_mutations h).mp hmutation).2
        exact (hkept c (hperm.mem_iff.mpr hc) hone).imp_left fun hin => List.mem_map.mpr ⟨c, hin, hof.hostname⟩
  have hright : (∀ c ∈ sortHypotheses hypotheses, ∀ d ∈ sortHypotheses hypotheses, recordedDistance c = 1 →
        ¬ recordedDistance d = 1 → hypothesisRank c < hypothesisRank d) ↔
      ∀ near ∈ consideredCombinations tables config pattern, ∀ far ∈ consideredCombinations tables config pattern,
        usable pattern existing near = true → usable pattern existing far = true →
        distanceTo (observedTuples tables pattern) near = 1 → 2 ≤ distanceTo (observedTuples tables pattern) far →
        Outranks tables config log1p pattern near far := by
    constructor
    · intro hrank near hnear far hfar husable husable' hone htwo
      obtain ⟨c, hc, hof⟩ := hypothesis_of_combination hforall hnear husable
      obtain ⟨d, hd, hof'⟩ := hypothesis_of_combination hforall hfar husable'
      refine (rank_lt_iff hof hof' hone rfl htwo).mp (hrank c (hperm.mem_iff.mpr hc) d (hperm.mem_iff.mpr hd) ?_ ?_)
      · rw [recordedDistance_eq hof]
        exact hone
      · rw [recordedDistance_eq hof']
        show ¬ distanceTo (observedTuples tables pattern) far = 1
        omega
    · intro houtranks c hc d hd hone hfar
      have hpos := hpositive d (hperm.mem_iff.mp hd)
      obtain ⟨near, hnear, husable, hof⟩ := combination_of_hypothesis hforall (hperm.mem_iff.mp hc)
      obtain ⟨far, hfar', husable', hof'⟩ := combination_of_hypothesis hforall (hperm.mem_iff.mp hd)
      rw [recordedDistance_eq hof] at hone
      rw [recordedDistance_eq hof'] at hfar hpos
      have htwo : 2 ≤ distanceTo (observedTuples tables pattern) far := by omega
      exact (rank_lt_iff hof hof' hone rfl htwo).mpr (houtranks near hnear far hfar' husable husable' hone htwo)
  exact hleft.trans (htake.trans hright)

end Learned

/-- **When the closest hypotheses of a learned pattern come first.** -/
theorem closest_hypotheses_first_iff (tables : Tables) (config config' : PatternEngineConfig) (log2 log1p : ℚ → ℚ)
    (sha256 : String → String) (seedEvent : Event) (provided : List Event) (feedback : List PatternFeedback)
    (patterns : List NamingPattern) (pattern : NamingPattern) (existing : List String)
    (hypotheses : List (LearnedHostnameHypothesis tables))
    (hpatterns : patternsFor tables config log2 log1p sha256 seedEvent provided feedback = .ok patterns)
    (hpattern : pattern ∈ patterns)
    (hok : generatePatternHypotheses tables config' log1p pattern existing = .ok hypotheses) :
    ClosestFirst tables pattern existing hypotheses ↔
      ∀ near ∈ consideredCombinations tables config' pattern, ∀ far ∈ consideredCombinations tables config' pattern,
        usable pattern existing near = true → usable pattern existing far = true →
        distanceTo (observedTuples tables pattern) near = 1 → 2 ≤ distanceTo (observedTuples tables pattern) far →
        Outranks tables config' log1p pattern near far := by
  have hlearned := patternsFor_learned hpatterns pattern hpattern
  obtain ⟨all, hall, hforall⟩ :=
    generatePatternHypotheses_spec hlearned log1p existing (shortNames_of_generated hlearned hok)
  rw [hall] at hok
  obtain rfl := Except.ok.inj hok
  exact closestFirst_iff hforall hlearned

/-! ## Frequent values in five places -/

section Observed

variable {root : String} {events : List Event} {observations result : List HostnameObservation}
  {seen : List (String × String)}

/-- What an event says that is named by components under a root. -/
def observationUnder (root : String) (components : List String) (event : Event) : HostnameObservation where
  hostname := event.value
  parentDomain := root
  childLabel := joinHyphens components
  components
  eventId := event.eventId
  confidence := event.confidence
  source := event.source.text

theorem observationOf_joined {components : List String} {event : Event} {ls : List (List Char)}
    (hcomponents : ∀ value ∈ components, IsComponent value)
    (harity : 2 ≤ components.length ∧ components.length ≤ config.maxComponentsPerLabel)
    (hls : HostLabels ((joinHyphens components).toList :: ls)) (htwo : 2 ≤ ls.length)
    (hvalue : event.value = String.ofList (['.'].intercalate ((joinHyphens components).toList :: ls)))
    (htype : event.type = .dnsName) (hconfirmed : "confirmed" ∈ event.tags) :
    observationOf tables config (String.ofList (['.'].intercalate ls)) event =
      some (observationUnder (String.ofList (['.'].intercalate ls)) components event) := by
  have hne : ls ≠ [] := by
    rintro rfl
    cases htwo
  have hsub : isSubdomain (String.ofList (['.'].intercalate ((joinHyphens components).toList :: ls)))
      (String.ofList (['.'].intercalate ls)) = true := isSubdomain_joined hne
  have hshort : (joinHyphens components).length ≤ 63 := (hls.label _ List.mem_cons_self).1
  have hsplit : splitPatternLabel tables (joinHyphens components) = components :=
    splitPatternLabel_joinHyphens hcomponents (List.ne_nil_of_length_pos (by omega)) hshort
  unfold observationOf
  rw [if_neg (by simp [htype, hconfirmed]), hvalue, hls.normal]
  simp only
  rw [if_neg (by simp [ne_of_isSubdomain hsub, hsub]), hls.labels_eq]
  simp only
  rw [if_neg (by omega), String.ofList_toList, hsplit, if_neg (by omega)]
  unfold observationUnder
  rw [hvalue]

/-- Observations are collected in the order of their events. -/
theorem collectObservations_eq (hall : events.map (observationOf tables config root) = observations.map some)
    (hnodup : ((result ++ observations).map fun o => (o.hostname, o.eventId)).Nodup)
    (hseen : ∀ key ∈ seen, key ∈ result.map fun o => (o.hostname, o.eventId))
    (hfew : (result ++ observations).length ≤ config.maxConfirmedHostnames) :
    collectObservations tables config root events result seen = result ++ observations := by
  induction events generalizing observations result seen with
  | nil =>
    obtain rfl : observations = [] := List.map_eq_nil_iff.mp hall.symm
    exact (List.append_nil result).symm
  | cons event events ih =>
    obtain ⟨observation, rest, rfl, hfirst, hrest⟩ := List.map_eq_cons_iff.mp hall.symm
    have hnew : (observation.hostname, observation.eventId) ∉ seen := by
      intro hmem
      rw [List.map_append, List.map_cons, List.nodup_append] at hnodup
      exact hnodup.2.2 _ (hseen _ hmem) _ List.mem_cons_self rfl
    rw [List.length_append, List.length_cons] at hfew
    unfold collectObservations
    rw [if_neg (by omega), ← hfirst]
    simp only
    have happend : result ++ observation :: rest = (result ++ [observation]) ++ rest := List.append_cons ..
    rw [if_neg hnew, happend]
    rw [happend] at hnodup
    refine ih hrest.symm hnodup ?_ (by simp; omega)
    intro key hkey
    rw [List.map_append, List.mem_append]
    rcases List.mem_cons.mp hkey with rfl | hkey
    · exact .inr List.mem_cons_self
    · exact .inl (hseen key hkey)

theorem collect_of_observations {combinations : List (List String)} {event : List String → Event}
    {observed : List String → HostnameObservation} (hroot : normalizeDnsName tables root = .ok root)
    (hall : ∀ components ∈ combinations, observationOf tables config root (event components) = some (observed components))
    (hnodup : (combinations.map fun components => ((observed components).hostname, (observed components).eventId)).Nodup)
    (hfew : combinations.length ≤ config.maxConfirmedHostnames) :
    collectConfirmedHostnameObservations tables config (combinations.map event) root =
      .ok (combinations.map observed) := by
  have hobserved : (combinations.map event).map (observationOf tables config root) =
      (combinations.map observed).map some := by
    rw [List.map_map, List.map_map]
    exact List.map_congr_left hall
  unfold collectConfirmedHostnameObservations
  rw [hroot, ok_bind]
  refine congrArg Except.ok (collectObservations_eq hobserved ?_ (List.forall_mem_nil _) ?_)
  · rw [List.nil_append, List.map_map]
    exact hnodup
  · rw [List.nil_append, List.length_map]
    exact hfew

end Observed

theorem observedTuples_joined {combinations : List (List String)}
    (hlabels : pattern.observedLabels = combinations.map joinHyphens)
    (hcomponents : ∀ components ∈ combinations, ∀ value ∈ components, IsComponent value)
    (hne : ∀ components ∈ combinations, components ≠ [])
    (hshort : ∀ components ∈ combinations, (joinHyphens components).length ≤ 63) : observedTuples tables pattern =
      (fromkeys combinations).filter fun values => values.length = pattern.slots.length := by
  have hsplit : (combinations.map joinHyphens).map (splitPatternLabel tables) = combinations := by
    rw [List.map_map]
    have hself : ∀ components ∈ combinations, (splitPatternLabel tables ∘ joinHyphens) components = id components := by
      intro components hmem
      rw [Function.comp_apply, id_eq]
      exact splitPatternLabel_joinHyphens (hcomponents components hmem) (hne components hmem) (hshort components hmem)
    exact (List.map_congr_left hself).trans (List.map_id _)
  unfold observedTuples
  rw [hlabels, hsplit]

/-- Under a short parent no name is too long. -/
theorem shortNames_of_parent (hparent : pattern.parentDomain.length ≤ 189) (combinations : List (List String)) :
    ShortNames pattern combinations := by
  intro components _ hvalid
  have hlabel : (joinHyphens components).toList.length ≤ 63 := (validDnsLabel_hostLabel hvalid).1
  unfold joinHyphens at hlabel
  rw [String.toList_ofList] at hlabel
  rw [← String.length_toList] at hparent
  rw [← String.length_toList, hostnameOf_toList, List.length_append, List.length_cons]
  omega

/-- Ten combinations of three `p` and two other values, and one of values that were seen once. -/
def frequentCombinations : List (List String) :=
  [["a", "p", "p", "p", "q", "s"], ["a", "p", "p", "q", "p", "q"], ["a", "p", "p", "q", "q", "p"],
    ["a", "p", "q", "p", "p", "q"], ["a", "p", "q", "p", "q", "p"], ["a", "p", "q", "q", "p", "p"],
    ["a", "q", "p", "p", "p", "q"], ["a", "q", "p", "p", "q", "p"], ["a", "q", "p", "q", "p", "p"],
    ["a", "q", "q", "p", "p", "p"], ["a", "r", "r", "r", "r", "r"]]

def frequentDomains : List (List String) :=
  [["a"], ["p", "q", "r"], ["p", "q", "r"], ["p", "q", "r"], ["p", "q", "r"], ["p", "q", "r", "s"]]

def rareValues : List String := ["a", "r", "r", "r", "r", "s"]

def frequentValues : List String := ["a", "p", "p", "p", "p", "p"]

def frequentEvent (components : List String) : Event := confirmedEvent (joinHyphens components ++ ".x.io")

def rootSeed : Event := { confirmedEvent "x.io" with type := .rootDomain }

theorem roomy_confidences : (0 : ℚ) ≤ 35 / 100 ∧ (35 / 100 : ℚ) ≤ 92 / 100 ∧ (92 / 100 : ℚ) ≤ 1 := by decide +kernel

theorem roomy_minSupport : 2 ≤ 3 ∧ 3 ≤ 1000 := by decide

theorem roomy_maxComponents : 2 ≤ 8 ∧ 8 ≤ 32 := by decide

theorem roomy_total : 1 ≤ 1000 ∧ 1000 ≤ 1000000 := by decide

/-- One pattern for a group, with room for all of its combinations. -/
def roomyConfig : PatternEngineConfig where
  maxAnchorClustersPerGroup := 0
  maxHypothesesPerPattern := 1000
  minSupport_range := roomy_minSupport
  maxComponents_range := roomy_maxComponents
  total_range := roomy_total
  confidences := roomy_confidences

/-- The logarithms that occur here. -/
def frequentLogarithms (x : ℚ) : ℚ :=
  if x = 1 then 693147 / 1000000 else if x = 3 then 1386294 / 1000000 else if x = 4 then 1609438 / 1000000
  else if x = 6 then 1945910 / 1000000 else 2484907 / 1000000

/-- A pattern of these names, whose frequent values outweigh the distance. -/
def outweighs (pattern : NamingPattern) : Bool :=
  pattern.observedLabels = frequentCombinations.map joinHyphens && pattern.parentDomain = "x.io" &&
    valueDomains pattern = frequentDomains &&
    patternValueFrequencyScore frequentLogarithms pattern rareValues + 3 / 4 <
      patternValueFrequencyScore frequentLogarithms pattern frequentValues

def onlyOne (patterns : List NamingPattern) : Bool :=
  match patterns with
  | [pattern] => outweighs pattern
  | _ => false

theorem frequent_labels : ∀ components ∈ frequentCombinations, (∀ value ∈ components, IsComponent value) ∧
    components.length = 6 ∧ HostLabel (joinHyphens components).toList := by
  have hall : frequentCombinations.all fun components =>
      (components.all fun value => value.toList ≠ [] && value.toList.all componentChar) && components.length = 6 &&
        HostLabel (joinHyphens components).toList := by decide +kernel
  intro components hmem
  have hone := List.all_eq_true.mp hall components hmem
  simp only [Bool.and_eq_true, decide_eq_true_eq, List.all_eq_true] at hone
  obtain ⟨⟨hvalues, hlength⟩, hlabel⟩ := hone
  exact ⟨fun value hvalue => ⟨(hvalues value hvalue).2, (hvalues value hvalue).1⟩, hlength, hlabel⟩

/-- Each name is observed as its combination. -/
theorem frequent_observation {components : List String} (hmem : components ∈ frequentCombinations) :
    observationOf plainTables roomyConfig "x.io" (frequentEvent components) =
      some (observationUnder "x.io" components (frequentEvent components)) := by
  obtain ⟨hcomponents, harity, hlabel⟩ := frequent_labels components hmem
  have hvalue : (frequentEvent components).value =
      String.ofList (['.'].intercalate ((joinHyphens components).toList :: [['x'], ['i', 'o']])) := by
    apply String.toList_inj.mp
    show (joinHyphens components ++ ".x.io").toList = _
    simp [String.toList_append, List.intercalate_cons_cons]
  have hls : HostLabels ((joinHyphens components).toList :: [['x'], ['i', 'o']]) := by
    refine ⟨by simp, List.forall_mem_cons.mpr ⟨hlabel, by decide⟩, ?_⟩
    have hshort : (joinHyphens components).toList.length ≤ 63 := hlabel.1
    simp only [List.intercalate_cons_cons, List.intercalate_singleton, List.length_append, List.length_cons,
      List.length_nil]
    omega
  have hconfirmed : "confirmed" ∈ (frequentEvent components).tags := by
    show "confirmed" ∈ ({"confirmed"} : Finset String)
    exact Finset.mem_singleton_self _
  have hmax : components.length ≤ roomyConfig.maxComponentsPerLabel := by
    show components.length ≤ 8
    omega
  have hparent : String.ofList (['.'].intercalate [['x'], ['i', 'o']]) = "x.io" := by decide
  have hobserved : observationOf plainTables roomyConfig (String.ofList (['.'].intercalate [['x'], ['i', 'o']]))
      (frequentEvent components) = some (observationUnder (String.ofList (['.'].intercalate [['x'], ['i', 'o']]))
        components (frequentEvent components)) :=
    observationOf_joined hcomponents ⟨by omega, hmax⟩ hls (by decide) hvalue rfl hconfirmed
  rw [hparent] at hobserved
  exact hobserved

theorem frequent_observed : collectConfirmedHostnameObservations plainTables roomyConfig
      (frequentCombinations.map frequentEvent) "x.io" =
    .ok (frequentCombinations.map fun components => observationUnder "x.io" components (frequentEvent components)) := by
  have hroot : normalizeDnsName plainTables "x.io" = .ok "x.io" := by decide +kernel
  have hnodup : (frequentCombinations.map fun components =>
      ((frequentEvent components).value, (frequentEvent components).eventId)).Nodup := by decide +kernel
  exact collect_of_observations hroot (fun components hmem => frequent_observation hmem) hnodup (by decide)

theorem frequent_inferred : onlyOne ((dedupeAndRankPatterns ((buildPatternCandidateGroups roomyConfig
      (frequentCombinations.map fun components => observationUnder "x.io" components (frequentEvent components))).filterMap
    fun group => (inferNamingPattern roomyConfig (fun _ => 8) frequentLogarithms id group "x.io").bind fun pattern =>
      if pattern.confidence < roomyConfig.minPatternConfidence then none else some pattern)).take
        roomyConfig.maxPatterns) = true := by
  decide +kernel

theorem frequent_learned : ∃ pattern, patternsFor plainTables roomyConfig (fun _ => 8) frequentLogarithms id rootSeed
    (frequentCombinations.map frequentEvent) [] = .ok [pattern] ∧ outweighs pattern = true := by
  have hroot : patternLearningRoot plainTables rootSeed = .ok "x.io" := by decide +kernel
  have hprovided : (frequentCombinations.map frequentEvent).take roomyConfig.maxTargetEvents =
      frequentCombinations.map frequentEvent := List.take_of_length_le (by decide)
  have hpatterns : patternsFor plainTables roomyConfig (fun _ => 8) frequentLogarithms id rootSeed
      (frequentCombinations.map frequentEvent) [] = .ok ((dedupeAndRankPatterns ((buildPatternCandidateGroups roomyConfig
      (frequentCombinations.map fun components => observationUnder "x.io" components (frequentEvent components))).filterMap
    fun group => (inferNamingPattern roomyConfig (fun _ => 8) frequentLogarithms id group "x.io").bind fun pattern =>
      if pattern.confidence < roomyConfig.minPatternConfidence then none else some pattern)).take
        roomyConfig.maxPatterns) := by
    unfold patternsFor
    rw [hroot, ok_bind, hprovided, frequent_observed, ok_bind]
    rfl
  have hone := frequent_inferred
  rw [hpatterns]
  generalize List.take _ _ = patterns at hone ⊢
  match patterns, hone with
  | [pattern], hone => exact ⟨pattern, rfl, hone⟩

/-- The confirmed names. -/
def frequentNames : List String := frequentCombinations.map fun components => (frequentEvent components).value

section Outweighed

variable {pattern : NamingPattern} (houtweighs : outweighs pattern = true)

include houtweighs

theorem outweighs_spec : pattern.observedLabels = frequentCombinations.map joinHyphens ∧ pattern.parentDomain = "x.io" ∧
    valueDomains pattern = frequentDomains ∧ patternValueFrequencyScore frequentLogarithms pattern rareValues + 3 / 4 <
      patternValueFrequencyScore frequentLogarithms pattern frequentValues := by
  unfold outweighs at houtweighs
  simp only [Bool.and_eq_true, decide_eq_true_eq] at houtweighs
  obtain ⟨⟨⟨hlabels, hparent⟩, hdomains⟩, hscore⟩ := houtweighs
  exact ⟨hlabels, hparent, hdomains, hscore⟩

theorem outweighs_tuples : observedTuples plainTables pattern = frequentCombinations := by
  obtain ⟨hlabels, -, hdomains, -⟩ := outweighs_spec houtweighs
  have hslots : pattern.slots.length = 6 := by
    have hlength := congrArg List.length hdomains
    unfold valueDomains at hlength
    rw [List.length_map] at hlength
    exact hlength
  have hnodup : fromkeys frequentCombinations = frequentCombinations := by decide +kernel
  have hne : ∀ c ∈ frequentCombinations, c ≠ [] := by
    intro c hc
    have hlength := (frequent_labels c hc).2.1
    exact List.ne_nil_of_length_pos (by omega)
  rw [observedTuples_joined hlabels (fun c hc => (frequent_labels c hc).1) hne
    (fun c hc => (frequent_labels c hc).2.2.1), hnodup, hslots]
  exact List.filter_eq_self.mpr fun c hc => decide_eq_true (frequent_labels c hc).2.1

theorem outweighs_usable {components : List String} (hvalid : validDnsLabel (joinHyphens components) = true)
    (hnew : joinHyphens components ++ ".x.io" ∉ frequentNames) : usable pattern frequentNames components = true := by
  obtain ⟨-, hparent, -, -⟩ := outweighs_spec houtweighs
  have hname : hostnameOf pattern components = joinHyphens components ++ ".x.io" := by
    apply String.toList_inj.mp
    rw [hostnameOf_toList, hparent]
    simp [joinHyphens, String.toList_append]
  unfold usable
  rw [hvalid, hname]
  exact decide_eq_true hnew

/-- The frequent values come before the closer rare ones. -/
theorem outweighs_not_outranked : ¬ Outranks plainTables roomyConfig frequentLogarithms pattern rareValues frequentValues := by
  obtain ⟨-, -, -, hscore⟩ := outweighs_spec houtweighs
  have htwo : distanceTo (observedTuples plainTables pattern) frequentValues = 2 := by
    rw [outweighs_tuples houtweighs]
    decide
  unfold Outranks
  simp only [htwo]
  rintro (hlt | ⟨heq, -⟩)
  · norm_num at hlt
    linarith
  · norm_num at heq
    linarith

variable (hlearned : LearnedPattern plainTables pattern)

include hlearned

theorem outweighs_considered {components : List String} (hproduct : components ∈ product frequentDomains)
    (hnew : components ∉ frequentCombinations) :
    components ∈ consideredCombinations plainTables roomyConfig pattern := by
  obtain ⟨-, -, hdomains, -⟩ := outweighs_spec houtweighs
  refine missing_considered hlearned ?_ ((missing_iff hlearned).mpr ?_)
  · rw [hdomains, length_product]
    decide
  · rw [hdomains, outweighs_tuples houtweighs]
    exact ⟨hproduct, hnew⟩

end Outweighed

theorem frequent_generated : ∃ (pattern : NamingPattern) (hypotheses : List (LearnedHostnameHypothesis plainTables)),
    patternsFor plainTables roomyConfig (fun _ => 8) frequentLogarithms id rootSeed
        (frequentCombinations.map frequentEvent) [] = .ok [pattern] ∧ outweighs pattern = true ∧
      generatePatternHypotheses plainTables roomyConfig frequentLogarithms pattern frequentNames =
        .ok ((sortHypotheses hypotheses).take roomyConfig.maxHypothesesPerPattern) ∧
      List.Forall₂ (HypothesisOf roomyConfig frequentLogarithms pattern)
        (((consideredCombinations plainTables roomyConfig pattern).filter (usable pattern frequentNames)).map fun c =>
          (c, distanceTo (observedTuples plainTables pattern) c)) hypotheses := by
  obtain ⟨pattern, hpatterns, houtweighs⟩ := frequent_learned
  have hlearned := patternsFor_learned hpatterns pattern (List.mem_singleton.mpr rfl)
  obtain ⟨-, hparent, -, -⟩ := outweighs_spec houtweighs
  obtain ⟨hypotheses, hok, hforall⟩ := generatePatternHypotheses_spec hlearned frequentLogarithms frequentNames
    (shortNames_of_parent (by rw [hparent]; decide) (consideredCombinations plainTables roomyConfig pattern))
  exact ⟨pattern, hypotheses, hpatterns, houtweighs, hok, hforall⟩

theorem closest_hypotheses_first_iff_frequent : ∃ (patterns : List NamingPattern) (pattern : NamingPattern)
    (hypotheses : List (LearnedHostnameHypothesis plainTables)),
    patternsFor plainTables roomyConfig (fun _ => 8) frequentLogarithms id rootSeed
        (frequentCombinations.map frequentEvent) [] = .ok patterns ∧ pattern ∈ patterns ∧
      generatePatternHypotheses plainTables roomyConfig frequentLogarithms pattern frequentNames = .ok hypotheses ∧
      (ClosestFirst plainTables pattern frequentNames hypotheses ↔
        ∀ near ∈ consideredCombinations plainTables roomyConfig pattern,
          ∀ far ∈ consideredCombinations plainTables roomyConfig pattern,
          usable pattern frequentNames near = true → usable pattern frequentNames far = true →
          distanceTo (observedTuples plainTables pattern) near = 1 →
          2 ≤ distanceTo (observedTuples plainTables pattern) far →
          Outranks plainTables roomyConfig frequentLogarithms pattern near far) := by
  obtain ⟨pattern, hypotheses, hpatterns, -, hok, -⟩ := frequent_generated
  exact ⟨[pattern], pattern, _, hpatterns, List.mem_singleton.mpr rfl, hok,
    closest_hypotheses_first_iff plainTables roomyConfig roomyConfig (fun _ => 8) frequentLogarithms id rootSeed
      (frequentCombinations.map frequentEvent) [] [pattern] pattern frequentNames _ hpatterns
      (List.mem_singleton.mpr rfl) hok⟩

/-- A hypothesis of five rare values comes after one of five frequent ones. -/
theorem frequent_values_come_first :
    ¬ ∀ patterns, patternsFor plainTables roomyConfig (fun _ => 8) frequentLogarithms id rootSeed
        (frequentCombinations.map frequentEvent) [] = .ok patterns → ∀ pattern ∈ patterns, ∀ hypotheses,
        generatePatternHypotheses plainTables roomyConfig frequentLogarithms pattern frequentNames = .ok hypotheses →
        ClosestFirst plainTables pattern frequentNames hypotheses := by
  intro hall
  obtain ⟨pattern, hypotheses, hpatterns, houtweighs, hok, hforall⟩ := frequent_generated
  have hlearned := patternsFor_learned hpatterns pattern (List.mem_singleton.mpr rfl)
  have htuples := outweighs_tuples houtweighs
  have hfirst := hall [pattern] hpatterns pattern (List.mem_singleton.mpr rfl) _ hok
  rw [closestFirst_iff hforall hlearned] at hfirst
  refine outweighs_not_outranked houtweighs (hfirst rareValues ?_ frequentValues ?_ ?_ ?_ ?_ ?_)
  · exact outweighs_considered houtweighs hlearned (by decide +kernel) (by decide)
  · exact outweighs_considered houtweighs hlearned (by decide +kernel) (by decide)
  · exact outweighs_usable houtweighs (by decide +kernel) (by decide +kernel)
  · exact outweighs_usable houtweighs (by decide +kernel) (by decide +kernel)
  · rw [htuples]
    decide
  · rw [htuples]
    decide

end NightScout
