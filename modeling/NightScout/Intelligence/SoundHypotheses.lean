import NightScout.Intelligence.PatternCombinations
import NightScout.Workers.BranchNames
import NightScout.Workers.ExplorationRuns

/-!
# When pattern hypotheses are sound

Every hypothesis is a missing combination of known values under the parent of its pattern, with its exact distance.
Generation raises if a name gets too long: values that were seen apart may exceed the 253 characters together
(`generatePatternHypotheses_iff`). A confirmed name is proposed only if the engine does not read it, as it does not
read the event of the seed.
-/

namespace NightScout

open Lib

section Names

variable {tables : Tables} {pattern : NamingPattern} {components other : List String}

/-- The name of a combination. -/
def hostnameOf (pattern : NamingPattern) (components : List String) : String :=
  s!"{joinHyphens components}.{pattern.parentDomain}"

theorem hostnameOf_toList : (hostnameOf pattern components).toList =
    ['-'].intercalate (components.map String.toList) ++ '.' :: pattern.parentDomain.toList := by
  show (joinHyphens components ++ "." ++ pattern.parentDomain).toList = _
  unfold joinHyphens
  simp [String.toList_append]

theorem validDnsLabel_hostLabel {label : String} (h : validDnsLabel label = true) : HostLabel label.toList := by
  unfold validDnsLabel componentChar at h
  simp only [Bool.and_eq_true, decide_eq_true_eq, List.all_eq_true, Bool.or_eq_true] at h
  obtain ⟨⟨⟨⟨hne, hshort⟩, hhead⟩, hlast⟩, hchars⟩ := h
  refine ⟨hshort, fun c hc => ?_, hne, hhead, hlast⟩
  have hchar := hchars c hc
  tauto

/-- A name of a valid label is accepted unless it is too long. -/
theorem normalizeDnsName_hostnameOf (hparent : normalizeDnsName tables pattern.parentDomain = .ok pattern.parentDomain)
    (hlabel : validDnsLabel (joinHyphens components) = true) {host : String} :
    normalizeDnsName tables (hostnameOf pattern components) = .ok host ↔
      (hostnameOf pattern components).length ≤ 253 ∧ host = hostnameOf pattern components := by
  obtain ⟨ls, hls, hjoined⟩ := normalizeDnsName_ok hparent
  have hlabel := validDnsLabel_hostLabel hlabel
  have hname : hostnameOf pattern components =
      String.ofList (['.'].intercalate ((joinHyphens components).toList :: ls)) := by
    obtain ⟨first, rest, rfl⟩ := List.exists_cons_of_ne_nil hls.ne_nil
    apply String.toList_inj.mp
    rw [hostnameOf_toList, hjoined]
    simp [joinHyphens, List.intercalate_cons_cons]
  have hall : ∀ l ∈ (joinHyphens components).toList :: ls, HostLabel l :=
    List.forall_mem_cons.mpr ⟨hlabel, hls.label⟩
  have hlength : (hostnameOf pattern components).length =
      (['.'].intercalate ((joinHyphens components).toList :: ls)).length := by
    rw [hname, ← String.length_toList, String.toList_ofList]
  rw [hlength]
  constructor
  · intro hok
    rw [hname] at hok
    have hhost := normalizeDnsName_joined hall (List.cons_ne_nil _ _) hok
    obtain ⟨ls', hls', hhost'⟩ := normalizeDnsName_ok hok
    have hsame : ['.'].intercalate ((joinHyphens components).toList :: ls) = ['.'].intercalate ls' :=
      String.ofList_injective (hhost.symm.trans hhost')
    exact ⟨by rw [hsame]; exact hls'.short, hhost.trans hname.symm⟩
  · rintro ⟨hshort, rfl⟩
    have hlabels : HostLabels ((joinHyphens components).toList :: ls) := by
      refine ⟨?_, hall, hshort⟩
      have htwo := hls.two
      rw [List.length_cons]
      omega
    rw [hname]
    exact hlabels.normal

/-- A name tells its components. -/
theorem hostnameOf_injective (hcomponents : ∀ value ∈ components, IsComponent value)
    (hother : ∀ value ∈ other, IsComponent value) (hne : components ≠ []) (hother_ne : other ≠ [])
    (h : hostnameOf pattern components = hostnameOf pattern other) : components = other := by
  have hlist := congrArg String.toList h
  rw [hostnameOf_toList, hostnameOf_toList] at hlist
  have hjoined := List.append_cancel_right hlist
  have hfree : ∀ values : List String, (∀ value ∈ values, IsComponent value) →
      ∀ l ∈ values.map String.toList, '-' ∉ l := by
    intro values hvalues l hl hmem
    obtain ⟨value, hvalue, rfl⟩ := List.mem_map.mp hl
    exact absurd ((hvalues value hvalue).chars '-' hmem) (by decide)
  have hleft := List.splitOn_intercalate '-' (hfree components hcomponents) (by simpa using hne)
  have hright := List.splitOn_intercalate '-' (hfree other hother) (by simpa using hother_ne)
  rw [hjoined, hright] at hleft
  exact List.map_injective_iff.mpr (fun a b heq => String.toList_injective heq) hleft.symm

end Names

/-! ## Generation -/

section Generation

variable {tables : Tables} {config : PatternEngineConfig} {log1p : ℚ → ℚ} {pattern : NamingPattern}
  {existing : List String} {hypotheses : List (LearnedHostnameHypothesis tables)} {entries : List (List String × ℕ)}

/-- What the hypothesis of a combination says. -/
structure HypothesisOf (config : PatternEngineConfig) (log1p : ℚ → ℚ) (pattern : NamingPattern)
    (entry : List String × ℕ) (hypothesis : LearnedHostnameHypothesis tables) : Prop where
  hostname : hypothesis.hostname = hostnameOf pattern entry.1
  score : hypothesis.score = candidateScore log1p pattern entry.1 entry.2
  confidence : hypothesis.confidence = candidateConfidence config pattern entry.2
  distance : hypothesis.metadata.get? "hamming_distance_from_observed" = some (.int entry.2)

theorem hypothesisMetadata_distance (components : List String) (distance : ℕ) :
    (hypothesisMetadata pattern components distance).get? "hamming_distance_from_observed" =
      some (.int distance) := by
  unfold hypothesisMetadata
  refine Dict.get?_ofPairs ?_ (by simp)
  simp

/-- Whether a combination gives a hypothesis. -/
def usable (pattern : NamingPattern) (existing : List String) (components : List String) : Bool :=
  validDnsLabel (joinHyphens components) && hostnameOf pattern components ∉ existing

/-- No name of a valid label is too long. -/
def ShortNames (pattern : NamingPattern) (combinations : List (List String)) : Prop :=
  ∀ components ∈ combinations, validDnsLabel (joinHyphens components) = true →
    (hostnameOf pattern components).length ≤ 253

theorem patternHypotheses_spec (config : PatternEngineConfig) (log1p : ℚ → ℚ) (existing : List String)
    (hparent : normalizeDnsName tables pattern.parentDomain = .ok pattern.parentDomain)
    (hshort : ShortNames pattern (entries.map Prod.fst)) :
    ∃ hypotheses, patternHypotheses tables config log1p pattern existing entries = .ok hypotheses ∧
      List.Forall₂ (HypothesisOf config log1p pattern) (entries.filter fun e => usable pattern existing e.1)
        hypotheses := by
  induction entries with
  | nil => exact ⟨[], rfl, .nil⟩
  | cons entry rest ih =>
    obtain ⟨components, distance⟩ := entry
    obtain ⟨hfirst, hrest⟩ := List.forall_mem_cons.mp hshort
    obtain ⟨others, hothers, hforall⟩ := ih hrest
    unfold patternHypotheses
    simp only
    split
    next hinvalid =>
      rw [List.filter_cons_of_neg (by simp [usable, hinvalid])]
      exact ⟨others, hothers, hforall⟩
    next hvalid =>
      have hvalid : validDnsLabel (joinHyphens components) = true := by simpa using hvalid
      have hok : normalizeDnsName tables (hostnameOf pattern components) = .ok (hostnameOf pattern components) :=
        (normalizeDnsName_hostnameOf hparent hvalid).mpr ⟨hfirst hvalid, rfl⟩
      split
      next e herror =>
        have heq : Except.error e = Except.ok (hostnameOf pattern components) := herror.symm.trans hok
        cases heq
      next hostname hsome =>
        have heq : Except.ok hostname = Except.ok (hostnameOf pattern components) := hsome.symm.trans hok
        obtain rfl := Except.ok.inj heq
        split
        next hold =>
          rw [List.filter_cons_of_neg (by simp [usable, hold])]
          exact ⟨others, hothers, hforall⟩
        next hnew =>
          rw [List.filter_cons_of_pos (by simp [usable, hvalid, hnew]), hothers]
          exact ⟨_, rfl, .cons ⟨rfl, rfl, rfl, hypothesisMetadata_distance components distance⟩ hforall⟩

/-- A name that is too long raises. -/
theorem shortNames_of_ok (hparent : normalizeDnsName tables pattern.parentDomain = .ok pattern.parentDomain)
    (h : patternHypotheses tables config log1p pattern existing entries = .ok hypotheses) :
    ShortNames pattern (entries.map Prod.fst) := by
  induction entries generalizing hypotheses with
  | nil => exact fun _ hmem => (nomatch hmem)
  | cons entry rest ih =>
    obtain ⟨components, distance⟩ := entry
    unfold patternHypotheses at h
    simp only at h
    refine List.forall_mem_cons.mpr ?_
    split at h
    next hinvalid =>
      exact ⟨fun hvalid => absurd (hvalid.symm.trans hinvalid) (by decide), ih h⟩
    next =>
      split at h
      · cases h
      next hostname hok =>
        refine ⟨fun hvalid => ((normalizeDnsName_hostnameOf hparent hvalid).mp hok).1, ?_⟩
        split at h
        · exact ih h
        · obtain ⟨others, hothers, -⟩ := bind_ok h
          exact ih hothers

/-- A sound hypothesis. -/
structure SoundHypothesis (pattern : NamingPattern) (existing : List String)
    (hypothesis : LearnedHostnameHypothesis tables) (components : List String) : Prop where
  missing : Missing tables pattern components
  label : validDnsLabel (joinHyphens components) = true
  hostname : hypothesis.hostname = hostnameOf pattern components
  unconfirmed : hypothesis.hostname ∉ existing
  distance : ∃ d : ℕ, hypothesis.metadata.get? "hamming_distance_from_observed" = some (.int d) ∧
    IsLeast {d | ∃ tuple ∈ observedTuples tables pattern, hamming components tuple = d} d

/-- A sound list. -/
structure SoundHypotheses (config : PatternEngineConfig) (pattern : NamingPattern) (existing : List String)
    (hypotheses : List (LearnedHostnameHypothesis tables)) : Prop where
  bounded : hypotheses.length ≤ config.maxHypothesesPerPattern
  distinct : (hypotheses.map (·.hostname)).Nodup
  sound : ∀ hypothesis ∈ hypotheses, ∃ components, SoundHypothesis pattern existing hypothesis components

section Learned

variable (h : LearnedPattern tables pattern)

include h

theorem missing_components {components : List String} (hmissing : Missing tables pattern components) :
    ∀ value ∈ components, IsComponent value := by
  intro value hvalue
  obtain ⟨i, hget⟩ := List.mem_iff_getElem?.mp hvalue
  obtain ⟨hi, -⟩ := List.getElem?_eq_some_iff.mp hget
  have hin : i < pattern.slots.length := by rw [← hmissing.length]; exact hi
  obtain ⟨known, hknown, hfrom⟩ := hmissing.known i _ (List.getElem?_eq_getElem hin)
  rw [hget, Option.some.injEq] at hknown
  subst hknown
  have hseen : ∃ tuple ∈ observedTuples tables pattern, tuple[i]? = some value := by
    rcases hfrom with ⟨hkind, hliteral⟩ | hseen
    · obtain ⟨literal, hsame, hall⟩ := h.literal i _ (List.getElem?_eq_getElem hin) hkind
      rw [hliteral, Option.some.injEq] at hsame
      obtain ⟨tuple, htuple⟩ := List.exists_mem_of_ne_nil _ h.observed
      exact ⟨tuple, htuple, hsame ▸ hall tuple htuple⟩
    · exact hseen
  obtain ⟨tuple, htuple, hplace⟩ := hseen
  exact h.components tuple htuple value (List.mem_of_getElem? hplace)

theorem missing_ne_nil {components : List String} (hmissing : Missing tables pattern components) : components ≠ [] := by
  rintro rfl
  apply h.varies
  have hslots : pattern.slots = [] := List.length_eq_zero_iff.mp hmissing.length.symm
  unfold variableIndexes
  rw [hslots]
  rfl

/-- What generation returns, if no name is too long. -/
theorem generatePatternHypotheses_spec (log1p : ℚ → ℚ) (existing : List String)
    (hshort : ShortNames pattern (consideredCombinations tables config pattern)) :
    ∃ hypotheses, generatePatternHypotheses tables config log1p pattern existing =
        .ok ((sortHypotheses hypotheses).take config.maxHypothesesPerPattern) ∧
      List.Forall₂ (HypothesisOf config log1p pattern)
        (((consideredCombinations tables config pattern).filter (usable pattern existing)).map fun c =>
          (c, distanceTo (observedTuples tables pattern) c)) hypotheses := by
  obtain ⟨found, hfound, hentries⟩ := candidateComponents_eq h config
  have hnames : found.entries.map Prod.fst = consideredCombinations tables config pattern := by
    rw [hentries, List.map_map]
    exact List.map_id _
  obtain ⟨hypotheses, hok, hforall⟩ := patternHypotheses_spec config log1p existing h.parent (hnames.symm ▸ hshort)
  refine ⟨hypotheses, ?_, ?_⟩
  · unfold generatePatternHypotheses
    rw [if_neg h.varies, hfound, ok_bind, hok]
    rfl
  · rw [hentries, List.filter_map] at hforall
    exact hforall

/-- No two combinations give one name. -/
theorem nodup_hostnames {hypotheses : List (LearnedHostnameHypothesis tables)}
    (hforall : List.Forall₂ (HypothesisOf config log1p pattern)
      (((consideredCombinations tables config pattern).filter (usable pattern existing)).map fun c =>
        (c, distanceTo (observedTuples tables pattern) c)) hypotheses) : (hypotheses.map (·.hostname)).Nodup := by
  have hnames : hypotheses.map (·.hostname) =
      ((consideredCombinations tables config pattern).filter (usable pattern existing)).map (hostnameOf pattern) := by
    rw [List.forall₂_map_left_iff] at hforall
    have heq : List.Forall₂ (fun a b => hostnameOf pattern a = b)
        ((consideredCombinations tables config pattern).filter (usable pattern existing))
        (hypotheses.map (·.hostname)) := by
      rw [List.forall₂_map_right_iff]
      exact hforall.imp fun c hypothesis hof => hof.hostname.symm
    rw [← List.forall₂_map_left_iff, List.forall₂_eq_eq_eq] at heq
    exact heq.symm
  rw [hnames]
  refine List.Nodup.map_on (fun c hc c' hc' heq => ?_) ((nodup_considered h).filter _)
  have hmissing := considered_missing h (List.mem_of_mem_filter hc)
  have hmissing' := considered_missing h (List.mem_of_mem_filter hc')
  exact hostnameOf_injective (missing_components h hmissing) (missing_components h hmissing')
    (missing_ne_nil h hmissing) (missing_ne_nil h hmissing') heq

theorem sound_of_spec {hypotheses : List (LearnedHostnameHypothesis tables)}
    (hforall : List.Forall₂ (HypothesisOf config log1p pattern)
      (((consideredCombinations tables config pattern).filter (usable pattern existing)).map fun c =>
        (c, distanceTo (observedTuples tables pattern) c)) hypotheses) :
    SoundHypotheses config pattern existing ((sortHypotheses hypotheses).take config.maxHypothesesPerPattern) := by
  have hperm : (sortHypotheses hypotheses).Perm hypotheses := List.perm_insertionSort _ _
  have hsound : ∀ hypothesis ∈ hypotheses, ∃ components, SoundHypothesis pattern existing hypothesis components := by
    intro hypothesis hmem
    obtain ⟨entry, hentry, hof⟩ := mem_of_forall₂_right hforall hmem
    obtain ⟨components, hcomponents, rfl⟩ := List.mem_map.mp hentry
    obtain ⟨hconsidered, husable⟩ := List.mem_filter.mp hcomponents
    unfold usable at husable
    rw [Bool.and_eq_true, decide_eq_true_eq] at husable
    refine ⟨components, considered_missing h hconsidered, husable.1, hof.hostname, ?_, _, hof.distance,
      distanceTo_isLeast h.observed⟩
    rw [hof.hostname]
    exact husable.2
  have hnodup := nodup_hostnames h hforall
  refine ⟨List.length_take_le _ _, ?_, fun hypothesis hmem => ?_⟩
  · exact ((hperm.map _).nodup_iff.mpr hnodup).sublist ((List.take_sublist _ _).map _)
  · exact hsound hypothesis (hperm.mem_iff.mp (List.mem_of_mem_take hmem))

/-- What was generated had no name that is too long. -/
theorem shortNames_of_generated {hypotheses : List (LearnedHostnameHypothesis tables)}
    (hok : generatePatternHypotheses tables config log1p pattern existing = .ok hypotheses) :
    ShortNames pattern (consideredCombinations tables config pattern) := by
  obtain ⟨found, hfound, hentries⟩ := candidateComponents_eq h config
  unfold generatePatternHypotheses at hok
  rw [if_neg h.varies, hfound, ok_bind] at hok
  obtain ⟨others, hothers, -⟩ := bind_ok hok
  have hshort := shortNames_of_ok h.parent hothers
  have hnames : found.entries.map Prod.fst = consideredCombinations tables config pattern := by
    rw [hentries, List.map_map]
    exact List.map_id _
  rwa [hnames] at hshort

/-- **When generation gives a sound list.** -/
theorem generatePatternHypotheses_iff :
    (∃ hypotheses, generatePatternHypotheses tables config log1p pattern existing = .ok hypotheses ∧
        SoundHypotheses config pattern existing hypotheses) ↔
      ShortNames pattern (consideredCombinations tables config pattern) := by
  constructor
  · rintro ⟨hypotheses, hok, -⟩
    exact shortNames_of_generated h hok
  · intro hshort
    obtain ⟨hypotheses, hok, hforall⟩ := generatePatternHypotheses_spec h log1p existing hshort
    exact ⟨_, hok, sound_of_spec h hforall⟩

end Learned

end Generation

/-! ## The engine -/

section Engine

variable {tables : Tables} {config : PatternEngineConfig} {log2 log1p : ℚ → ℚ} {sha256 : String → String}
  {seedEvent : Event} {provided : List Event} {feedback : List PatternFeedback} {patterns : List NamingPattern}
  {existing : List String} {hypotheses result : List (LearnedHostnameHypothesis tables)}
  {hypothesis : LearnedHostnameHypothesis tables}

/-- A proposal of one of the patterns. -/
def ProposedBy (tables : Tables) (patterns : List NamingPattern) (existing : List String) (hostname : String) : Prop :=
  hostname ∉ existing ∧
    ∃ pattern ∈ patterns, ∃ components, Missing tables pattern components ∧ hostname = hostnameOf pattern components

theorem mem_rankAndDedupeHypotheses (h : hypothesis ∈ rankAndDedupeHypotheses tables hypotheses) :
    hypothesis ∈ hypotheses := by
  unfold rankAndDedupeHypotheses sortHypotheses at h
  simp only [List.mem_insertionSort] at h
  refine Dict.mem_values_foldl (fun best hypothesis kept hkept => ?_) h
  split at hkept
  · exact Dict.mem_values_set hkept
  · split at hkept
    · exact Dict.mem_values_set hkept
    · exact .inl hkept

theorem mem_appendWithinBranch {candidates : List (LearnedHostnameHypothesis tables)}
    (h : appendWithinBranch tables config seedEvent candidates hypotheses = .ok result) :
    ∀ kept ∈ result, kept ∈ hypotheses ∨ kept ∈ candidates := by
  induction candidates generalizing hypotheses with
  | nil =>
    cases h
    exact fun kept hkept => .inl hkept
  | cons candidate rest ih =>
    unfold appendWithinBranch at h
    obtain ⟨within, -, h⟩ := bind_ok h
    have hcons : ∀ kept ∈ hypotheses ++ [candidate], kept ∈ hypotheses ∨ kept ∈ candidate :: rest := by
      intro kept hkept
      rcases List.mem_append.mp hkept with hkept | hkept
      · exact .inl hkept
      · exact .inr (List.mem_singleton.mp hkept ▸ List.mem_cons_self)
    split at h
    · intro kept hkept
      rcases ih h kept hkept with hkept | hkept
      · exact .inl hkept
      · exact .inr (List.mem_cons_of_mem _ hkept)
    · simp only at h
      split at h
      · cases h
        exact hcons
      · intro kept hkept
        rcases ih h kept hkept with hkept | hkept
        · exact hcons kept hkept
        · exact .inr (List.mem_cons_of_mem _ hkept)

/-- What a pattern gives is a missing combination of it. -/
theorem generated_proposed {pattern : NamingPattern} (hlearned : LearnedPattern tables pattern)
    (h : generatePatternHypotheses tables config log1p pattern existing = .ok result)
    (hmem : hypothesis ∈ result) : ProposedBy tables [pattern] existing hypothesis.hostname := by
  obtain ⟨sound, hok, hsound⟩ := (generatePatternHypotheses_iff hlearned).mpr (shortNames_of_generated hlearned h)
  rw [hok] at h
  obtain rfl := Except.ok.inj h
  obtain ⟨components, hcomponents⟩ := hsound.sound hypothesis hmem
  exact ⟨hcomponents.unconfirmed, pattern, List.mem_singleton.mpr rfl, components, hcomponents.missing,
    hcomponents.hostname⟩

theorem hypothesesOfPatterns_proposed (hlearned : ∀ pattern ∈ patterns, LearnedPattern tables pattern)
    (h : hypothesesOfPatterns tables config log1p seedEvent existing patterns hypotheses = .ok result) :
    ∀ kept ∈ result, kept ∈ hypotheses ∨ ProposedBy tables patterns existing kept.hostname := by
  induction patterns generalizing hypotheses with
  | nil =>
    cases h
    exact fun kept hkept => .inl hkept
  | cons pattern patterns ih =>
    obtain ⟨hfirst, hrest⟩ := List.forall_mem_cons.mp hlearned
    unfold hypothesesOfPatterns at h
    obtain ⟨candidates, hcandidates, h⟩ := bind_ok h
    obtain ⟨appended, happended, h⟩ := bind_ok h
    have hkeep : ∀ kept ∈ appended, kept ∈ hypotheses ∨ ProposedBy tables (pattern :: patterns) existing kept.hostname := by
      intro kept hkept
      rcases mem_appendWithinBranch happended kept hkept with hkept | hkept
      · exact .inl hkept
      · obtain ⟨hnew, p, hp, hmissing⟩ := generated_proposed hfirst hcandidates hkept
        exact .inr ⟨hnew, p, List.mem_singleton.mp hp ▸ List.mem_cons_self, hmissing⟩
    split at h
    · cases h
      exact hkeep
    · intro kept hkept
      rcases ih hrest h kept hkept with hkept | ⟨hnew, p, hp, hmissing⟩
      · exact hkeep kept hkept
      · exact .inr ⟨hnew, p, List.mem_cons_of_mem _ hp, hmissing⟩

/-- Every hypothesis of the engine is a proposal of a learned pattern. -/
theorem hypothesesFor_proposed
    (hpatterns : patternsFor tables config log2 log1p sha256 seedEvent provided feedback = .ok patterns)
    (h : hypothesesFor tables config log2 log1p sha256 seedEvent provided feedback = .ok result) : ∀ kept ∈ result,
      ProposedBy tables patterns (confirmedHostnames tables (provided.take config.maxTargetEvents)) kept.hostname := by
  unfold hypothesesFor at h
  rw [hpatterns, ok_bind] at h
  obtain ⟨root, -, h⟩ := bind_ok h
  obtain ⟨hypotheses, hhypotheses, h⟩ := bind_ok h
  cases h
  intro kept hkept
  have hmem := mem_rankAndDedupeHypotheses (List.mem_of_mem_take hkept)
  rcases hypothesesOfPatterns_proposed (patternsFor_learned hpatterns) hhypotheses kept hmem with hnone | hproposed
  · cases hnone
  · exact hproposed

/-- No confirmed name that the engine does not read is a missing combination. -/
def UnreadNamesApart (tables : Tables) (config : PatternEngineConfig) (patterns : List NamingPattern)
    (records provided : List Event) : Prop :=
  ∀ host ∈ confirmedHostnames tables records,
    host ∉ confirmedHostnames tables (provided.take config.maxTargetEvents) →
    ∀ pattern ∈ patterns, ∀ components, Missing tables pattern components → host ≠ hostnameOf pattern components

/-- **When the hypotheses of the learned patterns are sound.** -/
theorem pattern_hypotheses_sound (tables : Tables) (config : PatternEngineConfig) (log2 log1p : ℚ → ℚ)
    (sha256 : String → String) (maxEvents : ℕ) (records : List Event) (seedEvent : Event)
    (feedback : List PatternFeedback) (patterns : List NamingPattern)
    (hpatterns : patternsFor tables config log2 log1p sha256 seedEvent (eventsFor maxEvents records seedEvent) feedback =
      .ok patterns) : (∀ pattern ∈ patterns, ∀ config' existing,
      (∃ hypotheses, generatePatternHypotheses tables config' log1p pattern existing = .ok hypotheses ∧
        SoundHypotheses config' pattern existing hypotheses) ↔
      ShortNames pattern (consideredCombinations tables config' pattern)) ∧
    (UnreadNamesApart tables config patterns records (eventsFor maxEvents records seedEvent) →
      ∀ hypotheses, hypothesesFor tables config log2 log1p sha256 seedEvent (eventsFor maxEvents records seedEvent)
        feedback = .ok hypotheses →
      ∀ hypothesis ∈ hypotheses, hypothesis.hostname ∉ confirmedHostnames tables records) := by
  constructor
  · intro pattern hpattern config' existing
    exact generatePatternHypotheses_iff (patternsFor_learned hpatterns pattern hpattern)
  · intro hapart hypotheses hok hypothesis hmem hconfirmed
    obtain ⟨hnew, pattern, hpattern, components, hmissing, hname⟩ := hypothesesFor_proposed hpatterns hok hypothesis hmem
    exact hapart _ hconfirmed hnew pattern hpattern components hmissing hname

end Engine

/-! ## A seed that completes its pattern -/

def confirmedEvent (name : String) : Event where
  eventId := "evt_" ++ name
  type := .dnsName
  value := name
  source := resolverName
  firstSeen := 0
  lastSeen := 0
  tags := {"confirmed"}
  confidence_unit := zero_unit
  novelty_unit := zero_unit

/-- The logarithms that occur here. -/
def fewLogarithms (x : ℚ) : ℚ := if x = 1 then 693147 / 1000000 else if x = 2 then 1098612 / 1000000 else 1386294 / 1000000

def appQa : Event := confirmedEvent "a-api-qa.x.io"

def appRecords : List Event :=
  [confirmedEvent "a-api-dev.x.io", confirmedEvent "b-api-dev.x.io", confirmedEvent "b-api-qa.x.io", appQa]

theorem app_hypotheses :
    (hypothesesFor plainTables {} (fun _ => 2) fewLogarithms id appQa (eventsFor 250000 appRecords appQa) []).toOption.map
      (·.map (·.hostname)) = some ["a-api-qa.x.io"] := by
  decide +kernel

theorem app_confirmed : "a-api-qa.x.io" ∈ confirmedHostnames plainTables appRecords := by
  decide +kernel

theorem pattern_hypotheses_sound_app :
    ∃ patterns, patternsFor plainTables {} (fun _ => 2) fewLogarithms id appQa (eventsFor 250000 appRecords appQa) [] =
        .ok patterns ∧ ∀ pattern ∈ patterns, ∀ (config' : PatternEngineConfig) (existing : List String),
        (∃ hypotheses : List (LearnedHostnameHypothesis plainTables),
          generatePatternHypotheses plainTables config' fewLogarithms pattern existing = .ok hypotheses ∧
          SoundHypotheses config' pattern existing hypotheses) ↔
        ShortNames pattern (consideredCombinations plainTables config' pattern) := by
  obtain ⟨patterns, hpatterns⟩ : ∃ patterns, patternsFor plainTables {} (fun _ => 2) fewLogarithms id appQa
      (eventsFor 250000 appRecords appQa) [] = .ok patterns := by
    obtain ⟨hypotheses, hok, -⟩ := Option.map_eq_some_iff.mp app_hypotheses
    revert hok
    unfold hypothesesFor
    cases patternsFor plainTables {} (fun _ => 2) fewLogarithms id appQa (eventsFor 250000 appRecords appQa) [] with
    | error e => exact fun hnone => (nomatch hnone)
    | ok patterns => exact fun _ => ⟨patterns, rfl⟩
  exact ⟨patterns, hpatterns, (pattern_hypotheses_sound plainTables {} (fun _ => 2) fewLogarithms id 250000 appRecords
    appQa [] patterns hpatterns).1⟩

/-- The engine proposes the confirmed name of its own seed. -/
theorem seed_is_proposed :
    ¬ ∀ hypotheses, hypothesesFor plainTables {} (fun _ => 2) fewLogarithms id appQa
        (eventsFor 250000 appRecords appQa) [] = .ok hypotheses →
      ∀ hypothesis ∈ hypotheses, hypothesis.hostname ∉ confirmedHostnames plainTables appRecords := by
  intro h
  obtain ⟨hypotheses, hok, hnames⟩ := Option.map_eq_some_iff.mp app_hypotheses
  obtain ⟨hypothesis, hmem, hname⟩ := List.mem_map.mp (hnames ▸ List.mem_singleton.mpr rfl :
    "a-api-qa.x.io" ∈ hypotheses.map (·.hostname))
  refine h hypotheses ?_ hypothesis hmem (hname ▸ app_confirmed)
  revert hok
  cases hypothesesFor plainTables {} (fun _ => 2) fewLogarithms id appQa (eventsFor 250000 appRecords appQa) [] with
  | error e => exact fun hnone => (nomatch hnone)
  | ok found => exact fun hsome => congrArg _ (Option.some.inj hsome)

end NightScout
