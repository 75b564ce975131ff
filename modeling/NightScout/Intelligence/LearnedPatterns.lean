import NightScout.Intelligence.PatternHypotheses
import NightScout.Lib.Splits

/-!
# What learning gives

A learned pattern has one slot for each place, a literal where all observations agree and otherwise the values seen
there (`LearnedPattern`). Feedback and ranking change neither the slots nor the observations.
-/

namespace NightScout

open Lib

/-! ## Observations -/

section Observations

variable {tables : Tables} {config : PatternEngineConfig} {root : String} {event : Event} {child : List Char}
  {observation : HostnameObservation} {events : List Event}

/-- What a component looks like. -/
structure IsComponent (value : String) : Prop where
  chars : ∀ c ∈ value.toList, componentChar c = true
  nonempty : value.toList ≠ []

theorem componentChar_of_hostLabel (h : HostLabel child) {c : Char} (hc : c ∈ child) (hne : c ≠ '-') :
    componentChar c = true := by
  unfold componentChar
  simp only [Bool.or_eq_true, Bool.and_eq_true, decide_eq_true_eq]
  have hchar := h.2.1 c hc
  tauto

/-- The components of a host's label. -/
theorem splitPatternLabel_components (h : HostLabel child) :
    ∀ value ∈ splitPatternLabel tables (String.ofList child), IsComponent value := by
  intro value hvalue
  have hchars : ∀ c ∈ child, HostChar c := fun c hc => h.hostChar hc
  unfold splitPatternLabel at hvalue
  rw [strip_hostChars hchars, strLower_hostChars hchars] at hvalue
  simp only [String.toList_ofList] at hvalue
  split at hvalue
  · cases hvalue
  split at hvalue
  · cases hvalue
  split at hvalue
  · cases hvalue
  obtain ⟨part, hpart, rfl⟩ := List.mem_map.mp hvalue
  obtain ⟨hpiece, hnonempty⟩ := List.mem_filter.mp hpart
  refine ⟨fun c hc => ?_, ?_⟩
  · rw [String.toList_ofList] at hc
    have hmem : c ∈ child := (splitOn_sublist hpiece).subset hc
    rw [List.splitOn_eq_splitOnP] at hpiece
    have hfree := piece_free hpiece c hc
    refine componentChar_of_hostLabel h hmem ?_
    rintro rfl
    exact absurd hfree (by decide)
  · rw [String.toList_ofList]
    exact of_decide_eq_true hnonempty

theorem componentChar_hostChar {c : Char} (h : componentChar c = true) : HostChar c := by
  unfold componentChar at h
  simp only [Bool.or_eq_true, Bool.and_eq_true, decide_eq_true_eq] at h
  exact h.imp id .inl

/-- Joining and splitting components. -/
theorem splitPatternLabel_joinHyphens {components : List String} (h : ∀ value ∈ components, IsComponent value)
    (hne : components ≠ []) (hshort : (joinHyphens components).length ≤ 63) :
    splitPatternLabel tables (joinHyphens components) = components := by
  have hfree : ∀ l ∈ components.map String.toList, '-' ∉ l := by
    intro l hl hmem
    obtain ⟨value, hvalue, rfl⟩ := List.mem_map.mp hl
    exact absurd ((h value hvalue).chars '-' hmem) (by decide)
  have hchars : ∀ c ∈ ['-'].intercalate (components.map String.toList), HostChar c := by
    intro c hc
    rcases mem_intercalate hc with rfl | ⟨l, hl, hmem⟩
    · exact .inr (.inr (.inl rfl))
    · obtain ⟨value, hvalue, rfl⟩ := List.mem_map.mp hl
      exact componentChar_hostChar ((h value hvalue).chars c hmem)
  have hpieces : (['-'].intercalate (components.map String.toList)).splitOn '-' = components.map String.toList :=
    List.splitOn_intercalate '-' hfree (by simpa using hne)
  have hsplit : (((['-'].intercalate (components.map String.toList)).splitOn '-').filter (· ≠ [])).map String.ofList =
      components := by
    rw [hpieces, List.filter_eq_self.mpr]
    · simp
    · intro l hl
      obtain ⟨value, hvalue, rfl⟩ := List.mem_map.mp hl
      exact decide_eq_true (h value hvalue).nonempty
  have hparts : ∀ value ∈ components, (normalizeLabelComponent tables value).isNone = false := by
    intro value hvalue
    have hvalid := h value hvalue
    have hhost : ∀ c ∈ value.toList, HostChar c := fun c hc => componentChar_hostChar (hvalid.chars c hc)
    have hstrip := strip_hostChars hhost
    have hlower : strLower tables (String.ofList value.toList) = String.ofList value.toList := strLower_hostChars hhost
    rw [String.ofList_toList] at hstrip hlower
    have hlong : value.length ≤ (joinHyphens components).length := by
      unfold joinHyphens
      rw [← String.length_toList, ← String.length_toList, String.toList_ofList]
      have hpiece : value.toList ∈ (['-'].intercalate (components.map String.toList)).splitOn '-' := by
        rw [hpieces]
        exact List.mem_map_of_mem hvalue
      exact (splitOn_sublist hpiece).length_le
    unfold normalizeLabelComponent
    rw [hstrip, hlower]
    have hnonempty : ¬ (value = "" ∨ value.length > 63) := by
      rintro (rfl | hlarge)
      · exact hvalid.nonempty rfl
      · omega
    simp only
    rw [if_neg hnonempty, if_pos (List.all_eq_true.mpr hvalid.chars)]
    rfl
  have hnonempty : ¬ (joinHyphens components = "" ∨ (joinHyphens components).length > 63) := by
    rintro (hempty | hlarge)
    · rw [joinHyphens, String.ofList_eq_empty_iff] at hempty
      rw [hempty] at hsplit
      exact hne hsplit.symm
    · omega
  unfold splitPatternLabel
  have hlower : strLower tables (strip (joinHyphens components)) = joinHyphens components := by
    unfold joinHyphens
    rw [strip_hostChars hchars, strLower_hostChars hchars]
  rw [hlower]
  have htext : (joinHyphens components).toList = ['-'].intercalate (components.map String.toList) := by
    unfold joinHyphens
    rw [String.toList_ofList]
  simp only [htext, hsplit]
  rw [if_neg hnonempty, if_neg (not_not.mpr rfl), if_neg]
  rw [Bool.not_eq_true, List.any_eq_false]
  intro value hvalue
  rw [hparts value hvalue]
  decide

/-- What an observation looks like. -/
structure ValidObservation (tables : Tables) (observation : HostnameObservation) : Prop where
  parent : normalizeDnsName tables observation.parentDomain = .ok observation.parentDomain
  split : splitPatternLabel tables observation.childLabel = observation.components
  components : ∀ value ∈ observation.components, IsComponent value

theorem observationOf_valid (h : observationOf tables config root event = some observation) :
    ValidObservation tables observation := by
  unfold observationOf at h
  split at h
  · cases h
  split at h
  · cases h
  next hostname hok =>
    split at h
    · cases h
    split at h
    next child parent hlabels =>
      split at h
      · cases h
      next hlong =>
        obtain ⟨ls, hls, rfl⟩ := normalizeDnsName_ok hok
        rw [hls.labels_eq] at hlabels
        subst hlabels
        have hchild : HostLabel child := hls.label child List.mem_cons_self
        have hcomponents : ∀ value ∈ splitPatternLabel tables (String.ofList child), IsComponent value :=
          splitPatternLabel_components hchild
        simp only at h
        generalize hsplit : splitPatternLabel tables (String.ofList child) = components at h hcomponents
        split at h
        · cases h
        obtain rfl := Option.some.inj h
        have hparent : HostLabels parent := by
          refine ⟨by omega, fun l hl => hls.label l (List.mem_cons_of_mem _ hl), ?_⟩
          have hshort := hls.short
          obtain ⟨first, rest, rfl⟩ := List.exists_cons_of_ne_nil (l := parent) (by rintro rfl; exact hlong (by decide))
          rw [List.intercalate_cons_cons, List.length_append] at hshort
          omega
        exact ⟨hparent.normal, hsplit, hcomponents⟩
    · cases h

theorem collectObservations_valid {result : List HostnameObservation} {seen : List (String × String)}
    (hresult : ∀ o ∈ result, ValidObservation tables o) :
    ∀ o ∈ collectObservations tables config root events result seen, ValidObservation tables o := by
  induction events generalizing result seen with
  | nil => exact hresult
  | cons event events ih =>
    unfold collectObservations
    split
    · exact hresult
    split
    next => exact ih hresult
    next observation hobservation =>
      simp only
      split
      · exact ih hresult
      · apply ih
        intro o ho
        rcases List.mem_append.mp ho with ho | ho
        · exact hresult o ho
        · rw [List.mem_singleton.mp ho]
          exact observationOf_valid hobservation

theorem collectConfirmed_valid {rootDomain : String} {observations : List HostnameObservation}
    (h : collectConfirmedHostnameObservations tables config events rootDomain = .ok observations) :
    ∀ o ∈ observations, ValidObservation tables o := by
  obtain ⟨root, -, h⟩ := bind_ok h
  cases h
  exact collectObservations_valid fun o ho => (nomatch ho)

end Observations

/-! ## Groups -/

section Groups

variable {tables : Tables} {config : PatternEngineConfig} {observations : List HostnameObservation}
  {groups : List PatternCandidateGroup} {group : PatternCandidateGroup}

/-- What a group looks like. -/
structure ValidGroup (tables : Tables) (group : PatternCandidateGroup) : Prop where
  parent : normalizeDnsName tables group.parentDomain = .ok group.parentDomain
  observations : ∀ o ∈ group.observations, ValidObservation tables o

theorem mem_sortedObservations {o : HostnameObservation} : o ∈ sortedObservations observations ↔ o ∈ observations :=
  List.mem_insertionSort _

theorem appendGroupIfNew_valid (hgroups : ∀ g ∈ groups, ValidGroup tables g) (hgroup : ValidGroup tables group) :
    ∀ g ∈ appendGroupIfNew groups group, ValidGroup tables g := by
  intro g hg
  unfold appendGroupIfNew at hg
  simp only at hg
  split at hg
  · exact hgroups g hg
  · rcases List.mem_append.mp hg with hg | hg
    · exact hgroups g hg
    · rw [List.mem_singleton.mp hg]
      exact hgroup

/-- A cluster holds observations of the group. -/
theorem mem_anchorClusters {arity : ℕ} {cluster : ℕ × String × List HostnameObservation}
    (h : cluster ∈ anchorClusters config observations arity) : ∀ o ∈ cluster.2.2, o ∈ observations := by
  intro o ho
  unfold anchorClusters at h
  rw [List.mem_insertionSort] at h
  obtain ⟨index, -, hcluster⟩ := List.mem_flatMap.mp h
  obtain ⟨entry, hentry, rfl⟩ := List.mem_map.mp hcluster
  have hmembers := (mem_groupPairs.mp (List.mem_of_mem_filter hentry)).1
  have hmem : o ∈ entry.2 := mem_sortedObservations.mp ho
  rw [hmembers, mem_membersOf] at hmem
  obtain ⟨o', ho', heq⟩ := List.mem_map.mp hmem
  exact (Prod.mk.inj heq).2 ▸ ho'

theorem foldl_groups_valid {A : Type} (step : List PatternCandidateGroup → A → List PatternCandidateGroup)
    {xs : List A} (hstep : ∀ x ∈ xs, ∀ groups, (∀ g ∈ groups, ValidGroup tables g) →
      ∀ g ∈ step groups x, ValidGroup tables g) (hgroups : ∀ g ∈ groups, ValidGroup tables g) :
    ∀ g ∈ xs.foldl step groups, ValidGroup tables g := by
  induction xs generalizing groups with
  | nil => exact hgroups
  | cons x xs ih =>
    exact ih (fun y hy => hstep y (List.mem_cons_of_mem x hy)) (hstep x List.mem_cons_self groups hgroups)

theorem buildGroups_valid (h : ∀ o ∈ observations, ValidObservation tables o) :
    ∀ g ∈ buildPatternCandidateGroups config observations, ValidGroup tables g := by
  unfold buildPatternCandidateGroups
  refine foldl_groups_valid _ ?_ (List.forall_mem_nil _)
  intro entry hentry groups hgroups
  rw [List.mem_insertionSort] at hentry
  obtain ⟨hmembers, hne⟩ := mem_groupPairs.mp hentry
  have hmember : ∀ o ∈ entry.2, o ∈ observations ∧ o.parentDomain = entry.1.1 := by
    intro o ho
    rw [hmembers, mem_membersOf] at ho
    obtain ⟨o', ho', heq⟩ := List.mem_map.mp ho
    obtain ⟨hkey, rfl⟩ := Prod.mk.inj heq
    exact ⟨ho', congrArg Prod.fst hkey⟩
  have hparent : normalizeDnsName tables entry.1.1 = .ok entry.1.1 := by
    obtain ⟨o, ho⟩ := List.exists_mem_of_ne_nil _ hne
    obtain ⟨hobserved, heq⟩ := hmember o ho
    rw [← heq]
    exact (h o hobserved).parent
  have hdistinct : ∀ o ∈ sortedObservations (Dict.ofPairs (entry.2.map fun o => (o.childLabel, o))).values,
      ValidObservation tables o := by
    intro o ho
    have hvalues : o ∈ (Dict.ofPairs (entry.2.map fun o => (o.childLabel, o))).values := mem_sortedObservations.mp ho
    have hofList : Dict.ofPairs (entry.2.map fun o => (o.childLabel, o)) = ofList (·.childLabel) entry.2 := by
      unfold Dict.ofPairs ofList
      rw [List.foldl_map]
    rw [hofList] at hvalues
    exact h o (hmember o (mem_values_ofList hvalues)).1
  simp only
  generalize sortedObservations _ = group at hdistinct ⊢
  split
  · exact hgroups
  · refine foldl_groups_valid _ ?_ (appendGroupIfNew_valid hgroups ⟨hparent, hdistinct⟩)
    intro cluster hcluster groups hgroups
    refine appendGroupIfNew_valid hgroups ⟨hparent, fun o ho => ?_⟩
    exact hdistinct o (mem_anchorClusters (List.mem_of_mem_take hcluster) o ho)

end Groups

/-! ## Slots -/

section Slots

variable {config : PatternEngineConfig} {column : List String} {value : String}

theorem mem_keys_counter (values : List String) : value ∈ (counter values).keys ↔ value ∈ values := by
  rw [Dict.mem_keys_iff, ← Option.ne_none_iff_exists']
  induction values using List.reverseRecOn with
  | nil => simp [counter]
  | append_singleton values last ih =>
    have hlast : counter (values ++ [last]) =
        (counter values).set last (((counter values).get? last).getD 0 + 1) := by
      unfold counter
      rw [List.foldl_append, List.foldl_cons, List.foldl_nil]
    rw [hlast, Dict.get?_set, List.mem_append, ← ih, List.mem_singleton]
    split
    next heq => simp [heq]
    next hne => simp [hne]

theorem mem_columnValues : value ∈ columnValues column ↔ value ∈ column := by
  have hkeys : value ∈ (counter column).keys ↔ value ∈ column := mem_keys_counter column
  rw [← hkeys]
  unfold columnValues Dict.keys
  rw [List.mem_map, List.mem_map]
  simp only [List.mem_insertionSort]

theorem classifyVariableColumn_ne_literal {columns : List (List String)} {index : ℕ} {kinds : List PatternSlotKind} :
    classifyVariableColumn config columns index kinds ≠ .literal := by
  unfold classifyVariableColumn
  simp only
  split_ifs <;> exact nofun

/-- What a slot says of its column. -/
structure SlotOf (index : ℕ) (column : List String) (slot : PatternSlot) : Prop where
  index : slot.index = index
  literal : slot.kind = .literal → ∃ value, slot.literal = some value ∧ ∀ other ∈ column, other = value
  values : slot.kind ≠ .literal → ∀ value, value ∈ slot.values ↔ value ∈ column
  distinct : slot.values.Nodup

theorem nodup_columnValues : (columnValues column).Nodup := by
  unfold columnValues
  exact ((List.perm_insertionSort _ _).map _).nodup_iff.mpr (counter column).nodup_keys

theorem inferSlot_spec {columns : List (List String)} {kinds : List PatternSlotKind} {index : ℕ} :
    SlotOf index column (inferSlot config columns kinds index column) := by
  unfold inferSlot
  simp only
  split
  next only hvalues =>
    refine ⟨rfl, fun _ => ⟨only, rfl, fun other hother => ?_⟩, fun hne => absurd rfl hne, List.nodup_singleton only⟩
    rw [← mem_columnValues, hvalues] at hother
    exact List.mem_singleton.mp hother
  next =>
    refine ⟨rfl, fun hliteral => ?_, fun _ value => mem_columnValues, nodup_columnValues⟩
    exfalso
    simp only at hliteral
    split_ifs at hliteral
    all_goals exact classifyVariableColumn_ne_literal hliteral

end Slots

/-! ## Patterns -/

section Patterns

variable {tables : Tables} {config : PatternEngineConfig} {log2 log1p : ℚ → ℚ} {sha256 : String → String}
  {pattern : NamingPattern} {group : PatternCandidateGroup} {rootDomain : String}

/-- **What a learned pattern looks like.** -/
structure LearnedPattern (tables : Tables) (pattern : NamingPattern) : Prop where
  parent : normalizeDnsName tables pattern.parentDomain = .ok pattern.parentDomain
  observed : observedTuples tables pattern ≠ []
  components : ∀ tuple ∈ observedTuples tables pattern, ∀ value ∈ tuple, IsComponent value
  index : ∀ (i : ℕ) (slot : PatternSlot), pattern.slots[i]? = some slot → slot.index = i
  literal : ∀ (i : ℕ) (slot : PatternSlot), pattern.slots[i]? = some slot → slot.kind = .literal →
    ∃ value, slot.literal = some value ∧ ∀ tuple ∈ observedTuples tables pattern, tuple[i]? = some value
  values : ∀ (i : ℕ) (slot : PatternSlot), pattern.slots[i]? = some slot → slot.kind ≠ .literal →
    ∀ value, value ∈ slot.values ↔ ∃ tuple ∈ observedTuples tables pattern, tuple[i]? = some value
  distinct : ∀ slot ∈ pattern.slots, slot.values.Nodup
  varies : variableIndexes pattern ≠ []

theorem inferNamingPattern_learned (hgroup : ValidGroup tables group)
    (h : inferNamingPattern config log2 log1p sha256 group rootDomain = some pattern) :
    LearnedPattern tables pattern := by
  unfold inferNamingPattern at h
  simp only at h
  split at h
  · cases h
  next hsupport =>
    split at h
    · cases h
    split at h
    · cases h
    next hsame =>
      generalize harity : (group.observations.head?.map (·.components.length)).getD 0 = arity at h hsame
      generalize hcolumns : (List.range arity).map (fun index =>
        group.observations.map fun o => o.components.getD index "") = columns at h
      generalize hslots : columns.mapIdx (inferSlot config columns (columns.map (classifyPreliminary config))) =
        slots at h
      split at h
      · cases h
      next hvariable =>
      split at h
      · cases h
      split at h
      · cases h
      split at h
      · cases h
      obtain rfl := Option.some.inj h
      have hlength : slots.length = arity := by
        rw [← hslots, List.length_mapIdx, ← hcolumns, List.length_map, List.length_range]
      have hcomponents : ∀ o ∈ group.observations, o.components.length = arity := by
        intro o ho
        by_contra hne
        exact hsame (List.any_eq_true.mpr ⟨o, ho, decide_eq_true hne⟩)
      have hobserved : ∀ tuple, (tuple ∈ (fromkeys ((group.observations.map (·.childLabel)).map
          (splitPatternLabel tables))).filter fun values => values.length = slots.length) ↔
            ∃ o ∈ group.observations, o.components = tuple := by
        intro tuple
        rw [List.mem_filter, mem_fromkeys, List.mem_map]
        constructor
        · rintro ⟨⟨label, hlabel, rfl⟩, -⟩
          obtain ⟨o, ho, rfl⟩ := List.mem_map.mp hlabel
          exact ⟨o, ho, ((hgroup.observations o ho).split).symm⟩
        · rintro ⟨o, ho, rfl⟩
          refine ⟨⟨o.childLabel, List.mem_map.mpr ⟨o, ho, rfl⟩, (hgroup.observations o ho).split⟩, ?_⟩
          exact decide_eq_true ((hcomponents o ho).trans hlength.symm)
      have hslot : ∀ (i : ℕ) (slot : PatternSlot), slots[i]? = some slot →
          SlotOf i (group.observations.map fun o => o.components.getD i "") slot ∧ i < arity := by
        intro i slot hget
        rw [← hslots, List.getElem?_mapIdx] at hget
        obtain ⟨column, hcolumn, rfl⟩ := Option.map_eq_some_iff.mp hget
        rw [← hcolumns, List.getElem?_map] at hcolumn
        obtain ⟨index, hindex, rfl⟩ := Option.map_eq_some_iff.mp hcolumn
        obtain ⟨hlt, heq⟩ := List.getElem?_eq_some_iff.mp hindex
        rw [List.getElem_range] at heq
        rw [List.length_range] at hlt
        subst heq
        exact ⟨inferSlot_spec, hlt⟩
      have hplace : ∀ i, i < arity → ∀ o ∈ group.observations, ∀ value,
          o.components.getD i "" = value ↔ o.components[i]? = some value := by
        intro i hi o ho value
        have hin : i < o.components.length := by rw [hcomponents o ho]; exact hi
        rw [List.getD_eq_getElem?_getD, List.getElem?_eq_getElem hin, Option.getD_some, Option.some.injEq]
      refine {
        parent := hgroup.parent
        observed := ?_
        components := ?_
        index := fun i slot hget => (hslot i slot hget).1.index
        literal := ?_
        values := ?_
        distinct := ?_
        varies := ?_ }
      · have hne : group.observations ≠ [] := by
          rintro hnil
          have hmin := config.minSupport_range.1
          rw [hnil, List.length_nil] at hsupport
          omega
        obtain ⟨o, ho⟩ := List.exists_mem_of_ne_nil _ hne
        exact List.ne_nil_of_mem ((hobserved o.components).mpr ⟨o, ho, rfl⟩)
      · intro tuple htuple
        obtain ⟨o, ho, rfl⟩ := (hobserved tuple).mp htuple
        exact (hgroup.observations o ho).components
      · intro i slot hget hkind
        obtain ⟨hslotOf, hi⟩ := hslot i slot hget
        obtain ⟨value, hvalue, hall⟩ := hslotOf.literal hkind
        refine ⟨value, hvalue, fun tuple htuple => ?_⟩
        obtain ⟨o, ho, rfl⟩ := (hobserved tuple).mp htuple
        exact (hplace i hi o ho value).mp (hall _ (List.mem_map.mpr ⟨o, ho, rfl⟩))
      · intro i slot hget hkind value
        obtain ⟨hslotOf, hi⟩ := hslot i slot hget
        rw [hslotOf.values hkind value, List.mem_map]
        constructor
        · rintro ⟨o, ho, heq⟩
          exact ⟨o.components, (hobserved _).mpr ⟨o, ho, rfl⟩, (hplace i hi o ho value).mp heq⟩
        · rintro ⟨tuple, htuple, heq⟩
          obtain ⟨o, ho, rfl⟩ := (hobserved tuple).mp htuple
          exact ⟨o, ho, (hplace i hi o ho value).mpr heq⟩
      · intro slot hmem
        obtain ⟨i, hget⟩ := List.mem_iff_getElem?.mp hmem
        exact (hslot i slot hget).1.distinct
      · unfold variableIndexes
        intro hnil
        have hcount : slots.countP (·.isVariable) = 0 := by
          rw [List.countP_eq_length_filter, List.map_eq_nil_iff.mp hnil, List.length_nil]
        exact hvariable (.inl hcount)

/-- Feedback changes the scores only. -/
theorem applyPatternFeedback_learned {feedback : PatternFeedback} (h : LearnedPattern tables pattern) :
    LearnedPattern tables (applyPatternFeedback log1p pattern feedback) :=
  ⟨h.parent, h.observed, h.components, h.index, h.literal, h.values, h.distinct, h.varies⟩

theorem mem_dedupeAndRankPatterns {patterns : List NamingPattern} (h : pattern ∈ dedupeAndRankPatterns patterns) :
    pattern ∈ patterns := by
  unfold dedupeAndRankPatterns at h
  simp only [List.mem_insertionSort] at h
  refine Dict.mem_values_foldl (fun best pattern kept hkept => ?_) h
  split at hkept
  · exact Dict.mem_values_set hkept
  · split at hkept
    · exact Dict.mem_values_set hkept
    · exact .inl hkept

/-- **Every pattern that is learned looks so.** -/
theorem patternsFor_learned {seedEvent : Event} {provided : List Event} {feedback : List PatternFeedback}
    {patterns : List NamingPattern}
    (h : patternsFor tables config log2 log1p sha256 seedEvent provided feedback = .ok patterns) :
    ∀ pattern ∈ patterns, LearnedPattern tables pattern := by
  obtain ⟨rootDomain, -, h⟩ := bind_ok h
  obtain ⟨observations, hobservations, h⟩ := bind_ok h
  cases h
  intro pattern hpattern
  obtain ⟨group, hgroup, hinferred⟩ := List.mem_filterMap.mp (mem_dedupeAndRankPatterns (List.mem_of_mem_take hpattern))
  obtain ⟨inferred, hpattern, hinferred⟩ := Option.bind_eq_some_iff.mp hinferred
  have hlearned := inferNamingPattern_learned
    (buildGroups_valid (collectConfirmed_valid hobservations) group hgroup) hpattern
  simp only at hinferred
  split at hinferred
  · split at hinferred
    · cases hinferred
    · obtain rfl := Option.some.inj hinferred
      exact hlearned
  · split at hinferred
    · cases hinferred
    · obtain rfl := Option.some.inj hinferred
      exact applyPatternFeedback_learned hlearned

end Patterns

end NightScout
