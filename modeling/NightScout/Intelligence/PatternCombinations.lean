import NightScout.Intelligence.LearnedPatterns

/-!
# The combinations that are considered

The first phase finds the missing combinations at distance one, the second the others, in the order of the product and
up to eight times the limit (`candidateComponents_eq`). Each is kept with its exact distance to the observations.
-/

namespace NightScout

open Lib

variable {tables : Tables} {config : PatternEngineConfig} {pattern : NamingPattern} {components tuple : List String}

/-- A combination of known values that was not observed. -/
structure Missing (tables : Tables) (pattern : NamingPattern) (components : List String) : Prop where
  length : components.length = pattern.slots.length
  known : ∀ (i : ℕ) (slot : PatternSlot), pattern.slots[i]? = some slot → ∃ value, components[i]? = some value ∧
    (slot.kind = .literal ∧ slot.literal = some value ∨ ∃ tuple ∈ observedTuples tables pattern, tuple[i]? = some value)
  unobserved : components ∉ observedTuples tables pattern

/-- The least distance to an observation. -/
def distanceTo (observed : List (List String)) (components : List String) : ℕ :=
  ((observed.map (hamming components)).min?).getD 0

theorem distanceTo_isLeast {observed : List (List String)} (hne : observed ≠ []) :
    IsLeast {d | ∃ tuple ∈ observed, hamming components tuple = d} (distanceTo observed components) := by
  obtain ⟨first, rest, rfl⟩ := List.exists_cons_of_ne_nil hne
  have hmin : ((first :: rest).map (hamming components)).min? =
      some (distanceTo (first :: rest) components) := rfl
  obtain ⟨hmem, hle⟩ := List.min?_eq_some_iff.mp hmin
  constructor
  · obtain ⟨tuple, htuple, heq⟩ := List.mem_map.mp hmem
    exact ⟨tuple, htuple, heq⟩
  · rintro d ⟨tuple, htuple, rfl⟩
    exact hle _ (List.mem_map.mpr ⟨tuple, htuple, rfl⟩)

theorem length_observed (htuple : tuple ∈ observedTuples tables pattern) : tuple.length = pattern.slots.length :=
  of_decide_eq_true (List.mem_filter.mp htuple).2

/-- The value of a place in an observation is known. -/
theorem known_observed (htuple : tuple ∈ observedTuples tables pattern) {i : ℕ} (hi : i < pattern.slots.length) :
    ∃ value, tuple[i]? = some value :=
  ⟨tuple.get ⟨i, by rw [length_observed htuple]; exact hi⟩, List.getElem?_eq_getElem _⟩

section Learned

variable (h : LearnedPattern tables pattern)

include h

/-- The domains of a learned pattern hold what was seen in each place. -/
theorem mem_valueDomains {i : ℕ} {domain : List String} (hdomain : (valueDomains pattern)[i]? = some domain)
    {value : String} : value ∈ domain ↔ ∃ tuple ∈ observedTuples tables pattern, tuple[i]? = some value := by
  unfold valueDomains at hdomain
  rw [List.getElem?_map] at hdomain
  obtain ⟨slot, hslot, rfl⟩ := Option.map_eq_some_iff.mp hdomain
  by_cases hkind : slot.kind = .literal
  · obtain ⟨literal, hliteral, hall⟩ := h.literal i slot hslot hkind
    rw [if_pos hkind, hliteral, Option.getD_some, List.mem_singleton]
    constructor
    · rintro rfl
      obtain ⟨tuple, htuple⟩ := List.exists_mem_of_ne_nil _ h.observed
      exact ⟨tuple, htuple, hall tuple htuple⟩
    · rintro ⟨tuple, htuple, hvalue⟩
      rw [hall tuple htuple] at hvalue
      exact (Option.some.inj hvalue).symm
  · rw [if_neg hkind]
    exact h.values i slot hslot hkind value

theorem missing_iff : Missing tables pattern components ↔
    components ∈ product (valueDomains pattern) ∧ components ∉ observedTuples tables pattern := by
  have hlength : (valueDomains pattern).length = pattern.slots.length := List.length_map _
  rw [mem_product, List.forall₂_iff_get]
  constructor
  · intro hmissing
    refine ⟨⟨hmissing.length.trans hlength.symm, fun i hi hi' => ?_⟩, hmissing.unobserved⟩
    have hslot : i < pattern.slots.length := hlength ▸ hi'
    obtain ⟨value, hvalue, hknown⟩ := hmissing.known i _ (List.getElem?_eq_getElem hslot)
    rw [List.getElem?_eq_getElem hi, Option.some.injEq] at hvalue
    rw [List.get_eq_getElem, List.get_eq_getElem, hvalue]
    refine (mem_valueDomains h (List.getElem?_eq_getElem hi')).mpr ?_
    rcases hknown with ⟨hkind, hliteral⟩ | hseen
    · obtain ⟨literal, hsame, hall⟩ := h.literal i _ (List.getElem?_eq_getElem hslot) hkind
      rw [hliteral] at hsame
      obtain rfl := Option.some.inj hsame
      obtain ⟨tuple, htuple⟩ := List.exists_mem_of_ne_nil _ h.observed
      exact ⟨tuple, htuple, hall tuple htuple⟩
    · exact hseen
  · rintro ⟨⟨hsame, hall⟩, hnot⟩
    refine ⟨hsame.trans hlength, fun i slot hslot => ?_, hnot⟩
    obtain ⟨hi, -⟩ := List.getElem?_eq_some_iff.mp hslot
    have hi' : i < (valueDomains pattern).length := hlength.symm ▸ hi
    have hc : i < components.length := hsame.symm ▸ hi'
    refine ⟨components[i], List.getElem?_eq_getElem hc, .inr ?_⟩
    exact (mem_valueDomains h (List.getElem?_eq_getElem hi')).mp (hall i hc hi')

theorem mem_variableIndexes {i : ℕ} : i ∈ variableIndexes pattern ↔
    ∃ slot, pattern.slots[i]? = some slot ∧ slot.kind ≠ .literal := by
  unfold variableIndexes
  rw [List.mem_map]
  constructor
  · rintro ⟨slot, hslot, rfl⟩
    obtain ⟨hmem, hvariable⟩ := List.mem_filter.mp hslot
    obtain ⟨j, hget⟩ := List.mem_iff_getElem?.mp hmem
    exact ⟨slot, by rw [h.index j slot hget]; exact hget, of_decide_eq_true hvariable⟩
  · rintro ⟨slot, hget, hkind⟩
    exact ⟨slot, List.mem_filter.mpr ⟨List.mem_of_getElem? hget, decide_eq_true hkind⟩, h.index i slot hget⟩

theorem distanceTo_ne_zero (hmissing : Missing tables pattern components) :
    1 ≤ distanceTo (observedTuples tables pattern) components := by
  have hleast : IsLeast {d | ∃ tuple ∈ observedTuples tables pattern, hamming components tuple = d}
      (distanceTo (observedTuples tables pattern) components) := distanceTo_isLeast h.observed
  obtain ⟨tuple, htuple, hdistance⟩ := hleast.1
  rw [Nat.one_le_iff_ne_zero, ← hdistance]
  intro hzero
  have hlength : components.length = tuple.length := hmissing.length.trans (length_observed htuple).symm
  rw [(hamming_eq_zero hlength).mp hzero] at hmissing
  exact hmissing.unobserved htuple

/-- **The first phase finds the missing combinations at distance one.** -/
theorem mem_mutations : components ∈ mutations tables pattern ↔
    Missing tables pattern components ∧ distanceTo (observedTuples tables pattern) components = 1 := by
  have hleast : IsLeast {d | ∃ tuple ∈ observedTuples tables pattern, hamming components tuple = d}
      (distanceTo (observedTuples tables pattern) components) := distanceTo_isLeast h.observed
  unfold mutations
  rw [List.mem_flatMap]
  constructor
  · rintro ⟨tuple, htuple, hmem⟩
    rw [mem_sortedSet] at htuple
    obtain ⟨i, hi, hmem⟩ := List.mem_flatMap.mp hmem
    obtain ⟨slot, hslot, hkind⟩ := (mem_variableIndexes h).mp hi
    rw [hslot] at hmem
    obtain ⟨value, hvalue, hcandidate⟩ := List.mem_filterMap.mp hmem
    simp only at hcandidate
    split at hcandidate
    · cases hcandidate
    next hne =>
      split at hcandidate
      · cases hcandidate
      next hunobserved =>
        obtain rfl := Option.some.inj hcandidate
        obtain ⟨hin, -⟩ := List.getElem?_eq_some_iff.mp hslot
        have hplace : i < tuple.length := by rw [length_observed htuple]; exact hin
        have hmissing : Missing tables pattern (tuple.set i value) := by
          refine ⟨by rw [List.length_set, length_observed htuple], fun j slot' hslot' => ?_, hunobserved⟩
          obtain ⟨hj, -⟩ := List.getElem?_eq_some_iff.mp hslot'
          by_cases hij : i = j
          · subst hij
            refine ⟨value, List.getElem?_set_self hplace, .inr ?_⟩
            exact (h.values i slot hslot hkind value).mp hvalue
          · obtain ⟨seen, hseen⟩ := known_observed htuple hj
            exact ⟨seen, by rw [List.getElem?_set_ne hij]; exact hseen, .inr ⟨tuple, htuple, hseen⟩⟩
        refine ⟨hmissing, le_antisymm ?_ (distanceTo_ne_zero h hmissing)⟩
        refine hleast.2 ⟨tuple, htuple, hamming_set hplace fun heq => hne ?_⟩
        rw [heq, List.getElem?_eq_getElem hplace]
  · rintro ⟨hmissing, hone⟩
    obtain ⟨tuple, htuple, hdistance⟩ := hleast.1
    have hlength : components.length = tuple.length := hmissing.length.trans (length_observed htuple).symm
    obtain ⟨i, hi, value, hne, rfl⟩ := hamming_eq_one hlength (hdistance.trans hone)
    have hin : i < pattern.slots.length := by rw [← length_observed htuple]; exact hi
    obtain ⟨known, hknown, hfrom⟩ := hmissing.known i _ (List.getElem?_eq_getElem hin)
    rw [List.getElem?_set_self hi, Option.some.injEq] at hknown
    subst hknown
    have hkind : pattern.slots[i].kind ≠ .literal := by
      intro hliteral
      obtain ⟨literal, hsame, hall⟩ := h.literal i _ (List.getElem?_eq_getElem hin) hliteral
      have hplace := hall tuple htuple
      rw [List.getElem?_eq_getElem hi, Option.some.injEq] at hplace
      rcases hfrom with ⟨-, hvalue⟩ | ⟨other, hother, hvalue⟩
      · rw [hsame, Option.some.injEq] at hvalue
        exact hne (hvalue ▸ hplace.symm)
      · rw [hall other hother, Option.some.injEq] at hvalue
        exact hne (hvalue ▸ hplace.symm)
    refine ⟨tuple, mem_sortedSet.mpr htuple, List.mem_flatMap.mpr ⟨i, (mem_variableIndexes h).mpr
      ⟨_, List.getElem?_eq_getElem hin, hkind⟩, ?_⟩⟩
    rw [List.getElem?_eq_getElem hin]
    refine List.mem_filterMap.mpr ⟨value, ?_, ?_⟩
    · refine (h.values i _ (List.getElem?_eq_getElem hin) hkind value).mpr ?_
      rcases hfrom with ⟨hliteral, -⟩ | hseen
      · exact absurd hliteral hkind
      · exact hseen
    · have hdiffer : some value ≠ tuple[i]? := by
        rw [List.getElem?_eq_getElem hi]
        exact fun heq => hne (Option.some.inj heq)
      simp only [if_neg hdiffer, if_neg hmissing.unobserved]

end Learned

/-! ## The phases -/

theorem firstPhase_entries (tables : Tables) (pattern : NamingPattern) :
    (firstPhase tables pattern).entries = (fromkeys (mutations tables pattern)).map fun candidate => (candidate, 1) := by
  unfold firstPhase
  induction mutations tables pattern using List.reverseRecOn with
  | nil => rfl
  | append_singleton candidates candidate ih =>
    rw [List.foldl_append, List.foldl_cons, List.foldl_nil, fromkeys_concat]
    generalize candidates.foldl _ _ = components at ih
    have hmem : ∀ d, (candidate, d) ∈ components.entries ↔ candidate ∈ fromkeys candidates ∧ d = 1 := by
      intro d
      rw [ih, List.mem_map]
      constructor
      · rintro ⟨c, hc, heq⟩
        obtain ⟨rfl, rfl⟩ := Prod.mk.inj heq
        exact ⟨hc, rfl⟩
      · rintro ⟨hc, rfl⟩
        exact ⟨candidate, hc, rfl⟩
    split
    next hold =>
      have hget : components.get? candidate = some 1 := Dict.mem_entries_iff.mp ((hmem 1).mpr ⟨hold, rfl⟩)
      rw [hget, Option.getD_some, min_self, Dict.set_get? hget, ih]
    next hnew =>
      have hget : components.get? candidate = none := by
        cases hget : components.get? candidate with
        | none => rfl
        | some d => exact absurd ((hmem d).mp (Dict.mem_entries_iff.mpr hget)).1 hnew
      have hmin : min (((none : Option ℕ)).getD (10 ^ 9)) 1 = 1 := by decide
      rw [hget, hmin, Dict.entries_set_none hget, ih, List.map_append]
      rfl

/-- The second phase continues with what is new, up to the limit. -/
theorem secondPhase_eq {observed : List (List String)} {limit : ℕ} (hne : observed ≠ [])
    {combinations : List (List String)} (hnodup : combinations.Nodup) {components : Dict (List String) ℕ}
    (hroom : components.keys.length < limit) : ∃ found, secondPhase observed limit combinations components = .ok found ∧
      found.entries = components.entries ++
        ((combinations.filter fun c => c ∉ observed ∧ c ∉ components.keys).take (limit - components.keys.length)).map
          fun c => (c, distanceTo observed c) := by
  induction combinations generalizing components with
  | nil => exact ⟨components, rfl, by simp⟩
  | cons candidate rest ih =>
    obtain ⟨hfirst, hrest⟩ := List.nodup_cons.mp hnodup
    unfold secondPhase
    split
    next hold =>
      rw [List.filter_cons_of_neg (by simpa [or_iff_not_imp_left] using hold)]
      exact ih hrest hroom
    next hnew =>
      obtain ⟨hobserved, hkey⟩ := not_or.mp hnew
      have hmin : (observed.map (hamming candidate)).min? = some (distanceTo observed candidate) := by
        obtain ⟨first, others, rfl⟩ := List.exists_cons_of_ne_nil hne
        rfl
      have hentries : (components.set candidate (distanceTo observed candidate)).entries =
          components.entries ++ [(candidate, distanceTo observed candidate)] :=
        Dict.entries_set_none (Dict.get?_eq_none_iff.mpr hkey)
      have hkeys : (components.set candidate (distanceTo observed candidate)).keys = components.keys ++ [candidate] := by
        unfold Dict.keys
        rw [hentries, List.map_append]
        rfl
      have hlength : (components.set candidate (distanceTo observed candidate)).keys.length =
          components.keys.length + 1 := by
        rw [hkeys, List.length_append, List.length_singleton]
      rw [hmin, List.filter_cons_of_pos (by simpa using ⟨hobserved, hkey⟩)]
      simp only
      split
      next hfull =>
        have hone : limit - components.keys.length = 1 := by omega
        refine ⟨_, rfl, ?_⟩
        rw [hentries, hone, List.take_succ_cons, List.take_zero]
        rfl
      next hmore =>
        obtain ⟨found, hfound, hall⟩ := ih hrest (not_le.mp hmore)
        refine ⟨found, hfound, ?_⟩
        have hsame : (rest.filter fun c => c ∉ observed ∧
            c ∉ (components.set candidate (distanceTo observed candidate)).keys) =
            rest.filter fun c => c ∉ observed ∧ c ∉ components.keys := by
          apply List.filter_congr
          intro c hc
          rw [hkeys]
          have hdiffer : c ≠ candidate := fun heq => hfirst (heq ▸ hc)
          simp [hdiffer]
        have hroom' : limit - components.keys.length =
            limit - (components.set candidate (distanceTo observed candidate)).keys.length + 1 := by omega
        rw [hall, hsame, hentries, hroom', List.take_succ_cons, List.map_cons, List.append_assoc]
        rfl

local instance lawfulCombinations : LawfulBEq (List String) := inferInstance

/-- The combinations that become candidates. -/
def consideredCombinations (tables : Tables) (config : PatternEngineConfig) (pattern : NamingPattern) :
    List (List String) :=
  let first := fromkeys (mutations tables pattern)
  if first.length < config.maxHypothesesPerPattern then
    first ++ ((product (valueDomains pattern)).filter fun c =>
      c ∉ observedTuples tables pattern ∧ c ∉ mutations tables pattern).take
        (config.maxHypothesesPerPattern * 8 - first.length)
  else first

section Considered

variable (h : LearnedPattern tables pattern)

include h

theorem nodup_valueDomains : ∀ domain ∈ valueDomains pattern, domain.Nodup := by
  intro domain hdomain
  unfold valueDomains at hdomain
  obtain ⟨slot, hslot, rfl⟩ := List.mem_map.mp hdomain
  split
  · exact List.nodup_singleton _
  · exact h.distinct slot hslot

/-- **The candidates**, each with its distance. -/
theorem candidateComponents_eq (config : PatternEngineConfig) : ∃ found, candidateComponents tables config pattern = .ok found ∧
    found.entries = (consideredCombinations tables config pattern).map fun c =>
      (c, distanceTo (observedTuples tables pattern) c) := by
  have hkeys : (firstPhase tables pattern).keys = fromkeys (mutations tables pattern) := by
    unfold Dict.keys
    rw [firstPhase_entries, List.map_map]
    exact List.map_id _
  have hfirst : (firstPhase tables pattern).entries = (fromkeys (mutations tables pattern)).map fun c =>
      (c, distanceTo (observedTuples tables pattern) c) := by
    rw [firstPhase_entries]
    apply List.map_congr_left
    intro c hc
    rw [((mem_mutations h).mp (mem_fromkeys.mp hc)).2]
  unfold candidateComponents consideredCombinations
  simp only [hkeys]
  split
  next hroom =>
    have hlimit : (firstPhase tables pattern).keys.length < config.maxHypothesesPerPattern * 8 := by
      rw [hkeys]
      omega
    obtain ⟨found, hfound, hentries⟩ :=
      secondPhase_eq h.observed (nodup_product (nodup_valueDomains h)) hlimit
    refine ⟨found, hfound, ?_⟩
    rw [hentries, hfirst, hkeys, List.map_append]
    simp only [mem_fromkeys]
  next => exact ⟨_, rfl, hfirst⟩

theorem nodup_considered : (consideredCombinations tables config pattern).Nodup := by
  unfold consideredCombinations
  simp only
  split
  next =>
    rw [List.nodup_append]
    refine ⟨nodup_fromkeys _, ((nodup_product (nodup_valueDomains h)).filter _).sublist (List.take_sublist _ _), ?_⟩
    rintro c hc c' hc' rfl
    have hnot := of_decide_eq_true (List.mem_filter.mp (List.mem_of_mem_take hc')).2
    exact hnot.2 (mem_fromkeys.mp hc)
  next => exact nodup_fromkeys _

/-- Only missing combinations are considered. -/
theorem considered_missing (hmem : components ∈ consideredCombinations tables config pattern) :
    Missing tables pattern components := by
  unfold consideredCombinations at hmem
  simp only at hmem
  have hfirst : components ∈ fromkeys (mutations tables pattern) → Missing tables pattern components :=
    fun hmem => ((mem_mutations h).mp (mem_fromkeys.mp hmem)).1
  split at hmem
  · rcases List.mem_append.mp hmem with hmem | hmem
    · exact hfirst hmem
    · obtain ⟨hproduct, hnot⟩ := List.mem_filter.mp (List.mem_of_mem_take hmem)
      exact (missing_iff h).mpr ⟨hproduct, (of_decide_eq_true hnot).1⟩
  · exact hfirst hmem

/-- All at distance one are considered. -/
theorem mutations_considered (hmem : components ∈ mutations tables pattern) :
    components ∈ consideredCombinations tables config pattern := by
  unfold consideredCombinations
  simp only
  split
  · exact List.mem_append_left _ (mem_fromkeys.mpr hmem)
  · exact mem_fromkeys.mpr hmem

/-- With enough room all missing combinations are considered. -/
theorem missing_considered (hroom : (product (valueDomains pattern)).length < config.maxHypothesesPerPattern)
    (hmissing : Missing tables pattern components) : components ∈ consideredCombinations tables config pattern := by
  have hsub : fromkeys (mutations tables pattern) ⊆ product (valueDomains pattern) := by
    intro c hc
    exact ((missing_iff h).mp ((mem_mutations h).mp (mem_fromkeys.mp hc)).1).1
  have hfew := ((nodup_fromkeys (mutations tables pattern)).subperm hsub).length_le
  have hall := List.length_filter_le (fun c => decide (c ∉ observedTuples tables pattern ∧ c ∉ mutations tables pattern))
    (product (valueDomains pattern))
  unfold consideredCombinations
  simp only
  rw [if_pos (by omega), List.mem_append, List.take_of_length_le (by omega), mem_fromkeys]
  by_cases hmem : components ∈ mutations tables pattern
  · exact .inl hmem
  · exact .inr (List.mem_filter.mpr
      ⟨((missing_iff h).mp hmissing).1, decide_eq_true ⟨hmissing.unobserved, hmem⟩⟩)

end Considered

end NightScout
