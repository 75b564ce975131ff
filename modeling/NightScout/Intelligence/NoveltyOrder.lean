import NightScout.Intelligence.Novelty

/-!
# What novelty grows and falls with

The more is known of a subject, the less novel it is, and a change more never makes it less so: what each factor leaves
open moves one way (`Lowers`). An assessment is made of every event whose subject can be named; a URL with a port that
is none has no subject key, since the port is read where its error is not caught (`novelty_sound_iff`).
-/

namespace NightScout

open Lib

/-! ## Factors that lower a score -/

section Lowers

variable {factors factors' more more' : List NoveltyFactor} {direction : NoveltyFactorDirection} {baseline : ℚ}

theorem strengths_append (direction : NoveltyFactorDirection) (factors more : List NoveltyFactor) :
    strengths direction (factors ++ more) = strengths direction factors ++ strengths direction more := by
  rw [strengths, List.filter_append, List.map_append, strengths, strengths]

/-- The second factors raise less than the first, and reduce more. -/
structure Lowers (factors factors' : List NoveltyFactor) : Prop where
  positive : leftOpen (strengths .positive factors) ≤ leftOpen (strengths .positive factors')
  negative : leftOpen (strengths .negative factors') ≤ leftOpen (strengths .negative factors)

theorem Lowers.refl (factors : List NoveltyFactor) : Lowers factors factors := ⟨le_rfl, le_rfl⟩

theorem Lowers.trans (h : Lowers factors factors') (h' : Lowers factors' more) : Lowers factors more :=
  ⟨h.positive.trans h'.positive, h'.negative.trans h.negative⟩

theorem Lowers.append (h : Lowers factors factors') (h' : Lowers more more') :
    Lowers (factors ++ more) (factors' ++ more') := by
  constructor
  · rw [strengths_append, strengths_append, leftOpen_append, leftOpen_append]
    exact mul_le_mul h.positive h'.positive (leftOpen_unit _).1 (leftOpen_unit _).1
  · rw [strengths_append, strengths_append, leftOpen_append, leftOpen_append]
    exact mul_le_mul h.negative h'.negative (leftOpen_unit _).1 (leftOpen_unit _).1

theorem Lowers.of_perm (h : factors.Perm factors') : Lowers factors factors' := by
  have hopen : ∀ direction, leftOpen (strengths direction factors) = leftOpen (strengths direction factors') :=
    fun direction => leftOpen_perm ((h.filter _).map _)
  exact ⟨(hopen _).le, (hopen _).ge⟩

theorem probabilityUnion_eq (values : List ℚ) : probabilityUnion values = 1 - leftOpen values :=
  clamp01_eq (leftOpen_unit values).compl

theorem noveltyScore_unit (baseline : ℚ) (factors : List NoveltyFactor) : IsUnit01 (noveltyScore baseline factors) :=
  clamp01_unit _

/-- **The score follows its factors.** -/
theorem Lowers.score_le (h : Lowers factors factors') (hbaseline : IsUnit01 baseline) :
    noveltyScore baseline factors' ≤ noveltyScore baseline factors := by
  unfold noveltyScore
  simp only [probabilityUnion_eq, sub_sub_cancel]
  have hrest : 0 ≤ 1 - baseline := hbaseline.compl.1
  have hraised : baseline + (1 - baseline) * (1 - leftOpen (strengths .positive factors')) ≤
      baseline + (1 - baseline) * (1 - leftOpen (strengths .positive factors)) := by
    have hopen := mul_le_mul_of_nonneg_left (sub_le_sub_left h.positive 1) hrest
    linarith
  have hnonneg : 0 ≤ baseline + (1 - baseline) * (1 - leftOpen (strengths .positive factors)) := by
    have hopen := mul_nonneg hrest (leftOpen_unit (strengths .positive factors)).compl.1
    linarith [hbaseline.1]
  exact clamp01_le (mul_le_mul hraised h.negative (leftOpen_unit _).1 hnonneg)

/-! ### Single factors -/

variable {kind kind' : NoveltyFactorKind} {weight weight' value value' : ℚ} {reason reason' : String}
  {metadata metadata' : Metadata} {hweight : IsUnit01 weight} {hweight' : IsUnit01 weight'}

theorem leftOpen_strength (hweight : IsUnit01 weight) :
    leftOpen [Lib.clamp01 (weight * Lib.clamp01 value)] = 1 - weight * Lib.clamp01 value := by
  have hunit : IsUnit01 (weight * Lib.clamp01 value) := hweight.mul (clamp01_unit value)
  rw [leftOpen_cons, clamp01_eq hunit, clamp01_eq hunit, leftOpen, List.map_nil, List.prod_nil, mul_one]

theorem positiveFactor_open :
    leftOpen (strengths .positive [positiveFactor kind weight value reason metadata hweight]) = 1 - weight * Lib.clamp01 value ∧
      leftOpen (strengths .negative [positiveFactor kind weight value reason metadata hweight]) = 1 :=
  ⟨leftOpen_strength hweight, rfl⟩

theorem negativeFactor_open :
    leftOpen (strengths .positive [negativeFactor kind weight value reason metadata hweight]) = 1 ∧
      leftOpen (strengths .negative [negativeFactor kind weight value reason metadata hweight]) = 1 - weight * Lib.clamp01 value :=
  ⟨rfl, leftOpen_strength hweight⟩

theorem Lowers.positive_le (h : weight' * Lib.clamp01 value' ≤ weight * Lib.clamp01 value) :
    Lowers [positiveFactor kind weight value reason metadata hweight]
      [positiveFactor kind' weight' value' reason' metadata' hweight'] := by
  constructor
  · rw [positiveFactor_open.1, positiveFactor_open.1]
    exact sub_le_sub_left h 1
  · rw [positiveFactor_open.2, positiveFactor_open.2]

theorem Lowers.negative_le (h : weight * Lib.clamp01 value ≤ weight' * Lib.clamp01 value') :
    Lowers [negativeFactor kind weight value reason metadata hweight]
      [negativeFactor kind' weight' value' reason' metadata' hweight'] := by
  constructor
  · rw [negativeFactor_open.1, negativeFactor_open.1]
  · rw [negativeFactor_open.2, negativeFactor_open.2]
    exact sub_le_sub_left h 1

theorem Lowers.drop_positive : Lowers [positiveFactor kind weight value reason metadata hweight] [] :=
  ⟨(leftOpen_unit _).2, positiveFactor_open.2.ge⟩

theorem Lowers.gain_negative : Lowers [] [negativeFactor kind weight value reason metadata hweight] :=
  ⟨negativeFactor_open.1.ge, (leftOpen_unit _).2⟩

end Lowers

/-! ## What is known of a subject -/

section Known

variable {logs : Logarithms} {cfg : NoveltyModelConfig} {history history' : NoveltyHistory}

theorem log_le {a b : ℕ} (h : a ≤ b) : Lib.clamp01 (logs.log1p (a : ℚ) / logs.log128) ≤ Lib.clamp01 (logs.log1p (b : ℚ) / logs.log128) := by
  have hcast : (a : ℚ) ≤ (b : ℚ) := by exact_mod_cast h
  exact clamp01_le (div_le_div_of_nonneg_right (logs.log1p_le _ _ (Nat.cast_nonneg a) hcast) logs.log128_pos.le)

theorem repetitionPenaltyValue_le {a b : ℕ} (h : a ≤ b) : repetitionPenaltyValue logs a ≤ repetitionPenaltyValue logs b := by
  unfold repetitionPenaltyValue
  split
  · split
    · exact le_rfl
    · exact (clamp01_unit _).1
  · rw [if_neg (by omega)]
    exact log_le (by omega)

theorem peerCommonness_le {a b pivot : ℕ} (h : a ≤ b) : peerCommonness logs a pivot ≤ peerCommonness logs b pivot := by
  unfold peerCommonness
  split
  · split
    · exact le_rfl
    · exact (clamp01_unit _).1
  · rw [if_neg (by omega)]
    exact log_le (by omega)

/-- Observations: from the first to a few, and from a few to many. -/
theorem observation_lowers (hweights : cfg.lowObservationWeight ≤ cfg.firstObservationWeight)
    (h : history.observationCount ≤ history'.observationCount) :
    Lowers (observationFactors logs cfg history) (observationFactors logs cfg history') := by
  have hlow : IsUnit01 cfg.lowObservationWeight := cfg.weights_unit _ (by simp)
  have hrepeated : IsUnit01 cfg.repeatedPenaltyWeight := cfg.weights_unit _ (by simp)
  unfold observationFactors
  by_cases hfirst : history.observationCount = 0
  · rw [if_pos hfirst]
    by_cases hfirst' : history'.observationCount = 0
    · rw [if_pos hfirst']
      exact .positive_le le_rfl
    rw [if_neg hfirst']
    by_cases hfew' : history'.observationCount ≤ 3
    · rw [if_pos hfew']
      refine .positive_le ?_
      rw [clamp01_eq isUnit01_one]
      exact mul_le_mul hweights (clamp01_unit _).2 (clamp01_unit _).1 (hlow.1.trans hweights)
    · rw [if_neg hfew']
      exact Lowers.drop_positive.trans .gain_negative
  rw [if_neg hfirst, if_neg (show history'.observationCount ≠ 0 by omega)]
  by_cases hfew : history.observationCount ≤ 3
  · rw [if_pos hfew]
    by_cases hfew' : history'.observationCount ≤ 3
    · rw [if_pos hfew']
      have hcast : (history.observationCount : ℚ) ≤ history'.observationCount := by exact_mod_cast h
      have hvalue : ((4 : ℚ) - history'.observationCount) / 3 ≤ (4 - history.observationCount) / 3 := by linarith
      exact .positive_le (mul_le_mul_of_nonneg_left (clamp01_le hvalue) hlow.1)
    · rw [if_neg hfew']
      exact Lowers.drop_positive.trans .gain_negative
  · rw [if_neg hfew, if_neg (show ¬ history'.observationCount ≤ 3 by omega)]
    exact .negative_le (mul_le_mul_of_nonneg_left (clamp01_le (repetitionPenaltyValue_le h)) hrepeated.1)

/-- Peers: from few to some, and from some to many. -/
theorem peer_lowers {known : Bool} {peers peers' rareUpTo pivot : ℕ} {rareKind commonKind : NoveltyFactorKind}
    {rareWeight commonWeight : ℚ} {rareReason commonReason : String} {hrare : IsUnit01 rareWeight}
    {hcommon : IsUnit01 commonWeight} (h : peers ≤ peers') :
    Lowers (peerFactors logs known peers rareUpTo pivot rareKind commonKind rareWeight commonWeight rareReason
        commonReason hrare hcommon)
      (peerFactors logs known peers' rareUpTo pivot rareKind commonKind rareWeight commonWeight rareReason commonReason
        hrare hcommon) := by
  unfold peerFactors
  by_cases hunknown : known = false
  · rw [if_pos hunknown, if_pos hunknown]
    exact .refl _
  rw [if_neg hunknown, if_neg hunknown]
  by_cases hfew : peers ≤ rareUpTo
  · rw [if_pos hfew]
    split
    · exact .positive_le le_rfl
    split
    · exact Lowers.drop_positive.trans .gain_negative
    · exact .drop_positive
  rw [if_neg hfew, if_neg (show ¬ peers' ≤ rareUpTo by omega)]
  by_cases hmany : pivot ≤ peers
  · rw [if_pos hmany, if_pos (show pivot ≤ peers' by omega)]
    exact .negative_le (mul_le_mul_of_nonneg_left (clamp01_le (peerCommonness_le h)) hcommon.1)
  · rw [if_neg hmany]
    split
    · exact .gain_negative
    · exact .refl _

theorem naming_lowers {frequency frequency' : ℚ} (hfrequency : history.namingFrequency = some frequency)
    (hfrequency' : history'.namingFrequency = some frequency') (h : frequency ≤ frequency') :
    Lowers (namingFactors cfg history) (namingFactors cfg history') := by
  have hrare : IsUnit01 cfg.rareNamingWeight := cfg.weights_unit _ (by simp)
  have hcommon : IsUnit01 cfg.commonNamingPenaltyWeight := cfg.weights_unit _ (by simp)
  unfold namingFactors
  rw [hfrequency, hfrequency']
  dsimp only
  by_cases hlow : frequency ≤ 2 / 25
  · rw [if_pos hlow]
    split
    · have hvalue : (2 / 25 - frequency') / (2 / 25) ≤ (2 / 25 - frequency) / (2 / 25) := by linarith
      exact .positive_le (mul_le_mul_of_nonneg_left (clamp01_le (clamp01_le hvalue)) hrare.1)
    split
    · exact Lowers.drop_positive.trans .gain_negative
    · exact .drop_positive
  rw [if_neg hlow, if_neg (show ¬ frequency' ≤ 2 / 25 from fun hle => hlow (h.trans hle))]
  by_cases hhigh : 11 / 20 ≤ frequency
  · rw [if_pos hhigh, if_pos (hhigh.trans h)]
    have hvalue : (frequency - 11 / 20) / (9 / 20) ≤ (frequency' - 11 / 20) / (9 / 20) := by linarith
    exact .negative_le (mul_le_mul_of_nonneg_left (clamp01_le (clamp01_le hvalue)) hcommon.1)
  · rw [if_neg hhigh]
    split
    · exact .gain_negative
    · exact .refl _

/-- A change more raises, if it is one that counts. -/
theorem change_lowers {upper : String → String} {changeType : String}
    (hchanges : history'.changeTypes = insert changeType history.changeTypes) :
    Lowers (changeFactors upper cfg history') (changeFactors upper cfg history) := by
  unfold changeFactors
  rw [hchanges]
  by_cases hmem : changeType ∈ history.changeTypes
  · rw [Finset.insert_eq_of_mem hmem]
    exact .refl _
  have hperm : (sortedTexts (insert changeType history.changeTypes)).Perm
      (changeType :: sortedTexts history.changeTypes) :=
    (Finset.sort_perm_toList _ _).trans ((Finset.toList_insert hmem).trans
      (List.Perm.cons _ (Finset.sort_perm_toList _ _).symm))
  refine (Lowers.of_perm (hperm.filterMap _)).trans ?_
  rw [List.filterMap_cons]
  split
  · exact .refl _
  next factor hfactor =>
    have hpositive : ∃ kind weight, ∃ hweight : IsUnit01 weight, factor = positiveFactor kind weight 1
        s!"snapshot/history reports {changeType}" (.ofPairs [("change_type", .string changeType)]) hweight := by
      unfold changeFactor at hfactor
      split at hfactor
      · cases hfactor
      · obtain ⟨kind, -, rfl⟩ := Option.map_eq_some_iff.mp hfactor
        exact ⟨kind, _, _, rfl⟩
    obtain ⟨kind, weight, hweight, rfl⟩ := hpositive
    have hdropped : Lowers ([positiveFactor kind weight 1 s!"snapshot/history reports {changeType}"
        (.ofPairs [("change_type", .string changeType)]) hweight] ++
          (sortedTexts history.changeTypes).filterMap (changeFactor upper cfg))
        ([] ++ (sortedTexts history.changeTypes).filterMap (changeFactor upper cfg)) :=
      Lowers.append .drop_positive (.refl _)
    exact hdropped

end Known

/-- The second history differs in knowing more of one kind. -/
inductive MoreKnown : NoveltyHistory → NoveltyHistory → Prop
  | observed (history : NoveltyHistory) (count : ℕ) (h : history.observationCount ≤ count) : MoreKnown history
      { history with
        observationCount := count
        counts := ⟨history.counts.1.trans h, history.counts.2.trans h⟩ }
  | fingerprint (history : NoveltyHistory) (count : ℕ) (h : history.fingerprintPeerCount ≤ count) :
      MoreKnown history { history with fingerprintPeerCount := count }
  | technology (history : NoveltyHistory) (count : ℕ) (h : history.technologyPeerCount ≤ count) :
      MoreKnown history { history with technologyPeerCount := count }
  | naming (history : NoveltyHistory) (frequency frequency' : ℚ) (hknown : history.namingFrequency = some frequency)
      (h : frequency ≤ frequency') (hunit : ∀ f ∈ some frequency', IsUnit01 f) :
      MoreKnown history { history with namingFrequency := some frequency', naming_unit := hunit }

section Sound

variable {logs : Logarithms} {tables : Tables} {texts : PyTexts} {upper : String → String} {showScore : ℚ → String}
  {cfg : NoveltyModelConfig} {event : Event} {history history' : NoveltyHistory}

theorem MoreKnown.lowers (h : MoreKnown history history')
    (hweights : cfg.lowObservationWeight ≤ cfg.firstObservationWeight) :
    Lowers (noveltyFactors logs tables texts upper cfg event history)
      (noveltyFactors logs tables texts upper cfg event history') := by
  have hbaseline : Lowers [baselineFactor cfg event] [baselineFactor cfg event] := .refl _
  cases h with
  | observed count h =>
    refine hbaseline.append (.append (.append (.append (.append (.append (.append (.append ?_ ?_) ?_) ?_) ?_) ?_) ?_) ?_)
    · exact observation_lowers hweights h
    all_goals exact .refl _
  | fingerprint count h =>
    refine hbaseline.append (.append (.append (.append (.append (.append (.append (.append ?_ ?_) ?_) ?_) ?_) ?_) ?_) ?_)
    case refine_5 => exact peer_lowers h
    all_goals exact .refl _
  | technology count h =>
    refine hbaseline.append (.append (.append (.append (.append (.append (.append (.append ?_ ?_) ?_) ?_) ?_) ?_) ?_) ?_)
    case refine_6 => exact peer_lowers h
    all_goals exact .refl _
  | naming frequency frequency' hknown h hunit =>
    refine hbaseline.append (.append (.append (.append (.append (.append (.append (.append ?_ ?_) ?_) ?_) ?_) ?_) ?_) ?_)
    case refine_7 => exact naming_lowers hknown rfl h
    all_goals exact .refl _

theorem change_lowers_factors (changeType : String) : Lowers (noveltyFactors logs tables texts upper cfg event
        { history with changeTypes := insert changeType history.changeTypes })
      (noveltyFactors logs tables texts upper cfg event history) := by
  have hbaseline : Lowers [baselineFactor cfg event] [baselineFactor cfg event] := .refl _
  refine hbaseline.append (.append (.append (.append (.append (.append (.append (.append ?_ ?_) ?_) ?_) ?_) ?_) ?_) ?_)
  case refine_3 => exact change_lowers rfl
  all_goals exact .refl _

/-! ## The subject -/

/-- Where the subject is a URL, its port can be read. -/
def PortReads (tables : Tables) (event : Event) : Prop :=
  event.type ∈ [.url, .apiEndpoint, .javascript, .httpService] → ∀ parts, urlsplit tables (strip event.value) = .ok parts →
    IsHttp parts.scheme → parts.hostname tables ≠ none → ∃ port, parts.port = .ok port

theorem canonicalHttpUrl_isOk {value : String} : (∃ url, canonicalHttpUrl tables value = .ok url) ↔
    ∀ parts, urlsplit tables value = .ok parts → IsHttp parts.scheme → parts.hostname tables ≠ none →
      ∃ port, parts.port = .ok port := by
  unfold canonicalHttpUrl
  cases hsplit : urlsplit tables value with
  | error e => exact iff_of_true ⟨none, rfl⟩ fun parts hparts => absurd hparts (by simp)
  | ok parts =>
    simp only [Except.ok.injEq, forall_eq']
    by_cases hscheme : IsHttp parts.scheme
    · have hnot : ¬ (parts.scheme ≠ "http" ∧ parts.scheme ≠ "https") := fun h => hscheme.elim h.1 h.2
      rw [if_neg hnot]
      cases parts.hostname tables with
      | none => exact iff_of_true ⟨none, rfl⟩ fun _ h => absurd rfl h
      | some rawHost =>
        cases parts.port with
        | error e => simpa [bind, Except.bind] using hscheme
        | ok port => exact iff_of_true ⟨_, rfl⟩ fun _ _ => ⟨port, rfl⟩
    · have hnot : parts.scheme ≠ "http" ∧ parts.scheme ≠ "https" :=
        ⟨fun h => hscheme (.inl h), fun h => hscheme (.inr h)⟩
      rw [if_pos hnot]
      exact iff_of_true ⟨none, rfl⟩ fun h => absurd h hscheme

theorem noveltySubjectKey_isOk : (∃ key, noveltySubjectKey tables event = .ok key) ↔ PortReads tables event := by
  unfold noveltySubjectKey PortReads
  simp only
  split
  next hname =>
    refine iff_of_true ⟨_, rfl⟩ fun hurl => ?_
    simp only [List.mem_cons, List.not_mem_nil, or_false] at hname hurl
    rcases hname with h | h <;> simp [h] at hurl
  split
  next hurl =>
    rw [← canonicalHttpUrl_isOk]
    constructor
    · rintro ⟨key, hkey⟩ -
      obtain ⟨url, hok, -⟩ := bind_ok hkey
      exact ⟨url, hok⟩
    · intro h
      obtain ⟨url, hok⟩ := h hurl
      exact ⟨_, by rw [hok]; rfl⟩
  next hurl => exact iff_of_true ⟨_, rfl⟩ fun h => absurd h hurl

theorem assessNovelty_ok {a : NoveltyAssessment}
    (h : assessNovelty logs tables texts upper showScore event history cfg = .ok a) :
    a.novelty = noveltyScore (baselineOf cfg event) (noveltyFactors logs tables texts upper cfg event history) := by
  obtain ⟨key, -, h⟩ := bind_ok h
  obtain ⟨-, h⟩ := guard_ok h
  rw [← Except.ok.inj h]

theorem assessNovelty_isOk {key : String} (hkey : noveltySubjectKey tables event = .ok key)
    (hsubject : history.subjectKey.text = key) :
    ∃ a, assessNovelty logs tables texts upper showScore event history cfg = .ok a := by
  have hsame : ¬ history.subjectKey.text ≠ key := not_not.mpr hsubject
  rw [assessNovelty, hkey, ok_bind, if_neg hsame]
  exact ⟨_, rfl⟩

/-- Novelty is total, from 0 to 1, falls with what is known and does not fall with a change more. -/
structure NoveltySound (logs : Logarithms) (tables : Tables) (texts : PyTexts) (upper : String → String)
    (showScore : ℚ → String) (event : Event) : Prop where
  total : ∃ key, noveltySubjectKey tables event = .ok key ∧ ∀ (history : NoveltyHistory) (cfg : NoveltyModelConfig),
    history.subjectKey.text = key → cfg.lowObservationWeight ≤ cfg.firstObservationWeight →
      ∃ a, assessNovelty logs tables texts upper showScore event history cfg = .ok a ∧ IsUnit01 a.novelty
  known : ∀ (cfg : NoveltyModelConfig) (history history' : NoveltyHistory) (a a' : NoveltyAssessment),
    cfg.lowObservationWeight ≤ cfg.firstObservationWeight → MoreKnown history history' →
    assessNovelty logs tables texts upper showScore event history cfg = .ok a →
    assessNovelty logs tables texts upper showScore event history' cfg = .ok a' → a'.novelty ≤ a.novelty
  changed : ∀ (cfg : NoveltyModelConfig) (history : NoveltyHistory) (changeType : String) (a a' : NoveltyAssessment),
    cfg.lowObservationWeight ≤ cfg.firstObservationWeight →
    assessNovelty logs tables texts upper showScore event history cfg = .ok a →
    assessNovelty logs tables texts upper showScore event
      { history with changeTypes := insert changeType history.changeTypes } cfg = .ok a' → a.novelty ≤ a'.novelty

/-- **Novelty is sound exactly for the events whose port can be read.** -/
theorem novelty_sound_iff (logs : Logarithms) (tables : Tables) (texts : PyTexts) (upper : String → String)
    (showScore : ℚ → String) (event : Event) :
    NoveltySound logs tables texts upper showScore event ↔ PortReads tables event := by
  rw [← noveltySubjectKey_isOk]
  constructor
  · intro h
    obtain ⟨key, hkey, -⟩ := h.total
    exact ⟨key, hkey⟩
  · rintro ⟨key, hkey⟩
    refine ⟨⟨key, hkey, ?_⟩, ?_, ?_⟩
    · intro history cfg hsubject _
      obtain ⟨a, ha⟩ : ∃ a, assessNovelty logs tables texts upper showScore event history cfg = .ok a :=
        assessNovelty_isOk hkey hsubject
      refine ⟨a, ha, ?_⟩
      rw [assessNovelty_ok ha]
      exact noveltyScore_unit _ _
    · intro cfg history history' a a' hweights hknown ha ha'
      rw [assessNovelty_ok ha, assessNovelty_ok ha']
      exact (hknown.lowers hweights).score_le (baselineOf_unit cfg event)
    · intro cfg history changeType a a' _ ha ha'
      rw [assessNovelty_ok ha, assessNovelty_ok ha']
      exact (change_lowers_factors changeType).score_le (baselineOf_unit cfg event)

end Sound

/-! ## A port that is none -/

theorem unit_log_pos : (0 : ℚ) < 1 := one_pos

def unitLogarithms : Logarithms where
  log1p := id
  log128 := 1
  log1p_le := fun _ _ _ h => h
  log128_pos := unit_log_pos

def strangePortEvent : Event where
  eventId := "evt_port"
  type := .url
  value := "https://example.com:99999/"
  source := { text := "archives" }
  firstSeen := 0
  lastSeen := 0

/-- A URL with a port out of range has no subject key. -/
theorem strange_port_has_no_novelty :
    ¬ NoveltySound unitLogarithms plainTables plainTexts id (fun _ => "") strangePortEvent := by
  intro h
  obtain ⟨key, hkey, -⟩ := h.total
  have hraised : (noveltySubjectKey plainTables strangePortEvent).isOk = false := by decide +kernel
  rw [hkey] at hraised
  cases hraised

end NightScout
