import NightScout.Core.JsonFields
import NightScout.Intelligence.CpeNames
import NightScout.Lib.OrderedSets
import NightScout.Surface.Identity

/-!
# CVE records

`parse_nvd_cve` and the parsers it uses, of `recon/intelligence/vulnerabilities.py`. What was given in the wrong type is
mostly ignored. It raises in three places: a record that is no object has no `get`, a date that is no text no `strip`,
and a score may be too large for a `float` (`parseNvdCve_error_iff`).
-/

namespace NightScout

open Lib

/-! ## What is parsed -/

structure CpeCandidate where
  cpeName : String
  part : CpePart
  vendor : String
  product : String
  version : String
  title : Option String := none
  cpeNameId : Option String := none
  deprecated : Bool := false
  syntheticVersion : Bool := false
  score : ℚ
  confidence : ℚ
  reasons : List String := []
  cpeName_valid : (splitCpe23 cpeName).isSome
  score_unit : 0 ≤ score ∧ score ≤ 1
  confidence_unit : 0 ≤ confidence ∧ confidence ≤ 1

structure CvssSummary where
  version : String
  baseScore : Option ℚ := none
  baseSeverity : Option String := none
  vector : Option String := none
  source : Option String := none
  metricType : Option String := none
  baseScore_range : ∀ score, baseScore = some score → 0 ≤ score ∧ score ≤ 10

structure CveReference where
  url : String
  source : Option String := none
  tags : List String := []

/-- `_CVE_ID_RE.fullmatch`. -/
def isCveId (value : String) : Bool :=
  match value.toList with
  | c :: v :: e :: '-' :: digits =>
    (c = 'C' || c = 'c') && (v = 'V' || v = 'v') && (e = 'E' || e = 'e') && (digits.take 4).length = 4 &&
      (digits.take 4).all Char.isDigit && digits[4]? = some '-' && 4 ≤ (digits.drop 5).length &&
      (digits.drop 5).all Char.isDigit
  | _ => false

structure CveCandidate where
  cveId : String
  matchedCpe : String
  cpeScore : ℚ
  description : Option String := none
  published : Option Instant := none
  lastModified : Option Instant := none
  vulnStatus : Option String := none
  cvss : Option CvssSummary := none
  cwes : List String := []
  references : List CveReference := []
  knownExploited : Bool := false
  cisaExploitAdd : Option Instant := none
  cisaActionDue : Option Instant := none
  sourceIdentifier : Option String := none
  metadata : Metadata := .empty
  cveId_valid : isCveId cveId = true
  cpeScore_unit : 0 ≤ cpeScore ∧ cpeScore ≤ 1

/-! ## The parsers -/

section Parsers

variable (lib : IdentityLib) (texts : PyTexts)

/-- The `Z` of a text as an offset. -/
def isoText (text : String) : String :=
  if text.toList.getLast? = some 'Z' then String.ofList text.toList.dropLast ++ "+00:00" else text

/-- `normalized_datetime`, of a JSON value. -/
def normalizedDatetime : JsonValue → Except PyError (Option Instant)
  | .null => .ok none
  | .string value =>
    let text := strip value
    if text = "" then .ok none
    else
      match texts.fromisoformat (isoText text) with
      | none => .ok none
      | some (time, offset) =>
        -- a time without an offset is in UTC
        let utc := time - offset.getD 0
        if minInstant ≤ utc ∧ utc ≤ maxInstant then .ok (some utc)
        else .error (.overflowError "date value out of range")
  | _ => .error (.exception "AttributeError: object has no attribute 'strip'")

/-- `" ".join(raw.strip().split())`. -/
def joinedWords (value : String) : String := " ".intercalate (splitSpaces (strip value))

/-- The loop of `preferred_english_description`. -/
def preferredEnglish : List JsonValue → Option String → Option String
  | [], fallback => fallback
  | .object item :: rest, fallback =>
    match field item "value" with
    | .string raw =>
      let text := joinedWords raw
      if text = "" then preferredEnglish rest fallback
      else if ['e', 'n'] <+: (strLower lib.toTables (texts.str ((Dict.ofPairs item).get? "lang" |>.getD (.string "")))).toList then
        some text
      else preferredEnglish rest (fallback <|> some text)
    | _ => preferredEnglish rest fallback
  | _ :: rest, fallback => preferredEnglish rest fallback

def preferredEnglishDescription : JsonValue → Option String
  | .array items => preferredEnglish lib texts items none
  | _ => none

/-- The tags of a reference. -/
def referenceTags : JsonValue → List String
  | .array tags => sortedSet id ((tags.map fun tag => strip (texts.str tag)).filter (· ≠ ""))
  | _ => []

/-- The loop of `parse_references`. -/
def collectReferences (limit : ℕ) : List JsonValue → List CveReference → List CveReference
  | [], result => result
  | item :: rest, result =>
    if result.length ≥ limit then result
    else
      match item with
      | .object entries =>
        match field entries "url" with
        | .string url =>
          if ("https://".toList <+: url.toList ∨ "http://".toList <+: url.toList) ∧ url ∉ result.map (·.url) then
            collectReferences limit rest (result ++ [{
              url, source := texts.optionalStr (field entries "source"), tags := referenceTags texts (field entries "tags") }])
          else collectReferences limit rest result
        | _ => collectReferences limit rest result
      | _ => collectReferences limit rest result

def parseReferences (limit : ℕ) : JsonValue → List CveReference
  | .array items => if limit = 0 then [] else collectReferences texts limit items []
  | _ => []

/-- The names of the weaknesses in one entry. -/
def weaknessNames : JsonValue → List String
  | .object entries =>
    match field entries "description" with
    | .array descriptions => descriptions.filterMap fun description =>
        match description with
        | .object entries =>
          match field entries "value" with
          | .string raw =>
            let normalized := strUpper lib (strip raw)
            if "CWE-".toList <+: normalized.toList then some normalized else none
          | _ => none
        | _ => none
    | _ => []
  | _ => []

def parseCwes : JsonValue → List String
  | .array weaknesses => sortedSet id (weaknesses.flatMap (weaknessNames lib))
  | _ => []

/-- A metric with its data and version, if it has them. -/
def readMetric (metric : List (String × JsonValue)) :
    Option (List (String × JsonValue) × List (String × JsonValue) × String) :=
  match field metric "cvssData" with
  | .object data =>
    match field data "version" with
    | .string version => some (metric, data, version)
    | _ => none
  | _ => none

/-- The metrics under a key, the primary ones first. -/
def orderedMetrics : JsonValue → List (List (String × JsonValue))
  | .array metrics =>
    let objects := metrics.filterMap fun metric =>
      match metric with
      | .object entries => some entries
      | _ => none
    let primary := fun (metric : List (String × JsonValue)) =>
      strLower lib.toTables (texts.str (((Dict.ofPairs metric).get? "type").getD (.string ""))) = "primary"
    objects.filter primary ++ objects.filter fun metric => ¬ primary metric
  | _ => []

/-- The metric that the loops of `parse_best_cvss` stop at. -/
def bestMetric (metrics : List (String × JsonValue)) :
    Option (List (String × JsonValue) × List (String × JsonValue) × String) :=
  (["cvssMetricV40", "cvssMetricV31", "cvssMetricV30", "cvssMetricV2"].flatMap fun key =>
    orderedMetrics lib texts (field metrics key)).findSome? readMetric

theorem filter_range (score : Option ℚ) :
    ∀ kept, score.filter (fun score => 0 ≤ score ∧ score ≤ 10) = some kept → 0 ≤ kept ∧ kept ≤ 10 :=
  fun _ h => of_decide_eq_true (Option.filter_eq_some_iff.mp h).2

/-- `CvssSummary`, of a metric. -/
def cvssSummary (metric data : List (String × JsonValue)) (version : String) (score : Option ℚ) : CvssSummary where
  version
  baseScore := score.filter fun score => 0 ≤ score ∧ score ≤ 10
  baseSeverity := texts.optionalStr ((field data "baseSeverity").orElse (field metric "baseSeverity"))
  vector := texts.optionalStr (field data "vectorString")
  source := texts.optionalStr (field metric "source")
  metricType := texts.optionalStr (field metric "type")
  baseScore_range := filter_range score

def parseBestCvss : JsonValue → Except PyError (Option CvssSummary)
  | .object metrics =>
    match bestMetric lib texts metrics with
    | none => .ok none
    | some (metric, data, version) => do
      let score ← safeFloat texts (field data "baseScore")
      return some (cvssSummary texts metric data version score)
  | _ => .ok none

/-- The id of a CVE in its normal form. -/
def cveIdOf (id : String) : String := String.ofList ((strip id).toList.map Char.toUpper)

/-- A digit is no letter. -/
theorem toUpper_of_isDigit {c : Char} (h : c.isDigit = true) : c.toUpper = c := by
  have hcode := isDigit_iff.mp h
  exact toUpper_of_not_lower (by omega)

theorem isCveId_cveIdOf {id : String} (h : isCveId (strip id) = true) : isCveId (cveIdOf id) = true := by
  unfold cveIdOf
  unfold isCveId at h ⊢
  split at h
  next c v e digits heq =>
    simp only [Bool.and_eq_true, Bool.or_eq_true, decide_eq_true_eq] at h
    obtain ⟨⟨⟨⟨⟨⟨⟨hc, hv⟩, he⟩, hyear⟩, hdigits⟩, hhyphen⟩, hlong⟩, hrest⟩ := h
    have hupper : ∀ c ∈ digits, c.toUpper = c := by
      intro c hmem
      rw [← List.take_append_drop 4 digits, List.mem_append] at hmem
      rcases hmem with hmem | hmem
      · exact toUpper_of_isDigit (List.all_eq_true.mp hdigits c hmem)
      · obtain ⟨hfour, hget⟩ := List.getElem?_eq_some_iff.mp hhyphen
        rw [List.drop_eq_getElem_cons hfour, hget] at hmem
        rcases List.mem_cons.mp hmem with rfl | hmem
        · rfl
        · exact toUpper_of_isDigit (List.all_eq_true.mp hrest c hmem)
    have hsame : digits.map Char.toUpper = digits := (List.map_congr_left hupper).trans (List.map_id digits)
    have hletters : c.toUpper = 'C' ∧ v.toUpper = 'V' ∧ e.toUpper = 'E' := by
      rcases hc with rfl | rfl <;> rcases hv with rfl | rfl <;> rcases he with rfl | rfl <;> decide
    have hhyphen' : Char.toUpper '-' = '-' := by decide
    rw [String.toList_ofList, heq]
    simp only [List.map_cons, hsame, hletters, hhyphen']
    simp only [Bool.and_eq_true, Bool.or_eq_true, decide_eq_true_eq]
    exact ⟨⟨⟨⟨⟨⟨⟨.inl trivial, .inl trivial⟩, .inl trivial⟩, hyear⟩, hdigits⟩, hhyphen⟩, hlong⟩, hrest⟩
  next => cases h

/-- `known_exploited` and the other fields of the CVE that is returned. -/
def cveCandidate (candidate : CpeCandidate) (maxReferences : ℕ) (raw : List (String × JsonValue)) (id : String)
    (cvss : Option CvssSummary) (exploitAdd actionDue published lastModified : Option Instant)
    (hid : isCveId (strip id) = true) : CveCandidate where
  cveId := cveIdOf id
  matchedCpe := candidate.cpeName
  cpeScore := candidate.score
  description := preferredEnglishDescription lib texts (field raw "descriptions")
  published
  lastModified
  vulnStatus := texts.optionalStr (field raw "vulnStatus")
  cvss
  cwes := parseCwes lib (field raw "weaknesses")
  references := parseReferences texts maxReferences (field raw "references")
  knownExploited := exploitAdd.isSome || actionDue.isSome || (field raw "cisaRequiredAction").truthy
  cisaExploitAdd := exploitAdd
  cisaActionDue := actionDue
  sourceIdentifier := texts.optionalStr (field raw "sourceIdentifier")
  metadata := .ofPairs [
    ("cisa_required_action", field raw "cisaRequiredAction"),
    ("cisa_vulnerability_name", field raw "cisaVulnerabilityName"),
    ("nvd_cpe_candidate_confidence", .float candidate.confidence),
    ("nvd_cpe_candidate_synthetic_version", .bool candidate.syntheticVersion)]
  cveId_valid := isCveId_cveIdOf hid
  cpeScore_unit := candidate.score_unit

/-- `parse_nvd_cve`, of a CVE with an id. -/
def parseCve (candidate : CpeCandidate) (maxReferences : ℕ) (raw : List (String × JsonValue)) (id : String)
    (hid : isCveId (strip id) = true) : Except PyError (Option CveCandidate) := do
  let cvss ← parseBestCvss lib texts (field raw "metrics")
  let exploitAdd ← normalizedDatetime texts (field raw "cisaExploitAdd")
  let actionDue ← normalizedDatetime texts (field raw "cisaActionDue")
  let published ← normalizedDatetime texts (field raw "published")
  let lastModified ← normalizedDatetime texts (field raw "lastModified")
  return some (cveCandidate lib texts candidate maxReferences raw id cvss exploitAdd actionDue published lastModified hid)

def parseNvdCve (candidate : CpeCandidate) (maxReferences : ℕ) : JsonValue → Except PyError (Option CveCandidate)
  | .object record =>
    match field record "cve" with
    | .object raw =>
      match field raw "id" with
      | .string id =>
        if hid : isCveId (strip id) = true then parseCve lib texts candidate maxReferences raw id hid else .ok none
      | _ => .ok none
    | _ => .ok none
  | _ => .error (.exception "AttributeError: object has no attribute 'get'")

end Parsers

/-! ## When a record is parsed -/

section Reading

variable {lib : IdentityLib} {texts : PyTexts} {candidate : CpeCandidate} {maxReferences : ℕ} {record : JsonValue}

/-- A date that `normalized_datetime` can take: nothing, or a text, which has to be within the calendar if it is a time. -/
def ReadableDate (texts : PyTexts) : JsonValue → Prop
  | .null => True
  | .string value => strip value = "" ∨ ∀ time offset, texts.fromisoformat (isoText (strip value)) = some (time, offset) →
      minInstant ≤ time - offset.getD 0 ∧ time - offset.getD 0 ≤ maxInstant
  | _ => False

theorem normalizedDatetime_ok_iff {value : JsonValue} :
    (∃ date, normalizedDatetime texts value = .ok date) ↔ ReadableDate texts value := by
  cases value with
  | null => simp [normalizedDatetime, ReadableDate]
  | string value =>
    by_cases hempty : strip value = ""
    · simp [normalizedDatetime, ReadableDate, hempty]
    · simp only [normalizedDatetime, ReadableDate, hempty, if_false, false_or]
      cases texts.fromisoformat (isoText (strip value)) with
      | none => simp
      | some read =>
        obtain ⟨time, offset⟩ := read
        constructor
        · rintro ⟨date, h⟩ time' offset' heq
          obtain ⟨rfl, rfl⟩ := Prod.mk.inj (Option.some.inj heq)
          by_contra hrange
          simp only [if_neg hrange] at h
          cases h
        · intro hrange
          exact ⟨_, if_pos (hrange time offset rfl)⟩
  | _ => simp [normalizedDatetime, ReadableDate]

/-- A score that `float` can take. -/
def ReadableScore (value : JsonValue) : Prop := ∀ n : ℤ, value = .int n → n.natAbs < floatLimit

theorem safeFloat_ok_iff {value : JsonValue} : (∃ score, safeFloat texts value = .ok score) ↔ ReadableScore value := by
  cases value with
  | int n =>
    by_cases hlt : n.natAbs < floatLimit <;> simp [safeFloat, ReadableScore, hlt]
  | _ => simp [safeFloat, ReadableScore]

/-- The CVE of a record, if it has one with an id. -/
def cveOf : JsonValue → Option (List (String × JsonValue) × String)
  | .object record =>
    match field record "cve" with
    | .object raw =>
      match field raw "id" with
      | .string id => if isCveId (strip id) = true then some (raw, id) else none
      | _ => none
    | _ => none
  | _ => none

/-- What of a CVE is not merely ignored when it is wrong. -/
structure ReadableCve (lib : IdentityLib) (texts : PyTexts) (raw : List (String × JsonValue)) : Prop where
  dates : ∀ key ∈ ["cisaExploitAdd", "cisaActionDue", "published", "lastModified"], ReadableDate texts (field raw key)
  score : ∀ metrics metric data version, field raw "metrics" = .object metrics →
    bestMetric lib texts metrics = some (metric, data, version) → ReadableScore (field data "baseScore")

/-- A record that can be examined. -/
structure Examinable (lib : IdentityLib) (texts : PyTexts) (record : JsonValue) : Prop where
  object : ∃ entries, record = .object entries
  cve : ∀ raw id, cveOf record = some (raw, id) → ReadableCve lib texts raw

theorem parseBestCvss_ok_iff {value : JsonValue} : (∃ cvss, parseBestCvss lib texts value = .ok cvss) ↔
    ∀ metrics metric data version, value = .object metrics →
      bestMetric lib texts metrics = some (metric, data, version) → ReadableScore (field data "baseScore") := by
  cases value with
  | object metrics =>
    unfold parseBestCvss
    simp only [JsonValue.object.injEq]
    cases hbest : bestMetric lib texts metrics with
    | none =>
      refine ⟨fun _ metrics' metric data version heq hsome => ?_, fun _ => ⟨none, rfl⟩⟩
      rw [← heq, hbest] at hsome
      cases hsome
    | some found =>
      obtain ⟨metric, data, version⟩ := found
      constructor
      · rintro ⟨cvss, h⟩ metrics' metric' data' version' rfl hsome
        rw [hbest, Option.some.injEq] at hsome
        cases hsome
        obtain ⟨score, hscore, -⟩ := bind_ok h
        exact safeFloat_ok_iff.mp ⟨score, hscore⟩
      · intro h
        obtain ⟨score, hscore⟩ : ∃ score, safeFloat texts (field data "baseScore") = .ok score :=
          safeFloat_ok_iff.mpr (h metrics metric data version rfl hbest)
        refine ⟨some (cvssSummary texts metric data version score), ?_⟩
        simp only [hscore, ok_bind]
        rfl
  | _ => simp [parseBestCvss]

theorem parseCve_ok_iff {raw : List (String × JsonValue)} {id : String} {hid : isCveId (strip id) = true} :
    (∃ cve, parseCve lib texts candidate maxReferences raw id hid = .ok cve) ↔ ReadableCve lib texts raw := by
  constructor
  · rintro ⟨cve, h⟩
    obtain ⟨cvss, hcvss, h⟩ := bind_ok h
    obtain ⟨exploitAdd, hexploit, h⟩ := bind_ok h
    obtain ⟨actionDue, haction, h⟩ := bind_ok h
    obtain ⟨published, hpublished, h⟩ := bind_ok h
    obtain ⟨lastModified, hmodified, h⟩ := bind_ok h
    refine ⟨?_, fun metrics metric data version => parseBestCvss_ok_iff.mp ⟨cvss, hcvss⟩ metrics metric data version⟩
    simp only [List.forall_mem_cons, List.not_mem_nil, false_implies, implies_true, and_true]
    exact ⟨normalizedDatetime_ok_iff.mp ⟨_, hexploit⟩, normalizedDatetime_ok_iff.mp ⟨_, haction⟩,
      normalizedDatetime_ok_iff.mp ⟨_, hpublished⟩, normalizedDatetime_ok_iff.mp ⟨_, hmodified⟩⟩
  · rintro ⟨hdates, hscore⟩
    simp only [List.forall_mem_cons, List.not_mem_nil, false_implies, implies_true, and_true] at hdates
    obtain ⟨hexploit, haction, hpublished, hmodified⟩ := hdates
    obtain ⟨cvss, hcvss⟩ := parseBestCvss_ok_iff.mpr hscore
    obtain ⟨exploitAdd, hexploit⟩ := normalizedDatetime_ok_iff.mpr hexploit
    obtain ⟨actionDue, haction⟩ := normalizedDatetime_ok_iff.mpr haction
    obtain ⟨published, hpublished⟩ := normalizedDatetime_ok_iff.mpr hpublished
    obtain ⟨lastModified, hmodified⟩ := normalizedDatetime_ok_iff.mpr hmodified
    unfold parseCve
    rw [hcvss, ok_bind, hexploit, ok_bind, haction, ok_bind, hpublished, ok_bind, hmodified, ok_bind]
    exact ⟨_, rfl⟩

theorem parseNvdCve_object (lib : IdentityLib) (texts : PyTexts) (candidate : CpeCandidate) (maxReferences : ℕ)
    (entries : List (String × JsonValue)) :
    parseNvdCve lib texts candidate maxReferences (.object entries) = .ok none ∧ cveOf (.object entries) = none ∨
      ∃ raw id, ∃ hid : isCveId (strip id) = true, cveOf (.object entries) = some (raw, id) ∧
        parseNvdCve lib texts candidate maxReferences (.object entries) =
          parseCve lib texts candidate maxReferences raw id hid := by
  unfold parseNvdCve cveOf
  simp only
  split
  next raw hraw =>
    split
    next id hid =>
      by_cases hvalid : isCveId (strip id) = true
      · exact .inr ⟨raw, id, hvalid, if_pos hvalid, dif_pos hvalid⟩
      · exact .inl ⟨dif_neg hvalid, if_neg hvalid⟩
    next => exact .inl ⟨rfl, rfl⟩
  next => exact .inl ⟨rfl, rfl⟩

/-- **A record is parsed without an error exactly if it can be examined.** -/
theorem parseNvdCve_ok_iff :
    (∃ cve, parseNvdCve lib texts candidate maxReferences record = .ok cve) ↔ Examinable lib texts record := by
  constructor
  · rintro ⟨cve, h⟩
    cases record with
    | object entries =>
      refine ⟨⟨entries, rfl⟩, fun raw id hsome => ?_⟩
      rcases parseNvdCve_object lib texts candidate maxReferences entries with ⟨-, hnone⟩ | ⟨raw', id', hid, hcve, hparse⟩
      · rw [hnone] at hsome
        cases hsome
      · rw [hcve, Option.some.injEq] at hsome
        cases hsome
        exact parseCve_ok_iff.mp ⟨cve, hparse.symm.trans h⟩
    | _ => cases h
  · rintro ⟨⟨entries, rfl⟩, hreadable⟩
    rcases parseNvdCve_object lib texts candidate maxReferences entries with ⟨hok, -⟩ | ⟨raw, id, hid, hcve, hparse⟩
    · exact ⟨none, hok⟩
    · rw [hparse]
      exact parseCve_ok_iff.mpr (hreadable raw id hcve)

/-- A CVE is returned for a record that has one. -/
theorem parseNvdCve_isSome {cve : Option CveCandidate} (h : parseNvdCve lib texts candidate maxReferences record = .ok cve) :
    cve.isSome = (cveOf record).isSome := by
  cases record with
  | object entries =>
    rcases parseNvdCve_object lib texts candidate maxReferences entries with ⟨hok, hnone⟩ | ⟨raw, id, hid, hcve, hparse⟩
    · rw [hok] at h
      cases h
      rw [hnone]
      rfl
    · rw [hparse] at h
      obtain ⟨cvss, -, h⟩ := bind_ok h
      obtain ⟨exploitAdd, -, h⟩ := bind_ok h
      obtain ⟨actionDue, -, h⟩ := bind_ok h
      obtain ⟨published, -, h⟩ := bind_ok h
      obtain ⟨lastModified, -, h⟩ := bind_ok h
      cases h
      rw [hcve]
      rfl
  | _ => cases h

end Reading

end NightScout
