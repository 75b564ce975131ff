import NightScout.Core.JsonReading
import NightScout.Surface.SameUrls
import NightScout.Workers.ToolLines

/-!
# Lines that are read without a fault

When each of the four line parsers returns at all: `int` of an infinity raises `OverflowError`, a query time or response
time that is an array or object fails the model's own validation, and a form may be nested deeper than the interpreter's
frames go. None of the four callers catches anything per line, so that one such line ends the stream; every other line
is read or passed over (`lines_kept_iff`).
-/

namespace NightScout

open Lib

/-! ## Fields -/

section Fields

variable {texts : PyTexts} {value : JsonValue}

/-- A number `int` has no value for. -/
def IsInfinite (value : JsonValue) : Prop := ∃ negative, value = .infinity negative

/-- No text, number or `null`. -/
def IsContainer : JsonValue → Prop
  | .array _ | .object _ => True
  | _ => False

theorem returns_boundedInt {low : ℕ} {high : Option ℕ} :
    Returns (boundedInt texts low high value) ↔ ¬ IsInfinite value := by
  have hsafe : (∃ e, safeInt texts value = .error e) ↔ IsInfinite value := safeInt_error_iff
  unfold boundedInt
  refine (returns_bind_ok fun n => ⟨_, rfl⟩).trans ?_
  rw [← hsafe]
  cases safeInt texts value with
  | ok n => simp
  | error e => simp

theorem returns_timeField : Returns (timeField value) ↔ ¬ IsContainer value := by
  cases value with
  | array items => simp [timeField, IsContainer]
  | object items => simp [timeField, IsContainer]
  | _ => simp [timeField, IsContainer]

end Fields

section Payloads

variable {loads : String → Except LoadError JsonValue} {line : String}

/-- `json.loads` raises nothing that is not caught. -/
def Loadable (loads : String → Except LoadError JsonValue) (line : String) : Prop :=
  ∀ e, loads line ≠ .error (.other e)

/-- A parser of objects, over the lines that hold one. -/
theorem returns_payload {α : Type} {result : JsonObject → Except PyError (Option α)} :
    Returns (linePayload loads line >>= fun payload =>
        match payload with
        | none => .ok none
        | some payload => result payload) ↔
      Loadable loads line ∧ ∀ payload, loads line = .ok (.object payload) → Returns (result payload) := by
  unfold linePayload Loadable
  cases hload : loads line with
  | error e => cases e <;> simp
  | ok value => cases value <;> simp

theorem returns_strippedPayload {α : Type} {result : JsonObject → Except PyError (Option α)} :
    Returns (strippedPayload loads line >>= fun payload =>
        match payload with
        | none => .ok none
        | some payload => result payload) ↔
      (strip line ≠ "" → Loadable loads (strip line) ∧
        ∀ payload, loads (strip line) = .ok (.object payload) → Returns (result payload)) := by
  unfold strippedPayload
  by_cases hblank : strip line = ""
  · simp [hblank]
  · rw [if_neg hblank, returns_payload]
    simp [hblank]

end Payloads

/-! ## Results -/

section Results

variable {lib : IdentityLib} {texts : PyTexts} {payload : JsonObject}

theorem returns_recordValues (lib : IdentityLib) (requestedType : DnsRecordType) (values : List String) :
    Returns (recordValues lib requestedType values) := by
  cases requestedType with
  | cname =>
    unfold recordValues
    refine (returns_bind_ok fun names => ⟨_, rfl⟩).mpr (returns_mapM.mpr ?_)
    intro value hvalue
    exact ⟨_, exceptValueError_eq (raises_normalizeDnsName value)⟩
  | _ => exact ⟨_, rfl⟩

/-- The query time of an object. -/
def queryTimeOf (payload : JsonObject) : JsonValue :=
  if "query-time" ∈ payload.map Prod.fst then field payload "query-time" else field payload "query_time"

/-- The response time of an object. -/
def responseTimeOf (payload : JsonObject) : JsonValue :=
  if "time" ∈ payload.map Prod.fst then field payload "time" else field payload "response_time"

/-- What `parse_dnsx_line` reads without a fault. -/
def DnsxReadable (lib : IdentityLib) (payload : JsonObject) : Prop :=
  ∀ rawHost hostname, field payload "host" = .string rawHost → normalizeDnsName lib.toTables rawHost = .ok hostname →
    ¬ IsInfinite (field payload "ttl") ∧ ¬ IsContainer (queryTimeOf payload)

theorem returns_dnsxResult (texts : PyTexts) (requestedType : DnsRecordType) :
    Returns (dnsxResult lib texts requestedType payload) ↔ DnsxReadable lib payload := by
  unfold dnsxResult DnsxReadable
  cases hfield : field payload "host" with
  | string rawHost =>
    have hhost : ∀ rawHost', JsonValue.string rawHost = .string rawHost' ↔ rawHost = rawHost' := by simp
    simp only [exceptValueError_eq (raises_normalizeDnsName rawHost), ok_bind, hhost]
    cases hname : normalizeDnsName lib.toTables rawHost with
    | error e =>
      refine iff_of_true ⟨none, rfl⟩ ?_
      rintro _ hostname rfl hok
      rw [hname] at hok
      cases hok
    | ok hostname =>
      obtain ⟨values, hvalues⟩ :=
        returns_recordValues lib requestedType (stringValues texts (field payload requestedType.fieldName))
      have hreads : Returns (parseNonnegativeInt texts (field payload "ttl")) ∧ Returns (timeField (queryTimeOf payload)) ↔
          ¬ IsInfinite (field payload "ttl") ∧ ¬ IsContainer (queryTimeOf payload) :=
        and_congr returns_boundedInt returns_timeField
      simp only [Except.toOption, hvalues, ok_bind]
      refine (returns_bind_iff fun ttl => returns_bind_ok fun queryTime => ⟨_, rfl⟩).trans (hreads.trans ?_)
      constructor
      · rintro hfields _ _ - -
        exact hfields
      · intro hfields
        exact hfields rawHost hostname rfl hname
  | _ => simp

/-- What `parse_httpx_line` reads without a fault. -/
def HttpxReadable (lib : IdentityLib) (payload : JsonObject) : Prop :=
  ∀ rawUrl url, field payload "url" = .string rawUrl → normalizeHttpUrl lib.toTables rawUrl = .ok url →
    ¬ IsInfinite (field payload "port") ∧ ¬ IsInfinite (field payload "status_code") ∧
      ¬ IsInfinite (field payload "content_length") ∧ ¬ IsContainer (responseTimeOf payload)

theorem returns_inputUrlOf (lib : IdentityLib) (scheme url : String) (input : JsonValue) :
    Returns (inputUrlOf lib scheme url input) := by
  cases input with
  | string text =>
    unfold inputUrlOf
    exact (returns_bind_ok fun _ => ⟨_, rfl⟩).mpr ⟨_, exceptValueError_eq (raises_normalizeWebUrl _ _)⟩
  | _ => exact ⟨url, rfl⟩

theorem returns_httpxResult (texts : PyTexts) : Returns (httpxResult lib texts payload) ↔ HttpxReadable lib payload := by
  unfold httpxResult HttpxReadable
  cases hfield : field payload "url" with
  | string rawUrl =>
    have htext : ∀ rawUrl', JsonValue.string rawUrl = .string rawUrl' ↔ rawUrl = rawUrl' := by simp
    have hraises : RaisesValueErrors (normalizeHttpUrl lib.toTables rawUrl) := raises_normalizeWebUrl _ _
    simp only [exceptValueError_eq hraises, ok_bind, htext]
    cases hurl : normalizeHttpUrl lib.toTables rawUrl with
    | error e =>
      refine iff_of_true ⟨none, rfl⟩ ?_
      rintro _ url rfl hok
      rw [hurl] at hok
      cases hok
    | ok url =>
      obtain ⟨parts, rawHost, hostname, port, hread, rfl⟩ := normalizeHttpUrl_ok hurl
      -- nothing that is read off the normal URL fails
      simp only [Except.toOption, hread.split_normal, ok_bind, hread.hostname_normal,
        normalizeDnsName_normal hread.hostname, hread.port_normal]
      have hreads : Returns (parsePort texts (field payload "port")) ∧
          Returns (parseStatusCode texts (field payload "status_code")) ∧
          Returns (parseNonnegativeInt texts (field payload "content_length")) ∧
          Returns (timeField (responseTimeOf payload)) ↔
          ¬ IsInfinite (field payload "port") ∧ ¬ IsInfinite (field payload "status_code") ∧
          ¬ IsInfinite (field payload "content_length") ∧ ¬ IsContainer (responseTimeOf payload) :=
        and_congr returns_boundedInt (and_congr returns_boundedInt (and_congr returns_boundedInt returns_timeField))
      refine (returns_bind_iff fun parsedPort => ?_).trans (hreads.trans ?_)
      · obtain ⟨inputUrl, hinput⟩ := returns_inputUrlOf lib parts.scheme (canonicalParts parts hostname port)
          (field payload "input")
        rw [show (canonicalOf parts hostname port).scheme = parts.scheme from rfl, hinput, ok_bind]
        exact returns_bind_iff fun status => returns_bind_iff fun length => returns_bind_ok fun time => ⟨_, rfl⟩
      · constructor
        · rintro hfields _ _ - -
          exact hfields
        · intro hfields
          exact hfields rawUrl _ rfl hurl
  | _ => simp

/-! ## Forms -/

/-- What is visited below a value is nested no deeper than so many frames reach. -/
def FitsFrames (lib : IdentityLib) : ℕ → Option String → JsonValue → Prop
  | 0, _, _ => False
  | frames + 1, parentKey, .object items => ∀ entry ∈ (Dict.ofPairs items).entries,
      (parentKey.any (· ∈ formKeys) || strLower lib.toTables (strip entry.1) ∈ formKeys) = true →
        FitsFrames lib frames (some (strLower lib.toTables (strip entry.1))) entry.2
  | frames + 1, parentKey, .array items => ∀ item ∈ items, FitsFrames lib frames parentKey item
  | _ + 1, _, _ => True

theorem returns_visit (frames : ℕ) (parentKey : Option String) (value : JsonValue) :
    Returns (visit lib frames parentKey value) ↔ FitsFrames lib frames parentKey value := by
  induction frames generalizing parentKey value with
  | zero => simp [visit, FitsFrames]
  | succ frames ih =>
    cases value with
    | object items =>
      unfold visit FitsFrames
      refine (returns_bind_ok fun names => ⟨_, rfl⟩).trans (returns_mapM.trans ?_)
      refine forall₂_congr fun entry hentry => ?_
      obtain ⟨key, nested⟩ := entry
      dsimp only
      by_cases hform : (parentKey.any (· ∈ formKeys) || strLower lib.toTables (strip key) ∈ formKeys) = true
      · rw [if_pos hform]
        refine (returns_bind_ok fun names => ⟨_, rfl⟩).trans ?_
        simp only [ih, hform, forall_const]
      · rw [if_neg hform]
        exact iff_of_true ⟨_, rfl⟩ fun h => absurd h hform
    | array items =>
      unfold visit FitsFrames
      refine (returns_bind_ok fun names => ⟨_, rfl⟩).trans (returns_mapM.trans ?_)
      exact forall₂_congr fun item hitem => ih parentKey item
    | _ => simp [visit, FitsFrames]

/-- The forms of a line are nested no deeper than so many frames reach. -/
def FormsFit (lib : IdentityLib) (frames : ℕ) (payload : JsonObject) : Prop :=
  ∀ key ∈ ["form", "forms"], key ∈ payload.map Prod.fst → FitsFrames lib frames (some key) (field payload key)

theorem returns_extractFormFieldNames (frames : ℕ) :
    Returns (extractFormFieldNames lib frames payload) ↔ FormsFit lib frames payload := by
  unfold extractFormFieldNames FormsFit
  refine (returns_bind_ok fun names => ⟨_, rfl⟩).trans (returns_mapM.trans ?_)
  simp only [List.mem_filter, decide_eq_true_eq, and_imp, returns_visit]

/-- What `parse_katana_line` reads without a fault. -/
def KatanaReadable (lib : IdentityLib) (texts : PyTexts) (frames : ℕ) (payload : JsonObject) : Prop :=
  ∀ rawUrl url, katanaUrl texts payload = some rawUrl → normalizeCrawlUrl lib.toTables rawUrl = .ok url →
    ¬ IsInfinite (katanaStatus payload) ∧ ¬ IsInfinite (katanaLength payload) ∧ FormsFit lib frames payload

theorem returns_katanaResult (frames : ℕ) :
    Returns (katanaResult lib texts frames payload) ↔ KatanaReadable lib texts frames payload := by
  unfold katanaResult KatanaReadable
  cases hurl : katanaUrl texts payload with
  | none => simp
  | some rawUrl =>
    have hraises : RaisesValueErrors (normalizeCrawlUrl lib.toTables rawUrl) := raises_normalizeWebUrl _ _
    simp only [exceptValueError_eq hraises, ok_bind, Option.some.injEq]
    cases hcrawl : normalizeCrawlUrl lib.toTables rawUrl with
    | error e =>
      refine iff_of_true ⟨none, rfl⟩ ?_
      rintro _ url rfl hok
      rw [hcrawl] at hok
      cases hok
    | ok url =>
      obtain ⟨parts, rawHost, hostname, port, hread, rfl⟩ := normalizeWebUrl_ok hcrawl
      have hreads : Returns (parseStatusCode texts (katanaStatus payload)) ∧
          Returns (parseNonnegativeInt texts (katanaLength payload)) ∧
          Returns (extractFormFieldNames lib frames payload) ↔
          ¬ IsInfinite (katanaStatus payload) ∧ ¬ IsInfinite (katanaLength payload) ∧ FormsFit lib frames payload :=
        and_congr returns_boundedInt (and_congr returns_boundedInt (returns_extractFormFieldNames frames))
      simp only [Except.toOption]
      refine (returns_bind_iff fun status => returns_bind_iff fun length => ?_).trans (hreads.trans ?_)
      · refine returns_bind_ok fun fields => ?_
        obtain ⟨again, hagain⟩ := hread.accepted_again _
        exact (returns_bind_ok fun _ => ⟨_, rfl⟩).mpr ⟨again, hagain⟩
      · constructor
        · rintro hfields _ _ - -
          exact hfields
        · intro hfields
          exact hfields rawUrl _ rfl hcrawl

end Results

/-! ## Streams -/

section Streams

variable (lib : IdentityLib) (texts : PyTexts) (loads : String → Except LoadError JsonValue)

/-- A line that is blank, or that `json.loads` takes or refuses; what it holds, if an object, is readable. -/
def LineReadable (readable : JsonObject → Prop) (line : String) : Prop :=
  strip line ≠ "" → Loadable loads (strip line) ∧ ∀ payload, loads (strip line) = .ok (.object payload) → readable payload

variable {lib texts loads}

theorem returns_parseDnsxLine (requestedType : DnsRecordType) (line : String) :
    Returns (parseDnsxLine lib texts loads requestedType line) ↔ LineReadable loads (DnsxReadable lib) line := by
  unfold parseDnsxLine LineReadable
  simp only [← returns_dnsxResult texts requestedType]
  exact returns_strippedPayload

theorem returns_parseHttpxLine (line : String) :
    Returns (parseHttpxLine lib texts loads line) ↔ LineReadable loads (HttpxReadable lib) line := by
  unfold parseHttpxLine LineReadable
  simp only [← returns_httpxResult texts]
  exact returns_strippedPayload

theorem returns_parseKatanaLine (frames : ℕ) (line : String) : Returns (parseKatanaLine lib texts loads frames line) ↔
      LineReadable loads (KatanaReadable lib texts frames) line := by
  unfold parseKatanaLine LineReadable
  simp only [← returns_katanaResult]
  exact returns_strippedPayload

/-- Nothing but `json.loads` raises here. -/
theorem returns_parseNucleiJsonl (line : String) : Returns (parseNucleiJsonl loads line) ↔ Loadable loads line := by
  unfold parseNucleiJsonl
  refine returns_payload.trans ?_
  constructor
  · exact fun h => h.1
  · exact fun h => ⟨h, fun payload _ => ⟨_, rfl⟩⟩

/-- **When no line of a run is lost.** -/
theorem lines_kept_iff (lib : IdentityLib) (texts : PyTexts) (loads : String → Except LoadError JsonValue) (frames : ℕ)
    (lines : List String) : (∀ requestedType, KeepsAll (parseDnsxLine lib texts loads requestedType) lines ↔
      ∀ line ∈ lines, LineReadable loads (DnsxReadable lib) line) ∧
    (KeepsAll (parseHttpxLine lib texts loads) lines ↔ ∀ line ∈ lines, LineReadable loads (HttpxReadable lib) line) ∧
    (KeepsAll (parseKatanaLine lib texts loads frames) lines ↔
      ∀ line ∈ lines, LineReadable loads (KatanaReadable lib texts frames) line) ∧
    (KeepsAll (parseNucleiJsonl loads) lines ↔ ∀ line ∈ lines, Loadable loads line) := by
  refine ⟨fun requestedType => ?_, ?_, ?_, ?_⟩
  · exact keepsAll_iff.trans (forall₂_congr fun line _ => returns_parseDnsxLine requestedType line)
  · exact keepsAll_iff.trans (forall₂_congr fun line _ => returns_parseHttpxLine line)
  · exact keepsAll_iff.trans (forall₂_congr fun line _ => returns_parseKatanaLine frames line)
  · exact keepsAll_iff.trans (forall₂_congr fun line _ => returns_parseNucleiJsonl line)

end Streams

/-- `json.loads` as far as it takes a text. -/
def standardLoads (F : FloatText) (line : String) : Except LoadError JsonValue :=
  match loads F true line.toList with
  | some value => .ok value
  | none => .error .decode

def infiniteTtlLine : String := "\x7b\"host\":\"a.example\",\"ttl\":Infinity\x7d"

def plainLine : String := "\x7b\"host\":\"b.example\",\"a\":[\"192.0.2.1\"]\x7d"

/-- A line with an infinite `ttl` ends the run, and the record on the next line is lost. -/
theorem infinite_ttl_ends_run : ¬ KeepsAll
    (parseDnsxLine asciiIdentityLib plainTexts (standardLoads FloatText.quotients) .a) [infiniteTtlLine, plainLine] := by
  have hline : standardLoads FloatText.quotients (strip infiniteTtlLine) =
      .ok (.object [("host", .string "a.example"), ("ttl", .infinity false)]) := rfl
  have hname : normalizeDnsName asciiIdentityLib.toTables "a.example" = .ok "a.example" := by decide +kernel
  intro hkeeps
  obtain ⟨-, hpayload⟩ := (returns_parseDnsxLine .a _).mp (keepsAll_iff.mp hkeeps _ (.head _)) (by decide)
  exact (hpayload _ hline _ _ rfl hname).1 ⟨false, rfl⟩

end NightScout
