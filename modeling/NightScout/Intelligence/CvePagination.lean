import NightScout.Intelligence.CvePages
import NightScout.Lib.Groups
import NightScout.Surface.SameUrls

/-!
# When CVE lookups end, and what they say then

From the responses alone: where each page starts, how many CVEs were found before it, and which page is the last
(`pagination_iff`). The loop is endless if no page is the last: pages that hold records but no CVE may announce
more of them forever. At the limit it says that the result was cut even if the last announced record was the one that
reached it.
-/

namespace NightScout

open Lib

section Records

variable {lib : IdentityLib} {texts : PyTexts} {config : NvdClientConfig} {candidate : CpeCandidate}
  {records : List JsonValue} {cves : List CveCandidate}

/-- How many records have a CVE. -/
def foundIn (records : List JsonValue) : ℕ := records.countP fun record => (cveOf record).isSome

/-- The records up to the one that takes the last place. -/
def examined : ℕ → List JsonValue → List JsonValue
  | _, [] => []
  | room, record :: rest =>
    record :: if (cveOf record).isSome then if room ≤ 1 then [] else examined (room - 1) rest else examined room rest

theorem examineRecords_none {record : JsonValue} (hroom : cves.length < config.maxCvesPerCpe)
    (hcve : parseNvdCve lib texts candidate config.maxReferencesPerCve record = .ok none) :
    examineRecords lib texts config candidate (record :: records) cves =
      examineRecords lib texts config candidate records cves := by
  rw [examineRecords, hcve, ok_bind]
  simp only [Option.toList_none, List.append_nil]
  exact if_neg (by omega)

theorem examineRecords_some {record : JsonValue} {cve : CveCandidate}
    (hcve : parseNvdCve lib texts candidate config.maxReferencesPerCve record = .ok (some cve)) :
    examineRecords lib texts config candidate (record :: records) cves =
      if config.maxCvesPerCpe ≤ cves.length + 1 then .ok (cves ++ [cve], true)
      else examineRecords lib texts config candidate records (cves ++ [cve]) := by
  have hlength : (cves ++ [cve]).length = cves.length + 1 := List.length_append
  rw [← hlength, examineRecords, hcve, ok_bind]
  rfl

/-- What the loop over the records does: it examines them up to the last place. -/
theorem examineRecords_spec (hroom : cves.length < config.maxCvesPerCpe)
    (h : ∀ record ∈ examined (config.maxCvesPerCpe - cves.length) records, Examinable lib texts record) :
    ∃ found, examineRecords lib texts config candidate records cves =
        .ok (found, decide (config.maxCvesPerCpe ≤ cves.length + foundIn records)) ∧
      found.length = min config.maxCvesPerCpe (cves.length + foundIn records) := by
  induction records generalizing cves with
  | nil =>
    refine ⟨cves, ?_, ?_⟩
    · unfold examineRecords foundIn
      rw [List.countP_nil, decide_eq_false (by omega)]
    · unfold foundIn
      rw [List.countP_nil]
      omega
  | cons record rest ih =>
    unfold examined at h
    obtain ⟨hrecord, hrest⟩ := List.forall_mem_cons.mp h
    obtain ⟨cve, hcve⟩ : ∃ cve, parseNvdCve lib texts candidate config.maxReferencesPerCve record = .ok cve :=
      parseNvdCve_ok_iff.mpr hrecord
    have hsome := parseNvdCve_isSome hcve
    unfold foundIn
    rw [List.countP_cons]
    cases cve with
    | none =>
      rw [← hsome] at hrest
      rw [← hsome, examineRecords_none hroom hcve]
      simp only [Option.isSome_none, Bool.false_eq_true, if_false, Nat.add_zero] at hrest ⊢
      exact ih hroom hrest
    | some cve =>
      rw [← hsome] at hrest
      rw [← hsome, examineRecords_some hcve]
      simp only [Option.isSome_some, if_true] at hrest ⊢
      have hlength : (cves ++ [cve]).length = cves.length + 1 := List.length_append
      split
      next hfull =>
        refine ⟨cves ++ [cve], ?_, ?_⟩
        · rw [decide_eq_true (by omega)]
        · omega
      next hmore =>
        rw [if_neg (by omega)] at hrest
        have hexaminable : ∀ record ∈ examined (config.maxCvesPerCpe - (cves ++ [cve]).length) rest,
            Examinable lib texts record := by
          rw [hlength, ← Nat.sub_sub]
          exact hrest
        obtain ⟨found, hfound, hcount⟩ := ih (by omega) hexaminable
        rw [hlength, Nat.add_assoc, Nat.add_comm 1] at hfound hcount
        exact ⟨found, hfound, hcount⟩

/-- A record among them that cannot be examined raises. -/
theorem examineRecords_error (candidate : CpeCandidate) (hroom : cves.length < config.maxCvesPerCpe)
    (h : ¬ ∀ record ∈ examined (config.maxCvesPerCpe - cves.length) records, Examinable lib texts record) :
    ∃ e, examineRecords lib texts config candidate records cves = .error e := by
  induction records generalizing cves with
  | nil => exact absurd (List.forall_mem_nil _) h
  | cons record rest ih =>
    cases hcve : parseNvdCve lib texts candidate config.maxReferencesPerCve record with
    | error e =>
      refine ⟨e, ?_⟩
      rw [examineRecords, hcve]
      rfl
    | ok cve =>
      have hrecord : Examinable lib texts record := parseNvdCve_ok_iff.mp ⟨cve, hcve⟩
      have hsome := parseNvdCve_isSome hcve
      have hrest : ¬ ∀ other ∈ (if (cveOf record).isSome then
          if config.maxCvesPerCpe - cves.length ≤ 1 then [] else examined (config.maxCvesPerCpe - cves.length - 1) rest
          else examined (config.maxCvesPerCpe - cves.length) rest), Examinable lib texts other := by
        intro hall
        exact h (List.forall_mem_cons.mpr ⟨hrecord, hall⟩)
      cases cve with
      | none =>
        rw [← hsome] at hrest
        rw [examineRecords_none hroom hcve]
        exact ih hroom hrest
      | some cve =>
        rw [← hsome] at hrest
        simp only [Option.isSome_some, if_true] at hrest
        have hlength : (cves ++ [cve]).length = cves.length + 1 := List.length_append
        have hmore : ¬ config.maxCvesPerCpe - cves.length ≤ 1 := by
          intro hlast
          rw [if_pos hlast] at hrest
          exact hrest (List.forall_mem_nil _)
        rw [if_neg hmore] at hrest
        rw [examineRecords_some hcve, if_neg (by omega)]
        refine ih (by omega) ?_
        rw [hlength, ← Nat.sub_sub]
        exact hrest

theorem length_examined_le (room : ℕ) (records : List JsonValue) : (examined room records).length ≤ records.length := by
  induction records generalizing room with
  | nil => exact le_refl _
  | cons record rest ih =>
    unfold examined
    rw [List.length_cons, List.length_cons]
    refine Nat.succ_le_succ ?_
    split
    · split
      · exact Nat.zero_le _
      · exact ih _
    · exact ih _

end Records

/-! ## The responses -/

section Header

variable {texts : PyTexts} {value : JsonValue} {other : ℤ}

/-- A number of a header, unless it is infinite. -/
def headerInt (texts : PyTexts) (value : JsonValue) (other : ℤ) : ℤ :=
  match safeInt texts value with
  | .ok (some n) => if n = 0 then other else n
  | _ => other

theorem intOr_eq (h : ∀ negative, value ≠ .infinity negative) : intOr texts value other = .ok (headerInt texts value other) := by
  unfold intOr headerInt
  cases hread : safeInt texts value with
  | error e =>
    obtain ⟨negative, heq⟩ := safeInt_error_iff.mp ⟨e, hread⟩
    exact absurd heq (h negative)
  | ok read =>
    rw [ok_bind]
    cases read with
    | none => rfl
    | some n =>
      simp only
      split
      next heq => cases heq
      next heq =>
        rw [Option.some.injEq] at heq
        rw [if_pos heq]
        rfl
      next m hne heq =>
        rw [Option.some.injEq] at heq
        subst heq
        rw [if_neg fun hzero => hne (by rw [hzero])]
        rfl

end Header

section Responses

variable (texts : PyTexts) (responses : ℕ → Option JsonObject)

def pageAt (k : ℕ) : JsonObject := (responses k).getD []

def recordsAt (k : ℕ) : List JsonValue := pageRecords (pageAt responses k)

/-- How many CVEs the first pages have. -/
def foundBefore : ℕ → ℕ
  | 0 => 0
  | k + 1 => foundBefore k + foundIn (recordsAt responses k)

/-- Where a page starts: where the one before it ends, by its header. -/
def startOf : ℕ → ℤ
  | 0 => 0
  | k + 1 => headerInt texts (field (pageAt responses k) "startIndex") (startOf k) +
      headerInt texts (field (pageAt responses k) "resultsPerPage") (recordsAt responses k).length

/-- How many records a page says there are. -/
def announced (k : ℕ) : ℤ := headerInt texts (field (pageAt responses k) "totalResults") 0

variable (lib : IdentityLib) (config : NvdClientConfig)

/-- The records of a page that are examined, as there is room. -/
def examinedAt (k : ℕ) : List JsonValue :=
  examined (config.maxCvesPerCpe - foundBefore responses k) (recordsAt responses k)

/-- A page that is read without an error. -/
structure ReadablePage (k : ℕ) : Prop where
  header : ∀ key ∈ ["totalResults", "resultsPerPage", "startIndex"], ∀ negative,
    field (pageAt responses k) key ≠ .infinity negative
  records : ∀ record ∈ examinedAt responses config k, Examinable lib texts record

/-- A page that the lookup ends with. -/
structure LastPage (k : ℕ) : Prop where
  ends : recordsAt responses k = [] ∨ announced texts responses k ≤ startOf texts responses (k + 1) ∨
    config.maxCvesPerCpe ≤ foundBefore responses (k + 1)

/-- The very last record that was announced reaches the limit. -/
structure FilledByLast (k : ℕ) : Prop where
  full : config.maxCvesPerCpe ≤ foundBefore responses (k + 1)
  all : (examinedAt responses config k).length = (recordsAt responses k).length
  nothing : announced texts responses k ≤ startOf texts responses (k + 1)

/-- A record that was announced lies beyond the limit: the limit was reached, and then there are records left on the
    last page or beyond it. -/
structure BeyondLimit (k : ℕ) : Prop where
  full : config.maxCvesPerCpe ≤ foundBefore responses (k + 1)
  left : (examinedAt responses config k).length < (recordsAt responses k).length ∨
    startOf texts responses (k + 1) < announced texts responses k

theorem beyondLimit_iff {k : ℕ} : BeyondLimit texts responses config k ↔
    config.maxCvesPerCpe ≤ foundBefore responses (k + 1) ∧ ¬ FilledByLast texts responses config k := by
  have hle : (examinedAt responses config k).length ≤ (recordsAt responses k).length := length_examined_le _ _
  constructor
  · rintro ⟨hfull, hleft⟩
    refine ⟨hfull, fun ⟨_, hall, hnothing⟩ => ?_⟩
    rcases hleft with hleft | hleft
    · omega
    · exact absurd hleft (not_lt.mpr hnothing)
  · rintro ⟨hfull, hnot⟩
    refine ⟨hfull, ?_⟩
    by_contra hnone
    push Not at hnone
    exact hnot ⟨hfull, le_antisymm hle hnone.1, hnone.2⟩

/-- What a lookup should say. -/
structure TruthfulLookup (lookup : CveLookup) : Prop where
  bounded : lookup.cves.length ≤ config.maxCvesPerCpe
  requests : 1 ≤ lookup.requestCount
  truthful : lookup.truncated = true ↔ BeyondLimit texts responses config (lookup.requestCount - 1)

/-- Where the loop is before page `k`. -/
structure BeforePage (k : ℕ) (pages : CvePages) : Prop where
  cves : pages.cves.length = foundBefore responses k
  requests : pages.requestCount = k
  start : pages.startIndex = startOf texts responses k
  untruncated : pages.truncated = false
  room : foundBefore responses k < config.maxCvesPerCpe

end Responses

/-! ## Rounds -/

section Rounds

variable {lib : IdentityLib} {texts : PyTexts} {config : NvdClientConfig} {candidate : CpeCandidate}
  {responses : ℕ → Option JsonObject} {k : ℕ} {pages : CvePages}

/-- Where the loop is after a page. -/
structure AfterPage (texts : PyTexts) (config : NvdClientConfig) (responses : ℕ → Option JsonObject) (k : ℕ)
    (pages : CvePages) (goes : Bool) : Prop where
  cves : pages.cves.length = min config.maxCvesPerCpe (foundBefore responses (k + 1))
  requests : pages.requestCount = k + 1
  before : goes = true → BeforePage texts responses config (k + 1) pages
  last : goes = false ↔ LastPage texts responses config k
  truncated : goes = false → (pages.truncated = true ↔ config.maxCvesPerCpe ≤ foundBefore responses (k + 1))

/-- The body of the loop, if nothing raises. -/
theorem readPage_eq {payload : JsonObject} {found : List CveCandidate} {full : Bool} {total returned start : ℤ}
    (hfound : examineRecords lib texts config candidate (pageRecords payload) pages.cves = .ok (found, full))
    (htotal : intOr texts (field payload "totalResults") 0 = .ok total)
    (hreturned : intOr texts (field payload "resultsPerPage") (pageRecords payload).length = .ok returned)
    (hstart : intOr texts (field payload "startIndex") pages.startIndex = .ok start) :
    readPage lib texts config candidate pages payload =
      if pageRecords payload = [] ∨ start + returned ≥ total then
        .ok ({ cves := found, requestCount := pages.requestCount + 1, startIndex := pages.startIndex
               truncated := pages.truncated || full }, false)
      else if found.length ≥ config.maxCvesPerCpe then
        .ok ({ cves := found, requestCount := pages.requestCount + 1, startIndex := pages.startIndex
               truncated := true }, false)
      else
        .ok ({ cves := found, requestCount := pages.requestCount + 1, startIndex := start + returned
               truncated := pages.truncated || full }, true) := by
  unfold readPage
  simp only [hfound, htotal, hreturned, hstart, ok_bind]
  rfl

theorem readPage_spec (candidate : CpeCandidate) (h : BeforePage texts responses config k pages)
    (hreadable : ReadablePage texts responses lib config k) :
    ∃ next goes, readPage lib texts config candidate pages (pageAt responses k) = .ok (next, goes) ∧
      AfterPage texts config responses k next goes := by
  have hroom : pages.cves.length < config.maxCvesPerCpe := h.cves ▸ h.room
  have hrecords : ∀ record ∈ examined (config.maxCvesPerCpe - pages.cves.length) (recordsAt responses k),
      Examinable lib texts record := by
    rw [h.cves]
    exact hreadable.records
  obtain ⟨found, hfound, hlength⟩ : ∃ found, examineRecords lib texts config candidate (recordsAt responses k) pages.cves =
      .ok (found, decide (config.maxCvesPerCpe ≤ pages.cves.length + foundIn (recordsAt responses k))) ∧
      found.length = min config.maxCvesPerCpe (pages.cves.length + foundIn (recordsAt responses k)) :=
    examineRecords_spec hroom hrecords
  have hcount : pages.cves.length + foundIn (recordsAt responses k) = foundBefore responses (k + 1) := by
    rw [h.cves]
    rfl
  rw [hcount] at hfound hlength
  have htotal : intOr texts (field (pageAt responses k) "totalResults") 0 = .ok (announced texts responses k) :=
    intOr_eq (hreadable.header "totalResults" (by simp))
  have hreturned : intOr texts (field (pageAt responses k) "resultsPerPage") (pageRecords (pageAt responses k)).length =
      .ok (headerInt texts (field (pageAt responses k) "resultsPerPage") (recordsAt responses k).length) :=
    intOr_eq (hreadable.header "resultsPerPage" (by simp))
  have hstart : intOr texts (field (pageAt responses k) "startIndex") pages.startIndex =
      .ok (headerInt texts (field (pageAt responses k) "startIndex") (startOf texts responses k)) := by
    rw [h.start]
    exact intOr_eq (hreadable.header "startIndex" (by simp))
  rw [readPage_eq hfound htotal hreturned hstart, h.untruncated, Bool.false_or, h.requests]
  have hnext : headerInt texts (field (pageAt responses k) "startIndex") (startOf texts responses k) +
      headerInt texts (field (pageAt responses k) "resultsPerPage") (recordsAt responses k).length =
      startOf texts responses (k + 1) := rfl
  rw [hnext]
  have hrecordsAt : pageRecords (pageAt responses k) = recordsAt responses k := rfl
  rw [hrecordsAt]
  split
  next hends =>
    refine ⟨_, false, rfl, ⟨hlength, rfl, nofun, ?_, ?_⟩⟩
    · exact iff_of_true rfl ⟨hends.imp id .inl⟩
    · exact fun _ => decide_eq_true_iff
  next hmore =>
    obtain ⟨hne, hbeyond⟩ := not_or.mp hmore
    split
    next hfull =>
      have hreached : config.maxCvesPerCpe ≤ foundBefore responses (k + 1) := by omega
      refine ⟨_, false, rfl, ⟨hlength, rfl, nofun, ?_, ?_⟩⟩
      · exact iff_of_true rfl ⟨.inr (.inr hreached)⟩
      · exact fun _ => iff_of_true rfl hreached
    next hroom' =>
      have hunreached : foundBefore responses (k + 1) < config.maxCvesPerCpe := by omega
      refine ⟨_, true, rfl, ⟨hlength, rfl, fun _ => ?_, ?_, nofun⟩⟩
      · exact ⟨hlength.trans (min_eq_right hunreached.le), rfl, rfl, decide_eq_false (not_le.mpr hunreached), hunreached⟩
      · refine iff_of_false nofun fun hlast => ?_
        rcases hlast.ends with hnil | hnothing | hreached
        · exact hne hnil
        · exact hbeyond hnothing
        · omega

theorem readPage_error (candidate : CpeCandidate) (h : BeforePage texts responses config k pages)
    (hnot : ¬ ReadablePage texts responses lib config k) :
    ∃ e, readPage lib texts config candidate pages (pageAt responses k) = .error e := by
  cases hread : readPage lib texts config candidate pages (pageAt responses k) with
  | error e => exact ⟨e, rfl⟩
  | ok read =>
    unfold readPage at hread
    obtain ⟨found, hfound, hread⟩ := bind_ok hread
    obtain ⟨total, htotal, hread⟩ := bind_ok hread
    obtain ⟨returned, hreturned, hread⟩ := bind_ok hread
    obtain ⟨start, hstart, -⟩ := bind_ok hread
    have hfinite : ∀ {value : JsonValue} {other n : ℤ}, intOr texts value other = .ok n →
        ∀ negative, value ≠ .infinity negative := by
      rintro value other n hok negative rfl
      cases hok
    refine absurd ⟨?_, ?_⟩ hnot
    · simp only [List.forall_mem_cons, List.not_mem_nil, false_implies, implies_true, and_true]
      exact ⟨hfinite htotal, hfinite hreturned, hfinite hstart⟩
    · by_contra hrecord
      have hroom : pages.cves.length < config.maxCvesPerCpe := h.cves ▸ h.room
      unfold examinedAt at hrecord
      rw [← h.cves] at hrecord
      obtain ⟨e, he⟩ := examineRecords_error candidate hroom hrecord
      have hsame : Except.error e = Except.ok found := he.symm.trans hfound
      cases hsame

/-- Page `k` is given and read, and the lookup goes on. -/
structure GoesOn (lib : IdentityLib) (texts : PyTexts) (config : NvdClientConfig) (responses : ℕ → Option JsonObject)
    (k : ℕ) : Prop where
  given : (responses k).isSome
  readable : ReadablePage texts responses lib config k
  more : ¬ LastPage texts responses config k

theorem pageAt_given (h : (responses k).isSome) : responses k = some (pageAt responses k) := by
  obtain ⟨payload, hpayload⟩ := Option.isSome_iff_exists.mp h
  unfold pageAt
  rw [hpayload]
  rfl

theorem beforePage_zero : BeforePage texts responses config 0 {} :=
  ⟨rfl, rfl, rfl, rfl, config.maxCves_range.1⟩

theorem pageStep_given (h : BeforePage texts responses config k pages) (hgiven : (responses k).isSome) :
    pageStep lib texts config candidate pages (responses k) =
      match readPage lib texts config candidate pages (pageAt responses k) with
      | .error e => .stopped (.error e)
      | .ok (pages, true) => .running pages
      | .ok (pages, false) => .stopped (.ok pages) := by
  have hroom : ¬ config.maxCvesPerCpe ≤ pages.cves.length := by
    rw [h.cves]
    exact not_le.mpr h.room
  unfold pageStep
  rw [pageAt_given hgiven]
  exact if_neg hroom

/-- A round that goes on. -/
theorem pageStep_goesOn (candidate : CpeCandidate) (h : BeforePage texts responses config k pages) (hgoes : GoesOn lib texts config responses k) :
    ∃ next, pageStep lib texts config candidate pages (responses k) = .running next ∧
      BeforePage texts responses config (k + 1) next := by
  obtain ⟨next, goes, hread, hafter⟩ := readPage_spec candidate h hgoes.readable
  rw [pageStep_given h hgoes.given, hread]
  cases goes with
  | true => exact ⟨next, rfl, hafter.before rfl⟩
  | false => exact absurd (hafter.last.mp rfl) hgoes.more

/-- A round that ends the lookup: there is no response, or it raises, or the page is the last. -/
theorem pageStep_stops (candidate : CpeCandidate) (h : BeforePage texts responses config k pages) (hnot : ¬ GoesOn lib texts config responses k) :
    ∃ final, pageStep lib texts config candidate pages (responses k) = .stopped final ∧
      ∀ last, final = .ok last → (responses k).isSome ∧ ReadablePage texts responses lib config k ∧
        AfterPage texts config responses k last false := by
  by_cases hgiven : (responses k).isSome
  · rw [pageStep_given h hgiven]
    by_cases hreadable : ReadablePage texts responses lib config k
    · obtain ⟨next, goes, hread, hafter⟩ := readPage_spec candidate h hreadable
      rw [hread]
      cases goes with
      | true =>
        have hmore : ¬ LastPage texts responses config k := fun hlast => by
          have hfalse := hafter.last.mpr hlast
          cases hfalse
        exact absurd ⟨hgiven, hreadable, hmore⟩ hnot
      | false =>
        refine ⟨_, rfl, fun last hlast => ?_⟩
        obtain rfl := Except.ok.inj hlast
        exact ⟨hgiven, hreadable, hafter⟩
    · obtain ⟨e, he⟩ := readPage_error candidate h hreadable
      rw [he]
      exact ⟨_, rfl, nofun⟩
  · have hnone : responses k = none := by simpa using hgiven
    have hroom : ¬ config.maxCvesPerCpe ≤ pages.cves.length := by
      rw [h.cves]
      exact not_le.mpr h.room
    unfold pageStep
    rw [if_neg hroom, hnone]
    exact ⟨_, rfl, nofun⟩

end Rounds

/-! ## Lookups -/

section Lookups

variable {lib : IdentityLib} {texts : PyTexts} {config : NvdClientConfig} {candidate : CpeCandidate}
  {responses : ℕ → Option JsonObject}

/-- What is asked of a lookup that the cache does not answer: it ends without raising and says the truth, or there are no
    more responses. -/
def LookupHolds (lib : IdentityLib) (texts : PyTexts) (config : NvdClientConfig) (candidate : CpeCandidate)
    (responses : ℕ → Option JsonObject) : Prop :=
  ∃ n, (∃ lookup, lookupCvesForCpe lib texts config candidate none responses n = .stopped (.ok lookup) ∧
      TruthfulLookup texts responses config lookup) ∨
    ((∃ pages, lookupCvesForCpe lib texts config candidate none responses n = .running pages) ∧ responses n = none)

theorem lookup_running_iff {n : ℕ} {pages : CvePages} :
    lookupCvesForCpe lib texts config candidate none responses n = .running pages ↔
      afterRounds (pageStep lib texts config candidate) responses {} n = .running pages := by
  unfold lookupCvesForCpe
  cases afterRounds (pageStep lib texts config candidate) responses {} n <;> simp

theorem lookup_stopped_iff {n : ℕ} {lookup : CveLookup} :
    lookupCvesForCpe lib texts config candidate none responses n = .stopped (.ok lookup) ↔
      ∃ pages, afterRounds (pageStep lib texts config candidate) responses {} n = .stopped (.ok pages) ∧
        lookup = finishLookup config pages := by
  unfold lookupCvesForCpe
  simp only
  cases afterRounds (pageStep lib texts config candidate) responses {} n with
  | running pages => simp
  | stopped result =>
    cases result with
    | error e => simp [Except.map]
    | ok pages => simp [Except.map, eq_comm]

/-- Without repetitions there are not more CVEs. -/
theorem length_finishLookup_le (pages : CvePages) : (finishLookup config pages).cves.length ≤ pages.cves.length := by
  have hkey : ∀ id cve, (ofList (·.cveId) pages.cves).get? id = some cve → cve.cveId = id :=
    fun id cve h => (ofList_key h).2
  have hsub : (ofList (·.cveId) pages.cves).values.map (·.cveId) ⊆ pages.cves.map (·.cveId) := by
    intro id hid
    obtain ⟨cve, hcve, rfl⟩ := List.mem_map.mp hid
    exact List.mem_map_of_mem (mem_values_ofList hcve)
  have hlength := ((Dict.nodup_values_map hkey).subperm hsub).length_le
  rw [List.length_map, List.length_map] at hlength
  unfold finishLookup
  simpa [List.length_insertionSort] using hlength

/-- A lookup that ends says the truth unless the last announced record fills it. -/
theorem truthful_iff {k : ℕ} {pages : CvePages} (h : AfterPage texts config responses k pages false) :
    TruthfulLookup texts responses config (finishLookup config pages) ↔ ¬ FilledByLast texts responses config k := by
  have hrequests : (finishLookup config pages).requestCount = k + 1 := h.requests
  have htruncated : (finishLookup config pages).truncated = true ↔ config.maxCvesPerCpe ≤ foundBefore responses (k + 1) :=
    h.truncated rfl
  constructor
  · rintro htruth hfilled
    have hbeyond := htruth.truthful.mp (htruncated.mpr hfilled.full)
    rw [hrequests] at hbeyond
    exact ((beyondLimit_iff texts responses config).mp hbeyond).2 hfilled
  · intro hnot
    refine ⟨?_, ?_, ?_⟩
    · refine (length_finishLookup_le pages).trans ?_
      rw [h.cves]
      exact min_le_left _ _
    · omega
    · rw [htruncated, hrequests, Nat.add_sub_cancel, beyondLimit_iff]
      exact ⟨fun hfull => ⟨hfull, hnot⟩, And.left⟩

theorem lookupHolds_iff : LookupHolds lib texts config candidate responses ↔
      ∃ n, (∀ k < n, GoesOn lib texts config responses k) ∧
        (responses n = none ∨ ReadablePage texts responses lib config n ∧ LastPage texts responses config n ∧
          ¬ FilledByLast texts responses config n) := by
  have hstart : BeforePage texts responses config 0 {} := beforePage_zero
  have hstep : ∀ n pages, BeforePage texts responses config n pages → GoesOn lib texts config responses n →
      ∃ next, pageStep lib texts config candidate pages (responses n) = .running next ∧
        BeforePage texts responses config (n + 1) next := fun n pages => pageStep_goesOn candidate
  have hstop : ∀ n pages, BeforePage texts responses config n pages → ¬ GoesOn lib texts config responses n →
      ∃ final, pageStep lib texts config candidate pages (responses n) = .stopped final := by
    intro n pages hbefore hnot
    obtain ⟨final, hfinal, -⟩ := pageStep_stops candidate hbefore hnot
    exact ⟨final, hfinal⟩
  constructor
  · rintro ⟨n, ⟨lookup, hlookup, htruth⟩ | ⟨⟨pages, hpages⟩, hnone⟩⟩
    · obtain ⟨pages, hpages, rfl⟩ := lookup_stopped_iff.mp hlookup
      obtain ⟨k, -, hgoes, hnot, before, hbefore, hlast⟩ := afterRounds_first hstart hstep hstop hpages
      obtain ⟨final, hfinal, hcase⟩ := pageStep_stops candidate hbefore hnot
      rw [hlast] at hfinal
      obtain rfl := Progress.stopped.inj hfinal
      obtain ⟨-, hreadable, hafter⟩ := hcase pages rfl
      exact ⟨k, hgoes, .inr ⟨hreadable, hafter.last.mp rfl, (truthful_iff hafter).mp htruth⟩⟩
    · exact ⟨n, goes_of_running hstart hstep hstop (lookup_running_iff.mp hpages), .inl hnone⟩
  · rintro ⟨n, hgoes, hend⟩
    by_cases hnone : responses n = none
    · obtain ⟨pages, hpages, -⟩ := afterRounds_running hstart hstep hgoes
      exact ⟨n, .inr ⟨⟨pages, lookup_running_iff.mpr hpages⟩, hnone⟩⟩
    · obtain ⟨hreadable, hlast, hnot⟩ := hend.resolve_left hnone
      obtain ⟨before, hbefore, hafterRound⟩ := afterRounds_stops hstart hstep hgoes
      have hgiven : (responses n).isSome := Option.isSome_iff_ne_none.mpr hnone
      obtain ⟨next, goes, hread, hafter⟩ := readPage_spec candidate hbefore hreadable
      obtain rfl := hafter.last.mpr hlast
      rw [pageStep_given hbefore hgiven, hread] at hafterRound
      exact ⟨n + 1, .inl ⟨finishLookup config next, lookup_stopped_iff.mpr ⟨next, hafterRound, rfl⟩,
        (truthful_iff hafter).mpr hnot⟩⟩

/-- **When a lookup ends and says the truth.** -/
theorem pagination_iff (lib : IdentityLib) (texts : PyTexts) (config : NvdClientConfig) (candidate : CpeCandidate)
    (responses : ℕ → Option JsonObject) : LookupHolds lib texts config candidate responses ↔
      ∃ n, (∀ k < n, GoesOn lib texts config responses k) ∧
        (responses n = none ∨ ReadablePage texts responses lib config n ∧ LastPage texts responses config n ∧
          ¬ FilledByLast texts responses config n) :=
  lookupHolds_iff

/-! ## Pages with honest headers -/

/-- A page that starts where it should, holds something, and announces no more than there is. -/
structure HonestPage (texts : PyTexts) (responses : ℕ → Option JsonObject) (total k : ℕ) : Prop where
  start : headerInt texts (field (pageAt responses k) "startIndex") (startOf texts responses k) = startOf texts responses k
  holds : 1 ≤ headerInt texts (field (pageAt responses k) "resultsPerPage") (recordsAt responses k).length
  total : announced texts responses k ≤ total

theorem le_startOf_of_honest {total n : ℕ} (h : ∀ k < n, HonestPage texts responses total k) :
    (n : ℤ) ≤ startOf texts responses n := by
  induction n with
  | zero => exact le_refl 0
  | succ n ih =>
    have hbefore := ih fun k hk => h k (Nat.lt_succ_of_lt hk)
    have hstart := (h n n.lt_succ_self).start
    have hholds := (h n n.lt_succ_self).holds
    unfold startOf
    push_cast
    omega

/-- Honest pages end, each announced record bringing one page at most. -/
theorem exists_lastPage_of_honest {total : ℕ}
    (h : ∀ k, LastPage texts responses config k ∨ HonestPage texts responses total k) :
    ∃ k < max 1 total, LastPage texts responses config k := by
  by_contra hnone
  push Not at hnone
  have hhonest (k : ℕ) (hk : k < max 1 total) : HonestPage texts responses total k := (h k).resolve_left (hnone k hk)
  have hend : max 1 total - 1 < max 1 total := by omega
  have hle := le_startOf_of_honest (n := max 1 total - 1 + 1) fun k hk => hhonest k (by omega)
  have htotal := (hhonest _ hend).total
  exact hnone _ hend ⟨.inr (.inl (by omega))⟩

/-- **A lookup of honest pages ends**: after no more requests than records were announced, or one, with no more CVEs
    than it may have, and truncated if and only if as many were found. -/
theorem honest_lookup_ends (candidate : CpeCandidate) {total : ℕ} (hgiven : ∀ k, (responses k).isSome)
    (hreadable : ∀ k, ReadablePage texts responses lib config k)
    (hhonest : ∀ k, LastPage texts responses config k ∨ HonestPage texts responses total k) :
    ∃ n lookup, lookupCvesForCpe lib texts config candidate none responses n = .stopped (.ok lookup) ∧
      lookup.requestCount = n ∧ n ≤ max 1 total ∧ lookup.cves.length ≤ config.maxCvesPerCpe ∧
      (lookup.truncated = true ↔ config.maxCvesPerCpe ≤ foundBefore responses n) := by
  classical
  have hexists := exists_lastPage_of_honest hhonest
  obtain ⟨hbound, hlast⟩ := Nat.find_spec hexists
  have hgoes : ∀ j < Nat.find hexists, GoesOn lib texts config responses j := fun j hj =>
    ⟨hgiven j, hreadable j, fun hlast => Nat.find_min hexists hj ⟨hj.trans hbound, hlast⟩⟩
  obtain ⟨before, hbefore, hafterRound⟩ := afterRounds_stops beforePage_zero
    (fun _ _ => pageStep_goesOn candidate) hgoes
  obtain ⟨next, goes, hread, hafter⟩ := readPage_spec candidate hbefore (hreadable _)
  obtain rfl := hafter.last.mpr hlast
  rw [pageStep_given hbefore (hgiven _), hread] at hafterRound
  refine ⟨_, finishLookup config next, lookup_stopped_iff.mpr ⟨next, hafterRound, rfl⟩, hafter.requests, hbound, ?_,
    hafter.truncated rfl⟩
  refine (length_finishLookup_le next).trans ?_
  rw [hafter.cves]
  exact min_le_left _ _

end Lookups

/-! ## Pages without end, a full page and a broken one -/

def nginxCpe : CpeCandidate where
  cpeName := "cpe:2.3:a:f5:nginx:1.0:*:*:*:*:*:*:*"
  part := .application
  vendor := "f5"
  product := "nginx"
  version := "1.0"
  score := 1
  confidence := 1
  cpeName_valid := by decide +kernel
  score_unit := one_unit
  confidence_unit := one_unit

/-- A record without a CVE, and the header of the same page every time. -/
def samePage : JsonObject :=
  [("resultsPerPage", .int 1), ("startIndex", .int 5), ("totalResults", .int 10), ("vulnerabilities", .array [.object []])]

theorem samePage_goesOn (k : ℕ) :
    GoesOn asciiIdentityLib plainTexts {} (fun _ => some samePage) k := by
  have hfound : ∀ n, foundBefore (fun _ => some samePage) n = 0 := by
    intro n
    induction n with
    | zero => rfl
    | succ n ih =>
      unfold foundBefore
      rw [ih]
      rfl
  have hexamined : examinedAt (fun _ => some samePage) {} k = [.object []] := by
    unfold examinedAt
    rw [hfound]
    rfl
  refine ⟨rfl, ⟨?_, ?_⟩, ?_⟩
  · simp only [List.forall_mem_cons, List.not_mem_nil, false_implies, implies_true, and_true]
    refine ⟨fun negative h => ?_, fun negative h => ?_, fun negative h => ?_⟩ <;> cases h
  · rw [hexamined]
    intro record hrecord
    rw [List.mem_singleton.mp hrecord]
    exact ⟨⟨[], rfl⟩, fun entry id h => by cases h⟩
  · rintro ⟨hnil | hnothing | hfull⟩
    · cases hnil
    · have htotal : announced plainTexts (fun _ => some samePage) k = 10 := rfl
      have hstart : startOf plainTexts (fun _ => some samePage) (k + 1) = 6 := rfl
      omega
    · rw [hfound] at hfull
      cases hfull

/-- A record without a CVE, on the next of three pages. -/
def nextPage : JsonObject :=
  [("resultsPerPage", .int 1), ("totalResults", .int 3), ("vulnerabilities", .array [.object []])]

theorem honest_lookup_ends_three : ∃ n lookup,
    lookupCvesForCpe asciiIdentityLib plainTexts {} nginxCpe none (fun _ => some nextPage) n = .stopped (.ok lookup) ∧
      lookup.requestCount = n ∧ n ≤ max 1 3 ∧ lookup.cves.length ≤ 500 ∧
      (lookup.truncated = true ↔ 500 ≤ foundBefore (fun _ => some nextPage) n) := by
  have hhonest (k : ℕ) : HonestPage plainTexts (fun _ => some nextPage) 3 k := ⟨rfl, le_refl 1, le_refl (3 : ℤ)⟩
  refine honest_lookup_ends nginxCpe (fun _ => rfl) (fun k => ⟨?_, fun record hrecord => ?_⟩) fun k => .inr (hhonest k)
  · simp only [List.forall_mem_cons, List.not_mem_nil, false_implies, implies_true, and_true]
    refine ⟨fun negative h => ?_, fun negative h => ?_, fun negative h => ?_⟩ <;> cases h
  · obtain rfl := List.mem_singleton.mp hrecord
    exact ⟨⟨[], rfl⟩, fun entry id h => by cases h⟩

/-- One CVE, and nothing more is announced. -/
def lastPage : JsonObject :=
  [("resultsPerPage", .int 1), ("startIndex", .int 0), ("totalResults", .int 1),
    ("vulnerabilities", .array [.object [("cve", .object [("id", .string "CVE-2024-0001")])]])]

/-- A record that is no object. -/
def brokenPage : JsonObject := [("totalResults", .int 1), ("vulnerabilities", .array [.null])]

/-- The same page without end, a last page that reaches the limit, and a record that is no object. -/
theorem lookups_go_wrong :
    ¬ LookupHolds asciiIdentityLib plainTexts {} nginxCpe (fun _ => some samePage) ∧
    ¬ LookupHolds asciiIdentityLib plainTexts { maxCvesPerCpe := 1 } nginxCpe (fun _ => some lastPage) ∧
    ¬ LookupHolds asciiIdentityLib plainTexts {} nginxCpe (fun _ => some brokenPage) := by
  refine ⟨?_, ?_, ?_⟩
  · rw [lookupHolds_iff]
    rintro ⟨n, -, hnone | ⟨-, hlast, -⟩⟩
    · cases hnone
    · exact (samePage_goesOn n).more hlast
  · have hlast : LastPage plainTexts (fun _ => some lastPage) { maxCvesPerCpe := 1 } 0 :=
      ⟨.inr (.inl (by decide +kernel))⟩
    rw [lookupHolds_iff]
    rintro ⟨n, hgoes, hnone | ⟨-, -, hnot⟩⟩
    · cases hnone
    · obtain rfl : n = 0 := by
        by_contra hn
        exact (hgoes 0 (Nat.pos_of_ne_zero hn)).more hlast
      exact hnot ⟨by decide +kernel, by decide +kernel, by decide +kernel⟩
  · have hunreadable : ¬ ReadablePage plainTexts (fun _ => some brokenPage) asciiIdentityLib {} 0 := by
      intro hreadable
      obtain ⟨entries, hentries⟩ := (hreadable.records .null List.mem_cons_self).object
      cases hentries
    rw [lookupHolds_iff]
    rintro ⟨n, hgoes, hnone | ⟨hreadable, -, -⟩⟩
    · cases hnone
    · obtain rfl : n = 0 := by
        by_contra hn
        exact hunreadable (hgoes 0 (Nat.pos_of_ne_zero hn)).readable
      exact hunreadable hreadable

end NightScout
