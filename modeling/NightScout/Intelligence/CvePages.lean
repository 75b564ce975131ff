import NightScout.Intelligence.CveRecords
import NightScout.Lib.Programs

/-!
# Pages of CVEs

`lookup_cves_for_cpe` of `recon/intelligence/vulnerabilities.py`: pages are requested until one has no records, one says
that nothing lies beyond it, or enough CVEs were found. Where a page starts, how many records it holds and how many there
are is what its header says. What the service answers is a sequence of objects; where it has none a request fails.
-/

namespace NightScout

open Lib

/-- What `NvdClientConfig` says of these lookups. -/
structure NvdClientConfig where
  cveResultsPerPage : ℕ := 2000
  maxCvesPerCpe : ℕ := 500
  cveCacheTtlSeconds : ℕ := 86400
  negativeCacheTtlSeconds : ℕ := 21600
  maxReferencesPerCve : ℕ := 32
  perPage_range : 1 ≤ cveResultsPerPage ∧ cveResultsPerPage ≤ 2000 := by decide
  maxCves_range : 1 ≤ maxCvesPerCpe ∧ maxCvesPerCpe ≤ 20000 := by decide

/-- The parameters of a request. -/
structure CveRequest where
  cpeName : String
  resultsPerPage : ℕ
  startIndex : ℤ
  deriving DecidableEq

/-- What is returned, and for how many seconds it was cached. -/
structure CveLookup where
  cves : List CveCandidate
  cacheHit : Bool
  requestCount : ℕ
  truncated : Bool
  ttlSeconds : Option ℕ := none

/-- The variables of the loop. -/
structure CvePages where
  cves : List CveCandidate := []
  requestCount : ℕ := 0
  startIndex : ℤ := 0
  truncated : Bool := false

section Lookup

variable (lib : IdentityLib) (texts : PyTexts) (config : NvdClientConfig) (candidate : CpeCandidate)

/-- The records of a page. -/
def pageRecords (payload : JsonObject) : List JsonValue :=
  match field payload "vulnerabilities" with
  | .array records => records
  | _ => []

/-- The loop over the records; whether it ended early is returned too. -/
def examineRecords : List JsonValue → List CveCandidate → Except PyError (List CveCandidate × Bool)
  | [], cves => .ok (cves, false)
  | record :: rest, cves => do
    let cve ← parseNvdCve lib texts candidate config.maxReferencesPerCve record
    let cves := cves ++ cve.toList
    if cves.length ≥ config.maxCvesPerCpe then return (cves, true) else examineRecords rest cves

/-- `safe_int(value) or other`. -/
def intOr (value : JsonValue) (other : ℤ) : Except PyError ℤ := do
  match ← safeInt texts value with
  | none | some 0 => return other
  | some n => return n

/-- The next request. -/
def nextRequest (pages : CvePages) : CveRequest where
  cpeName := candidate.cpeName
  resultsPerPage := min config.cveResultsPerPage (config.maxCvesPerCpe - pages.cves.length)
  startIndex := pages.startIndex

/-- The body of the loop after a response; whether the loop goes on is returned too. -/
def readPage (pages : CvePages) (payload : JsonObject) : Except PyError (CvePages × Bool) := do
  let records := pageRecords payload
  let (cves, full) ← examineRecords lib texts config candidate records pages.cves
  let totalResults ← intOr texts (field payload "totalResults") 0
  let returned ← intOr texts (field payload "resultsPerPage") records.length
  let actualStart ← intOr texts (field payload "startIndex") pages.startIndex
  let nextIndex := actualStart + returned
  let pages := { pages with cves, requestCount := pages.requestCount + 1, truncated := pages.truncated || full }
  if records = [] ∨ nextIndex ≥ totalResults then return (pages, false)
  else if cves.length ≥ config.maxCvesPerCpe then return ({ pages with truncated := true }, false)
  else return ({ pages with startIndex := nextIndex }, true)

/-- One round. -/
def pageStep (pages : CvePages) (response : Option JsonObject) : Progress CvePages (Except PyError CvePages) :=
  if config.maxCvesPerCpe ≤ pages.cves.length then .stopped (.ok { pages with truncated := true })
  else
    match response with
    | none => .stopped (.error (.runtimeError "NVD transport error"))
    | some payload =>
      match readPage lib texts config candidate pages payload with
      | .error e => .stopped (.error e)
      | .ok (pages, true) => .running pages
      | .ok (pages, false) => .stopped (.ok pages)

def cveSortKey (cve : CveCandidate) : Bool ×ₗ ℚ ×ₗ ℚ ×ₗ String :=
  toLex (!cve.knownExploited, toLex (-((cve.cvss.bind (·.baseScore)).getD (-1)), toLex (-cve.cpeScore, cve.cveId)))

/-- What is made of the pages at last. -/
def finishLookup (pages : CvePages) : CveLookup :=
  let cves := (ofList (·.cveId) pages.cves).values.insertionSort fun a b => cveSortKey a ≤ cveSortKey b
  { cves, cacheHit := false, requestCount := pages.requestCount, truncated := pages.truncated
    ttlSeconds := some (if cves = [] then config.negativeCacheTtlSeconds else config.cveCacheTtlSeconds) }

/-- `lookup_cves_for_cpe`, after some responses: what the cache had, or what the pages give. -/
def lookupCvesForCpe (cached : Option (List CveCandidate × Bool)) (responses : ℕ → Option JsonObject) (n : ℕ) :
    Progress CvePages (Except PyError CveLookup) :=
  match cached with
  | some (cves, truncated) => .stopped (.ok { cves, cacheHit := true, requestCount := 0, truncated })
  | none =>
    match afterRounds (pageStep lib texts config candidate) responses {} n with
    | .running pages => .running pages
    | .stopped result => .stopped (result.map (finishLookup config))

end Lookup

end NightScout
