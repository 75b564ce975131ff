import NightScout.Core.QueryStrings
import NightScout.Intelligence.YieldModel
import NightScout.Lib.Merging
import NightScout.Lib.StableSort
import NightScout.Workers.RoutedInputs
import NightScout.Workers.WebUrls

/-!
# Parameter discovery

The candidate selection of `recon/workers/parameters.py`: the URL that is probed, the names it has already, and the
candidates of a lane, in their order. The target is put together without its query (`queryParameterNames_target`), so
that it never has a name already.

The sets of sources and the cursor are those of `Permutations`: the two workers have a copy of them each.
-/

namespace NightScout

open Lib

inductive ParameterLane where
  | targeted | exploration
  deriving DecidableEq, Repr

/-! ## Candidates -/

structure ParameterCandidate where
  name : String
  globalSources : List String := []
  targetSources : List String := []
  globalRank : Option ℕ+ := none
  globalScore : ℚ := 0
  targetFrequency : ℕ := 0
  targetSourceDiversity : ℕ := 0
  targetRelevance : ℚ := 0
  successfulHits : ℕ := 0
  attemptedHypotheses : ℕ := 0
  confidence : ℚ := 1 / 2
  metadata : Metadata := .empty
  name_normal : normalizeParameterName name = .ok name := by decide
  scores_nonneg : 0 ≤ globalScore ∧ 0 ≤ targetRelevance := by decide +kernel
  confidence_unit : 0 ≤ confidence ∧ confidence ≤ 1 := by decide +kernel

namespace ParameterCandidate

variable (tables : Tables) (log2 log1p : ℚ → ℚ)

def lane (candidate : ParameterCandidate) : ParameterLane :=
  if candidate.targetFrequency > 0 ∨ candidate.targetSourceDiversity > 0 ∨ candidate.targetRelevance > 0 ∨
      candidate.targetSources ≠ [] then .targeted
  else .exploration

def yieldRatio (candidate : ParameterCandidate) : ℚ :=
  if candidate.attemptedHypotheses = 0 then 0 else candidate.successfulHits / candidate.attemptedHypotheses

def rankingScore (candidate : ParameterCandidate) : ℚ :=
  let rankBonus := match candidate.globalRank with
    | some rank => 1 / log2 (rank + 1 : ℕ)
    | none => 0
  candidate.targetRelevance * 4 + log1p candidate.targetFrequency * (3 / 2) + candidate.targetSourceDiversity +
    candidate.targetSources.length / 2 + candidate.yieldRatio * 3 + candidate.globalScore + rankBonus +
    candidate.confidence / 4

def bestRank : Option ℕ+ → Option ℕ+ → Option ℕ+
  | none, rank => rank
  | rank, none => rank
  | some left, some right => some (min left right)

theorem merged_scores (existing candidate : ParameterCandidate) : 0 ≤ max existing.globalScore candidate.globalScore ∧
      0 ≤ max existing.targetRelevance candidate.targetRelevance :=
  ⟨le_max_of_le_left existing.scores_nonneg.1, le_max_of_le_left existing.scores_nonneg.2⟩

theorem merged_confidence (existing candidate : ParameterCandidate) :
    0 ≤ max existing.confidence candidate.confidence ∧ max existing.confidence candidate.confidence ≤ 1 :=
  ⟨le_max_of_le_left existing.confidence_unit.1, max_le existing.confidence_unit.2 candidate.confidence_unit.2⟩

/-- What `_dedupe_candidates` makes of two candidates of one name. -/
def merge (existing candidate : ParameterCandidate) : ParameterCandidate :=
  let targetSources := sortedSet id (existing.targetSources ++ candidate.targetSources)
  { name := existing.name
    globalSources := PermutationWord.normalizeSources tables
      (sortedSet id (existing.globalSources ++ candidate.globalSources))
    targetSources := PermutationWord.normalizeSources tables targetSources
    globalRank := bestRank existing.globalRank candidate.globalRank
    globalScore := max existing.globalScore candidate.globalScore
    targetFrequency := existing.targetFrequency + candidate.targetFrequency
    targetSourceDiversity := max (max existing.targetSourceDiversity candidate.targetSourceDiversity)
      targetSources.length
    targetRelevance := max existing.targetRelevance candidate.targetRelevance
    successfulHits := existing.successfulHits + candidate.successfulHits
    attemptedHypotheses := existing.attemptedHypotheses + candidate.attemptedHypotheses
    confidence := max existing.confidence candidate.confidence
    metadata := existing.metadata.update candidate.metadata
    name_normal := existing.name_normal
    scores_nonneg := merged_scores existing candidate
    confidence_unit := merged_confidence existing candidate }

def dedupeCandidates (candidates : List ParameterCandidate) : List ParameterCandidate :=
  (mergeAll ParameterCandidate.name (merge tables) candidates).values

/-- `candidate.global_rank or 10**12`. -/
def rankOrLast (candidate : ParameterCandidate) : ℕ := (candidate.globalRank.map PNat.val).getD (10 ^ 12)

def targetedSortKey (candidate : ParameterCandidate) : ℚ ×ₗ ℕ ×ₗ String :=
  toLex (-candidate.rankingScore log2 log1p, toLex (candidate.rankOrLast, strLower tables candidate.name))

def explorationSortKey (candidate : ParameterCandidate) : ℕ ×ₗ ℚ ×ₗ String :=
  toLex (candidate.rankOrLast, toLex (-candidate.globalScore, strLower tables candidate.name))

end ParameterCandidate

/-- The bounds of `ParameterDiscoveryConfig` on a selection. -/
structure ParameterDiscoveryConfig where
  targetedCandidates : ℕ := 300
  explorationCandidates : ℕ := 150
  targeted_range : 1 ≤ targetedCandidates ∧ targetedCandidates ≤ 10000 := by decide
  exploration_range : 1 ≤ explorationCandidates ∧ explorationCandidates ≤ 10000 := by decide

/-- What a lane is configured to select. -/
def ParameterDiscoveryConfig.configured (config : ParameterDiscoveryConfig) : ParameterLane → ℕ
  | .targeted => config.targetedCandidates
  | .exploration => config.explorationCandidates

/-- `min(configured, limit_hint or configured)`. -/
def limitOf (configured : ℕ) (limitHint : Option ℕ+) : ℕ :=
  min configured ((limitHint.map PNat.val).getD configured)

/-! ## URLs -/

section Urls

variable (tables : Tables)

def queryParameterNames (url : String) : Except PyError (List String) := do
  let normalized ← normalizeHttpUrl tables url
  let parts ← urlsplit tables normalized
  if parts.query = "" then return []
  else if 4096 < 1 + parts.query.toList.count '&' then return []
  else return sortedSet id ((parseQsl parts.query).filterMap fun pair => (normalizeParameterName pair.1).toOption)

end Urls

/-! ## Selection -/

section Selection

variable (tables : Tables) (log2 log1p : ℚ → ℚ) (sha256 : String → String)

/-- `_exploration_namespace`. -/
def parameterNamespace (targetUrl : String) : Except PyError String := do
  let value ← parameterTargetUrlValue tables targetUrl
  return s!"parameters:exploration:{String.ofList ((sha256 value).toList.take 20)}"

/-- The candidates of a lane that the URL does not have. -/
def lanePool (candidates : List ParameterCandidate) (lane : ParameterLane) (existing : List String) :
    List ParameterCandidate :=
  (ParameterCandidate.dedupeCandidates tables candidates).filter fun candidate =>
    candidate.lane = lane ∧ candidate.name ∉ existing

def selectCandidates (config : ParameterDiscoveryConfig) (candidates : List ParameterCandidate) (targetUrl : String)
    (lane : ParameterLane) (limitHint : Option ℕ+) (offsets : CursorOffsets) :
    Except PyError (List ParameterCandidate × CursorOffsets) := do
  let existing ← queryParameterNames tables targetUrl
  let limit := limitOf (config.configured lane) limitHint
  match lane with
  | .targeted =>
    let pool := sortBy (ParameterCandidate.targetedSortKey tables log2 log1p)
      (lanePool tables candidates .targeted existing)
    return (pool.take limit, offsets)
  | .exploration =>
    let pool := sortBy (ParameterCandidate.explorationSortKey tables) (lanePool tables candidates .exploration existing)
    if pool = [] then return ([], offsets)
    else do
      let cursorNamespace ← parameterNamespace tables sha256 targetUrl
      let (indexes, offsets) := claimWindow offsets cursorNamespace pool.length (min pool.length limit)
      return (indexes.filterMap fun index => pool[index]?, offsets)

/-- A task of the worker: what its candidates are selected for. -/
structure ParameterTask where
  event : Event
  candidates : List ParameterCandidate
  lane : ParameterLane
  limitHint : Option ℕ+ := none

/-- What `execute` selects. -/
def ParameterTask.select (config : ParameterDiscoveryConfig) (task : ParameterTask) (offsets : CursorOffsets) :
    Except PyError (List ParameterCandidate × CursorOffsets) := do
  let targetUrl ← parameterTargetFromEvent tables task.event
  selectCandidates tables log2 log1p sha256 config task.candidates targetUrl task.lane task.limitHint offsets

end Selection

/-! ## The target has no query -/

section Targets

variable {tables : Tables} {value target rawHost hostname : String} {parts : SplitResult} {port : Option ℕ}

def withoutQuery (parts : SplitResult) : SplitResult := { parts with query := "" }

theorem parameterTargetUrlValue_ok (h : parameterTargetUrlValue tables value = .ok target) :
    ∃ parts rawHost hostname port, HttpUrlRead tables value parts rawHost hostname port ∧
      target = canonicalParts (withoutQuery parts) hostname port := by
  unfold parameterTargetUrlValue at h
  obtain ⟨normalized, hnormal, h⟩ := bind_ok h
  obtain ⟨parts, rawHost, hostname, port, hread, rfl⟩ := normalizeHttpUrl_ok hnormal
  rw [hread.split_normal, ok_bind] at h
  obtain rfl := Except.ok.inj h
  refine ⟨parts, rawHost, hostname, port, hread, ?_⟩
  have hpath : pathOf (canonicalOf parts hostname port) = pathOf (withoutQuery parts) :=
    if_neg (pathOf_ne_empty parts)
  rw [hpath]
  rfl

/-- The target is a normal URL: it is that of itself with an empty fragment. -/
theorem HttpUrlRead.bare (h : HttpUrlRead tables value parts rawHost hostname port) :
    HttpUrlRead tables (canonicalParts (withoutQuery parts) hostname port ++ "#")
      (canonicalOf (withoutQuery parts) hostname port) hostname hostname (shownPort parts.scheme port) where
  split := by
    obtain ⟨hslash, hpath, -⟩ := rest_clean_of_split h.split h.host
    have hnetloc : ∀ c ∈ (canonicalNetloc parts.scheme hostname port).toList, endsNetloc c = false ∧ isRemoved c = false :=
      fun c hc => ⟨(h.netloc_plain c hc).1, (h.netloc_plain c hc).2.1⟩
    have htext : (canonicalParts (withoutQuery parts) hostname port ++ "#").toList = parts.scheme.toList ++ ':' :: '/' ::
        '/' :: ((canonicalNetloc parts.scheme hostname port).toList ++ ((pathOf parts).toList ++ ['#'])) := by
      have hscheme : (canonicalOf (withoutQuery parts) hostname port).scheme ≠ "" := h.http.ne_empty
      rw [canonicalParts_eq, String.toList_append, urlunsplit_toList hscheme (.inr hslash) rfl, String.toList_ofList]
      have hempty : (canonicalOf (withoutQuery parts) hostname port).query = "" := rfl
      rw [if_pos hempty, List.append_nil, List.append_assoc]
      simp only [List.append_assoc, List.cons_append]
      rfl
    have hstrip : strip (canonicalParts (withoutQuery parts) hostname port ++ "#") =
        canonicalParts (withoutQuery parts) hostname port ++ "#" := by
      rw [strip_eq_self_iff, htext]
      rcases h.http with hscheme | hscheme
      · simp [hscheme, isSpace, List.getLast?_append, List.getLast?_cons]
      · simp [hscheme, isSpace, List.getLast?_append, List.getLast?_cons]
    have hkept : ((canonicalNetloc parts.scheme hostname port).toList ++ ((pathOf parts).toList ++ ['#'])).filter
        (fun c => !isRemoved c) =
          (canonicalNetloc parts.scheme hostname port).toList ++ ((pathOf parts).toList ++ ['#']) := by
      rw [List.filter_eq_self]
      intro c hc
      rw [Bool.not_eq_true']
      rcases List.mem_append.mp hc with hc | hc
      · exact (hnetloc c hc).2
      rcases List.mem_append.mp hc with hc | hc
      · exact (hpath c hc).2.2
      · rw [List.mem_singleton.mp hc]
        rfl
    rw [hstrip, ← String.ofList_toList (s := _ ++ "#"), htext, urlsplit_http h.http, hkept]
    have htake : ((canonicalNetloc parts.scheme hostname port).toList ++ ((pathOf parts).toList ++ ['#'])).takeWhile
        (fun c => !endsNetloc c) = (canonicalNetloc parts.scheme hostname port).toList := by
      refine takeWhile_append_stop (fun c hc => by rw [(hnetloc c hc).1]; rfl) (.inr ?_)
      cases hcs : (pathOf parts).toList with
      | nil => exact ⟨'#', [], rfl, rfl⟩
      | cons c cs =>
        rw [hcs] at hslash
        obtain rfl := Option.some.inj hslash
        exact ⟨'/', cs ++ ['#'], rfl, rfl⟩
    have hhash : partition '#' ((pathOf parts).toList ++ ['#']) = ((pathOf parts).toList, true, []) :=
      partition_eq fun hc => (hpath _ hc).2.1 rfl
    have hquestion : partition '?' (pathOf parts).toList = ((pathOf parts).toList, false, []) :=
      partition_of_notMem fun hc => (hpath _ hc).1 rfl
    have hascii : isAscii hostname = true :=
      isAscii_iff.mpr fun c hc => (hostChar_of_normalizeDnsName h.hostname c hc).lt
    have hbrackets : '[' ∉ (canonicalNetloc parts.scheme hostname port).toList ∧
        ']' ∉ (canonicalNetloc parts.scheme hostname port).toList :=
      ⟨fun hc => (h.netloc_plain _ hc).2.2.1 rfl, fun hc => (h.netloc_plain _ hc).2.2.2 rfl⟩
    have hcheck : checkNetloc tables (canonicalNetloc parts.scheme hostname port) = true := by
      rw [checkNetloc, if_pos (isAscii_canonicalNetloc hascii)]
    rw [splitAfter, htake]
    simp only [hbrackets.1, hbrackets.2, or_self, false_and, if_false, List.drop_left, hhash, hquestion,
      String.ofList_toList, hcheck, if_true]
    rfl
  http := h.http
  userinfo := decide_eq_false h.hostInfo_normal.2
  host := h.hostname_normal
  hostname := normalizeDnsName_normal h.hostname
  port := h.port_normal

theorem query_eq_empty {scheme : String} {rest : List Char} (h : splitAfter tables scheme rest = .ok parts)
    (hquestion : '?' ∉ rest) : parts.query = "" := by
  unfold splitAfter at h
  simp only at h
  obtain ⟨-, h⟩ := guard_ok h
  split at h
  · obtain rfl := Except.ok.inj h
    have hnone : '?' ∉ (partition '#' (rest.drop (rest.takeWhile fun c => !endsNetloc c).length)).1 :=
      fun hmem => hquestion (List.mem_of_mem_drop ((List.takeWhile_prefix _).subset hmem))
    dsimp only
    rw [partition_of_notMem hnone]
  · cases h

theorem canonicalParts_withoutQuery :
    canonicalParts (canonicalOf (withoutQuery parts) hostname port) hostname (shownPort parts.scheme port) =
      canonicalParts (withoutQuery parts) hostname port :=
  canonicalParts_canonicalOf

theorem normalizeHttpUrl_target (h : HttpUrlRead tables value parts rawHost hostname port) :
    ∃ url, normalizeHttpUrl tables (canonicalParts (withoutQuery parts) hostname port) = .ok url := by
  rw [← canonicalParts_withoutQuery]
  exact h.bare.accepted_again _

/-- **Whatever the URL of an endpoint asks for, its target has no names.** -/
theorem queryParameterNames_target (h : parameterTargetUrlValue tables value = .ok target) :
    queryParameterNames tables target = .ok [] := by
  obtain ⟨parts, rawHost, hostname, port, hread, rfl⟩ := parameterTargetUrlValue_ok h
  obtain ⟨url, hurl⟩ := normalizeHttpUrl_target hread
  obtain ⟨parts', rawHost', hostname', port', hagain, rfl⟩ := normalizeHttpUrl_ok hurl
  obtain ⟨tail, htail, hcut⟩ := hread.bare.split_stripped
  have hquery : parts'.query = "" := by
    have hsplit := hagain.split
    rw [← canonicalParts_withoutQuery, hcut] at hsplit
    refine query_eq_empty hsplit fun hmem => ?_
    rcases List.mem_append.mp hmem with hmem | hmem
    · have hends := (hread.bare.netloc_plain '?' hmem).1
      simp [endsNetloc] at hends
    rcases List.mem_cons.mp hmem with hmem | hmem
    · exact absurd hmem (by decide)
    · have hin : '?' ∈ normalTail (canonicalOf (withoutQuery parts) hostname port) := by
        rw [htail]
        exact List.mem_cons_of_mem _ ((List.rdropWhile_prefix _ _).subset (List.mem_filter.mp hmem).1)
      rw [normalTail, if_pos (show (canonicalOf (withoutQuery parts) hostname port).query = "" from rfl),
        List.append_nil] at hin
      exact ((rest_clean_of_split hread.bare.split hread.bare.host).2.1 _ hin).1 rfl
  rw [queryParameterNames, hurl, ok_bind, hagain.split_normal, ok_bind]
  exact if_pos hquery

theorem parameterNamespace_target (sha256 : String → String) (h : parameterTargetUrlValue tables value = .ok target) :
    ∃ name, parameterNamespace tables sha256 target = .ok name := by
  obtain ⟨parts, rawHost, hostname, port, hread, rfl⟩ := parameterTargetUrlValue_ok h
  obtain ⟨url, hurl⟩ := normalizeHttpUrl_target hread
  obtain ⟨parts', rawHost', hostname', port', hagain, rfl⟩ := normalizeHttpUrl_ok hurl
  rw [parameterNamespace, parameterTargetUrlValue, hurl, ok_bind, hagain.split_normal, ok_bind]
  exact ⟨_, rfl⟩

end Targets

end NightScout
