import NightScout.Workers.VHostCandidates

/-!
# What exploration of virtual hosts comes to

The cursor claims a window of words, and the best host names of the window are returned, no more than the limit. The
cursor then stands behind the window, and what was cut is returned only if some other place on its way has it among the
first. For constant arguments the pool is covered exactly if each of its host names is among the first of the window at
some place that the cursor comes to (`vhost_exploration_iff`).
-/

namespace NightScout

open Lib

/-- The arguments that stay the same from call to call. -/
structure VHostCall (tables : Tables) (texts : PyTexts) where
  provider : VHostCandidateProvider
  serviceEvent : Event
  service : VHostService
  corpus : List CorpusWord
  limit : ℕ
  service_ok : serviceFromEvent tables texts.intOf serviceEvent = .ok service
  limit_pos : 1 ≤ limit

namespace VHostCall

section Calls

variable {tables : Tables} {texts : PyTexts} (log2 log1p : ℚ → ℚ) (call : VHostCall tables texts)

def run (offsets : CursorOffsets) : Except PyError (List (VHostCandidate tables)) × CursorOffsets :=
  candidatesFor tables texts log2 log1p call.provider call.serviceEvent call.corpus .exploration call.limit offsets

/-- The cursors after `k` calls. -/
def offsetsAfter (offsets : CursorOffsets) (k : ℕ) : CursorOffsets := (fun offsets => (call.run log2 log1p offsets).2)^[k] offsets

def words : List CorpusWord := vhostExplorationWords tables call.corpus

/-- The base domains that are used. -/
def bases : List (String × VHostCandidateMethod) :=
  (candidateBaseDomains tables texts call.serviceEvent call.service call.provider.includeSibling
    call.provider.includeChild).take call.provider.maxBaseDomains

def candidatesOf (word : CorpusWord) : List (VHostCandidate tables) :=
  wordVHostCandidates tables log2 log1p call.service .exploration call.bases word

/-- The host names that the words form with the base domains. -/
def pool : List String := (call.words.flatMap (call.candidatesOf log2 log1p)).map VHostCandidate.hostname

/-- How many words a call claims. -/
def windowSize : ℕ := min (wordWindow call.limit) call.words.length

/-- Where the cursor stands. -/
def position (offsets : CursorOffsets) : ℕ := (offsets.get? (vhostNamespace call.service)).getD 0

/-- What the words from a place on form. -/
def windowCandidates (start : ℕ) : List (VHostCandidate tables) :=
  ((circleWindow call.words.length call.windowSize start).filterMap fun index => call.words[index]?).flatMap
    (call.candidatesOf log2 log1p)

/-- The `k`-th call returned the host name. -/
def Returns (offsets : CursorOffsets) (host : String) (k : ℕ) : Prop :=
  ∃ candidates, (call.run log2 log1p (call.offsetsAfter log2 log1p offsets k)).1 = .ok candidates ∧
    host ∈ candidates.map VHostCandidate.hostname

/-- The window at a place forms the host name, and fewer others go before it than are returned. -/
def AmongFirst (host : String) (start : ℕ) : Prop :=
  host ∈ (call.windowCandidates log2 log1p start).map VHostCandidate.hostname ∧
    namesAhead VHostCandidate.hostname (VHostCandidate.sortKey tables) (call.windowCandidates log2 log1p start) host <
      call.limit

/-- It is among the first at some place on the cursor's way. -/
def OnTheWay (position : ℕ) (host : String) : Prop :=
  ∃ place < call.words.length, place ≡ position [MOD call.words.length.gcd call.windowSize] ∧
    call.AmongFirst log2 log1p host place

/-- Calls return no more than the limit, no host name twice, and a bounded number of them the whole pool. -/
structure CoversPool (offsets : CursorOffsets) : Prop where
  bounded : ∀ k, ∃ candidates, (call.run log2 log1p (call.offsetsAfter log2 log1p offsets k)).1 = .ok candidates ∧
    candidates.length ≤ call.limit ∧ (candidates.map VHostCandidate.hostname).Nodup
  covers : ∃ bound, ∀ host ∈ call.pool log2 log1p, ∃ k < bound, call.Returns log2 log1p offsets host k

theorem better_takesLess : TakesLess VHostCandidate.hostname (VHostCandidate.sortKey tables)
    (betterVHostCandidate tables) := by
  intro a b hname
  unfold betterVHostCandidate VHostCandidate.sortKey
  rw [hname]
  refine if_congr ?_ rfl rfl
  simp only [Prod.Lex.toLex_lt_toLex, lt_irrefl, and_false, or_false, neg_lt_neg_iff, neg_inj]
  rw [eq_comm]

theorem hostname_of_sortKey (a b : VHostCandidate tables) (h : a.sortKey = b.sortKey) : a.hostname = b.hostname :=
  congrArg (fun key => (ofLex (ofLex key).2).2) h

/-- What a call returns, and where it leaves the cursor. -/
theorem run_eq (hne : call.words ≠ []) (offsets : CursorOffsets) : call.run log2 log1p offsets =
      (.ok (bestRanked VHostCandidate.hostname (VHostCandidate.sortKey tables) (betterVHostCandidate tables) call.limit
        (call.windowCandidates log2 log1p (call.position offsets % call.words.length))),
      offsets.set (vhostNamespace call.service)
        ((call.position offsets % call.words.length + call.windowSize) % call.words.length)) := by
  have hlength : call.words.length ≠ 0 := fun h => hne (List.length_eq_zero_iff.mp h)
  have hwindow : min call.words.length call.windowSize = call.windowSize := min_eq_right (min_le_right _ _)
  have hsize : call.windowSize ≠ 0 := by
    unfold windowSize wordWindow
    omega
  have hclaim : claimWindow offsets (vhostNamespace call.service) call.words.length call.windowSize =
      (circleWindow call.words.length call.windowSize (call.position offsets % call.words.length),
        offsets.set (vhostNamespace call.service)
          ((call.position offsets % call.words.length + call.windowSize) % call.words.length)) := by
    unfold claimWindow
    rw [if_neg (not_or.mpr ⟨hlength, hsize⟩)]
    simp only [hwindow]
    rfl
  have hselect : selectVHostWords tables log2 log1p call.service call.corpus .exploration call.limit offsets =
      ((claimWindow offsets (vhostNamespace call.service) call.words.length call.windowSize).1.filterMap fun index =>
          call.words[index]?,
        (claimWindow offsets (vhostNamespace call.service) call.words.length call.windowSize).2) := if_neg hne
  have hlimit : ¬ (call.limit : ℤ) ≤ 0 := by
    have hpos := call.limit_pos
    omega
  rw [run, candidatesFor, if_neg hlimit, call.service_ok, Int.toNat_natCast]
  simp only [hselect, hclaim]
  rfl

theorem run_nil (hnil : call.words = []) (offsets : CursorOffsets) :
    call.run log2 log1p offsets = (.ok [], offsets) := by
  have hselect : selectVHostWords tables log2 log1p call.service call.corpus .exploration call.limit offsets =
      ([], offsets) := if_pos hnil
  have hlimit : ¬ (call.limit : ℤ) ≤ 0 := by
    have hpos := call.limit_pos
    omega
  rw [run, candidatesFor, if_neg hlimit, call.service_ok, Int.toNat_natCast]
  simp only [hselect, List.flatMap_nil, bestRanked_nil]

theorem position_offsetsAfter (hne : call.words ≠ []) (offsets : CursorOffsets) (k : ℕ) :
    call.position (call.offsetsAfter log2 log1p offsets k) % call.words.length =
      cursorAt call.words.length call.windowSize (call.position offsets) k := by
  induction k generalizing offsets with
  | zero =>
    rw [cursorAt, Nat.zero_mul, Nat.add_zero]
    rfl
  | succ k ih =>
    have hstep : call.offsetsAfter log2 log1p offsets (k + 1) =
        call.offsetsAfter log2 log1p (call.run log2 log1p offsets).2 k := rfl
    have hposition : call.position (call.run log2 log1p offsets).2 =
        (call.position offsets % call.words.length + call.windowSize) % call.words.length := by
      rw [run_eq _ _ _ hne, position, Dict.get?_set_self]
      rfl
    rw [hstep, ih, hposition, cursorAt_succ]

theorem returns_iff (hne : call.words ≠ []) (offsets : CursorOffsets) (host : String) (k : ℕ) :
    call.Returns log2 log1p offsets host k ↔
      call.AmongFirst log2 log1p host (cursorAt call.words.length call.windowSize (call.position offsets) k) := by
  unfold Returns AmongFirst
  rw [run_eq _ _ _ hne, position_offsetsAfter _ _ _ hne, ← mem_bestRanked better_takesLess hostname_of_sortKey]
  constructor
  · rintro ⟨candidates, hok, hhost⟩
    cases hok
    exact hhost
  · exact fun h => ⟨_, rfl, h⟩

theorem run_bounded (offsets : CursorOffsets) : ∃ candidates, (call.run log2 log1p offsets).1 = .ok candidates ∧
    candidates.length ≤ call.limit ∧ (candidates.map VHostCandidate.hostname).Nodup := by
  by_cases hnil : call.words = []
  · rw [run_nil _ _ _ hnil]
    exact ⟨[], rfl, Nat.zero_le _, List.nodup_nil⟩
  · rw [run_eq _ _ _ hnil]
    exact ⟨_, rfl, length_bestRanked _ _, nodup_bestRanked better_takesLess _ _⟩

end Calls

end VHostCall

/-- **Exploration covers its pool** exactly if every host name of it is among the first at some place on the cursor's
way. -/
theorem vhost_exploration_iff (tables : Tables) (texts : PyTexts) (log2 log1p : ℚ → ℚ) (call : VHostCall tables texts)
    (offsets : CursorOffsets) : call.CoversPool log2 log1p offsets ↔
      ∀ host ∈ call.pool log2 log1p, call.OnTheWay log2 log1p (call.position offsets) host := by
  have hwords : ∀ host ∈ call.pool log2 log1p, call.words ≠ [] := by
    intro host hhost hnil
    rw [VHostCall.pool, hnil] at hhost
    exact absurd hhost List.not_mem_nil
  constructor
  · rintro ⟨-, bound, hcovers⟩ host hhost
    have hne := hwords host hhost
    obtain ⟨k, -, hk⟩ := hcovers host hhost
    exact (exists_time_iff (List.length_pos_iff.mpr hne) _).mp ⟨k, (call.returns_iff _ _ hne offsets host k).mp hk⟩
  · intro h
    refine ⟨fun k => call.run_bounded log2 log1p _, call.words.length, fun host hhost => ?_⟩
    have hne := hwords host hhost
    obtain ⟨k, hk, hfirst⟩ := (exists_turn_iff (List.length_pos_iff.mpr hne) _).mpr (h host hhost)
    exact ⟨k, hk, (call.returns_iff _ _ hne offsets host k).mpr hfirst⟩

/-! ## A host name that is cut every time -/

/-- A confirmed service on `www.example.com`. -/
def wwwServiceEvent : Event where
  eventId := "evt_www"
  type := .httpService
  value := "https://www.example.com:443"
  source := httpxName
  firstSeen := 0
  lastSeen := 0
  tags := {"confirmed"}
  confidence_unit := zero_unit
  novelty_unit := zero_unit
  metadata := .ofPairs [("url", .string "https://www.example.com/"), ("hostname", .string "www.example.com"),
    ("scheme", .string "https"), ("port", .int 443)]

theorem https_port : 1 ≤ 443 ∧ 443 ≤ 65535 := by decide

def wwwService : VHostService where
  url := "https://www.example.com/"
  scheme := "https"
  transportHostname := "www.example.com"
  port := ⟨443, https_port.1, https_port.2⟩

theorem wwwServiceEvent_service :
    serviceFromEvent plainTables plainTexts.intOf wwwServiceEvent = .ok wwwService := by decide +kernel

theorem api_unit : (0 : ℚ) ≤ 1 / 2 ∧ (1 / 2 : ℚ) ≤ 1 := by decide +kernel

theorem api_stripped : strip "api" = "api" := by decide

theorem api_nonblank : "api" ≠ "" := by decide

theorem one_candidate : 1 ≤ 1 := le_refl 1

/-- One word, two base domains, and room for one host name. -/
def oneWordCall : VHostCall plainTables plainTexts where
  provider := {}
  serviceEvent := wwwServiceEvent
  service := wwwService
  corpus := [⟨{ token := ⟨"api", api_stripped, api_nonblank⟩ }, api_unit⟩]
  limit := 1
  service_ok := wwwServiceEvent_service
  limit_pos := one_candidate

theorem oneWordCall_pool : oneWordCall.pool id id = ["api.example.com", "api.www.example.com"] := by decide +kernel

theorem oneWordCall_ahead :
    namesAhead VHostCandidate.hostname (VHostCandidate.sortKey plainTables) (oneWordCall.windowCandidates id id 0)
      "api.www.example.com" = 1 := by decide +kernel

theorem child_name_is_never_returned : ¬ oneWordCall.CoversPool id id .empty := by
  rintro ⟨-, bound, hcovers⟩
  have hmem : "api.www.example.com" ∈ oneWordCall.pool id id := by
    rw [oneWordCall_pool]
    decide
  obtain ⟨k, -, hk⟩ := hcovers _ hmem
  have hwords : oneWordCall.words.length = 1 := by decide +kernel
  have hne : oneWordCall.words ≠ [] := List.ne_nil_of_length_pos (by rw [hwords]; exact Nat.one_pos)
  have hfirst := ((oneWordCall.returns_iff id id hne .empty _ k).mp hk).2
  rw [hwords, cursorAt, Nat.mod_one, oneWordCall_ahead] at hfirst
  exact absurd hfirst (lt_irrefl 1)

end NightScout
