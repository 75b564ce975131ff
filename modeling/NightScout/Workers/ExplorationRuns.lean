import NightScout.Workers.Permutations

/-!
# Whether exploration reaches the long tail

A run of the exploration lane claims a window of words and generates from them until it has as many
candidates as it may return. The cursor then passes the whole window, also the words the run did not come
to. `exploration_reaches_iff` says when every word is served nonetheless: from some start on the cursor's
way, one of its names is among the first.
-/

namespace NightScout

open Lib

section Generation

variable (tables : Tables) (log2 log1p : ℚ → ℚ) (config : PermutationsConfig) (seedEvent : Event)
    (seed : String)

/-! ## What a word gives -/

/-- What a label gives, without a limit. -/
def labelCandidates (word : PermutationWord) (label : String) : List (PermutationCandidate tables) :=
  (directWordCandidate tables log2 log1p config seedEvent seed word label .exploration).toList ++
    siblingsOf tables log2 log1p config seedEvent seed word label .exploration

/-- The host names of a word under the seed. -/
def hostnamesOf (word : PermutationWord) : List String :=
  ((word.labelVariants tables).flatMap
    (labelCandidates tables log2 log1p config seedEvent seed word)).map fun candidate =>
      candidate.hostname

theorem appendWhileRoom_eq {α : Type} {limit : ℕ} (candidates generated : List α) (h : generated.length ≤ limit) :
    appendWhileRoom limit generated candidates = (generated ++ candidates).take limit := by
  induction candidates generalizing generated with
  | nil =>
    rw [List.append_nil, List.take_of_length_le h]
    rfl
  | cons candidate candidates ih =>
    unfold appendWhileRoom
    split
    next hfull =>
      have hlength : generated.length = limit := le_antisymm h hfull
      rw [← hlength, List.take_left]
    next hroom =>
      rw [ih _ (by rw [List.length_append, List.length_singleton]; omega), List.append_assoc,
        List.singleton_append]

/-- A generation is the first candidates of what there is. -/
theorem generateLabels_eq {limit : ℕ} (word : PermutationWord) (labels : List String)
    (generated : List (PermutationCandidate tables)) (h : generated.length ≤ limit) :
    generateLabels tables log2 log1p config seedEvent seed .exploration limit word labels generated =
      (generated ++ labels.flatMap (labelCandidates tables log2 log1p config seedEvent seed word)).take limit := by
  induction labels generalizing generated with
  | nil =>
    rw [List.flatMap_nil, List.append_nil, List.take_of_length_le h]
    rfl
  | cons label labels ih =>
    unfold generateLabels
    rw [List.flatMap_cons]
    have hdirect : (directWordCandidate tables log2 log1p config seedEvent seed word label
        .exploration).toList.length ≤ 1 := Option.length_toList_le
    split
    next hfull =>
      have hlength : generated.length = limit := le_antisymm h hfull
      rw [← hlength, List.take_left]
    next hroom =>
      simp only
      unfold labelCandidates
      rw [List.append_assoc, ← List.append_assoc generated]
      generalize hdirects : generated ++ (directWordCandidate tables log2 log1p config seedEvent seed
        word label .exploration).toList = directs
      have hle : directs.length ≤ limit := by
        rw [← hdirects, List.length_append]
        omega
      split
      next hfull =>
        have hlength : directs.length = limit := le_antisymm hle hfull
        rw [← hlength, List.take_left]
      next =>
        rw [appendWhileRoom_eq _ _ hle, ih _ (List.length_take_le _ _), ← List.append_assoc]
        exact take_take_append _ _ _

theorem generateWords_eq (limit : ℕ) (words : List PermutationWord)
    (generated : List (PermutationCandidate tables)) (h : generated.length ≤ limit) :
    generateWords tables log2 log1p config seedEvent seed .exploration limit words generated =
      (generated ++ words.flatMap fun word => (word.labelVariants tables).flatMap
        (labelCandidates tables log2 log1p config seedEvent seed word)).take limit := by
  induction words generalizing generated with
  | nil =>
    rw [List.flatMap_nil, List.append_nil, List.take_of_length_le h]
    rfl
  | cons word words ih =>
    unfold generateWords
    rw [List.flatMap_cons, generateLabels_eq _ _ _ _ _ _ _ _ _ h, ← List.append_assoc]
    simp only
    generalize generated ++ (word.labelVariants tables).flatMap
      (labelCandidates tables log2 log1p config seedEvent seed word) = found
    split
    next hfull =>
      have hlong : limit ≤ found.length := hfull.trans (List.length_take_le' _ _)
      rw [List.take_append_of_le_length hlong]
    next =>
      rw [ih _ (List.length_take_le _ _)]
      exact take_take_append _ _ _

/-! ## What is returned -/

variable {tables} in
theorem bestByHostname_keys (candidates : List (PermutationCandidate tables)) :
    (∀ host candidate, (bestByHostname tables candidates).get? host = some candidate → candidate.hostname = host) ∧
    ∀ host, (bestByHostname tables candidates).get? host ≠ none ↔
      host ∈ candidates.map fun candidate => candidate.hostname := by
  unfold bestByHostname
  induction candidates using List.reverseRecOn with
  | nil => exact ⟨fun _ _ h => (nomatch h), fun _ => by simp⟩
  | append_singleton candidates candidate ih =>
    rw [List.foldl_append, List.foldl_cons, List.foldl_nil]
    generalize candidates.foldl _ _ = best at ih
    obtain ⟨hkey, hmem⟩ := ih
    have hset : ∀ value : PermutationCandidate tables, value.hostname = candidate.hostname →
        (∀ host found, (best.set candidate.hostname value).get? host = some found →
          found.hostname = host) ∧
        ∀ host, (best.set candidate.hostname value).get? host ≠ none ↔
          host ∈ (candidates ++ [candidate]).map fun c => c.hostname := by
      intro value hvalue
      constructor
      · intro host found hfound
        rw [Dict.get?_set] at hfound
        split at hfound
        next heq =>
          cases hfound
          rw [hvalue, heq]
        next => exact hkey host found hfound
      · intro host
        rw [Dict.get?_set, List.map_append, List.mem_append, List.map_singleton, List.mem_singleton,
          ← hmem host]
        split
        next heq => simp [heq]
        next hne => simp [hne]
    cases hget : best.get? candidate.hostname with
    | none => exact hset candidate rfl
    | some existing =>
      simp only
      apply hset
      unfold betterCandidate
      simp only
      split
      · rfl
      · exact hkey _ _ hget

variable {tables} in
theorem mem_values_bestByHostname {candidates : List (PermutationCandidate tables)} {host : String} :
    host ∈ (bestByHostname tables candidates).values.map (fun candidate => candidate.hostname) ↔
      host ∈ candidates.map fun candidate => candidate.hostname := by
  obtain ⟨hkey, hmem⟩ := bestByHostname_keys candidates
  rw [← hmem host, List.mem_map]
  constructor
  · rintro ⟨candidate, hcandidate, rfl⟩
    obtain ⟨key, hget⟩ := Dict.mem_values_iff.mp hcandidate
    rw [hkey key candidate hget, hget]
    exact Option.some_ne_none _
  · intro hne
    obtain ⟨candidate, hget⟩ := Option.ne_none_iff_exists'.mp hne
    exact ⟨candidate, Dict.mem_values_iff.mpr ⟨host, hget⟩, hkey host candidate hget⟩

variable {tables} in
/-- Ranking drops no host name, and adds no candidate. -/
theorem rankAndDedupe_spec (candidates : List (PermutationCandidate tables)) :
    (∀ host, host ∈ (rankAndDedupeCandidates tables candidates).map (fun c => c.hostname) ↔
      host ∈ candidates.map fun c => c.hostname) ∧
    (rankAndDedupeCandidates tables candidates).length ≤ candidates.length := by
  have hperm : (rankAndDedupeCandidates tables candidates).Perm
      (bestByHostname tables candidates).values := List.perm_insertionSort _ _
  constructor
  · intro host
    rw [(hperm.map _).mem_iff]
    exact mem_values_bestByHostname
  · rw [hperm.length_eq]
    have hkeys : (bestByHostname tables candidates).keys.length ≤
        (candidates.map fun c => c.hostname).length := by
      apply (List.subperm_of_subset (bestByHostname tables candidates).nodup_keys _).length_le
      intro host hhost
      obtain ⟨candidate, hget⟩ := Dict.mem_keys_iff.mp hhost
      rw [← (bestByHostname_keys candidates).2 host, hget]
      exact Option.some_ne_none _
    rw [List.length_map] at hkeys
    unfold Dict.keys at hkeys
    unfold Dict.values
    rw [List.length_map] at hkeys ⊢
    exact hkeys

/-- A run over words returns their first host names. -/
theorem mem_generateWordCandidates {limit : ℕ} (hlimit : limit ≠ 0) (words : List PermutationWord) (host : String) :
    host ∈ (generateWordCandidates tables log2 log1p config seedEvent seed words .exploration
        limit).map (fun candidate => candidate.hostname) ↔
      host ∈ (words.flatMap (hostnamesOf tables log2 log1p config seedEvent seed)).take limit := by
  unfold generateWordCandidates
  rw [if_neg hlimit]
  have hgenerated := generateWords_eq tables log2 log1p config seedEvent seed limit words []
    (Nat.zero_le _)
  rw [List.nil_append] at hgenerated
  simp only [hgenerated, reduceCtorEq, false_and, and_false, if_false]
  obtain ⟨hmem, hlength⟩ := rankAndDedupe_spec ((words.flatMap fun word =>
    (word.labelVariants tables).flatMap
      (labelCandidates tables log2 log1p config seedEvent seed word)).take limit)
  rw [List.take_of_length_le (hlength.trans (List.length_take_le _ _)), hmem host, List.map_take,
    List.map_flatMap]
  rfl

end Generation

/-! ## Runs -/

/-- The arguments that stay the same. -/
structure GenerateCall (tables : Tables) where
  seedEvent : Event
  seed : String
  corpus : List PermutationWord
  learned : List (LearnedHostnameHypothesis tables) := []
  candidateLimit : Option ℕ := none
  tier : Option CandidateTier := none

namespace GenerateCall

section Runs

variable {tables : Tables} (log2 log1p : ℚ → ℚ) (config : PermutationsConfig)
    (sha256 : String → String) (call : GenerateCall tables)

def run (offsets : CursorOffsets) : Except PyError (List (PermutationCandidate tables)) × CursorOffsets :=
  generateCandidates tables log2 log1p config sha256 call.seedEvent call.seed call.corpus call.learned
    .exploration call.candidateLimit call.tier offsets

/-- The cursors after `k` runs. -/
def offsetsAfter (offsets : CursorOffsets) (k : ℕ) : CursorOffsets :=
  (fun offsets => (call.run log2 log1p config sha256 offsets).2)^[k] offsets

def words : List PermutationWord := explorationWords tables call.corpus

def limit : ℕ := config.explorationLimitFor (config.totalFor call.candidateLimit)

/-- How many words a run claims. -/
def windowSize : ℕ := min call.words.length (call.limit config)

def cursorNamespace : String :=
  explorationNamespace tables sha256 call.seed (call.tier.getD config.tier)

/-- Where the cursor stands. -/
def position (offsets : CursorOffsets) : ℕ :=
  (offsets.get? (call.cursorNamespace config sha256)).getD 0

/-- The host names of a word. -/
def hostnames (word : PermutationWord) : List String :=
  hostnamesOf tables log2 log1p config call.seedEvent call.seed word

/-- The first host names from a place on. -/
def firstHostnames (start : ℕ) : List String :=
  (((circleWindow call.words.length (call.windowSize config) start).filterMap fun index =>
    call.words[index]?).flatMap (call.hostnames log2 log1p config)).take (call.limit config)

/-- The `k`-th run returned a candidate of the word. -/
def Served (offsets : CursorOffsets) (word : PermutationWord) (k : ℕ) : Prop :=
  ∃ candidates, (call.run log2 log1p config sha256
      (call.offsetsAfter log2 log1p config sha256 offsets k)).1 = .ok candidates ∧
    ∃ candidate ∈ candidates, candidate.hostname ∈ call.hostnames log2 log1p config word

/-- From some place on the cursor's way, one of the word's names is among the first. -/
def OnTheWay (position : ℕ) (word : PermutationWord) : Prop :=
  ∃ start, start < call.words.length ∧
    start ≡ position [MOD call.words.length.gcd (call.windowSize config)] ∧
    ∃ host ∈ call.hostnames log2 log1p config word,
      host ∈ call.firstHostnames log2 log1p config start

theorem limit_ne_zero : call.limit config ≠ 0 := by
  have htotal : 1 ≤ config.totalFor call.candidateLimit := by
    have heffective : 1 ≤ config.effectiveMaxCandidates := by
      unfold PermutationsConfig.effectiveMaxCandidates
      cases hmax : config.maxCandidates with
      | none => cases config.tier <;> decide
      | some n => exact config.maxCandidates_pos n hmax
    cases call.candidateLimit with
    | none => exact heffective
    | some n =>
      unfold PermutationsConfig.totalFor
      simp only
      split
      · exact heffective
      · omega
  have hminimum := config.minimum_pos
  unfold limit PermutationsConfig.explorationLimitFor
  have hreserved : 1 ≤ max config.minimumExplorationCandidates
      ⌈(config.totalFor call.candidateLimit : ℚ) * config.explorationFraction⌉₊ :=
    hminimum.trans (le_max_left _ _)
  omega

/-- A run generates from the window at the cursor, and moves the cursor past it. -/
theorem run_eq (hne : call.words ≠ []) (offsets : CursorOffsets) : call.run log2 log1p config sha256 offsets =
      (.ok (generateWordCandidates tables log2 log1p config call.seedEvent call.seed
        ((circleWindow call.words.length (call.windowSize config)
          (call.position config sha256 offsets % call.words.length)).filterMap fun index =>
            call.words[index]?) .exploration (call.limit config)), offsets.set (call.cursorNamespace config sha256)
          ((call.position config sha256 offsets % call.words.length + call.windowSize config) %
            call.words.length)) := by
  have hlimit := call.limit_ne_zero config
  have hlength : call.words.length ≠ 0 := fun h => hne (List.length_eq_zero_iff.mp h)
  have hwindow : min call.words.length (call.windowSize config) = call.windowSize config :=
    min_eq_right (min_le_left _ _)
  have hsize : call.windowSize config ≠ 0 := by
    unfold windowSize
    omega
  have hclaim : claimWindow offsets (call.cursorNamespace config sha256) call.words.length
      (call.windowSize config) =
        (circleWindow call.words.length (call.windowSize config)
          (call.position config sha256 offsets % call.words.length),
        offsets.set (call.cursorNamespace config sha256)
          ((call.position config sha256 offsets % call.words.length + call.windowSize config) %
            call.words.length)) := by
    unfold claimWindow
    rw [if_neg (not_or.mpr ⟨hlength, hsize⟩)]
    simp only [hwindow]
    rfl
  have hrun : call.run log2 log1p config sha256 offsets =
      if call.words = [] ∨ call.limit config = 0 then (.ok [], offsets)
      else
        (.ok (generateWordCandidates tables log2 log1p config call.seedEvent call.seed
          ((claimWindow offsets (call.cursorNamespace config sha256) call.words.length
            (call.windowSize config)).1.filterMap fun index => call.words[index]?)
          .exploration (call.limit config)),
        (claimWindow offsets (call.cursorNamespace config sha256) call.words.length
          (call.windowSize config)).2) := rfl
  rw [hrun, if_neg (not_or.mpr ⟨hne, hlimit⟩), hclaim]

theorem position_offsetsAfter (hne : call.words ≠ []) (offsets : CursorOffsets) (k : ℕ) :
    call.position config sha256 (call.offsetsAfter log2 log1p config sha256 offsets k) % call.words.length =
      cursorAt call.words.length (call.windowSize config) (call.position config sha256 offsets) k := by
  induction k generalizing offsets with
  | zero =>
    unfold cursorAt
    rw [Nat.zero_mul, Nat.add_zero]
    rfl
  | succ k ih =>
    have hstep : call.offsetsAfter log2 log1p config sha256 offsets (k + 1) =
        call.offsetsAfter log2 log1p config sha256 (call.run log2 log1p config sha256 offsets).2 k := rfl
    have hposition : call.position config sha256 (call.run log2 log1p config sha256 offsets).2 =
        (call.position config sha256 offsets % call.words.length + call.windowSize config) %
          call.words.length := by
      rw [run_eq _ _ _ _ _ hne]
      unfold position
      rw [Dict.get?_set_self]
      rfl
    rw [hstep, ih, hposition, cursorAt_succ]

theorem served_iff (hne : call.words ≠ []) (offsets : CursorOffsets) (word : PermutationWord) (k : ℕ) :
    call.Served log2 log1p config sha256 offsets word k ↔ ∃ host ∈ call.hostnames log2 log1p config word,
        host ∈ call.firstHostnames log2 log1p config (cursorAt call.words.length
          (call.windowSize config) (call.position config sha256 offsets) k) := by
  have hfirst := mem_generateWordCandidates tables log2 log1p config call.seedEvent call.seed
    (call.limit_ne_zero config)
  unfold Served
  rw [run_eq _ _ _ _ _ hne, position_offsetsAfter _ _ _ _ _ hne]
  constructor
  · rintro ⟨candidates, hok, candidate, hcandidate, hhost⟩
    cases hok
    exact ⟨_, hhost, (hfirst _ _).mp (List.mem_map_of_mem hcandidate)⟩
  · rintro ⟨host, hhost, hmem⟩
    obtain ⟨candidate, hcandidate, rfl⟩ := List.mem_map.mp ((hfirst _ host).mpr hmem)
    exact ⟨_, rfl, candidate, hcandidate, hhost⟩

/-- A word on the way is served within one turn of the cursor. -/
theorem served_within_turn (hne : call.words ≠ []) (offsets : CursorOffsets) (word : PermutationWord) :
    (∃ k < call.words.length, call.Served log2 log1p config sha256 offsets word k) ↔
      call.OnTheWay log2 log1p config (call.position config sha256 offsets) word := by
  have hpos : 0 < call.words.length := List.length_pos_iff.mpr hne
  constructor
  · rintro ⟨k, _, hserved⟩
    obtain ⟨host, hhost, hmem⟩ := (served_iff _ _ _ _ _ hne offsets word k).mp hserved
    exact ⟨_, Nat.mod_lt _ hpos, cursorAt_modEq _ _ _ _, host, hhost, hmem⟩
  · rintro ⟨start, hstart, hmod, host, hhost, hmem⟩
    obtain ⟨k, hk, rfl⟩ := exists_cursorAt hpos hstart hmod
    exact ⟨k, hk, (served_iff _ _ _ _ _ hne offsets word k).mpr ⟨host, hhost, hmem⟩⟩

/-- A word is served at some time exactly if it is on the way. -/
theorem served_sometime_iff (hne : call.words ≠ []) (offsets : CursorOffsets) (word : PermutationWord) :
    (∃ k, call.Served log2 log1p config sha256 offsets word k) ↔
      call.OnTheWay log2 log1p config (call.position config sha256 offsets) word := by
  constructor
  · rintro ⟨k, hserved⟩
    obtain ⟨host, hhost, hmem⟩ := (served_iff _ _ _ _ _ hne offsets word k).mp hserved
    exact ⟨_, Nat.mod_lt _ (List.length_pos_iff.mpr hne), cursorAt_modEq _ _ _ _, host, hhost, hmem⟩
  · intro h
    obtain ⟨k, _, hserved⟩ := (served_within_turn _ _ _ _ _ hne offsets word).mpr h
    exact ⟨k, hserved⟩

/-- A bounded number of runs serves every word that has a host name. -/
def ReachesAll (offsets : CursorOffsets) : Prop :=
  ∃ bound, ∀ word ∈ call.words, call.hostnames log2 log1p config word ≠ [] →
    ∃ k < bound, call.Served log2 log1p config sha256 offsets word k

theorem reachesAll_iff (offsets : CursorOffsets) : call.ReachesAll log2 log1p config sha256 offsets ↔
      ∀ word ∈ call.words, call.hostnames log2 log1p config word ≠ [] →
        call.OnTheWay log2 log1p config (call.position config sha256 offsets) word := by
  constructor
  · rintro ⟨bound, h⟩ word hword hhosts
    obtain ⟨k, _, hserved⟩ := h word hword hhosts
    exact (served_sometime_iff _ _ _ _ _ (List.ne_nil_of_mem hword) offsets word).mp ⟨k, hserved⟩
  · intro h
    refine ⟨call.words.length, fun word hword hhosts => ?_⟩
    exact (served_within_turn _ _ _ _ _ (List.ne_nil_of_mem hword) offsets word).mpr
      (h word hword hhosts)

end Runs

end GenerateCall

/-- **Exploration reaches every word** in a bounded number of runs exactly if, for every word that has a
    host name, one of its names is among the first from some place on the cursor's way. -/
theorem exploration_reaches_iff (tables : Tables) (log2 log1p : ℚ → ℚ) (config : PermutationsConfig)
    (sha256 : String → String) (call : GenerateCall tables) (offsets : CursorOffsets) :
    (∃ bound, ∀ word ∈ call.words, call.hostnames log2 log1p config word ≠ [] →
      ∃ k < bound, call.Served log2 log1p config sha256 offsets word k) ↔
    ∀ word ∈ call.words, call.hostnames log2 log1p config word ≠ [] →
      call.OnTheWay log2 log1p config (call.position config sha256 offsets) word :=
  call.reachesAll_iff log2 log1p config sha256 offsets

/-! ## A word that is never served -/

/-- Two words of two labels each, and room for two candidates. -/
def tailCall (tables : Tables) : GenerateCall tables where
  seedEvent := {
    eventId := "evt_root"
    type := .rootDomain
    value := "example.com"
    source := ⟨"seed-list", by decide, by decide⟩
    firstSeen := 0
    lastSeen := 0
    confidence_unit := zero_unit
    novelty_unit := zero_unit }
  seed := "example.com"
  corpus := [{ token := ⟨"dev-api", by decide, by decide⟩, globalRank := some 1 },
    { token := ⟨"old-site", by decide, by decide⟩, globalRank := some 2 }]
  candidateLimit := some 2

theorem tailCall_hostnames : (tailCall plainTables).words.map ((tailCall plainTables).hostnames id id {}) =
      [["dev-api.example.com", "devapi.example.com"],
        ["old-site.example.com", "oldsite.example.com"]] := by
  decide +kernel

theorem tailCall_firstHostnames : (tailCall plainTables).firstHostnames id id {} 0 =
      ["dev-api.example.com", "devapi.example.com"] := by
  decide +kernel

theorem tailCall_window : (tailCall plainTables).words.length = 2 ∧ (tailCall plainTables).windowSize {} = 2 ∧
      (tailCall plainTables).position {} id .empty = 0 := by
  decide +kernel

/-- The first word takes both candidates, and the cursor comes back to it every time. -/
theorem tail_is_never_reached : ¬ ∃ bound, ∀ word ∈ (tailCall plainTables).words,
      (tailCall plainTables).hostnames id id {} word ≠ [] →
        ∃ k < bound, (tailCall plainTables).Served id id {} id .empty word k := by
  rw [← GenerateCall.ReachesAll, GenerateCall.reachesAll_iff]
  intro hreached
  obtain ⟨hlength, hwindow, hposition⟩ := tailCall_window
  have hsecond : ["old-site.example.com", "oldsite.example.com"] ∈
      (tailCall plainTables).words.map ((tailCall plainTables).hostnames id id {}) := by
    rw [tailCall_hostnames]
    exact List.mem_cons_of_mem _ (List.mem_singleton.mpr rfl)
  obtain ⟨word, hword, hnames⟩ := List.mem_map.mp hsecond
  obtain ⟨start, hstart, hmod, host, hhost, hfirst⟩ := hreached word hword
    (by rw [hnames]; exact List.cons_ne_nil _ _)
  rw [hlength] at hstart hmod
  rw [hwindow, hposition] at hmod
  -- a turn starts at the first word again
  have hzero : start = 0 := Nat.eq_zero_of_dvd_of_lt ((Nat.modEq_zero_iff_dvd).mp hmod) hstart
  rw [hnames] at hhost
  rw [hzero, tailCall_firstHostnames] at hfirst
  simp only [List.mem_cons, List.not_mem_nil, or_false] at hhost hfirst
  obtain rfl | rfl := hhost <;> exact absurd hfirst (by decide)

end NightScout
