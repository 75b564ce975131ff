import NightScout.Workers.Parameters

/-!
# Selecting parameter candidates

What a task selects has no name twice, is of its lane and within its limits, and exploration comes to the whole pool.
That it leaves out the names the URL of its endpoint has is not so: the target it asks for them has no query any more.
`selection_fair_iff` says when none of them is selected anyway.
-/

namespace NightScout

open Lib

section Selection

variable (tables : Tables) (log2 log1p : ℚ → ℚ) (sha256 : String → String) (config : ParameterDiscoveryConfig)

namespace ParameterTask

variable (task : ParameterTask)

def limit : ℕ := limitOf (config.configured task.lane) task.limitHint

/-- The names in the query of the endpoint. -/
def names : List String := ((queryParameterNames tables task.event.value).toOption).getD []

/-- The merged candidates of the lane. -/
def offered : List ParameterCandidate := lanePool tables task.candidates task.lane []

/-- Those that the endpoint does not have. -/
def allowed : List ParameterCandidate := lanePool tables task.candidates task.lane (task.names tables)

/-- The event is a target of the worker. -/
def Active : Prop := ∃ target, parameterTargetFromEvent tables task.event = .ok target

/-- What a selection has to be. -/
structure Fair (selected : List ParameterCandidate) : Prop where
  distinct : (selected.map ParameterCandidate.name).Nodup
  lane : ∀ c ∈ selected, c.lane = task.lane
  bounded : selected.length ≤ task.limit config
  disjoint : ∀ c ∈ selected, c.name ∉ task.names tables
  sorted : task.lane = .targeted →
    selected.Pairwise fun a b => a.targetedSortKey tables log2 log1p ≤ b.targetedSortKey tables log2 log1p
  top : task.lane = .targeted → ∀ d ∈ task.allowed tables, d ∉ selected → selected.length = task.limit config ∧
    ∀ c ∈ selected, c.targetedSortKey tables log2 log1p ≤ d.targetedSortKey tables log2 log1p

/-- A task for the same endpoint that selects from the same pool, as many. -/
structure SameSelection (task' : ParameterTask) : Prop where
  target : parameterTargetFromEvent tables task'.event = parameterTargetFromEvent tables task.event
  lane : task'.lane = task.lane
  offered : task'.offered tables = task.offered tables
  limit : task'.limit config = task.limit config

/-- Runs of tasks, from one cursor after another: between two of them the cursor of the endpoint stays. -/
def Consecutive (tasks : ℕ → ParameterTask) (offsets : ℕ → CursorOffsets) : Prop :=
  ∀ i target cursorNamespace selected after, parameterTargetFromEvent tables (tasks i).event = .ok target →
    parameterNamespace tables sha256 target = .ok cursorNamespace →
    (tasks i).select tables log2 log1p sha256 config (offsets i) = .ok (selected, after) →
    (offsets (i + 1)).get? cursorNamespace = after.get? cursorNamespace

structure SelectsFairly : Prop where
  fair : ∀ offsets selected after, task.select tables log2 log1p sha256 config offsets = .ok (selected, after) →
    task.Fair tables log2 log1p config selected
  covers : task.lane = .exploration → task.Active tables → ∀ tasks offsets,
    (∀ i, task.SameSelection tables config (tasks i)) → Consecutive tables log2 log1p sha256 config tasks offsets →
    ∀ c ∈ task.allowed tables, ∃ i < ((task.allowed tables).length + task.limit config - 1) / task.limit config,
      ∃ selected after, (tasks i).select tables log2 log1p sha256 config (offsets i) = .ok (selected, after) ∧
        c ∈ selected

open Classical in
/-- No name of the endpoint is selected: exploration is offered none, and a targeted one has enough before it. -/
def Spared : Prop :=
  task.Active tables → ∀ c ∈ task.offered tables, c.name ∈ task.names tables →
    task.lane = .targeted ∧
      task.limit config ≤ placesBefore (ParameterCandidate.targetedSortKey tables log2 log1p) (task.offered tables) c

end ParameterTask

end Selection

/-! ## One selection -/

section OneSelection

variable {tables : Tables} {log2 log1p : ℚ → ℚ} {sha256 : String → String} {config : ParameterDiscoveryConfig}
  {task : ParameterTask} {target cursorNamespace : String} {offsets after : CursorOffsets}
  {selected : List ParameterCandidate} {c : ParameterCandidate}

theorem one_le_limit : 1 ≤ task.limit config := by
  have hconfigured : 1 ≤ config.configured task.lane := by
    cases hlane : task.lane with
    | targeted => exact config.targeted_range.1
    | exploration => exact config.exploration_range.1
  unfold ParameterTask.limit limitOf
  cases task.limitHint with
  | none => simpa using hconfigured
  | some hint => exact le_min hconfigured hint.pos

theorem mem_lanePool {candidates : List ParameterCandidate} {lane : ParameterLane} {existing : List String} :
    c ∈ lanePool tables candidates lane existing ↔
      c ∈ ParameterCandidate.dedupeCandidates tables candidates ∧ c.lane = lane ∧ c.name ∉ existing := by
  simp [lanePool]

theorem mem_allowed : c ∈ task.allowed tables ↔ c ∈ task.offered tables ∧ c.name ∉ task.names tables := by
  rw [ParameterTask.allowed, ParameterTask.offered, mem_lanePool, mem_lanePool]
  simp [and_assoc]

theorem nodup_offered : ((task.offered tables).map ParameterCandidate.name).Nodup := by
  have hkey : ∀ a b : ParameterCandidate, a.name = b.name → (a.merge tables b).name = a.name := fun _ _ _ => rfl
  have hmerged : ((ParameterCandidate.dedupeCandidates tables task.candidates).map ParameterCandidate.name).Nodup :=
    nodup_mergeAll hkey task.candidates
  exact hmerged.sublist (List.filter_sublist.map _)

theorem target_of_event (h : parameterTargetFromEvent tables task.event = .ok target) :
    parameterTargetUrlValue tables task.event.value = .ok target := by
  unfold parameterTargetFromEvent at h
  obtain ⟨-, h⟩ := guard_ok h
  exact (guard_ok h).2

/-- The pool of the exploration lane, in its order. -/
def explorationPool (tables : Tables) (task : ParameterTask) : List ParameterCandidate :=
  sortBy (ParameterCandidate.explorationSortKey tables) (task.offered tables)

theorem select_targeted (htarget : parameterTargetFromEvent tables task.event = .ok target)
    (hlane : task.lane = .targeted) (offsets : CursorOffsets) : task.select tables log2 log1p sha256 config offsets =
      .ok ((sortBy (ParameterCandidate.targetedSortKey tables log2 log1p) (task.offered tables)).take
        (task.limit config), offsets) := by
  rw [ParameterTask.select, htarget, ok_bind, selectCandidates, queryParameterNames_target (target_of_event htarget),
    ok_bind]
  unfold ParameterTask.offered ParameterTask.limit
  rw [hlane]
  rfl

/-- An exploration run selects the window at the cursor, and moves the cursor past it. -/
theorem select_exploration (htarget : parameterTargetFromEvent tables task.event = .ok target)
    (hname : parameterNamespace tables sha256 target = .ok cursorNamespace) (hlane : task.lane = .exploration)
    (hne : task.offered tables ≠ []) (offsets : CursorOffsets) : task.select tables log2 log1p sha256 config offsets =
      .ok ((circleWindow (explorationPool tables task).length
          (min (explorationPool tables task).length (task.limit config))
          ((offsets.get? cursorNamespace).getD 0 % (explorationPool tables task).length)).filterMap
            fun index => (explorationPool tables task)[index]?,
        offsets.set cursorNamespace (((offsets.get? cursorNamespace).getD 0 % (explorationPool tables task).length +
          min (explorationPool tables task).length (task.limit config)) % (explorationPool tables task).length)) := by
  have hpool : sortBy (ParameterCandidate.explorationSortKey tables) (lanePool tables task.candidates .exploration []) =
      explorationPool tables task := by rw [explorationPool, ParameterTask.offered, hlane]
  have hlimit : limitOf (config.configured .exploration) task.limitHint = task.limit config := by
    rw [ParameterTask.limit, hlane]
  have hpool_ne : explorationPool tables task ≠ [] := by
    have hperm : (explorationPool tables task).Perm (task.offered tables) := perm_sortBy _
    rwa [Ne, ← List.isEmpty_iff, hperm.isEmpty_eq, List.isEmpty_iff]
  have hlength : (explorationPool tables task).length ≠ 0 := fun h => hpool_ne (List.length_eq_zero_iff.mp h)
  have hlimit_pos : 1 ≤ task.limit config := one_le_limit
  have hclaim : claimWindow offsets cursorNamespace (explorationPool tables task).length
      (min (explorationPool tables task).length (task.limit config)) =
        (circleWindow (explorationPool tables task).length
          (min (explorationPool tables task).length (task.limit config))
          ((offsets.get? cursorNamespace).getD 0 % (explorationPool tables task).length),
        offsets.set cursorNamespace (((offsets.get? cursorNamespace).getD 0 % (explorationPool tables task).length +
          min (explorationPool tables task).length (task.limit config)) % (explorationPool tables task).length)) := by
    unfold claimWindow
    rw [if_neg (by omega)]
    simp only [min_self, ← min_assoc]
  rw [ParameterTask.select, htarget, ok_bind, selectCandidates, queryParameterNames_target (target_of_event htarget),
    ok_bind, hlane]
  simp only [hpool, hlimit, if_neg hpool_ne, hname, ok_bind, hclaim]
  rfl

theorem select_exploration_nil (htarget : parameterTargetFromEvent tables task.event = .ok target)
    (hlane : task.lane = .exploration) (hnil : task.offered tables = []) (offsets : CursorOffsets) :
    task.select tables log2 log1p sha256 config offsets = .ok ([], offsets) := by
  rw [ParameterTask.offered, hlane] at hnil
  rw [ParameterTask.select, htarget, ok_bind, selectCandidates, queryParameterNames_target (target_of_event htarget),
    ok_bind, hlane]
  simp only [hnil]
  rfl

/-- What is selected is of the pool, and each of it once. -/
theorem select_pool (h : task.select tables log2 log1p sha256 config offsets = .ok (selected, after)) :
    (selected.map ParameterCandidate.name).Nodup ∧ (∀ c ∈ selected, c ∈ task.offered tables) ∧
      selected.length ≤ task.limit config := by
  obtain ⟨target, htarget, -⟩ := bind_ok h
  obtain ⟨cursorNamespace, hname⟩ := parameterNamespace_target sha256 (target_of_event htarget)
  cases hlane : task.lane with
  | targeted =>
    rw [select_targeted htarget hlane] at h
    obtain ⟨rfl, -⟩ := Prod.mk.inj (Except.ok.inj h)
    refine ⟨?_, fun c hc => mem_sortBy.mp (List.mem_of_mem_take hc), List.length_take_le _ _⟩
    have hsorted : ((sortBy (ParameterCandidate.targetedSortKey tables log2 log1p) (task.offered tables)).map
        ParameterCandidate.name).Nodup := ((perm_sortBy _).map _).nodup_iff.mpr nodup_offered
    exact hsorted.sublist ((List.take_sublist _ _).map _)
  | exploration =>
    by_cases hne : task.offered tables = []
    · rw [select_exploration_nil htarget hlane hne] at h
      obtain ⟨rfl, -⟩ := Prod.mk.inj (Except.ok.inj h)
      exact ⟨List.nodup_nil, fun c hc => absurd hc List.not_mem_nil, Nat.zero_le _⟩
    rw [select_exploration htarget hname hlane hne] at h
    obtain ⟨rfl, -⟩ := Prod.mk.inj (Except.ok.inj h)
    have hnames : ((explorationPool tables task).map ParameterCandidate.name).Nodup :=
      ((perm_sortBy _).map _).nodup_iff.mpr nodup_offered
    have hmem : ∀ {start : ℕ}, ∀ c ∈ (circleWindow (explorationPool tables task).length
        (min (explorationPool tables task).length (task.limit config)) start).filterMap
          fun index => (explorationPool tables task)[index]?, c ∈ explorationPool tables task := by
      intro start c hc
      obtain ⟨index, -, hindex⟩ := List.mem_filterMap.mp hc
      exact List.mem_of_getElem? hindex
    refine ⟨?_, fun c hc => mem_sortBy.mp (hmem c hc), ?_⟩
    · refine List.Nodup.map_on (fun a ha b hb => List.inj_on_of_nodup_map hnames (hmem a ha) (hmem b hb)) ?_
      refine List.Nodup.filterMap ?_ (nodup_circleWindow (min_le_left _ _))
      intro i j c hi hj
      exact (List.getElem?_inj (List.getElem?_eq_some_iff.mp hi).1 hnames.of_map).mp (hi.trans hj.symm)
    · refine (List.length_filterMap_le _ _).trans ?_
      rw [circleWindow, List.length_map, List.length_range]
      exact min_le_right _ _

end OneSelection

/-! ## Runs of exploration -/

section Runs

variable {tables : Tables} {log2 log1p : ℚ → ℚ} {sha256 : String → String} {config : ParameterDiscoveryConfig}
  {task task' : ParameterTask} {target cursorNamespace : String} {offsets : CursorOffsets} {c : ParameterCandidate}

/-- What is selected depends on the pool, and not on where it comes from. -/
theorem ParameterTask.SameSelection.select_eq (h : task.SameSelection tables config task')
    (htarget : parameterTargetFromEvent tables task.event = .ok target) (hlane : task.lane = .exploration)
    (offsets : CursorOffsets) : task'.select tables log2 log1p sha256 config offsets =
      task.select tables log2 log1p sha256 config offsets := by
  have htarget' : parameterTargetFromEvent tables task'.event = .ok target := by rw [h.target, htarget]
  have hlane' : task'.lane = .exploration := by rw [h.lane, hlane]
  obtain ⟨cursorNamespace, hname⟩ := parameterNamespace_target sha256 (target_of_event htarget)
  by_cases hne : task.offered tables = []
  · rw [select_exploration_nil htarget hlane hne, select_exploration_nil htarget' hlane' (by rw [h.offered, hne])]
  · have hpool : explorationPool tables task' = explorationPool tables task := by
      rw [explorationPool, explorationPool, h.offered]
    rw [select_exploration htarget hname hlane hne, select_exploration htarget' hname hlane' (by rwa [h.offered]),
      hpool, h.limit]

/-- Where the cursor of the endpoint stands before each run. -/
theorem cursor_consecutive {tasks : ℕ → ParameterTask} {offsets : ℕ → CursorOffsets}
    (htarget : parameterTargetFromEvent tables task.event = .ok target)
    (hname : parameterNamespace tables sha256 target = .ok cursorNamespace) (hlane : task.lane = .exploration)
    (hne : task.offered tables ≠ []) (hsame : ∀ i, task.SameSelection tables config (tasks i))
    (hruns : ParameterTask.Consecutive tables log2 log1p sha256 config tasks offsets) (i : ℕ) :
    ((offsets i).get? cursorNamespace).getD 0 % (explorationPool tables task).length =
      cursorAt (explorationPool tables task).length (min (explorationPool tables task).length (task.limit config))
        (((offsets 0).get? cursorNamespace).getD 0) i := by
  induction i with
  | zero =>
    unfold cursorAt
    rw [Nat.zero_mul, Nat.add_zero]
  | succ i ih =>
    have hselect : (tasks i).select tables log2 log1p sha256 config (offsets i) =
        task.select tables log2 log1p sha256 config (offsets i) := (hsame i).select_eq htarget hlane (offsets i)
    rw [select_exploration htarget hname hlane hne] at hselect
    have htarget' : parameterTargetFromEvent tables (tasks i).event = .ok target := by rw [(hsame i).target, htarget]
    have hnext := hruns i target cursorNamespace _ _ htarget' hname hselect
    rw [hnext, Dict.get?_set_self, Option.getD_some, Nat.mod_mod, ih, cursorAt, cursorAt, Nat.mod_add_mod,
      Nat.add_assoc, Nat.succ_mul]

/-- **Exploration comes to the whole pool**, in as many runs as windows fit on it. -/
theorem exploration_covers {tasks : ℕ → ParameterTask} {offsets : ℕ → CursorOffsets}
    (htarget : parameterTargetFromEvent tables task.event = .ok target) (hlane : task.lane = .exploration)
    (hsame : ∀ i, task.SameSelection tables config (tasks i))
    (hruns : ParameterTask.Consecutive tables log2 log1p sha256 config tasks offsets) (hc : c ∈ task.offered tables) :
    ∃ i < ((task.offered tables).length + task.limit config - 1) / task.limit config, ∃ selected after,
      (tasks i).select tables log2 log1p sha256 config (offsets i) = .ok (selected, after) ∧ c ∈ selected := by
  obtain ⟨cursorNamespace, hname⟩ := parameterNamespace_target sha256 (target_of_event htarget)
  have hne : task.offered tables ≠ [] := List.ne_nil_of_mem hc
  have hlength : (explorationPool tables task).length = (task.offered tables).length := (perm_sortBy _).length_eq
  have hpos : 0 < (task.offered tables).length := List.length_pos_of_mem hc
  have hlimit : 1 ≤ task.limit config := one_le_limit
  have hmem : c ∈ explorationPool tables task := mem_sortBy.mpr hc
  obtain ⟨t, ht, htc⟩ := List.getElem_of_mem hmem
  have hwindows : ∃ i < ((explorationPool tables task).length + min (explorationPool tables task).length
      (task.limit config) - 1) / min (explorationPool tables task).length (task.limit config),
      t ∈ circleWindow (explorationPool tables task).length (min (explorationPool tables task).length (task.limit config))
        (cursorAt (explorationPool tables task).length (min (explorationPool tables task).length (task.limit config))
          (((offsets 0).get? cursorNamespace).getD 0) i) := exists_window (by omega) ht
  obtain ⟨i, hi, hwindow⟩ := hwindows
  refine ⟨i, ?_, ?_⟩
  · rw [hlength] at hi
    rcases Nat.le_total (task.limit config) (task.offered tables).length with hle | hle
    · rwa [min_eq_right hle] at hi
    · -- the whole pool is one window
      have hwhole : ((task.offered tables).length + (task.offered tables).length - 1) / (task.offered tables).length = 1 :=
        Nat.div_eq_of_lt_le (by omega) (by omega)
      rw [min_eq_left hle, hwhole] at hi
      have hone : 1 ≤ ((task.offered tables).length + task.limit config - 1) / task.limit config :=
        (Nat.one_le_div_iff hlimit).mpr (by omega)
      omega
  · rw [(hsame i).select_eq htarget hlane, select_exploration htarget hname hlane hne,
      cursor_consecutive htarget hname hlane hne hsame hruns i]
    refine ⟨_, _, rfl, List.mem_filterMap.mpr ⟨t, hwindow, ?_⟩⟩
    rw [List.getElem?_eq_getElem ht, htc]

/-- Every candidate of the pool is selected from some cursor. -/
theorem exists_selected (htarget : parameterTargetFromEvent tables task.event = .ok target)
    (hlane : task.lane = .exploration) (hc : c ∈ task.offered tables) :
    ∃ offsets selected after, task.select tables log2 log1p sha256 config offsets = .ok (selected, after) ∧
      c ∈ selected := by
  have hnext : ∀ offsets : CursorOffsets, ∃ after : CursorOffsets, ∀ selected after',
      task.select tables log2 log1p sha256 config offsets = .ok (selected, after') → after = after' := by
    intro offsets
    cases hselect : task.select tables log2 log1p sha256 config offsets with
    | error e => exact ⟨offsets, fun _ _ h => absurd h (by simp)⟩
    | ok result =>
      refine ⟨result.2, fun selected after' h => ?_⟩
      rw [Except.ok.inj h]
  choose next hnext using hnext
  have hruns : ParameterTask.Consecutive tables log2 log1p sha256 config (fun _ => task) (fun i => next^[i] .empty) := by
    intro i target cursorNamespace selected after _ _ hselect
    show (next^[i + 1] .empty).get? cursorNamespace = after.get? cursorNamespace
    rw [Function.iterate_succ_apply', hnext _ _ _ hselect]
  obtain ⟨i, -, selected, after, hselect, hmem⟩ := exploration_covers htarget hlane (fun _ => ⟨rfl, rfl, rfl, rfl⟩)
    hruns hc
  exact ⟨_, selected, after, hselect, hmem⟩

end Runs

/-! ## When a selection is fair -/

section Fair

variable {tables : Tables} {log2 log1p : ℚ → ℚ} {sha256 : String → String} {config : ParameterDiscoveryConfig}
  {task : ParameterTask} {offsets after : CursorOffsets} {selected : List ParameterCandidate}

/-- What a selection is in any case, but for the names of the endpoint. -/
theorem fair_of_disjoint (h : task.select tables log2 log1p sha256 config offsets = .ok (selected, after))
    (hdisjoint : ∀ c ∈ selected, c.name ∉ task.names tables) : task.Fair tables log2 log1p config selected := by
  obtain ⟨target, htarget, -⟩ := bind_ok h
  obtain ⟨hdistinct, hpool, hbounded⟩ := select_pool h
  refine ⟨hdistinct, fun c hc => (mem_lanePool.mp (hpool c hc)).2.1, hbounded, hdisjoint, ?_, ?_⟩
  · intro hlane
    rw [select_targeted htarget hlane] at h
    obtain ⟨rfl, -⟩ := Prod.mk.inj (Except.ok.inj h)
    exact (sorted_sortBy _).sublist (List.take_sublist _ _)
  · intro hlane d hd hnot
    rw [select_targeted htarget hlane] at h
    obtain ⟨rfl, -⟩ := Prod.mk.inj (Except.ok.inj h)
    have hoffered : d ∈ task.offered tables := (mem_allowed.mp hd).1
    refine ⟨?_, fun c hc => le_of_take hc hoffered hnot⟩
    rw [List.length_take, min_eq_left]
    by_contra hshort
    rw [List.take_of_length_le (by omega)] at hnot
    exact hnot (mem_sortBy.mpr hoffered)

theorem ParameterTask.Spared.disjoint (hspared : task.Spared tables log2 log1p config)
    (h : task.select tables log2 log1p sha256 config offsets = .ok (selected, after)) :
    ∀ c ∈ selected, c.name ∉ task.names tables := by
  classical
  intro c hc hname
  obtain ⟨target, htarget, -⟩ := bind_ok h
  have hoffered : c ∈ task.offered tables := (select_pool h).2.1 c hc
  obtain ⟨hlane, hbefore⟩ := hspared ⟨target, htarget⟩ c hoffered hname
  rw [select_targeted htarget hlane] at h
  obtain ⟨rfl, -⟩ := Prod.mk.inj (Except.ok.inj h)
  exact absurd ((mem_take_sortBy hoffered).mp hc) (not_lt.mpr hbefore)

/-- **A selection is fair exactly if no name of the endpoint is selected.** -/
theorem selection_fair_iff (tables : Tables) (log2 log1p : ℚ → ℚ) (sha256 : String → String)
    (config : ParameterDiscoveryConfig) (task : ParameterTask) :
    task.SelectsFairly tables log2 log1p sha256 config ↔ task.Spared tables log2 log1p config := by
  classical
  constructor
  · intro h hactive c hc hname
    obtain ⟨target, htarget⟩ := hactive
    cases hlane : task.lane with
    | targeted =>
      refine ⟨rfl, not_lt.mp fun hbefore => ?_⟩
      have hselect : task.select tables log2 log1p sha256 config .empty = _ := select_targeted htarget hlane .empty
      exact (h.fair _ _ _ hselect).disjoint c ((mem_take_sortBy hc).mpr hbefore) hname
    | exploration =>
      obtain ⟨offsets, selected, after, hselect, hmem⟩ := exists_selected htarget hlane hc
      exact absurd hname ((h.fair _ _ _ hselect).disjoint c hmem)
  · intro h
    refine ⟨fun offsets selected after hselect => fair_of_disjoint hselect (h.disjoint hselect), ?_⟩
    rintro hlane ⟨target, htarget⟩ tasks offsets hsame hruns c hc
    -- the endpoint has no name of the pool, so that the whole pool is allowed
    have hall : task.allowed tables = task.offered tables := by
      refine List.filter_congr fun d hd => decide_eq_decide.mpr ?_
      refine and_congr_right fun hdlane => iff_of_true (fun hname => ?_) List.not_mem_nil
      have htargeted := (h ⟨target, htarget⟩ d (mem_lanePool.mpr ⟨hd, hdlane, List.not_mem_nil⟩) hname).1
      rw [hlane] at htargeted
      cases htargeted
    rw [hall] at hc ⊢
    exact exploration_covers htarget hlane hsame hruns hc

end Fair

/-! ## A name the endpoint has -/

theorem users_unit : (0 : ℚ) ≤ 1 / 2 ∧ (1 / 2 : ℚ) ≤ 1 := by decide +kernel

/-- An endpoint that is asked with an identifier, and the candidate that was found there. -/
def usersTask : ParameterTask where
  event := {
    eventId := "evt_users"
    type := .apiEndpoint
    value := "https://api.example.com/users?id=1"
    source := { text := "javascript" }
    firstSeen := 0
    lastSeen := 0
    confidence_unit := zero_unit
    novelty_unit := zero_unit }
  candidates := [{ name := "id", targetFrequency := 1, confidence_unit := users_unit }]
  lane := .targeted

theorem usersTask_target :
    parameterTargetFromEvent plainTables usersTask.event = .ok "https://api.example.com/users" := by decide +kernel

theorem usersTask_names : usersTask.names plainTables = ["id"] := by decide +kernel

/-- The identifier is guessed although the endpoint has it. -/
theorem known_name_is_guessed : ¬ usersTask.SelectsFairly plainTables id id id {} := by
  intro h
  have hselect : usersTask.select plainTables id id id {} .empty = .ok (usersTask.candidates, .empty) := by
    rw [select_targeted usersTask_target rfl]
    rfl
  have hname := (h.fair _ _ _ hselect).disjoint _ (List.mem_singleton_self _)
  rw [usersTask_names] at hname
  exact hname (List.mem_singleton_self "id")

end NightScout
