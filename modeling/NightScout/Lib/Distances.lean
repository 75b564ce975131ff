import Mathlib.Data.List.Nodup
import Mathlib.Data.Nat.Find

/-!
# Directed distances

How many steps of a relation lead from one vertex to another, at least. The vertices at one distance are found from
those at the last (`distance_succ_iff`), which is what a search by levels does: `Levelled` is its invariant.

A `Trail` is a list of vertices with the edges between them. Where the distance to its start goes up with every vertex
no vertex comes twice (`Climbs.nodup`).
-/

namespace NightScout.Lib

variable {V E : Type*} {R : V → V → Prop} {root u v w : V} {n m k : ℕ}

/-- A way of `n` steps. -/
inductive Way (R : V → V → Prop) : ℕ → V → V → Prop
  | here (v : V) : Way R 0 v v
  | step {n : ℕ} {u v w : V} : Way R n u v → R v w → Way R (n + 1) u w

/-- A shortest way has `n` steps. -/
def Distance (R : V → V → Prop) (n : ℕ) (u v : V) : Prop := Way R n u v ∧ ∀ m < n, ¬ Way R m u v

/-! ## Distances -/

theorem distance_zero_iff : Distance R 0 u v ↔ v = u := by
  constructor
  · intro h
    cases h.1
    rfl
  · intro h
    subst h
    exact ⟨.here _, fun m hm => absurd hm (Nat.not_lt_zero m)⟩

theorem Distance.unique (h : Distance R n u v) (h' : Distance R m u v) : n = m := by
  rcases Nat.lt_trichotomy n m with hlt | heq | hlt
  · exact absurd h.1 (h'.2 n hlt)
  · exact heq
  · exact absurd h'.1 (h.2 m hlt)

theorem Way.exists_distance (h : Way R n u v) : ∃ m ≤ n, Distance R m u v := by
  classical
  have hsome : ∃ m, Way R m u v := ⟨n, h⟩
  exact ⟨Nat.find hsome, Nat.find_min' hsome h, Nat.find_spec hsome, fun m hm => Nat.find_min hsome hm⟩

/-- The last step of a shortest way starts one step nearer. -/
theorem Distance.exists_last (h : Distance R (n + 1) u w) : ∃ v, Distance R n u v ∧ R v w := by
  obtain ⟨hway, hleast⟩ := h
  cases hway with
  | step hway hlast =>
    refine ⟨_, ⟨hway, fun m hm hshort => ?_⟩, hlast⟩
    exact hleast (m + 1) (by omega) (hshort.step hlast)

/-- One step from distance `n` and not as near as that: at distance `n + 1`. -/
theorem distance_succ_iff : Distance R (n + 1) u w ↔ (∃ v, Distance R n u v ∧ R v w) ∧ ∀ m ≤ n, ¬ Distance R m u w := by
  constructor
  · intro h
    refine ⟨h.exists_last, fun m hm hnear => ?_⟩
    have := h.unique hnear
    omega
  · intro h
    obtain ⟨⟨v, hv, hlast⟩, hfar⟩ := h
    refine ⟨hv.1.step hlast, fun m hm hway => ?_⟩
    obtain ⟨k, hk, hdistance⟩ := hway.exists_distance
    exact hfar k (by omega) hdistance

/-! ## Searching by levels -/

/-- After `depth` levels: the frontier is the last of them, and all of them were visited. -/
structure Levelled (R : V → V → Prop) (root : V) (depth : ℕ) (frontier visited : List V) : Prop where
  frontier : ∀ v, v ∈ frontier ↔ Distance R depth root v
  visited : ∀ v, v ∈ visited ↔ ∃ n ≤ depth, Distance R n root v

theorem Levelled.start : Levelled R root 0 [root] [root] where
  frontier v := by rw [List.mem_singleton, distance_zero_iff]
  visited v := by
    rw [List.mem_singleton]
    constructor
    · intro h
      exact ⟨0, Nat.le_refl 0, distance_zero_iff.mpr h⟩
    · intro h
      obtain ⟨n, hn, hdistance⟩ := h
      obtain rfl := Nat.le_zero.mp hn
      exact distance_zero_iff.mp hdistance

/-- The next level is what the frontier leads to and was not visited. -/
theorem Levelled.step {depth : ℕ} {frontier visited next : List V} (h : Levelled R root depth frontier visited)
    (hnext : ∀ w, w ∈ next ↔ (∃ v ∈ frontier, R v w) ∧ w ∉ visited) :
    Levelled R root (depth + 1) next (visited ++ next) := by
  have hlevel : ∀ w, w ∈ next ↔ Distance R (depth + 1) root w := by
    intro w
    rw [hnext, distance_succ_iff, h.visited]
    simp only [h.frontier, not_exists, not_and]
  refine ⟨hlevel, fun w => ?_⟩
  rw [List.mem_append, h.visited, hlevel]
  constructor
  · rintro (⟨n, hn, hdistance⟩ | hdistance)
    · exact ⟨n, by omega, hdistance⟩
    · exact ⟨depth + 1, Nat.le_refl _, hdistance⟩
  · rintro ⟨n, hn, hdistance⟩
    rcases Nat.lt_or_eq_of_le hn with hn | rfl
    · exact .inl ⟨n, by omega, hdistance⟩
    · exact .inr hdistance

/-- Past an empty level there is nothing. -/
theorem Levelled.none_past {depth : ℕ} {visited : List V} (h : Levelled R root depth [] visited) (hle : depth ≤ n) :
    ¬ Distance R n root v := by
  induction n, hle using Nat.le_induction generalizing v with
  | base =>
    rw [← h.frontier]
    exact List.not_mem_nil
  | succ n hn ih =>
    intro hfar
    obtain ⟨u, hu, -⟩ := hfar.exists_last
    exact ih hu

/-! ## Trails -/

/-- The vertices from one to another, with the edges between them. -/
inductive Trail (link : E → V → V → Prop) : V → List V → List E → V → Prop
  | here (v : V) : Trail link v [v] [] v
  | cons {e : E} {u v w : V} {vs : List V} {es : List E} :
    link e u v → Trail link v vs es w → Trail link u (u :: vs) (e :: es) w

/-- The distances to the root go up by one, from `n` on. -/
def Climbs (R : V → V → Prop) (root : V) : ℕ → List V → Prop
  | _, [] => True
  | n, v :: vs => Distance R n root v ∧ Climbs R root (n + 1) vs

theorem Climbs.mem {vs : List V} (h : Climbs R root n vs) (hv : v ∈ vs) : ∃ m, n ≤ m ∧ Distance R m root v := by
  induction vs generalizing n with
  | nil => cases hv
  | cons u vs ih =>
    obtain ⟨hu, hvs⟩ := h
    rcases List.mem_cons.mp hv with rfl | hv
    · exact ⟨n, Nat.le_refl n, hu⟩
    · obtain ⟨m, hm, hdistance⟩ := ih hvs hv
      exact ⟨m, by omega, hdistance⟩

theorem Climbs.nodup {vs : List V} (h : Climbs R root n vs) : vs.Nodup := by
  induction vs generalizing n with
  | nil => exact List.nodup_nil
  | cons v vs ih =>
    obtain ⟨hv, hvs⟩ := h
    refine List.nodup_cons.mpr ⟨fun hmem => ?_, ih hvs⟩
    obtain ⟨m, hm, hdistance⟩ := hvs.mem hmem
    have := hv.unique hdistance
    omega

end NightScout.Lib
