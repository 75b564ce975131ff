import Mathlib.Data.List.Dedup
import Mathlib.Data.List.Perm.Subperm

/-!
# Acyclic relations and layered search

A relation is acyclic if no element leads to itself. One more edge keeps it so exactly if its end did not
lead to its start (`acyclic_withEdge_iff`).

`layerSearch` is the search a store makes with one query a layer: from the frontier to everything it leads to
that was not visited. It finds what can be reached and nothing else (`layerSearch_iff`).
-/

namespace NightScout.Lib

open Relation

variable {α : Type*}

/-! ## Adding an edge -/

def Acyclic (R : α → α → Prop) : Prop := ∀ x, ¬ TransGen R x x

/-- The relation with one more edge. -/
def WithEdge (R : α → α → Prop) (source target : α) (x y : α) : Prop :=
  R x y ∨ x = source ∧ y = target

variable {R R' : α → α → Prop} {source target : α}

theorem Acyclic.mono (h : Acyclic R') (hle : ∀ x y, R x y → R' x y) : Acyclic R :=
  fun x hx => h x (TransGen.mono hle x x hx)

/-- Where every edge goes up, no way comes back. -/
theorem Acyclic.of_rank (rank : α → ℕ) (h : ∀ x y, R x y → rank x < rank y) : Acyclic R := by
  have hup : ∀ x y, TransGen R x y → rank x < rank y := by
    intro x y hway
    induction hway with
    | single hstep => exact h _ _ hstep
    | tail _ hstep ih => exact Nat.lt_trans ih (h _ _ hstep)
  exact fun x hx => Nat.lt_irrefl _ (hup x x hx)

/-- A way with the new edge either does without it, or goes to its start and from its end. -/
theorem transGen_withEdge {x y : α} (h : TransGen (WithEdge R source target) x y) :
    TransGen R x y ∨ ReflTransGen R x source ∧ ReflTransGen R target y := by
  induction h with
  | single hstep =>
    rcases hstep with hstep | ⟨rfl, rfl⟩
    · exact .inl (.single hstep)
    · exact .inr ⟨.refl, .refl⟩
  | tail _ hstep ih =>
    rcases hstep with hstep | ⟨rfl, rfl⟩
    · rcases ih with ih | ⟨hsource, htarget⟩
      · exact .inl (ih.tail hstep)
      · exact .inr ⟨hsource, htarget.tail hstep⟩
    · rcases ih with ih | ⟨hsource, _⟩
      · exact .inr ⟨ih.to_reflTransGen, .refl⟩
      · exact .inr ⟨hsource, .refl⟩

theorem acyclic_withEdge_iff : Acyclic (WithEdge R source target) ↔ Acyclic R ∧ ¬ ReflTransGen R target source := by
  constructor
  · intro h
    refine ⟨h.mono fun _ _ hstep => .inl hstep, fun hback => h source ?_⟩
    have hthere : TransGen (WithEdge R source target) source target := .single (.inr ⟨rfl, rfl⟩)
    exact hthere.trans_left (ReflTransGen.mono (fun _ _ hstep => Or.inl hstep) _ _ hback)
  · rintro ⟨hacyclic, hback⟩ x hx
    rcases transGen_withEdge hx with hx | ⟨hsource, htarget⟩
    · exact hacyclic x hx
    · exact hback (htarget.trans hsource)

/-! ## Layered search -/

section Search

variable [DecidableEq α] (next : List α → List α) (goal : α)

/-- Whether the goal is in a layer beyond the frontier; at most `fuel` layers are asked for. -/
def layerSearch : ℕ → List α → List α → Bool
  | 0, _, _ => false
  | fuel + 1, frontier, visited =>
    if frontier = [] then false
    else
      let found := ((next frontier).filter (· ∉ visited)).dedup
      if goal ∈ found then true else layerSearch fuel found (visited ++ found)

variable {next goal}

/-- `next` asks for what the frontier leads to, all of it in a list. -/
structure Layers (R : α → α → Prop) (next : List α → List α) (all : List α) : Prop where
  mem : ∀ frontier y, y ∈ next frontier ↔ ∃ x ∈ frontier, R x y
  subset : ∀ frontier, next frontier ⊆ all

theorem layerSearch_sound {all : List α} (h : Layers R next all) (start : α) (fuel : ℕ) :
    ∀ frontier visited, (∀ x ∈ frontier, ReflTransGen R start x) →
      layerSearch next goal fuel frontier visited = true → TransGen R start goal := by
  induction fuel with
  | zero =>
    intro _ _ _ hfound
    cases hfound
  | succ fuel ih =>
    intro frontier visited hreach hfound
    have hlayer : ∀ y ∈ ((next frontier).filter (· ∉ visited)).dedup, TransGen R start y := by
      intro y hy
      rw [List.mem_dedup, List.mem_filter] at hy
      obtain ⟨x, hx, hstep⟩ := (h.mem frontier y).mp hy.1
      exact .tail' (hreach x hx) hstep
    unfold layerSearch at hfound
    split at hfound
    · cases hfound
    · simp only at hfound
      split at hfound
      next hgoal => exact hlayer goal hgoal
      next => exact ih _ _ (fun y hy => (hlayer y hy).to_reflTransGen) hfound

/-- With room for every layer, a search that finds nothing has visited all there is. -/
theorem layerSearch_complete {all : List α} (h : Layers R next all) {start : α} (fuel : ℕ) :
    ∀ frontier visited, start ∈ visited → visited.Nodup → visited ⊆ start :: all → frontier ⊆ visited → goal ∉ visited →
      (∀ x ∈ visited, x ∉ frontier → ∀ y, R x y → y ∈ visited) → all.length + 1 < fuel + visited.length →
      layerSearch next goal fuel frontier visited = false → ¬ ReflTransGen R start goal := by
  induction fuel with
  | zero =>
    intro _ visited _ hnodup hsubset _ _ _ hroom _
    have hle := (List.subperm_of_subset hnodup hsubset).length_le
    rw [List.length_cons] at hle
    omega
  | succ fuel ih =>
    intro frontier visited hstart hnodup hsubset hfrontier hnot hclosed hroom hfound
    unfold layerSearch at hfound
    split at hfound
    next hempty =>
      -- everything visited leads to what was visited
      intro hreach
      apply hnot
      refine ReflTransGen.head_induction_on (motive := fun x _ => x ∈ visited → goal ∈ visited)
        hreach id ?_ hstart
      intro x y hstep _ ih hx
      exact ih (hclosed x hx (by rw [hempty]; exact List.not_mem_nil) y hstep)
    next =>
      simp only at hfound
      split at hfound
      · cases hfound
      next hbeyond =>
        generalize hlayer : ((next frontier).filter (· ∉ visited)).dedup = found at hfound hbeyond
        have hmem : ∀ y, y ∈ found ↔ y ∈ next frontier ∧ y ∉ visited := by
          intro y
          rw [← hlayer, List.mem_dedup, List.mem_filter, decide_eq_true_eq]
        have hnodup' : (visited ++ found).Nodup := by
          rw [List.nodup_append]
          refine ⟨hnodup, hlayer ▸ List.nodup_dedup _, ?_⟩
          rintro x hx _ hy rfl
          exact ((hmem x).mp hy).2 hx
        have hclosed' : ∀ x ∈ visited ++ found, x ∉ found → ∀ y, R x y → y ∈ visited ++ found := by
          intro x hx hxfound y hstep
          have hxvisited : x ∈ visited := (List.mem_append.mp hx).resolve_right hxfound
          by_cases hy : y ∈ visited
          · exact List.mem_append_left _ hy
          · by_cases hxfrontier : x ∈ frontier
            · have hynext := (h.mem frontier y).mpr ⟨x, hxfrontier, hstep⟩
              exact List.mem_append_right _ ((hmem y).mpr ⟨hynext, hy⟩)
            · exact absurd (hclosed x hxvisited hxfrontier y hstep) hy
        by_cases hnone : found = []
        · -- no new layer: the next round stops
          intro hreach
          apply hnot
          refine ReflTransGen.head_induction_on (motive := fun x _ => x ∈ visited → goal ∈ visited)
            hreach id ?_ hstart
          intro x y hstep _ ih hx
          have hy := hclosed' x (List.mem_append_left _ hx) (by rw [hnone]; exact List.not_mem_nil)
            y hstep
          rw [hnone, List.append_nil] at hy
          exact ih hy
        · have hlength : 0 < found.length := List.length_pos_iff.mpr hnone
          refine ih found (visited ++ found) (List.mem_append_left _ hstart) hnodup' ?_
            (List.subset_append_right _ _) ?_ hclosed' ?_ hfound
          · intro x hx
            rcases List.mem_append.mp hx with hx | hx
            · exact hsubset hx
            · exact List.mem_cons_of_mem _ (h.subset frontier ((hmem x).mp hx).1)
          · intro hx
            rcases List.mem_append.mp hx with hx | hx
            · exact hnot hx
            · exact hbeyond hx
          · rw [List.length_append]
            omega

/-- **The search finds exactly what can be reached.** -/
theorem layerSearch_iff {all : List α} (h : Layers R next all) {start : α} (hgoal : goal ≠ start) :
    layerSearch next goal (all.length + 1) [start] [start] = true ↔ ReflTransGen R start goal := by
  constructor
  · intro hfound
    refine (layerSearch_sound h start (all.length + 1) [start] [start] ?_
      hfound).to_reflTransGen
    intro x hx
    rw [List.mem_singleton.mp hx]
  · intro hreach
    by_contra hfound
    rw [Bool.not_eq_true] at hfound
    refine layerSearch_complete h (all.length + 1) [start] [start] List.mem_cons_self
      (List.nodup_singleton _) ?_ (List.Subset.refl _) ?_ ?_ ?_ hfound hreach
    · intro x hx
      rw [List.mem_singleton.mp hx]
      exact List.mem_cons_self
    · rw [List.mem_singleton]
      exact hgoal
    · intro x hx hnot
      exact absurd hx hnot
    · rw [List.length_singleton]
      omega

end Search

end NightScout.Lib
