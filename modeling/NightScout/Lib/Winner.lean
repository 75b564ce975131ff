import Mathlib.Data.List.Sort

/-!
# The winner of a ranking

A precedence rule: of the candidates that apply, the one with the greatest key decides. `ranked`
sorts the candidates best first and `winner` is the first of them; with distinct keys the order in
which the candidates came does not matter.

What a precedence rule is used for is comparing two rankings of which one has more candidates, so
the lemmas say what newcomers do: newcomers that are all outranked change nothing
(`winner_append_of_outranked`), and otherwise the winner is the old one or one of the newcomers
(`winner_append_cases`).
-/

namespace NightScout.Lib

variable {α κ : Type*} [LinearOrder κ] {key : α → κ} {l l' : List α} {a w : α}

/-- The candidates, the greatest key first. -/
def ranked (key : α → κ) (l : List α) : List α := l.insertionSort fun a b => key b ≤ key a

/-- The candidate that decides. -/
def winner (key : α → κ) (l : List α) : Option α := (ranked key l).head?

theorem ranked_perm (key : α → κ) (l : List α) : (ranked key l).Perm l := List.perm_insertionSort _ l

theorem ranked_sorted (key : α → κ) (l : List α) :
    (ranked key l).Pairwise fun a b => key b ≤ key a := by
  have : Std.Total fun a b : α => key b ≤ key a := ⟨fun a b => le_total (key b) (key a)⟩
  have : IsTrans α fun a b => key b ≤ key a := ⟨fun a b c hab hbc => le_trans hbc hab⟩
  exact List.pairwise_insertionSort _ l

theorem winner_mem (h : winner key l = some w) : w ∈ l :=
  (ranked_perm key l).mem_iff.mp (List.mem_of_mem_head? h)

theorem le_winner (h : winner key l = some w) : ∀ a ∈ l, key a ≤ key w := by
  intro a ha
  have hmem : a ∈ ranked key l := (ranked_perm key l).mem_iff.mpr ha
  have hsorted := ranked_sorted key l
  cases hr : ranked key l with
  | nil =>
    rw [hr] at hmem
    cases hmem
  | cons first rest =>
    have hw : first = w := by
      rw [winner, hr] at h
      exact Option.some.inj h
    subst hw
    rw [hr] at hmem hsorted
    rcases List.mem_cons.mp hmem with rfl | hrest
    · exact le_refl _
    · exact (List.pairwise_cons.mp hsorted).1 a hrest

theorem winner_isSome (key : α → κ) (h : a ∈ l) : ∃ w, winner key l = some w := by
  cases hr : ranked key l with
  | nil =>
    have hmem := (ranked_perm key l).mem_iff.mpr h
    rw [hr] at hmem
    cases hmem
  | cons first rest => exact ⟨first, by rw [winner, hr, List.head?_cons]⟩

/-- With distinct keys the winner is the candidate that no other outranks. -/
theorem winner_iff (hnd : (l.map key).Nodup) : winner key l = some w ↔ w ∈ l ∧ ∀ a ∈ l, key a ≤ key w := by
  refine ⟨fun h => ⟨winner_mem h, le_winner h⟩, fun ⟨hmem, hle⟩ => ?_⟩
  obtain ⟨w', hw'⟩ := winner_isSome key hmem
  have hkey : key w' = key w := le_antisymm (hle w' (winner_mem hw')) (le_winner hw' w hmem)
  rw [hw', List.inj_on_of_nodup_map hnd (winner_mem hw') hmem hkey]

/-- With distinct keys the ranking does not depend on the order the candidates came in. -/
theorem ranked_eq_of_perm (hnd : (l.map key).Nodup) (h : l.Perm l') : ranked key l = ranked key l' := by
  have hperm : (ranked key l).Perm (ranked key l') :=
    (ranked_perm key l).trans (h.trans (ranked_perm key l').symm)
  refine hperm.eq_of_pairwise ?_ (ranked_sorted key l) (ranked_sorted key l')
  intro a b ha hb hab hba
  have hmem := (ranked_perm key l).mem_iff.mp ha
  have hmem' := h.mem_iff.mpr ((ranked_perm key l').mem_iff.mp hb)
  exact List.inj_on_of_nodup_map hnd hmem hmem' (le_antisymm hba hab)

/-- **Newcomers that are outranked change nothing.** -/
theorem winner_append_of_outranked (hnd : ((l ++ l').map key).Nodup)
    (h : ∀ b ∈ l', ∃ a ∈ l, key b < key a) (hw : winner key l = some w) : winner key (l ++ l') = some w := by
  refine (winner_iff hnd).mpr ⟨List.mem_append_left l' (winner_mem hw), fun a ha => ?_⟩
  rcases List.mem_append.mp ha with ha | ha
  · exact le_winner hw a ha
  · obtain ⟨b, hb, hlt⟩ := h a ha
    exact hlt.le.trans (le_winner hw b hb)

/-- The winner over more candidates is the old winner or a newcomer. -/
theorem winner_append_cases (hnd : ((l ++ l').map key).Nodup) (h : winner key (l ++ l') = some w) :
    winner key l = some w ∨ w ∈ l' := by
  rcases List.mem_append.mp (winner_mem h) with hmem | hmem
  · have hndl : (l.map key).Nodup := by
      rw [List.map_append] at hnd
      exact hnd.of_append_left
    exact .inl ((winner_iff hndl).mpr
      ⟨hmem, fun a ha => le_winner h a (List.mem_append_left l' ha)⟩)
  · exact .inr hmem

end NightScout.Lib
