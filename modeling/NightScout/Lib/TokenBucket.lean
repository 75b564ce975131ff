import Mathlib.Algebra.BigOperators.Group.List.Basic
import Mathlib.Algebra.Order.Field.Basic
import Mathlib.Tactic.Linarith
import Mathlib.Tactic.Ring

/-!
# Token buckets

A bucket that gains `rate` tokens a unit of time up to `burst`, and gives them out. What such a
bucket promises is about every window: what it gave at times in `[s, t]` is at most what it can
hold and what it gained meanwhile.

`Within` is the invariant. Its heart is a potential: what was given since `s` together with what is
left never exceeds `burst + rate * (last - s)`, where `last` is the time up to which the bucket has
gained. The rules below are the three things that can happen to a bucket. `refill` is the only one
that moves `last`, and the potential is why it asks for `last ≤ now`: a bucket whose clock is set
back gains the same time twice.

`slack` is what a comparison may forgive: a bucket may go that far below zero.
-/

namespace NightScout.Lib.TokenBucket

variable {𝕜 : Type*} [Field 𝕜] [LinearOrder 𝕜] [IsStrictOrderedRing 𝕜]

/-- What was given at times from `s` on. -/
def takenSince (s : 𝕜) : List (𝕜 × 𝕜) → 𝕜
  | [] => 0
  | g :: grants => (if s ≤ g.1 then g.2 else 0) + takenSince s grants

/-- What was given at times in `[s, t]`. -/
def takenIn (s t : 𝕜) : List (𝕜 × 𝕜) → 𝕜
  | [] => 0
  | g :: grants => (if s ≤ g.1 ∧ g.1 ≤ t then g.2 else 0) + takenIn s t grants

/-- The grants at times in `[s, t]`. -/
def countIn (s t : 𝕜) (grants : List (𝕜 × 𝕜)) : ℕ :=
  grants.countP fun g => s ≤ g.1 ∧ g.1 ≤ t

variable {rate burst slack tokens last now amount s t : 𝕜} {grants : List (𝕜 × 𝕜)}

omit [IsStrictOrderedRing 𝕜] in
theorem takenSince_eq_zero (h : ∀ g ∈ grants, g.1 < s) : takenSince s grants = 0 := by
  induction grants with
  | nil => rfl
  | cons g grants ih =>
    obtain ⟨hg, hgrants⟩ := List.forall_mem_cons.mp h
    rw [takenSince, if_neg (not_le.mpr hg), ih hgrants, add_zero]

theorem takenIn_le_takenSince (h : ∀ g ∈ grants, 0 ≤ g.2) : takenIn s t grants ≤ takenSince s grants := by
  induction grants with
  | nil => exact le_refl 0
  | cons g grants ih =>
    obtain ⟨hg, hgrants⟩ := List.forall_mem_cons.mp h
    refine add_le_add ?_ (ih hgrants)
    by_cases hs : s ≤ g.1
    · by_cases ht : g.1 ≤ t
      · simp [hs, ht]
      · simpa [hs, ht] using hg
    · simp [hs]

omit [IsStrictOrderedRing 𝕜] in
/-- A window without grants gave nothing. -/
theorem takenIn_eq_zero (h : countIn s t grants = 0) : takenIn s t grants = 0 := by
  induction grants with
  | nil => rfl
  | cons g grants ih =>
    unfold countIn at h
    rw [List.countP_cons] at h
    have hg : ¬ (s ≤ g.1 ∧ g.1 ≤ t) := by
      intro hg
      simp [hg] at h
    rw [takenIn, if_neg hg, zero_add]
    exact ih (by unfold countIn; omega)

/-- A bucket in good order: gained up to `last`, with `tokens` left after the `grants`. -/
structure Within (rate burst slack tokens last : 𝕜) (grants : List (𝕜 × 𝕜)) : Prop where
  past : ∀ g ∈ grants, g.1 ≤ last
  nonneg : ∀ g ∈ grants, 0 ≤ g.2
  potential : ∀ s ≤ last, takenSince s grants + tokens ≤ burst + rate * (last - s)
  notBelow : -slack ≤ tokens
  windows : ∀ s t, s ≤ t → takenIn s t grants ≤ burst + rate * (t - s) + slack

namespace Within

/-- A full bucket that has given nothing. -/
theorem start (hrate : 0 ≤ rate) (hburst : 0 ≤ burst) (hslack : 0 ≤ slack) :
    Within rate burst slack burst now [] where
  past := by simp
  nonneg := by simp
  potential s hs := by
    have hgain : 0 ≤ rate * (now - s) := mul_nonneg hrate (sub_nonneg.mpr hs)
    simpa [takenSince] using hgain
  notBelow := by linarith
  windows s t hst := by
    have hgain : 0 ≤ rate * (t - s) := mul_nonneg hrate (sub_nonneg.mpr hst)
    simp only [takenIn]
    linarith

/-- **Gaining** up to `now`, which must not lie before the time gained up to already. -/
theorem refill (h : Within rate burst slack tokens last grants) (hrate : 0 ≤ rate)
    (hburst : 0 ≤ burst) (hslack : 0 ≤ slack) (hnow : last ≤ now) :
    Within rate burst slack (min burst (tokens + (now - last) * rate)) now grants where
  past g hg := (h.past g hg).trans hnow
  nonneg := h.nonneg
  potential s hs := by
    by_cases hsl : s ≤ last
    · -- the potential at `last`, carried over the time gained
      have hpot := h.potential s hsl
      have hle : min burst (tokens + (now - last) * rate) ≤ tokens + (now - last) * rate :=
        min_le_right _ _
      calc takenSince s grants + min burst (tokens + (now - last) * rate)
          ≤ (takenSince s grants + tokens) + (now - last) * rate := by linarith
        _ ≤ (burst + rate * (last - s)) + (now - last) * rate := by linarith
        _ = burst + rate * (now - s) := by ring
    · -- nothing was given since `s`
      have hnone : takenSince s grants = 0 :=
        takenSince_eq_zero fun g hg => lt_of_le_of_lt (h.past g hg) (not_le.mp hsl)
      have hgain : 0 ≤ rate * (now - s) := mul_nonneg hrate (sub_nonneg.mpr hs)
      have hle : min burst (tokens + (now - last) * rate) ≤ burst := min_le_left _ _
      rw [hnone]
      linarith
  notBelow := by
    have hgain : 0 ≤ (now - last) * rate := mul_nonneg (sub_nonneg.mpr hnow) hrate
    refine le_min (by linarith) ?_
    have := h.notBelow
    linarith
  windows := h.windows

/-- **Giving** what is there, up to the slack. -/
theorem give (h : Within rate burst slack tokens last grants) (hrate : 0 ≤ rate)
    (hamount : 0 ≤ amount) (hle : amount ≤ tokens + slack) :
    Within rate burst slack (tokens - amount) last ((last, amount) :: grants) where
  past := List.forall_mem_cons.mpr ⟨le_refl last, h.past⟩
  nonneg := List.forall_mem_cons.mpr ⟨hamount, h.nonneg⟩
  potential s hs := by
    have hpot := h.potential s hs
    rw [takenSince, if_pos hs]
    linarith
  notBelow := by linarith
  windows s t hst := by
    rw [takenIn]
    split
    next hin =>
      have hpot := h.potential s hin.1
      have hsince := takenIn_le_takenSince (s := s) (t := t) h.nonneg
      have hgain : rate * (last - s) ≤ rate * (t - s) :=
        mul_le_mul_of_nonneg_left (by linarith [hin.2]) hrate
      linarith
    next =>
      rw [zero_add]
      exact h.windows s t hst

/-- **Losing** tokens that were given to nobody. -/
theorem lose (h : Within rate burst slack tokens last grants) (hamount : 0 ≤ amount) (hle : amount ≤ tokens + slack) :
    Within rate burst slack (tokens - amount) last grants where
  past := h.past
  nonneg := h.nonneg
  potential s hs := by
    have hpot := h.potential s hs
    linarith
  notBelow := by linarith
  windows := h.windows

/-- The bound on a window, with the slack charged to each grant in it. -/
theorem takenIn_le (h : Within rate burst slack tokens last grants) (hrate : 0 ≤ rate)
    (hburst : 0 ≤ burst) (hslack : 0 ≤ slack) (hst : s ≤ t) :
    takenIn s t grants ≤ burst + rate * (t - s) + countIn s t grants * slack := by
  have hgain : 0 ≤ rate * (t - s) := mul_nonneg hrate (sub_nonneg.mpr hst)
  rcases Nat.eq_zero_or_pos (countIn s t grants) with hzero | hpos
  · rw [takenIn_eq_zero hzero, hzero, Nat.cast_zero, zero_mul, add_zero]
    exact add_nonneg hburst hgain
  · have hone : (1 : 𝕜) ≤ countIn s t grants := by exact_mod_cast hpos
    have hwin := h.windows s t hst
    have hmul : slack ≤ countIn s t grants * slack := le_mul_of_one_le_left hslack hone
    linarith

end Within

end NightScout.Lib.TokenBucket
