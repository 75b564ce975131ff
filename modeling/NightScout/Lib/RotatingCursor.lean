import Mathlib.Data.List.Nodup
import Mathlib.Data.Int.ModEq
import Mathlib.Tactic.LinearCombination
import Mathlib.Tactic.Ring

/-!
# Rotating cursors

A cursor moves around a circle of `n` places by `w` places a time. Where it comes to is decided by the
greatest common divisor of `n` and `w` (`exists_cursor_iff`): it stays in the residue class it started in,
and comes to every place of it.
-/

namespace NightScout.Lib

/-- The places from `start` on. -/
def circleWindow (n w start : ℕ) : List ℕ := (List.range w).map fun offset => (start + offset) % n

/-- The cursor after `k` moves. -/
def cursorAt (n w start k : ℕ) : ℕ := (start + k * w) % n

variable {n w start t : ℕ}

/-- A window that is no longer than the circle comes to no place twice. -/
theorem nodup_circleWindow (h : w ≤ n) : (circleWindow n w start).Nodup := by
  refine List.Nodup.map_on ?_ List.nodup_range
  intro a ha b hb hab
  have ha' := List.mem_range.mp ha
  have hb' := List.mem_range.mp hb
  have hmod : a ≡ b [MOD n] := Nat.ModEq.add_left_cancel' start hab
  exact hmod.eq_of_lt_of_lt (by omega) (by omega)

theorem cursorAt_succ (n w start k : ℕ) : cursorAt n w ((start % n + w) % n) k = cursorAt n w start (k + 1) := by
  unfold cursorAt
  rw [Nat.add_mod, Nat.mod_mod, ← Nat.add_mod, Nat.add_assoc (start % n), Nat.mod_add_mod]
  congr 1
  ring

/-- A cursor keeps its residue. -/
theorem cursorAt_modEq (n w start k : ℕ) : cursorAt n w start k ≡ start [MOD n.gcd w] := by
  unfold cursorAt
  have hmod : (start + k * w) % n ≡ start + k * w [MOD n.gcd w] :=
    (Nat.mod_modEq _ _).of_dvd (Nat.gcd_dvd_left n w)
  have hmul : k * w ≡ 0 [MOD n.gcd w] :=
    (Nat.modEq_zero_iff_dvd.mpr ((Nat.gcd_dvd_right n w).mul_left k))
  simpa using hmod.trans (hmul.add_left start)

/-- It comes to every place of its residue, within one turn of `n` moves. -/
theorem exists_cursorAt (hn : 0 < n) (ht : t < n) (h : t ≡ start [MOD n.gcd w]) :
    ∃ k < n, cursorAt n w start k = t := by
  have hn' : (n : ℤ) ≠ 0 := by exact_mod_cast hn.ne'
  obtain ⟨q, hq⟩ : (n.gcd w : ℤ) ∣ (t : ℤ) - start := (Nat.modEq_iff_dvd.mp h.symm)
  -- the difference is a multiple of `w` modulo `n`
  have hbezout := Nat.gcd_eq_gcd_ab n w
  refine ⟨(Nat.gcdB n w * q % n).toNat, ?_, ?_⟩
  · have hlt := Int.emod_lt_of_pos (Nat.gcdB n w * q) (by exact_mod_cast hn : (0 : ℤ) < n)
    have hnonneg := Int.emod_nonneg (Nat.gcdB n w * q) hn'
    omega
  · have hnonneg := Int.emod_nonneg (Nat.gcdB n w * q) hn'
    have hmodEq : ((start + (Nat.gcdB n w * q % n).toNat * w : ℕ) : ℤ) ≡ t [ZMOD n] := by
      push_cast
      rw [Int.toNat_of_nonneg hnonneg]
      have hmul : Nat.gcdB n w * q % n * w ≡ Nat.gcdB n w * q * w [ZMOD n] :=
        (Int.mod_modEq _ _).mul_right w
      refine (hmul.add_left (start : ℤ)).trans ?_
      rw [Int.modEq_iff_dvd]
      refine ⟨Nat.gcdA n w * q, ?_⟩
      have hexpand : (t : ℤ) - start = (n * Nat.gcdA n w + w * Nat.gcdB n w) * q := by
        rw [← hbezout]
        exact hq
      linear_combination hexpand
    have hnat := Int.natCast_modEq_iff.mp hmodEq
    unfold cursorAt
    rw [hnat, Nat.mod_eq_of_lt ht]

/-- **Windows one after another cover the circle**, as many of them as fit around it. -/
theorem exists_window (hw : 0 < w) (ht : t < n) :
    ∃ i < (n + w - 1) / w, t ∈ circleWindow n w (cursorAt n w start i) := by
  have hn : 0 < n := by omega
  have hstart : start % n < n := Nat.mod_lt _ hn
  -- how far the place is from the start
  obtain ⟨d, hd, hplace⟩ : ∃ d < n, (start + d) % n = t := by
    refine ⟨(t + n - start % n) % n, Nat.mod_lt _ hn, ?_⟩
    rw [Nat.add_mod_mod, ← Nat.mod_add_mod, show start % n + (t + n - start % n) = t + n by omega,
      Nat.add_mod_right, Nat.mod_eq_of_lt ht]
  refine ⟨d / w, ?_, ?_⟩
  · have hcount : (n + w - 1) / w = (n - 1) / w + 1 := by
      rw [show n + w - 1 = n - 1 + w by omega, Nat.add_div_right _ hw]
    rw [hcount]
    exact Nat.lt_succ_of_le (Nat.div_le_div_right (by omega))
  · refine List.mem_map.mpr ⟨d % w, List.mem_range.mpr (Nat.mod_lt _ hw), ?_⟩
    rw [cursorAt, Nat.mod_add_mod, Nat.add_assoc, Nat.mul_comm, Nat.div_add_mod, hplace]

/-- What some place on the cursor's way has is come to, and within one turn. -/
theorem exists_turn_iff (hn : 0 < n) (P : ℕ → Prop) : (∃ k < n, P (cursorAt n w start k)) ↔
    ∃ place < n, place ≡ start [MOD n.gcd w] ∧ P place := by
  constructor
  · rintro ⟨k, -, hk⟩
    exact ⟨_, Nat.mod_lt _ hn, cursorAt_modEq n w start k, hk⟩
  · rintro ⟨place, hplace, hmod, hP⟩
    obtain ⟨k, hk, rfl⟩ := exists_cursorAt hn hplace hmod
    exact ⟨k, hk, hP⟩

theorem exists_time_iff (hn : 0 < n) (P : ℕ → Prop) : (∃ k, P (cursorAt n w start k)) ↔
    ∃ place < n, place ≡ start [MOD n.gcd w] ∧ P place := by
  constructor
  · rintro ⟨k, hk⟩
    exact ⟨_, Nat.mod_lt _ hn, cursorAt_modEq n w start k, hk⟩
  · intro h
    obtain ⟨k, -, hk⟩ := (exists_turn_iff hn P).mpr h
    exact ⟨k, hk⟩

end NightScout.Lib
