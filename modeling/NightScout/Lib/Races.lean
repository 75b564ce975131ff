import NightScout.Lib.Run
import Mathlib.Data.List.Nodup

/-!
# Operations that race

An operation on shared state that takes several steps: it reads, it gathers what it needs from elsewhere, it
decides, and it writes. Nothing keeps the state for it meanwhile, so the writes of others fall in between.

`ReadDecideWrite.atomic` is the operation in one step, `ReadDecideWrite.race` is one step of any number of
them. `Race.Linear` says that the finished operations could have run one after another; a write keeps it if
its operation, reading again, would read what it has read.
-/

namespace NightScout.Lib

/-- An operation, as the steps it takes. -/
structure ReadDecideWrite (σ ι γ ρ δ ε : Type) where
  read : σ → ι → Except ε ρ
  decide : ι → γ → ρ → Except ε δ
  write : σ → δ → σ

/-- How far a caller has come. -/
inductive Phase (ι γ ρ δ ε : Type) where
  | idle
  | called (i : ι)
  | hasRead (i : ι) (r : ρ)
  | gathered (i : ι) (g : γ) (r : ρ)
  | decided (i : ι) (g : γ) (r : ρ) (d : δ)
  | returned (i : ι) (g : γ) (d : δ)
  | raised (e : ε)

/-- Shared state, the callers, and the finished operations in the order of their writes. -/
structure Race (σ ι γ ρ δ ε : Type) where
  shared : σ
  phase : ℕ → Phase ι γ ρ δ ε := fun _ => .idle
  finished : List (ℕ × ι × γ × δ) := []

/-- What a caller does next. -/
inductive RaceMove (ι γ : Type) where
  | call (caller : ℕ) (i : ι)
  | read (caller : ℕ)
  | gather (caller : ℕ) (g : γ)
  | decide (caller : ℕ)
  | write (caller : ℕ)

variable {σ ι γ ρ δ ε : Type}

/-- One operation after another, each with what it returns. -/
def OneAfterAnother (run : σ → ι → γ → Except ε δ × σ) : σ → List (ℕ × ι × γ × δ) → σ → Prop
  | s, [], s' => s' = s
  | s, (_, i, g, d) :: rest, s' => (run s i g).1 = .ok d ∧ OneAfterAnother run (run s i g).2 rest s'

theorem OneAfterAnother.snoc {run : σ → ι → γ → Except ε δ × σ} {s s' : σ}
    {ops : List (ℕ × ι × γ × δ)} (h : OneAfterAnother run s ops s') (n : ℕ) {i : ι} {g : γ} {d : δ}
    (hrun : (run s' i g).1 = .ok d) : OneAfterAnother run s (ops ++ [(n, i, g, d)]) (run s' i g).2 := by
  induction ops generalizing s with
  | nil =>
    cases h
    exact ⟨hrun, rfl⟩
  | cons op ops ih => exact ⟨h.1, ih h.2⟩

namespace Race

variable (race : Race σ ι γ ρ δ ε)

/-- The caller comes to a phase. -/
def goTo (n : ℕ) (p : Phase ι γ ρ δ ε) : Race σ ι γ ρ δ ε :=
  { race with phase := Function.update race.phase n p }

@[simp] theorem goTo_finished (n : ℕ) (p : Phase ι γ ρ δ ε) : (race.goTo n p).finished = race.finished :=
  rfl

theorem goTo_phase_self (n : ℕ) (p : Phase ι γ ρ δ ε) : (race.goTo n p).phase n = p := by
  unfold goTo
  exact Function.update_self ..

theorem goTo_phase_ne {n n' : ℕ} (h : n' ≠ n) (p : Phase ι γ ρ δ ε) : (race.goTo n p).phase n' = race.phase n' := by
  unfold goTo
  exact Function.update_of_ne h ..

end Race

namespace ReadDecideWrite

variable (op : ReadDecideWrite σ ι γ ρ δ ε)

/-- The operation in one step. -/
def atomic (s : σ) (i : ι) (g : γ) : Except ε δ × σ :=
  match op.read s i >>= op.decide i g with
  | .error e => (.error e, s)
  | .ok d => (.ok d, op.write s d)

/-- One step of a caller; one that is not its next is none. -/
def race (race : Race σ ι γ ρ δ ε) : RaceMove ι γ → Race σ ι γ ρ δ ε
  | .call n i =>
    match race.phase n with
    | .idle => race.goTo n (.called i)
    | _ => race
  | .read n =>
    match race.phase n with
    | .called i =>
      match op.read race.shared i with
      | .ok r => race.goTo n (.hasRead i r)
      | .error e => race.goTo n (.raised e)
    | _ => race
  | .gather n g =>
    match race.phase n with
    | .hasRead i r => race.goTo n (.gathered i g r)
    | _ => race
  | .decide n =>
    match race.phase n with
    | .gathered i g r =>
      match op.decide i g r with
      | .ok d => race.goTo n (.decided i g r d)
      | .error e => race.goTo n (.raised e)
    | _ => race
  | .write n =>
    match race.phase n with
    | .decided i g _ d =>
      { race.goTo n (.returned i g d) with
        shared := op.write race.shared d
        finished := race.finished ++ [(n, i, g, d)] }
    | _ => race

/-- A write is undisturbed if its operation would read again what it has read. -/
def Undisturbed (race : Race σ ι γ ρ δ ε) : RaceMove ι γ → Prop
  | .write n =>
    match race.phase n with
    | .decided i _ r _ => op.read race.shared i = .ok r
    | _ => True
  | _ => True

/-- What has returned is what was written, one operation after another. -/
structure Linear (first : σ) (race : Race σ ι γ ρ δ ε) : Prop where
  decides : ∀ {n i g r d}, race.phase n = .decided i g r d → op.decide i g r = .ok d
  finished : ∀ n i g d, race.phase n = .returned i g d ↔ (n, i, g, d) ∈ race.finished
  nodup : (race.finished.map Prod.fst).Nodup
  sequential : OneAfterAnother op.atomic first race.finished race.shared

variable {op} {first : σ} {race : Race σ ι γ ρ δ ε}

theorem Linear.start (op : ReadDecideWrite σ ι γ ρ δ ε) (s : σ) : op.Linear s { shared := s } where
  decides h := nomatch h
  finished _ _ _ _ := ⟨fun h => (nomatch h), fun h => (nomatch h)⟩
  nodup := List.nodup_nil
  sequential := rfl

/-- Only the phase of a caller changes, and it has not returned. -/
theorem Linear.goTo (h : op.Linear first race) {n : ℕ} {p : Phase ι γ ρ δ ε}
    (hopen : ∀ i g d, race.phase n ≠ .returned i g d) (hreturned : ∀ i g d, p ≠ .returned i g d)
    (hdecided : ∀ i g r d, p = .decided i g r d → op.decide i g r = .ok d) :
    op.Linear first (race.goTo n p) where
  decides {n' i g r d} hphase := by
    by_cases hn : n' = n
    · subst hn
      rw [race.goTo_phase_self] at hphase
      exact hdecided i g r d hphase
    · rw [race.goTo_phase_ne hn] at hphase
      exact h.decides hphase
  finished n' i g d := by
    by_cases hn : n' = n
    · subst hn
      rw [race.goTo_phase_self, race.goTo_finished, ← h.finished]
      exact iff_of_false (hreturned i g d) (hopen i g d)
    · rw [race.goTo_phase_ne hn]
      exact h.finished n' i g d
  nodup := h.nodup
  sequential := h.sequential

/-- An undisturbed write is the whole operation at once. -/
theorem Linear.write (h : op.Linear first race) {n : ℕ} {i : ι} {g : γ} {r : ρ} {d : δ}
    (hphase : race.phase n = .decided i g r d) (hread : op.read race.shared i = .ok r) :
    op.Linear first { race.goTo n (.returned i g d) with
      shared := op.write race.shared d, finished := race.finished ++ [(n, i, g, d)] } := by
  have hresult : op.read race.shared i >>= op.decide i g = .ok d := by
    rw [hread]
    exact h.decides hphase
  have hatomic : op.atomic race.shared i g = (.ok d, op.write race.shared d) := by
    unfold atomic
    rw [hresult]
  have hnew (i' : ι) (g' : γ) (d' : δ) : (n, i', g', d') ∉ race.finished := by
    rw [← h.finished, hphase]
    nofun
  exact {
    decides := by
      intro n' i' g' r' d' hphase'
      by_cases hn : n' = n
      · subst hn
        rw [race.goTo_phase_self] at hphase'
        cases hphase'
      · rw [race.goTo_phase_ne hn] at hphase'
        exact h.decides hphase'
    finished := by
      intro n' i' g' d'
      rw [List.mem_append, List.mem_singleton]
      by_cases hn : n' = n
      · subst hn
        rw [race.goTo_phase_self]
        constructor
        · intro heq
          cases heq
          exact .inr rfl
        · rintro (hmem | heq)
          · exact absurd hmem (hnew i' g' d')
          · cases heq
            rfl
      · rw [race.goTo_phase_ne hn, h.finished]
        exact ⟨.inl, fun hmem => hmem.resolve_right fun heq => hn (congrArg Prod.fst heq)⟩
    nodup := by
      rw [List.map_append]
      refine List.nodup_append'.mpr ⟨h.nodup, List.nodup_singleton n, ?_⟩
      intro n' hmem hn
      obtain ⟨⟨_, i', g', d'⟩, hop, rfl⟩ := List.mem_map.mp hmem
      cases List.mem_singleton.mp hn
      exact hnew i' g' d' hop
    sequential := by
      have hsnoc := h.sequential.snoc n (i := i) (g := g) (d := d) (by rw [hatomic])
      rw [hatomic] at hsnoc
      exact hsnoc }

/-- Only a write changes what is shared. -/
theorem race_shared (op : ReadDecideWrite σ ι γ ρ δ ε) (race : Race σ ι γ ρ δ ε) (move : RaceMove ι γ) :
    (op.race race move).shared = race.shared ∨ ∃ n i g r d, move = .write n ∧ race.phase n = .decided i g r d ∧
        (op.race race move).shared = op.write race.shared d := by
  cases move with
  | call n i =>
    simp only [ReadDecideWrite.race]
    split <;> exact .inl rfl
  | read n =>
    simp only [ReadDecideWrite.race]
    split
    · split <;> exact .inl rfl
    · exact .inl rfl
  | gather n g =>
    simp only [ReadDecideWrite.race]
    split <;> exact .inl rfl
  | decide n =>
    simp only [ReadDecideWrite.race]
    split
    · split <;> exact .inl rfl
    · exact .inl rfl
  | write n =>
    simp only [ReadDecideWrite.race]
    split
    next hphase => exact .inr ⟨n, _, _, _, _, rfl, hphase, rfl⟩
    next => exact .inl rfl

/-- **A step that disturbs no write keeps the operations linear.** -/
theorem Linear.step (h : op.Linear first race) {move : RaceMove ι γ} (hmove : op.Undisturbed race move) :
    op.Linear first (op.race race move) := by
  cases move with
  | call n i =>
    simp only [ReadDecideWrite.race]
    split
    next hphase => exact h.goTo (by rw [hphase]; nofun) nofun nofun
    next => exact h
  | read n =>
    simp only [ReadDecideWrite.race]
    split
    next hphase =>
      split <;> exact h.goTo (by rw [hphase]; nofun) nofun nofun
    next => exact h
  | gather n g =>
    simp only [ReadDecideWrite.race]
    split
    next hphase => exact h.goTo (by rw [hphase]; nofun) nofun nofun
    next => exact h
  | decide n =>
    simp only [ReadDecideWrite.race]
    split
    next hphase =>
      split
      next hdecide =>
        refine h.goTo (by rw [hphase]; nofun) nofun fun _ _ _ _ heq => ?_
        cases heq
        exact hdecide
      next => exact h.goTo (by rw [hphase]; nofun) nofun nofun
    next => exact h
  | write n =>
    simp only [ReadDecideWrite.race]
    simp only [Undisturbed] at hmove
    split
    next hphase =>
      rw [hphase] at hmove
      exact h.write hphase hmove
    next => exact h

end ReadDecideWrite

end NightScout.Lib
