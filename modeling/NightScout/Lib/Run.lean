import Mathlib.Logic.Basic

/-!
# Runs of a state machine

Every stateful component of this development is a *total step function*
`step : σ → ι → σ`: a command is issued in a state and leaves a state, an error being part of
the state (a reply, a log entry) rather than a missing successor. A run is then a list of
commands, and "every reachable state" is "the end of every list".

Two notions are all that is needed of it.

* `runFrom` is the end of a run;
* `Along ok` says that every command of a run meets `ok` *in the state it is issued in*. This is
  how an assumption about an environment is stated (a fresh token is one that was not granted
  before), and how the exact condition of a property that does not hold of every run is stated.

`Along.invariant` is the induction that every safety result goes through.
-/

namespace NightScout.Lib

variable {σ ι : Type*}

/-- The state a list of commands leads to. -/
def runFrom (step : σ → ι → σ) : σ → List ι → σ
  | s, [] => s
  | s, c :: cs => runFrom step (step s c) cs

/-- Every command of the run meets `ok` in the state it is issued in. -/
def Along (step : σ → ι → σ) (ok : σ → ι → Prop) : σ → List ι → Prop
  | _, [] => True
  | s, c :: cs => ok s c ∧ Along step ok (step s c) cs

instance Along.decidable (step : σ → ι → σ) (ok : σ → ι → Prop) [∀ s c, Decidable (ok s c)] :
    ∀ s cs, Decidable (Along step ok s cs)
  | _, [] => .isTrue trivial
  | s, c :: cs =>
      haveI := Along.decidable step ok (step s c) cs
      inferInstanceAs (Decidable (ok s c ∧ Along step ok (step s c) cs))

variable {step : σ → ι → σ} {ok ok' : σ → ι → Prop} {s : σ} {c : ι} {cs cs' : List ι}

@[simp] theorem runFrom_nil : runFrom step s [] = s := rfl

@[simp] theorem runFrom_cons : runFrom step s (c :: cs) = runFrom step (step s c) cs := rfl

@[simp] theorem along_nil : Along step ok s [] := trivial

@[simp] theorem along_cons : Along step ok s (c :: cs) ↔ ok s c ∧ Along step ok (step s c) cs := Iff.rfl

theorem runFrom_append : ∀ (cs : List ι) (s : σ),
    runFrom step s (cs ++ cs') = runFrom step (runFrom step s cs) cs'
  | [], _ => rfl
  | c :: cs, s => runFrom_append cs (step s c)

theorem along_append : ∀ (cs : List ι) (s : σ),
    Along step ok s (cs ++ cs') ↔ Along step ok s cs ∧ Along step ok (runFrom step s cs) cs'
  | [], _ => by simp
  | c :: cs, s => by
    simp only [List.cons_append, along_cons, runFrom_cons, along_append cs (step s c), and_assoc]

/-- A condition weakened pointwise still holds along the run. -/
theorem Along.imp (h : Along step ok s cs) (himp : ∀ s c, ok s c → ok' s c) : Along step ok' s cs := by
  induction cs generalizing s with
  | nil => trivial
  | cons c cs ih => exact ⟨himp s c h.1, ih h.2⟩

theorem Along.and (h : Along step ok s cs) (h' : Along step ok' s cs) :
    Along step (fun s c => ok s c ∧ ok' s c) s cs := by
  induction cs generalizing s with
  | nil => trivial
  | cons c cs ih => exact ⟨⟨h.1, h'.1⟩, ih h.2 h'.2⟩

/-- What every command of the list meets, whatever the state. -/
theorem Along.of_forall {p : ι → Prop} (h : ∀ c ∈ cs, p c) : Along step (fun _ c => p c) s cs := by
  induction cs generalizing s with
  | nil => trivial
  | cons c cs ih =>
    exact ⟨h c List.mem_cons_self, ih fun c' hc' => h c' (List.mem_cons_of_mem c hc')⟩

/-- A condition holds along a run if it holds of every command after every start of the run. -/
theorem along_iff_forall_split : Along step ok s cs ↔
    ∀ before c after, cs = before ++ c :: after → ok (runFrom step s before) c := by
  constructor
  · rintro h before c after rfl
    exact ((along_append before s).mp h).2.1
  · intro h
    induction cs generalizing s with
    | nil => trivial
    | cons c cs ih =>
      refine ⟨h [] c cs rfl, ih fun before c' after hsplit => ?_⟩
      exact h (c :: before) c' after (by rw [hsplit, List.cons_append])

/-- **The invariant rule.** What holds at the start, and is preserved by every step that meets
    `ok`, holds at the end of every run whose steps meet `ok`. -/
theorem Along.invariant {P : σ → Prop} (h : Along step ok s cs) (hs : P s)
    (hstep : ∀ s c, P s → ok s c → P (step s c)) : P (runFrom step s cs) := by
  induction cs generalizing s with
  | nil => exact hs
  | cons c cs ih => exact ih h.2 (hstep s c hs h.1)

/-- What an invariant gives of every step holds along the run. -/
theorem Along.of_invariant {P : σ → Prop} (h : Along step ok s cs) (hs : P s)
    (hstep : ∀ s c, P s → ok s c → ok' s c ∧ P (step s c)) : Along step ok' s cs := by
  induction cs generalizing s with
  | nil => trivial
  | cons c cs ih =>
    obtain ⟨hok, hnext⟩ := hstep s c hs h.1
    exact ⟨hok, ih h.2 hnext⟩

/-- Two conditions that an invariant makes the same are the same along a run. -/
theorem Along.iff_of_invariant {P : σ → Prop} (hs : P s) (hiff : ∀ s c, P s → (ok s c ↔ ok' s c))
    (hstep : ∀ s c, P s → ok s c → P (step s c)) : Along step ok s cs ↔ Along step ok' s cs := by
  induction cs generalizing s with
  | nil => exact Iff.rfl
  | cons c cs ih =>
    constructor
    · intro ⟨hok, hcs⟩
      exact ⟨(hiff s c hs).mp hok, (ih (hstep s c hs hok)).mp hcs⟩
    · intro ⟨hok', hcs⟩
      have hok := (hiff s c hs).mpr hok'
      exact ⟨hok, (ih (hstep s c hs hok)).mpr hcs⟩

/-- The invariant rule with nothing asked of the commands. -/
theorem runFrom_invariant {P : σ → Prop} (hs : P s) (hstep : ∀ s c, P s → P (step s c)) : P (runFrom step s cs) := by
  induction cs generalizing s with
  | nil => exact hs
  | cons c cs ih => exact ih (hstep s c hs)

/-- The invariant rule for what only the commands of the run decide. -/
theorem runFrom_invariant_mem {P : σ → Prop} (hs : P s)
    (hstep : ∀ s, ∀ c ∈ cs, P s → P (step s c)) : P (runFrom step s cs) := by
  induction cs generalizing s with
  | nil => exact hs
  | cons c cs ih =>
    refine ih (hstep s c List.mem_cons_self hs) fun s' c' hc' => ?_
    exact hstep s' c' (List.mem_cons_of_mem c hc')

/-!
## Two machines in lockstep

Two implementations of one interface are given the same commands and asked whether they answer alike.
`replies` is what a machine answers to a list of commands, `both` is the pair of the two, and
`replies_eq` is the simulation rule: a relation between the states that every step keeps, while the two
replies agree, makes all replies agree. The commands may be asked to meet a condition, in the pair of
states they are issued in.
-/

variable {σ τ ι ρ : Type*}

/-- What a machine answers to a list of commands. -/
def replies (step : σ → ι → ρ × σ) : σ → List ι → List ρ
  | _, [] => []
  | s, c :: cs => (step s c).1 :: replies step (step s c).2 cs

/-- Both machines take the command. -/
def both (left : σ → ι → ρ × σ) (right : τ → ι → ρ × τ) (pair : σ × τ) (c : ι) : σ × τ :=
  ((left pair.1 c).2, (right pair.2 c).2)

variable {left : σ → ι → ρ × σ} {right : τ → ι → ρ × τ} {R : σ → τ → Prop}
  {ok : σ × τ → ι → Prop} {s : σ} {t : τ} {cs : List ι}

/-- What every step keeps holds at the end of the run. -/
theorem both_invariant (hrel : R s t) (h : Along (both left right) ok (s, t) cs)
    (hstep : ∀ s t c, R s t → ok (s, t) c → R (left s c).2 (right t c).2) :
    R (runFrom (both left right) (s, t) cs).1 (runFrom (both left right) (s, t) cs).2 :=
  h.invariant (P := fun pair => R pair.1 pair.2) hrel fun pair c hr hok =>
    hstep pair.1 pair.2 c hr hok

/-- **The simulation rule.** -/
theorem replies_eq (hrel : R s t) (h : Along (both left right) ok (s, t) cs) (hstep : ∀ s t c, R s t → ok (s, t) c →
      (left s c).1 = (right t c).1 ∧ R (left s c).2 (right t c).2) : replies left s cs = replies right t cs := by
  induction cs generalizing s t with
  | nil => rfl
  | cons c cs ih =>
    obtain ⟨hreply, hrel'⟩ := hstep s t c hrel h.1
    simp only [replies]
    rw [hreply, ih hrel' h.2]

/-- What every reply of the left machine satisfies. -/
theorem forall_replies {P : ρ → Prop} (hrel : R s t) (h : Along (both left right) ok (s, t) cs)
    (hstep : ∀ s t c, R s t → ok (s, t) c → P (left s c).1 ∧ R (left s c).2 (right t c).2) :
    ∀ r ∈ replies left s cs, P r := by
  induction cs generalizing s t with
  | nil =>
    intro r hr
    cases hr
  | cons c cs ih =>
    obtain ⟨hreply, hrel'⟩ := hstep s t c hrel h.1
    intro r hr
    rcases List.mem_cons.mp hr with rfl | hr
    · exact hreply
    · exact ih hrel' h.2 r hr

end NightScout.Lib
