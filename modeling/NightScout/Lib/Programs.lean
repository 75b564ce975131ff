import Mathlib.Data.Nat.Basic

/-!
# Programs that raise

An asynchronous method with its `try` blocks is a program over a state that is kept when an exception
is raised: `ExceptT` over `StateM`. `exec` runs it. `finally'` is Python's `finally`, whose own exception
wins.

`Triple P p Q E` is the Hoare triple with two ways out: from `P` the program returns into `Q` or raises
into `E`. There is one rule a construct, so a program is proved by following its text.
-/

namespace NightScout.Lib

variable {σ ε α β : Type}

abbrev Prog (σ ε α : Type) := ExceptT ε (StateM σ) α

namespace Prog

def exec (p : Prog σ ε α) (s : σ) : Except ε α × σ := StateT.run (ExceptT.run p) s

/-- One operation on the state. -/
def act (f : σ → Except ε α × σ) : Prog σ ε α := ExceptT.mk fun s => f s

/-- The answer of a collaborator that does not touch the state. -/
def answer (r : Except ε α) : Prog σ ε α := act fun s => (r, s)

/-- A write that cannot fail. -/
def write (f : σ → σ) : Prog σ ε Unit := act fun s => (.ok (), f s)

/-- What a collaborator may raise. -/
def raising : Option ε → Prog σ ε Unit
  | none => answer (.ok ())
  | some e => answer (.error e)

/-- `try: p / except e: handler(e)`. -/
def catching (p : Prog σ ε α) (handler : ε → Prog σ ε α) : Prog σ ε α :=
  act fun s =>
    match p.exec s with
    | (.ok a, s') => (.ok a, s')
    | (.error e, s') => (handler e).exec s'

/-- `try: p / finally: q`. -/
def finally' (p : Prog σ ε α) (q : Prog σ ε Unit) : Prog σ ε α :=
  act fun s =>
    match p.exec s with
    | (r, s') =>
      match q.exec s' with
      | (.ok _, s'') => (r, s'')
      | (.error e, s'') => (.error e, s'')

variable {p : Prog σ ε α} {f : α → Prog σ ε β} {s s' : σ} {a : α} {e : ε}

@[simp] theorem exec_act (f : σ → Except ε α × σ) (s : σ) : (act f).exec s = f s := rfl

@[simp] theorem exec_answer (r : Except ε α) (s : σ) : (answer r).exec s = (r, s) := rfl

@[simp] theorem exec_write (f : σ → σ) (s : σ) : (write f : Prog σ ε Unit).exec s = (.ok (), f s) := rfl

@[simp] theorem exec_pure (a : α) (s : σ) : (pure a : Prog σ ε α).exec s = (.ok a, s) := rfl

@[simp] theorem exec_raising_none (s : σ) : (raising none : Prog σ ε Unit).exec s = (.ok (), s) := rfl

@[simp] theorem exec_raising_some (e : ε) (s : σ) : (raising (some e) : Prog σ ε Unit).exec s = (.error e, s) := rfl

theorem exec_bind (p : Prog σ ε α) (f : α → Prog σ ε β) (s : σ) : (p >>= f).exec s =
    match p.exec s with
    | (.ok a, s') => (f a).exec s'
    | (.error e, s') => (.error e, s') := by
  show StateT.run (ExceptT.run (p >>= f)) s = _
  unfold exec
  cases h : StateT.run (ExceptT.run p) s with
  | mk r s' =>
    have hrun : StateT.run (ExceptT.run (p >>= f)) s =
        StateT.run (ExceptT.bindCont f (StateT.run (ExceptT.run p) s).1)
          (StateT.run (ExceptT.run p) s).2 := rfl
    rw [hrun, h]
    cases r <;> rfl

theorem exec_bind_ok (h : p.exec s = (.ok a, s')) : (p >>= f).exec s = (f a).exec s' := by
  rw [exec_bind, h]

theorem exec_bind_error (h : p.exec s = (.error e, s')) : (p >>= f).exec s = (.error e, s') := by
  rw [exec_bind, h]

end Prog

/-! ## Triples -/

/-- Where a program may end. -/
def Post (Q : α → σ → Prop) (E : ε → σ → Prop) : Except ε α × σ → Prop
  | (.ok a, s) => Q a s
  | (.error e, s) => E e s

theorem Post.mono {Q Q' : α → σ → Prop} {E E' : ε → σ → Prop} {x : Except ε α × σ} (h : Post Q E x)
    (hQ : ∀ a s, Q a s → Q' a s) (hE : ∀ e s, E e s → E' e s) : Post Q' E' x := by
  cases x with
  | mk r s =>
    cases r with
    | ok a => exact hQ a s h
    | error e => exact hE e s h

theorem Post.bind {R : α → σ → Prop} {Q : β → σ → Prop} {E : ε → σ → Prop} {p : Prog σ ε α}
    {f : α → Prog σ ε β} {s : σ} (hp : Post R E (p.exec s)) (hf : ∀ a s', R a s' → Post Q E ((f a).exec s')) :
    Post Q E ((p >>= f).exec s) := by
  rw [Prog.exec_bind]
  cases hrun : p.exec s with
  | mk r s' =>
    rw [hrun] at hp
    cases r with
    | ok a => exact hf a s' hp
    | error e => exact hp

/-- From `P`, the program returns into `Q` or raises into `E`. -/
def Triple (P : σ → Prop) (p : Prog σ ε α) (Q : α → σ → Prop) (E : ε → σ → Prop) : Prop :=
  ∀ s, P s → Post Q E (p.exec s)

namespace Triple

variable {P P' : σ → Prop} {Q Q' : α → σ → Prop} {E E' : ε → σ → Prop} {p : Prog σ ε α}

theorem conseq (h : Triple P' p Q' E') (hP : ∀ s, P s → P' s) (hQ : ∀ a s, Q' a s → Q a s)
    (hE : ∀ e s, E' e s → E e s) : Triple P p Q E := fun s hs => (h s (hP s hs)).mono hQ hE

theorem pure {a : α} (h : ∀ s, P s → Q a s) : Triple P (Pure.pure a : Prog σ ε α) Q E :=
  fun s hs => h s hs

theorem bind {f : α → Prog σ ε β} {R : α → σ → Prop} {Q : β → σ → Prop} (hp : Triple P p R E)
    (hf : ∀ a, Triple (R a) (f a) Q E) : Triple P (p >>= f) Q E := fun s hs => (hp s hs).bind hf

/-- What is there is given a name, and what is known of it is assumed. -/
theorem intro_ex {ι : Type} {P : ι → σ → Prop} {R : ι → Prop}
    (h : ∀ x, R x → Triple (P x) p Q E) : Triple (fun s => ∃ x, P x s ∧ R x) p Q E :=
  fun s ⟨x, hs, hR⟩ => h x hR s hs

/-- What does not depend on the state is assumed. -/
theorem intro_and {R : Prop} (h : R → Triple P p Q E) : Triple (fun s => R ∧ P s) p Q E :=
  fun s ⟨hR, hs⟩ => h hR s hs

theorem answer_ok {a : α} (h : ∀ s, P s → Q a s) : Triple P (Prog.answer (.ok a)) Q E :=
  fun s hs => h s hs

theorem raising_none {Q : Unit → σ → Prop} (h : ∀ s, P s → Q () s) :
    Triple P (Prog.raising none) Q E := fun s hs => h s hs

theorem act {f : σ → Except ε α × σ} (h : ∀ s, P s → Post Q E (f s)) : Triple P (Prog.act f) Q E :=
  fun s hs => h s hs

theorem finally' {q : Prog σ ε Unit} (hp : Triple P p Q' E')
    (hok : ∀ a, Triple (Q' a) q (fun _ => Q a) E) (hraise : ∀ e, Triple (E' e) q (fun _ => E e) E) :
    Triple P (p.finally' q) Q E := by
  intro s hs
  have hpost := hp s hs
  show Post Q E (match p.exec s with
    | (r, s') =>
      match q.exec s' with
      | (.ok _, s'') => (r, s'')
      | (.error e, s'') => (.error e, s''))
  cases hrun : p.exec s with
  | mk r s' =>
    rw [hrun] at hpost
    cases r with
    | ok a =>
      have hq := hok a s' hpost
      cases hrun' : q.exec s' with
      | mk r' s'' =>
        rw [hrun'] at hq
        simp only [hrun']
        cases r' <;> exact hq
    | error e =>
      have hq := hraise e s' hpost
      cases hrun' : q.exec s' with
      | mk r' s'' =>
        rw [hrun'] at hq
        simp only [hrun']
        cases r' <;> exact hq

end Triple

/-!
## Loops that are fed from outside

In each round the loop takes one input and goes on or stops. The inputs are endless, and so may be the loop.

To know where it stops it is enough to know, for each round that it reaches, which inputs make it go on
(`afterRounds_running`) and what it stops with in the first round that does not (`afterRounds_first`,
`afterRounds_stops`).
-/

variable {σ ι ρ : Type*}

/-- How far a loop has come. -/
inductive Progress (σ ρ : Type*) where
  | running (state : σ)
  | stopped (result : ρ)

/-- After some rounds. -/
def afterRounds (step : σ → ι → Progress σ ρ) (feed : ℕ → ι) (start : σ) : ℕ → Progress σ ρ
  | 0 => .running start
  | n + 1 =>
    match afterRounds step feed start n with
    | .running state => step state (feed n)
    | .stopped result => .stopped result

variable {step : σ → ι → Progress σ ρ} {feed : ℕ → ι} {start : σ} {Goes : ℕ → Prop} {Inv : ℕ → σ → Prop} {result : ρ}

/-- While every round goes on, the invariant holds. -/
theorem afterRounds_running (hstart : Inv 0 start)
    (hstep : ∀ n state, Inv n state → Goes n → ∃ next, step state (feed n) = .running next ∧ Inv (n + 1) next) {n : ℕ}
    (hgoes : ∀ k < n, Goes k) : ∃ state, afterRounds step feed start n = .running state ∧ Inv n state := by
  induction n with
  | zero => exact ⟨start, rfl, hstart⟩
  | succ n ih =>
    obtain ⟨state, hstate, hinv⟩ := ih fun k hk => hgoes k (Nat.lt_succ_of_lt hk)
    obtain ⟨next, hnext, hinv'⟩ := hstep n state hinv (hgoes n (Nat.lt_succ_self n))
    refine ⟨next, ?_, hinv'⟩
    unfold afterRounds
    rw [hstate]
    exact hnext

/-- A loop that is still running went on in every round. -/
theorem goes_of_running (hstart : Inv 0 start)
    (hstep : ∀ n state, Inv n state → Goes n → ∃ next, step state (feed n) = .running next ∧ Inv (n + 1) next)
    (hstop : ∀ n state, Inv n state → ¬ Goes n → ∃ final, step state (feed n) = .stopped final) {n : ℕ} {state : σ}
    (h : afterRounds step feed start n = .running state) : ∀ k < n, Goes k := by
  induction n generalizing state with
  | zero => exact fun k hk => absurd hk (Nat.not_lt_zero k)
  | succ n ih =>
    unfold afterRounds at h
    cases hbefore : afterRounds step feed start n with
    | stopped result =>
      rw [hbefore] at h
      cases h
    | running before =>
      have hgoes := ih hbefore
      obtain ⟨before', hbefore', hinv⟩ := afterRounds_running hstart hstep hgoes
      have hsame := Progress.running.inj (hbefore.symm.trans hbefore')
      rw [← hsame] at hinv
      rw [hbefore] at h
      intro k hk
      rcases Nat.lt_succ_iff_lt_or_eq.mp hk with hk | rfl
      · exact hgoes k hk
      · by_contra hnot
        obtain ⟨final, hfinal⟩ := hstop k before hinv hnot
        simp only [hfinal] at h
        cases h

/-- **Where the loop stops**: in the first round that does not go on. -/
theorem afterRounds_first (hstart : Inv 0 start)
    (hstep : ∀ n state, Inv n state → Goes n → ∃ next, step state (feed n) = .running next ∧ Inv (n + 1) next)
    (hstop : ∀ n state, Inv n state → ¬ Goes n → ∃ final, step state (feed n) = .stopped final) {n : ℕ}
    (h : afterRounds step feed start n = .stopped result) :
    ∃ k < n, (∀ j < k, Goes j) ∧ ¬ Goes k ∧ ∃ state, Inv k state ∧ step state (feed k) = .stopped result := by
  induction n with
  | zero => cases h
  | succ n ih =>
    unfold afterRounds at h
    cases hbefore : afterRounds step feed start n with
    | stopped earlier =>
      rw [hbefore] at h
      obtain rfl := Progress.stopped.inj h
      obtain ⟨k, hk, hfirst⟩ := ih hbefore
      exact ⟨k, Nat.lt_succ_of_lt hk, hfirst⟩
    | running before =>
      have hgoes := goes_of_running hstart hstep hstop hbefore
      obtain ⟨before', hbefore', hinv⟩ := afterRounds_running hstart hstep hgoes
      have hsame := Progress.running.inj (hbefore.symm.trans hbefore')
      rw [← hsame] at hinv
      rw [hbefore] at h
      refine ⟨n, Nat.lt_succ_self n, hgoes, fun hnot => ?_, before, hinv, h⟩
      obtain ⟨next, hnext, -⟩ := hstep n before hinv hnot
      simp only [hnext] at h
      cases h

/-- Stopping in that round is stopping for good. -/
theorem afterRounds_stops (hstart : Inv 0 start)
    (hstep : ∀ n state, Inv n state → Goes n → ∃ next, step state (feed n) = .running next ∧ Inv (n + 1) next)
    {k : ℕ} (hbefore : ∀ j < k, Goes j) :
    ∃ state, Inv k state ∧ afterRounds step feed start (k + 1) = step state (feed k) := by
  obtain ⟨state, hstate, hinv⟩ := afterRounds_running hstart hstep hbefore
  refine ⟨state, hinv, ?_⟩
  rw [afterRounds, hstate]

end NightScout.Lib
