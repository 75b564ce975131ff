import NightScout.Core.Python

/-!
# What `except ValueError` catches

Most parsers of the workers raise nothing but `ValueError`, and their callers catch nothing else. `RaisesValueErrors`
goes through the control flow of a parser; what is caught that way is all there is (`exceptValueError_eq`).
-/

namespace NightScout

variable {α β : Type}

/-- `try: … except ValueError: return None`. -/
def exceptValueError : Except PyError α → Except PyError (Option α)
  | .ok a => .ok (some a)
  | .error (.valueError _) => .ok none
  | .error e => .error e

/-- Whatever is raised is a `ValueError`. -/
def RaisesValueErrors (result : Except PyError α) : Prop :=
  ∀ e, result = .error e → ∃ message, e = .valueError message

namespace RaisesValueErrors

theorem ok (a : α) : RaisesValueErrors (.ok a) := by
  intro e h
  cases h

theorem valueError (message : String) : RaisesValueErrors (α := α) (.error (.valueError message)) := by
  intro e h
  cases h
  exact ⟨message, rfl⟩

theorem bind {result : Except PyError α} {f : α → Except PyError β} (h : RaisesValueErrors result)
    (hf : ∀ a, result = .ok a → RaisesValueErrors (f a)) : RaisesValueErrors (result >>= f) := by
  cases result with
  | error e =>
    intro e' he
    cases he
    exact h e rfl
  | ok a => exact hf a rfl

/-- A check that raises a `ValueError`. -/
theorem guard {c : Prop} [Decidable c] {message : String} {result : Except PyError α}
    (h : ¬ c → RaisesValueErrors result) :
    RaisesValueErrors (if c then .error (.valueError message) else result) := by
  split
  · exact valueError message
  next hc => exact h hc

theorem mapM {f : β → Except PyError α} (h : ∀ b, RaisesValueErrors (f b)) :
    ∀ values : List β, RaisesValueErrors (values.mapM f)
  | [] => ok []
  | value :: values => by
    rw [List.mapM_cons]
    exact (h value).bind fun a _ => (mapM h values).bind fun as _ => ok _

/-- Either there is a result, or a `ValueError`. -/
theorem cases {result : Except PyError α} (h : RaisesValueErrors result) :
    (∃ a, result = .ok a) ∨ ∃ message, result = .error (.valueError message) := by
  cases result with
  | ok a => exact .inl ⟨a, rfl⟩
  | error e =>
    obtain ⟨message, rfl⟩ := h e rfl
    exact .inr ⟨message, rfl⟩

end RaisesValueErrors

theorem exceptValueError_eq {result : Except PyError α} (h : RaisesValueErrors result) :
    exceptValueError result = .ok result.toOption := by
  obtain ⟨a, rfl⟩ | ⟨message, rfl⟩ := h.cases
  · rfl
  · rfl

/-! ## Nothing is raised -/

/-- Something is returned. -/
def Returns (result : Except PyError α) : Prop := ∃ a, result = .ok a

@[simp] theorem returns_ok (a : α) : Returns (.ok a) := ⟨a, rfl⟩

@[simp] theorem not_returns_error (e : PyError) : ¬ Returns (α := α) (.error e) := by
  rintro ⟨a, h⟩
  cases h

theorem returns_bind {result : Except PyError α} {f : α → Except PyError β} :
    Returns (result >>= f) ↔ ∃ a, result = .ok a ∧ Returns (f a) := by
  cases result with
  | error e => simp
  | ok a => simp

/-- What is done with the result raises nothing. -/
theorem returns_bind_ok {result : Except PyError α} {f : α → Except PyError β} (h : ∀ a, Returns (f a)) :
    Returns (result >>= f) ↔ Returns result := by
  rw [returns_bind]
  constructor
  · rintro ⟨a, ha, -⟩
    exact ⟨a, ha⟩
  · rintro ⟨a, ha⟩
    exact ⟨a, ha, h a⟩

/-- Whether the rest returns does not depend on the result. -/
theorem returns_bind_iff {result : Except PyError α} {f : α → Except PyError β} {p : Prop}
    (h : ∀ a, Returns (f a) ↔ p) : Returns (result >>= f) ↔ Returns result ∧ p := by
  rw [returns_bind]
  constructor
  · rintro ⟨a, ha, hf⟩
    exact ⟨⟨a, ha⟩, (h a).mp hf⟩
  · rintro ⟨⟨a, ha⟩, hp⟩
    exact ⟨a, ha, (h a).mpr hp⟩

theorem returns_mapM {f : β → Except PyError α} {values : List β} :
    Returns (values.mapM f) ↔ ∀ value ∈ values, Returns (f value) := by
  induction values with
  | nil => simp [List.mapM_nil]
  | cons value values ih =>
    rw [List.mapM_cons, List.forall_mem_cons, ← ih, returns_bind]
    constructor
    · rintro ⟨a, ha, h⟩
      rw [returns_bind] at h
      obtain ⟨as, has, -⟩ := h
      exact ⟨⟨a, ha⟩, ⟨as, has⟩⟩
    · rintro ⟨⟨a, ha⟩, ⟨as, has⟩⟩
      refine ⟨a, ha, ?_⟩
      rw [has]
      exact returns_ok _

end NightScout
