import NightScout.Core.Python

/-!
# Gates

`GateOutcome` and `GateDecision` of `recon/core/lifecycle.py`: what a policy gate says about a task
before it is admitted. A decision carries its own validation, so one with a retry delay is a DEFER and
one with a review case is a REVIEW.
-/

namespace NightScout

inductive GateOutcome where
  | allow | defer | block | review
  deriving DecidableEq, Repr

namespace GateOutcome

def value : GateOutcome → String
  | allow => "ALLOW" | defer => "DEFER" | block => "BLOCK" | review => "REVIEW"

end GateOutcome

structure GateDecision where
  outcome : GateOutcome
  reason : Option String := none
  reviewCaseId : Option String := none
  retryAfterSeconds : Option ℚ := none
  retry_nonneg : ∀ s ∈ retryAfterSeconds, 0 ≤ s := by simp
  retry_defer : retryAfterSeconds ≠ none → outcome = .defer := by simp
  case_review : reviewCaseId ≠ none → outcome = .review := by simp
  deriving DecidableEq

end NightScout
