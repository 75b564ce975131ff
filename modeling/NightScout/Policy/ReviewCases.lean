import NightScout.Core.Task
import NightScout.Lib.OrderedSets
import Mathlib.Algebra.Order.Ring.Rat

/-!
# Review cases

Signals, cases and the store contract of `recon/policy/review_gate.py`. A signal says why a follow-up
task may need a human decision; the signals of a task that do are kept in a case until the case is
decided. A case is identified by its task and the fingerprints of its signals, joined with bars and
hashed; a fingerprint is what the signal's provider says, or such a hash itself.

SHA-256 is a parameter.
-/

namespace NightScout

open Lib

inductive ReviewCategory where
  | possibleSecret | privateData | authBoundary
  | scopeAmbiguity | policyAmbiguity
  | highImpactSurface | sensitiveArtifact
  | unknownSensitiveContent
  deriving DecidableEq, Repr

def ReviewCategory.value : ReviewCategory → String
  | possibleSecret => "POSSIBLE_SECRET" | privateData => "PRIVATE_DATA"
  | authBoundary => "AUTH_BOUNDARY" | scopeAmbiguity => "SCOPE_AMBIGUITY"
  | policyAmbiguity => "POLICY_AMBIGUITY" | highImpactSurface => "HIGH_IMPACT_SURFACE"
  | sensitiveArtifact => "SENSITIVE_ARTIFACT"
  | unknownSensitiveContent => "UNKNOWN_SENSITIVE_CONTENT"

theorem ReviewCategory.value_injective : Function.Injective value := by
  intro a b h
  cases a <;> cases b <;> first | rfl | exact absurd h (by decide)

inductive ReviewSeverity where
  | low | medium | high | critical
  deriving DecidableEq, Repr

def ReviewSeverity.rank : ReviewSeverity → ℕ
  | low => 10 | medium => 20 | high => 30 | critical => 40

inductive ReviewCaseState where
  | open | approved | blocked | dismissed
  deriving DecidableEq, Repr

theorem half_unit : (0 : ℚ) ≤ 1 / 2 ∧ (1 / 2 : ℚ) ≤ 1 := by decide +kernel

/-- A signal, with the normalized set of its tags. -/
structure ReviewSignal where
  category : ReviewCategory
  severity : ReviewSeverity := .medium
  confidence : ℚ := 1 / 2
  summary : Stripped
  sourceEventId : Option Stripped := none
  evidenceFingerprint : Option Stripped := none
  /-- The members of the set, in any order. -/
  tags : List String := []
  unit : 0 ≤ confidence ∧ confidence ≤ 1 := by first | exact half_unit | decide +kernel

def ReviewSignal.stableFingerprint (sha256 : String → String) (signal : ReviewSignal) : String :=
  match signal.evidenceFingerprint with
  | some fingerprint => fingerprint.text
  | none =>
    sha256 ("|".intercalate [signal.category.value,
      (signal.sourceEventId.map Stripped.text).getD "", signal.summary.text,
      ",".intercalate (sortedSet id signal.tags)])

theorem open_unresolved : ReviewCaseState.open = .open ↔ (none : Option Instant) = none :=
  ⟨fun _ => rfl, fun _ => rfl⟩

structure ReviewCase where
  caseId : String
  taskId : String
  worker : Stripped
  action : Stripped
  inputEventId : Stripped
  signalFingerprints : List String
  categories : List ReviewCategory
  summaries : List Stripped
  state : ReviewCaseState := .open
  openedAt : Instant
  resolvedAt : Option Instant := none
  resolutionReason : Option String := none
  fingerprints_ne : signalFingerprints ≠ []
  categories_ne : categories ≠ []
  resolved_iff : state = .open ↔ resolvedAt = none
  deriving DecidableEq

section Keys

variable (sha256 : String → String)

/-- The text `_review_dedupe_key` hashes. -/
def reviewMaterial (taskId : String) (fingerprints : List String) : String :=
  "|".intercalate (taskId :: fingerprints)

def reviewDedupeKey (taskId : String) (fingerprints : List String) : String :=
  sha256 (reviewMaterial taskId fingerprints)

/-- `sorted({signal.stable_fingerprint for signal in signals})`. -/
def signalFingerprints (signals : List ReviewSignal) : List String :=
  sortedSet id (signals.map fun signal => signal.stableFingerprint sha256)

/-- The categories of signals, by name. -/
def signalCategories (signals : List ReviewSignal) : List ReviewCategory :=
  sortedSet ReviewCategory.value (signals.map fun signal => signal.category)

theorem signalCategories_ne {signals : List ReviewSignal} (h : signals ≠ []) :
    signalCategories signals ≠ [] := sortedSet_ne_nil (mt List.map_eq_nil_iff.mp h)

/-- The summaries of signals, each once. -/
def signalSummaries (signals : List ReviewSignal) : List Stripped :=
  fromkeys (signals.map fun signal => signal.summary)

/-- The case that is opened for signals. -/
def openedCase (task : Task) (signals : List ReviewSignal) (h : signals ≠ []) (caseId : String)
    (openedAt : Instant) : ReviewCase where
  caseId
  taskId := task.taskId
  worker := task.worker
  action := task.action
  inputEventId := task.inputEventId
  signalFingerprints := signalFingerprints sha256 signals
  categories := signalCategories signals
  summaries := signalSummaries signals
  openedAt
  fingerprints_ne := sortedSet_ne_nil (mt List.map_eq_nil_iff.mp h)
  categories_ne := signalCategories_ne h
  resolved_iff := open_unresolved

/-- The key of a case. -/
def ReviewCase.dedupeKey (reviewCase : ReviewCase) : String :=
  reviewDedupeKey sha256 reviewCase.taskId reviewCase.signalFingerprints

end Keys

/-- A case that is decided. -/
def ReviewCase.resolve (reviewCase : ReviewCase) (state : ReviewCaseState) (h : state ≠ .open)
    (reason : Option String) (now : Instant) : ReviewCase :=
  { reviewCase with
    state
    resolvedAt := some now
    resolutionReason := reason.bind stripOrNone
    resolved_iff := by simp [h] }

/-- The `ReviewCaseStore` protocol: each operation is one transaction on the state `σ`. -/
structure ReviewCaseStore (σ : Type) where
  empty : σ
  /-- `open_or_get(task=..., signals=...)`, with the identifier the case would get, those its signals
      would get, the clock, and whether the rows a case refers to are stored. -/
  openOrGet : σ → Task → List ReviewSignal → String → (ℕ → String) → Instant → Bool →
    Except PyError ReviewCase × σ
  get : σ → String → Option ReviewCase
  /-- `approved_for_task(task_id, signal_fingerprints=...)`. -/
  approvedForTask : σ → String → Option (List String) → Option ReviewCase
  /-- `resolve(case_id, state=..., reason=...)`, with the clock. -/
  resolve : σ → String → ReviewCaseState → Option String → Instant →
    Except PyError ReviewCase × σ

end NightScout
