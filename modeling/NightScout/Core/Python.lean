import Mathlib.Data.Rat.Defs
import Mathlib.Data.Finset.Sort
import Mathlib.Data.List.DropRight
import Mathlib.Data.String.Basic

/-!
# The Python the stores are written in

What the modelled functions take from the language and its standard library: the exception
classes they raise and catch, the clock, and `str.strip`.

Time is exact. A `datetime` is a whole number of microseconds since the epoch and a `timedelta`
a whole number of microseconds; `total_seconds` is the rational they stand for. `datetime`
arithmetic past the year 9999 raises `OverflowError`, which is not a `ValueError`, so
`addDelta` says so: a handler written for `ValueError` does not catch it.
-/

namespace NightScout

/-- An exception, by the class an `except` clause selects it with, and its message. -/
inductive PyError where
  | keyError (message : String)
  | valueError (message : String)
  | runtimeError (message : String)
  /-- `sqlalchemy.exc.IntegrityError`: a constraint of the schema refused the write. -/
  | integrityError (message : String)
  | overflowError (message : String)
  /-- `asyncio.CancelledError`, which is not an `Exception`. -/
  | cancelledError
  /-- Any other `Exception` raised by a collaborator. -/
  | exception (message : String)
  deriving DecidableEq, Repr

namespace PyError

/-- Caught by `except (KeyError, ValueError)`. -/
def isKeyOrValue : PyError → Bool
  | keyError _ | valueError _ => true
  | _ => false

/-- Caught by `except Exception`. -/
def isException : PyError → Bool
  | cancelledError => false
  | _ => true

end PyError

/-! ## Raising

A body written with `do` is taken apart from the front: each statement either raised, and so did
the body, or it gave a value the rest ran with. -/

section Raising

variable {ε α β : Type} {e : ε} {c : Prop} [Decidable c]

@[simp] theorem throw_eq_error : (throw e : Except ε α) = .error e := rfl

@[simp] theorem pure_eq_ok (a : α) : (pure a : Except ε α) = .ok a := rfl

@[simp] theorem error_bind (f : α → Except ε β) : (Except.error e >>= f) = .error e := rfl

@[simp] theorem ok_bind (a : α) (f : α → Except ε β) : (Except.ok a >>= f) = f a := rfl

theorem bind_ok {x : Except ε α} {f : α → Except ε β} {b : β} (h : (x >>= f) = .ok b) :
    ∃ a, x = .ok a ∧ f a = .ok b := by
  cases x with
  | error e => cases h
  | ok a => exact ⟨a, rfl, h⟩

theorem guard_ok {x : Except ε α} {a : α} (h : (if c then .error e else x) = .ok a) :
    ¬ c ∧ x = .ok a := by
  split at h
  · cases h
  · exact ⟨‹_›, h⟩

theorem check_ok {x : Except ε β} {y : Except ε α} {a : α}
    (h : (if c then x >>= fun _ => y else y) = .ok a) : (c → ∃ b, x = .ok b) ∧ y = .ok a := by
  split at h
  · obtain ⟨b, hb, h⟩ := bind_ok h
    exact ⟨fun _ => ⟨b, hb⟩, h⟩
  · exact ⟨fun hc => absurd hc ‹_›, h⟩

end Raising

/-- A `datetime`, in microseconds since the epoch. -/
abbrev Instant := ℤ

/-- A `timedelta`, in microseconds. -/
abbrev Duration := ℤ

/-- `datetime.max`: 9999-12-31T23:59:59.999999. -/
def maxInstant : Instant := 253402300799999999

/-- `datetime.min`: 0001-01-01T00:00:00. -/
def minInstant : Instant := -62135596800000000

/-- `timedelta.max`: 999999999 days and all but a microsecond of another. -/
def maxDuration : Duration := 86399999999999999999

/-- `value.total_seconds()`. -/
def totalSeconds (d : Duration) : ℚ := (d : ℚ) / 1000000

/-- `now + delta`. -/
def addDelta (now : Instant) (delta : Duration) : Except PyError Instant :=
  if now + delta ≤ maxInstant then .ok (now + delta)
  else .error (.overflowError "date value out of range")

theorem addDelta_ok {now t : Instant} {delta : Duration} (h : addDelta now delta = .ok t) : t = now + delta := by
  unfold addDelta at h
  split at h
  · exact (Except.ok.inj h).symm
  · cases h

/-- A date out of range is an `OverflowError`. -/
theorem addDelta_error {now : Instant} {delta : Duration} {e : PyError}
    (h : addDelta now delta = .error e) : e = .overflowError "date value out of range" := by
  unfold addDelta at h
  split at h
  · cases h
  · exact (Except.error.inj h).symm

/-- `str.isspace` for one character. -/
def isSpace (c : Char) : Bool :=
  (9 ≤ c.toNat && c.toNat ≤ 13) || (28 ≤ c.toNat && c.toNat ≤ 32) || c.toNat = 0x85 ||
  c.toNat = 0xA0 || c.toNat = 0x1680 || (0x2000 ≤ c.toNat && c.toNat ≤ 0x200A) ||
  c.toNat = 0x2028 || c.toNat = 0x2029 || c.toNat = 0x202F || c.toNat = 0x205F ||
  c.toNat = 0x3000

/-- `str.strip`, on the characters. -/
def stripChars (cs : List Char) : List Char :=
  ((cs.dropWhile isSpace).reverse.dropWhile isSpace).reverse

def strip (s : String) : String := String.ofList (stripChars s.toList)

theorem stripChars_eq_rdropWhile (cs : List Char) :
    stripChars cs = List.rdropWhile isSpace (cs.dropWhile isSpace) := rfl

/-- Stripping twice is stripping once. -/
theorem stripChars_stripChars (cs : List Char) : stripChars (stripChars cs) = stripChars cs := by
  rw [stripChars_eq_rdropWhile (stripChars cs)]
  -- what is left starts as the left-stripped text does, so the left strip has nothing to do
  have hleft : (stripChars cs).dropWhile isSpace = stripChars cs := by
    rw [List.dropWhile_eq_self_iff]
    intro hl
    have hpre : stripChars cs <+: cs.dropWhile isSpace := List.rdropWhile_prefix _ _
    have hlen : 0 < (cs.dropWhile isSpace).length := lt_of_lt_of_le hl hpre.length_le
    rw [hpre.getElem hl]
    exact List.dropWhile_get_zero_not isSpace cs hlen
  rw [hleft, stripChars_eq_rdropWhile, List.rdropWhile_idempotent]

theorem strip_strip (s : String) : strip (strip s) = strip s := by
  unfold strip
  rw [String.toList_ofList, stripChars_stripChars]

/-- A text field whose validator strips it and rejects what is blank. -/
structure Stripped where
  text : String
  stripped : strip text = text := by decide
  nonblank : text ≠ "" := by decide
  deriving DecidableEq

namespace Stripped

theorem ext_text {a b : Stripped} (h : a.text = b.text) : a = b := by
  cases a
  cases b
  cases h
  rfl

end Stripped

/-! Names of tools, and of what they do. -/

def httpxName : Stripped := ⟨"httpx", by decide, by decide⟩

def katanaName : Stripped := ⟨"katana", by decide, by decide⟩

def trufflehogName : Stripped := ⟨"trufflehog", by decide, by decide⟩

def resolverName : Stripped := ⟨"dns:resolver", by decide, by decide⟩

def probeName : Stripped := ⟨"probe", by decide, by decide⟩

/-- A validator that strips an optional text and drops what is blank. -/
def optionalText (s : String) : Option Stripped :=
  if h : strip s = "" then none else some ⟨strip s, strip_strip s, h⟩

theorem optionalText_text (t : Stripped) : optionalText t.text = some t := by
  have hne : strip t.text ≠ "" := by
    rw [t.stripped]
    exact t.nonblank
  rw [optionalText, dif_neg hne]
  exact congrArg some (Stripped.ext_text t.stripped)

/-- `value.strip() or None`. -/
def stripOrNone (s : String) : Option String := if strip s = "" then none else some (strip s)

/-- `value.strip() or fallback`. -/
def stripOr (s fallback : String) : String := if strip s = "" then fallback else strip s

/-- `sorted` of a set of texts. -/
def sortedTexts (texts : Finset String) : List String := texts.sort (· ≤ ·)

@[simp] theorem toFinset_sortedTexts (texts : Finset String) : (sortedTexts texts).toFinset = texts :=
  texts.sort_toFinset _

end NightScout
