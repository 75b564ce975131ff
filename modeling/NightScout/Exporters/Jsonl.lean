import NightScout.Core.JsonFields
import NightScout.Core.JsonReading
import NightScout.Policy.Domains

/-!
# JSONL export

`recon/exporters/jsonl.py`: the record of an event with what may be secret taken out, and the record of sensitive
evidence, which is read from the protected store.

Metadata is JSON. What the language makes of a value that is no string, `str(value)`, is a parameter; so is the
sanitizing of a URL, which is the storage boundary's.
-/

namespace NightScout

open Lib

/-! ## Keys -/

/-- `re.search(r"(?:^|_)word(?:$|_)", text)`. -/
def hasWord (word text : String) : Bool := '_' :: (word.toList ++ ['_']) <:+: '_' :: (text.toList ++ ['_'])

/-- `key.strip().lower().replace("-", "_")`. -/
def normalizedKey (tables : Tables) (key : String) : String :=
  String.ofList ((strLower tables (strip key)).toList.map fun c => if c = '-' then '_' else c)

def rawSecretKeys : List String :=
  ["raw_secret", "secret", "secret_value", "credential", "credential_value", "password", "passwd", "private_key",
    "privatekey", "access_token", "refresh_token", "client_secret", "api_key_value", "authorization", "cookie",
    "set_cookie"]

def safeSensitiveMetadataKeys : List String :=
  ["secret_type", "credential_used", "credential_verification_attempted", "verification_attempted",
    "raw_secret_stored", "raw_secret_stored_separately", "possible_secret_count", "masked_preview",
    "evidence_fingerprint", "sensitive_evidence_fingerprint", "token_count", "vocabulary_token_count"]

/-- The words of the pattern in `_metadata_key_is_sensitive`. -/
def exportSecretWords : List String :=
  ["password", "passwd", "secret", "credential", "access_token", "refresh_token", "client_secret",
    "authorization", "cookie", "private_key"]

def metadataKeyIsSensitive (tables : Tables) (key : String) : Bool :=
  let normalized := normalizedKey tables key
  if normalized ∈ safeSensitiveMetadataKeys then false
  else if normalized ∈ rawSecretKeys then true
  else exportSecretWords.any fun word => hasWord word normalized

/-! ## Values -/

section Sanitize

variable (tables : Tables) (sanitizeUrl : String → String)

mutual

/-- `sanitize_export_value`, of a value whose key is not sensitive. -/
def sanitizeExportValue : JsonValue → JsonValue
  | .string s => .string (sanitizeUrl s)
  | .array items => .array (sanitizeExportItems items)
  | .object entries => .object (sanitizeExportEntries entries)
  | v => v

def sanitizeExportItems : List JsonValue → List JsonValue
  | [] => []
  | v :: vs => sanitizeExportValue v :: sanitizeExportItems vs

def sanitizeExportEntries : List (String × JsonValue) → List (String × JsonValue)
  | [] => []
  | (k, v) :: es =>
    (k, if metadataKeyIsSensitive tables k then .string "[REDACTED]" else sanitizeExportValue v) ::
      sanitizeExportEntries es

end

end Sanitize

/-! ## Events -/

def hexDigits : List Char := "0123456789abcdef".toList

def normalizeFingerprint (tables : Tables) (value : String) : Option String :=
  let normalized := (strLower tables (strip value)).toList.filter (· ≠ ':')
  if 16 ≤ normalized.length ∧ normalized.length ≤ 128 ∧ normalized.all (· ∈ hexDigits) then
    some (String.ofList normalized)
  else none

section Records

variable (tables : Tables) (str : JsonValue → String)

def isSensitiveEvent (event : Event) : Prop :=
  (∃ tag ∈ event.tags, ["secret", "credential", "private-key", "access-token"].any
      fun marker => containsText marker (strLower tables (strip tag))) ∨
    containsText "secret" (strLower tables (metadataText str event.metadata "artifact_kind")) ∨
    containsText "secret" (strLower tables (metadataText str event.metadata "review_category"))

instance (event : Event) : Decidable (isSensitiveEvent tables str event) := inferInstanceAs (Decidable (_ ∨ _))

def sensitiveFingerprintForEvent (event : Event) : Option String :=
  match event.metadata.get? "evidence_fingerprint" with
  | some (.string raw) => normalizeFingerprint tables raw
  | _ => none

def JsonValue.optional : Option String → JsonValue
  | none => .null
  | some s => .string s

def safeEventRecord (sanitizeUrl : String → String) (T : TimeText) (includeMetadata includeTags : Bool)
    (event : Event) : List (String × JsonValue) :=
  [("record_type", .string "event"), ("event_id", .string event.eventId),
    ("event_type", .string event.type.value), ("value", .string (sanitizeUrl event.value)),
    ("source", .string event.source.text), ("parent_event_id", .optional event.parentEventId),
    ("first_seen", .string (T.isoformat event.firstSeen)), ("last_seen", .string (T.isoformat event.lastSeen)),
    ("scope_state", .string event.scopeState.value), ("confidence", .float event.confidence),
    ("novelty", .float event.novelty), ("depth", .int event.depth)] ++
  (if includeTags then [("tags", .strings (sortedTexts event.tags))] else []) ++
  (if includeMetadata then
    [("metadata", .object (sanitizeExportEntries tables sanitizeUrl event.metadata.entries))] else []) ++
  if isSensitiveEvent tables str event then
    [("sensitive_evidence_available", .bool (sensitiveFingerprintForEvent tables event).isSome),
      ("raw_secret_in_event_export", .bool false)] else []

end Records

/-! ## Sensitive evidence -/

/-- What is asked of a text of the evidence: it is stripped and not blank. -/
def requiredEvidenceText (s : String) : Option Stripped := optionalText s

structure SensitiveEvidence where
  evidenceFingerprint : Stripped
  rawSecret : Stripped
  secretType : Option String := none
  detector : Option String := none
  sourceFile : Option String := none
  line : Option ℕ := none
  column : Option ℕ := none
  artifactRef : Option String := none
  artifactSha256 : Option String := none

/-- A field of a model that is a text. -/
def textField : Option JsonValue → Option String
  | some (.string s) => some s
  | _ => none

/-- A field that is a text or `None`, `None` by default. -/
def optionalTextField : Option JsonValue → Option (Option String)
  | none => some none
  | some .null => some none
  | some (.string s) => some (some s)
  | _ => none

/-- A field that is a number from one on or `None`, `None` by default. -/
def positiveField : Option JsonValue → Option (Option ℕ)
  | none => some none
  | some .null => some none
  | some (.int n) => if 1 ≤ n then some (some n.toNat) else none
  | _ => none

/-- `SensitiveEvidence.model_validate`, of a dictionary that was read; `none` is a `ValidationError`. Numbers that are
    no integers in the file are not taken, and none are written there. -/
def SensitiveEvidence.modelValidate (payload : Dict String JsonValue) : Option SensitiveEvidence := do
  let evidenceFingerprint ← (textField (payload.get? "evidence_fingerprint")).bind requiredEvidenceText
  let rawSecret ← (textField (payload.get? "raw_secret")).bind requiredEvidenceText
  let secretType ← optionalTextField (payload.get? "secret_type")
  let detector ← optionalTextField (payload.get? "detector")
  let sourceFile ← optionalTextField (payload.get? "source_file")
  let line ← positiveField (payload.get? "line")
  let column ← positiveField (payload.get? "column")
  let artifactRef ← optionalTextField (payload.get? "artifact_ref")
  let artifactSha256 ← optionalTextField (payload.get? "artifact_sha256")
  return { evidenceFingerprint, rawSecret, secretType, detector, sourceFile, line, column, artifactRef
           artifactSha256 }

/-- The protected directory: the text of `name.json`, by name. Its files are private and no links. -/
abbrev EvidenceFiles := Dict String (List Char)

def evidenceFor (F : FloatText) (tables : Tables) (files : EvidenceFiles) (fingerprint : String) :
    Option SensitiveEvidence := do
  let fingerprint ← normalizeFingerprint tables fingerprint
  let text ← files.get? fingerprint
  match ← loads F true text with
  | .object entries => SensitiveEvidence.modelValidate (Dict.ofPairs entries)
  | _ => none

/-- `text or fallback`. -/
def textOr (text : Option String) (fallback : Option JsonValue) : JsonValue :=
  match text with
  | some "" => fallback.getD .null
  | some s => .string s
  | none => fallback.getD .null

/-- `number or fallback`, of a number that is not zero. -/
def numberOr (number : Option ℕ) (fallback : Option JsonValue) : JsonValue :=
  match number with
  | some n => .int n
  | none => fallback.getD .null

/-- The record of a sensitive event and its evidence. -/
def evidenceRecord (event : Event) (evidence : SensitiveEvidence) : List (String × JsonValue) :=
  [("record_type", .string "sensitive_evidence"), ("event_id", .string event.eventId),
    ("event_type", .string event.type.value),
    ("evidence_fingerprint", .string evidence.evidenceFingerprint.text),
    ("secret_type", textOr evidence.secretType (event.metadata.get? "secret_type")),
    ("detector", textOr evidence.detector (event.metadata.get? "detector")),
    ("source_file", textOr evidence.sourceFile (event.metadata.get? "source_file")),
    ("line", numberOr evidence.line (event.metadata.get? "line")),
    ("column", numberOr evidence.column (event.metadata.get? "column")),
    ("artifact_ref", textOr evidence.artifactRef (event.metadata.get? "artifact_ref")),
    ("artifact_sha256", textOr evidence.artifactSha256 (event.metadata.get? "artifact_sha256")),
    ("confidence", .float event.confidence), ("novelty", .float event.novelty),
    ("review_category", (event.metadata.get? "review_category").getD (.string "POSSIBLE_SECRET")),
    ("verification_attempted", .bool false), ("credential_used", .bool false),
    ("raw_secret", .string evidence.rawSecret.text)]

def sensitiveEvidenceRecord (F : FloatText) (tables : Tables) (files : EvidenceFiles) (event : Event) :
    Option (List (String × JsonValue)) := do
  let fingerprint ← sensitiveFingerprintForEvent tables event
  let evidence ← evidenceFor F tables files fingerprint
  return evidenceRecord event evidence

/-! ## The file -/

section File

variable (F : FloatText) (T : TimeText) (tables : Tables) (str : JsonValue → String)
  (sanitizeUrl : String → String)

/-- The records of an event in an export with sensitive evidence. -/
def jsonlRecordsOf (files : EvidenceFiles) (includeMetadata includeTags : Bool) (event : Event) :
    List (List (String × JsonValue)) :=
  safeEventRecord tables str sanitizeUrl T includeMetadata includeTags event ::
    if isSensitiveEvent tables str event then (sensitiveEvidenceRecord F tables files event).toList else []

/-- `build_jsonl_records`, in the sensitive mode, confirmed and with sensitive records. -/
def buildSensitiveJsonlRecords (files : EvidenceFiles) (includeMetadata includeTags : Bool)
    (events : List Event) : List (List (String × JsonValue)) :=
  events.flatMap (jsonlRecordsOf F T tables str sanitizeUrl files includeMetadata includeTags)

/-- What `export_jsonl` writes. -/
def jsonlText (records : List (List (String × JsonValue))) : List Char :=
  records.flatMap fun record => dumps F (JsonValue.object record).sortKeys ++ ['\n']

end File

end NightScout
