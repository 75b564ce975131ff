import NightScout.Lib.Csv
import NightScout.Lib.Texts
import NightScout.Workers.EvidenceStore

/-!
# Exports of sensitive evidence

The sensitive part of `recon/exporters/csv.py` and `recon/exporters/text.py`, and what a reader of the three exports
finds for a secret: the text of the JSON file and each of the encodings give back what they were given, so what is
read is the stored secret as the evidence model takes it, which is stripped (`sensitive_evidence_exact_iff`).
-/

namespace NightScout

open Lib

/-! ## CSV -/

def sensitiveFields : List String :=
  ["event_id", "event_type", "evidence_fingerprint", "secret_type", "detector", "artifact_ref", "artifact_sha256",
    "source_file", "line", "column", "confidence", "novelty", "verification_attempted", "credential_used",
    "raw_secret_json"]

/-- `record.get(name)`. -/
def recordField (record : List (String × JsonValue)) (name : String) : Option JsonValue :=
  (record.find? (·.1 = name)).map Prod.snd

/-- `str(record["raw_secret"])`. -/
def rawSecretOf (str : JsonValue → String) (record : List (String × JsonValue)) : String :=
  match recordField record "raw_secret" with
  | some (.string s) => s
  | some v => str v
  | none => ""

/-- `str(record["evidence_fingerprint"])`. -/
def fingerprintOf (str : JsonValue → String) (record : List (String × JsonValue)) : String :=
  match recordField record "evidence_fingerprint" with
  | some (.string s) => s
  | some v => str v
  | none => ""

section Exports

variable (F : FloatText) (tables : Tables) (str : JsonValue → String)

/-- The records of sensitive events, the first of each fingerprint that was not seen. -/
def distinctRecords (files : EvidenceFiles) : List String → List Event → List (List (String × JsonValue))
  | _, [] => []
  | seen, event :: events =>
    if isSensitiveEvent tables str event then
      match sensitiveEvidenceRecord F tables files event with
      | none => distinctRecords files seen events
      | some record =>
        if fingerprintOf str record ∈ seen then distinctRecords files seen events
        else record :: distinctRecords files (fingerprintOf str record :: seen) events
    else distinctRecords files seen events

/-- `sensitive_csv_rows`: the cells of a row, in the order of the fields. -/
def sensitiveCsvRow (record : List (String × JsonValue)) : List JsonValue :=
  sensitiveFields.map fun field =>
    if field = "raw_secret_json" then
      .string (String.ofList (dumps F (.string (rawSecretOf str record))))
    else (recordField record field).getD (.string "")

def csvSafeCell : JsonValue → JsonValue
  | .string s =>
    if (s.toList.dropWhile isSpace).head?.any (· ∈ ['=', '+', '-', '@']) then .string ("'" ++ s) else .string s
  | v => v

/-- What the writer makes of a cell. -/
def cellText : JsonValue → List Char
  | .string s => s.toList
  | .null => []
  | v => (str v).toList

/-- The text of `sensitive_evidence.csv`. -/
def sensitiveCsvText (files : EvidenceFiles) (events : List Event) : List Char :=
  writeRows (sensitiveFields.map String.toList ::
    (distinctRecords F tables str files [] events).map fun record =>
      (sensitiveCsvRow F str record).map fun cell => cellText str (csvSafeCell cell))

/-! ## Text -/

/-- What `or` takes for false. -/
def JsonValue.falsy : JsonValue → Bool
  | .null => true
  | .bool b => !b
  | .int n => n = 0
  | .float x => x = 0
  | .string s => s = ""
  | .array items => items.isEmpty
  | .object entries => entries.isEmpty
  | _ => false

/-- `f"{record.get(name) or fallback}"`. -/
def shownField (record : List (String × JsonValue)) (name fallback : String) : List Char :=
  match recordField record name with
  | none => fallback.toList
  | some v =>
    if v.falsy then fallback.toList
    else
      match v with
      | .string s => s.toList
      | v => (str v).toList

/-- `f":{record[name]}"`, if there is one. -/
def shownNumber (record : List (String × JsonValue)) (name : String) : List Char :=
  match recordField record name with
  | none => []
  | some v => if v.falsy then [] else ':' :: shownField str record name ""

/-- `float(record.get("confidence") or 0.0)`. -/
def confidenceOf (record : List (String × JsonValue)) : ℚ :=
  match recordField record "confidence" with
  | some (.float x) => x
  | _ => 0

/-- The lines of a record in `build_sensitive_text_lines`; `fixed` writes a number with three decimals. -/
def sensitiveTextLines (fixed : ℚ → String) (record : List (String × JsonValue)) : List (List Char) :=
  ["evidence_fingerprint: ".toList ++ (fingerprintOf str record).toList,
    "secret_type: ".toList ++ shownField str record "secret_type" "unknown",
    "detector: ".toList ++ shownField str record "detector" "unknown",
    "artifact_ref: ".toList ++ shownField str record "artifact_ref" "",
    "artifact_sha256: ".toList ++ shownField str record "artifact_sha256" "",
    "source: ".toList ++ (shownField str record "source_file" "unknown" ++
      (shownNumber str record "line" ++ shownNumber str record "column")),
    "confidence: ".toList ++ (fixed (confidenceOf record)).toList,
    "verification_attempted: false".toList,
    "credential_used: false".toList,
    "raw_secret_json: ".toList ++ dumps F (.string (rawSecretOf str record)),
    "---".toList]

/-- `str(line).replace("\r", " ").rstrip("\n")`. -/
def writtenLine (line : List Char) : List Char :=
  (line.map fun c => if c = '\r' then ' ' else c).rdropWhile (· = '\n')

/-- What `_atomic_write_lines` writes for `sensitive_evidence.txt`, one item a line. -/
def sensitiveText (fixed : ℚ → String) (files : EvidenceFiles) (events : List Event) : List (List Char) :=
  ((distinctRecords F tables str files [] events).flatMap (sensitiveTextLines F str fixed)).map writtenLine

/-! ## Reading the exports -/

/-- A JSON text that is a string. -/
def decodedString (text : List Char) : Option String :=
  match loads F true text with
  | some (.string s) => some s
  | _ => none

/-- The secret of a record that was read, if it is of the fingerprint. -/
def recordSecret (fingerprint : String) (entries : List (String × JsonValue)) : Option (Option String) :=
  let record := Dict.ofPairs entries
  if textField (record.get? "record_type") = some "sensitive_evidence" ∧
      textField (record.get? "evidence_fingerprint") = some fingerprint then
    some (textField (record.get? "raw_secret"))
  else none

/-- The secrets of a fingerprint in a JSONL text. -/
def jsonlSecrets (fingerprint : String) (text : List Char) : List (Option String) :=
  (textLines text).filterMap fun line =>
    match loads F true line with
    | some (.object entries) => recordSecret fingerprint entries
    | _ => none

/-- The secrets of a fingerprint in a CSV text, by the places of the two fields. -/
def csvSecrets (fingerprint : String) (text : List Char) : List (Option String) :=
  (readCsv text).tail.filterMap fun row =>
    if row[sensitiveFields.idxOf "evidence_fingerprint"]? = some fingerprint.toList then
      some ((row[sensitiveFields.idxOf "raw_secret_json"]?).bind (decodedString F))
    else none

/-- The secret in the ninth line after the one with the fingerprint. -/
def textSecrets (fingerprint : String) : List (List Char) → List (Option String)
  | [] => []
  | line :: lines =>
    if line = "evidence_fingerprint: ".toList ++ fingerprint.toList then
      ((lines[8]?).bind fun secret => decodedString F (secret.drop "raw_secret_json: ".toList.length)) ::
        textSecrets fingerprint lines
    else textSecrets fingerprint lines

end Exports

/-- Something is found, and it is always the secret. -/
def Decodes (found : List (Option String)) (secret : String) : Prop :=
  found ≠ [] ∧ ∀ s ∈ found, s = some secret

/-! ## The record of a sensitive event -/

/-- What the exporters read of a record of a secret. -/
structure IsRecordOf (fingerprint secret : String) (record : List (String × JsonValue)) : Prop where
  nodup : (record.map Prod.fst).Nodup
  recordType : ("record_type", .string "sensitive_evidence") ∈ record
  fingerprint : ("evidence_fingerprint", .string fingerprint) ∈ record
  secret : ("raw_secret", .string secret) ∈ record

theorem recordField_of_mem {record : List (String × JsonValue)} (hnodup : (record.map Prod.fst).Nodup)
    {name : String} {v : JsonValue} (h : (name, v) ∈ record) : recordField record name = some v := by
  induction record with
  | nil => cases h
  | cons e es ih =>
    obtain ⟨hne, hes⟩ := List.nodup_cons.mp hnodup
    unfold recordField
    rcases List.mem_cons.mp h with rfl | hmem
    · exact congrArg (Option.map Prod.snd) (List.find?_cons_of_pos (decide_eq_true rfl))
    · have hname : e.1 ≠ name := fun heq => hne (heq ▸ List.mem_map_of_mem hmem)
      rw [List.find?_cons_of_neg (by simpa using hname)]
      exact ih hes hmem

namespace IsRecordOf

variable {fingerprint secret : String} {record : List (String × JsonValue)}

theorem fingerprintOf_eq (h : IsRecordOf fingerprint secret record) (str : JsonValue → String) :
    fingerprintOf str record = fingerprint := by
  unfold NightScout.fingerprintOf
  rw [recordField_of_mem h.nodup h.fingerprint]

theorem rawSecretOf_eq (h : IsRecordOf fingerprint secret record) (str : JsonValue → String) :
    rawSecretOf str record = secret := by
  unfold NightScout.rawSecretOf
  rw [recordField_of_mem h.nodup h.secret]

end IsRecordOf

theorem isRecordOf_evidenceRecord (event : Event) (evidence : SensitiveEvidence) :
    IsRecordOf evidence.evidenceFingerprint.text evidence.rawSecret.text (evidenceRecord event evidence) where
  nodup := by
    show ["record_type", "event_id", "event_type", "evidence_fingerprint", "secret_type", "detector", "source_file",
      "line", "column", "artifact_ref", "artifact_sha256", "confidence", "novelty", "review_category",
      "verification_attempted", "credential_used", "raw_secret"].Nodup
    decide
  recordType := by simp [evidenceRecord]
  fingerprint := by simp [evidenceRecord]
  secret := by simp [evidenceRecord]

section Runs

variable {F : FloatText} {tables : Tables} {records : List SensitiveEvidenceRecord}

/-- The evidence of a fingerprint, if a record with a secret was stored under it. -/
theorem evidenceFor_some {value fingerprint : String} (hfingerprint : normalizeFingerprint tables value = some fingerprint)
    {evidence : SensitiveEvidence} (h : evidenceFor F tables (storeAll F tables .empty records) fingerprint = some evidence) :
    evidence.evidenceFingerprint.text = fingerprint ∧ ∃ stored, lastStored tables records fingerprint = some stored ∧
      requiredEvidenceText stored.rawSecret = some evidence.rawSecret := by
  obtain ⟨hstrip, hne⟩ := normalizeFingerprint_stripped hfingerprint
  cases hlast : lastStored tables records fingerprint with
  | none =>
    unfold evidenceFor at h
    simp only [Option.bind_eq_bind, normalizeFingerprint_self hfingerprint, Option.bind_some,
      get?_storeAll, hlast, Dict.get?_empty, Option.bind_none] at h
    cases h
  | some stored =>
    have hread := evidenceFor_storeAll F .empty ⟨fingerprint, hstrip, hne⟩ hlast
    rw [hread] at h
    obtain ⟨secret, hsecret, rfl⟩ := Option.map_eq_some_iff.mp h
    exact ⟨rfl, stored, rfl, hsecret⟩

theorem sensitiveFingerprint_normalized {event : Event} {fingerprint : String}
    (h : sensitiveFingerprintForEvent tables event = some fingerprint) :
    ∃ value, normalizeFingerprint tables value = some fingerprint := by
  unfold sensitiveFingerprintForEvent at h
  split at h
  next raw _ => exact ⟨raw, h⟩
  · cases h

/-- Every record of an event is of the secret that was stored last under the fingerprint of the event. -/
theorem sensitiveEvidenceRecord_some {event : Event} {record : List (String × JsonValue)}
    (h : sensitiveEvidenceRecord F tables (storeAll F tables .empty records) event = some record) :
    ∃ fingerprint stored secret, sensitiveFingerprintForEvent tables event = some fingerprint ∧
      lastStored tables records fingerprint = some stored ∧ requiredEvidenceText stored.rawSecret = some secret ∧
      IsRecordOf fingerprint secret.text record := by
  obtain ⟨fingerprint, hfingerprint, h⟩ := Option.bind_eq_some_iff.mp h
  obtain ⟨evidence, hevidence, h⟩ := Option.bind_eq_some_iff.mp h
  obtain rfl := Option.some.inj h
  obtain ⟨value, hvalue⟩ := sensitiveFingerprint_normalized hfingerprint
  obtain ⟨rfl, stored, hstored, hsecret⟩ := evidenceFor_some hvalue hevidence
  exact ⟨_, stored, evidence.rawSecret, hfingerprint, hstored, hsecret, isRecordOf_evidenceRecord event evidence⟩

theorem exists_sensitiveEvidenceRecord {event : Event} {fingerprint : String}
    (hevent : sensitiveFingerprintForEvent tables event = some fingerprint) {stored : SensitiveEvidenceRecord}
    (hstored : lastStored tables records fingerprint = some stored) {secret : Stripped}
    (hsecret : requiredEvidenceText stored.rawSecret = some secret) :
    ∃ record, sensitiveEvidenceRecord F tables (storeAll F tables .empty records) event = some record := by
  obtain ⟨value, hvalue⟩ := sensitiveFingerprint_normalized hevent
  obtain ⟨hstrip, hne⟩ := normalizeFingerprint_stripped hvalue
  have hread := evidenceFor_storeAll F .empty ⟨fingerprint, hstrip, hne⟩ hstored
  unfold sensitiveEvidenceRecord
  simp only [Option.bind_eq_bind, hevent, Option.bind_some, hread, hsecret, Option.map_some]
  exact ⟨_, rfl⟩

end Runs

/-! ## What is found -/

section Found

variable {F : FloatText} {str : JsonValue → String}

/-- What a reader that looks for a fingerprint finds in a record. -/
def finding (str : JsonValue → String) (fingerprint : String) (record : List (String × JsonValue)) :
    Option (Option String) :=
  if fingerprintOf str record = fingerprint then some (some (rawSecretOf str record)) else none

theorem decodedString_dumps (s : String) : decodedString F (dumps F (.string s)) = some s := by
  have hread : loads F true (dumps F (.string s)) = some (.string s) :=
    loads_dumpsWith (.inl rfl) fun s _ => readString_flatMap readString_escapeChar s.toList
  unfold decodedString
  rw [hread]

/-- A line of a record is read as the record. -/
theorem recordSecret_sorted {fingerprint secret : String} {record : List (String × JsonValue)}
    (h : IsRecordOf fingerprint secret record) (wanted : String) :
    recordSecret wanted ((JsonValue.sortEntries record).insertionSort fun a b => a.1 ≤ b.1) =
      finding str wanted record := by
  unfold recordSecret finding
  simp only
  rw [JsonValue.get?_sortKeys h.nodup h.recordType, JsonValue.get?_sortKeys h.nodup h.fingerprint,
    JsonValue.get?_sortKeys h.nodup h.secret, h.fingerprintOf_eq, h.rawSecretOf_eq]
  simp only [JsonValue.sortKeys, textField, true_and, Option.some.injEq]

/-! ### JSONL -/

theorem jsonlSecrets_jsonlText (wanted : String) (records : List (List (String × JsonValue))) :
    jsonlSecrets F wanted (jsonlText F records) = records.filterMap fun record =>
      recordSecret wanted ((JsonValue.sortEntries record).insertionSort fun a b => a.1 ≤ b.1) := by
  have hlines : jsonlText F records =
      (records.map fun record => dumps F (JsonValue.object record).sortKeys).flatMap fun line => line ++ ['\n'] := by
    rw [List.flatMap_map]
    rfl
  have hnewline : ∀ line ∈ records.map (fun record => dumps F (JsonValue.object record).sortKeys), '\n' ∉ line := by
    intro line hline
    obtain ⟨record, _, rfl⟩ := List.mem_map.mp hline
    exact newline_not_mem_dumps F _
  have hread (record : List (String × JsonValue)) : loads F true (dumps F (JsonValue.object record).sortKeys) =
      some (JsonValue.object record).sortKeys :=
    loads_dumpsWith (.inl rfl) fun s _ => readString_flatMap readString_escapeChar s.toList
  unfold jsonlSecrets
  rw [hlines, textLines_flatMap hnewline, List.filterMap_map]
  refine List.filterMap_congr fun record _ => ?_
  rw [Function.comp_apply, hread]
  rfl

/-- The record of an event itself is no record of a secret. -/
theorem recordSecret_safe (tables : Tables) (sanitizeUrl : String → String) (T : TimeText)
    (includeMetadata includeTags : Bool) (event : Event) (wanted : String) :
    recordSecret wanted ((JsonValue.sortEntries (safeEventRecord tables str sanitizeUrl T includeMetadata includeTags
      event)).insertionSort fun a b => a.1 ≤ b.1) = none := by
  have hnodup : ((safeEventRecord tables str sanitizeUrl T includeMetadata includeTags event).map
      Prod.fst).Nodup := by
    unfold safeEventRecord
    split <;> split <;> split <;> (simp only [List.map_append, List.map_cons, List.map_nil]; decide)
  have htype : ("record_type", JsonValue.string "event") ∈
      safeEventRecord tables str sanitizeUrl T includeMetadata includeTags event := by simp [safeEventRecord]
  unfold recordSecret
  simp only
  rw [JsonValue.get?_sortKeys hnodup htype]
  exact if_neg fun h => absurd (Option.some.inj h.1) (by decide)

/-! ### CSV -/

/-- What does not start as a formula is left as it is. -/
theorem csvSafeCell_plain {s : String} {c : Char} {cs : List Char} (hs : s.toList = c :: cs)
    (hspace : isSpace c = false) (hc : c ∉ ['=', '+', '-', '@']) : csvSafeCell (.string s) = .string s := by
  have hformula : ((s.toList.dropWhile isSpace).head?.any (· ∈ ['=', '+', '-', '@'])) = false := by
    rw [hs, List.dropWhile_cons_of_neg (by rw [hspace]; decide)]
    exact decide_eq_false hc
  unfold csvSafeCell
  simp only [hformula, Bool.false_eq_true, if_false]

theorem hexDigits_no_formula : ∀ c ∈ hexDigits, c ∉ ['=', '+', '-', '@'] := by decide

/-- The cells of a record of a secret that are read back. -/
theorem sensitiveCsvRow_cells (F : FloatText) (str : JsonValue → String) {tables : Tables} {value fingerprint secret : String}
    {record : List (String × JsonValue)} (hfingerprint : normalizeFingerprint tables value = some fingerprint)
    (h : IsRecordOf fingerprint secret record) :
    ((sensitiveCsvRow F str record).map fun cell => cellText str (csvSafeCell cell))[2]? = some fingerprint.toList ∧
      ((sensitiveCsvRow F str record).map fun cell => cellText str (csvSafeCell cell))[14]? =
        some (dumps F (.string secret)) := by
  have hcell2 : (sensitiveCsvRow F str record)[2]? = some (.string fingerprint) := by
    show some ((recordField record "evidence_fingerprint").getD (.string "")) = _
    rw [recordField_of_mem h.nodup h.fingerprint]
    rfl
  have hcell14 : (sensitiveCsvRow F str record)[14]? = some (.string (String.ofList (dumps F (.string secret)))) := by
    show some (JsonValue.string (String.ofList (dumps F (.string (rawSecretOf str record))))) = _
    rw [h.rawSecretOf_eq]
  rw [List.getElem?_map, List.getElem?_map, hcell2, hcell14, Option.map_some, Option.map_some]
  constructor
  · obtain ⟨hmin, _, hhex⟩ := normalizeFingerprint_some hfingerprint
    cases hchars : fingerprint.toList with
    | nil =>
      rw [hchars] at hmin
      cases hmin
    | cons c cs =>
      have hc := hhex c (hchars ▸ List.mem_cons_self)
      rw [csvSafeCell_plain hchars (hexDigits_plain c hc).2.2.1 (hexDigits_no_formula c hc), cellText, hchars]
  · have hquote : (String.ofList (dumps F (.string secret))).toList = '"' :: (escaped secret ++ ['"']) := by
      rw [String.toList_ofList]
      rfl
    rw [csvSafeCell_plain hquote (by decide) (by decide), cellText, String.toList_ofList]

/-- A record whose fingerprint is one. -/
def HasFingerprint (tables : Tables) (record : List (String × JsonValue)) : Prop :=
  ∃ value fingerprint secret, normalizeFingerprint tables value = some fingerprint ∧
    IsRecordOf fingerprint secret record

theorem csvSecrets_rows {tables : Tables} (wanted : String) (records : List (List (String × JsonValue)))
    (hrecords : ∀ record ∈ records, HasFingerprint tables record) :
    csvSecrets F wanted (writeRows (sensitiveFields.map String.toList ::
      records.map fun record => (sensitiveCsvRow F str record).map fun cell => cellText str (csvSafeCell cell))) =
      records.filterMap (finding str wanted) := by
  have hrows : ∀ row ∈ sensitiveFields.map String.toList :: records.map (fun record =>
      (sensitiveCsvRow F str record).map fun cell => cellText str (csvSafeCell cell)), row ≠ [] := by
    intro row hrow
    rcases List.mem_cons.mp hrow with rfl | hrow
    · exact List.cons_ne_nil _ _
    · obtain ⟨record, _, rfl⟩ := List.mem_map.mp hrow
      exact List.cons_ne_nil _ _
  have hfingerprintAt : sensitiveFields.idxOf "evidence_fingerprint" = 2 := by decide
  have hsecretAt : sensitiveFields.idxOf "raw_secret_json" = 14 := by decide
  unfold csvSecrets
  rw [readCsv_writeRows hrows, List.tail_cons, List.filterMap_map]
  refine List.filterMap_congr fun record hrecord => ?_
  obtain ⟨value, fingerprint, secret, hfingerprint, h⟩ := hrecords record hrecord
  obtain ⟨hcell, hsecret⟩ := sensitiveCsvRow_cells F str hfingerprint h
  rw [Function.comp_apply, hfingerprintAt, hsecretAt, hcell, hsecret, Option.bind_some, decodedString_dumps]
  unfold finding
  rw [h.fingerprintOf_eq, h.rawSecretOf_eq]
  simp only [Option.some.injEq, String.toList_inj]

/-! ### Text -/

theorem writtenLine_self {line : List Char} (h : ∀ c ∈ line, c ≠ '\r' ∧ c ≠ '\n') : writtenLine line = line := by
  have hmap : (line.map fun c => if c = '\r' then ' ' else c) = line :=
    (List.map_congr_left fun c hc => if_neg (h c hc).1).trans (List.map_id line)
  unfold writtenLine
  rw [hmap, List.rdropWhile_eq_self_iff]
  exact fun hne => by simpa using (h _ (List.getLast_mem hne)).2

theorem writtenLine_cons {c : Char} (hreturn : c ≠ '\r') (hnewline : c ≠ '\n') (line : List Char) :
    ∃ rest, writtenLine (c :: line) = c :: rest := by
  have hfirst : (c :: line).map (fun c => if c = '\r' then ' ' else c) =
      c :: line.map fun c => if c = '\r' then ' ' else c := by rw [List.map_cons, if_neg hreturn]
  unfold writtenLine
  rw [hfirst]
  have hstarts := List.rdropWhile_prefix (· = '\n') (c :: line.map fun c => if c = '\r' then ' ' else c)
  cases hwritten : (c :: line.map fun c => if c = '\r' then ' ' else c).rdropWhile (· = '\n') with
  | nil =>
    have hall := List.rdropWhile_eq_nil_iff.mp hwritten c List.mem_cons_self
    exact absurd (of_decide_eq_true hall) hnewline
  | cons d rest =>
    rw [hwritten, List.cons_prefix_cons] at hstarts
    exact ⟨rest, by rw [hstarts.1]⟩

/-- A line that starts in another way is passed over. -/
theorem textSecrets_other {c : Char} (hc : c ∉ ['\r', '\n', 'e']) {line : List Char} (hline : line.head? = some c)
    (wanted : String) (lines : List (List Char)) :
    textSecrets F wanted (writtenLine line :: lines) = textSecrets F wanted lines := by
  simp only [List.mem_cons, List.not_mem_nil, or_false, not_or] at hc
  obtain ⟨rest, rfl⟩ := List.head?_eq_some_iff.mp hline
  obtain ⟨written, hwritten⟩ := writtenLine_cons hc.1 hc.2.1 rest
  refine if_neg ?_
  rw [hwritten]
  exact fun h => hc.2.2 (List.cons.inj h).1

theorem dumps_string_plain (s : String) : ∀ c ∈ dumps F (.string s), c ≠ '\r' ∧ c ≠ '\n' := by
  have hlow (c : Char) (hc : c.toNat < 32) (hgrammar : isSyntaxChar c = false) : c ∉ dumps F (.string s) :=
    not_mem_dumpsWith F hgrammar (fun _ hs => absurd (toNat_of_mem_escaped hs) (by omega)) _
  intro c hc
  constructor
  · rintro rfl
    exact hlow '\r' (by decide) (by decide) hc
  · rintro rfl
    exact hlow '\n' (by decide) (by decide) hc

theorem hexDigits_no_newline : ∀ c ∈ hexDigits, c ≠ '\r' ∧ c ≠ '\n' := by decide

/-- The line of a secret is written as it is, and no line but the first looks as the one with the fingerprint. -/
theorem textSecrets_record {tables : Tables} {value fingerprint secret : String}
    {record : List (String × JsonValue)} (hfingerprint : normalizeFingerprint tables value = some fingerprint)
    (h : IsRecordOf fingerprint secret record) (fixed : ℚ → String) (wanted : String) (rest : List (List Char)) :
    textSecrets F wanted ((sensitiveTextLines F str fixed record).map writtenLine ++ rest) =
      (finding str wanted record).toList ++ textSecrets F wanted rest := by
  have hname : ∀ c ∈ "evidence_fingerprint: ".toList, c ≠ '\r' ∧ c ≠ '\n' := by decide
  have hlabel : ∀ c ∈ "raw_secret_json: ".toList, c ≠ '\r' ∧ c ≠ '\n' := by decide
  have hfirst : writtenLine ("evidence_fingerprint: ".toList ++ fingerprint.toList) =
      "evidence_fingerprint: ".toList ++ fingerprint.toList := by
    refine writtenLine_self fun c hc => (List.mem_append.mp hc).elim (hname c) fun hc => ?_
    exact hexDigits_no_newline c ((normalizeFingerprint_some hfingerprint).2.2 c hc)
  have hsecret : writtenLine ("raw_secret_json: ".toList ++ dumps F (.string secret)) =
      "raw_secret_json: ".toList ++ dumps F (.string secret) :=
    writtenLine_self fun c hc => (List.mem_append.mp hc).elim (hlabel c) (dumps_string_plain secret c)
  unfold sensitiveTextLines
  rw [h.fingerprintOf_eq, h.rawSecretOf_eq]
  simp only [List.map_cons, List.map_nil, List.cons_append, List.nil_append]
  rw [hfirst, hsecret]
  -- past the line with the fingerprint nothing more is found
  have hskip (l1 l2 l3 l4 l5 l6 : List Char) : textSecrets F wanted (
      writtenLine ("secret_type: ".toList ++ l1) :: writtenLine ("detector: ".toList ++ l2) ::
      writtenLine ("artifact_ref: ".toList ++ l3) :: writtenLine ("artifact_sha256: ".toList ++ l4) ::
      writtenLine ("source: ".toList ++ l5) :: writtenLine ("confidence: ".toList ++ l6) ::
      writtenLine "verification_attempted: false".toList :: writtenLine "credential_used: false".toList ::
      ("raw_secret_json: ".toList ++ dumps F (.string secret)) :: writtenLine "---".toList :: rest) =
      textSecrets F wanted rest := by
    rw [textSecrets_other (c := 's') (by decide) rfl, textSecrets_other (c := 'd') (by decide) rfl,
      textSecrets_other (c := 'a') (by decide) rfl, textSecrets_other (c := 'a') (by decide) rfl,
      textSecrets_other (c := 's') (by decide) rfl, textSecrets_other (c := 'c') (by decide) rfl,
      textSecrets_other (c := 'v') (by decide) rfl, textSecrets_other (c := 'c') (by decide) rfl, ← hsecret,
      textSecrets_other (c := 'r') (by decide) rfl, textSecrets_other (c := '-') (by decide) rfl]
  unfold finding
  rw [h.fingerprintOf_eq, h.rawSecretOf_eq, textSecrets, hskip]
  by_cases hwanted : fingerprint = wanted
  · subst hwanted
    rw [if_pos rfl, if_pos rfl]
    simp only [List.getElem?_cons_succ, List.getElem?_cons_zero, Option.bind_some, List.drop_left,
      decodedString_dumps, Option.toList_some, List.singleton_append]
  · have hline : "evidence_fingerprint: ".toList ++ fingerprint.toList ≠
        "evidence_fingerprint: ".toList ++ wanted.toList :=
      fun heq => hwanted (String.toList_inj.mp (List.append_cancel_left heq))
    rw [if_neg hline, if_neg hwanted]
    rfl

theorem textSecrets_records {tables : Tables} (fixed : ℚ → String) (wanted : String)
    (records : List (List (String × JsonValue))) (hrecords : ∀ record ∈ records, HasFingerprint tables record) :
    textSecrets F wanted ((records.flatMap (sensitiveTextLines F str fixed)).map writtenLine) =
      records.filterMap (finding str wanted) := by
  induction records with
  | nil => rfl
  | cons record records ih =>
    obtain ⟨value, fingerprint, secret, hfingerprint, h⟩ := hrecords record List.mem_cons_self
    rw [List.flatMap_cons, List.map_append, textSecrets_record hfingerprint h,
      ih fun r hr => hrecords r (List.mem_cons_of_mem _ hr), List.filterMap_cons]
    cases finding str wanted record <;> rfl

end Found

/-! ## Exactly the stored secret -/

section Exact

variable {F : FloatText} {T : TimeText} {tables : Tables} {str : JsonValue → String}
  {sanitizeUrl : String → String} {fixed : ℚ → String} {records : List SensitiveEvidenceRecord}

theorem mem_distinctRecords {files : EvidenceFiles} {record : List (String × JsonValue)} {events : List Event}
    {seen : List String} (h : record ∈ distinctRecords F tables str files seen events) :
    ∃ event ∈ events, sensitiveEvidenceRecord F tables files event = some record := by
  induction events generalizing seen with
  | nil => cases h
  | cons event events ih =>
    have hlater {seen : List String} (h : record ∈ distinctRecords F tables str files seen events) :
        ∃ e ∈ event :: events, sensitiveEvidenceRecord F tables files e = some record := by
      obtain ⟨e, he, hrecord⟩ := ih h
      exact ⟨e, List.mem_cons_of_mem _ he, hrecord⟩
    unfold distinctRecords at h
    split at h
    · split at h
      · exact hlater h
      next found hfound =>
        split at h
        · exact hlater h
        · rcases List.mem_cons.mp h with rfl | h
          · exact ⟨event, List.mem_cons_self, hfound⟩
          · exact hlater h
    · exact hlater h

/-- The first record of a fingerprint is kept, unless one was seen before. -/
theorem exists_distinctRecords {files : EvidenceFiles} {event : Event} {record : List (String × JsonValue)}
    (hsensitive : isSensitiveEvent tables str event)
    (hrecord : sensitiveEvidenceRecord F tables files event = some record) {events : List Event}
    (hevent : event ∈ events) (seen : List String) : fingerprintOf str record ∈ seen ∨
      ∃ kept ∈ distinctRecords F tables str files seen events, fingerprintOf str kept = fingerprintOf str record := by
  induction events generalizing seen with
  | nil => cases hevent
  | cons first events ih =>
    unfold distinctRecords
    rcases List.mem_cons.mp hevent with rfl | hevent
    · rw [if_pos hsensitive, hrecord]
      simp only
      split
      next hseen => exact .inl hseen
      next => exact .inr ⟨record, List.mem_cons_self, rfl⟩
    · split
      · split
        · exact ih hevent seen
        next found hfound =>
          split
          · exact ih hevent seen
          · rcases ih hevent (fingerprintOf str found :: seen) with hseen | ⟨kept, hkept, heq⟩
            · rcases List.mem_cons.mp hseen with heq | hseen
              · exact .inr ⟨found, List.mem_cons_self, heq.symm⟩
              · exact .inl hseen
            · exact .inr ⟨kept, List.mem_cons_of_mem _ hkept, heq⟩
      · exact ih hevent seen

variable (F T tables str sanitizeUrl fixed) in
/-- Each of the exports of the events, after a run of stores, gives the secret for its fingerprint. -/
def SurvivesExactly (records : List SensitiveEvidenceRecord) (events : List Event)
    (includeMetadata includeTags : Bool) (fingerprint secret : String) : Prop :=
  let files := storeAll F tables .empty records
  Decodes (jsonlSecrets F fingerprint (jsonlText F
      (buildSensitiveJsonlRecords F T tables str sanitizeUrl files includeMetadata includeTags events))) secret ∧
    Decodes (csvSecrets F fingerprint (sensitiveCsvText F tables str files events)) secret ∧
    Decodes (textSecrets F fingerprint (sensitiveText F tables str fixed files events)) secret

theorem requiredEvidenceText_eq_iff {s : String} : (∃ t, requiredEvidenceText s = some t ∧ t.text = s) ↔ strip s = s ∧ s ≠ "" := by
  unfold requiredEvidenceText optionalText
  constructor
  · rintro ⟨t, ht, rfl⟩
    exact ⟨t.stripped, t.nonblank⟩
  · rintro ⟨hstrip, hne⟩
    have hblank : ¬ strip s = "" := by rwa [hstrip]
    rw [dif_neg hblank]
    exact ⟨_, rfl, hstrip⟩

/-- The records of the events, in the JSONL text. -/
def sensitiveRecords (F : FloatText) (tables : Tables) (str : JsonValue → String) (files : EvidenceFiles)
    (events : List Event) : List (List (String × JsonValue)) :=
  events.flatMap fun event =>
    if isSensitiveEvent tables str event then (sensitiveEvidenceRecord F tables files event).toList else []

/-- Records come from events, and one of them is of the fingerprint if there is a secret to tell. -/
structure RecordsOf (F : FloatText) (tables : Tables) (str : JsonValue → String)
    (records : List SensitiveEvidenceRecord) (stored : SensitiveEvidenceRecord) (fingerprint : String)
    (found : List (List (String × JsonValue))) : Prop where
  event : ∀ record ∈ found, ∃ event, sensitiveEvidenceRecord F tables (storeAll F tables .empty records) event = some record
  told : ∀ secret, requiredEvidenceText stored.rawSecret = some secret → ∃ record ∈ found, fingerprintOf str record = fingerprint

namespace RecordsOf

variable {stored : SensitiveEvidenceRecord} {fingerprint : String} {found : List (List (String × JsonValue))}

theorem hasFingerprint (h : RecordsOf F tables str records stored fingerprint found) :
    ∀ record ∈ found, HasFingerprint tables record := by
  intro record hrecord
  obtain ⟨event, hevent⟩ := h.event record hrecord
  obtain ⟨other, stored', secret, hother, _, _, hrecord⟩ := sensitiveEvidenceRecord_some hevent
  obtain ⟨value, hvalue⟩ := sensitiveFingerprint_normalized hother
  exact ⟨value, other, secret.text, hvalue, hrecord⟩

/-- What is found is the stored secret, stripped. -/
theorem decodes_iff (h : RecordsOf F tables str records stored fingerprint found)
    (hstored : lastStored tables records fingerprint = some stored) :
    Decodes (found.filterMap (finding str fingerprint)) stored.rawSecret ↔
      strip stored.rawSecret = stored.rawSecret ∧ stored.rawSecret ≠ "" := by
  have hfinding {record : List (String × JsonValue)} (hrecord : record ∈ found)
      (hfingerprint : fingerprintOf str record = fingerprint) :
      ∃ secret, requiredEvidenceText stored.rawSecret = some secret ∧
        finding str fingerprint record = some (some secret.text) := by
    obtain ⟨event, hevent⟩ := h.event record hrecord
    obtain ⟨other, stored', secret, _, hlast, hsecret, hof⟩ := sensitiveEvidenceRecord_some hevent
    rw [hof.fingerprintOf_eq] at hfingerprint
    subst hfingerprint
    rw [hstored] at hlast
    obtain rfl := Option.some.inj hlast
    refine ⟨secret, hsecret, ?_⟩
    unfold finding
    rw [hof.fingerprintOf_eq, if_pos rfl, hof.rawSecretOf_eq]
  have hsome {record : List (String × JsonValue)} {s : Option String}
      (hs : finding str fingerprint record = some s) : fingerprintOf str record = fingerprint := by
    unfold finding at hs
    split at hs
    next heq => exact heq
    · cases hs
  rw [← requiredEvidenceText_eq_iff]
  constructor
  · rintro ⟨hne, hall⟩
    obtain ⟨s, hs⟩ := List.exists_mem_of_ne_nil _ hne
    obtain ⟨record, hrecord, hfound⟩ := List.mem_filterMap.mp hs
    obtain ⟨secret, hsecret, heq⟩ := hfinding hrecord (hsome hfound)
    have hexact := hall s hs
    rw [← Option.some.inj (heq.symm.trans hfound)] at hexact
    exact ⟨secret, hsecret, Option.some.inj hexact⟩
  · rintro ⟨secret, hsecret, hexact⟩
    constructor
    · obtain ⟨record, hrecord, hfingerprint⟩ := h.told secret hsecret
      obtain ⟨secret', _, heq⟩ := hfinding hrecord hfingerprint
      exact List.ne_nil_of_mem (List.mem_filterMap.mpr ⟨record, hrecord, heq⟩)
    · intro s hs
      obtain ⟨record, hrecord, hfound⟩ := List.mem_filterMap.mp hs
      obtain ⟨secret', hsecret', heq⟩ := hfinding hrecord (hsome hfound)
      rw [hsecret] at hsecret'
      obtain rfl := Option.some.inj hsecret'
      rw [hfound] at heq
      rw [Option.some.inj heq, hexact]

end RecordsOf

theorem jsonlSecrets_events (fingerprint : String) (events : List Event) (includeMetadata includeTags : Bool) :
    jsonlSecrets F fingerprint (jsonlText F (buildSensitiveJsonlRecords F T tables str sanitizeUrl
      (storeAll F tables .empty records) includeMetadata includeTags events)) =
      (sensitiveRecords F tables str (storeAll F tables .empty records) events).filterMap
        (finding str fingerprint) := by
  rw [jsonlSecrets_jsonlText]
  unfold buildSensitiveJsonlRecords sensitiveRecords
  rw [List.filterMap_flatMap, List.filterMap_flatMap]
  refine List.flatMap_congr fun event _ => ?_
  unfold jsonlRecordsOf
  rw [List.filterMap_cons, recordSecret_safe]
  simp only
  refine List.filterMap_congr fun record hrecord => ?_
  split at hrecord
  · obtain ⟨other, stored', secret, _, _, _, hof⟩ := sensitiveEvidenceRecord_some (Option.mem_toList.mp hrecord)
    exact recordSecret_sorted hof fingerprint
  · cases hrecord

section Told

variable {stored : SensitiveEvidenceRecord} {fingerprint : String}
    (hstored : lastStored tables records fingerprint = some stored) {event : Event} {events : List Event}
    (hevent : event ∈ events) (hsensitive : isSensitiveEvent tables str event)
    (hfingerprint : sensitiveFingerprintForEvent tables event = some fingerprint)

variable (F str) in
include hstored hfingerprint in
/-- The event has a record, of its fingerprint, if there is a secret to tell. -/
theorem exists_record_of_event {secret : Stripped} (hsecret : requiredEvidenceText stored.rawSecret = some secret) :
    ∃ record, sensitiveEvidenceRecord F tables (storeAll F tables .empty records) event = some record ∧
      fingerprintOf str record = fingerprint := by
  obtain ⟨record, hrecord⟩ := exists_sensitiveEvidenceRecord (F := F) hfingerprint hstored hsecret
  obtain ⟨other, _, _, hother, _, _, hof⟩ := sensitiveEvidenceRecord_some hrecord
  rw [hfingerprint] at hother
  obtain rfl := Option.some.inj hother
  exact ⟨record, hrecord, hof.fingerprintOf_eq str⟩

variable (F)

include hstored hevent hsensitive hfingerprint

theorem recordsOf_sensitiveRecords : RecordsOf F tables str records stored fingerprint
    (sensitiveRecords F tables str (storeAll F tables .empty records) events) where
  event := by
    intro record hrecord
    obtain ⟨e, _, hrecord⟩ := List.mem_flatMap.mp hrecord
    split at hrecord
    · exact ⟨e, Option.mem_toList.mp hrecord⟩
    · cases hrecord
  told := by
    intro secret hsecret
    obtain ⟨record, hrecord, heq⟩ := exists_record_of_event F str hstored hfingerprint hsecret
    refine ⟨record, List.mem_flatMap.mpr ⟨event, hevent, ?_⟩, heq⟩
    rw [if_pos hsensitive, hrecord]
    exact List.mem_singleton_self record

theorem recordsOf_distinctRecords : RecordsOf F tables str records stored fingerprint
    (distinctRecords F tables str (storeAll F tables .empty records) [] events) where
  event := by
    intro record hrecord
    obtain ⟨e, _, hrecord⟩ := mem_distinctRecords hrecord
    exact ⟨e, hrecord⟩
  told := by
    intro secret hsecret
    obtain ⟨record, hrecord, heq⟩ := exists_record_of_event F str hstored hfingerprint hsecret
    rcases exists_distinctRecords hsensitive hrecord hevent [] with hseen | ⟨kept, hkept, hsame⟩
    · cases hseen
    · exact ⟨kept, hkept, hsame.trans heq⟩

end Told

/-- A secret that was stored survives every export exactly when it is stripped and not blank. -/
theorem sensitive_evidence_exact_iff {stored : SensitiveEvidenceRecord} {fingerprint : String}
    (hstored : lastStored tables records fingerprint = some stored) {event : Event} {events : List Event}
    (hevent : event ∈ events) (hsensitive : isSensitiveEvent tables str event)
    (hfingerprint : sensitiveFingerprintForEvent tables event = some fingerprint) (includeMetadata includeTags : Bool) :
    SurvivesExactly F T tables str sanitizeUrl fixed records events includeMetadata includeTags fingerprint
        stored.rawSecret ↔
      strip stored.rawSecret = stored.rawSecret ∧ stored.rawSecret ≠ "" := by
  have hlines := recordsOf_sensitiveRecords F hstored hevent hsensitive hfingerprint
  have hrows := recordsOf_distinctRecords F hstored hevent hsensitive hfingerprint
  unfold SurvivesExactly sensitiveCsvText sensitiveText
  simp only
  rw [jsonlSecrets_events fingerprint events includeMetadata includeTags, csvSecrets_rows fingerprint _ hrows.hasFingerprint,
    textSecrets_records fixed fingerprint _ hrows.hasFingerprint, hlines.decodes_iff hstored,
    hrows.decodes_iff hstored, and_self_iff, and_self_iff]

end Exact

/-! ## A secret and its export -/

/-- Tables that leave other text as it is. -/
def evidenceTables : Tables := ⟨id, some, id, fun _ => false⟩

theorem line_twelve : ∀ n ∈ some 12, 1 ≤ n := by
  intro n hn
  cases hn
  decide

theorem no_column : ∀ n ∈ (none : Option ℕ), 1 ≤ n := by
  intro n hn
  cases hn

/-- A secret that was found in a file of an application. -/
def storedSecret (rawSecret : String) : SensitiveEvidenceRecord where
  evidenceFingerprint := "0123456789abcdef"
  rawSecret := rawSecret
  secretType := "gitleaks-secret"
  detector := "gitleaks"
  sourceFile := "res/values/strings.xml"
  line := some 12
  artifactRef := "apk:fixture"
  artifactSha256 := "abcdef"
  line_pos := line_twelve
  column_pos := no_column

/-- The event that is published for it. -/
def secretEvent : Event where
  eventId := "event-1"
  type := .artifact
  value := "possible-secret:0123456789abcdef"
  source := { text := "mobile:secret:gitleaks" }
  firstSeen := 0
  lastSeen := 0
  tags := {"possible-secret"}
  metadata := Dict.empty.set "evidence_fingerprint" (.string "0123456789abcdef")
  confidence_unit := zero_unit
  novelty_unit := zero_unit

theorem normalizeFingerprint_fixture :
    normalizeFingerprint evidenceTables "0123456789abcdef" = some "0123456789abcdef" := by decide

theorem storedSecret_last (rawSecret : String) :
    lastStored evidenceTables [storedSecret rawSecret] "0123456789abcdef" = some (storedSecret rawSecret) :=
  List.find?_cons_of_pos (decide_eq_true normalizeFingerprint_fixture)

theorem secretEvent_sensitive (str : JsonValue → String) : isSensitiveEvent evidenceTables str secretEvent :=
  .inl ⟨"possible-secret", Finset.mem_singleton_self _, by decide⟩

theorem secretEvent_fingerprint :
    sensitiveFingerprintForEvent evidenceTables secretEvent = some "0123456789abcdef" := by decide

theorem sensitive_evidence_exact_token : SurvivesExactly FloatText.quotients TimeText.atEpoch evidenceTables
    (fun _ => "") id (fun _ => "0.860") [storedSecret "ghp_fixture"] [secretEvent] true true "0123456789abcdef"
      "ghp_fixture" :=
  (sensitive_evidence_exact_iff (storedSecret_last "ghp_fixture") List.mem_cons_self (secretEvent_sensitive _)
    secretEvent_fingerprint true true).mpr ⟨by decide, by decide⟩

/-- A secret that ends with a space loses it. -/
theorem padded_secret_is_not_exact : ¬ SurvivesExactly FloatText.quotients TimeText.atEpoch evidenceTables
    (fun _ => "") id (fun _ => "0.860") [storedSecret "correct horse "] [secretEvent] true true "0123456789abcdef"
      "correct horse " := by
  rintro ⟨hjsonl, _⟩
  have hstored := storedSecret_last "correct horse "
  have hrecords := recordsOf_sensitiveRecords FloatText.quotients hstored (List.mem_singleton_self secretEvent)
    (secretEvent_sensitive fun _ => "") secretEvent_fingerprint
  rw [jsonlSecrets_events] at hjsonl
  have hexact := ((hrecords.decodes_iff hstored).mp hjsonl).1
  exact absurd hexact (by decide)

end NightScout
