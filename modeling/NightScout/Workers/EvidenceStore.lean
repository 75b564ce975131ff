import NightScout.Exporters.Jsonl

/-!
# The protected evidence store

`WorkspaceSensitiveEvidenceStore` of `recon/workers/mobile.py`, and what `WorkspaceSensitiveEvidenceProvider` reads of
it: the text of the secret comes back stripped, and not at all when it is blank (`evidenceFor_storeAll`).
-/

namespace NightScout

open Lib

structure SensitiveEvidenceRecord where
  evidenceFingerprint : String
  rawSecret : String
  secretType : String
  detector : String
  sourceFile : String
  line : Option ℕ := none
  column : Option ℕ := none
  artifactRef : String
  artifactSha256 : String
  line_pos : ∀ n ∈ line, 1 ≤ n
  column_pos : ∀ n ∈ column, 1 ≤ n

def JsonValue.optionalInt : Option ℕ → JsonValue
  | none => .null
  | some n => .int n

/-- The payload of a record, under its fingerprint. -/
def SensitiveEvidenceRecord.payload (record : SensitiveEvidenceRecord) (fingerprint : String) :
    List (String × JsonValue) :=
  [("evidence_fingerprint", .string fingerprint), ("raw_secret", .string record.rawSecret),
    ("secret_type", .string record.secretType), ("detector", .string record.detector),
    ("source_file", .string record.sourceFile), ("line", .optionalInt record.line),
    ("column", .optionalInt record.column), ("artifact_ref", .string record.artifactRef),
    ("artifact_sha256", .string record.artifactSha256)]

section Store

variable (F : FloatText) (tables : Tables)

/-- `_store_sync`. A fingerprint that is none is an error, and nothing is written. -/
def storeEvidence (files : EvidenceFiles) (record : SensitiveEvidenceRecord) : Except PyError EvidenceFiles :=
  match normalizeFingerprint tables record.evidenceFingerprint with
  | none => .error (.valueError "invalid sensitive evidence fingerprint")
  | some fingerprint =>
    .ok (files.set fingerprint (dumps F (JsonValue.object (record.payload fingerprint)).sortKeys))

/-- The directory after a run of calls. A call that fails leaves it as it was. -/
def storeAll (files : EvidenceFiles) (records : List SensitiveEvidenceRecord) : EvidenceFiles :=
  records.foldl (fun files record => (storeEvidence F tables files record).toOption.getD files) files

end Store

/-! ## Fingerprints -/

section Fingerprint

variable {tables : Tables}

theorem hexDigits_plain : ∀ c ∈ hexDigits,
    c.toNat < 128 ∧ c.toLower = c ∧ isSpace c = false ∧ c ≠ ':' := by decide

theorem strip_of_no_space {s : String} (h : ∀ c ∈ s.toList, isSpace c = false) : strip s = s := by
  have hleft : s.toList.dropWhile isSpace = s.toList := by
    cases hs : s.toList with
    | nil => rfl
    | cons c cs => exact List.dropWhile_cons_of_neg (by rw [h c (hs ▸ List.mem_cons_self)]; decide)
  have hright : s.toList.reverse.dropWhile isSpace = s.toList.reverse := by
    cases hs : s.toList.reverse with
    | nil => rfl
    | cons c cs =>
      have hc : c ∈ s.toList := List.mem_reverse.mp (hs ▸ List.mem_cons_self)
      exact List.dropWhile_cons_of_neg (by rw [h c hc]; decide)
  unfold strip stripChars
  rw [hleft, hright, List.reverse_reverse, String.ofList_toList]

theorem normalizeFingerprint_some {value fingerprint : String}
    (h : normalizeFingerprint tables value = some fingerprint) :
    16 ≤ fingerprint.toList.length ∧ fingerprint.toList.length ≤ 128 ∧ ∀ c ∈ fingerprint.toList, c ∈ hexDigits := by
  unfold normalizeFingerprint at h
  simp only at h
  split at h
  next hok =>
    obtain rfl := Option.some.inj h
    rw [String.toList_ofList]
    exact ⟨hok.1, hok.2.1, fun c hc => of_decide_eq_true (List.all_eq_true.mp hok.2.2 c hc)⟩
  · cases h

/-- A fingerprint is normalized already. -/
theorem normalizeFingerprint_self {value fingerprint : String}
    (h : normalizeFingerprint tables value = some fingerprint) :
    normalizeFingerprint tables fingerprint = some fingerprint := by
  obtain ⟨hmin, hmax, hhex⟩ := normalizeFingerprint_some h
  have hplain := fun c hc => hexDigits_plain c (hhex c hc)
  have hstrip : strip fingerprint = fingerprint := strip_of_no_space fun c hc => (hplain c hc).2.2.1
  have hascii : isAscii fingerprint = true :=
    List.all_eq_true.mpr fun c hc => decide_eq_true (hplain c hc).1
  have hlower : fingerprint.toList.map Char.toLower = fingerprint.toList :=
    (List.map_congr_left fun c hc => (hplain c hc).2.1).trans (List.map_id _)
  have hfilter : fingerprint.toList.filter (· ≠ ':') = fingerprint.toList :=
    List.filter_eq_self.mpr fun c hc => decide_eq_true (hplain c hc).2.2.2
  have hall : fingerprint.toList.all (· ∈ hexDigits) = true :=
    List.all_eq_true.mpr fun c hc => decide_eq_true (hhex c hc)
  unfold normalizeFingerprint strLower
  simp only
  rw [hstrip, if_pos hascii, hlower, String.ofList_toList, hfilter, if_pos ⟨hmin, hmax, hall⟩,
    String.ofList_toList]

end Fingerprint

/-! ## What is read of a record -/

section Payload

variable (record : SensitiveEvidenceRecord) {fingerprint : String}

theorem sortKeys_optionalInt (n : Option ℕ) : (JsonValue.optionalInt n).sortKeys = JsonValue.optionalInt n := by
  cases n <;> rfl

theorem nodup_payload : ((record.payload fingerprint).map Prod.fst).Nodup := by
  show ["evidence_fingerprint", "raw_secret", "secret_type", "detector", "source_file", "line", "column",
    "artifact_ref", "artifact_sha256"].Nodup
  decide

theorem positiveField_optionalInt {n : Option ℕ} (h : ∀ m ∈ n, 1 ≤ m) :
    positiveField (some (JsonValue.optionalInt n)) = some n := by
  cases n with
  | none => rfl
  | some m =>
    have hm : (1 : ℤ) ≤ m := by exact_mod_cast h m rfl
    exact if_pos hm

/-- The evidence a record is read as, with its secret stripped. -/
def SensitiveEvidenceRecord.evidence (fingerprint rawSecret : Stripped) : SensitiveEvidence where
  evidenceFingerprint := fingerprint
  rawSecret := rawSecret
  secretType := some record.secretType
  detector := some record.detector
  sourceFile := some record.sourceFile
  line := record.line
  column := record.column
  artifactRef := some record.artifactRef
  artifactSha256 := some record.artifactSha256

/-- A record is read back if anything is left of its secret. -/
theorem modelValidate_payload (fingerprint : Stripped) :
    SensitiveEvidence.modelValidate (Dict.ofPairs ((JsonValue.sortEntries (record.payload fingerprint.text)).insertionSort
      fun a b => a.1 ≤ b.1)) = (requiredEvidenceText record.rawSecret).map (record.evidence fingerprint) := by
  have hget (name : String) (v : JsonValue) (h : (name, v) ∈ record.payload fingerprint.text) :=
    JsonValue.get?_sortKeys (nodup_payload record) h
  have hfingerprint := hget "evidence_fingerprint" (.string fingerprint.text) (by simp [SensitiveEvidenceRecord.payload])
  have hsecret := hget "raw_secret" (.string record.rawSecret) (by simp [SensitiveEvidenceRecord.payload])
  have htype := hget "secret_type" (.string record.secretType) (by simp [SensitiveEvidenceRecord.payload])
  have hdetector := hget "detector" (.string record.detector) (by simp [SensitiveEvidenceRecord.payload])
  have hfile := hget "source_file" (.string record.sourceFile) (by simp [SensitiveEvidenceRecord.payload])
  have hline := hget "line" (.optionalInt record.line) (by simp [SensitiveEvidenceRecord.payload])
  have hcolumn := hget "column" (.optionalInt record.column) (by simp [SensitiveEvidenceRecord.payload])
  have href := hget "artifact_ref" (.string record.artifactRef) (by simp [SensitiveEvidenceRecord.payload])
  have hsha := hget "artifact_sha256" (.string record.artifactSha256) (by simp [SensitiveEvidenceRecord.payload])
  unfold SensitiveEvidence.modelValidate
  rw [hfingerprint, hsecret, htype, hdetector, hfile, hline, hcolumn, href, hsha, sortKeys_optionalInt,
    sortKeys_optionalInt,
    positiveField_optionalInt record.line_pos, positiveField_optionalInt record.column_pos]
  simp only [JsonValue.sortKeys, textField, optionalTextField, requiredEvidenceText, optionalText_text, Option.bind_eq_bind, Option.bind_some]
  cases optionalText record.rawSecret <;> rfl

end Payload

/-! ## Runs of the store -/

section Runs

variable (F : FloatText) (tables : Tables)

/-- The record that was stored last under a fingerprint. -/
def lastStored (records : List SensitiveEvidenceRecord) (fingerprint : String) : Option SensitiveEvidenceRecord :=
  records.reverse.find? fun record => normalizeFingerprint tables record.evidenceFingerprint = some fingerprint

variable {tables}

theorem stored_eq (files : EvidenceFiles) {record : SensitiveEvidenceRecord} {fingerprint : String}
    (h : normalizeFingerprint tables record.evidenceFingerprint = some fingerprint) :
    (storeEvidence F tables files record).toOption.getD files =
      files.set fingerprint (dumps F (JsonValue.object (record.payload fingerprint)).sortKeys) := by
  unfold storeEvidence
  rw [h]
  simp only [Except.toOption, Option.getD_some]

theorem not_stored_eq (files : EvidenceFiles) {record : SensitiveEvidenceRecord}
    (h : normalizeFingerprint tables record.evidenceFingerprint = none) :
    (storeEvidence F tables files record).toOption.getD files = files := by
  unfold storeEvidence
  rw [h]
  simp only [Except.toOption, Option.getD_none]

theorem lastStored_concat (records : List SensitiveEvidenceRecord) (last : SensitiveEvidenceRecord)
    (fingerprint : String) : lastStored tables (records ++ [last]) fingerprint =
      if normalizeFingerprint tables last.evidenceFingerprint = some fingerprint then some last
      else lastStored tables records fingerprint := by
  unfold lastStored
  rw [List.reverse_concat, List.find?_cons]
  split
  next h => rw [if_pos (of_decide_eq_true h)]
  next h => rw [if_neg (of_decide_eq_false h)]

theorem storeAll_concat (files : EvidenceFiles) (records : List SensitiveEvidenceRecord)
    (last : SensitiveEvidenceRecord) : storeAll F tables files (records ++ [last]) =
      (storeEvidence F tables (storeAll F tables files records) last).toOption.getD
        (storeAll F tables files records) := by
  unfold storeAll
  rw [List.foldl_append, List.foldl_cons, List.foldl_nil]

theorem get?_storeAll (files : EvidenceFiles) (records : List SensitiveEvidenceRecord) (fingerprint : String) :
    (storeAll F tables files records).get? fingerprint =
      match lastStored tables records fingerprint with
      | some record => some (dumps F (JsonValue.object (record.payload fingerprint)).sortKeys)
      | none => files.get? fingerprint := by
  induction records using List.reverseRecOn with
  | nil => rfl
  | append_singleton records last ih =>
    rw [lastStored_concat, storeAll_concat]
    split_ifs with hlast
    · rw [stored_eq F _ hlast, Dict.get?_set_self]
    · rw [← ih]
      cases hother : normalizeFingerprint tables last.evidenceFingerprint with
      | none => rw [not_stored_eq F _ hother]
      | some other =>
        have hne : fingerprint ≠ other := fun heq => hlast (by rw [hother, heq])
        rw [stored_eq F _ hother, Dict.get?_set_ne _ _ hne]

/-- A fingerprint is no blank text. -/
theorem normalizeFingerprint_stripped {value fingerprint : String}
    (h : normalizeFingerprint tables value = some fingerprint) :
    strip fingerprint = fingerprint ∧ fingerprint ≠ "" := by
  obtain ⟨hmin, _, hhex⟩ := normalizeFingerprint_some h
  refine ⟨strip_of_no_space fun c hc => (hexDigits_plain c (hhex c hc)).2.2.1, ?_⟩
  rintro rfl
  exact absurd hmin (by decide)

theorem lastStored_fingerprint {records : List SensitiveEvidenceRecord} {fingerprint : String}
    {record : SensitiveEvidenceRecord} (h : lastStored tables records fingerprint = some record) :
    record ∈ records ∧ normalizeFingerprint tables record.evidenceFingerprint = some fingerprint := by
  have hfound := List.find?_some h
  exact ⟨List.mem_reverse.mp (List.mem_of_find?_eq_some h), of_decide_eq_true hfound⟩

/-- What the provider reads of the record that was stored last. -/
theorem evidenceFor_storeAll (files : EvidenceFiles) (fingerprint : Stripped)
    {records : List SensitiveEvidenceRecord} {record : SensitiveEvidenceRecord}
    (h : lastStored tables records fingerprint.text = some record) :
    evidenceFor F tables (storeAll F tables files records) fingerprint.text =
      (requiredEvidenceText record.rawSecret).map (record.evidence fingerprint) := by
  have hnormalized := normalizeFingerprint_self (lastStored_fingerprint h).2
  have hread : loads F true (dumps F (JsonValue.object (record.payload fingerprint.text)).sortKeys) =
      some (JsonValue.object (record.payload fingerprint.text)).sortKeys :=
    loads_dumpsWith (.inl rfl) fun s _ => readString_flatMap readString_escapeChar s.toList
  unfold evidenceFor
  simp only [Option.bind_eq_bind, hnormalized, Option.bind_some, get?_storeAll, h]
  rw [hread, Option.bind_some, JsonValue.sortKeys]
  exact modelValidate_payload record fingerprint

end Runs

end NightScout
