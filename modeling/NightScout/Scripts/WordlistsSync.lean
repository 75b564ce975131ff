import NightScout.Lib.StableSort
import NightScout.Scripts.WordlistTransforms

/-!
# Wordlist synchronisation

`sync_source` of `scripts/wordlists_sync.py` and the two readers of its lock, `verify_lock` and
`build_local_manifest`. A sync downloads a source, makes a list of tokens of it, and decides by the lock entry of the
source whether the list is written; the readers compare the files that are there with the hashes of the lock.

The names of the wordlists directory lead to files as `resolve` says; a name that leads out of the directory gives the
message of `Path.relative_to`. The clock, `hashlib.sha256` and `int` of a text are parameters.
-/

namespace NightScout

open Lib

/-! ## The lock -/

structure LockEntry where
  sourceId : String
  url : String
  localPath : String
  categories : List String
  transform : String
  weight : ℚ
  maxEntries : ℤ
  rawSha256 : String
  normalizedSha256 : String
  rawBytes : ℕ
  normalizedBytes : ℕ
  normalizedEntries : ℕ
  syncedAt : String
  license : Option String
  upstream : Option String
  deriving DecidableEq

structure SyncResult where
  entry : LockEntry
  changed : Bool
  deriving DecidableEq

/-- The wordlists directory. -/
structure WordlistTree where
  resolve : String → Except String String
  files : Dict String (List UInt8)

def WordlistTree.write (tree : WordlistTree) (path : String) (data : List UInt8) : WordlistTree :=
  { tree with files := tree.files.set path data }

/-! ## Downloads -/

/-- What comes of opening the URL of a source and reading it. -/
inductive Reply where
  /-- `HTTPError` or `URLError`. -/
  | failed (reason : String)
  | raised (e : PyError)
  | answered (contentLength : Option String) (body : List UInt8)

/-- `DownloadResult`, with what the temporary file holds. -/
structure DownloadResult where
  rawSha256 : String
  rawBytes : ℕ
  content : List UInt8

/-- `bytes.isspace` of one byte. -/
def isByteSpace (b : UInt8) : Bool := b = 32 || (9 ≤ b && b ≤ 13)

/-- `bytes.lower` of one byte. -/
def lowerByte (b : UInt8) : UInt8 := if 65 ≤ b ∧ b ≤ 90 then b + 32 else b

def isMarkup (content : List UInt8) : Bool :=
  let start := ((content.take 2048).dropWhile isByteSpace).map lowerByte
  ["<!doctype html", "<html", "<?xml"].any fun mark => (utf8Encode mark.toList).isPrefixOf start

section Sync

variable (tables : Tables) (intOf : String → Option ℤ) (sha256 : List UInt8 → String)

/-- The length that the headers declare. -/
def declaredLength (contentLength : Option String) : Option ℤ :=
  match contentLength with
  | none => none
  | some text => if text = "" then none else intOf text

def downloadSource (source : CatalogSource) : Reply → Except PyError DownloadResult
  | .failed reason => throw (.runtimeError s!"download failed for {source.sourceId}: {reason}")
  | .raised e => throw e
  | .answered contentLength body =>
    match (declaredLength intOf contentLength).filter fun declared => (source.maxBytes : ℤ) < declared with
    | some declared =>
      throw (.runtimeError
        s!"source {source.sourceId} exceeds max_bytes before download: {declared} > {source.maxBytes}")
    | none => do
      if source.maxBytes < body.length then
        throw (.runtimeError s!"source {source.sourceId} exceeded max_bytes while downloading")
      let rawSha256 := sha256 body
      if isMarkup body then
        throw (.runtimeError s!"source {source.sourceId} returned markup instead of a wordlist")
      let expected := source.expectedSha256.getD ""
      if expected ≠ "" ∧ rawSha256 ≠ expected then
        throw (.runtimeError s!"SHA-256 mismatch for {source.sourceId}: expected {expected}, got {rawSha256}")
      return ⟨rawSha256, body.length, body⟩

/-! ## The list -/

def dedupeKey (source : CatalogSource) (token : String) : String :=
  if .parameter ∈ source.categories then token else strLower tables token

/-- The loop of `normalize_download`, behind what is in `output`. -/
def normalizeLines (source : CatalogSource) (output : List String) : List String → Except PyError (List String)
  | [] => .ok output
  | line :: rest => do
    let tokens ← transformLine tables line source.transform
    let output := takeSeen (dedupeKey tables source) source.maxEntries output tokens
    if source.maxEntries ≤ output.length then return output else normalizeLines source output rest

/-- The file that lists some tokens. -/
def wordlistFile (tokens : List String) : List UInt8 := utf8Encode ("\n".intercalate tokens ++ "\n").toList

def normalizeDownload (source : CatalogSource) (downloaded : DownloadResult) : Except PyError (List UInt8 × ℕ) := do
  let output ← normalizeLines tables source [] (iterTextLines downloaded.content)
  if output = [] then
    throw (.runtimeError
      s!"source {source.sourceId} produced zero usable entries after {source.transform.value}")
  return (wordlistFile output, output.length)

/-- `path.relative_to(wordlists_root)`, which gives the path. -/
def WordlistTree.locate (tree : WordlistTree) (localPath : String) : Except PyError String :=
  match tree.resolve localPath with
  | .ok path => .ok path
  | .error message => .error (.valueError message)

/-- An entry with the hashes of a download. -/
def LockEntry.matching (entry : LockEntry) (rawSha256 normalizedSha256 : String) : Bool :=
  entry.rawSha256 = rawSha256 && entry.normalizedSha256 = normalizedSha256

/-- The entry that `sync_source` makes. -/
def newEntry (source : CatalogSource) (existing : Option LockEntry) (download : DownloadResult) (payload : List UInt8)
    (entryCount : ℕ) (now : String) : LockEntry where
  sourceId := source.sourceId
  url := source.url
  localPath := source.localPath
  categories := source.categories.map CorpusCategory.value
  transform := source.transform.value
  weight := source.weight
  maxEntries := source.maxEntries
  rawSha256 := download.rawSha256
  normalizedSha256 := sha256 payload
  rawBytes := download.rawBytes
  normalizedBytes := payload.length
  normalizedEntries := entryCount
  syncedAt :=
    match existing.filter fun entry => entry.matching download.rawSha256 (sha256 payload) with
    | some entry => entry.syncedAt
    | none => now
  license := source.license
  upstream := source.upstream

def syncSource (tree : WordlistTree) (source : CatalogSource) (existing : Option LockEntry) (reply : Reply)
    (now : String) : Except PyError (SyncResult × WordlistTree) := do
  let destination ← tree.locate source.localPath
  let download ← downloadSource intOf sha256 source reply
  let (payload, entryCount) ← normalizeDownload tables source download
  let changed := !(existing.any fun entry => entry.matching download.rawSha256 (sha256 payload)) ||
    (tree.files.get? destination).isNone
  return (⟨newEntry sha256 source existing download payload entryCount now, changed⟩,
    if changed then tree.write destination payload else tree)

end Sync

/-! ## The readers of the lock -/

section Readers

variable (tables : Tables) (sha256 : List UInt8 → String)

/-- What `verify_lock` says of an entry. -/
def failureOf (tree : WordlistTree) (entry : LockEntry) : Option String :=
  match tree.resolve entry.localPath with
  | .error _ => some s!"{entry.sourceId}: path escapes wordlists root"
  | .ok path =>
    match tree.files.get? path with
    | none => some s!"{entry.sourceId}: missing {path}"
    | some file =>
      let digest := sha256 file
      if digest ≠ entry.normalizedSha256 then
        some s!"{entry.sourceId}: SHA-256 mismatch, expected {entry.normalizedSha256}, got {digest}"
      else none

def verifyLock (tree : WordlistTree) (entries : List LockEntry) : ℕ × List String :=
  (entries.countP fun entry => failureOf sha256 tree entry = none, entries.filterMap (failureOf sha256 tree))

/-- The metadata of an external wordlist. -/
structure ExternalMetadata where
  upstreamUrl : String
  upstream : Option String
  license : Option String
  transform : String
  rawSha256 : String
  normalizedSha256 : String
  syncedAt : String

/-- `WordlistSourceSpec` of an external wordlist. -/
structure WordlistSourceSpec where
  sourceId : String
  path : String
  categories : List CorpusCategory
  weight : ℚ
  enabled : Bool
  maxEntries : ℤ
  metadata : ExternalMetadata

/-- The categories, or nothing when one of them is none. -/
def categoriesOf (values : List String) : Option (List CorpusCategory) := values.mapM CorpusCategory.ofValue

def WordlistSourceSpec.modelValidate (entry : LockEntry) : Except PyError WordlistSourceSpec := do
  let sourceId := strLower tables (strip entry.sourceId)
  let path := strip entry.localPath
  if sourceId = "" ∨ path = "" then throw (.valueError "must not be blank")
  if !isSourceId sourceId.toList then throw (.valueError "source id contains unsupported characters")
  match categoriesOf entry.categories with
  | none => throw (.valueError "unsupported category")
  | some categories => do
    if categories = [] then throw (.valueError "wordlist source needs at least one category")
    if entry.weight < 0 ∨ 100 < entry.weight then throw (.valueError "weight is out of range")
    if entry.maxEntries < 1 then throw (.valueError "max_entries must be at least 1")
    if containsText "://" (strLower tables path) then
      throw (.valueError "wordlist source path must be local; runtime downloads are not supported")
    return ⟨sourceId, path, categories, entry.weight, true, entry.maxEntries,
      ⟨entry.url, entry.upstream, entry.license, entry.transform, entry.rawSha256, entry.normalizedSha256,
        entry.syncedAt⟩⟩

/-- Whether `build_local_manifest` lists an entry. One whose file is missing is left out. -/
def listsEntry (tree : WordlistTree) (entry : LockEntry) : Except PyError Bool := do
  let path ← tree.locate entry.localPath
  match tree.files.get? path with
  | none => return false
  | some file =>
    if sha256 file ≠ entry.normalizedSha256 then
      throw (.runtimeError s!"local wordlist hash does not match lock: {entry.sourceId}; run verify/sync")
    return true

/-- The entries that the loop of `build_local_manifest` lists. -/
def listedEntries (tree : WordlistTree) : List LockEntry → Except PyError (List LockEntry)
  | [] => .ok []
  | entry :: rest => do
    let listed ← listsEntry sha256 tree entry
    let entries ← listedEntries tree rest
    return if listed then entry :: entries else entries

/-- `build_local_manifest`, which adds the external wordlists to those of the base manifest, given by their ids. -/
def buildLocalManifest (tree : WordlistTree) (base : List String) (lock : List LockEntry) :
    Except PyError (List WordlistSourceSpec) := do
  let entries ← listedEntries sha256 tree (sortBy LockEntry.sourceId lock)
  let sources ← entries.mapM (WordlistSourceSpec.modelValidate tables)
  let ids := base ++ sources.map WordlistSourceSpec.sourceId
  if ids = [] then throw (.valueError "manifest must contain at least one source")
  if ¬ ids.Nodup then throw (.valueError "manifest source ids must be unique")
  return sources

end Readers

end NightScout
