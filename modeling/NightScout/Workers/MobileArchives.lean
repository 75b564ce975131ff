import NightScout.Core.Python
import NightScout.Lib.FileTrees
import NightScout.Lib.Splits

/-!
# Mobile archives

`safe_extract_mobile_archive` of `recon/workers/mobile.py`, with what it asks of a member. An archive is the list of its
members, which `zipfile` reads: a stream yields at most as many bytes as the member declares, or raises.

The output directory is fresh. The `!r` of a name and what the platform accepts as a path are parameters.
-/

namespace NightScout

open Lib

/-- What reading a member raises. -/
inductive ZipError where
  | badZipFile | runtimeError | notImplementedError
  deriving DecidableEq, Repr

inductive MobileError where
  | mobileArtifactError (message : String)
  | zipError (error : ZipError)
  | osError (error : FsError)
  deriving DecidableEq, Repr

/-- What is left of a member: the bytes, and whether it raises after them. -/
structure ZipStream where
  content : List UInt8
  failure : Option ZipError := none
  deriving DecidableEq

/-- `read(size)`. -/
def ZipStream.read (stream : ZipStream) (size : ℕ) : Except ZipError (List UInt8 × ZipStream) :=
  match stream.content, stream.failure with
  | [], some error => .error error
  | content, failure => .ok (content.take size, { content := content.drop size, failure })

/-- A member: what the archive says of it, and what `archive.open` gives. -/
structure ZipInfo where
  filename : String
  fileSize : ℤ
  externalAttr : ℕ := 0
  source : Except ZipError ZipStream
  declared : ∀ stream, source = .ok stream → (stream.content.length : ℤ) ≤ fileSize

def ZipInfo.isDir (info : ZipInfo) : Bool := info.filename.toList.getLast? = some '/'

structure MobileArchiveConfig where
  maxArchiveEntries : ℕ := 100000
  maxArchiveMemberBytes : ℕ := 64 * 1024 * 1024
  maxArchiveTotalUncompressedBytes : ℕ := 1024 * 1024 * 1024

/-- The parts of a relative `PurePosixPath`. -/
def posixParts (path : List Char) : List (List Char) :=
  (path.splitOn '/').filter fun part => part ≠ [] ∧ part ≠ ['.']

/-- `safe_zip_member_path`, by its parts. -/
def safeZipMemberPath (value : String) : Option (List String) :=
  let normalized := value.toList.map fun c => if c = '\\' then '/' else c
  if normalized.head? = some '/' then none
  else
    let parts := posixParts normalized
    if parts = [] then some []
    else if parts.any fun part => part = ['.', '.'] then none
    else if ':' ∈ parts.headD [] then none
    else some (parts.map String.ofList)

def zipInfoIsSymlink (info : ZipInfo) : Bool := info.externalAttr >>> 16 &&& 0o170000 = 0o120000

/-- The variables of the loop over the members, and what is in the output directory. -/
structure Extraction where
  declaredTotal : ℤ := 0
  tree : FileTree := .empty

section Extract

variable (accepts : List String → Bool) (quoted : String → String) (config : MobileArchiveConfig)

/-- The tests of a member: the total with it, and where it goes. -/
def checkMember (declaredTotal : ℤ) (info : ZipInfo) : Except MobileError (ℤ × List String) :=
  if info.fileSize < 0 then .error (.mobileArtifactError "negative ZIP member size")
  else if info.fileSize > config.maxArchiveMemberBytes then
    .error (.mobileArtifactError s!"mobile archive member exceeds size limit: {info.filename}")
  else if declaredTotal + info.fileSize > config.maxArchiveTotalUncompressedBytes then
    .error (.mobileArtifactError "mobile archive exceeds total uncompressed size limit")
  else
    match safeZipMemberPath info.filename with
    | none => .error (.mobileArtifactError s!"unsafe mobile archive path: {quoted info.filename}")
    | some relative =>
      if zipInfoIsSymlink info = true then
        .error (.mobileArtifactError s!"mobile archive symlink is not allowed: {quoted info.filename}")
      else .ok (declaredTotal + info.fileSize, relative)

/-- The loop that reads a member into its file. A chunk is never empty before the end. -/
def readMember (info : ZipInfo) (path : List String) :
    ℕ → ℕ → ZipStream → FileTree → Except MobileError Unit × FileTree
  | 0, _, _, tree => (.ok (), tree)
  | reads + 1, written, stream, tree =>
    match stream.read (min (1024 * 1024) (config.maxArchiveMemberBytes - written + 1)) with
    | .error error => (.error (.zipError error), tree)
    | .ok (chunk, stream) =>
      if chunk = [] then (.ok (), tree)
      else if written + chunk.length > config.maxArchiveMemberBytes then
        (.error (.mobileArtifactError s!"extracted member exceeded size limit: {quoted info.filename}"), tree)
      else readMember info path reads (written + chunk.length) stream (tree.append path chunk)

/-- What is done with a member that passed, at the path it resolves to. -/
def writeMember (info : ZipInfo) (resolved : List String) (tree : FileTree) : Except MobileError Unit × FileTree :=
  if info.isDir = true then
    match tree.makeDirs accepts resolved with
    | (.error error, tree) => (.error (.osError error), tree)
    | (.ok (), tree) => (.ok (), tree)
  else
    match tree.makeDirs accepts resolved.dropLast with
    | (.error error, tree) => (.error (.osError error), tree)
    | (.ok (), tree) =>
      match info.source with
      | .error error => (.error (.zipError error), tree)
      | .ok stream =>
        match tree.createFile accepts resolved with
        | .error error => (.error (.osError error), tree)
        | .ok tree => readMember quoted config info resolved (stream.content.length + 1) 0 stream tree

/-- How many links `resolve` follows at most. -/
def maxLinks : ℕ := 40

/-- One turn of the loop. -/
def extractMember (info : ZipInfo) (extraction : Extraction) : Except MobileError Unit × Extraction :=
  match checkMember quoted config extraction.declaredTotal info with
  | .error error => (.error error, extraction)
  | .ok (declaredTotal, relative) =>
    match extraction.tree.resolve maxLinks relative with
    | none =>
      (.error (.mobileArtifactError s!"mobile archive member escapes extraction root: {quoted info.filename}"),
        { extraction with declaredTotal })
    | some resolved =>
      let (outcome, tree) := writeMember accepts quoted config info resolved extraction.tree
      (outcome, { declaredTotal, tree })

def extractMembers : List ZipInfo → Extraction → Except MobileError Unit × Extraction
  | [], extraction => (.ok (), extraction)
  | info :: infos, extraction =>
    match extractMember accepts quoted config info extraction with
    | (.error error, extraction) => (.error error, extraction)
    | (.ok (), extraction) => extractMembers infos extraction

/-- `safe_extract_mobile_archive`, into an empty directory. The archive is its members, or why it is none. -/
def safeExtractMobileArchive (archive : Except String (List ZipInfo)) : Except MobileError Unit × Extraction :=
  match archive with
  | .error exc => (.error (.mobileArtifactError s!"mobile artifact is not a valid ZIP container: {exc}"), {})
  | .ok infos =>
    if infos.length > config.maxArchiveEntries then
      (.error (.mobileArtifactError
        s!"mobile archive exceeds entry limit: {infos.length} > {config.maxArchiveEntries}"), {})
    else extractMembers accepts quoted config infos {}

end Extract

end NightScout
