import NightScout.Workers.MobileArchives

/-!
# How an extraction ends

Whatever the members are, what is written lies below the output directory, is no link, is written once, and is no more
than the limits (`Contained`, `extractMember_contained`). An extraction ends normally or with `MobileArtifactError`
exactly if every member up to the first that is refused finds its path free and can be read
(`extracts_safely_iff`): two members of one path, a file where a directory is needed and a stream that raises end it
with other exceptions.
-/

namespace NightScout

open Lib

/-- Names that lead down from a directory. -/
def ProperPath (path : List String) : Prop :=
  path ≠ [] ∧ ∀ name ∈ path, name ≠ "" ∧ name ≠ "." ∧ name ≠ ".." ∧ '/' ∉ name.toList

/-- Where a member goes. -/
def partsOf (info : ZipInfo) : List String := (safeZipMemberPath info.filename).getD []

theorem ofList_ne {chars : List Char} {name : String} (h : chars ≠ name.toList) : String.ofList chars ≠ name := by
  intro heq
  rw [← heq, String.toList_ofList] at h
  exact h rfl

/-- The names of a safe path lead down. -/
theorem safeZipMemberPath_names {value : String} {path : List String} (h : safeZipMemberPath value = some path) :
    ∀ name ∈ path, name ≠ "" ∧ name ≠ "." ∧ name ≠ ".." ∧ '/' ∉ name.toList := by
  unfold safeZipMemberPath at h
  simp only at h
  generalize hnormalized : value.toList.map (fun c => if c = '\\' then '/' else c) = normalized at h
  split at h
  · cases h
  split at h
  · obtain rfl := Option.some.inj h
    intro name hname
    cases hname
  split at h
  · cases h
  next hdots =>
    split at h
    · cases h
    obtain rfl := Option.some.inj h
    intro name hname
    obtain ⟨part, hpart, rfl⟩ := List.mem_map.mp hname
    have hdots' : part ≠ ['.', '.'] := fun heq => hdots (List.any_eq_true.mpr ⟨part, hpart, decide_eq_true heq⟩)
    obtain ⟨hpiece, hkept⟩ := List.mem_filter.mp hpart
    obtain ⟨hempty, hdot⟩ := of_decide_eq_true hkept
    refine ⟨ofList_ne hempty, ofList_ne hdot, ofList_ne hdots', ?_⟩
    rw [String.toList_ofList]
    intro hslash
    have hfree := piece_free hpiece '/' hslash
    simp at hfree

section Checks

variable {quoted : String → String} {config : MobileArchiveConfig} {total total' : ℤ} {info : ZipInfo}
variable {path : List String}

/-- A member that passes. -/
structure Passed (config : MobileArchiveConfig) (total : ℤ) (info : ZipInfo) (total' : ℤ) (path : List String) :
    Prop where
  sum : total' = total + info.fileSize
  nonneg : 0 ≤ info.fileSize
  member : info.fileSize ≤ config.maxArchiveMemberBytes
  within : total' ≤ config.maxArchiveTotalUncompressedBytes
  parts : partsOf info = path
  names : ∀ name ∈ path, name ≠ "" ∧ name ≠ "." ∧ name ≠ ".." ∧ '/' ∉ name.toList

theorem checkMember_cases (quoted : String → String) (config : MobileArchiveConfig) (total : ℤ) (info : ZipInfo) :
    (∃ message, checkMember quoted config total info = .error (.mobileArtifactError message)) ∨
      ∃ total' path, checkMember quoted config total info = .ok (total', path) ∧
        Passed config total info total' path := by
  unfold checkMember
  split
  · exact .inl ⟨_, rfl⟩
  next hnonneg =>
    split
    · exact .inl ⟨_, rfl⟩
    next hmember =>
      split
      · exact .inl ⟨_, rfl⟩
      next hwithin =>
        cases hpath : safeZipMemberPath info.filename with
        | none => exact .inl ⟨_, rfl⟩
        | some path =>
          simp only
          split
          · exact .inl ⟨_, rfl⟩
          · refine .inr ⟨_, path, rfl, rfl, by omega, by omega, by omega, ?_, safeZipMemberPath_names hpath⟩
            rw [partsOf, hpath, Option.getD_some]

end Checks

section Writing

variable {accepts : List String → Bool} {quoted : String → String} {config : MobileArchiveConfig} {info : ZipInfo}
variable {path : List String} {tree : FileTree}

/-- A stream within the limit is read to its end. -/
theorem readMember_eq {stream : ZipStream} {content : List UInt8} {written reads : ℕ}
    (hfile : tree.get? path = some (.file content))
    (hlimit : written + stream.content.length ≤ config.maxArchiveMemberBytes) (hreads : stream.content.length < reads) :
    readMember quoted config info path reads written stream tree =
      (match stream.failure with
        | none => .ok ()
        | some error => .error (.zipError error), tree.set path (.file (content ++ stream.content))) := by
  induction reads generalizing written stream content tree with
  | zero => exact absurd hreads (Nat.not_lt_zero _)
  | succ reads ih =>
    obtain ⟨rest, failure⟩ := stream
    cases rest with
    | nil =>
      rw [List.append_nil, Dict.set_get? hfile]
      cases failure with
      | none =>
        have hread : ∀ size, ZipStream.read ⟨[], none⟩ size = .ok ([], ⟨[], none⟩) := by simp [ZipStream.read]
        unfold readMember
        rw [hread]
        rfl
      | some error => rfl
    | cons byte rest =>
      generalize hsize : min (1024 * 1024) (config.maxArchiveMemberBytes - written + 1) = size
      have hpos : 0 < size := by omega
      have hread : ZipStream.read ⟨byte :: rest, failure⟩ size =
          .ok ((byte :: rest).take size, ⟨(byte :: rest).drop size, failure⟩) := rfl
      have hchunk : (byte :: rest).take size ≠ [] := by
        obtain ⟨size, rfl⟩ : ∃ n, size = n + 1 := ⟨size - 1, by omega⟩
        simp
      have htake : ((byte :: rest).take size).length + ((byte :: rest).drop size).length =
          (byte :: rest).length := by
        rw [← List.length_append, List.take_append_drop]
      have htaken : 0 < ((byte :: rest).take size).length := List.length_pos_iff.mpr hchunk
      unfold readMember
      rw [hsize, hread]
      simp only at hlimit hreads ⊢
      rw [if_neg hchunk, if_neg (by omega), FileTree.append_file hfile,
        ih (Dict.get?_set_self _ _ _) (by simp only; omega) (by simp only; omega), Dict.set_set, List.append_assoc,
        List.take_append_drop]

/-- The directories that a member needs. -/
def dirsOf (info : ZipInfo) (path : List String) : List String := if info.isDir = true then path else path.dropLast

/-- The directories can be made and the file can be created. -/
def Writable (accepts : List String → Bool) (info : ZipInfo) (path : List String) (tree : FileTree) : Prop :=
  (tree.makeDirs accepts (dirsOf info path)).1 = .ok () ∧
    (info.isDir = false → (∃ stream, info.source = .ok stream) ∧ path ≠ [] ∧
      (tree.makeDirs accepts (dirsOf info path)).2.get? path = none ∧ accepts path = true)

/-- What writing a member comes to. -/
inductive Wrote (accepts : List String → Bool) (info : ZipInfo) (path : List String) (tree : FileTree) :
    Except MobileError Unit × FileTree → Prop
  | refused (error : MobileError) (hforeign : ∀ message, error ≠ .mobileArtifactError message)
      (hnot : ¬ Writable accepts info path tree) :
      Wrote accepts info path tree (.error error, (tree.makeDirs accepts (dirsOf info path)).2)
  | directory (hdir : info.isDir = true) (hwritable : Writable accepts info path tree) :
      Wrote accepts info path tree (.ok (), (tree.makeDirs accepts (dirsOf info path)).2)
  | file (stream : ZipStream) (hfile : info.isDir = false) (hwritable : Writable accepts info path tree)
      (hsource : info.source = .ok stream) :
      Wrote accepts info path tree
        (match stream.failure with
          | none => .ok ()
          | some error => .error (.zipError error),
          (tree.makeDirs accepts (dirsOf info path)).2.set path (.file stream.content))

theorem writeMember_wrote (hmember : info.fileSize ≤ config.maxArchiveMemberBytes) :
    Wrote accepts info path tree (writeMember accepts quoted config info path tree) := by
  unfold writeMember
  by_cases hdir : info.isDir = true
  · rw [if_pos hdir]
    have hdirs : dirsOf info path = path := if_pos hdir
    cases hmade : tree.makeDirs accepts path with
    | mk outcome made =>
      cases outcome with
      | error error =>
        have hnot : ¬ Writable accepts info path tree := by
          intro h
          have := h.1
          rw [hdirs, hmade] at this
          cases this
        have hwrote := Wrote.refused (.osError error) (fun message h => by cases h) hnot
        rwa [hdirs, hmade] at hwrote
      | ok =>
        have hwritable : Writable accepts info path tree := by
          refine ⟨by rw [hdirs, hmade], fun h => ?_⟩
          rw [hdir] at h
          cases h
        have hwrote := Wrote.directory hdir hwritable
        rwa [hdirs, hmade] at hwrote
  · rw [if_neg hdir]
    have hfile : info.isDir = false := Bool.eq_false_iff.mpr hdir
    have hdirs : dirsOf info path = path.dropLast := if_neg hdir
    have hparent : (tree.makeDirs accepts path.dropLast).1 = .ok () → path.dropLast ≠ [] →
        (tree.makeDirs accepts path.dropLast).2.get? path.dropLast = some .directory :=
      fun hok hne => FileTree.makeDirs_directory hok hne (List.prefix_refl _)
    cases hmade : tree.makeDirs accepts path.dropLast with
    | mk outcome made =>
      have hrefused : ∀ error : MobileError, (∀ message, error ≠ .mobileArtifactError message) →
          ¬ Writable accepts info path tree → Wrote accepts info path tree (.error error, made) := by
        intro error hforeign hnot
        have hwrote := Wrote.refused error hforeign hnot
        rwa [hdirs, hmade] at hwrote
      cases outcome with
      | error error =>
        refine hrefused (.osError error) (fun message h => by cases h) fun h => ?_
        have hok := h.1
        rw [hdirs, hmade] at hok
        cases hok
      | ok =>
        simp only
        cases hsource : info.source with
        | error error =>
          refine hrefused (.zipError error) (fun message h => by cases h) fun h => ?_
          obtain ⟨stream, hstream⟩ := (h.2 hfile).1
          rw [hsource] at hstream
          cases hstream
        | ok stream =>
          simp only
          rw [hmade] at hparent
          cases hcreate : made.createFile accepts path with
          | error error =>
            refine hrefused (.osError error) (fun message h => by cases h) fun h => ?_
            obtain ⟨-, hpath, hfree, haccepts⟩ := h.2 hfile
            rw [hdirs, hmade] at hfree
            have hok := (FileTree.createFile_ok_iff (hparent rfl)).mpr ⟨hpath, hfree, haccepts, rfl⟩
            rw [hcreate] at hok
            cases hok
          | ok created =>
            obtain ⟨hpath, hfree, haccepts, rfl⟩ := (FileTree.createFile_ok_iff (hparent rfl)).mp hcreate
            have hwritable : Writable accepts info path tree := by
              refine ⟨by rw [hdirs, hmade], fun _ => ⟨⟨stream, hsource⟩, hpath, ?_, haccepts⟩⟩
              rw [hdirs, hmade]
              exact hfree
            have hdeclared := info.declared stream hsource
            have hread : readMember quoted config info path (stream.content.length + 1) 0 stream
                (Dict.set made path (.file [])) = _ :=
              readMember_eq (Dict.get?_set_self made path (.file [])) (by omega) (Nat.lt_succ_self _)
            simp only
            rw [hread, Dict.set_set, List.nil_append]
            have hwrote := Wrote.file stream hfile hwritable hsource
            rwa [hdirs, hmade] at hwrote

end Writing

/-! ## What is written, however it ends -/

/-- Regular files and directories below the output directory, within the limits. -/
structure Contained (config : MobileArchiveConfig) (extraction : Extraction) : Prop where
  noLinks : extraction.tree.NoLinks
  below : ∀ path entry, extraction.tree.get? path = some entry → ProperPath path
  member : ∀ path entry, extraction.tree.get? path = some entry → entry.size ≤ config.maxArchiveMemberBytes
  bytes : (extraction.tree.bytes : ℤ) ≤ extraction.declaredTotal
  total : extraction.declaredTotal ≤ config.maxArchiveTotalUncompressedBytes

/-- A file that was extracted is not written again. -/
def Kept (before after : FileTree) : Prop :=
  ∀ path content, before.get? path = some (.file content) → after.get? path = some (.file content)

section Containment

variable {accepts : List String → Bool} {quoted : String → String} {config : MobileArchiveConfig} {info : ZipInfo}
variable {path : List String} {extraction : Extraction}

theorem Contained.start : Contained config {} where
  noLinks := .empty
  below path entry h := by cases h
  member path entry h := by cases h
  bytes := Int.le_refl 0
  total := Int.natCast_nonneg _

theorem properPath_prefix {q : List String}
    (h : ∀ name ∈ path, name ≠ "" ∧ name ≠ "." ∧ name ≠ ".." ∧ '/' ∉ name.toList) (hne : q ≠ []) (hq : q <+: path) :
    ProperPath q := ⟨hne, fun name hname => h name (hq.subset hname)⟩

theorem dirsOf_start (info : ZipInfo) (path : List String) : dirsOf info path <+: path := by
  unfold dirsOf
  split
  · exact List.prefix_refl _
  · exact List.dropLast_prefix _

/-- Making the directories of a member. -/
theorem Contained.makeDirs (h : Contained config extraction) {total : ℤ}
    (hnames : ∀ name ∈ path, name ≠ "" ∧ name ≠ "." ∧ name ≠ ".." ∧ '/' ∉ name.toList)
    (htotal : extraction.declaredTotal ≤ total) (hlimit : total ≤ config.maxArchiveTotalUncompressedBytes) :
    Contained config
      { declaredTotal := total, tree := (extraction.tree.makeDirs accepts (dirsOf info path)).2 } where
  noLinks := h.noLinks.makeDirs
  below q entry hq := by
    rcases @FileTree.makeDirs_get? accepts extraction.tree (dirsOf info path) q with hold | ⟨-, ⟨hne, hstart⟩, -⟩
    · rw [hold] at hq
      exact h.below q entry hq
    · exact properPath_prefix hnames hne (hstart.trans (dirsOf_start info path))
  member q entry hq := by
    rcases @FileTree.makeDirs_get? accepts extraction.tree (dirsOf info path) q with hold | ⟨-, -, -, hdirectory⟩
    · rw [hold] at hq
      exact h.member q entry hq
    · obtain rfl := Option.some.inj (hdirectory.symm.trans hq)
      exact Nat.zero_le _
  bytes := by
    have hbytes := h.bytes
    simp only [FileTree.bytes_makeDirs]
    omega
  total := hlimit

/-- Writing a new file of a member. -/
theorem Contained.file (h : Contained config extraction) {content : List UInt8} (hnew : extraction.tree.get? path = none)
    (hpath : ProperPath path) {size : ℤ} (hcontent : (content.length : ℤ) ≤ size)
    (hsize : size ≤ config.maxArchiveMemberBytes) (hbytes : (extraction.tree.bytes : ℤ) + size ≤ extraction.declaredTotal) :
    Contained config { extraction with tree := extraction.tree.set path (.file content) } where
  noLinks := h.noLinks.set fun target h => by cases h
  below q entry hq := by
    rw [Dict.get?_set] at hq
    split at hq
    next heq => exact heq ▸ hpath
    next => exact h.below q entry hq
  member q entry hq := by
    rw [Dict.get?_set] at hq
    split at hq
    · obtain rfl := Option.some.inj hq
      show content.length ≤ _
      omega
    · exact h.member q entry hq
  bytes := by
    have hset : (FileTree.bytes (extraction.tree.set path (.file content))) = extraction.tree.bytes + content.length :=
      FileTree.bytes_set hnew
    show (FileTree.bytes (extraction.tree.set path (.file content)) : ℤ) ≤ extraction.declaredTotal
    omega
  total := h.total

theorem kept_makeDirs (tree : FileTree) (path : List String) : Kept tree (tree.makeDirs accepts path).2 := by
  intro q content hq
  rcases @FileTree.makeDirs_get? accepts tree path q with hold | ⟨hnone, -⟩
  · rw [hold, hq]
  · rw [hq] at hnone
    cases hnone

theorem kept_set {tree : FileTree} (hnew : tree.get? path = none) (entry : FileEntry) : Kept tree (tree.set path entry) := by
  intro q content hq
  have hne : q ≠ path := by
    rintro rfl
    rw [hq] at hnew
    cases hnew
  rw [Dict.get?_set_ne _ _ hne, hq]

/-- One member, however it ends. -/
theorem extractMember_contained (accepts : List String → Bool) (quoted : String → String) (info : ZipInfo)
    (h : Contained config extraction) :
    Contained config (extractMember accepts quoted config info extraction).2 ∧
      Kept extraction.tree (extractMember accepts quoted config info extraction).2.tree := by
  unfold extractMember
  rcases checkMember_cases quoted config extraction.declaredTotal info with ⟨message, hcheck⟩ | ⟨total, path, hcheck, hpassed⟩
  · rw [hcheck]
    exact ⟨h, fun q content hq => hq⟩
  · rw [hcheck]
    simp only [FileTree.resolve_eq h.noLinks]
    have hsum := hpassed.sum
    have hnonneg := hpassed.nonneg
    have hmade : Contained config { declaredTotal := total, tree := (extraction.tree.makeDirs accepts (dirsOf info path)).2 } :=
      h.makeDirs hpassed.names (by omega) hpassed.within
    have hwrote : Wrote accepts info path extraction.tree
        (writeMember accepts quoted config info path extraction.tree) := writeMember_wrote hpassed.member
    generalize writeMember accepts quoted config info path extraction.tree = written at hwrote ⊢
    cases hwrote with
    | refused error hforeign hnot => exact ⟨hmade, kept_makeDirs _ _⟩
    | directory hdir hwritable => exact ⟨hmade, kept_makeDirs _ _⟩
    | file stream hfile hwritable hsource =>
      obtain ⟨-, hpath, hfree, -⟩ := hwritable.2 hfile
      have hbytes := h.bytes
      refine ⟨hmade.file hfree ⟨hpath, hpassed.names⟩ (info.declared stream hsource) hpassed.member ?_, ?_⟩
      · simp only [FileTree.bytes_makeDirs]
        omega
      · intro q content hq
        exact kept_set hfree _ q content (kept_makeDirs _ _ q content hq)

theorem extractMembers_contained (accepts : List String → Bool) (quoted : String → String) (infos : List ZipInfo)
    (h : Contained config extraction) :
    Contained config (extractMembers accepts quoted config infos extraction).2 ∧
      Kept extraction.tree (extractMembers accepts quoted config infos extraction).2.tree := by
  induction infos generalizing extraction with
  | nil => exact ⟨h, fun q content hq => hq⟩
  | cons info infos ih =>
    obtain ⟨hstep, hkept⟩ := extractMember_contained accepts quoted info h
    unfold extractMembers
    generalize extractMember accepts quoted config info extraction = step at hstep hkept ⊢
    obtain ⟨outcome, next⟩ := step
    cases outcome with
    | error error => exact ⟨hstep, hkept⟩
    | ok =>
      obtain ⟨hrest, hkeptRest⟩ := ih hstep
      exact ⟨hrest, fun q content hq => hkeptRest q content (hkept q content hq)⟩

/-- What the members before have left is there when all are extracted. -/
theorem extractMembers_append (accepts : List String → Bool) (quoted : String → String) (before after : List ZipInfo)
    (h : Contained config extraction) :
    Kept (extractMembers accepts quoted config before extraction).2.tree
      (extractMembers accepts quoted config (before ++ after) extraction).2.tree := by
  induction before generalizing extraction with
  | nil => exact (extractMembers_contained accepts quoted after h).2
  | cons info before ih =>
    have hstep := (extractMember_contained accepts quoted info h).1
    rw [List.cons_append]
    unfold extractMembers
    generalize extractMember accepts quoted config info extraction = step at hstep ⊢
    obtain ⟨outcome, next⟩ := step
    cases outcome with
    | error error => exact fun q content hq => hq
    | ok => exact ih hstep

end Containment

/-! ## When a member can be extracted -/

/-- The members of these pass the tests, each after those before it. -/
def Passes (quoted : String → String) (config : MobileArchiveConfig) (before : List ZipInfo) (info : ZipInfo) : Prop :=
  ∃ passed, checkMember quoted config (before.map (·.fileSize)).sum info = .ok passed

/-- The path of a member is free after these, and the member can be read. -/
structure Clear (accepts : List String → Bool) (before : List ZipInfo) (info : ZipInfo) : Prop where
  accepted : ∀ q ≠ [], q <+: partsOf info → accepts q = true
  noFileAbove : ∀ other ∈ before, other.isDir = false → ¬ partsOf other <+: partsOf info
  named : info.isDir = false → partsOf info ≠ []
  free : info.isDir = false → ∀ other ∈ before, ¬ partsOf info <+: partsOf other
  readable : info.isDir = false → ∃ stream, info.source = .ok stream ∧ stream.failure = none

/-- Every member up to the first that is refused is clear of those before it. -/
def Extractable (accepts : List String → Bool) (quoted : String → String) (config : MobileArchiveConfig)
    (infos : List ZipInfo) : Prop :=
  ∀ before info after, infos = before ++ info :: after →
    (∀ front other back, before ++ [info] = front ++ other :: back → Passes quoted config front other) →
    Clear accepts before info

/-- What is in the tree when these were extracted. -/
structure Extracted (accepts : List String → Bool) (config : MobileArchiveConfig) (done : List ZipInfo)
    (extraction : Extraction) : Prop where
  contained : Contained config extraction
  total : extraction.declaredTotal = (done.map (·.fileSize)).sum
  accepted : ∀ q entry, extraction.tree.get? q = some entry → accepts q = true
  files : ∀ q, (∃ content, extraction.tree.get? q = some (.file content)) ↔
    ∃ other ∈ done, other.isDir = false ∧ partsOf other = q
  dirs : ∀ q, extraction.tree.get? q = some .directory ↔
    q ≠ [] ∧ ∃ other ∈ done, q <+: partsOf other ∧ (other.isDir = false → q ≠ partsOf other)

section Steps

variable {accepts : List String → Bool} {quoted : String → String} {config : MobileArchiveConfig} {info : ZipInfo}
variable {done : List ZipInfo} {extraction : Extraction}

theorem Extracted.start : Extracted accepts config [] {} where
  contained := .start
  total := rfl
  accepted q entry h := by cases h
  files q := iff_of_false (fun ⟨content, h⟩ => by cases h) fun ⟨other, hother, _⟩ => by cases hother
  dirs q := iff_of_false (fun h => by cases h) fun ⟨_, other, hother, _⟩ => by cases hother

/-- A path can be a directory unless it is refused or a file. -/
theorem Extracted.canBeDir_iff (h : Extracted accepts config done extraction) {q : List String} :
    FileTree.CanBeDir accepts extraction.tree q ↔
      accepts q = true ∧ ∀ other ∈ done, other.isDir = false → partsOf other ≠ q := by
  have hfiles := h.files q
  constructor
  · rintro (hdirectory | ⟨hnone, haccepts⟩)
    · refine ⟨h.accepted q _ hdirectory, fun other hother hfile heq => ?_⟩
      obtain ⟨content, hcontent⟩ := hfiles.mpr ⟨other, hother, hfile, heq⟩
      rw [hdirectory] at hcontent
      cases hcontent
    · refine ⟨haccepts, fun other hother hfile heq => ?_⟩
      obtain ⟨content, hcontent⟩ := hfiles.mpr ⟨other, hother, hfile, heq⟩
      rw [hnone] at hcontent
      cases hcontent
  · rintro ⟨haccepts, hnot⟩
    cases hget : extraction.tree.get? q with
    | none => exact .inr ⟨hget, haccepts⟩
    | some entry =>
      cases entry with
      | directory => exact .inl hget
      | file content =>
        obtain ⟨other, hother, hfile, heq⟩ := hfiles.mp ⟨content, hget⟩
        exact absurd heq (hnot other hother hfile)
      | symlink target => exact absurd hget (h.contained.noLinks q target)

/-- Nothing is at a path that no member goes to or through. -/
theorem Extracted.get?_eq_none_iff (h : Extracted accepts config done extraction) {q : List String} (hq : q ≠ []) :
    extraction.tree.get? q = none ↔ ∀ other ∈ done, ¬ q <+: partsOf other := by
  constructor
  · intro hnone other hother hstart
    by_cases hfile : other.isDir = false ∧ q = partsOf other
    · obtain ⟨content, hcontent⟩ := (h.files q).mpr ⟨other, hother, hfile.1, hfile.2.symm⟩
      rw [hnone] at hcontent
      cases hcontent
    · have hdirectory := (h.dirs q).mpr ⟨hq, other, hother, hstart, fun hdir heq => hfile ⟨hdir, heq⟩⟩
      rw [hnone] at hdirectory
      cases hdirectory
  · intro hnot
    cases hget : extraction.tree.get? q with
    | none => rfl
    | some entry =>
      exfalso
      cases entry with
      | directory =>
        obtain ⟨-, other, hother, hstart, -⟩ := (h.dirs q).mp hget
        exact hnot other hother hstart
      | file content =>
        obtain ⟨other, hother, -, heq⟩ := (h.files q).mp ⟨content, hget⟩
        exact hnot other hother (heq ▸ List.prefix_refl _)
      | symlink target => exact h.contained.noLinks q target hget

theorem prefix_dropLast_iff {α : Type*} {q path : List α} (hpath : path ≠ []) :
    q <+: path.dropLast ↔ q <+: path ∧ q ≠ path := by
  constructor
  · intro h
    refine ⟨h.trans (List.dropLast_prefix path), ?_⟩
    rintro rfl
    have hle := h.length_le
    have hpos := List.length_pos_iff.mpr hpath
    rw [List.length_dropLast] at hle
    omega
  · rintro ⟨⟨rest, rfl⟩, hne⟩
    have hrest : rest ≠ [] := by
      rintro rfl
      rw [List.append_nil] at hne
      exact hne rfl
    rw [List.dropLast_append_of_ne_nil hrest]
    exact List.prefix_append _ _

/-- The directories of a member: all that lead to it, and a directory itself. -/
theorem prefix_dirsOf_iff {q path : List String} (hpath : info.isDir = false → path ≠ []) :
    q <+: dirsOf info path ↔ q <+: path ∧ (info.isDir = false → q ≠ path) := by
  unfold dirsOf
  cases hdir : info.isDir with
  | true => simp
  | false =>
    rw [if_neg Bool.false_ne_true, prefix_dropLast_iff (hpath hdir)]
    simp

/-- Making the directories leaves the path of a file as it is. -/
theorem get?_makeDirs_self {tree : FileTree} {path : List String} (hfile : info.isDir = false) (hpath : path ≠ []) :
    (tree.makeDirs accepts (dirsOf info path)).2.get? path = tree.get? path := by
  rcases @FileTree.makeDirs_get? accepts tree (dirsOf info path) path with hold | ⟨-, ⟨-, hstart⟩, -⟩
  · exact hold
  · exact absurd rfl (((prefix_dirsOf_iff fun _ => hpath).mp hstart).2 hfile)

/-- A member is clear exactly if it can be written and read. -/
theorem Extracted.clear_iff (h : Extracted accepts config done extraction) :
    Clear accepts done info ↔ Writable accepts info (partsOf info) extraction.tree ∧
      (info.isDir = false → ∃ stream, info.source = .ok stream ∧ stream.failure = none) := by
  unfold Writable
  rw [FileTree.makeDirs_ok_iff]
  constructor
  · intro hclear
    refine ⟨⟨fun q hne hq => ?_, fun hfile => ?_⟩, hclear.readable⟩
    · have hstart := hq.trans (dirsOf_start info _)
      refine h.canBeDir_iff.mpr ⟨hclear.accepted q hne hstart, fun other hother hfile heq => ?_⟩
      exact hclear.noFileAbove other hother hfile (heq ▸ hstart)
    · have hpath := hclear.named hfile
      obtain ⟨stream, hsource, -⟩ := hclear.readable hfile
      refine ⟨⟨stream, hsource⟩, hpath, ?_, hclear.accepted _ hpath (List.prefix_refl _)⟩
      rw [get?_makeDirs_self hfile hpath]
      exact (h.get?_eq_none_iff hpath).mpr (hclear.free hfile)
  · rintro ⟨⟨hdirs, hfile⟩, hreadable⟩
    have hpath : info.isDir = false → partsOf info ≠ [] := fun hdir => (hfile hdir).2.1
    have hnone : info.isDir = false → extraction.tree.get? (partsOf info) = none := by
      intro hdir
      rw [← (hfile hdir).2.2.1, get?_makeDirs_self hdir (hpath hdir)]
    -- every name on the way is a directory, or the file itself
    have hway : ∀ q ≠ [], q <+: partsOf info →
        accepts q = true ∧ ∀ other ∈ done, other.isDir = false → partsOf other ≠ q := by
      intro q hne hq
      by_cases hself : info.isDir = false ∧ q = partsOf info
      · obtain ⟨hdir, rfl⟩ := hself
        refine ⟨(hfile hdir).2.2.2, fun other hother hother' heq => ?_⟩
        exact (h.get?_eq_none_iff hne).mp (hnone hdir) other hother (heq ▸ List.prefix_refl _)
      · exact h.canBeDir_iff.mp (hdirs q hne ((prefix_dirsOf_iff hpath).mpr ⟨hq, fun hdir heq => hself ⟨hdir, heq⟩⟩))
    refine ⟨fun q hne hq => (hway q hne hq).1, fun other hother hdir hstart => ?_, hpath, fun hdir => ?_, hreadable⟩
    · have hne : partsOf other ≠ [] := by
        obtain ⟨content, hcontent⟩ := (h.files _).mpr ⟨other, hother, hdir, rfl⟩
        exact (h.contained.below _ _ hcontent).1
      exact (hway _ hne hstart).2 other hother hdir rfl
    · exact (h.get?_eq_none_iff (hpath hdir)).mp (hnone hdir)

theorem exists_mem_concat {P : ZipInfo → Prop} :
    (∃ other ∈ done ++ [info], P other) ↔ (∃ other ∈ done, P other) ∨ P info := by
  simp only [List.mem_append, List.mem_singleton]
  constructor
  · rintro ⟨other, hmem | rfl, h⟩
    · exact .inl ⟨other, hmem, h⟩
    · exact .inr h
  · rintro (⟨other, hmem, h⟩ | h)
    · exact ⟨other, .inl hmem, h⟩
    · exact ⟨info, .inr rfl, h⟩

/-- After the directories of a member: those that were there, and those. -/
theorem get?_makeDirs_iff {tree : FileTree} (hpath : info.isDir = false → partsOf info ≠ [])
    (hok : (tree.makeDirs accepts (dirsOf info (partsOf info))).1 = .ok ()) (q : List String) :
    ((∃ content, (tree.makeDirs accepts (dirsOf info (partsOf info))).2.get? q = some (.file content)) ↔
      ∃ content, tree.get? q = some (.file content)) ∧
    ((tree.makeDirs accepts (dirsOf info (partsOf info))).2.get? q = some .directory ↔
      tree.get? q = some .directory ∨
        q ≠ [] ∧ q <+: partsOf info ∧ (info.isDir = false → q ≠ partsOf info)) := by
  rw [← prefix_dirsOf_iff hpath]
  rcases @FileTree.makeDirs_get? accepts tree (dirsOf info (partsOf info)) q with
    hold | ⟨hnone, hnew, -, hdirectory⟩
  · rw [hold]
    refine ⟨Iff.rfl, ⟨.inl, ?_⟩⟩
    rintro (hq | ⟨hne, hq⟩)
    · exact hq
    · rw [← hold]
      exact FileTree.makeDirs_directory hok hne hq
  · rw [hdirectory, hnone]
    simp [hnew.1, hnew.2]

theorem Extracted.afterDirectory (h : Extracted accepts config done extraction) (hdir : info.isDir = true)
    (hok : (extraction.tree.makeDirs accepts (dirsOf info (partsOf info))).1 = .ok ())
    (hclear : Clear accepts done info) {total : ℤ} (htotal : total = extraction.declaredTotal + info.fileSize)
    (hcontained : Contained config
      { declaredTotal := total, tree := (extraction.tree.makeDirs accepts (dirsOf info (partsOf info))).2 }) :
    Extracted accepts config (done ++ [info])
      { declaredTotal := total, tree := (extraction.tree.makeDirs accepts (dirsOf info (partsOf info))).2 } where
  contained := hcontained
  total := by
    rw [List.map_append, List.sum_append, ← h.total]
    simpa using htotal
  accepted q entry hq := by
    rcases @FileTree.makeDirs_get? accepts extraction.tree (dirsOf info (partsOf info)) q with hold | ⟨-, -, haccepts, -⟩
    · rw [hold] at hq
      exact h.accepted q entry hq
    · exact haccepts
  files q := by
    rw [(get?_makeDirs_iff hclear.named hok q).1, h.files, exists_mem_concat]
    simp [hdir]
  dirs q := by
    rw [(get?_makeDirs_iff hclear.named hok q).2, h.dirs, exists_mem_concat, and_or_left]

theorem Extracted.afterFile (h : Extracted accepts config done extraction) (hfile : info.isDir = false)
    (hok : (extraction.tree.makeDirs accepts (dirsOf info (partsOf info))).1 = .ok ())
    (hclear : Clear accepts done info) {total : ℤ} (htotal : total = extraction.declaredTotal + info.fileSize)
    {content : List UInt8}
    (hcontained : Contained config
      { declaredTotal := total,
        tree := (extraction.tree.makeDirs accepts (dirsOf info (partsOf info))).2.set (partsOf info) (.file content) }) :
    Extracted accepts config (done ++ [info])
      { declaredTotal := total,
        tree := (extraction.tree.makeDirs accepts (dirsOf info (partsOf info))).2.set (partsOf info) (.file content) } where
  contained := hcontained
  total := by
    rw [List.map_append, List.sum_append, ← h.total]
    simpa using htotal
  accepted q entry hq := by
    rw [Dict.get?_set] at hq
    split at hq
    next heq => exact heq ▸ hclear.accepted _ (hclear.named hfile) (List.prefix_refl _)
    next =>
      rcases @FileTree.makeDirs_get? accepts extraction.tree (dirsOf info (partsOf info)) q with
        hold | ⟨-, -, haccepts, -⟩
      · rw [hold] at hq
        exact h.accepted q entry hq
      · exact haccepts
  files q := by
    rw [exists_mem_concat, ← h.files, ← (get?_makeDirs_iff hclear.named hok q).1, Dict.get?_set]
    split
    next heq => simp [heq, hfile]
    next hne => simp [hfile, Ne.symm hne]
  dirs q := by
    rw [exists_mem_concat]
    have hdirs := (get?_makeDirs_iff hclear.named hok q).2
    rw [h.dirs] at hdirs
    rw [Dict.get?_set]
    split
    next heq =>
      subst heq
      refine iff_of_false (fun h => by cases h) ?_
      rintro ⟨hne, ⟨other, hother, hstart, -⟩ | ⟨-, hne'⟩⟩
      · exact hclear.free hfile other hother hstart
      · exact hne' hfile rfl
    next => rw [hdirs, and_or_left]

/-- One member: refused, not clear, or extracted. -/
theorem Extracted.step (h : Extracted accepts config done extraction) (quoted : String → String) (info : ZipInfo) :
    (¬ Passes quoted config done info ∧
      ∃ message next, extractMember accepts quoted config info extraction = (.error (.mobileArtifactError message), next)) ∨
    (Passes quoted config done info ∧ ¬ Clear accepts done info ∧
      ∃ error next, extractMember accepts quoted config info extraction = (.error error, next) ∧
        ∀ message, error ≠ .mobileArtifactError message) ∨
    (Passes quoted config done info ∧ Clear accepts done info ∧
      ∃ next, extractMember accepts quoted config info extraction = (.ok (), next) ∧
        Extracted accepts config (done ++ [info]) next) := by
  have hcontained := (extractMember_contained accepts quoted info h.contained).1
  unfold Passes
  rw [← h.total]
  unfold extractMember at hcontained ⊢
  rcases checkMember_cases quoted config extraction.declaredTotal info with
    ⟨message, hcheck⟩ | ⟨total, path, hcheck, hpassed⟩
  · rw [hcheck]
    exact .inl ⟨fun ⟨passed, hpassed⟩ => (by cases hpassed), message, _, rfl⟩
  right
  obtain rfl := hpassed.parts
  rw [hcheck] at hcontained ⊢
  simp only [FileTree.resolve_eq h.contained.noLinks] at hcontained ⊢
  have hwrote : Wrote accepts info (partsOf info) extraction.tree
      (writeMember accepts quoted config info (partsOf info) extraction.tree) := writeMember_wrote hpassed.member
  generalize writeMember accepts quoted config info (partsOf info) extraction.tree = written at hwrote hcontained ⊢
  have hiff : Clear accepts done info ↔ _ := h.clear_iff
  cases hwrote with
  | refused error hforeign hnot => exact .inl ⟨⟨_, rfl⟩, fun hclear => hnot (hiff.mp hclear).1, error, _, rfl, hforeign⟩
  | directory hdir hwritable =>
    have hclear : Clear accepts done info := by
      refine hiff.mpr ⟨hwritable, fun hfile => ?_⟩
      rw [hdir] at hfile
      cases hfile
    exact .inr ⟨⟨_, rfl⟩, hclear, _, rfl, h.afterDirectory hdir hwritable.1 hclear hpassed.sum hcontained⟩
  | file stream hfile hwritable hsource =>
    cases hfailure : stream.failure with
    | some error =>
      left
      refine ⟨⟨_, rfl⟩, fun hclear => ?_, .zipError error, _, rfl, fun message h => by cases h⟩
      obtain ⟨stream', hsource', hnone⟩ := hclear.readable hfile
      obtain rfl := Except.ok.inj (hsource.symm.trans hsource')
      rw [hfailure] at hnone
      cases hnone
    | none =>
      have hclear : Clear accepts done info := hiff.mpr ⟨hwritable, fun _ => ⟨stream, hsource, hfailure⟩⟩
      exact .inr ⟨⟨_, rfl⟩, hclear, _, rfl, h.afterFile hfile hwritable.1 hclear hpassed.sum hcontained⟩

end Steps

/-- The loop ends normally or with `MobileArtifactError` exactly if every member up to the first that is refused is
    clear. -/
theorem Extracted.run {accepts : List String → Bool} {config : MobileArchiveConfig} {done : List ZipInfo}
    {extraction : Extraction} (h : Extracted accepts config done extraction) (quoted : String → String)
    (infos : List ZipInfo) :
    ((extractMembers accepts quoted config infos extraction).1 = .ok () ∨
      ∃ message, (extractMembers accepts quoted config infos extraction).1 = .error (.mobileArtifactError message)) ↔
    ∀ before info after, infos = before ++ info :: after →
      (∀ front other back, before ++ [info] = front ++ other :: back → Passes quoted config (done ++ front) other) →
      Clear accepts (done ++ before) info := by
  induction infos generalizing done extraction with
  | nil =>
    refine iff_of_true (.inl rfl) fun before info after heq => ?_
    simp at heq
  | cons info infos ih =>
    unfold extractMembers
    rcases h.step quoted info with ⟨hnot, message, next, hstep⟩ | ⟨hpasses, hnot, error, next, hstep, hforeign⟩ |
      ⟨hpasses, hclear, next, hstep, hnext⟩
    · rw [hstep]
      refine iff_of_true (.inr ⟨message, rfl⟩) fun before other after heq hall => ?_
      exfalso
      apply hnot
      rw [← List.append_nil done]
      cases before with
      | nil =>
        obtain ⟨rfl, -⟩ := List.cons.inj heq
        exact hall [] info [] rfl
      | cons first before =>
        obtain ⟨rfl, -⟩ := List.cons.inj heq
        exact hall [] info (before ++ [other]) rfl
    · rw [hstep]
      refine iff_of_false ?_ fun hall => hnot ?_
      · rintro (h | ⟨message, h⟩)
        · cases h
        · exact hforeign message (Except.error.inj h)
      · have hfirst := hall [] info infos rfl fun front other back heq => ?_
        · rwa [List.append_nil] at hfirst
        · cases front with
          | nil =>
            obtain ⟨rfl, -⟩ := List.cons.inj heq
            rwa [List.append_nil]
          | cons first front => simp at heq
    · rw [hstep]
      simp only
      rw [ih hnext]
      constructor
      · intro hall before other after heq hbefore
        cases before with
        | nil =>
          obtain ⟨rfl, -⟩ := List.cons.inj heq
          rwa [List.append_nil]
        | cons first before =>
          obtain ⟨rfl, rfl⟩ := List.cons.inj heq
          have hrest := hall before other after rfl fun front x back hfront => ?_
          · rwa [List.append_assoc] at hrest
          · have hx := hbefore (info :: front) x back (by rw [List.cons_append, List.cons_append, hfront])
            rwa [List.append_assoc]
      · intro hall before other after heq hbefore
        subst heq
        have hrest := hall (info :: before) other after rfl fun front x back hfront => ?_
        · rwa [List.append_assoc]
        · cases front with
          | nil =>
            obtain ⟨rfl, -⟩ := List.cons.inj hfront
            rwa [List.append_nil]
          | cons first front =>
            obtain ⟨rfl, hlater⟩ := List.cons.inj hfront
            have hx := hbefore front x back hlater
            rwa [List.append_assoc] at hx

/-! ## Extractions -/

/-- An extraction is contained at every member, writes no file twice, and ends normally or with
    `MobileArtifactError`. -/
structure ExtractsSafely (accepts : List String → Bool) (quoted : String → String) (config : MobileArchiveConfig)
    (infos : List ZipInfo) : Prop where
  contained : Contained config (safeExtractMobileArchive accepts quoted config (.ok infos)).2
  kept : infos.length ≤ config.maxArchiveEntries → ∀ before after, infos = before ++ after →
    Contained config (extractMembers accepts quoted config before {}).2 ∧
      Kept (extractMembers accepts quoted config before {}).2.tree
        (safeExtractMobileArchive accepts quoted config (.ok infos)).2.tree
  oneWay : (safeExtractMobileArchive accepts quoted config (.ok infos)).1 = .ok () ∨
    ∃ message, (safeExtractMobileArchive accepts quoted config (.ok infos)).1 = .error (.mobileArtifactError message)

/-- **The extraction of an archive** is safe exactly if the archive has too many members, or every member up to the
    first that is refused is clear of those before it. -/
theorem extracts_safely_iff (accepts : List String → Bool) (quoted : String → String) (config : MobileArchiveConfig)
    (infos : List ZipInfo) :
    ExtractsSafely accepts quoted config infos ↔
      infos.length > config.maxArchiveEntries ∨ Extractable accepts quoted config infos := by
  have hrun := (Extracted.start : Extracted accepts config [] {}).run quoted infos
  simp only [List.nil_append] at hrun
  by_cases hmany : infos.length > config.maxArchiveEntries
  · have hextract : safeExtractMobileArchive accepts quoted config (.ok infos) = (.error (.mobileArtifactError _), {}) :=
      if_pos hmany
    refine iff_of_true ⟨?_, fun hfew => absurd hmany (Nat.not_lt.mpr hfew), ?_⟩ (.inl hmany)
    · rw [hextract]
      exact .start
    · rw [hextract]
      exact .inr ⟨_, rfl⟩
  · have hextract : safeExtractMobileArchive accepts quoted config (.ok infos) =
        extractMembers accepts quoted config infos {} := if_neg hmany
    rw [or_iff_right hmany]
    constructor
    · intro h
      have hway := h.oneWay
      rw [hextract] at hway
      exact hrun.mp hway
    · intro h
      refine ⟨?_, fun _ before after heq => ⟨(extractMembers_contained accepts quoted before .start).1, ?_⟩, ?_⟩
      · rw [hextract]
        exact (extractMembers_contained accepts quoted infos .start).1
      · rw [hextract, heq]
        exact extractMembers_append accepts quoted before after .start
      · rw [hextract]
        exact hrun.mpr h

/-- A member of one byte. -/
def classesDex : ZipInfo where
  filename := "classes.dex"
  fileSize := 1
  source := .ok { content := [0] }
  declared stream h := by
    obtain rfl := Except.ok.inj h
    decide

/-- A member that comes twice ends the extraction with `FileExistsError`. -/
theorem duplicate_member_not_safe : ¬ ExtractsSafely (fun _ => true) id {} [classesDex, classesDex] := by
  intro h
  have hend : (safeExtractMobileArchive (fun _ => true) id {} (.ok [classesDex, classesDex])).1 =
      .error (.osError .fileExistsError) := by decide +kernel
  rcases h.oneWay with hok | ⟨message, herror⟩
  · rw [hend] at hok
    cases hok
  · rw [hend] at herror
    cases herror

end NightScout
