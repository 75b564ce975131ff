import NightScout.Scripts.WordlistsSync
import NightScout.Core.ValueErrors

/-!
# When a sync converges

A source converges when its file is the list that the download stands for, the lock says so, its readers take it, and
a second sync of the same download changes nothing. Three things stand in the way: a line that `urlsplit` refuses,
which no transform catches; a file that was altered after the entry that the lock has for this very download, which is
never written again, although the manifest asks for a sync; and a local path with `://` in it, which the catalogue
takes and the manifest does not.
-/

namespace NightScout

open Lib

section Lists

variable (tables : Tables) (source : CatalogSource)

/-- The tokens of a line. One that cannot be split has none. -/
def lineTokens (line : String) : List String := ((transformLine tables line source.transform).toOption).getD []

/-- The tokens of some lines. -/
def usableTokens (lines : List String) : List String := lines.flatMap (lineTokens tables source)

/-- The first tokens of some lines, one for each key. -/
def wordlist (lines : List String) : List String :=
  (firstSeen (dedupeKey tables source) (usableTokens tables source lines)).take source.maxEntries

/-- Every line that cannot be split comes when the list is full. -/
def LinesSplit (lines : List String) : Prop :=
  ∀ front line back, lines = front ++ line :: back → Unsplittable tables line source.transform →
    source.maxEntries ≤ (firstSeen (dedupeKey tables source) (usableTokens tables source front)).length

end Lists

/-! ## The loop -/

section Loop

variable {tables : Tables} {source : CatalogSource} {line : String} {lines output : List String}

theorem lineTokens_of_ok {tokens : List String} (h : transformLine tables line source.transform = .ok tokens) :
    lineTokens tables source line = tokens := by
  rw [lineTokens, h]
  rfl

theorem usableTokens_cons : usableTokens tables source (line :: lines) =
    lineTokens tables source line ++ usableTokens tables source lines := List.flatMap_cons

/-- One line of the loop. -/
theorem normalizeLines_cons {tokens : List String} (h : transformLine tables line source.transform = .ok tokens) :
    normalizeLines tables source output (line :: lines) =
      if source.maxEntries ≤ (takeSeen (dedupeKey tables source) source.maxEntries output tokens).length then
        .ok (takeSeen (dedupeKey tables source) source.maxEntries output tokens)
      else normalizeLines tables source (takeSeen (dedupeKey tables source) source.maxEntries output tokens) lines := by
  rw [normalizeLines, h]
  rfl

/-- **What the loop gives.** It has the first tokens of all the lines, those after the last it read included. -/
theorem normalizeLines_eq (hroom : output.length < source.maxEntries) {result : List String}
    (h : normalizeLines tables source output lines = .ok result) :
    result = (seenAfter (dedupeKey tables source) output (usableTokens tables source lines)).take source.maxEntries := by
  induction lines generalizing output with
  | nil =>
    obtain rfl := Except.ok.inj h
    exact (List.take_of_length_le (Nat.le_of_lt hroom)).symm
  | cons line lines ih =>
    cases htokens : transformLine tables line source.transform with
    | error e =>
      rw [normalizeLines, htokens] at h
      cases h
    | ok tokens =>
      rw [normalizeLines_cons htokens, takeSeen_eq hroom] at h
      rw [usableTokens_cons, lineTokens_of_ok htokens, seenAfter_append]
      split at h
      next hfull =>
        obtain rfl := Except.ok.inj h
        rw [List.length_take] at hfull
        exact (take_seenAfter (hfull.trans (Nat.min_le_right _ _)) _).symm
      next hmore =>
        rw [List.length_take, Nat.not_le, min_lt_iff] at hmore
        have hmore := hmore.resolve_left (Nat.lt_irrefl _)
        rw [List.take_of_length_le (Nat.le_of_lt hmore)] at h
        exact ih hmore h

/-- **When the loop gives something**: every line it reads is split. -/
theorem normalizeLines_ok_iff (hroom : output.length < source.maxEntries) :
    (∃ result, normalizeLines tables source output lines = .ok result) ↔
      ∀ front line back, lines = front ++ line :: back → Unsplittable tables line source.transform → source.maxEntries ≤
          (seenAfter (dedupeKey tables source) output (usableTokens tables source front)).length := by
  induction lines generalizing output with
  | nil =>
    refine iff_of_true ⟨output, rfl⟩ fun front line back hlines => ?_
    cases front <;> cases hlines
  | cons line lines ih =>
    cases htokens : transformLine tables line source.transform with
    | error e =>
      refine iff_of_false ?_ fun h => ?_
      · rintro ⟨result, hresult⟩
        rw [normalizeLines, htokens] at hresult
        cases hresult
      · have hfull := h [] line lines rfl ((transform_error_iff line source.transform).mp ⟨e, htokens⟩)
        exact Nat.not_le.mpr hroom hfull
    | ok tokens =>
      rw [normalizeLines_cons htokens, takeSeen_eq hroom]
      have hsplit : ¬ Unsplittable tables line source.transform := by
        intro h
        obtain ⟨e, he⟩ := (transform_error_iff line source.transform).mpr h
        rw [htokens] at he
        cases he
      have hfront : ∀ front, usableTokens tables source (line :: front) = tokens ++ usableTokens tables source front := by
        intro front
        rw [usableTokens_cons, lineTokens_of_ok htokens]
      split
      next hfull =>
        rw [List.length_take] at hfull
        refine iff_of_true ⟨_, rfl⟩ fun front other back hlines hother => ?_
        cases front with
        | nil =>
          cases hlines
          exact absurd hother hsplit
        | cons first front =>
          cases hlines
          rw [hfront, seenAfter_append]
          exact (hfull.trans (Nat.min_le_right _ _)).trans (length_le_seenAfter _ _)
      next hmore =>
        rw [List.length_take, Nat.not_le, min_lt_iff] at hmore
        have hmore := hmore.resolve_left (Nat.lt_irrefl _)
        rw [List.take_of_length_le (Nat.le_of_lt hmore), ih hmore]
        constructor
        · intro h front other back hlines hother
          cases front with
          | nil =>
            cases hlines
            exact absurd hother hsplit
          | cons first front =>
            cases hlines
            rw [hfront, seenAfter_append]
            exact h front other back rfl hother
        · intro h front other back hlines hother
          have hlong := h (line :: front) other back (congrArg (line :: ·) hlines) hother
          rwa [hfront, seenAfter_append] at hlong

theorem length_nil_lt : ([] : List String).length < source.maxEntries := source.maxEntries_pos

theorem wordlist_ne_nil (h : usableTokens tables source lines ≠ []) : wordlist tables source lines ≠ [] := by
  have hpos : 0 < (firstSeen (dedupeKey tables source) (usableTokens tables source lines)).length :=
    List.length_pos_of_ne_nil (firstSeen_ne_nil h)
  refine List.ne_nil_of_length_pos ?_
  rw [wordlist, List.length_take]
  exact lt_min source.maxEntries_pos hpos

/-! ### What counts as distinct -/

end Loop

/-! ## A sync -/

section Sync

variable {tables : Tables} {intOf : String → Option ℤ} {sha256 : List UInt8 → String} {tree : WordlistTree}
  {source : CatalogSource} {existing : Option LockEntry} {reply : Reply} {now path : String}
  {download : DownloadResult}

theorem normalizeDownload_eq (htokens : usableTokens tables source (iterTextLines download.content) ≠ [])
    (h : LinesSplit tables source (iterTextLines download.content)) : normalizeDownload tables source download =
      .ok (wordlistFile (wordlist tables source (iterTextLines download.content)),
        (wordlist tables source (iterTextLines download.content)).length) := by
  obtain ⟨output, houtput⟩ := (normalizeLines_ok_iff length_nil_lt).mpr h
  have heq : output = wordlist tables source (iterTextLines download.content) :=
    normalizeLines_eq length_nil_lt houtput
  rw [normalizeDownload, houtput, ok_bind, heq, if_neg (wordlist_ne_nil htokens)]
  rfl

theorem linesSplit_of_ok {made : List UInt8 × ℕ} (h : normalizeDownload tables source download = .ok made) :
    LinesSplit tables source (iterTextLines download.content) := by
  obtain ⟨output, houtput, -⟩ := bind_ok h
  exact (normalizeLines_ok_iff length_nil_lt).mp ⟨output, houtput⟩

/-- The path of a source that is in the directory. -/
theorem locate_eq (h : tree.resolve source.localPath = .ok path) : tree.locate source.localPath = .ok path := by
  rw [WordlistTree.locate, h]

/-- Whether a list is written. -/
def isChanged (sha256 : List UInt8 → String) (tree : WordlistTree) (existing : Option LockEntry)
    (download : DownloadResult) (path : String) (file : List UInt8) : Bool :=
  !(existing.any fun entry => entry.matching download.rawSha256 (sha256 file)) || (tree.files.get? path).isNone

/-- The directory afterwards. -/
def syncedTree (sha256 : List UInt8 → String) (tree : WordlistTree) (existing : Option LockEntry)
    (download : DownloadResult) (path : String) (file : List UInt8) : WordlistTree :=
  if isChanged sha256 tree existing download path file then tree.write path file else tree

/-- A sync of a source whose download is there and makes a list. -/
theorem syncSource_ok (hpath : tree.resolve source.localPath = .ok path)
    (hdownload : downloadSource intOf sha256 source reply = .ok download) {file : List UInt8} {count : ℕ}
    (hlist : normalizeDownload tables source download = .ok (file, count)) :
    syncSource tables intOf sha256 tree source existing reply now =
      .ok (⟨newEntry sha256 source existing download file count now, isChanged sha256 tree existing download path file⟩,
        syncedTree sha256 tree existing download path file) := by
  rw [syncSource, locate_eq hpath, ok_bind, hdownload, ok_bind, hlist]
  rfl

/-- What a sync that gives something has read. -/
theorem linesSplit_of_sync (hdownload : downloadSource intOf sha256 source reply = .ok download)
    {result : SyncResult × WordlistTree}
    (h : syncSource tables intOf sha256 tree source existing reply now = .ok result) :
    LinesSplit tables source (iterTextLines download.content) := by
  obtain ⟨destination, -, h⟩ := bind_ok h
  rw [hdownload, ok_bind] at h
  obtain ⟨made, hmade, -⟩ := bind_ok h
  exact linesSplit_of_ok hmade

end Sync

/-! ## The readers -/

section Readers

variable {tables : Tables} {source : CatalogSource}

theorem isSourceIdChar_range {c : Char} (h : isSourceIdChar c = true) : 45 ≤ c.toNat ∧ c.toNat ≤ 58 ∨
    95 ≤ c.toNat ∧ c.toNat ≤ 122 := by
  unfold isSourceIdChar isWordStart at h
  simp only [Bool.or_eq_true, Bool.and_eq_true, decide_eq_true_eq, List.mem_cons, List.not_mem_nil, or_false] at h
  rcases h with (⟨ha, hz⟩ | ⟨ha, hz⟩) | rfl | rfl | rfl | rfl
  · exact .inr ⟨Nat.le_trans (by decide) (UInt32.le_iff_toNat_le.mp ha), UInt32.le_iff_toNat_le.mp hz⟩
  · exact .inl ⟨Nat.le_trans (by decide) (UInt32.le_iff_toNat_le.mp ha),
      Nat.le_trans (UInt32.le_iff_toNat_le.mp hz) (by decide)⟩
  all_goals decide

/-- The id of a source is normalised already. -/
theorem sourceId_normal : strLower tables (strip source.sourceId) = source.sourceId := by
  have hok := source.sourceId_ok
  simp only [isSourceId, Bool.and_eq_true] at hok
  have hchars : ∀ c ∈ source.sourceId.toList, isSourceIdChar c = true := List.all_eq_true.mp hok.1.2
  have hspace : strip source.sourceId = source.sourceId := by
    refine strip_of_no_space fun c hc => ?_
    have hrange := isSourceIdChar_range (hchars c hc)
    unfold isSpace
    simp only [Bool.or_eq_false_iff, Bool.and_eq_false_iff, decide_eq_false_iff_not]
    omega
  rw [hspace]
  refine strLower_of_isLowered ?_ fun c hc => ?_
  · refine List.all_eq_true.mpr fun c hc => decide_eq_true ?_
    have hrange := isSourceIdChar_range (hchars c hc)
    omega
  · have hrange := isSourceIdChar_range (hchars c hc)
    exact toLower_of_not_upper (by omega)

theorem sourceId_ne : source.sourceId ≠ "" := by
  intro h
  have hok := source.sourceId_ok
  rw [h] at hok
  cases hok

theorem localPath_normal : strip source.localPath = source.localPath := by
  have hok := source.localPath_ok
  simp only [isCachePath, Bool.and_eq_true, decide_eq_true_eq] at hok
  exact hok.1.1.1

theorem localPath_ne : source.localPath ≠ "" := by
  intro h
  have hok := source.localPath_ok
  simp only [isCachePath, Bool.and_eq_true, h] at hok
  cases hok.1.1.2

theorem categoriesOf_values (categories : List CorpusCategory) :
    categoriesOf (categories.map CorpusCategory.value) = some categories := by
  induction categories with
  | nil => rfl
  | cons category categories ih =>
    rw [categoriesOf] at ih
    rw [categoriesOf, List.map_cons, List.mapM_cons, CorpusCategory.ofValue_value, ih]
    rfl

variable {sha256 : List UInt8 → String} {existing : Option LockEntry} {download : DownloadResult} {file : List UInt8}
  {count : ℕ} {now : String}

/-- The one thing a manifest has against the entry of a source. -/
theorem modelValidate_newEntry_iff :
    (∃ spec, WordlistSourceSpec.modelValidate tables (newEntry sha256 source existing download file count now) =
      .ok spec) ↔ containsText "://" (strLower tables source.localPath) = false := by
  have hid : (newEntry sha256 source existing download file count now).sourceId = source.sourceId := rfl
  have hlocal : (newEntry sha256 source existing download file count now).localPath = source.localPath := rfl
  have hcategories : categoriesOf (newEntry sha256 source existing download file count now).categories =
      some source.categories := categoriesOf_values source.categories
  have hweight : ¬ ((newEntry sha256 source existing download file count now).weight < 0 ∨
      100 < (newEntry sha256 source existing download file count now).weight) := by
    rw [not_or, not_lt, not_lt]
    exact source.weight_range
  have hmax : ¬ (newEntry sha256 source existing download file count now).maxEntries < 1 := by
    show ¬ (source.maxEntries : ℤ) < 1
    have hpos := source.maxEntries_pos
    omega
  unfold WordlistSourceSpec.modelValidate
  simp only [hid, hlocal, sourceId_normal, localPath_normal, sourceId_ne, localPath_ne, or_false, if_false,
    source.sourceId_ok, hcategories, source.categories_ne, hweight, hmax, Bool.not_true, Bool.false_eq_true]
  cases containsText "://" (strLower tables source.localPath) with
  | true =>
    refine iff_of_false ?_ (by decide)
    rintro ⟨spec, hspec⟩
    cases hspec
  | false => exact iff_of_true ⟨_, rfl⟩ rfl

/-- An entry whose file is there, with the hash of the entry. -/
theorem failureOf_eq_none {tree : WordlistTree} {entry : LockEntry} {path : String}
    (hpath : tree.resolve entry.localPath = .ok path) (hfile : tree.files.get? path = some file)
    (hhash : sha256 file = entry.normalizedSha256) : failureOf sha256 tree entry = none := by
  simp only [failureOf, hpath, hfile, hhash, ne_eq, not_true_eq_false, if_false]

theorem listsEntry_eq_true {tree : WordlistTree} {entry : LockEntry} {path : String}
    (hpath : tree.resolve entry.localPath = .ok path) (hfile : tree.files.get? path = some file)
    (hhash : sha256 file = entry.normalizedSha256) : listsEntry sha256 tree entry = .ok true := by
  simp only [listsEntry, WordlistTree.locate, hpath, hfile, hhash, ok_bind, ne_eq, not_true_eq_false, if_false]
  rfl

end Readers

/-! ## Convergence -/

section Convergence

variable (tables : Tables) (intOf : String → Option ℤ) (sha256 : List UInt8 → String) (tree : WordlistTree)
  (source : CatalogSource) (existing : Option LockEntry)

/-- The file at a path is some list, the entry has its hash, and both readers take the entry. -/
structure Installed (path : String) (file : List UInt8) (entry : LockEntry) : Prop where
  there : tree.files.get? path = some file
  hash : sha256 file = entry.normalizedSha256
  verified : failureOf sha256 tree entry = none
  listed : listsEntry sha256 tree entry = .ok true
  accepted : ∃ spec, WordlistSourceSpec.modelValidate tables entry = .ok spec

/-- What a sync is for. A second one has nothing to write, and gives the entry back as it is. -/
def Converges (reply : Reply) (now path : String) (download : DownloadResult) : Prop :=
  ∃ result synced, syncSource tables intOf sha256 tree source existing reply now = .ok (result, synced) ∧
    Installed tables sha256 synced path
      (wordlistFile (wordlist tables source (iterTextLines download.content))) result.entry ∧
    ∀ later, syncSource tables intOf sha256 synced source (some result.entry) reply later =
      .ok (⟨result.entry, false⟩, synced)

/-- A file under an entry that a download has made already is the file that was made. -/
def Unaltered (path : String) (download : DownloadResult) (file : List UInt8) : Prop :=
  ∀ old entry, tree.files.get? path = some old → existing = some entry →
    entry.matching download.rawSha256 (sha256 file) = true → old = file

variable {tables intOf sha256 tree source existing} {reply : Reply} {now later path : String}
  {download : DownloadResult} {file : List UInt8} {count : ℕ}

/-- What stands at a path after a sync. -/
theorem get?_syncedTree_iff : (syncedTree sha256 tree existing download path file).files.get? path = some file ↔
    Unaltered sha256 tree existing path download file := by
  unfold syncedTree isChanged Unaltered
  cases hfile : tree.files.get? path with
  | none =>
    refine iff_of_true ?_ fun old entry hold => ?_
    · rw [Option.isNone_none, Bool.or_true, if_pos rfl]
      exact Dict.get?_set_self ..
    · cases hold
  | some old =>
    rw [Option.isNone_some, Bool.or_false]
    cases existing with
    | none =>
      refine iff_of_true ?_ fun old entry hold hnone => ?_
      · exact Dict.get?_set_self ..
      · cases hnone
    | some entry =>
      rw [Option.any_some]
      cases hmatching : entry.matching download.rawSha256 (sha256 file) with
      | false =>
        refine iff_of_true ?_ fun old entry' hold hentry hmatch => ?_
        · exact Dict.get?_set_self ..
        · obtain rfl := Option.some.inj hentry
          rw [hmatching] at hmatch
          cases hmatch
      | true =>
        rw [Bool.not_true, if_neg Bool.false_ne_true, hfile]
        constructor
        · intro h old' entry' hold _ _
          exact (Option.some.inj hold).symm.trans (Option.some.inj h)
        · intro h
          exact congrArg some (h old entry rfl rfl hmatching)

theorem resolve_syncedTree (name : String) :
    (syncedTree sha256 tree existing download path file).resolve name = tree.resolve name := by
  unfold syncedTree
  split <;> rfl

/-- The entry that a download has made matches it. -/
theorem newEntry_matching : (newEntry sha256 source existing download file count now).matching download.rawSha256
    (sha256 file) = true := by
  rw [LockEntry.matching, Bool.and_eq_true, decide_eq_true_eq, decide_eq_true_eq]
  exact ⟨rfl, rfl⟩

/-- And it is made again. -/
theorem newEntry_again : newEntry sha256 source (some (newEntry sha256 source existing download file count now)) download
    file count later = newEntry sha256 source existing download file count now := by
  have hfilter : Option.filter (fun entry => entry.matching download.rawSha256 (sha256 file))
      (some (newEntry sha256 source existing download file count now)) =
        some (newEntry sha256 source existing download file count now) := Option.filter_some_pos newEntry_matching
  rw [newEntry, hfilter]
  rfl

theorem isChanged_again (h : tree.files.get? path = some file) :
    isChanged sha256 tree (some (newEntry sha256 source existing download file count now)) download path file = false := by
  rw [isChanged, Option.any_some, newEntry_matching, h]
  rfl

theorem syncedTree_again (h : tree.files.get? path = some file) :
    syncedTree sha256 tree (some (newEntry sha256 source existing download file count now)) download path file = tree := by
  rw [syncedTree, isChanged_again h]
  rfl

/-- **When a sync converges.** -/
theorem sync_converges_iff (hpath : tree.resolve source.localPath = .ok path)
    (hdownload : downloadSource intOf sha256 source reply = .ok download)
    (htokens : usableTokens tables source (iterTextLines download.content) ≠ []) :
    Converges tables intOf sha256 tree source existing reply now path download ↔
      LinesSplit tables source (iterTextLines download.content) ∧ Unaltered sha256 tree existing path download
        (wordlistFile (wordlist tables source (iterTextLines download.content))) ∧
      containsText "://" (strLower tables source.localPath) = false := by
  constructor
  · rintro ⟨result, synced, hsync, hinstalled, -⟩
    have hlines := linesSplit_of_sync hdownload hsync
    rw [syncSource_ok hpath hdownload (normalizeDownload_eq htokens hlines)] at hsync
    obtain ⟨rfl, rfl⟩ := Prod.mk.inj (Except.ok.inj hsync)
    exact ⟨hlines, get?_syncedTree_iff.mp hinstalled.there, modelValidate_newEntry_iff.mp hinstalled.accepted⟩
  · rintro ⟨hlines, hfile, hlocal⟩
    have hlist := normalizeDownload_eq htokens hlines
    have hthere := get?_syncedTree_iff.mpr hfile
    have hresolved : (syncedTree sha256 tree existing download path
        (wordlistFile (wordlist tables source (iterTextLines download.content)))).resolve source.localPath = .ok path :=
      (resolve_syncedTree source.localPath).trans hpath
    refine ⟨_, _, syncSource_ok hpath hdownload hlist, ?_, fun later => ?_⟩
    · exact ⟨hthere, rfl, failureOf_eq_none hresolved hthere rfl, listsEntry_eq_true hresolved hthere rfl,
        modelValidate_newEntry_iff.mpr hlocal⟩
    · rw [syncSource_ok hresolved hdownload hlist, newEntry_again, isChanged_again hthere, syncedTree_again hthere]

/-! ## A list that was altered -/

theorem words_weight : (0 : ℚ) ≤ 1 ∧ (1 : ℚ) ≤ 100 := by decide +kernel

theorem words_maxBytes : 1024 ≤ 1024 := Nat.le_refl 1024

theorem words_maxEntries : 1 ≤ 10 := by decide

def teamWords : CatalogSource where
  sourceId := "team.words"
  url := "https://lists.test/words.txt"
  localPath := "cache/team/words.txt"
  categories := [.general]
  transform := .words
  weight := 1
  maxBytes := 1024
  maxEntries := 10
  expectedSha256 := none
  license := none
  upstream := none
  sourceId_ok := by decide +kernel
  localPath_ok := by decide +kernel
  categories_ne := by decide
  weight_range := words_weight
  maxBytes_ge := words_maxBytes
  maxEntries_pos := words_maxEntries

/-- A digest that tells all files apart. -/
def byteText (bytes : List UInt8) : String := String.ofList (bytes.map fun b => Char.ofNat b.toNat)

/-- Names lead to files of the directory. -/
def teamTree (files : Dict String (List UInt8)) : WordlistTree := ⟨fun name => .ok ("/srv/wordlists/" ++ name), files⟩

def teamPath : String := "/srv/wordlists/cache/team/words.txt"

def teamReply : Reply := .answered none (utf8Encode "api\nportal\n".toList)

def teamDownload : DownloadResult :=
  ⟨byteText (utf8Encode "api\nportal\n".toList), 11, utf8Encode "api\nportal\n".toList⟩

def teamEntry : LockEntry :=
  newEntry byteText teamWords none teamDownload (wordlistFile ["api", "portal"]) 2 "2026-08-19T00:00:00+00:00"

/-- A source that is synced for the first time. -/
theorem first_sync_converges_iff :
    Converges plainTables (fun _ => none) byteText (teamTree .empty) teamWords none teamReply "2026-08-19T00:00:00+00:00"
        teamPath teamDownload ↔ LinesSplit plainTables teamWords (iterTextLines teamDownload.content) ∧
      Unaltered byteText (teamTree .empty) none teamPath teamDownload
        (wordlistFile (wordlist plainTables teamWords (iterTextLines teamDownload.content))) ∧
      containsText "://" (strLower plainTables teamWords.localPath) = false :=
  sync_converges_iff (by decide +kernel) rfl (by decide +kernel)

/-- The file lost a word, and the next sync of the same download does not put it back. -/
theorem altered_list_stays : (teamTree .empty).resolve teamWords.localPath = .ok teamPath ∧
      downloadSource (fun _ => none) byteText teamWords teamReply = .ok teamDownload ∧
      usableTokens plainTables teamWords (iterTextLines teamDownload.content) ≠ [] ∧
      ¬ Converges plainTables (fun _ => none) byteText (teamTree (Dict.empty.set teamPath (wordlistFile ["api"])))
        teamWords (some teamEntry) teamReply "2026-08-20T00:00:00+00:00" teamPath teamDownload := by
  have htokens : usableTokens plainTables teamWords (iterTextLines teamDownload.content) ≠ [] := by decide +kernel
  refine ⟨rfl, rfl, htokens, ?_⟩
  rintro ⟨result, synced, hsync, hinstalled, -⟩
  have hdownload : downloadSource (fun _ => none) byteText teamWords teamReply = .ok teamDownload := rfl
  have hlist := normalizeDownload_eq htokens (linesSplit_of_sync hdownload hsync)
  rw [syncSource_ok rfl hdownload hlist] at hsync
  obtain ⟨rfl, rfl⟩ := Prod.mk.inj (Except.ok.inj hsync)
  have hsame := get?_syncedTree_iff.mp hinstalled.there (wordlistFile ["api"]) teamEntry rfl rfl (by decide +kernel)
  revert hsame
  decide +kernel

end Convergence

end NightScout
