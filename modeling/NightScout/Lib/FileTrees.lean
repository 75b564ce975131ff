import Mathlib.Data.List.Infix
import NightScout.Lib.Dict

/-!
# A tree of files

What a directory holds, by the names that lead to it, and what `mkdir` with its parents, the exclusive creation of a
file and an append to it do there. What the platform accepts as a path (its names are not too long) is a parameter.

Nothing of this makes a link, and in a tree without links a path leads where it says (`resolve_eq`). An entry that is
there stays what it is, but for what is appended to a file.
-/

namespace NightScout.Lib

/-- A link leads to a place in the same tree, or out of it. -/
inductive FileEntry where
  | directory
  | file (content : List UInt8)
  | symlink (target : Option (List String))
  deriving DecidableEq

/-- What is below the root, which is a directory. -/
abbrev FileTree := Dict (List String) FileEntry

inductive FsError where
  | fileExistsError | fileNotFoundError | notADirectoryError | nameTooLong
  deriving DecidableEq, Repr

def FileEntry.size : FileEntry → ℕ
  | .file content => content.length
  | _ => 0

namespace FileTree

variable (accepts : List String → Bool) (tree : FileTree)

/-! ## Operations -/

/-- The first link on a path: where it leads to, and the rest of the path. -/
def firstLink : List String → List String → Option (Option (List String) × List String)
  | _, [] => none
  | done, name :: rest =>
    match tree.get? (done ++ [name]) with
    | some (.symlink target) => some (target, rest)
    | _ => firstLink (done ++ [name]) rest

/-- The path with its links followed, at most so many; `none` if it leads out of the tree. -/
def resolve : ℕ → List String → Option (List String)
  | links, path =>
    match firstLink tree [] path with
    | none => some path
    | some (none, _) => none
    | some (some target, rest) =>
      match links with
      | 0 => some path
      | links + 1 => resolve links (target ++ rest)

/-- The path and the directories above it, from the root on. -/
def upTo (path : List String) : List (List String) := path.inits.filter (· ≠ [])

/-- Each of these is made a directory, if it is none. -/
def makeEach (path : List String) : List (List String) → FileTree → Except FsError Unit × FileTree
  | [], tree => (.ok (), tree)
  | next :: rest, tree =>
    match tree.get? next with
    | some .directory => makeEach path rest tree
    | some _ => (.error (if next = path then .fileExistsError else .notADirectoryError), tree)
    | none =>
      if accepts next = true then makeEach path rest (tree.set next .directory) else (.error .nameTooLong, tree)

/-- `mkdir(parents=True, exist_ok=True)`. -/
def makeDirs (path : List String) : Except FsError Unit × FileTree := makeEach accepts path (upTo path) tree

/-- `open("xb")`. -/
def createFile (path : List String) : Except FsError FileTree :=
  if path = [] then .error .fileExistsError
  else if path.dropLast ≠ [] ∧ tree.get? path.dropLast ≠ some .directory then .error .fileNotFoundError
  else
    match tree.get? path with
    | some _ => .error .fileExistsError
    | none => if accepts path = true then .ok (tree.set path (.file [])) else .error .nameTooLong

def append (path : List String) (chunk : List UInt8) : FileTree :=
  match tree.get? path with
  | some (.file content) => tree.set path (.file (content ++ chunk))
  | _ => tree

/-! ## What they do -/

variable {accepts tree} {path q : List String} {paths : List (List String)}

theorem mem_upTo : q ∈ upTo path ↔ q ≠ [] ∧ q <+: path := by
  rw [upTo, List.mem_filter, List.mem_inits, decide_eq_true_eq, and_comm]

/-- A directory, or what can be made one. -/
def CanBeDir (accepts : List String → Bool) (tree : FileTree) (q : List String) : Prop :=
  tree.get? q = some .directory ∨ tree.get? q = none ∧ accepts q = true

theorem CanBeDir.set {next : List String} (h : CanBeDir accepts tree q) :
    CanBeDir accepts (tree.set next .directory) q := by
  unfold CanBeDir
  rw [Dict.get?_set]
  split
  · exact .inl rfl
  · exact h

/-- What was there stays, and what is new is a directory on the way. -/
theorem makeEach_get? : ∀ q, (makeEach accepts path paths tree).2.get? q = tree.get? q ∨
    tree.get? q = none ∧ q ∈ paths ∧ accepts q = true ∧
      (makeEach accepts path paths tree).2.get? q = some .directory := by
  induction paths generalizing tree with
  | nil => exact fun q => .inl rfl
  | cons next rest ih =>
    intro q
    unfold makeEach
    split
    next =>
      rcases ih q with h | ⟨hnone, hq, haccepts, hdirectory⟩
      · exact .inl h
      · exact .inr ⟨hnone, List.mem_cons_of_mem _ hq, haccepts, hdirectory⟩
    next => exact .inl rfl
    next hnext =>
      split
      next haccepts =>
        by_cases hq : q = next
        · subst hq
          refine .inr ⟨hnext, List.mem_cons_self, haccepts, ?_⟩
          rcases @ih (tree.set q .directory) q with h | ⟨hnone, -⟩
          · rw [h, Dict.get?_set_self]
          · rw [Dict.get?_set_self] at hnone
            cases hnone
        · rcases @ih (tree.set next .directory) q with h | ⟨hnone, hmem, hrest⟩
          · rw [h, Dict.get?_set_ne _ _ hq]
            exact .inl rfl
          · rw [Dict.get?_set_ne _ _ hq] at hnone
            exact .inr ⟨hnone, List.mem_cons_of_mem _ hmem, hrest⟩
      next => exact .inl rfl

/-- It ends exactly if each of them can be a directory, and then each is. -/
theorem makeEach_ok_iff : (makeEach accepts path paths tree).1 = .ok () ↔ ∀ q ∈ paths, CanBeDir accepts tree q := by
  induction paths generalizing tree with
  | nil => exact iff_of_true rfl fun q hq => by cases hq
  | cons next rest ih =>
    rw [List.forall_mem_cons]
    unfold makeEach
    split
    next hnext => rw [ih, and_iff_right (.inl hnext)]
    next entry hne hentry =>
      refine iff_of_false (fun h => by cases h) fun h => ?_
      rcases h.1 with hdirectory | ⟨hnone, -⟩
      · rw [hentry] at hdirectory
        exact hne (Option.some.inj hdirectory)
      · rw [hentry] at hnone
        cases hnone
    next hnone =>
      split
      next haccepts =>
        rw [ih, and_iff_right (.inr ⟨hnone, haccepts⟩)]
        constructor
        · intro h q hq
          have hset := h q hq
          unfold CanBeDir at hset
          rw [Dict.get?_set] at hset
          split at hset
          next heq =>
            rw [heq]
            exact .inr ⟨hnone, haccepts⟩
          next => exact hset
        · exact fun h q hq => (h q hq).set
      next hrefused =>
        refine iff_of_false (fun h => by cases h) fun h => ?_
        rcases h.1 with hdirectory | ⟨-, haccepts⟩
        · rw [hnone] at hdirectory
          cases hdirectory
        · exact hrefused haccepts

theorem makeEach_directory (h : (makeEach accepts path paths tree).1 = .ok ()) (hq : q ∈ paths) :
    (makeEach accepts path paths tree).2.get? q = some .directory := by
  induction paths generalizing tree with
  | nil => cases hq
  | cons next rest ih =>
    have hkept : ∀ tree : FileTree, tree.get? next = some .directory →
        (makeEach accepts path rest tree).2.get? next = some .directory := by
      intro tree hnext
      rcases @makeEach_get? accepts tree path rest next with hold | ⟨hnone, -⟩
      · rw [hold, hnext]
      · rw [hnext] at hnone
        cases hnone
    unfold makeEach at h ⊢
    split at h
    next hnext =>
      rcases List.mem_cons.mp hq with rfl | hq
      · exact hkept tree hnext
      · exact ih h hq
    next => cases h
    next hnext =>
      split at h
      next haccepts =>
        rw [if_pos haccepts]
        rcases List.mem_cons.mp hq with rfl | hq
        · exact hkept _ (Dict.get?_set_self _ _ _)
        · exact ih h hq
      next => cases h

theorem makeDirs_get? (q : List String) : (makeDirs accepts tree path).2.get? q = tree.get? q ∨
    tree.get? q = none ∧ (q ≠ [] ∧ q <+: path) ∧ accepts q = true ∧
      (makeDirs accepts tree path).2.get? q = some .directory := by
  rcases @makeEach_get? accepts tree path (upTo path) q with h | ⟨hnone, hmem, haccepts, hdirectory⟩
  · exact .inl h
  · exact .inr ⟨hnone, mem_upTo.mp hmem, haccepts, hdirectory⟩

theorem makeDirs_ok_iff : (makeDirs accepts tree path).1 = .ok () ↔ ∀ q ≠ [], q <+: path → CanBeDir accepts tree q := by
  unfold makeDirs
  rw [makeEach_ok_iff]
  constructor
  · exact fun h q hne hq => h q (mem_upTo.mpr ⟨hne, hq⟩)
  · intro h q hq
    obtain ⟨hne, hq⟩ := mem_upTo.mp hq
    exact h q hne hq

theorem makeDirs_directory (h : (makeDirs accepts tree path).1 = .ok ()) (hne : q ≠ []) (hq : q <+: path) :
    (makeDirs accepts tree path).2.get? q = some .directory :=
  makeEach_directory h (mem_upTo.mpr ⟨hne, hq⟩)

/-! ## How much there is -/

/-- The bytes of all files. -/
def bytes (tree : FileTree) : ℕ := tree.sumBy fun _ entry => entry.size

theorem bytes_set {entry : FileEntry} (h : tree.get? path = none) :
    bytes (tree.set path entry) = bytes tree + entry.size := Dict.sumBy_set_none h

theorem bytes_makeEach : bytes (makeEach accepts path paths tree).2 = bytes tree := by
  induction paths generalizing tree with
  | nil => rfl
  | cons next rest ih =>
    unfold makeEach
    split
    next => exact ih
    next => rfl
    next hnext =>
      split
      next =>
        rw [ih, bytes_set hnext]
        rfl
      next => rfl

theorem bytes_makeDirs : bytes (makeDirs accepts tree path).2 = bytes tree := bytes_makeEach

/-! ## Trees without links -/

def NoLinks (tree : FileTree) : Prop := ∀ path target, tree.get? path ≠ some (.symlink target)

theorem NoLinks.empty : NoLinks .empty := fun _ _ h => by cases h

theorem NoLinks.set (h : NoLinks tree) {entry : FileEntry} (hentry : ∀ target, entry ≠ .symlink target) :
    NoLinks (tree.set path entry) := by
  intro q target hq
  rw [Dict.get?_set] at hq
  split at hq
  · exact hentry target (Option.some.inj hq)
  · exact h q target hq

theorem NoLinks.makeDirs (h : NoLinks tree) : NoLinks (makeDirs accepts tree path).2 := by
  intro q target hq
  rcases @makeDirs_get? accepts tree path q with hold | ⟨-, -, -, hdirectory⟩
  · rw [hold] at hq
    exact h q target hq
  · rw [hdirectory] at hq
    cases hq

theorem firstLink_eq_none (h : NoLinks tree) (done rest : List String) : firstLink tree done rest = none := by
  induction rest generalizing done with
  | nil => rfl
  | cons name rest ih =>
    unfold firstLink
    split
    next target hlink => exact absurd hlink (h _ target)
    next => exact ih _

/-- Without links a path leads where it says. -/
theorem resolve_eq (h : NoLinks tree) (links : ℕ) (path : List String) : resolve tree links path = some path := by
  unfold resolve
  rw [firstLink_eq_none h]

/-! ## Creating a file -/

theorem createFile_ok_iff {tree' : FileTree} (hparent : path.dropLast ≠ [] → tree.get? path.dropLast = some .directory) :
    createFile accepts tree path = .ok tree' ↔
      path ≠ [] ∧ tree.get? path = none ∧ accepts path = true ∧ tree' = tree.set path (.file []) := by
  have hnot : ¬ (path.dropLast ≠ [] ∧ tree.get? path.dropLast ≠ some .directory) :=
    fun h => h.2 (hparent h.1)
  unfold createFile
  rw [if_neg hnot]
  by_cases hpath : path = []
  · simp [hpath]
  rw [if_neg hpath]
  cases hget : tree.get? path with
  | some entry => simp
  | none =>
    by_cases haccepts : accepts path = true
    · simp [hpath, haccepts, eq_comm]
    · simp [haccepts]

theorem append_file {content : List UInt8} (h : tree.get? path = some (.file content)) (chunk : List UInt8) :
    append tree path chunk = tree.set path (.file (content ++ chunk)) := by
  rw [append, h]

end FileTree

end NightScout.Lib
