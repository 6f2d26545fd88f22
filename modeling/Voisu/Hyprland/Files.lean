import Mathlib.Data.List.Infix
import Voisu.Hyprland.Managed
import Voisu.Lib.Substrings

/-!
# The files of an install

`LocalBindingFileSystem` over a tree of directory entries.

* `Tree`          files, directories and symbolic links;
* `createDirAll`  the missing directories, from the outermost on;
* `writeAtomic`   a file, replaced as a whole;
* `removeFile`    the undo of a file that was not there;
* `Kept`          an entry that is as it was, or a directory that was missing;
* `writeAtomic_ok_iff`, `writeAtomic_kept`   **when a write succeeds, and what it leaves alone.**
-/

namespace Voisu.Hyprland
open Lib

/-! ## the tree -/

/-- the names from the root directory on; the directories are named by their own names, not by those of
links to them -/
abbrev Path := List Text

/-- a chain of links is one link to its end -/
inductive Entry where
  | file (text : Text)
  | directory
  | link (target : Path)
deriving DecidableEq, Repr

abbrev Tree := Path → Option Entry

def Tree.set (tree : Tree) (path : Path) (entry : Option Entry) : Tree :=
  fun p => if p = path then entry else tree p

@[simp] theorem Tree.set_self (tree : Tree) (path : Path) (entry : Option Entry) :
    tree.set path entry path = entry := if_pos rfl

theorem Tree.set_ne (tree : Tree) {path p : Path} (entry : Option Entry) (h : p ≠ path) :
    tree.set path entry p = tree p := if_neg h

/-- `read_to_string`, which follows a link; a missing file and a directory have no text -/
def Tree.read (tree : Tree) (path : Path) : Option Text :=
  match tree path with
  | some (.file text) => some text
  | some (.link target) =>
    match tree target with
    | some (.file text) => some text
    | _ => none
  | _ => none

def withFileName (path : Path) (name : Text) : Path := path.dropLast ++ [name]

def backupPath (path : Path) : Path :=
  withFileName path
    (['.'] ++ path.getLast?.getD "hyprland.lua".toList ++ ".voisu-backup".toList)

/-- the directories that lead to a file, the outermost first -/
def above (path : Path) : List Path := path.dropLast.inits.tail

/-! ## errors -/

def restoreFailure : Text := "; automatic restore failed: ".toList

/-- an error of a file operation, which does not speak of a restore -/
structure OsError where
  text : Text
  plain : contains text restoreFailure = false

def noParent : OsError := ⟨"configuration path has no parent".toList, by decide⟩
def linkRefusal : OsError := ⟨"refusing to replace a symbolic link".toList, by decide⟩
def isADirectory : OsError := ⟨"Is a directory (os error 21)".toList, by decide⟩
def notADirectory : OsError := ⟨"Not a directory (os error 20)".toList, by decide⟩
def fileExists : OsError := ⟨"File exists (os error 17)".toList, by decide⟩

/-! ## operations -/

/-- what is in the way of a directory; below a file nothing can be made -/
def blocked (tree : Tree) (dir : Path) (innermost : Bool) : OsError :=
  if !innermost && (tree.read dir).isSome then notADirectory else fileExists

/-- `failure` are the errors of the single directories; those that were made before one stay -/
def createDirAll (failure : Path → Option OsError) (tree : Tree) :
    List Path → Tree × Except OsError Unit
  | [] => (tree, .ok ())
  | dir :: dirs =>
    match tree dir with
    | some .directory => createDirAll failure tree dirs
    | some (.file _) | some (.link _) => (tree, .error (blocked tree dir dirs.isEmpty))
    | none =>
      match failure dir with
      | some detail => (tree, .error detail)
      | none => createDirAll failure (tree.set dir (some .directory)) dirs

/-- an error may come before or after the file was replaced -/
inductive Replacement where
  | done
  | failsBefore (detail : OsError)
  | failsAfter (detail : OsError)

/-- the failures of one write -/
structure WriteOutcome where
  directories : Path → Option OsError
  replacement : Replacement

def replaceFile (tree : Tree) (path : Path) (contents : Text) (replacement : Replacement) :
    Tree × Except OsError Unit :=
  match replacement, tree path with
  | .failsBefore detail, _ => (tree, .error detail)
  | _, some (.link _) => (tree, .error linkRefusal)
  | _, some .directory => (tree, .error isADirectory)
  | .done, _ => (tree.set path (some (.file contents)), .ok ())
  | .failsAfter detail, _ => (tree.set path (some (.file contents)), .error detail)

def writeAtomic (tree : Tree) (path : Path) (contents : Text) (outcome : WriteOutcome) :
    Tree × Except OsError Unit :=
  if path = [] then (tree, .error noParent)
  else
    match createDirAll outcome.directories tree (above path) with
    | (made, .error detail) => (made, .error detail)
    | (made, .ok ()) => replaceFile made path contents outcome.replacement

/-- `failure` is an error of the removal itself -/
def removeFile (tree : Tree) (path : Path) (failure : Option OsError) : Tree × Except OsError Unit :=
  match failure, tree path with
  | some detail, _ => (tree, .error detail)
  | none, some .directory => (tree, .error isADirectory)
  | none, _ => (tree.set path none, .ok ())

/-! ## paths -/

theorem backupPath_ne (path : Path) : backupPath path ≠ path := by
  intro h
  have hlast := congrArg List.getLast? h
  rw [backupPath, withFileName, List.getLast?_concat] at hlast
  cases hpath : path.getLast? with
  | none => rw [hpath] at hlast; cases hlast
  | some name =>
    rw [hpath, Option.getD_some] at hlast
    have hlen := congrArg List.length (Option.some.inj hlast)
    simp at hlen
    omega

/-- the backup stands beside the file -/
theorem above_backupPath (path : Path) : above (backupPath path) = above path := by
  rw [above, above, backupPath, withFileName, List.dropLast_concat]

theorem length_of_mem_above {path dir : Path} (h : dir ∈ above path) :
    dir.length < path.length := by
  rw [above] at h
  cases hpath : path with
  | nil =>
    rw [hpath] at h
    cases h
  | cons name names =>
    have hprefix := (List.mem_inits dir _).mp (List.mem_of_mem_tail h)
    have hle := hprefix.length_le
    rw [List.length_dropLast, hpath] at hle
    exact Nat.lt_of_le_of_lt hle (Nat.lt_succ_self _)

theorem notMem_above (path : Path) : path ∉ above path :=
  fun h => Nat.lt_irrefl _ (length_of_mem_above h)

theorem backupPath_notMem_above (path : Path) : backupPath path ∉ above path := by
  rw [← above_backupPath]
  exact notMem_above _

/-! ## what an operation leaves alone -/

section
variable {tree made written restored : Tree} {path p : Path} {contents : Text}

/-- an entry that is as it was, or one of the directories, which was missing -/
def Kept (dirs : List Path) (tree made : Tree) (p : Path) : Prop :=
  made p = tree p ∨ (p ∈ dirs ∧ tree p = none ∧ made p = some .directory)

theorem Kept.refl (dirs : List Path) (tree : Tree) (p : Path) : Kept dirs tree tree p := .inl rfl

theorem Kept.trans {dirs : List Path} (h : Kept dirs tree made p) (h' : Kept dirs made written p) :
    Kept dirs tree written p := by
  rcases h' with hsame | ⟨hmem, hnone, hdir⟩
  · rw [Kept, hsame]
    exact h
  · rcases h with hsame | ⟨-, -, hmade⟩
    · exact .inr ⟨hmem, hsame ▸ hnone, hdir⟩
    · rw [hnone] at hmade
      cases hmade

theorem Kept.eq_of_notMem {dirs : List Path} (h : Kept dirs tree made p) (hp : p ∉ dirs) :
    made p = tree p := h.resolve_right fun h => hp h.1

theorem createDirAll_kept (failure : Path → Option OsError) (tree : Tree) (dirs : List Path)
    (p : Path) : Kept dirs tree (createDirAll failure tree dirs).1 p := by
  have hcons {dir : Path} {dirs : List Path} {tree made : Tree} (h : Kept dirs tree made p) :
      Kept (dir :: dirs) tree made p :=
    h.imp_right fun ⟨hmem, h⟩ => ⟨List.mem_cons_of_mem _ hmem, h⟩
  fun_induction createDirAll failure tree dirs with
  | case1 tree => exact .refl _ _ _
  | case2 tree dir dirs _ ih => exact hcons ih
  | case3 | case4 | case5 => exact .refl _ _ _
  | case6 tree dir dirs hnone _ ih =>
    refine Kept.trans ?_ (hcons ih)
    by_cases hp : p = dir
    · subst hp
      exact .inr ⟨List.mem_cons_self, hnone, Tree.set_self ..⟩
    · exact .inl (Tree.set_ne _ _ hp)

/-- every directory is there, or it can be made -/
theorem createDirAll_ok_iff (failure : Path → Option OsError) (tree : Tree) (dirs : List Path) :
    (createDirAll failure tree dirs).2 = .ok () ↔
      ∀ dir ∈ dirs, tree dir = some .directory ∨ (tree dir = none ∧ failure dir = none) := by
  fun_induction createDirAll failure tree dirs with
  | case1 tree => exact ⟨fun _ => nofun, fun _ => rfl⟩
  | case2 tree dir dirs hdir ih =>
    rw [ih, List.forall_mem_cons]
    exact ⟨fun h => ⟨.inl hdir, h⟩, And.right⟩
  | case3 tree dir dirs text hdir | case4 tree dir dirs target hdir =>
    refine ⟨nofun, fun h => ?_⟩
    have := h dir List.mem_cons_self
    rw [hdir] at this
    rcases this with h | ⟨h, -⟩ <;> cases h
  | case5 tree dir dirs hnone detail hfailure =>
    refine ⟨nofun, fun h => ?_⟩
    have := h dir List.mem_cons_self
    rw [hnone, hfailure] at this
    rcases this with h | ⟨-, h⟩ <;> cases h
  | case6 tree dir dirs hnone hfailure ih =>
    rw [ih, List.forall_mem_cons]
    have hother (d : Path) : (tree.set dir (some .directory) d = some .directory ∨
        (tree.set dir (some .directory) d = none ∧ failure d = none)) ↔
        (tree d = some .directory ∨ (tree d = none ∧ failure d = none)) := by
      by_cases hd : d = dir
      · subst hd
        rw [Tree.set_self]
        exact ⟨fun _ => .inr ⟨hnone, hfailure⟩, fun _ => .inl rfl⟩
      · rw [Tree.set_ne _ _ hd]
    simp only [hother]
    exact ⟨fun h => ⟨.inr ⟨hnone, hfailure⟩, h⟩, And.right⟩

/-- a file can be put there: nothing is there, or a file -/
def isReplaceable : Option Entry → Bool
  | none | some (.file _) => true
  | some .directory | some (.link _) => false

theorem replaceFile_frame (tree : Tree) (path : Path) (contents : Text) (replacement : Replacement)
    (hp : p ≠ path) : (replaceFile tree path contents replacement).1 p = tree p := by
  unfold replaceFile
  split
  · rfl
  · rfl
  · rfl
  · exact Tree.set_ne _ _ hp
  · exact Tree.set_ne _ _ hp

/-- the file holds the text, or it is as it was -/
theorem replaceFile_self (tree : Tree) (path : Path) (contents : Text) (replacement : Replacement) :
    (replaceFile tree path contents replacement).1 path = tree path ∧
        (replaceFile tree path contents replacement).2 ≠ .ok () ∨
      isReplaceable (tree path) = true ∧
        (replaceFile tree path contents replacement).1 path = some (.file contents) := by
  unfold replaceFile
  cases htree : tree path with
  | none =>
    cases replacement with
    | done | failsAfter => exact .inr ⟨rfl, Tree.set_self ..⟩
    | failsBefore => exact .inl ⟨htree, nofun⟩
  | some entry =>
    cases entry with
    | file text =>
      cases replacement with
      | done | failsAfter => exact .inr ⟨rfl, Tree.set_self ..⟩
      | failsBefore => exact .inl ⟨htree, nofun⟩
    | directory | link =>
      cases replacement with
      | done | failsAfter | failsBefore => exact .inl ⟨htree, nofun⟩

theorem replaceFile_ok_iff (tree : Tree) (path : Path) (contents : Text)
    (replacement : Replacement) : (replaceFile tree path contents replacement).2 = .ok () ↔
      isReplaceable (tree path) = true ∧ replacement = .done := by
  unfold replaceFile
  cases htree : tree path with
  | none => cases replacement <;> simp [isReplaceable]
  | some entry => cases entry <;> cases replacement <;> simp [isReplaceable]

/-- a write leaves everything else alone but the directories on the way -/
theorem writeAtomic_kept (tree : Tree) (path : Path) (contents : Text) (outcome : WriteOutcome)
    (hp : p ≠ path) : Kept (above path) tree (writeAtomic tree path contents outcome).1 p := by
  have hmade := createDirAll_kept outcome.directories tree (above path) p
  unfold writeAtomic
  split
  · exact .refl _ _ _
  · split
    · rename_i made detail h
      rw [h] at hmade
      exact hmade
    · rename_i made h
      rw [h] at hmade
      exact hmade.trans (.inl (replaceFile_frame _ _ _ _ hp))

/-- the file holds the text, or it is as it was and the write failed -/
theorem writeAtomic_self (tree : Tree) (path : Path) (contents : Text) (outcome : WriteOutcome) :
    (writeAtomic tree path contents outcome).1 path = tree path ∧
        (writeAtomic tree path contents outcome).2 ≠ .ok () ∨
      isReplaceable (tree path) = true ∧
        (writeAtomic tree path contents outcome).1 path = some (.file contents) := by
  have hmade := (createDirAll_kept outcome.directories tree (above path) path).eq_of_notMem
    (notMem_above path)
  unfold writeAtomic
  split
  · exact .inl ⟨rfl, nofun⟩
  · split
    · rename_i made detail h
      rw [h] at hmade
      exact .inl ⟨hmade, nofun⟩
    · rename_i made h
      rw [h] at hmade
      have hself := replaceFile_self made path contents outcome.replacement
      rwa [show made path = tree path from hmade] at hself

/-- nothing is in the way of a write, and nothing fails -/
structure Writable (tree : Tree) (path : Path) (outcome : WriteOutcome) : Prop where
  named : path ≠ []
  directories : ∀ dir ∈ above path, tree dir = some .directory ∨
    (tree dir = none ∧ outcome.directories dir = none)
  entry : isReplaceable (tree path) = true
  done : outcome.replacement = .done

theorem writeAtomic_ok_iff (tree : Tree) (path : Path) (contents : Text) (outcome : WriteOutcome) :
    (writeAtomic tree path contents outcome).2 = .ok () ↔ Writable tree path outcome := by
  have hmade := (createDirAll_kept outcome.directories tree (above path) path).eq_of_notMem
    (notMem_above path)
  have hdirs := createDirAll_ok_iff outcome.directories tree (above path)
  unfold writeAtomic
  split
  · rename_i hnil
    exact ⟨nofun, fun h => absurd hnil h.named⟩
  · rename_i hnamed
    split
    · rename_i made detail h
      rw [h] at hdirs
      exact ⟨nofun, fun hw => nomatch hdirs.mpr hw.directories⟩
    · rename_i made h
      rw [h] at hmade hdirs
      rw [replaceFile_ok_iff, show made path = tree path from hmade]
      exact ⟨fun hok => ⟨hnamed, hdirs.mp rfl, hok.1, hok.2⟩, fun hw => ⟨hw.entry, hw.done⟩⟩

/-- a link is refused -/
theorem writeAtomic_link {target : Path} (h : tree path = some (.link target))
    (contents : Text) (outcome : WriteOutcome) :
    ∃ detail, (writeAtomic tree path contents outcome).2 = .error detail ∧
      (writeAtomic tree path contents outcome).1 path = some (.link target) := by
  rcases writeAtomic_self tree path contents outcome with ⟨hsame, hfails⟩ | ⟨hreplace, -⟩
  · cases hresult : (writeAtomic tree path contents outcome).2 with
    | ok => exact absurd hresult hfails
    | error detail => exact ⟨detail, rfl, hsame.trans h⟩
  · rw [h] at hreplace
    cases hreplace

theorem removeFile_frame (tree : Tree) (path : Path) (failure : Option OsError) (hp : p ≠ path) :
    (removeFile tree path failure).1 p = tree p := by
  unfold removeFile
  split
  · rfl
  · rfl
  · exact Tree.set_ne _ _ hp

theorem removeFile_ok_iff (tree : Tree) (path : Path) (failure : Option OsError) :
    (removeFile tree path failure).2 = .ok () ↔
      failure = none ∧ tree path ≠ some .directory := by
  unfold removeFile
  split
  · exact ⟨nofun, fun h => nomatch h.1⟩
  · rename_i hdir
    exact ⟨nofun, fun h => absurd hdir h.2⟩
  · rename_i hdir
    exact ⟨fun _ => ⟨rfl, hdir⟩, fun _ => rfl⟩

theorem removeFile_removes {failure : Option OsError}
    (h : (removeFile tree path failure).2 = .ok ()) : (removeFile tree path failure).1 path = none := by
  obtain ⟨rfl, hdir⟩ := (removeFile_ok_iff tree path failure).mp h
  unfold removeFile
  split
  · rename_i hfailure
    cases hfailure
  · rename_i hentry
    exact absurd hentry hdir
  · exact Tree.set_self ..

end

end Voisu.Hyprland
