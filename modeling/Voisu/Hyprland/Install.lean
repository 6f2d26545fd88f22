import Voisu.Hyprland.Planning

/-!
# Installing the Trigger Key

`install_trigger_binding` with the local file system: backup, root file, reload, verification, and
the way back.

* `World`                  the failures of one run and the answers of the compositor;
* `installTriggerBinding`  the run, planned from the files of the tree;
* `Atomic`                 a failed install leaves everything but the backup as it was, a successful
                           one leaves the planned text, reloaded and verified;
* `LinkRemoved`            the root is a link to no file, and the undo of its write removes it;
* `atomic_iff`             **a run is atomic unless it removes a link.**
-/

namespace Voisu.Hyprland
open Lib

/-! ## the run -/

inductive TriggerBindingError where
  | file (action : String) (path : Path) (detail : Text)
  | conflicts (conflicts : List BindingConflict)
  | unparseable (detail : String)
  | reloadFailed (detail : Text) (backupPath : Path) (restoreError : Option Text)
  | verificationFailed (detail : Text) (backupPath : Path) (restoreError : Option Text)
deriving DecidableEq, Repr

structure TriggerBindingInstallReport where
  key : TriggerKey
  changed : Bool
  backupPath : Path
deriving DecidableEq, Repr

/-- the failures of one run and the answers of the compositor; a read that fails ends the walk that it
is part of, over the bindings or over the keyboard options -/
structure World where
  readRoot : Except Text Unit
  planningRead : Except String Unit
  readInput : Except Text Unit
  optionsRead : Except String Unit
  backupWrite : WriteOutcome
  rootWrite : WriteOutcome
  restoreWrite : WriteOutcome
  removal : Option OsError
  reload : Except Text Unit
  verify : Except Text Bool
  restoreReload : Except Text Unit

inductive CompositorEvent where
  | rootWritten
  | reloaded (result : Except Text Unit)
  | verified (result : Except Text Bool)

structure Installed where
  tree : Tree
  result : Except TriggerBindingError TriggerBindingInstallReport
  events : List CompositorEvent

section
variable (tree : Tree) (path : Path) (world : World)

def source : Text := (tree.read path).getD []

def inputPath : Path := withFileName path "input.lua".toList

def inputSource : Text := (tree.read (inputPath path)).getD []

def duplicateDetail (key : TriggerKey) : Text :=
  "Hyprland did not report exactly one ".toList ++ key.label ++ " (".toList ++ key.code ++
    ") binding running `".toList ++ voisuToggleCommand ++
    ("` with no other default-submap binding on the same key; a duplicate (e.g. a stale personal " ++
      "bind on that key) must be removed before the Trigger Key can work").toList

def unreportedDetail (key : TriggerKey) : Text :=
  key.label ++ " (".toList ++ key.code ++
    (") is managed by Voisu but Hyprland does not report exactly one binding for it with no other " ++
      "default-submap binding claiming the same key").toList

def verifyAlreadyInstalled (key : TriggerKey) : Installed :=
  let backup := backupPath path
  match world.reload with
  | .error detail => ⟨tree, .error (.reloadFailed detail backup none), [.reloaded world.reload]⟩
  | .ok () =>
    let events := [.reloaded world.reload, .verified world.verify]
    match world.verify with
    | .error detail => ⟨tree, .error (.verificationFailed detail backup none), events⟩
    | .ok true => ⟨tree, .ok ⟨key, false, backup⟩, events⟩
    | .ok false =>
      ⟨tree, .error (.verificationFailed (unreportedDetail key) backup none), events⟩

/-- a file that was not there is removed -/
def restoreOriginal (original : Option Text) : Tree × Except OsError Unit :=
  match original with
  | some contents => writeAtomic tree path contents world.restoreWrite
  | none => removeFile tree path world.removal

def restoreOriginalAndReload (original : Option Text) : Tree × Option Text :=
  match restoreOriginal tree path world original with
  | (restored, .error detail) => (restored, some detail.text)
  | (restored, .ok ()) =>
    match world.restoreReload with
    | .ok () => (restored, none)
    | .error detail =>
      (restored, some ("reloading the restored configuration failed: ".toList ++ detail))

def restoreDetail (detail : OsError) : Except OsError Unit → Text
  | .ok () => detail.text
  | .error restore => detail.text ++ restoreFailure ++ restore.text

/-- what the reload and the verification make of a root that was written -/
def checkInstalled (key : TriggerKey) (original : Option Text) : Installed :=
  let backup := backupPath path
  let undo := restoreOriginalAndReload tree path world original
  match world.reload with
  | .error detail =>
    ⟨undo.1, .error (.reloadFailed detail backup undo.2), [.rootWritten, .reloaded world.reload]⟩
  | .ok () =>
    let events := [.rootWritten, .reloaded world.reload, .verified world.verify]
    match world.verify with
    | .ok true => ⟨tree, .ok ⟨key, true, backup⟩, events⟩
    | .ok false =>
      ⟨undo.1, .error (.verificationFailed (duplicateDetail key) backup undo.2), events⟩
    | .error detail => ⟨undo.1, .error (.verificationFailed detail backup undo.2), events⟩

/-- the root, once the backup holds the original -/
def writeRoot (key : TriggerKey) (original : Option Text) (updated : Text) : Installed :=
  match writeAtomic tree path updated world.rootWrite with
  | (written, .error detail) =>
    let undo := restoreOriginal written path world original
    ⟨undo.1, .error (.file "install the Hyprland binding" path (restoreDetail detail undo.2)), []⟩
  | (written, .ok ()) => checkInstalled written path world key original

def applyUpdate (key : TriggerKey) (updated : Text) : Installed :=
  if updated = source tree path then verifyAlreadyInstalled tree path world key
  else
    match writeAtomic tree (backupPath path) (source tree path) world.backupWrite with
    | (saved, .error detail) =>
      ⟨saved, .error (.file "save a recoverable backup" (backupPath path) detail.text), []⟩
    | (saved, .ok ()) => writeRoot saved path world key (tree.read path) updated

variable (reach : Reach tree) (preferCapsLock : Bool)

def planned : PlannedTriggerBinding :=
  match world.planningRead with
  | .error detail => ⟨[], .unparseable detail⟩
  | .ok () => planTriggerBindingWithImports reach.files path (source tree path) preferCapsLock

def orderedKbOptions (key : TriggerKey) : Except String (List Text) :=
  if key = capsLock then
    match world.optionsRead with
    | .error detail => .error detail
    | .ok () => reachableKbOptions reach.files path (source tree path)
  else .ok []

/-- the text that an install of the key writes -/
def updatedSource (key : TriggerKey) : Except String Text :=
  match orderedKbOptions tree path world reach key with
  | .error detail => .error detail
  | .ok options => desiredHyprlandSource (source tree path) key (inputSource tree path) options

def installKey (key : TriggerKey) : Installed :=
  match updatedSource tree path world reach key with
  | .error detail => ⟨tree, .error (.unparseable detail), []⟩
  | .ok updated => applyUpdate tree path world key updated

def installTriggerBinding : Installed :=
  match world.readRoot with
  | .error detail => ⟨tree, .error (.file "read" path detail), []⟩
  | .ok () =>
    let planned := planned tree path world reach preferCapsLock
    match world.readInput with
    | .error detail => ⟨tree, .error (.file "read" (inputPath path) detail), []⟩
    | .ok () =>
      match planned.plan with
      | .conflicts conflicts => ⟨tree, .error (.conflicts conflicts), []⟩
      | .unparseable detail => ⟨tree, .error (.unparseable detail), []⟩
      | .alreadyInstalled key =>
        if managedFor planned.bindings key then installKey tree path world reach key
        else verifyAlreadyInstalled tree path world key
      | .install key => installKey tree path world reach key

/-! ## what is asked of a run -/

def TriggerBindingError.reportsFailedRestore : TriggerBindingError → Bool
  | .file _ _ detail => contains detail restoreFailure
  | .reloadFailed _ _ restoreError | .verificationFailed _ _ restoreError => restoreError.isSome
  | .conflicts _ | .unparseable _ => false

/-- the root entry that the plan leads to -/
def plannedRoot : Option Entry :=
  match (planned tree path world reach preferCapsLock).keyToWrite with
  | none => tree path
  | some key =>
    match updatedSource tree path world reach key with
    | .error _ => tree path
    | .ok updated => if updated = source tree path then tree path else some (.file updated)

/-- **all or nothing**: of a failed run only directories stay that its writes made -/
structure Atomic (root : Option Entry) (out : Installed) : Prop where
  undone : ∀ error, out.result = .error error → error.reportsFailedRestore = false →
    out.tree path = tree path ∧
      ∀ p, p ≠ path → p ≠ backupPath path → Kept (above path) tree out.tree p
  planned : ∀ report, out.result = .ok report → out.tree path = root ∧
    ∃ before, out.events = before ++ [.reloaded (.ok ()), .verified (.ok true)]
  saved : out.tree path ≠ tree path →
    out.tree (backupPath path) = some (.file (source tree path))

/-- the root is a link that leads to no file -/
def IsDangling : Prop := (∃ target, tree path = some (.link target)) ∧ tree.read path = none

/-- the root is a link that leads to no file, and nothing ends the run before the link is refused, nor
hinders its removal -/
structure LinkRemoved : Prop where
  dangling : IsDangling tree path
  read : world.readRoot = .ok () ∧ world.readInput = .ok ()
  toWrite : ∃ key, (planned tree path world reach preferCapsLock).keyToWrite = some key ∧
    (key = capsLock → world.optionsRead = .ok ())
  backup : Writable tree (backupPath path) world.backupWrite
  removal : world.removal = none

end

/-! ## the way back -/

section
variable {tree saved written restored : Tree} {path : Path} {world : World}

theorem restoreOriginal_kept (tree : Tree) (path : Path) (world : World) (original : Option Text)
    {p : Path} (hp : p ≠ path) :
    Kept (above path) tree (restoreOriginal tree path world original).1 p := by
  unfold restoreOriginal
  split
  · exact writeAtomic_kept _ _ _ _ hp
  · exact .inl (removeFile_frame _ _ _ hp)

/-- the root is as it was, or it has become a file -/
def Touched (tree written : Tree) (path : Path) : Prop :=
  written path = tree path ∨
    (isReplaceable (tree path) = true ∧ ∃ text, written path = some (.file text))

/-- **a restore that is reported as done brings the root back**, unless it was a link to no file -/
theorem restoreOriginal_ok (hdangling : IsDangling tree path → world.removal ≠ none)
    (htouched : Touched tree written path)
    (h : (restoreOriginal written path world (tree.read path)).2 = .ok ()) :
    (restoreOriginal written path world (tree.read path)).1 path = tree path := by
  have hwrite {text : Text} (hread : tree.read path = some text) :
      isReplaceable (written path) = true ∧
        (restoreOriginal written path world (tree.read path)).1 path = some (.file text) := by
    rw [hread] at h ⊢
    rcases writeAtomic_self written path text world.restoreWrite with ⟨-, hfails⟩ | hfile
    · exact absurd h hfails
    · exact hfile
  have hremove (hread : tree.read path = none) : world.removal = none ∧
      written path ≠ some .directory ∧
        (restoreOriginal written path world (tree.read path)).1 path = none := by
    rw [hread] at h ⊢
    obtain ⟨hremoval, hdir⟩ := (removeFile_ok_iff ..).mp h
    exact ⟨hremoval, hdir, removeFile_removes h⟩
  cases htree : tree path with
  | none => exact (hremove (by rw [Tree.read, htree])).2.2
  | some entry =>
    cases entry with
    | file text => exact (hwrite (by rw [Tree.read, htree])).2
    | directory =>
      obtain ⟨-, hdir, -⟩ := hremove (by rw [Tree.read, htree])
      rcases htouched with hsame | ⟨hreplace, -⟩
      · exact absurd (hsame.trans htree) hdir
      · rw [htree] at hreplace
        cases hreplace
    | link target =>
      cases hread : tree.read path with
      | none => exact absurd (hremove hread).1 (hdangling ⟨⟨target, htree⟩, hread⟩)
      | some text =>
        have hreplace := (hwrite hread).1
        rcases htouched with hsame | ⟨hfalse, -⟩
        · rw [hsame, htree] at hreplace
          cases hreplace
        · rw [htree] at hfalse
          cases hfalse

/-- the restore error of an undo says whether the restore failed -/
theorem restoreOriginalAndReload_spec (tree : Tree) (path : Path) (world : World)
    (original : Option Text) :
    (restoreOriginalAndReload tree path world original).1 =
        (restoreOriginal tree path world original).1 ∧
      ((restoreOriginalAndReload tree path world original).2.isSome = false →
        (restoreOriginal tree path world original).2 = .ok ()) := by
  unfold restoreOriginalAndReload
  split
  · rename_i h
    rw [h]
    exact ⟨rfl, nofun⟩
  · rename_i h
    rw [h]
    split
    · exact ⟨rfl, fun _ => rfl⟩
    · exact ⟨rfl, fun _ => rfl⟩

/-- a failed restore is in the text of the error -/
theorem restoreDetail_reports {detail : OsError} {result : Except OsError Unit}
    (h : contains (restoreDetail detail result) restoreFailure = false) : result = .ok () := by
  cases result with
  | ok => rfl
  | error restore =>
    have hin : contains (detail.text ++ restoreFailure ++ restore.text) restoreFailure = true :=
      contains_iff.mpr ⟨detail.text, restore.text, rfl⟩
    rw [restoreDetail, hin] at h
    cases h

/-! ## the run, stage by stage -/

variable {reach : Reach tree} {preferCapsLock : Bool} {key : TriggerKey} {root : Option Entry}

/-- a run that has touched nothing -/
theorem Atomic.of_same {out : Installed} (hsame : out.tree = tree)
    (hplanned : ∀ report, out.result = .ok report → tree path = root ∧
      ∃ before, out.events = before ++ [.reloaded (.ok ()), .verified (.ok true)]) :
    Atomic tree path root out where
  undone := fun _ _ _ => by rw [hsame]; exact ⟨rfl, fun p _ _ => .refl _ _ p⟩
  planned := fun report h => by rw [hsame]; exact hplanned report h
  saved := fun h => absurd (congrFun hsame path) h

theorem verifyAlreadyInstalled_atomic (hplanned : tree path = root) :
    Atomic tree path root (verifyAlreadyInstalled tree path world key) := by
  unfold verifyAlreadyInstalled
  dsimp only
  split
  · exact .of_same rfl fun report h => by cases h
  · rename_i hreload
    split
    · exact .of_same rfl fun report h => by cases h
    · rename_i hverify
      exact .of_same rfl fun report _ => ⟨hplanned, [], by rw [hreload, hverify]; rfl⟩
    · exact .of_same rfl fun report h => by cases h

/-- the tree once the backup is saved -/
structure Saved (tree saved : Tree) (path : Path) : Prop where
  others : ∀ p, p ≠ path → p ≠ backupPath path → Kept (above path) tree saved p
  backup : saved (backupPath path) = some (.file (source tree path))
  root : Touched tree saved path

/-- what touches the root only leaves the backup where it is -/
theorem Saved.step (h : Saved tree saved path)
    (hkept : ∀ p, p ≠ path → Kept (above path) saved written p)
    (hroot : Touched tree written path) : Saved tree written path where
  others p hp hb := (h.others p hp hb).trans (hkept p hp)
  backup := by
    rw [(hkept _ (backupPath_ne path)).eq_of_notMem (backupPath_notMem_above path)]
    exact h.backup
  root := hroot

/-- a run that ends with an undo -/
theorem Atomic.of_undo {out : Installed} (h : Saved tree saved path)
    (hdangling : IsDangling tree path → world.removal ≠ none)
    (htree : out.tree = (restoreOriginal saved path world (tree.read path)).1)
    {error : TriggerBindingError} (hresult : out.result = .error error)
    (hreport : error.reportsFailedRestore = false →
      (restoreOriginal saved path world (tree.read path)).2 = .ok ()) :
    Atomic tree path root out := by
  have hkept := fun p hp => restoreOriginal_kept saved path world (tree.read path) (p := p) hp
  refine ⟨fun error' herror hno => ?_, fun report hok => ?_, fun _ => ?_⟩
  · rw [hresult] at herror
    cases herror
    rw [htree]
    exact ⟨restoreOriginal_ok hdangling h.root (hreport hno),
      fun p hp hb => (h.others p hp hb).trans (hkept p hp)⟩
  · rw [hresult] at hok
    cases hok
  · rw [htree, (hkept _ (backupPath_ne path)).eq_of_notMem (backupPath_notMem_above path)]
    exact h.backup

theorem checkInstalled_atomic (h : Saved tree saved path)
    (hdangling : IsDangling tree path → world.removal ≠ none) (hplanned : saved path = root) :
    Atomic tree path root (checkInstalled saved path world key (tree.read path)) := by
  obtain ⟨htree, hok⟩ := restoreOriginalAndReload_spec saved path world (tree.read path)
  unfold checkInstalled
  dsimp only
  split
  · exact .of_undo h hdangling htree rfl hok
  · rename_i hreload
    split
    · rename_i hverify
      refine ⟨nofun, fun report _ => ⟨hplanned, [.rootWritten], ?_⟩, fun _ => h.backup⟩
      rw [hreload, hverify]
      rfl
    · exact .of_undo h hdangling htree rfl hok
    · exact .of_undo h hdangling htree rfl hok

theorem writeRoot_atomic {updated : Text} (h : Saved tree saved path) (hroot : saved path = tree path)
    (hdangling : IsDangling tree path → world.removal ≠ none)
    (hplanned : some (.file updated) = root) :
    Atomic tree path root (writeRoot saved path world key (tree.read path) updated) := by
  have hkept := fun p hp => writeAtomic_kept saved path updated world.rootWrite (p := p) hp
  have hself := writeAtomic_self saved path updated world.rootWrite
  unfold writeRoot
  split
  · rename_i written detail hwrite
    rw [hwrite, hroot] at hself
    rw [hwrite] at hkept
    have htouched : Touched tree written path :=
      hself.imp And.left fun hfile => ⟨hfile.1, updated, hfile.2⟩
    exact .of_undo (h.step hkept htouched) hdangling rfl rfl restoreDetail_reports
  · rename_i written hwrite
    rw [hwrite, hroot] at hself
    rw [hwrite] at hkept
    obtain ⟨hreplace, hfile⟩ := hself.resolve_left fun hsame => hsame.2 rfl
    exact checkInstalled_atomic (h.step hkept (.inr ⟨hreplace, updated, hfile⟩)) hdangling
      (hfile.trans hplanned)

/-- the backup is saved beside a root that stays as it is -/
theorem saved_of_write {outcome : WriteOutcome}
    (h : writeAtomic tree (backupPath path) (source tree path) outcome = (saved, .ok ())) :
    Saved tree saved path ∧ saved path = tree path := by
  have hkept {p : Path} (hp : p ≠ backupPath path) : Kept (above path) tree saved p := by
    have := writeAtomic_kept tree (backupPath path) (source tree path) outcome hp
    rwa [h, above_backupPath] at this
  have hroot : saved path = tree path :=
    (hkept (backupPath_ne path).symm).eq_of_notMem (notMem_above path)
  have hself := writeAtomic_self tree (backupPath path) (source tree path) outcome
  rw [h] at hself
  exact ⟨⟨fun p _ hb => hkept hb, (hself.resolve_left fun hsame => hsame.2 rfl).2, .inl hroot⟩,
    hroot⟩

theorem applyUpdate_atomic {updated : Text}
    (hdangling : IsDangling tree path → updated ≠ source tree path →
      Writable tree (backupPath path) world.backupWrite → world.removal ≠ none)
    (hplanned : (if updated = source tree path then tree path else some (.file updated)) = root) :
    Atomic tree path root (applyUpdate tree path world key updated) := by
  unfold applyUpdate
  split
  · rename_i hsame
    rw [if_pos hsame] at hplanned
    exact verifyAlreadyInstalled_atomic hplanned
  · rename_i hdiffers
    rw [if_neg hdiffers] at hplanned
    split
    · rename_i saved detail hwrite
      have hkept {p : Path} (hp : p ≠ backupPath path) : Kept (above path) tree saved p := by
        have := writeAtomic_kept tree (backupPath path) (source tree path) world.backupWrite hp
        rwa [hwrite, above_backupPath] at this
      have hroot : saved path = tree path :=
        (hkept (backupPath_ne path).symm).eq_of_notMem (notMem_above path)
      exact ⟨fun _ _ _ => ⟨hroot, fun p _ hb => hkept hb⟩, nofun, fun h => absurd hroot h⟩
    · rename_i saved hwrite
      obtain ⟨hsaved, hroot⟩ := saved_of_write hwrite
      have hwritable := (writeAtomic_ok_iff tree (backupPath path) (source tree path)
        world.backupWrite).mp (congrArg Prod.snd hwrite)
      exact writeRoot_atomic hsaved hroot (fun h => hdangling h hdiffers hwritable) hplanned

theorem source_of_dangling (h : IsDangling tree path) : source tree path = [] := by
  rw [source, h.2]
  rfl

theorem managedBlock_ne_nil (key : TriggerKey) (kbOptions : Option Text) :
    managedBlock key kbOptions ≠ [] := by
  rw [managedBlock]
  exact List.concat_ne_nil _ _

/-- behind an empty root only the block is written; the walk over the options can fail at a read -/
theorem updatedSource_nil (h : source tree path = []) (key : TriggerKey) :
    (∃ updated, updatedSource tree path world reach key = .ok updated ∧ updated ≠ []) ↔
      (key = capsLock → world.optionsRead = .ok ()) := by
  have hblock (options : List Text) : ∃ updated,
      desiredHyprlandSource [] key (inputSource tree path) options = .ok updated ∧ updated ≠ [] :=
    ⟨_, rfl, managedBlock_ne_nil _ _⟩
  rw [updatedSource, orderedKbOptions, h, reachableKbOptions_nil]
  by_cases hkey : key = capsLock
  · rw [if_pos hkey]
    cases hread : world.optionsRead with
    | ok => exact ⟨fun _ _ => rfl, fun _ => hblock []⟩
    | error detail =>
      refine ⟨fun h => ?_, fun h => ?_⟩
      · obtain ⟨_, herror, -⟩ := h
        cases herror
      · cases h hkey
  · rw [if_neg hkey]
    exact ⟨fun _ h => absurd h hkey, fun _ => hblock []⟩

/-- a key that is written, with the reads behind it done -/
theorem installKey_atomic (hread : world.readRoot = .ok () ∧ world.readInput = .ok ())
    (hkey : (planned tree path world reach preferCapsLock).keyToWrite = some key)
    (h : ¬ LinkRemoved tree path world reach preferCapsLock) :
    Atomic tree path (plannedRoot tree path world reach preferCapsLock)
      (installKey tree path world reach key) := by
  unfold installKey
  split
  · exact .of_same rfl nofun
  · rename_i updated hupdated
    refine applyUpdate_atomic (fun hdangling hdiffers hbackup hremoval => h ?_) ?_
    · rw [source_of_dangling hdangling] at hdiffers
      have hoptions := (updatedSource_nil (source_of_dangling hdangling) key).mp
        ⟨updated, hupdated, hdiffers⟩
      exact ⟨hdangling, hread, ⟨key, hkey, hoptions⟩, hbackup, hremoval⟩
    · simp only [plannedRoot, hkey, hupdated]

theorem installTriggerBinding_atomic (h : ¬ LinkRemoved tree path world reach preferCapsLock) :
    Atomic tree path (plannedRoot tree path world reach preferCapsLock)
      (installTriggerBinding tree path world reach preferCapsLock) := by
  unfold installTriggerBinding
  dsimp only
  split
  · exact .of_same rfl nofun
  rename_i hroot
  split
  · exact .of_same rfl nofun
  rename_i hinput
  split
  · exact .of_same rfl nofun
  · exact .of_same rfl nofun
  · rename_i key hplan
    split
    · rename_i hmanaged
      exact installKey_atomic ⟨hroot, hinput⟩
        (by simp only [PlannedTriggerBinding.keyToWrite, hplan, if_pos hmanaged]) h
    · rename_i hmanaged
      refine verifyAlreadyInstalled_atomic ?_
      simp only [plannedRoot, PlannedTriggerBinding.keyToWrite, hplan, if_neg hmanaged]
  · rename_i key hplan
    exact installKey_atomic ⟨hroot, hinput⟩
      (by simp only [PlannedTriggerBinding.keyToWrite, hplan]) h

/-! ## a link to no file -/

/-- a key that is to be written is installed -/
theorem installTriggerBinding_key (hread : world.readRoot = .ok () ∧ world.readInput = .ok ())
    (hkey : (planned tree path world reach preferCapsLock).keyToWrite = some key) :
    installTriggerBinding tree path world reach preferCapsLock =
      installKey tree path world reach key := by
  unfold installTriggerBinding
  simp only [hread.1, hread.2]
  unfold PlannedTriggerBinding.keyToWrite at hkey
  split at hkey
  · rename_i key' hplan
    cases hkey
    simp only [hplan]
  · rename_i key' hplan
    split at hkey
    · rename_i hmanaged
      cases hkey
      simp only [hplan, if_pos hmanaged]
    · cases hkey
  · cases hkey
  · cases hkey

/-- **the link is refused and then removed**, and the error reports no failed restore -/
theorem installTriggerBinding_linkRemoved (h : LinkRemoved tree path world reach preferCapsLock) :
    ∃ refusal : OsError, (installTriggerBinding tree path world reach preferCapsLock).result =
        .error (.file "install the Hyprland binding" path refusal.text) ∧
      (installTriggerBinding tree path world reach preferCapsLock).tree path = none := by
  obtain ⟨hdangling, hread, ⟨key, hkey, hoptions⟩, hbackup, hremoval⟩ := h
  obtain ⟨updated, hupdated, hnil⟩ := (updatedSource_nil (source_of_dangling hdangling) key).mpr
    hoptions
  obtain ⟨⟨target, hlink⟩, hnone⟩ := id hdangling
  cases hwrite : writeAtomic tree (backupPath path) (source tree path) world.backupWrite with
  | mk saved result =>
    have hok := (writeAtomic_ok_iff tree (backupPath path) (source tree path) world.backupWrite).mpr
      hbackup
    rw [hwrite] at hok
    cases hok
    have hroot := (saved_of_write hwrite).2
    obtain ⟨refusal, hrefused, hstays⟩ := writeAtomic_link (hroot.trans hlink) updated world.rootWrite
    cases hwritten : writeAtomic saved path updated world.rootWrite with
    | mk written result =>
      rw [hwritten] at hrefused hstays
      cases hrefused
      have hstays : written path = some (.link target) := hstays
      have hremove : removeFile written path none = (written.set path none, .ok ()) := by
        unfold removeFile
        simp only [hstays]
      have hrun : installTriggerBinding tree path world reach preferCapsLock =
          ⟨written.set path none,
            .error (.file "install the Hyprland binding" path refusal.text), []⟩ := by
        rw [installTriggerBinding_key hread hkey, installKey, hupdated]
        simp only [applyUpdate, source_of_dangling hdangling, if_neg hnil]
        rw [source_of_dangling hdangling] at hwrite
        simp only [hwrite, writeRoot, hwritten, hnone, restoreOriginal, hremoval, hremove,
          restoreDetail]
      rw [hrun]
      exact ⟨refusal, rfl, Tree.set_self ..⟩

end

/-- **a run is all or nothing exactly when it does not remove a link that leads to no file** -/
theorem atomic_iff (tree : Tree) (path : Path) (world : World) (reach : Reach tree)
    (preferCapsLock : Bool) :
    Atomic tree path (plannedRoot tree path world reach preferCapsLock)
        (installTriggerBinding tree path world reach preferCapsLock) ↔
      ¬ LinkRemoved tree path world reach preferCapsLock := by
  refine ⟨fun hatomic h => ?_, installTriggerBinding_atomic⟩
  obtain ⟨refusal, hresult, hnone⟩ := installTriggerBinding_linkRemoved h
  have hsame := (hatomic.undone _ hresult refusal.plain).1
  obtain ⟨⟨target, hlink⟩, -⟩ := h.dangling
  rw [hnone, hlink] at hsame
  cases hsame

/-! ## a configuration that is a link alone -/

/-- no operation fails by itself -/
def sound : WriteOutcome := { directories := fun _ => none, replacement := .done }

def soundWorld : World where
  readRoot := .ok ()
  planningRead := .ok ()
  readInput := .ok ()
  optionsRead := .ok ()
  backupWrite := sound
  rootWrite := sound
  restoreWrite := sound
  removal := none
  reload := .ok ()
  verify := .ok true
  restoreReload := .ok ()

def linkedPath : Path := ["hypr".toList, "hyprland.lua".toList]

/-- the root file is a link into a directory that is not there -/
def linkedTree : Tree := fun p =>
  if p = ["hypr".toList] then some .directory
  else if p = linkedPath then some (.link ["gone".toList])
  else none

theorem linkedTree_read (p : Path) : linkedTree.read p = none := by
  unfold Tree.read linkedTree
  split
  · rename_i htext
    split at htext
    · cases htext
    · split at htext <;> cases htext
  · rename_i target hlink
    split at hlink
    · cases hlink
    · split at hlink
      · cases hlink
        rfl
      · cases hlink
  · rfl

def linkedReach : Reach linkedTree where
  resolve path := path.splitOn '/'
  readable := []
  finite p source h := by rw [linkedTree_read] at h; cases h

theorem linkedReach_removed : LinkRemoved linkedTree linkedPath soundWorld linkedReach false := by
  have hsource : source linkedTree linkedPath = [] := by rw [source, linkedTree_read]; rfl
  have hplan : planned linkedTree linkedPath soundWorld linkedReach false =
      ⟨[], .install rightAlt⟩ := by
    rw [planned, hsource]
    exact planTriggerBindingWithImports_alone _ _ _ fun p => congrArg Except.ok (linkedTree_read _)
  refine ⟨⟨⟨_, rfl⟩, linkedTree_read _⟩, ⟨rfl, rfl⟩, ⟨rightAlt, ?_, fun _ => rfl⟩,
    ⟨by decide, by decide +kernel, by decide +kernel, rfl⟩, rfl⟩
  rw [hplan]
  rfl

/-- the link is gone, and the error reports no failed restore -/
theorem linkedRoot_removed :
    linkedTree linkedPath = some (.link ["gone".toList]) ∧
      (installTriggerBinding linkedTree linkedPath soundWorld linkedReach false).tree linkedPath =
        none ∧
      ¬ Atomic linkedTree linkedPath (plannedRoot linkedTree linkedPath soundWorld linkedReach false)
        (installTriggerBinding linkedTree linkedPath soundWorld linkedReach false) := by
  obtain ⟨refusal, hresult, hnone⟩ := installTriggerBinding_linkRemoved linkedReach_removed
  refine ⟨rfl, hnone, fun hatomic => ?_⟩
  have hsame := (hatomic.undone _ hresult refusal.plain).1
  rw [hnone] at hsame
  cases hsame

end Voisu.Hyprland
