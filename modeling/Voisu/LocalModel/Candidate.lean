import Mathlib
import Voisu.LocalModel.Installer

/-!
# What a verified directory holds

* `HoldsPins`                   a directory holds exactly the files that a receipt pins;
* `openDir_iff`                 a directory that opens is one all the way down;
* `holdsPins_of_verified`       **what `verify_candidate` accepts holds the pins of the entry**;
* `treeHash_eq`                 the hash of a verified directory is the artifact of the entry.
-/

namespace Voisu.LocalModel
open Lib

/-! ## directories that open -/

def Component.isPlain (c : Component) : Bool := c != .parentDir && !c.hasNul

theorem openWalk_iff (tree : Tree) (done rest : Path) :
    openWalk true tree done rest = .ok () ↔
      (∀ q, q <+: rest → q ≠ [] → tree.get (done ++ q) = some .dir) ∧ rest.all Component.isPlain := by
  induction rest generalizing done with
  | nil =>
    refine ⟨fun _ => ⟨fun q hq hne => absurd (List.prefix_nil.mp hq) hne, rfl⟩, fun _ => rfl⟩
  | cons c rest ih =>
    have hnext : ∀ q, done ++ c :: q = (done ++ [c]) ++ q := fun q => by simp
    by_cases hparent : c = .parentDir
    · subst hparent
      refine ⟨by rintro ⟨⟩, fun h => ?_⟩
      simp [Component.isPlain] at h
    by_cases hnul : c.hasNul = true
    · refine ⟨fun h => ?_, fun h => ?_⟩
      · rw [openWalk, if_pos hnul] at h
        · cases h
        · exact hparent
      · simp [Component.isPlain, hnul] at h
    · rw [openWalk, if_neg hnul]
      · have hplain : (c :: rest).all Component.isPlain = rest.all Component.isPlain := by
          simp [Component.isPlain, hparent, hnul]
        rw [hplain]
        cases hget : tree.get (done ++ [c]) with
        | none =>
          refine ⟨by rintro ⟨⟩, fun h => ?_⟩
          have := h.1 [c] ⟨rest, rfl⟩ (by simp)
          rw [hget] at this
          cases this
        | some node =>
          cases node with
          | file contents =>
            refine ⟨fun h => by simp at h, fun h => ?_⟩
            have := h.1 [c] ⟨rest, rfl⟩ (by simp)
            rw [hget] at this
            cases this
          | dir =>
            dsimp only
            rw [ih]
            refine and_congr_left fun _ => ⟨fun h q hq hne => ?_, fun h q hq hne => ?_⟩
            · cases q with
              | nil => exact absurd rfl hne
              | cons d q =>
                obtain ⟨rfl, hrest⟩ := List.cons_prefix_cons.mp hq
                rw [hnext]
                by_cases hnil : q = []
                · rwa [hnil, List.append_nil]
                · exact h q hrest hnil
            · rw [← hnext]
              exact h (c :: q) (List.cons_prefix_cons.mpr ⟨rfl, hq⟩) (by simp)
      · exact hparent

/-- a directory opens when every path down to it is a directory, under names that can be opened -/
theorem openDir_iff {tree : Tree} {path : Path} :
    openDir tree path = .ok () ↔
      (∀ q, q <+: path → q ≠ [] → tree.get q = some .dir) ∧ path.all Component.isPlain :=
  openWalk_iff tree [] path

/-! ## pins -/

theorem mem_insert_pins {name : Text} {pin : FilePin} {pins : Pins}
    (hfresh : ∀ p ∈ pins, p.1 ≠ name) {p : Text × FilePin} :
    p ∈ pins.insert name pin ↔ p = (name, pin) ∨ p ∈ pins := by
  induction pins with
  | nil => simp [Pins.insert]
  | cons e pins ih =>
    rw [Pins.insert, if_neg (hfresh e List.mem_cons_self)]
    split
    · rw [List.mem_cons]
    · rw [List.mem_cons, ih fun p hp => hfresh p (List.mem_cons_of_mem e hp), List.mem_cons]
      exact or_left_comm

def CatalogFile.pin (file : CatalogFile) : Text × FilePin :=
  (file.name, { sha256Hex := file.sha256Hex, bytes := file.bytes })

theorem mem_foldl_pins {files : List CatalogFile} (hnodup : (files.map CatalogFile.name).Nodup)
    {pins : Pins} (hfresh : ∀ p ∈ pins, p.1 ∉ files.map CatalogFile.name) {p : Text × FilePin} :
    p ∈ files.foldl (fun pins file => pins.insert file.name file.pin.2) pins ↔
      p ∈ pins ∨ p ∈ files.map CatalogFile.pin := by
  induction files generalizing pins with
  | nil => simp
  | cons file files ih =>
    obtain ⟨hhead, htail⟩ := List.nodup_cons.mp hnodup
    have hnew : ∀ q ∈ pins, q.1 ≠ file.name := fun q hq h =>
      hfresh q hq (h ▸ List.mem_cons_self)
    rw [List.foldl_cons, ih htail, mem_insert_pins hnew, List.map_cons, List.mem_cons]
    · rw [or_comm (a := p = _), or_assoc]
      rfl
    · intro q hq
      rcases (mem_insert_pins hnew).mp hq with rfl | hq
      · exact hhead
      · exact fun hmem => hfresh q hq (List.mem_cons_of_mem _ hmem)

theorem CatalogEntry.mem_pins {entry : CatalogEntry}
    (hnodup : (entry.files.map CatalogFile.name).Nodup) {p : Text × FilePin} :
    p ∈ entry.pins ↔ p ∈ entry.files.map CatalogFile.pin := by
  have h := @mem_foldl_pins _ hnodup [] (by simp) p
  rw [List.mem_nil_iff, false_or] at h
  exact h

/-! ## what is verified -/

section verified
variable (sha256Hex : List UInt8 → Text)

/-- the directory opens, and in it are the pinned files and nothing else -/
structure HoldsPins (tree : Tree) (dir : Path) (pins : Pins) : Prop where
  opened : openDir tree dir = .ok ()
  names : ∀ c, (tree.get (dir ++ [c])).isSome = true ↔
    ∃ name pin, c = .normal name ∧ (name, pin) ∈ pins
  files : ∀ name pin, (name, pin) ∈ pins → ∃ bytes,
    tree.get (dir ++ [.normal name]) = some (.file bytes) ∧ bytes.length = pin.bytes ∧
      sha256Hex bytes = pin.sha256Hex

variable {sha256Hex}

theorem relativeFileName_eq {name name' : Text} (h : relativeFileName name = .ok name') :
    name' = name := by
  unfold relativeFileName at h
  split at h
  · cases h
  · exact (Except.ok.inj h).symm

theorem readExistingFile_eq {tree : Tree} {dir : Path} {name : Text} {expected : Nat}
    {bytes : List UInt8} (h : readExistingFile tree dir name expected = .ok bytes) :
    tree.get (dir ++ [.normal name]) = some (.file bytes) := by
  unfold readExistingFile at h
  obtain ⟨name', hname, h⟩ := bind_eq_ok h
  obtain ⟨-, -, h⟩ := bind_eq_ok h
  rw [relativeFileName_eq hname] at h
  split at h
  · cases h
  · cases h
  · rename_i contents hget
    split at h
    · cases h
    · rw [hget, Except.ok.inj h]

theorem mapTree_ok {ε α : Type} {f : SafeFsError → ε} {x : Except SafeFsError α} {a : α}
    (h : mapTree f x = .ok a) : x = .ok a := by
  cases x with
  | ok b => exact congrArg _ (Except.ok.inj h)
  | error e => cases h

theorem verifyFile_ok {tree : Tree} {dir : Path} {file : CatalogFile}
    (h : verifyFile sha256Hex tree dir file = .ok ()) :
    ∃ bytes, tree.get (dir ++ [.normal file.name]) = some (.file bytes) ∧
      bytes.length = file.bytes ∧ sha256Hex bytes = file.sha256Hex := by
  obtain ⟨bytes, hread, h⟩ := bind_eq_ok h
  refine ⟨bytes, readExistingFile_eq (mapTree_ok hread), ?_⟩
  split at h
  · rename_i hdigest
    simp only [verifyFileDigest, Bool.and_eq_true, beq_iff_eq] at hdigest
    exact ⟨hdigest.1.1, hdigest.2⟩
  · cases h

theorem forM_ok {α ε : Type} {f : α → Except ε Unit} {l : List α} (h : l.forM f = .ok ()) :
    ∀ a ∈ l, f a = .ok () := by
  induction l with
  | nil => simp
  | cons b l ih =>
    obtain ⟨u, hb, hl⟩ := bind_eq_ok (x := f b) h
    intro a ha
    rcases List.mem_cons.mp ha with rfl | ha
    · exact hb
    · exact ih hl a ha

theorem mapM_regularName {cs : List Component} {names : List Text}
    (h : cs.mapM regularName = .ok names) : cs = names.map .normal := by
  induction cs generalizing names with
  | nil =>
    cases h
    rfl
  | cons c cs ih =>
    rw [List.mapM_cons] at h
    obtain ⟨name, hname, h⟩ := bind_eq_ok h
    obtain ⟨rest, hrest, h⟩ := bind_eq_ok h
    cases h
    cases c with
    | normal n =>
      rw [List.map_cons, ← ih hrest, relativeFileName_eq hname]
    | rootDir => cases hname
    | parentDir => cases hname

theorem listRegularNames_ok {tree : Tree} {dir : Path} {names : List Text}
    (h : listRegularNames tree dir = .ok names) :
    openDir tree dir = .ok () ∧ ∃ listed : List Text, names = sortNames listed ∧
      tree.names dir = listed.map .normal := by
  obtain ⟨⟨⟩, hopen, h⟩ := bind_eq_ok h
  obtain ⟨listed, hlisted, h⟩ := bind_eq_ok h
  cases h
  exact ⟨hopen, listed, rfl, mapM_regularName hlisted⟩

theorem sortNames_perm (names : List Text) : (sortNames names).Perm names :=
  List.perm_insertionSort _ names

/-- the names of the directory are the required ones, and every file is as it is pinned -/
theorem verifyCandidate_ok {entry : CatalogEntry} {tree : Tree} {dir : Path}
    (h : verifyCandidate sha256Hex entry tree dir = .ok ()) :
    openDir tree dir = .ok () ∧
      (∃ listed : List Text, tree.names dir = listed.map .normal ∧
        listed.Perm entry.requiredNames) ∧
      ∀ file ∈ entry.files, verifyFile sha256Hex tree dir file = .ok () := by
  unfold verifyCandidate at h
  split at h
  · cases h
  · obtain ⟨-, -, h⟩ := bind_eq_ok h
    obtain ⟨names, hnames, h⟩ := bind_eq_ok h
    obtain ⟨hopen, listed, rfl, hlisted⟩ := listRegularNames_ok (mapTree_ok hnames)
    dsimp only at h
    split at h
    · split at h <;> cases h
    · rename_i hsorted
      rw [not_not] at hsorted
      refine ⟨hopen, ⟨listed, hlisted, ?_⟩, forM_ok h⟩
      calc listed
        _ |>.Perm (sortNames (sortNames listed)) :=
            ((sortNames_perm _).trans (sortNames_perm listed)).symm
        _ |>.Perm (sortNames entry.requiredNames) := .of_eq hsorted
        _ |>.Perm entry.requiredNames := sortNames_perm _

/-- **what `verify_candidate` accepts holds the pins of the entry** -/
theorem holdsPins_of_verified {entry : CatalogEntry} {tree : Tree} {dir : Path}
    (hrequired : entry.requiredNames.Perm (entry.files.map CatalogFile.name))
    (h : verifyCandidate sha256Hex entry tree dir = .ok ()) :
    HoldsPins sha256Hex tree dir entry.pins := by
  obtain ⟨hopen, ⟨listed, hlisted, hperm⟩, hfiles⟩ := verifyCandidate_ok h
  have hperm := hperm.trans hrequired
  -- a directory has no name twice, so neither has the entry
  have hnodup : (entry.files.map CatalogFile.name).Nodup := by
    refine hperm.nodup_iff.mp (List.Nodup.of_map Component.normal ?_)
    rw [← hlisted]
    exact FileTree.nodup_names tree dir
  refine ⟨hopen, fun c => ?_, fun name pin hpin => ?_⟩
  · rw [← FileTree.mem_names, hlisted, List.mem_map]
    constructor
    · rintro ⟨name, hname, rfl⟩
      obtain ⟨file, hfile, rfl⟩ := List.mem_map.mp (hperm.mem_iff.mp hname)
      exact ⟨_, _, rfl, (entry.mem_pins hnodup).mpr (List.mem_map_of_mem hfile)⟩
    · rintro ⟨name, pin, rfl, hpin⟩
      obtain ⟨file, hfile, hpin⟩ := List.mem_map.mp ((entry.mem_pins hnodup).mp hpin)
      refine ⟨name, hperm.mem_iff.mpr (List.mem_map.mpr ⟨file, hfile, ?_⟩), rfl⟩
      exact congrArg Prod.fst hpin
  · obtain ⟨file, hfile, hpin⟩ := List.mem_map.mp ((entry.mem_pins hnodup).mp hpin)
    cases hpin
    exact verifyFile_ok (hfiles file hfile)

theorem mapM_treeDigest {tree : Tree} {dir : Path} {files : List CatalogFile} {digests : List Text}
    (h : files.mapM (treeDigest sha256Hex tree dir) = .ok digests) :
    digests = files.map CatalogFile.sha256Hex := by
  induction files generalizing digests with
  | nil =>
    cases h
    rfl
  | cons file files ih =>
    rw [List.mapM_cons] at h
    obtain ⟨digest, hdigest, h⟩ := bind_eq_ok h
    obtain ⟨rest, hrest, h⟩ := bind_eq_ok h
    cases h
    obtain ⟨bytes, -, hdigest⟩ := bind_eq_ok hdigest
    rw [List.map_cons, ← ih hrest]
    split at hdigest
    · rename_i hverified
      simp only [verifyFileDigest, Bool.and_eq_true, beq_iff_eq] at hverified
      rw [← hverified.2, Except.ok.inj hdigest]
    · cases hdigest

/-- the hash of a verified directory is the artifact of the entry -/
theorem treeHash_eq {entry : CatalogEntry} {tree : Tree} {dir : Path} {hash : Text}
    (h : treeHash sha256Hex tree dir entry = .ok hash) : hash = entry.artifactId sha256Hex := by
  obtain ⟨digests, hdigests, h⟩ := bind_eq_ok h
  cases h
  rw [mapM_treeDigest hdigests, CatalogEntry.artifactId, List.flatMap]

end verified
end Voisu.LocalModel
