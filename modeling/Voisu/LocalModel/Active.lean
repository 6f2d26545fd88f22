import Mathlib
import Voisu.LocalModel.Candidate
import Voisu.LocalModel.Touch

/-!
# The active model is a verified model

* `Sound`              what the store relies on for an entry: its receipt reads back, its artifact
                       lies with the artifacts, its required names are its files;
* `ActiveOk`           the receipt is the text of an entry whose directory holds its pins;
* `Advance`            what an install may do to the store wherever it stops;
* `run_active`         **in every run over sound entries that are apart, with leases without `..`,
                       the active receipt names a directory that holds its pins.**
-/

namespace Voisu.LocalModel
open Lib Prog

section store
variable (sha256Hex : List UInt8 → Text) (tempName : Text → List Component → Text) (root : Path)

/-- the directory of a verified entry -/
def dest (entry : CatalogEntry) : Path :=
  artifactDir root entry.id entry.revision (entry.artifactId sha256Hex)

def receiptText (entry : CatalogEntry) : Text :=
  encode (fromEntry sha256Hex entry (entry.artifactId sha256Hex))

/-- what the store relies on for an entry -/
structure Sound (entry : CatalogEntry) : Prop where
  required : entry.requiredNames.Perm (entry.files.map CatalogFile.name)
  inside : root ++ [artifactsName] <+: dest sha256Hex root entry
  readsBack : ∀ r, parse sha256Hex (receiptText sha256Hex entry) = .ok r →
    r.dir root = dest sha256Hex root entry ∧ r.files = entry.pins

/-- the entries of a run, each sound, and no artifact inside another -/
structure Catalog (E : CatalogEntry → Prop) : Prop where
  sound : ∀ e, E e → Sound sha256Hex root e
  apart : ∀ e e', E e → E e' → dest sha256Hex root e <+: dest sha256Hex root e' →
    dest sha256Hex root e = dest sha256Hex root e'

/-- there is no receipt, or it is of an entry whose directory holds its pins -/
def ActiveOk (E : CatalogEntry → Prop) (tree : Tree) : Prop :=
  tree.get (receiptPath root) = none ∨ ∃ e, E e ∧
    tree.get (receiptPath root) = some (.file (utf8 (receiptText sha256Hex e))) ∧
    HoldsPins sha256Hex tree (dest sha256Hex root e) e.pins

/-- a directory is still there, with all that was in it -/
structure Intact (before after : Tree) (dir : Path) : Prop where
  opened : openDir after dir = .ok ()
  kept : ∀ c node, before.get (dir ++ [c]) = some node → after.get (dir ++ [c]) = some node

/-- what an install of `entry` may have done wherever it stops -/
structure Advance (E : CatalogEntry → Prop) (entry : CatalogEntry) (before after : Tree) :
    Prop where
  active : ActiveOk sha256Hex root E before → ActiveOk sha256Hex root E after
  receipt : after.get (receiptPath root) = before.get (receiptPath root) ∨
    after.get (receiptPath root) = some (.file (utf8 (receiptText sha256Hex entry)))
  intact : ∀ dir, root ++ [artifactsName] <+: dir → openDir before dir = .ok () →
    Intact before after dir

end store

section store
variable {sha256Hex : List UInt8 → Text} {tempName : Text → List Component → Text} {root : Path}
  {E : CatalogEntry → Prop} {entry : CatalogEntry}

instance : Std.Refl (Advance sha256Hex root E entry) :=
  ⟨fun _ => ⟨id, .inl rfl, fun _ _ hopen => ⟨hopen, fun _ _ h => h⟩⟩⟩

instance : IsTrans Tree (Advance sha256Hex root E entry) where
  trans a b c hab hbc := by
    refine ⟨fun h => hbc.active (hab.active h), ?_, fun dir hdir hopen => ?_⟩
    · rcases hbc.receipt with hsame | hnew
      · rw [hsame]
        exact hab.receipt
      · exact .inr hnew
    · have h1 := hab.intact dir hdir hopen
      have h2 := hbc.intact dir hdir h1.opened
      exact ⟨h2.opened, fun x node h => h2.kept x node (h1.kept x node h)⟩

/-! ## places -/

/-- the names below the root lead to different places -/
theorem below_ne {a b : Component} (hne : a ≠ b) {p q : Path} (hp : root ++ [a] <+: p)
    (hq : root ++ [b] <+: q) : ¬ p <+: q := by
  intro hpq
  have ha := hp.trans hpq
  obtain ⟨x, rfl⟩ := ha
  obtain ⟨y, hy⟩ := hq
  rw [List.append_assoc, List.append_assoc] at hy
  have := List.append_cancel_left hy
  rw [List.singleton_append, List.singleton_append] at this
  exact hne (List.cons.inj this).1.symm

theorem below_split {a b : Component} (hne : a ≠ b) {p : Path} (hp : root ++ [a] <+: p) :
    ¬ root ++ [b] <+: p := below_ne hne.symm (List.prefix_refl _) hp

theorem receiptPath_below : root ++ [privateName] <+: receiptPath root :=
  ⟨[activeName], by simp [receiptPath]⟩

theorem artifacts_ne_private : artifactsName ≠ privateName := by decide
theorem artifacts_ne_staging : artifactsName ≠ stagingName := by decide
theorem staging_ne_private : stagingName ≠ privateName := by decide
theorem lock_ne_private : lockName ≠ privateName := by decide
theorem lock_ne_artifacts : lockName ≠ artifactsName := by decide

/-! ## frames -/

theorem openDir_touch {Z C : Path → Prop} {before after : Tree} (h : Touch Z C before after)
    {dir : Path} (hZ : ∀ q, q <+: dir → ¬ Z q) (hopen : openDir before dir = .ok ()) :
    openDir after dir = .ok () := by
  rw [openDir_iff] at hopen ⊢
  exact ⟨fun q hq hne => h.some (hZ q hq) (hopen.1 q hq hne), hopen.2⟩

theorem Intact.of_touch {Z C : Path → Prop} {before after : Tree} (h : Touch Z C before after)
    {dir : Path} (hZ : ∀ q, q <+: dir → ¬ Z q)
    (hchild : ∀ c, (before.get (dir ++ [c])).isSome = true → ¬ Z (dir ++ [c]))
    (hopen : openDir before dir = .ok ()) : Intact before after dir := by
  refine ⟨openDir_touch h hZ hopen, fun c node hnode => ?_⟩
  exact h.some (hchild c (by rw [hnode]; rfl)) hnode

theorem HoldsPins.touch {Z C : Path → Prop} {before after : Tree} (h : Touch Z C before after)
    {dir : Path} {pins : Pins} (hZ : ∀ q, q <+: dir → ¬ Z q)
    (hchild : ∀ c, ¬ Z (dir ++ [c]) ∧ ¬ C (dir ++ [c])) (hholds : HoldsPins sha256Hex before dir pins) :
    HoldsPins sha256Hex after dir pins := by
  have hsame : ∀ c, after.get (dir ++ [c]) = before.get (dir ++ [c]) := fun c =>
    h.same (hchild c).1 (hchild c).2
  refine ⟨openDir_touch h hZ hholds.opened, fun c => ?_, fun name pin hpin => ?_⟩
  · rw [hsame]
    exact hholds.names c
  · rw [hsame]
    exact hholds.files name pin hpin

/-- nothing that matters to a reader of the receipt or of an artifact -/
def Remote (root p : Path) : Prop :=
  p ≠ receiptPath root ∧ ¬ root ++ [artifactsName] <+: p ∧ ¬ p <+: root ++ [artifactsName]

theorem Remote.not_prefix {dir q : Path} (hdir : root ++ [artifactsName] <+: dir) (hq : q <+: dir) :
    ¬ Remote root q := by
  rintro ⟨-, hbelow, habove⟩
  rcases List.prefix_or_prefix_of_prefix hq hdir with h | h
  · exact habove h
  · exact hbelow h

theorem Remote.not_below {dir q : Path} (hdir : root ++ [artifactsName] <+: dir) :
    ¬ Remote root (dir ++ q) := fun h => h.2.1 (hdir.trans (List.prefix_append _ _))

theorem remote_of_below {a : Component} (ha : a ≠ artifactsName) {p : Path}
    (hp : root ++ [a] <+: p) (hne : p ≠ receiptPath root) : Remote root p := by
  refine ⟨hne, below_split ha hp, ?_⟩
  exact below_ne ha hp (List.prefix_refl _)

/-- a change away from receipts and artifacts, with directories made where no receipt and no file of
an entry is -/
theorem advance_of_touch (hE : Catalog sha256Hex root E) {Z C : Path → Prop} {before after : Tree}
    (h : Touch Z C before after) (hZ : ∀ p, Z p → Remote root p) (hreceipt : ¬ C (receiptPath root))
    (hC : ∀ e c, E e → ¬ C (dest sha256Hex root e ++ [c])) :
    Advance sha256Hex root E entry before after := by
  have hsame : after.get (receiptPath root) = before.get (receiptPath root) :=
    h.same (fun hz => (hZ _ hz).1 rfl) hreceipt
  refine ⟨?_, .inl hsame, fun dir hdir hopen => ?_⟩
  · rintro (hnone | ⟨e, he, htext, hholds⟩)
    · exact .inl (hsame.trans hnone)
    · have hin := (hE.sound e he).inside
      refine .inr ⟨e, he, hsame.trans htext, hholds.touch h ?_ ?_⟩
      · exact fun q hq hz => Remote.not_prefix hin hq (hZ q hz)
      · exact fun c => ⟨fun hz => Remote.not_below hin (hZ _ hz), hC e c he⟩
  · refine Intact.of_touch h ?_ ?_ hopen
    · exact fun q hq hz => Remote.not_prefix hdir hq (hZ q hz)
    · exact fun c _ hz => Remote.not_below hdir (hZ _ hz)

/-! ## the steps of an install -/

variable {P : Tree → Prop}

theorem staging_below (entry : CatalogEntry) :
    root ++ [stagingName] <+: staging sha256Hex root entry :=
  ⟨components (stagingToken sha256Hex entry), rfl⟩

theorem remote_staging {p : Path} (h : staging sha256Hex root entry <+: p) : Remote root p := by
  have hbelow := (staging_below entry).trans h
  refine remote_of_below artifacts_ne_staging.symm hbelow ?_
  rintro rfl
  exact below_split staging_ne_private hbelow receiptPath_below

theorem remote_private {p : Path} (h : Private root p) : Remote root p := by
  have hbelow : root ++ [privateName] <+: p := by
    rcases h with rfl | ⟨name, -, rfl⟩
    · exact ⟨[retainedName], by simp [retainedReceiptPath]⟩
    · exact List.prefix_append _ _
  refine remote_of_below artifacts_ne_private.symm hbelow ?_
  rintro rfl
  rcases h with h | ⟨name, hname, h⟩
  · simp [receiptPath, retainedReceiptPath, activeName, retainedName] at h
  · have heq : activeName = Component.normal name := by simpa [receiptPath] using h
    obtain rfl := Component.normal.inj heq
    revert hname
    decide

theorem lockExclusive_advance (hE : Catalog sha256Hex root E) :
    Meets (Advance sha256Hex root E entry) P (lockExclusive root) fun _ _ => True := by
  refine Meets.bind (Q := fun _ _ => True) (Meets.atomic ?_) fun _ =>
    Meets.look.post fun _ _ _ => trivial
  intro s a s' _ hw
  split at hw
  · cases hw
    exact ⟨Std.Refl.refl _, trivial⟩
  · cases hw
  · cases hw
    refine ⟨advance_of_touch hE (set_touch (C := fun _ => False) s _ _) ?_ id fun _ _ _ => id,
      trivial⟩
    rintro p rfl
    refine remote_of_below lock_ne_artifacts (List.prefix_refl _) fun h => ?_
    have hbelow : root ++ [privateName] <+: root ++ [lockName] := h ▸ receiptPath_below
    exact below_split lock_ne_private (List.prefix_refl _) hbelow

theorem stageEntry_advance (hstem : ∀ stem taken, stem <+: tempName stem taken)
    (hE : Catalog sha256Hex root E) (request : InstallRequest) :
    Meets (Advance sha256Hex root E entry) P (stageEntry sha256Hex tempName root request)
      fun hash _ => hash = request.entry.artifactId sha256Hex := by
  refine ((stageEntry_touch hstem request).post fun hash s h => treeHash_eq h.2).weaken ?_
  intro s s' _ ht
  refine advance_of_touch hE ht (fun p hp => remote_staging hp) ?_ ?_
  · exact below_ne staging_ne_private.symm receiptPath_below (staging_below _)
  · intro e c he
    have hin := (hE.sound e he).inside.trans (List.prefix_append _ [c])
    exact below_ne artifacts_ne_staging hin (staging_below _)

/-- the directories above an artifact are not in another one -/
theorem parents_advance (hE : Catalog sha256Hex root E) (he' : E entry) :
    Meets (Advance sha256Hex root E entry) P
      (ensurePrivateDir (dest sha256Hex root entry).dropLast) fun _ _ => True := by
  refine (ensurePrivateDir_touch (Z := fun _ => False) _).weaken ?_
  intro s s' _ ht
  have hin := (hE.sound entry he').inside
  have hparent := List.dropLast_prefix (dest sha256Hex root entry)
  refine advance_of_touch hE ht (fun _ => False.elim) ?_ ?_
  · exact fun h => below_ne artifacts_ne_private.symm receiptPath_below hin (h.trans hparent)
  · intro e c he h
    have heq := hE.apart e entry he he'
      ((List.prefix_append _ [c]).trans (h.trans hparent))
    have hlen := h.length_le
    rw [heq] at hlen
    simp at hlen
    omega

/-- a directory is renamed to a free place: no artifact is there, and none of another entry is in
it or above it -/
theorem rename_advance (hE : Catalog sha256Hex root E) (he' : E entry) (request : InstallRequest) :
    Meets (Advance sha256Hex root E entry)
      (fun s => dirPresent s (dest sha256Hex root entry) = .ok false ∧
        s.get (dest sha256Hex root entry) = none)
      (renameDir (staging sha256Hex root request.entry) (dest sha256Hex root entry))
      fun _ _ => True := by
  refine (renameDir_touch (C := fun _ => False) _ _).weaken ?_
  rintro s s' ⟨habsent, hnone⟩ ht
  have hin' := (hE.sound entry he').inside
  have hclosed : openDir s (dest sha256Hex root entry) ≠ .ok () := by
    intro hopen
    rw [dirPresent, hopen] at habsent
    cases habsent
  have hreceipt : s'.get (receiptPath root) = s.get (receiptPath root) := by
    refine ht.same ?_ id
    rintro (h | h)
    · exact (remote_staging h).1 rfl
    · exact below_split artifacts_ne_private (hin'.trans h) receiptPath_below
  -- a directory that opens does not open below one that does not
  have hup : ∀ dir q, openDir s dir = .ok () → q <+: dir → ¬ dest sha256Hex root entry <+: q := by
    intro dir q hopen hq h
    refine hclosed (openDir_iff.mpr ⟨fun p hp hne => ?_, ?_⟩)
    · exact (openDir_iff.mp hopen).1 p (hp.trans (h.trans hq)) hne
    · have hall := (openDir_iff.mp hopen).2
      rw [List.all_eq_true] at hall ⊢
      exact fun c hc => hall c ((h.trans hq).subset hc)
  refine ⟨?_, .inl hreceipt, fun dir hdir hopen => ?_⟩
  · rintro (hno | ⟨e, he, htext, hholds⟩)
    · exact .inl (hreceipt.trans hno)
    · have hin := (hE.sound e he).inside
      refine .inr ⟨e, he, hreceipt.trans htext, hholds.touch ht ?_ fun c => ⟨?_, id⟩⟩
      · rintro q hq (h | h)
        · exact Remote.not_prefix hin hq (remote_staging h)
        · exact hup _ q hholds.opened hq h
      · rintro (h | h)
        · exact Remote.not_below hin (remote_staging h)
        · rcases List.prefix_or_prefix_of_prefix h (List.prefix_append _ [c]) with hle | hle
          · exact hup _ _ hholds.opened (List.prefix_refl _) hle
          · exact hclosed (hE.apart e entry he he' hle ▸ hholds.opened)
  · refine Intact.of_touch ht ?_ ?_ hopen
    · rintro q hq (h | h)
      · exact Remote.not_prefix hdir hq (remote_staging h)
      · exact hup dir q hopen hq h
    · rintro c hsome (h | h)
      · exact Remote.not_below hdir (remote_staging h)
      · rcases List.prefix_concat_iff.mp h with heq | h
        · rw [← heq, hnone] at hsome
          cases hsome
        · exact hup dir dir hopen (List.prefix_refl _) h

/-- the pins of `entry` are in its directory, and stay there while the private files and the staging
directory are written -/
theorem HoldsPins.remote {Z C : Path → Prop} {before after : Tree} {dir : Path} {pins : Pins}
    (hholds : HoldsPins sha256Hex before dir pins) (hin : root ++ [artifactsName] <+: dir)
    (h : Touch Z C before after) (hZ : ∀ p, Z p → Remote root p)
    (hC : ∀ p, root ++ [artifactsName] <+: p → ¬ C p) : HoldsPins sha256Hex after dir pins :=
  hholds.touch h (fun _ hq hz => Remote.not_prefix hin hq (hZ _ hz)) fun c =>
    ⟨fun hz => Remote.not_below hin (hZ _ hz), hC _ (hin.trans (List.prefix_append _ [c]))⟩

theorem durableRename_advance (hE : Catalog sha256Hex root E) (he' : E entry)
    (request : InstallRequest) :
    Meets (Advance sha256Hex root E entry) P
      (durableRename (staging sha256Hex root request.entry) (dest sha256Hex root entry))
      fun _ _ => True := by
  refine Meets.bind Meets.look fun present => Meets.bind Meets.require fun _ =>
    Meets.bind Meets.look fun _ => Meets.bind (Meets.look.mapErr _) fun _ =>
    Meets.bind ((Meets.pre (rename_advance hE he' request) ?_).mapErr _) fun _ =>
      Meets.mapErr (Meets.look.post fun _ _ _ => trivial) _
  rintro s ⟨⟨⟨⟨-, hlook⟩, hpresent⟩, hfree⟩, -⟩
  rw [Bool.not_eq_true'] at hpresent
  refine ⟨hpresent ▸ hlook, ?_⟩
  split at hfree
  · cases hfree
  · rename_i hsome
    simpa using hsome

/-- the artifact is in its place and checked there -/
theorem publishArtifact_advance (hE : Catalog sha256Hex root E) (request : InstallRequest)
    (he : E request.entry) :
    Meets (Advance sha256Hex root E request.entry) P
      (publishArtifact sha256Hex request.entry (staging sha256Hex root request.entry)
        (dest sha256Hex root request.entry))
      fun _ s => HoldsPins sha256Hex s (dest sha256Hex root request.entry) request.entry.pins := by
  have hsound := hE.sound _ he
  have hverify : ∀ {P : Tree → Prop}, Meets (Advance sha256Hex root E request.entry) P
      (verify sha256Hex request.entry (dest sha256Hex root request.entry)) fun _ s =>
        HoldsPins sha256Hex s (dest sha256Hex root request.entry) request.entry.pins := by
    intro P
    refine Meets.post (Meets.weaken (verify_touch (Z := fun _ => False) (C := fun _ => False)
      request.entry _) fun s s' _ ht => ?_) fun _ s h => holdsPins_of_verified hsound.required h.2
    exact advance_of_touch hE ht (fun _ => False.elim) id fun _ _ _ => id
  refine Meets.bind Meets.look fun present => ?_
  split
  · refine Meets.bind hverify fun _ s fates hholds => ?_
    obtain ⟨ht, -⟩ := removeDirAll_touch (C := fun _ => False) (P := fun _ => True)
      (staging sha256Hex root request.entry) |>.ignore s fates trivial
    have hZ : ∀ p, staging sha256Hex root request.entry <+: p → Remote root p :=
      fun p hp => remote_staging hp
    refine ⟨advance_of_touch hE ht hZ id fun _ _ _ => id, fun _ _ => ?_⟩
    exact hholds.remote hsound.inside ht hZ fun _ _ => id
  · exact Meets.bind ((parents_advance hE he).mapErr _) fun _ =>
      Meets.bind ((durableRename_advance hE he request).mapErr _) fun _ => hverify

/-! ## the receipt -/

/-- a change of the private files that leaves the artifact of `entry` checked -/
theorem private_advance (hE : Catalog sha256Hex root E) (he : E entry) {ε α : Type} {m : Io ε α}
    {Q : α → Tree → Prop}
    (hm : Meets (Touch (Private root) (· <+: root ++ [privateName])) P m Q) :
    Meets (Advance sha256Hex root E entry)
      (fun s => P s ∧ HoldsPins sha256Hex s (dest sha256Hex root entry) entry.pins) m
      fun a s => Q a s ∧ HoldsPins sha256Hex s (dest sha256Hex root entry) entry.pins := by
  have hin := (hE.sound entry he).inside
  have hC : ∀ p, root ++ [artifactsName] <+: p → ¬ p <+: root ++ [privateName] :=
    fun p hp => below_ne artifacts_ne_private hp (List.prefix_refl _)
  refine (hm.frame fun s s' hholds ht => ?_).weaken fun s s' _ ht => ?_
  · exact hholds.remote hin ht (fun p hp => remote_private hp) hC
  · refine advance_of_touch hE ht (fun p hp => remote_private hp) ?_ ?_
    · intro h
      have hlen := h.length_le
      simp [receiptPath] at hlen
    · exact fun e c he' => hC _ ((hE.sound e he').inside.trans (List.prefix_append _ [c]))

/-- the receipt is replaced by the text of an entry whose directory holds its pins -/
theorem replace_advance (hE : Catalog sha256Hex root E) (he : E entry) {staged : Path}
    (hstaged : Private root staged) :
    Meets (Advance sha256Hex root E entry)
      (fun s => s.get staged = some (.file (utf8 (receiptText sha256Hex entry))) ∧
        HoldsPins sha256Hex s (dest sha256Hex root entry) entry.pins)
      (renameFile staged (receiptPath root)) fun _ _ => True := by
  have hin := (hE.sound entry he).inside
  have hremote := remote_private hstaged
  refine Meets.atomic fun s a s' hP hw => ⟨?_, trivial⟩
  obtain ⟨hfile, hholds⟩ := hP
  rw [hfile] at hw
  cases hw
  have ht := erase_set_touch (C := fun _ => False) s staged (receiptPath root)
    (.file (utf8 (receiptText sha256Hex entry)))
  have hZ : ∀ dir q, root ++ [artifactsName] <+: dir → (q <+: dir ∨ ∃ c, q = dir ++ [c]) →
      ¬ (q = staged ∨ q = receiptPath root) := by
    rintro dir q hdir hq (rfl | rfl)
    · rcases hq with hq | ⟨c, rfl⟩
      · exact Remote.not_prefix hdir hq hremote
      · exact Remote.not_below hdir hremote
    · rcases hq with hq | ⟨c, hc⟩
      · exact below_ne artifacts_ne_private.symm receiptPath_below hdir hq
      · have hbelow : root ++ [artifactsName] <+: receiptPath root :=
          hc ▸ hdir.trans (List.prefix_append _ [c])
        exact below_split artifacts_ne_private hbelow receiptPath_below
  refine ⟨fun _ => .inr ⟨entry, he, FileTree.get_set_self _ _ _, ?_⟩,
    .inr (FileTree.get_set_self _ _ _), fun dir hdir hopen => ?_⟩
  · exact hholds.touch ht (fun q hq => hZ _ q hin (.inl hq)) fun c => ⟨hZ _ _ hin (.inr ⟨c, rfl⟩), id⟩
  · exact Intact.of_touch ht (fun q hq => hZ _ q hdir (.inl hq))
      (fun c _ => hZ _ _ hdir (.inr ⟨c, rfl⟩)) hopen

theorem storeAtomic_advance (hstem : ∀ stem taken, stem <+: tempName stem taken)
    (hE : Catalog sha256Hex root E) (he : E entry) :
    Meets (Advance sha256Hex root E entry)
      (fun s => HoldsPins sha256Hex s (dest sha256Hex root entry) entry.pins)
      (storeAtomic tempName root (fromEntry sha256Hex entry (entry.artifactId sha256Hex)))
      fun _ _ => True := by
  have hsync : ∀ {P : Tree → Prop}, Meets (Advance sha256Hex root E entry) P
      (syncFile.mapErr ReceiptError.io) fun _ s => P s :=
    fun {P} => (Meets.look.post fun _ _ h => h.1).mapErr _
  have hdir := private_advance hE he (Meets.touch (ensurePrivateDir_touch (Z := fun _ => False)
    (P := fun _ => True) (root ++ [privateName])) (fun _ => False.elim) fun _ hp => hp)
  have htemp := private_advance hE he (Meets.touch (createTemp_touch (P := fun _ => True)
    (C := (· <+: root ++ [privateName])) hstem receiptStem (root ++ [privateName]))
    (fun _ hp => .inr hp) fun _ hp => hp)
  refine Meets.bind ((hdir.mapErr _).pre fun s h => ⟨trivial, h⟩) fun _ =>
    Meets.bind ((htemp.mapErr _).pre fun s h => ⟨trivial, h.2⟩) fun staged => ?_
  -- the temporary file is a private one, whatever its name
  intro s fates hstaged
  obtain ⟨htempname, hholds⟩ := hstaged
  have hprivate : Private root staged := .inr htempname
  have hwrite := private_advance hE he (Meets.touch (writeFile_touch (P := fun _ => True)
    (C := (· <+: root ++ [privateName])) staged (utf8 (receiptText sha256Hex entry)))
    (fun p hp => hp ▸ hprivate) fun _ hp => hp)
  have hremove : Meets (Advance sha256Hex root E entry) (fun _ => True)
      ((removeFile staged).mapErr ReceiptError.io) fun _ _ => True := by
    refine ((removeFile_touch (C := fun _ => False) staged).weaken fun s s' _ ht => ?_).mapErr _
    exact advance_of_touch hE ht (fun p hp => hp ▸ remote_private hprivate) id fun _ _ _ => id
  have hreplace := Meets.bind (hwrite.mapErr ReceiptError.io) fun _ => Meets.bind hsync fun _ =>
    (replace_advance hE he hprivate).mapErr ReceiptError.io
  exact Meets.bind (Meets.onError hreplace hremove) (fun _ => Meets.bind hsync fun _ =>
    Meets.bind hsync fun _ => hsync) s fates ⟨trivial, hholds⟩

theorem commitReceipt_advance (hstem : ∀ stem taken, stem <+: tempName stem taken)
    (hE : Catalog sha256Hex root E) (he : E entry) :
    Meets (Advance sha256Hex root E entry)
      (fun s => HoldsPins sha256Hex s (dest sha256Hex root entry) entry.pins)
      (commitReceipt tempName root (fromEntry sha256Hex entry (entry.artifactId sha256Hex)))
      fun _ _ => True := by
  have hretain := private_advance hE he (retainCurrent_touch (P := fun _ => True))
  refine Meets.bind ((hretain.mapErr _).pre fun s h => ⟨trivial, h⟩) fun _ => ?_
  exact ((storeAtomic_advance hstem hE he).mapErr _).pre fun s h => h.2

/-- **wherever an install stops, the active receipt is the old one or the new one, and is verified** -/
theorem installEntry_advance (hstem : ∀ stem taken, stem <+: tempName stem taken)
    (hE : Catalog sha256Hex root E) (request : InstallRequest) (he : E request.entry) :
    Meets (Advance sha256Hex root E request.entry) P
      (installEntry sha256Hex tempName root request) fun _ _ => True := by
  unfold installEntry
  refine Meets.bind Meets.lift fun _ => Meets.bind ((lockExclusive_advance hE).mapErr _) fun _ =>
    Meets.bind Meets.look fun _ => Meets.bind Meets.lift fun _ => Meets.bind Meets.lift fun _ =>
    Meets.bind (stageEntry_advance hstem hE request) fun hash => Meets.bind Meets.require fun _ =>
      ?_
  intro s fates h
  obtain ⟨rfl, -⟩ := h
  suffices hrest : Meets (Advance sha256Hex root E request.entry) (fun _ => True) _ fun _ _ => True
    from hrest s fates trivial
  exact Meets.bind (publishArtifact_advance hE request he) fun _ => Meets.bind Meets.lift fun _ =>
    Meets.bind Meets.lift fun _ => Meets.bind Meets.lift fun _ =>
    Meets.bind (((commitReceipt_advance hstem hE he).mapErr _).pre fun s h => h.1.1.1) fun _ =>
    Meets.pure (Q := fun _ _ => True) _

end store

end Voisu.LocalModel
