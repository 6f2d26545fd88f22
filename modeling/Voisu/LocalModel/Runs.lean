import Mathlib
import Voisu.LocalModel.Active

/-!
# Runs of the model store

* `resolve`              a path without its `..`;
* `removeUnleased_clear` a removal leaves the active artifact and the leased one;
* `StepSafe`             what one call does to the receipt and to the leased directory;
* `run_active`           **in a run over plain calls the active receipt always names a directory that
                         holds exactly its pins, and no leased artifact is removed.**
-/

namespace Voisu.LocalModel
open Lib Prog

/-- the directory that a path leads to -/
def resolve (path : Path) : Path :=
  path.foldl (fun done c => if c = .parentDir then done.dropLast else done ++ [c]) []

theorem resolve_eq {path : Path} (h : .parentDir ∉ path) : resolve path = path := by
  have hfold : ∀ done : Path,
      path.foldl (fun done c => if c = .parentDir then done.dropLast else done ++ [c]) done =
        done ++ path := by
    induction path with
    | nil => simp
    | cons c path ih =>
      intro done
      obtain ⟨hc, hpath⟩ := not_or.mp (mt List.mem_cons.mpr h)
      rw [List.foldl_cons, if_neg (Ne.symm hc), ih hpath, List.append_assoc]
      rfl
  exact hfold []

/-! ## receipts that do not parse -/

theorem readPin_error {st : ReceiptLines} {line : Text} {e : ReceiptError}
    (h : st.readPin line = .error e) : ∃ detail, e = .invalid detail := by
  unfold ReceiptLines.readPin at h
  repeat' split at h
  all_goals first
    | exact ⟨_, (Except.error.inj h).symm⟩
    | cases h

theorem readField_error {st : ReceiptLines} {line : Text} {e : ReceiptError}
    (h : st.readField line = .error e) : ∃ detail, e = .invalid detail := by
  unfold ReceiptLines.readField at h
  repeat' split at h
  all_goals first
    | exact ⟨_, (Except.error.inj h).symm⟩
    | cases h

theorem read_error {st : ReceiptLines} {raw : Text} {e : ReceiptError}
    (h : st.read raw = .error e) : ∃ detail, e = .invalid detail := by
  unfold ReceiptLines.read at h
  dsimp only at h
  split at h
  · cases h
  split at h
  · cases h
  split at h
  · exact readPin_error h
  · exact readField_error h

theorem foldlM_read_error {lines : List Text} {st : ReceiptLines} {e : ReceiptError}
    (h : lines.foldlM ReceiptLines.read st = .error e) : ∃ detail, e = .invalid detail := by
  induction lines generalizing st with
  | nil => cases h
  | cons line lines ih =>
    rw [List.foldlM_cons] at h
    cases hread : st.read line with
    | error e' =>
      rw [hread] at h
      obtain rfl := Except.error.inj h
      exact read_error hread
    | ok st' =>
      rw [hread] at h
      exact ih h

theorem orInvalid_bind_error {α β : Type} {field : Option α} {name : String}
    {f : α → Except ReceiptError β} {e : ReceiptError} (h : (orInvalid field name >>= f) = .error e)
    (hf : ∀ a, f a = .error e → ∃ detail, e = .invalid detail) : ∃ detail, e = .invalid detail := by
  cases field with
  | none => exact ⟨_, (Except.error.inj h).symm⟩
  | some a => exact hf a h

section store
variable {sha256Hex : List UInt8 → Text} {tempName : Text → List Component → Text} {root : Path}
  {E : CatalogEntry → Prop}

/-- a text that is no receipt is invalid, it is not missing -/
theorem parse_error {text : Text} {e : ReceiptError} (h : parse sha256Hex text = .error e) :
    ∃ detail, e = .invalid detail := by
  unfold parse at h
  cases hlines : (strLines text).foldlM ReceiptLines.read ReceiptLines.empty with
  | error e' =>
    rw [hlines] at h
    obtain rfl := Except.error.inj h
    exact foldlM_read_error hlines
  | ok st =>
    rw [hlines] at h
    exact orInvalid_bind_error h fun _ h => orInvalid_bind_error h fun _ h =>
      orInvalid_bind_error h fun _ h => orInvalid_bind_error h fun _ h =>
      orInvalid_bind_error h fun _ h => orInvalid_bind_error h nofun

/-- with a receipt there, what is loaded is parsed of its text -/
theorem loadActive_text {tree : Tree} {text : Text} {active : Option ActiveReceipt}
    (htext : tree.get (receiptPath root) = some (.file (utf8 text)))
    (h : loadActive sha256Hex root tree = .ok active) :
    ∃ r, active = some r ∧ parse sha256Hex text = .ok r := by
  have hload : load sha256Hex root tree = parse sha256Hex text := by
    rw [load, htext]
    dsimp only
    rw [fromUtf8_utf8]
  rw [loadActive, hload] at h
  cases hparse : parse sha256Hex text with
  | ok r =>
    rw [hparse] at h
    exact ⟨r, (Except.ok.inj h).symm, rfl⟩
  | error e =>
    obtain ⟨detail, rfl⟩ := parse_error hparse
    rw [hparse] at h
    cases h

theorem loadActive_of_parse {tree : Tree} {text : Text} {r : ActiveReceipt}
    (htext : tree.get (receiptPath root) = some (.file (utf8 text)))
    (hparse : parse sha256Hex text = .ok r) :
    loadActive sha256Hex root tree = .ok (some r) := by
  rw [loadActive, load, htext]
  dsimp only
  rw [fromUtf8_utf8]
  dsimp only
  rw [hparse]

/-! ## removals -/

/-- what a removal may have done wherever it stops -/
structure Clear (sha256Hex : List UInt8 → Text) (root : Path) (E : CatalogEntry → Prop)
    (lease : Option ModelLease) (before after : Tree) : Prop where
  active : ActiveOk sha256Hex root E before → ActiveOk sha256Hex root E after
  receipt : after.get (receiptPath root) = before.get (receiptPath root)
  intact : ∀ l, lease = some l → openDir before l.artifactDir = .ok () →
    Intact before after l.artifactDir

instance {lease : Option ModelLease} : Std.Refl (Clear sha256Hex root E lease) :=
  ⟨fun _ => ⟨id, rfl, fun _ _ hopen => ⟨hopen, fun _ _ h => h⟩⟩⟩

instance {lease : Option ModelLease} : IsTrans Tree (Clear sha256Hex root E lease) where
  trans a b c hab hbc := by
    refine ⟨fun h => hbc.active (hab.active h), hbc.receipt.trans hab.receipt, fun l hl hopen => ?_⟩
    have h1 := hab.intact l hl hopen
    have h2 := hbc.intact l hl h1.opened
    exact ⟨h2.opened, fun x node h => h2.kept x node (h1.kept x node h)⟩

theorem validatedArtifactDir_eq {path artifact : Path}
    (h : validatedArtifactDir root path = some artifact) :
    artifact = path ∧ root ++ [artifactsName] <+: path := by
  unfold validatedArtifactDir at h
  split at h
  · rename_i hbelow
    dsimp only at h
    split at h
    · exact ⟨(Option.some.inj h).symm, List.isPrefixOf_iff_prefix.mp hbelow⟩
    · cases h
  · cases h

/-- a removal that does not overlap a directory touches nothing of it -/
theorem not_overlaps {path dir : Path} (h : overlapsProtected path dir = false) :
    (∀ q, q <+: dir → ¬ path <+: q) ∧ ∀ c, ¬ path <+: dir ++ [c] := by
  simp only [overlapsProtected, Bool.or_eq_false_iff] at h
  have hdir : ¬ dir <+: path := fun hp => by
    rw [List.isPrefixOf_iff_prefix.mpr hp] at h
    cases h.1
  have hpath : ¬ path <+: dir := fun hp => by
    rw [List.isPrefixOf_iff_prefix.mpr hp] at h
    cases h.2
  refine ⟨fun q hq hp => hpath (hp.trans hq), fun c hp => ?_⟩
  rcases List.prefix_concat_iff.mp hp with rfl | hp
  · exact hdir (List.prefix_append _ _)
  · exact hpath hp

/-- **a removal leaves the active artifact and the leased one** -/
theorem removeUnleased_clear (hE : Catalog sha256Hex root E) (lease : Option ModelLease)
    (path : Path) :
    Meets (Clear sha256Hex root E lease) (fun _ => True) (removeUnleased sha256Hex root lease path)
      fun _ _ => True := by
  unfold removeUnleased
  refine Meets.bind Meets.require fun _ => Meets.bind Meets.look fun active =>
    Meets.bind Meets.require fun _ => ?_
  cases hvalid : validatedArtifactDir root path with
  | none => exact Meets.throw _
  | some artifact =>
    obtain ⟨rfl, hbelow⟩ := validatedArtifactDir_eq hvalid
    refine ((removeDirAll_touch (C := fun _ => False) artifact).weaken ?_).ignore
    rintro s s' ⟨⟨⟨-, hlease⟩, hactive⟩, hfree⟩ ht
    have hreceipt : s'.get (receiptPath root) = s.get (receiptPath root) :=
      ht.same (fun h => below_ne artifacts_ne_private hbelow receiptPath_below h) id
    rw [Bool.not_eq_true'] at hlease hfree
    refine ⟨?_, hreceipt, fun l hl hopen => ?_⟩
    · rintro (hnone | ⟨e, he, htext, hholds⟩)
      · exact .inl (hreceipt.trans hnone)
      · obtain ⟨r, rfl, hparse⟩ := loadActive_text htext hactive
        obtain ⟨hdir, -⟩ := (hE.sound e he).readsBack r hparse
        obtain ⟨hup, hchild⟩ := not_overlaps (by simpa [hdir] using hfree)
        exact .inr ⟨e, he, hreceipt.trans htext, hholds.touch ht hup fun c => ⟨hchild c, id⟩⟩
    · subst hl
      obtain ⟨hup, hchild⟩ := not_overlaps (by simpa using hlease)
      exact Intact.of_touch ht hup (fun c _ => hchild c) hopen

end store

/-! ## runs -/

section runs
variable (sha256Hex : List UInt8 → Text) (tempName : Text → List Component → Text) (root : Path)

/-- the calls of a run: sound entries whose artifacts are apart, and leases without `..` -/
structure PlainCalls (calls : List Call) : Prop where
  sound : ∀ request fates, .install request fates ∈ calls → Sound sha256Hex root request.entry
  apart : ∀ request fates request' fates', .install request fates ∈ calls →
    .install request' fates' ∈ calls →
    dest sha256Hex root request.entry <+: dest sha256Hex root request'.entry →
      dest sha256Hex root request.entry = dest sha256Hex root request'.entry
  leases : ∀ lease, .acquire lease ∈ calls → .parentDir ∉ lease.artifactDir

/-- whenever a receipt is loaded, the directory that it names holds exactly its pins -/
def Verified (tree : Tree) : Prop :=
  ∀ r, loadActive sha256Hex root tree = .ok (some r) → HoldsPins sha256Hex tree (r.dir root) r.files

/-- an install leaves the receipt as it was or replaces it as a whole, and a leased artifact stays -/
structure StepSafe (before after : Store) (call : Call) : Prop where
  receipt : ∀ request fates, call = .install request fates →
    after.tree.get (receiptPath root) = before.tree.get (receiptPath root) ∨
      after.tree.get (receiptPath root) = some (.file (utf8 (receiptText sha256Hex request.entry)))
  leased : ∀ lease, before.lease = some lease →
    root ++ [artifactsName] <+: resolve lease.artifactDir →
    openDir before.tree (resolve lease.artifactDir) = .ok () →
      Intact before.tree after.tree (resolve lease.artifactDir)

/-- what the calls of a run keep -/
structure RunInv (E : CatalogEntry → Prop) (st : Store) : Prop where
  active : ActiveOk sha256Hex root E st.tree
  lease : ∀ lease, st.lease = some lease → .parentDir ∉ lease.artifactDir

end runs

section runs
variable {sha256Hex : List UInt8 → Text} {tempName : Text → List Component → Text} {root : Path}
  {E : CatalogEntry → Prop}

theorem ActiveOk.verified (hE : Catalog sha256Hex root E) {tree : Tree}
    (h : ActiveOk sha256Hex root E tree) : Verified sha256Hex root tree := by
  intro r hr
  rcases h with hnone | ⟨e, he, htext, hholds⟩
  · rw [loadActive, load, hnone] at hr
    cases hr
  · obtain ⟨r', hr', hparse⟩ := loadActive_text htext hr
    obtain rfl := Option.some.inj hr'
    obtain ⟨hdir, hfiles⟩ := (hE.sound e he).readsBack r hparse
    rwa [hdir, hfiles]

theorem after_lease {st : Store} {ε α : Type} {stop : Stop Tree Text Part ε α} {lease : ModelLease}
    (h : (st.after stop).lease = some lease) : st.lease = some lease := by
  unfold Store.after at h
  dsimp only at h
  split at h
  · cases h
  · exact h

/-- **one call** -/
theorem call_safe (hstem : ∀ stem taken, stem <+: tempName stem taken)
    (hE : Catalog sha256Hex root E) {st : Store} (hst : RunInv sha256Hex root E st) {call : Call}
    (hentry : ∀ request fates, call = .install request fates → E request.entry)
    (hlease : ∀ lease, call = .acquire lease → .parentDir ∉ lease.artifactDir) :
    RunInv sha256Hex root E (st.call sha256Hex tempName root call) ∧
      StepSafe sha256Hex root st (st.call sha256Hex tempName root call) call := by
  cases call with
  | install request fates =>
    obtain ⟨hadvance, -⟩ := installEntry_advance (P := fun _ => True) hstem hE request
      (hentry request fates rfl) st.tree fates trivial
    refine ⟨⟨hadvance.active hst.active, fun l hl => hst.lease l (after_lease hl)⟩, ?_, ?_⟩
    · intro request' fates' heq
      cases heq
      exact hadvance.receipt
    · exact fun l _ hin hopen => hadvance.intact _ hin hopen
  | remove path fates =>
    obtain ⟨hclear, -⟩ := removeUnleased_clear hE st.lease path st.tree fates trivial
    refine ⟨⟨hclear.active hst.active, fun l hl => hst.lease l (after_lease hl)⟩, ?_, ?_⟩
    · intro request fates' heq
      cases heq
    · intro l hl _ hopen
      have heq := resolve_eq (hst.lease l hl)
      rw [heq] at hopen ⊢
      exact hclear.intact l hl hopen
  | acquire lease =>
    refine ⟨⟨hst.active, ?_⟩, ?_, fun _ _ _ hopen => ⟨hopen, fun _ _ h => h⟩⟩
    · intro l hl
      obtain rfl := Option.some.inj hl
      exact hlease lease rfl
    · intro request fates heq
      cases heq
  | release =>
    refine ⟨⟨hst.active, ?_⟩, ?_, fun _ _ _ hopen => ⟨hopen, fun _ _ h => h⟩⟩
    · intro l hl
      cases hl
    · intro request fates heq
      cases heq

theorem opened_active : ActiveOk sha256Hex root E (Store.opened root).tree := by
  refine .inl ?_
  have hnone : ¬ ((Store.opened root).tree.get (receiptPath root)).isSome = true := by
    rw [FileTree.get_isSome_iff]
    rintro ⟨node, hmem⟩
    obtain ⟨p, hp, heq⟩ := List.mem_map.mp hmem
    obtain rfl := (Prod.mk.inj heq).1
    have hlen : (receiptPath root).length ≤ root.length + 1 := by
      rcases List.mem_append.mp (List.mem_of_mem_filter hp) with h | h
      · have := ((List.mem_inits _ _).mp h).length_le
        omega
      · simp only [List.mem_cons, List.not_mem_nil, or_false] at h
        rcases h with h | h | h <;> rw [h] <;> simp
    simp [receiptPath] at hlen
  simpa using hnone

theorem run_append (st : Store) (calls : List Call) (call : Call) :
    st.run sha256Hex tempName root (calls ++ [call]) =
      (st.run sha256Hex tempName root calls).call sha256Hex tempName root call := by
  rw [Store.run, List.foldl_append]
  rfl

theorem run_inv (hstem : ∀ stem taken, stem <+: tempName stem taken)
    (hE : Catalog sha256Hex root E) {calls : List Call}
    (hentry : ∀ request fates, .install request fates ∈ calls → E request.entry)
    (hlease : ∀ lease, .acquire lease ∈ calls → .parentDir ∉ lease.artifactDir) :
    RunInv sha256Hex root E ((Store.opened root).run sha256Hex tempName root calls) := by
  induction calls using List.reverseRecOn with
  | nil => exact ⟨opened_active, nofun⟩
  | append_singleton calls call ih =>
    rw [run_append]
    refine (call_safe hstem hE (ih ?_ ?_) ?_ ?_).1
    · exact fun request fates h => hentry request fates (List.mem_append_left _ h)
    · exact fun lease h => hlease lease (List.mem_append_left _ h)
    · exact fun request fates h => hentry request fates (by simp [h])
    · exact fun lease h => hlease lease (by simp [h])

/-- the entries that a run installs -/
def Installs (calls : List Call) (entry : CatalogEntry) : Prop :=
  ∃ request fates, .install request fates ∈ calls ∧ request.entry = entry

theorem PlainCalls.catalog {calls : List Call} (h : PlainCalls sha256Hex root calls) :
    Catalog sha256Hex root (Installs calls) := by
  refine ⟨?_, ?_⟩
  · rintro e ⟨request, fates, hmem, rfl⟩
    exact h.sound request fates hmem
  · rintro e e' ⟨request, fates, hmem, rfl⟩ ⟨request', fates', hmem', rfl⟩
    exact h.apart request fates request' fates' hmem hmem'

/-- **wherever a run over plain calls stops, the active receipt names a directory that holds exactly
its pins; an install replaces the receipt as a whole or not at all; no leased artifact is removed** -/
theorem run_active (hstem : ∀ stem taken, stem <+: tempName stem taken) {calls : List Call}
    (h : PlainCalls sha256Hex root calls) {before : List Call} (hbefore : before <+: calls) :
    Verified sha256Hex root ((Store.opened root).run sha256Hex tempName root before).tree ∧
      ∀ call, before ++ [call] <+: calls →
        StepSafe sha256Hex root ((Store.opened root).run sha256Hex tempName root before)
          ((Store.opened root).run sha256Hex tempName root (before ++ [call])) call := by
  have hE := h.catalog
  have hinv := run_inv hstem hE
    (fun request fates (hmem : Call.install request fates ∈ before) => ⟨request, fates, hbefore.subset hmem, rfl⟩)
    fun lease hmem => h.leases lease (hbefore.subset hmem)
  refine ⟨hinv.active.verified hE, fun call hcall => ?_⟩
  have hmem : call ∈ calls := hcall.subset (by simp)
  rw [run_append]
  refine (call_safe hstem hE hinv ?_ ?_).2
  · rintro request fates rfl
    exact ⟨request, fates, hmem, rfl⟩
  · rintro lease rfl
    exact h.leases lease hmem

end runs

/-! ## a store with one small model -/

def sampleBytes : List UInt8 := utf8 "m".toList

def samplePin : Text :=
  "62c66a7a5dd70c3146618063c344e531e6d4b59e379808443ce962b3abd63c5a".toList

/-- the digests that the samples meet -/
def sampleDigests : List (List UInt8 × Text) :=
  [(sampleBytes, samplePin),
    (utf8 samplePin, "10941469938c9a6d8db562ed5861970b14db2193cc3dc54fc015d21cb51daf5e".toList),
    (utf8 "local-model".toList,
      "e0b17b43a5207b740fd790d68f77a3942d4cbeb3036971d13f4afcc91cd3216f".toList),
    (utf8 "local-model ".toList,
      "8fc67db4e9cc7d629352ef409aeff235730935fd459b52a41feeb29eb03b5d32".toList)]

def hexDigit (n : UInt8) : Char := Nat.digitChar n.toNat

/-- SHA-256 where the samples meet it; elsewhere digits of an odd number, which no digest has -/
def sampleSha (bytes : List UInt8) : Text :=
  match sampleDigests.find? fun e => e.1 = bytes with
  | some e => e.2
  | none => '0' :: bytes.flatMap fun b => [hexDigit (b / 16), hexDigit (b % 16)]

/-- a name that is longer than those that are there -/
def sampleTemp (stem : Text) (taken : List Component) : Text :=
  stem ++ List.replicate ((taken.map fun c => c.text.length).sum + 1) 'x'

def sampleRoot : Path := [.rootDir, .normal "models".toList]

def sampleFile : CatalogFile :=
  { name := "model.bin".toList, sha256Hex := samplePin, bytes := 1,
    url := "https://models.test/model.bin".toList }

def sampleEntry (id : String) : CatalogEntry :=
  { id := id.toList, revision := "1".toList, language := "en".toList,
    requiredNames := ["model.bin".toList], abiId := "whisper.cpp-ggml-v1".toList,
    protocol := protocolVersion, licenseSpdx := "MIT".toList, files := [sampleFile],
    allowedHosts := ["models.test".toList], productionWeights := false }

def sampleRequest (id : String) : InstallRequest :=
  { entry := sampleEntry id
    fetcher := fun _ => (sampleBytes, .ok { bytes := 1, sha256Hex := samplePin })
    health := .ok ()
    maintenance := .ok .idle
    consent := { bytes := 1, licenseSpdx := "MIT".toList }
    availableBytes := 1000
    abort := none
    failWrite := none
    elapsed := fun _ => 0 }

/-- an install of a model that goes well -/
def sampleInstall (id : String) : Call := .install (sampleRequest id) []

def sampleReceipt (id : String) : ActiveReceipt :=
  fromEntry sampleSha (sampleEntry id) ((sampleEntry id).artifactId sampleSha)

/-- a receipt that is read as it was written reads back -/
theorem readsBack_of_parse {sha256Hex : List UInt8 → Text} {root : Path} {entry : CatalogEntry}
    (h : parse sha256Hex (receiptText sha256Hex entry) =
      .ok (fromEntry sha256Hex entry (entry.artifactId sha256Hex))) (r : ActiveReceipt)
    (hr : parse sha256Hex (receiptText sha256Hex entry) = .ok r) :
    r.dir root = dest sha256Hex root entry ∧ r.files = entry.pins := by
  rw [h] at hr
  obtain rfl := Except.ok.inj hr
  exact ⟨rfl, rfl⟩

theorem sampleTemp_stem (stem : Text) (taken : List Component) : stem <+: sampleTemp stem taken :=
  List.prefix_append _ _

theorem sample_readsBack :
    parse sampleSha (receiptText sampleSha (sampleEntry "local-model")) =
      .ok (sampleReceipt "local-model") := by decide +kernel

theorem sample_plain :
    PlainCalls sampleSha sampleRoot [sampleInstall "local-model"] := by
  have hsound : Sound sampleSha sampleRoot (sampleEntry "local-model") := by
    refine ⟨?_, by decide +kernel, readsBack_of_parse sample_readsBack⟩
    exact .refl _
  refine ⟨?_, ?_, ?_⟩
  · intro request fates hmem
    obtain ⟨rfl, -⟩ := Call.install.inj (List.mem_singleton.mp hmem)
    exact hsound
  · intro request fates request' fates' hmem hmem' _
    obtain ⟨rfl, -⟩ := Call.install.inj (List.mem_singleton.mp hmem)
    obtain ⟨rfl, -⟩ := Call.install.inj (List.mem_singleton.mp hmem')
    rfl
  · intro lease hmem
    cases List.mem_singleton.mp hmem

/-- the model is installed, and verified -/
theorem sampleInstall_verified :
    Verified sampleSha sampleRoot
      ((Store.opened sampleRoot).run sampleSha sampleTemp sampleRoot
        [sampleInstall "local-model"]).tree :=
  (run_active sampleTemp_stem sample_plain (List.prefix_refl _)).1

/-- an identifier that ends in a blank is read back without it: the receipt that is loaded names a
directory that is not there -/
theorem blankInstall_unverified :
    ¬ Verified sampleSha sampleRoot
      ((Store.opened sampleRoot).run sampleSha sampleTemp sampleRoot
        [sampleInstall "local-model "]).tree := by
  have htext : ((Store.opened sampleRoot).run sampleSha sampleTemp sampleRoot
      [sampleInstall "local-model "]).tree.get (receiptPath sampleRoot) =
        some (.file (utf8 (receiptText sampleSha (sampleEntry "local-model ")))) := by
    decide +kernel
  have hparse : parse sampleSha (receiptText sampleSha (sampleEntry "local-model ")) =
      .ok (sampleReceipt "local-model") := by decide +kernel
  have hopen : openDir ((Store.opened sampleRoot).run sampleSha sampleTemp sampleRoot
      [sampleInstall "local-model "]).tree ((sampleReceipt "local-model").dir sampleRoot) =
        .error .notFound := by decide +kernel
  intro hverified
  have hopened := (hverified _ (loadActive_of_parse htext hparse)).opened
  rw [hopen] at hopened
  cases hopened

end Voisu.LocalModel
