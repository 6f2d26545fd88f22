import Mathlib
import Voisu.Recovery.Store

/-!
# What a file operation of the store may do

Every operation that a call makes is of one of seven kinds; what the store promises is proved of the
kinds, and the calls are shown to make no others.

* `Legal`               the kinds;
* `Inv`                 the bounds of the directory, and metadata that reads back as its own;
* `Legal.inv`           **the kinds keep the bounds**;
* `Legal.pcm`, `Legal.state`   samples are not overwritten, a started delivery is not forgotten.
-/

namespace Voisu.Recovery
open Lib

/-! ## names -/

section names
variable {id id' name : Text}

theorem getLast_append {s t : Text} (h : t ≠ []) : (s ++ t).getLast? = t.getLast? := by
  rw [List.getLast?_append]
  cases ht : t.getLast? with
  | none => exact absurd (List.getLast?_eq_none_iff.1 ht) h
  | some c => rfl

theorem getLast_metaName (id : Text) : (metaName id).getLast? = some 'a' :=
  getLast_append (by decide)

theorem getLast_pcmName (id : Text) : (pcmName id).getLast? = some 'm' :=
  getLast_append (by decide)

theorem getLast_tmpName (name : Text) : (tmpName name).getLast? = some 'p' := by
  rw [tmpName, ← List.cons_append]
  exact getLast_append (by decide)

theorem getLast_clockName : clockName.getLast? = some 's' := by decide

theorem metaName_inj (h : metaName id = metaName id') : id = id' := List.append_cancel_right h
theorem pcmName_inj (h : pcmName id = pcmName id') : id = id' := List.append_cancel_right h

theorem ne_of_getLast {s t : Text} {a b : Char} (hs : s.getLast? = some a)
    (ht : t.getLast? = some b) (hab : a ≠ b) : s ≠ t := by
  rintro rfl
  exact hab (Option.some.inj (hs.symm.trans ht))

theorem pcmName_ne_metaName : pcmName id ≠ metaName id' :=
  ne_of_getLast (getLast_pcmName _) (getLast_metaName _) (by decide)

theorem metaName_ne_tmpName : metaName id ≠ tmpName name :=
  ne_of_getLast (getLast_metaName _) (getLast_tmpName _) (by decide)

theorem pcmName_ne_tmpName : pcmName id ≠ tmpName name :=
  ne_of_getLast (getLast_pcmName _) (getLast_tmpName _) (by decide)

theorem metaName_ne_clockName : metaName id ≠ clockName :=
  ne_of_getLast (getLast_metaName _) getLast_clockName (by decide)

theorem pcmName_ne_clockName : pcmName id ≠ clockName :=
  ne_of_getLast (getLast_pcmName _) getLast_clockName (by decide)

theorem tmpName_ne_clockName : tmpName name ≠ clockName :=
  ne_of_getLast (getLast_tmpName _) getLast_clockName (by decide)

theorem tmpName_inj {name' : Text} (h : tmpName name = tmpName name') : name = name' :=
  List.append_cancel_right (List.cons.inj h).2

theorem not_endsWith {s t : Text} (ht : t ≠ []) (h : s.getLast? ≠ t.getLast?) :
    endsWith s t = false := by
  rw [Bool.eq_false_iff]
  intro hends
  obtain ⟨r, rfl⟩ := List.isSuffixOf_iff_suffix.1 hends
  exact h (getLast_append ht)

theorem stripSuffix_append (s t : Text) : stripSuffix (s ++ t) t = some s := by
  have hends : endsWith (s ++ t) t = true := List.isSuffixOf_iff_suffix.2 (List.suffix_append s t)
  simp [stripSuffix, hends]

theorem stripSuffix_eq_some {s t r : Text} (h : stripSuffix s t = some r) : s = r ++ t := by
  simp only [stripSuffix] at h
  split at h
  next hends =>
    obtain ⟨r', rfl⟩ := List.isSuffixOf_iff_suffix.1 hends
    have : r' = r := by simpa using h
    rw [this]
  next => cases h

theorem stripSuffix_none {s t : Text} (ht : t ≠ []) (h : s.getLast? ≠ t.getLast?) :
    stripSuffix s t = none := by
  rw [stripSuffix, not_endsWith ht h]
  rfl

/-- an id that is safe does not make a hidden name -/
theorem head_append_of_safeId (h : safeId id = true) (s : Text) :
    (id ++ s).head? ≠ some '.' := by
  cases id with
  | nil => simp [safeId] at h
  | cons c id =>
    intro hhead
    have hc : c = '.' := by simpa using hhead
    simp [safeId, hc] at h

theorem stemOf_pcmName (h : safeId id = true) : stemOf (pcmName id) = some id := by
  have hvisible := head_append_of_safeId h pcmSuffix
  have hmeta : stripSuffix (pcmName id) metaSuffix = none :=
    stripSuffix_none (by decide) (by rw [getLast_pcmName]; decide)
  have hpcm : stripSuffix (pcmName id) pcmSuffix = some id := stripSuffix_append id pcmSuffix
  rw [stemOf, if_neg (by
    rintro (hhead | hclock)
    · exact hvisible hhead
    · exact pcmName_ne_clockName hclock), hmeta, hpcm]
  rfl

theorem stemOf_metaName (h : safeId id = true) : stemOf (metaName id) = some id := by
  have hvisible := head_append_of_safeId h metaSuffix
  have hmeta : stripSuffix (metaName id) metaSuffix = some id := stripSuffix_append id metaSuffix
  rw [stemOf, if_neg (by
    rintro (hhead | hclock)
    · exact hvisible hhead
    · exact metaName_ne_clockName hclock), hmeta]
  rfl

example : stemOf (metaName "7".toList) = some "7".toList := by decide +kernel

theorem stemOf_tmpName : stemOf (tmpName name) = none := if_pos (.inl rfl)
theorem stemOf_clockName : stemOf clockName = none := if_pos (.inr rfl)

end names

/-! ## metadata that reads back -/

/-- the id that is read of the metadata, now and after it was replaced, is the id -/
def ReadsBack (a : RecoveryArtifact) : Prop :=
  a.recordingId.getLast? ≠ some '\r' ∧
    ∀ b, parseMeta (encodeMeta a) = some b → b.recordingId = a.recordingId

/-- metadata that was read reads back under every state -/
theorem parseMeta_replaced {text : Text} {a : RecoveryArtifact} (h : parseMeta text = some a)
    (hid : a.recordingId.getLast? ≠ some '\r') (state : DeliveryState) :
    ∃ model, parseMeta (encodeMeta { a with deliveryState := state }) =
      some { a with deliveryState := state, modelReceiptHash := model } := by
  obtain ⟨hbreak, hmodel⟩ := parseMeta_unbroken h
  have hchomp : chompReturn a.recordingId = a.recordingId := if_neg hid
  refine ⟨chompReturn a.modelReceiptHash, ?_⟩
  rw [parseMeta_encodeMeta (a := { a with deliveryState := state }) hbreak hmodel]
  simp only [hchomp]

theorem readsBack_replaced {text : Text} {a : RecoveryArtifact} (h : parseMeta text = some a)
    (hid : a.recordingId.getLast? ≠ some '\r') (state : DeliveryState) :
    ReadsBack { a with deliveryState := state } := by
  obtain ⟨model, hparse⟩ := parseMeta_replaced h hid state
  refine ⟨hid, fun b hb => ?_⟩
  rw [hparse] at hb
  rw [← Option.some.inj hb]

theorem loadMeta_eq_ok {d : Store} {name : Text} {a : RecoveryArtifact}
    (h : loadMeta d name = .ok a) :
    ∃ f text, d.get name = some f ∧ fromUtf8 f.contents = some text ∧ parseMeta text = some a := by
  simp only [loadMeta] at h
  split at h
  next => cases h
  next f hget =>
    split at h
    next => cases h
    next text htext =>
      split at h
      next => cases h
      next b hparse =>
        obtain rfl := Except.ok.inj h
        exact ⟨f, text, hget, htext, hparse⟩

theorem loadMeta_congr {d d' : Store} {name : Text} (h : d'.get name = d.get name) :
    loadMeta d' name = loadMeta d name := by
  simp only [loadMeta, h]

theorem loadMeta_encoded {d : Store} {name : Text} {a b : RecoveryArtifact} {f : File UInt8}
    (hget : d.get name = some f) (hf : f.contents = utf8 (encodeMeta a)) :
    loadMeta d name = .ok b ↔ parseMeta (encodeMeta a) = some b := by
  simp only [loadMeta, hget, hf, fromUtf8_utf8]
  cases parseMeta (encodeMeta a) <;> simp

/-! ## the kinds of operations -/

/-- metadata and the clock; everything else is samples -/
def isMetadata (name : Text) : Bool :=
  name == clockName || endsWith name metaSuffix || endsWith name (metaSuffix ++ tmpSuffix)

/-- the bytes of the samples, temporaries included -/
def sampleBytes (d : Store) : Nat := d.sizeOn fun name => !isMetadata name

/-- the recordings that the directory holds something of -/
def recordings (d : Store) : Finset Text := d.marks stemOf

/-- the clock, and metadata that is written aside -/
def Scratch (name : Text) : Prop := name = clockName ∨ ∃ id, name = tmpName (metaName id)

theorem Scratch.ne_metaName {name id : Text} (h : Scratch name) : metaName id ≠ name := by
  rcases h with rfl | ⟨id', rfl⟩
  · exact metaName_ne_clockName
  · exact metaName_ne_tmpName

theorem Scratch.ne_pcmName {name id : Text} (h : Scratch name) : pcmName id ≠ name := by
  rcases h with rfl | ⟨id', rfl⟩
  · exact pcmName_ne_clockName
  · exact pcmName_ne_tmpName

inductive Legal (d : Store) : Op → Prop where
  | scratch {name : Text} (h : Scratch name) (modified : Option Nat) : Legal d (.create name modified)
  | scratchByte {name : Text} (h : Scratch name) (b : UInt8) : Legal d (.append name b)
  | samples (id : Text) (modified : Option Nat) : Legal d (.create (tmpName (pcmName id)) modified)
  | samplesByte (id : Text) (b : UInt8) (h : sampleBytes d < maxTotalBytes) :
      Legal d (.append (tmpName (pcmName id)) b)
  | keepPcm {id : Text} (hsafe : safeId id = true) (hpcm : d.get (pcmName id) = none)
      (hmeta : d.get (metaName id) = none) (hroom : (recordings d).card < maxRecordings) :
      Legal d (.rename (tmpName (pcmName id)) (pcmName id))
  | keepMeta {id : Text} {a : RecoveryArtifact} {modified : Option Nat} (hsafe : safeId id = true)
      (hid : a.recordingId = id) (hreads : ReadsBack a)
      (hget : d.get (tmpName (metaName id)) = some { contents := utf8 (encodeMeta a), modified })
      (hheld : id ∈ recordings d)
      (hstate : ∀ b, loadMeta d (metaName id) = .ok b → b.deliveryState ≠ .none →
        ∃ c, parseMeta (encodeMeta a) = some c ∧ c.deliveryState ≠ .none) :
      Legal d (.rename (tmpName (metaName id)) (metaName id))
  | remove (name : Text) : Legal d (.remove name)

/-- what holds of the directory at any time -/
structure Inv (d : Store) : Prop where
  nodup : d.names.Nodup
  samples : sampleBytes d ≤ maxTotalBytes
  held : (recordings d).card ≤ maxRecordings
  metas : ∀ id f, d.get (metaName id) = some f → safeId id = true ∧
    ∃ a, f.contents = utf8 (encodeMeta a) ∧ a.recordingId = id ∧ ReadsBack a

theorem isMetadata_scratch {name : Text} (h : Scratch name) : isMetadata name = true := by
  rcases h with rfl | ⟨id, rfl⟩
  · decide
  · have hname : tmpName (metaName id) = ('.' :: id) ++ (metaSuffix ++ tmpSuffix) := by
      simp [tmpName, metaName]
    have hends : endsWith (tmpName (metaName id)) (metaSuffix ++ tmpSuffix) = true := by
      rw [hname]
      exact List.isSuffixOf_iff_suffix.2 (List.suffix_append _ _)
    simp [isMetadata, hends]

theorem isMetadata_metaName (id : Text) : isMetadata (metaName id) = true := by
  have hends : endsWith (metaName id) metaSuffix = true :=
    List.isSuffixOf_iff_suffix.2 (List.suffix_append _ _)
  simp [isMetadata, hends]

/-- samples that are written aside count as samples -/
theorem isMetadata_tmpPcm (id : Text) : isMetadata (tmpName (pcmName id)) = false := by
  have hclock : (tmpName (pcmName id) == clockName) = false :=
    beq_eq_false_iff_ne.2 tmpName_ne_clockName
  have hmeta : endsWith (tmpName (pcmName id)) metaSuffix = false :=
    not_endsWith (by decide) (by rw [getLast_tmpName]; decide)
  have htmp : endsWith (tmpName (pcmName id)) (metaSuffix ++ tmpSuffix) = false := by
    rw [Bool.eq_false_iff]
    intro hends
    obtain ⟨r, hr⟩ := List.isSuffixOf_iff_suffix.1 hends
    have hcut : (r ++ metaSuffix) ++ tmpSuffix = ('.' :: pcmName id) ++ tmpSuffix := by
      rw [List.append_assoc, hr]
      rfl
    have hlast := congrArg List.getLast? (List.append_cancel_right hcut)
    rw [getLast_append (by decide), ← List.singleton_append,
      getLast_append (by simp [pcmName, pcmSuffix]), getLast_pcmName] at hlast
    exact absurd hlast (by decide)
  rw [isMetadata, hclock, hmeta, htmp]
  rfl

example : isMetadata (tmpName (pcmName "7".toList)) = false := by decide +kernel

/-! ## bounds -/

section bounds
variable {d : Store} {name : Text} {f : File UInt8}

theorem sampleBytes_put_metadata (h : isMetadata name = true) :
    sampleBytes (d.put name f) ≤ sampleBytes d := by
  rw [sampleBytes, Dir.sizeOn_put, h]
  exact Dir.sizeOn_drop_le _ _ _

theorem recordings_put_scratch (h : Scratch name) : recordings (d.put name f) ⊆ recordings d := by
  refine Dir.marks_put_subset _ subset_rfl fun s hs => ?_
  rcases h with rfl | ⟨id, rfl⟩
  · rw [stemOf_clockName] at hs
    cases hs
  · rw [stemOf_tmpName] at hs
    cases hs

theorem recordings_put_tmpPcm (id : Text) :
    recordings (d.put (tmpName (pcmName id)) f) ⊆ recordings d := by
  refine Dir.marks_put_subset _ subset_rfl fun s hs => ?_
  rw [stemOf_tmpName] at hs
  cases hs

theorem sampleBytes_le_usage (d : Store) : sampleBytes d ≤ (usage d).2 :=
  Dir.sizeOn_mono (fun _ _ => rfl) d

end bounds

/-! ## what the kinds keep -/

section keeps
variable {d : Store} {op : Op}

theorem Legal.samples_le (h : Legal d op) (hd : sampleBytes d ≤ maxTotalBytes) :
    sampleBytes (op.apply d) ≤ maxTotalBytes := by
  cases h with
  | scratch hname modified => exact (sampleBytes_put_metadata (isMetadata_scratch hname)).trans hd
  | scratchByte hname b =>
    simp only [FileOp.apply]
    split
    · exact hd
    · exact (sampleBytes_put_metadata (isMetadata_scratch hname)).trans hd
  | samples id modified =>
    refine (Nat.le_of_eq ?_).trans ((Dir.sizeOn_drop_le _ d (tmpName (pcmName id))).trans hd)
    simp [FileOp.apply, sampleBytes, Dir.sizeOn_put]
  | samplesByte id b hroom =>
    simp only [FileOp.apply]
    split
    · exact hd
    next f hget =>
      have hle : sampleBytes d + 1 ≤ maxTotalBytes := hroom
      have hone := Dir.sizeOn_drop_add (p := fun name => !isMetadata name) hget
        (by simp [isMetadata_tmpPcm])
      have hput := Dir.sizeOn_put (fun name => !isMetadata name) d (tmpName (pcmName id))
        { f with contents := f.contents ++ [b] }
      simp only [isMetadata_tmpPcm, Bool.not_false, if_true, List.length_append,
        List.length_singleton] at hput
      simp only [sampleBytes] at hle ⊢
      omega
  | @keepPcm id hsafe hpcm hmeta hroom =>
    simp only [FileOp.apply]
    split
    · exact hd
    next f hget =>
      have hone := Dir.sizeOn_drop_add (p := fun name => !isMetadata name) hget
        (by simp [isMetadata_tmpPcm])
      have hput := Dir.sizeOn_put (fun name => !isMetadata name) (d.drop (tmpName (pcmName id)))
        (pcmName id) f
      have hdrop := Dir.sizeOn_drop_le (fun name => !isMetadata name)
        (d.drop (tmpName (pcmName id))) (pcmName id)
      simp only [sampleBytes] at hd ⊢
      split at hput <;> omega
  | @keepMeta id a modified hsafe hid hreads hget hheld hstate =>
    simp only [FileOp.apply]
    split
    · exact hd
    · refine (sampleBytes_put_metadata (isMetadata_metaName id)).trans ?_
      exact (Dir.sizeOn_drop_le _ _ _).trans hd
  | remove name => exact (Dir.sizeOn_drop_le _ _ _).trans hd

theorem Legal.held_le (h : Legal d op) (hd : (recordings d).card ≤ maxRecordings) :
    (recordings (op.apply d)).card ≤ maxRecordings := by
  cases h with
  | scratch hname modified => exact (Finset.card_le_card (recordings_put_scratch hname)).trans hd
  | scratchByte hname b =>
    simp only [FileOp.apply]
    split
    · exact hd
    · exact (Finset.card_le_card (recordings_put_scratch hname)).trans hd
  | samples id modified => exact (Finset.card_le_card (recordings_put_tmpPcm id)).trans hd
  | samplesByte id b hroom =>
    simp only [FileOp.apply]
    split
    · exact hd
    · exact (Finset.card_le_card (recordings_put_tmpPcm id)).trans hd
  | @keepPcm id hsafe hpcm hmeta hroom =>
    simp only [FileOp.apply]
    split
    · exact hd
    next f hget =>
      have hsub : recordings ((d.drop (tmpName (pcmName id))).put (pcmName id) f) ⊆
          insert id (recordings d) := by
        refine Dir.marks_put_subset stemOf ?_ fun s hs => ?_
        · exact (Dir.marks_drop_subset stemOf d _).trans (Finset.subset_insert _ _)
        · rw [stemOf_pcmName hsafe] at hs
          simp [Option.some.inj hs]
      have := (Finset.card_le_card hsub).trans (Finset.card_insert_le _ _)
      omega
  | @keepMeta id a modified hsafe hid hreads hget hheld hstate =>
    simp only [FileOp.apply]
    split
    · exact hd
    · refine (Finset.card_le_card (Dir.marks_put_subset stemOf ?_ fun s hs => ?_)).trans hd
      · exact Dir.marks_drop_subset stemOf d _
      · rw [stemOf_metaName hsafe] at hs
        rw [← Option.some.inj hs]
        exact hheld
  | remove name =>
    exact (Finset.card_le_card (Dir.marks_drop_subset stemOf d name)).trans hd

/-- the metadata of an id changes only where it is kept or removed -/
theorem Legal.metas (h : Legal d op) (id : Text) :
    (op.apply d).get (metaName id) = d.get (metaName id) ∨ (op.apply d).get (metaName id) = none ∨
      ∃ a modified,
        (op.apply d).get (metaName id) = some { contents := utf8 (encodeMeta a), modified } ∧
        safeId id = true ∧ a.recordingId = id ∧ ReadsBack a ∧
        ∀ b, loadMeta d (metaName id) = .ok b → b.deliveryState ≠ .none →
          ∃ c, parseMeta (encodeMeta a) = some c ∧ c.deliveryState ≠ .none := by
  cases h with
  | scratch hname modified =>
    refine .inl (get_apply ?_)
    simpa [FileOp.touched] using hname.ne_metaName
  | scratchByte hname b =>
    refine .inl (get_apply ?_)
    simpa [FileOp.touched] using hname.ne_metaName
  | samples id' modified => exact .inl (get_apply (by simpa [FileOp.touched] using metaName_ne_tmpName))
  | samplesByte id' b hroom =>
    exact .inl (get_apply (by simpa [FileOp.touched] using metaName_ne_tmpName))
  | keepPcm hsafe hpcm hmeta hroom =>
    refine .inl (get_apply ?_)
    simpa [FileOp.touched] using ⟨metaName_ne_tmpName, Ne.symm pcmName_ne_metaName⟩
  | @keepMeta id' a modified hsafe hid hreads hget hheld hstate =>
    by_cases hsame : id = id'
    · subst hsame
      refine .inr (.inr ⟨a, modified, ?_, hsafe, hid, hreads, hstate⟩)
      simp only [FileOp.apply, hget]
      exact Dir.get_put_self _ _ _
    · refine .inl (get_apply ?_)
      have hne : metaName id ≠ metaName id' := fun heq => hsame (metaName_inj heq)
      simpa [FileOp.touched] using ⟨metaName_ne_tmpName, hne⟩
  | remove name =>
    by_cases hname : metaName id = name
    · exact .inr (.inl (hname ▸ Dir.get_drop_self d _))
    · exact .inl (Dir.get_drop_ne hname)

/-- **the kinds keep the bounds** -/
theorem Legal.inv (h : Legal d op) (hd : Inv d) : Inv (op.apply d) := by
  refine ⟨nodup_apply hd.nodup op, h.samples_le hd.samples, h.held_le hd.held, ?_⟩
  intro id f hf
  rcases h.metas id with hsame | hnone | ⟨a, modified, hget, hsafe, hid, hreads, -⟩
  · exact hd.metas id f (hsame ▸ hf)
  · rw [hnone] at hf
    cases hf
  · rw [hget] at hf
    exact ⟨hsafe, a, by rw [← Option.some.inj hf], hid, hreads⟩

/-- **samples that are retained are not overwritten**: a file of samples appears only where neither
samples nor metadata of the id were there -/
theorem Legal.pcm (h : Legal d op) {id : Text} {f : File UInt8}
    (hf : (op.apply d).get (pcmName id) = some f) :
    d.get (pcmName id) = some f ∨ d.get (pcmName id) = none ∧ d.get (metaName id) = none := by
  have hsame : pcmName id ∉ op.touched → d.get (pcmName id) = some f := fun hnot =>
    (get_apply hnot).symm.trans hf
  cases h with
  | scratch hname modified =>
    refine .inl (hsame ?_)
    simpa [FileOp.touched] using hname.ne_pcmName
  | scratchByte hname b =>
    refine .inl (hsame ?_)
    simpa [FileOp.touched] using hname.ne_pcmName
  | samples id' modified => exact .inl (hsame (by simpa [FileOp.touched] using pcmName_ne_tmpName))
  | samplesByte id' b hroom =>
    exact .inl (hsame (by simpa [FileOp.touched] using pcmName_ne_tmpName))
  | @keepPcm id' hsafe hpcm hmeta hroom =>
    by_cases hid : id = id'
    · subst hid
      exact .inr ⟨hpcm, hmeta⟩
    · have hne : pcmName id ≠ pcmName id' := fun heq => hid (pcmName_inj heq)
      exact .inl (hsame (by simpa [FileOp.touched] using ⟨pcmName_ne_tmpName, hne⟩))
  | keepMeta hsafe hid hreads hget hheld hstate =>
    exact .inl (hsame (by simpa [FileOp.touched] using ⟨pcmName_ne_tmpName, pcmName_ne_metaName⟩))
  | remove name =>
    by_cases hname : pcmName id = name
    · have hgone : (FileOp.apply d (.remove name)).get (pcmName id) = none :=
        hname ▸ Dir.get_drop_self d _
      rw [hgone] at hf
      cases hf
    · exact .inl (hsame (by simpa [FileOp.touched] using hname))

/-- **a delivery that was started is not forgotten while its metadata is there** -/
theorem Legal.state (h : Legal d op) {id : Text} {b : RecoveryArtifact}
    (hb : loadMeta d (metaName id) = .ok b) (hstarted : b.deliveryState ≠ .none)
    (hthere : (op.apply d).get (metaName id) ≠ none) :
    ∃ c, loadMeta (op.apply d) (metaName id) = .ok c ∧ c.deliveryState ≠ .none := by
  rcases h.metas id with hsame | hnone | ⟨a, modified, hget, -, -, -, hstate⟩
  · exact ⟨b, (loadMeta_congr hsame).trans hb, hstarted⟩
  · exact absurd hnone hthere
  · obtain ⟨c, hc, hc'⟩ := hstate b hb hstarted
    exact ⟨c, (loadMeta_encoded hget rfl).2 hc, hc'⟩

end keeps

end Voisu.Recovery
