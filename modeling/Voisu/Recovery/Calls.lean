import Mathlib
import Voisu.Recovery.Invariant

/-!
# The calls of the store make legal operations

* `LegalOps`           operations that are legal one after the other;
* `expireWith_legal`, `persistBeforeInference_legal`, `setState_legal`
                       the calls, step by step;
* `requestOps_legal`   **every request**, where what is persisted reads back.
-/

namespace Voisu.Recovery
open Lib

def LegalOps : Store → List Op → Prop
  | _, [] => True
  | d, op :: ops => Legal d op ∧ LegalOps (op.apply d) ops

section legal
variable {d : Store} {ops ops' : List Op}

theorem legalOps_append :
    LegalOps d (ops ++ ops') ↔ LegalOps d ops ∧ LegalOps (applyOps d ops) ops' := by
  induction ops generalizing d with
  | nil => simp [LegalOps, applyOps]
  | cons op ops ih =>
    simp only [List.cons_append, LegalOps, ih, and_assoc]
    rfl

theorem LegalOps.take (h : LegalOps d ops) (n : Nat) : LegalOps d (ops.take n) := by
  induction ops generalizing d n with
  | nil => simpa using h
  | cons op ops ih =>
    cases n with
    | zero => trivial
    | succ n => exact ⟨h.1, ih h.2 n⟩

theorem LegalOps.inv (h : LegalOps d ops) (hd : Inv d) : Inv (applyOps d ops) := by
  induction ops generalizing d with
  | nil => exact hd
  | cons op ops ih => exact ih h.2 (h.1.inv hd)

theorem legalOps_removes (names : List Text) : LegalOps d (names.map .remove) := by
  induction names generalizing d with
  | nil => trivial
  | cons name names ih => exact ⟨.remove name, ih⟩

/-! ## files -/

theorem legalOps_scratch {name : Text} (h : Scratch name) (contents : List UInt8)
    (modified : Option Nat) : LegalOps d (writeOps name contents modified) := by
  refine ⟨.scratch h modified, ?_⟩
  generalize FileOp.apply d (.create name modified) = d'
  induction contents generalizing d' with
  | nil => trivial
  | cons b contents ih => exact ⟨.scratchByte h b, ih _⟩

/-- the bytes of the samples fit, one after the other -/
theorem legalOps_appends {id : Text} {f : File UInt8} {contents : List UInt8}
    (h : sampleBytes d + f.contents.length + contents.length ≤ maxTotalBytes) :
    LegalOps (d.put (tmpName (pcmName id)) f)
      (contents.map (.append (tmpName (pcmName id)))) := by
  induction contents generalizing f with
  | nil => trivial
  | cons b contents ih =>
    have hsize : sampleBytes (d.put (tmpName (pcmName id)) f) ≤
        sampleBytes d + f.contents.length := by
      have hput := Dir.sizeOn_put (fun name => !isMetadata name) d (tmpName (pcmName id)) f
      have hdrop := Dir.sizeOn_drop_le (fun name => !isMetadata name) d (tmpName (pcmName id))
      simp only [sampleBytes]
      split at hput <;> omega
    have hstep : FileOp.apply (d.put (tmpName (pcmName id)) f)
        (.append (tmpName (pcmName id)) b) =
        d.put (tmpName (pcmName id)) { f with contents := f.contents ++ [b] } := by
      rw [FileOp.apply, Dir.get_put_self]
      exact Dir.put_put _ _ _ _
    simp only [List.length_cons] at h
    refine ⟨.samplesByte id b (by omega), ?_⟩
    rw [hstep]
    refine ih ?_
    simp only [List.length_append, List.length_singleton]
    omega

theorem legalOps_samples {id : Text} {pcm : List UInt8} (modified : Option Nat)
    (h : sampleBytes d + pcm.length ≤ maxTotalBytes) :
    LegalOps d (writeOps (tmpName (pcmName id)) pcm modified) :=
  ⟨.samples id modified, legalOps_appends (by simpa using h)⟩

/-- the recordings that are held stay held while metadata is written aside -/
theorem mem_recordings {id : Text} (hsafe : safeId id = true)
    (h : d.get (metaName id) ≠ none ∨ d.get (pcmName id) ≠ none) : id ∈ recordings d := by
  rcases h with h | h
  · exact (Dir.mem_marks stemOf).2 ⟨metaName id, h, stemOf_metaName hsafe⟩
  · exact (Dir.mem_marks stemOf).2 ⟨pcmName id, h, stemOf_pcmName hsafe⟩

/-- metadata is replaced by metadata of the same id that is started -/
theorem legalOps_replace (moment : Moment) {id : Text} {a b : RecoveryArtifact}
    (hsafe : safeId id = true) (hb : loadMeta d (metaName id) = .ok b) (hid : a.recordingId = id)
    (hreads : ReadsBack a)
    (hstate : ∃ c, parseMeta (encodeMeta a) = some c ∧ c.deliveryState ≠ .none) :
    LegalOps d (replaceOps moment (metaName id) (utf8 (encodeMeta a))) := by
  refine legalOps_append.2 ⟨legalOps_scratch (.inr ⟨id, rfl⟩) _ _, ?_, trivial⟩
  rw [applyOps_writeOps]
  have hkept : (d.put (tmpName (metaName id))
      { contents := utf8 (encodeMeta a), modified := moment.modified (tmpName (metaName id)) }).get
        (metaName id) = d.get (metaName id) := Dir.get_put_ne metaName_ne_tmpName
  refine .keepMeta hsafe hid hreads (Dir.get_put_self _ _ _) (mem_recordings hsafe (.inl ?_))
    fun _ _ _ => hstate
  obtain ⟨f, -, hf, -⟩ := loadMeta_eq_ok hb
  rw [hkept, hf]
  simp

/-- metadata that is read is that of its id -/
theorem Inv.loaded {id : Text} {a : RecoveryArtifact} (hd : Inv d)
    (h : loadMeta d (metaName id) = .ok a) :
    safeId id = true ∧ a.recordingId = id ∧ a.recordingId.getLast? ≠ some '\r' ∧
      ∃ text, parseMeta text = some a := by
  obtain ⟨f, text, hf, -, hparse⟩ := loadMeta_eq_ok h
  obtain ⟨hsafe, a₀, hcontents, hid, hlast, hreads⟩ := hd.metas id f hf
  have hrec : a.recordingId = a₀.recordingId := hreads a ((loadMeta_encoded hf hcontents).1 h)
  exact ⟨hsafe, hrec.trans hid, hrec ▸ hlast, text, hparse⟩

theorem Inv.replace (moment : Moment) {id : Text} {a : RecoveryArtifact} {state : DeliveryState}
    (hd : Inv d) (h : loadMeta d (metaName id) = .ok a) (hstate : state ≠ .none) :
    LegalOps d (replaceOps moment (metaName id)
      (utf8 (encodeMeta { a with deliveryState := state }))) := by
  obtain ⟨hsafe, hid, hlast, text, hparse⟩ := hd.loaded h
  obtain ⟨model, hread⟩ := parseMeta_replaced hparse hlast state
  exact legalOps_replace moment hsafe h hid (readsBack_replaced hparse hlast state)
    ⟨_, hread, hstate⟩

/-! ## expiry -/

theorem removeIf_eq (remove : Bool) (name : Text) :
    removeIf remove name = (if remove then [name] else []).map .remove := by
  cases remove <;> rfl

theorem deleteArtifact_ops (id : Text) :
    (deleteArtifact id).ops =
      (if safeId id then [pcmName id, metaName id] else []).map .remove := by
  simp only [deleteArtifact]
  split <;> rfl

theorem deleteArtifact_legal (id : Text) : LegalOps d (deleteArtifact id).ops := by
  rw [deleteArtifact_ops]
  exact legalOps_removes _

theorem visible_metaName {id : Text} (hsafe : safeId id = true) :
    ¬((metaName id).head? = some '.' ∨ endsWith (metaName id) tmpSuffix = true) := by
  rintro (hhead | htmp)
  · exact head_append_of_safeId hsafe metaSuffix hhead
  · rw [not_endsWith (by decide) (by rw [getLast_metaName]; decide)] at htmp
    cases htmp

example : (metaName "7".toList).head? = some '7' := by decide +kernel

/-- the turn of metadata that loads -/
theorem expireEntry_loaded (moment : Moment) (clock : RecoveryClock) (promoteStarted : Bool)
    {stem : Text} {a : RecoveryArtifact}
    (hvisible : ¬((metaName stem).head? = some '.' ∨ endsWith (metaName stem) tmpSuffix = true))
    (hload : loadMeta d (metaName stem) = .ok a) :
    expireEntry moment clock promoteStarted d (metaName stem) =
      if artifactExpired a clock = true ∨ a.deliveryState = .delivered then
        (deleteArtifact a.recordingId).ops
      else if promoteStarted = true ∧ a.deliveryState = .deliveryStarted then
        replaceOps moment (metaName stem) (utf8 (encodeMeta { a with deliveryState := .ambiguous }))
      else [] := by
  have hpcm : stripSuffix (metaName stem) pcmSuffix = none :=
    stripSuffix_none (by decide) (by rw [getLast_metaName]; decide)
  have hstem : stripSuffix (metaName stem) metaSuffix = some stem := stripSuffix_append _ _
  simp only [expireEntry, if_neg metaName_ne_clockName, if_neg hvisible, hpcm, hstem, hload]

example : stemOf (tmpName (pcmName "7".toList)) = none := by decide +kernel

/-- an entry is removed, with its samples, or it is promoted; metadata that is expired is removed -/
theorem expireEntry_cases (moment : Moment) (clock : RecoveryClock) (promoteStarted : Bool)
    (name : Text) (hd : Inv d) :
    (∃ names : List Text, expireEntry moment clock promoteStarted d name = names.map .remove ∧
      ∀ a, loadMeta d name = .ok a → artifactExpired a clock = true →
        endsWith name metaSuffix = true → name ∈ names) ∨
    ∃ stem a, name = metaName stem ∧ promoteStarted = true ∧ loadMeta d name = .ok a ∧
      artifactExpired a clock = false ∧
      expireEntry moment clock promoteStarted d name =
        replaceOps moment name (utf8 (encodeMeta { a with deliveryState := .ambiguous })) := by
  by_cases hmeta : ∃ stem a, name = metaName stem ∧ loadMeta d (metaName stem) = .ok a
  · obtain ⟨stem, a, rfl, hload⟩ := hmeta
    obtain ⟨hsafe, hid, -, -⟩ := hd.loaded hload
    rw [expireEntry_loaded moment clock promoteStarted (visible_metaName hsafe) hload, hload]
    split
    next =>
      refine .inl ⟨_, deleteArtifact_ops _, fun b hb hexpired _ => ?_⟩
      rw [hid, if_pos hsafe]
      simp
    next hkept =>
      obtain ⟨hfresh, -⟩ := not_or.1 hkept
      split
      next hpromote =>
        exact .inr ⟨stem, a, rfl, hpromote.1, rfl, Bool.eq_false_iff.2 hfresh, rfl⟩
      next =>
        refine .inl ⟨[], rfl, fun b hb hexpired _ => ?_⟩
        obtain rfl := Except.ok.inj hb
        exact absurd hexpired hfresh
  · -- what is no metadata, or is refused, is removed or left
    have hvacuous : ∀ (names : List Text) (a : RecoveryArtifact), loadMeta d name = .ok a →
        artifactExpired a clock = true → endsWith name metaSuffix = true → name ∈ names := by
      intro names a ha _ hends
      obtain ⟨stem, rfl⟩ := List.isSuffixOf_iff_suffix.1 hends
      exact absurd ⟨stem, a, rfl, ha⟩ hmeta
    refine .inl ?_
    simp only [expireEntry, removeIf_eq]
    split
    next => exact ⟨[], rfl, hvacuous _⟩
    next =>
      split
      next => exact ⟨_, rfl, hvacuous _⟩
      next =>
        split
        next => exact ⟨_, rfl, hvacuous _⟩
        next =>
          split
          next => exact ⟨[], rfl, hvacuous _⟩
          next stem hstem =>
            obtain rfl : name = metaName stem := stripSuffix_eq_some hstem
            split
            next a hload => exact absurd ⟨stem, a, rfl, hload⟩ hmeta
            next => exact ⟨[pcmName stem, metaName stem], rfl, hvacuous _⟩

theorem expireEntry_legal (moment : Moment) (clock : RecoveryClock) (promoteStarted : Bool)
    (name : Text) (hd : Inv d) :
    LegalOps d (expireEntry moment clock promoteStarted d name) := by
  rcases expireEntry_cases moment clock promoteStarted name hd with
    ⟨names, hops, -⟩ | ⟨stem, a, rfl, -, hload, -, hops⟩
  · exact hops ▸ legalOps_removes names
  · exact hops ▸ hd.replace moment hload (by decide)

theorem expireEntries_legal (moment : Moment) (clock : RecoveryClock) (promoteStarted : Bool)
    (names : List Text) (hd : Inv d) :
    LegalOps d (expireEntries moment clock promoteStarted d names) := by
  induction names generalizing d with
  | nil => trivial
  | cons name names ih =>
    have hentry := expireEntry_legal moment clock promoteStarted name hd
    exact legalOps_append.2 ⟨hentry, ih (hentry.inv hd)⟩

theorem writeLastWall_legal (moment : Moment) (wall : UInt64) :
    LegalOps d (writeLastWall moment wall) := legalOps_scratch (.inl rfl) _ _

theorem expireWith_legal (moment : Moment) (clock : RecoveryClock) (promoteStarted : Bool)
    (hd : Inv d) : LegalOps d (expireWith moment clock promoteStarted d).ops := by
  simp only [expireWith]
  split
  next => trivial
  next =>
    split
    next => exact legalOps_append.2 ⟨legalOps_removes _, writeLastWall_legal _ _⟩
    next =>
      have hwall := writeLastWall_legal (d := d) moment clock.wallUnixMs
      exact legalOps_append.2 ⟨hwall, expireEntries_legal _ _ _ _ (hwall.inv hd)⟩

/-! ## the calls -/

theorem andThen_legal {α β : Type} {c : Called α} {next : Store → α → Called β}
    (hc : LegalOps d c.ops)
    (hnext : ∀ a, c.result = .ok a → LegalOps (applyOps d c.ops) (next (applyOps d c.ops) a).ops) :
    LegalOps d (c.andThen d next).ops := by
  simp only [Called.andThen]
  split
  next => exact hc
  next a ha => exact legalOps_append.2 ⟨hc, hnext a ha⟩

theorem expire_legal (moment : Moment) (hd : Inv d) : LegalOps d (expire moment d).ops :=
  expireWith_legal moment moment.clock false hd

theorem load_legal (moment : Moment) (id : Text) (hd : Inv d) :
    LegalOps d (load moment id d).ops := by
  refine andThen_legal (expire_legal moment hd) fun _ _ => ?_
  split
  next => trivial
  next =>
    split
    next => trivial
    next =>
      split
      next => exact legalOps_removes [pcmName id, metaName id]
      next => trivial

/-- what `load` returns is what the directory holds after the expiry -/
theorem load_ok {moment : Moment} {id : Text} {a : RecoveryArtifact}
    (h : (load moment id d).result = .ok a) :
    (load moment id d).ops = (expire moment d).ops ∧
      loadMeta (applyOps d (expire moment d).ops) (metaName id) = .ok a := by
  simp only [load, Called.andThen] at h ⊢
  split at h
  next => cases h
  next =>
    simp only at h ⊢
    split at h
    next => cases h
    next hsafe =>
      rw [if_neg hsafe]
      split at h
      next => cases h
      next b hload =>
        split at h
        next => cases h
        next hexpired =>
          obtain rfl := Except.ok.inj h
          simp only [hload, if_neg hexpired, Called.done, List.append_nil, and_self]

theorem setState_legal (moment : Moment) (id : Text) {state : DeliveryState}
    (hstate : ∀ current, nextState current state ≠ .none) (hd : Inv d) :
    LegalOps d (setState moment id state d).ops := by
  have hload := load_legal moment id hd
  refine andThen_legal hload fun a ha => ?_
  obtain ⟨hops, hloaded⟩ := load_ok ha
  exact (hload.inv hd).replace moment (hops ▸ hloaded) (hstate _)

theorem markDelivered_legal (moment : Moment) (id : Text) (hd : Inv d) :
    LegalOps d (markDelivered moment id d).ops := by
  refine andThen_legal (setState_legal moment id ?_ hd) fun _ _ => deleteArtifact_legal id
  intro current
  cases current <;> decide

theorem quotaBeforeCapture_legal (moment : Moment) (hd : Inv d) :
    LegalOps d (quotaBeforeCapture moment d).ops :=
  andThen_legal (expire_legal moment hd) fun _ _ => trivial

/-- samples and metadata are written aside, and then the samples are renamed first -/
theorem persistOps_legal (moment : Moment) {id : Text} {pcm : List UInt8} {a : RecoveryArtifact}
    (hsafe : safeId id = true) (hpcm : d.get (pcmName id) = none)
    (hmeta : d.get (metaName id) = none) (hroom : (recordings d).card < maxRecordings)
    (hbytes : sampleBytes d + pcm.length ≤ maxTotalBytes) (hid : a.recordingId = id)
    (hreads : ReadsBack a) : LegalOps d (persistOps moment id pcm a) := by
  have haside : tmpName (metaName id) ≠ tmpName (pcmName id) :=
    fun heq => pcmName_ne_metaName (tmpName_inj heq).symm
  rw [persistOps, legalOps_append, legalOps_append, applyOps_append, applyOps_writeOps,
    applyOps_writeOps]
  generalize hf : ({ contents := pcm, modified := _ } : File UInt8) = f
  generalize hg : ({ contents := utf8 (encodeMeta a), modified := _ } : File UInt8) = g
  generalize hwritten : (d.put (tmpName (pcmName id)) f).put (tmpName (metaName id)) g = d₂
  have hget : d₂.get (tmpName (pcmName id)) = some f := by
    rw [← hwritten, Dir.get_put_ne haside.symm, Dir.get_put_self]
  have hmeta₂ : d₂.get (metaName id) = none := by
    rw [← hwritten, Dir.get_put_ne metaName_ne_tmpName, Dir.get_put_ne metaName_ne_tmpName, hmeta]
  refine ⟨⟨legalOps_samples _ hbytes, legalOps_scratch (.inr ⟨id, rfl⟩) _ _⟩, ?_, ?_, trivial⟩
  · refine .keepPcm hsafe ?_ hmeta₂ ?_
    · rw [← hwritten, Dir.get_put_ne pcmName_ne_tmpName, Dir.get_put_ne pcmName_ne_tmpName, hpcm]
    · refine (Finset.card_le_card ?_).trans_lt hroom
      rw [← hwritten]
      exact (recordings_put_scratch (.inr ⟨id, rfl⟩)).trans (recordings_put_tmpPcm id)
  · have hrenamed : FileOp.apply d₂ (.rename (tmpName (pcmName id)) (pcmName id)) =
        (d₂.drop (tmpName (pcmName id))).put (pcmName id) f := by
      rw [FileOp.apply, hget]
    rw [hrenamed]
    have haside₃ : ((d₂.drop (tmpName (pcmName id))).put (pcmName id) f).get
        (tmpName (metaName id)) =
        some { contents := utf8 (encodeMeta a), modified := moment.modified (tmpName (metaName id)) } := by
      rw [Dir.get_put_ne pcmName_ne_tmpName.symm, Dir.get_drop_ne haside, ← hwritten,
        Dir.get_put_self, hg]
    refine .keepMeta hsafe hid hreads haside₃ (mem_recordings hsafe (.inr ?_)) ?_
    · rw [Dir.get_put_self]
      simp
    · intro b hb
      obtain ⟨f', -, hf', -⟩ := loadMeta_eq_ok hb
      rw [Dir.get_put_ne pcmName_ne_metaName.symm, Dir.get_drop_ne metaName_ne_tmpName, hmeta₂]
        at hf'
      cases hf'

theorem persistBeforeInference_legal (moment : Moment) (id : Text) (pcm : List UInt8)
    (modelReceiptHash : Text) (hreads : ReadsBack (newArtifact moment id pcm modelReceiptHash))
    (hd : Inv d) :
    LegalOps d (persistBeforeInference moment id pcm modelReceiptHash d).ops := by
  refine andThen_legal (expire_legal moment hd) fun _ _ => ?_
  generalize applyOps d (expire moment d).ops = d₁
  by_cases hsafe : safeId id = true
  · by_cases hfree : (d₁.get (pcmName id)).isSome || (d₁.get (metaName id)).isSome
    · simp only [hsafe, hfree]
      trivial
    · obtain ⟨hpcm, hmeta⟩ : d₁.get (pcmName id) = none ∧ d₁.get (metaName id) = none := by
        simpa using hfree
      by_cases hroom : maxRecordings ≤ (usage d₁).1
      · simp only [hsafe, hfree, hroom]
        trivial
      · by_cases hbytes : maxTotalBytes < (usage d₁).2 + (pcm.length + 512)
        · simp only [hsafe, hfree, hroom, hbytes]
          trivial
        · simp only [hsafe, hfree, hroom, hbytes]
          have hle := sampleBytes_le_usage d₁
          exact persistOps_legal moment hsafe hpcm hmeta (Nat.lt_of_not_le hroom) (by omega) rfl
            hreads
  · simp only [hsafe]
    trivial

/-- what a request persists is read back under its own id -/
def Request.ReadsBack (moment : Moment) : Request → Prop
  | .persistBeforeInference id pcm hash => Recovery.ReadsBack (newArtifact moment id pcm hash)
  | _ => True

/-- **every request makes legal operations, where what it persists reads back** -/
theorem requestOps_legal {moment : Moment} {request : Request} (h : request.ReadsBack moment)
    (hd : Inv d) : LegalOps d (requestOps moment d request) := by
  cases request with
  | persistBeforeInference id pcm hash => exact persistBeforeInference_legal moment id pcm hash h hd
  | markDeliveryStarted id =>
    exact setState_legal moment id (fun current => by cases current <;> decide) hd
  | markDelivered id => exact markDelivered_legal moment id hd
  | markFailed id => exact setState_legal moment id (fun current => by cases current <;> decide) hd
  | load id => exact load_legal moment id hd
  | quotaBeforeCapture => exact quotaBeforeCapture_legal moment hd
  | expireWith clock promoteStarted => exact expireWith_legal moment clock promoteStarted hd

end legal

end Voisu.Recovery
