import Mathlib
import Voisu.Recovery.Calls

/-!
# Runs of the store

A run is calls one after the other from an empty directory, each at its own moment and each cut off
by a crash after any number of its file operations.

* `expireWith_fresh`   nothing that is expired is left by an expiry;
* `load_reports`       a load reports what the directory held;
* `Retains`            what the store promises of a run;
* `run_retains`        **the promise, where what is persisted reads back**.
-/

namespace Voisu.Recovery
open Lib

/-! ## expiry -/

section expiry
variable {d : Store} {clock : RecoveryClock} {id : Text}

/-- no metadata of the id is expired -/
def Fresh (clock : RecoveryClock) (d : Store) (id : Text) : Prop :=
  ∀ a, loadMeta d (metaName id) = .ok a → artifactExpired a clock = false

theorem fresh_of_none (h : d.get (metaName id) = none) : Fresh clock d id := by
  intro a ha
  obtain ⟨f, -, hf, -⟩ := loadMeta_eq_ok ha
  rw [h] at hf
  cases hf

theorem Fresh.congr {d' : Store} (h : Fresh clock d id)
    (hget : d'.get (metaName id) = d.get (metaName id)) : Fresh clock d' id := by
  intro a ha
  rw [loadMeta_congr hget] at ha
  exact h a ha

/-- a file that is there after removals was there before -/
theorem get_removes (names : List Text) (n : Text) :
    (applyOps d (names.map .remove)).get n = if n ∈ names then none else d.get n := by
  induction names generalizing d with
  | nil => simp [applyOps]
  | cons name names ih =>
    show (applyOps (d.drop name) (names.map .remove)).get n = _
    rw [ih]
    by_cases hmem : n ∈ names
    · simp [hmem]
    · by_cases hn : n = name
      · subst hn
        simp [hmem, Dir.get_drop_self]
      · simp [hmem, hn, Dir.get_drop_ne hn]

theorem Fresh.removes (h : Fresh clock d id) (names : List Text) :
    Fresh clock (applyOps d (names.map .remove)) id := by
  by_cases hmem : metaName id ∈ names
  · exact fresh_of_none (by rw [get_removes, if_pos hmem])
  · exact h.congr (by rw [get_removes, if_neg hmem])

theorem applyOps_replaceOps (moment : Moment) (name : Text) (contents : List UInt8) :
    applyOps d (replaceOps moment name contents) =
      ((d.put (tmpName name) { contents, modified := moment.modified (tmpName name) }).drop
        (tmpName name)).put name { contents, modified := moment.modified (tmpName name) } := by
  rw [replaceOps, applyOps_append, applyOps_writeOps]
  show FileOp.apply _ (.rename (tmpName name) name) = _
  rw [FileOp.apply, Dir.get_put_self]

/-- promoted metadata keeps its times -/
theorem fresh_promoted (moment : Moment) {stem : Text} {a : RecoveryArtifact} (hd : Inv d)
    (hload : loadMeta d (metaName stem) = .ok a) (hfresh : artifactExpired a clock = false)
    (h : id = stem ∨ Fresh clock d id) :
    Fresh clock (applyOps d (replaceOps moment (metaName stem)
      (utf8 (encodeMeta { a with deliveryState := .ambiguous })))) id := by
  rw [applyOps_replaceOps]
  by_cases hid : id = stem
  · subst hid
    intro b hb
    obtain ⟨-, -, hlast, text, hparse⟩ := hd.loaded hload
    obtain ⟨model, hread⟩ := parseMeta_replaced hparse hlast .ambiguous
    have hb' := (loadMeta_encoded (Dir.get_put_self _ _ _) rfl).1 hb
    rw [hread] at hb'
    rw [← Option.some.inj hb']
    exact hfresh
  · refine (h.resolve_left hid).congr ?_
    have hne : metaName id ≠ metaName stem := fun heq => hid (metaName_inj heq)
    rw [Dir.get_put_ne hne, Dir.get_drop_ne metaName_ne_tmpName, Dir.get_put_ne metaName_ne_tmpName]

/-- an entry is dealt with at its turn, and no turn makes another one expired -/
theorem expireEntry_fresh (moment : Moment) (promoteStarted : Bool) {name : Text} (hd : Inv d)
    (h : metaName id = name ∨ Fresh clock d id) :
    Fresh clock (applyOps d (expireEntry moment clock promoteStarted d name)) id := by
  rcases expireEntry_cases moment clock promoteStarted name hd with
    ⟨names, hops, hremoved⟩ | ⟨stem, a, rfl, -, hload, hfresh, hops⟩
  · rw [hops]
    rcases h with rfl | h
    · intro a ha
      obtain ⟨f, -, hf, -⟩ := loadMeta_eq_ok ha
      rw [get_removes] at hf
      split at hf
      next => cases hf
      next hkept =>
        have hsame : (applyOps d (names.map .remove)).get (metaName id) = d.get (metaName id) := by
          rw [get_removes, if_neg hkept]
        rw [loadMeta_congr hsame] at ha
        rw [Bool.eq_false_iff]
        exact fun hexpired => hkept (hremoved a ha hexpired
          (List.isSuffixOf_iff_suffix.2 (List.suffix_append _ _)))
    · exact h.removes names
  · rw [hops]
    exact fresh_promoted moment hd hload hfresh (h.imp_left metaName_inj)

theorem expireEntries_fresh (moment : Moment) (promoteStarted : Bool) (names : List Text)
    (hd : Inv d) (h : metaName id ∈ names ∨ Fresh clock d id) :
    Fresh clock (applyOps d (expireEntries moment clock promoteStarted d names)) id := by
  induction names generalizing d with
  | nil => simpa [expireEntries, applyOps] using h
  | cons name names ih =>
    rw [expireEntries, applyOps_append]
    have hd' := (expireEntry_legal moment clock promoteStarted name hd).inv hd
    rw [List.mem_cons, or_assoc] at h
    rcases h with hname | hmem | hfresh
    · exact ih hd' (.inr (expireEntry_fresh moment promoteStarted hd (.inl hname)))
    · exact ih hd' (.inl hmem)
    · exact ih hd' (.inr (expireEntry_fresh moment promoteStarted hd (.inr hfresh)))

theorem mem_entries (moment : Moment) (n : Text) :
    n ∈ moment.entries d ↔ d.get n ≠ none := by
  rw [Moment.entries, (moment.listed d.names).mem_iff, Dir.mem_names_iff]

/-- **nothing that is expired is left by an expiry that succeeded** -/
theorem expireWith_fresh (moment : Moment) (clock : RecoveryClock) (promoteStarted : Bool)
    (id : Text) (hd : Inv d) (h : (expireWith moment clock promoteStarted d).result = .ok ()) :
    Fresh clock (applyOps d (expireWith moment clock promoteStarted d).ops) id := by
  simp only [expireWith] at h ⊢
  split at h
  next => cases h
  next =>
    split
    next =>
      -- a clock that went back: everything but the clock is removed
      refine fresh_of_none ?_
      rw [applyOps_append, writeLastWall, applyOps_writeOps, Dir.get_put_ne metaName_ne_clockName,
        expireAllOps, get_removes]
      split
      next => rfl
      next hkept =>
        by_contra hthere
        refine hkept (List.mem_filter.2 ⟨(mem_entries moment _).2 hthere, ?_⟩)
        simpa using metaName_ne_clockName
    next =>
      rw [applyOps_append]
      have hwall := writeLastWall_legal (d := d) moment clock.wallUnixMs
      refine expireEntries_fresh moment promoteStarted _ (hwall.inv hd) ?_
      by_cases hnone : (applyOps d (writeLastWall moment clock.wallUnixMs)).get (metaName id) = none
      · exact .inr (fresh_of_none hnone)
      · exact .inl ((mem_entries moment _).2 hnone)

/-! ## what a load reports -/

/-- files are only removed, but for the clock -/
def Thinned (d d' : Store) : Prop :=
  ∀ n, n ≠ clockName → d'.get n = d.get n ∨ d'.get n = none

theorem Thinned.trans {d' d'' : Store} (h : Thinned d d') (h' : Thinned d' d'') :
    Thinned d d'' := by
  intro n hn
  rcases h' n hn with hsame | hnone
  · rw [hsame]
    exact h n hn
  · exact .inr hnone

theorem thinned_removes (names : List Text) : Thinned d (applyOps d (names.map .remove)) := by
  intro n _
  rw [get_removes]
  split
  · exact .inr rfl
  · exact .inl rfl

theorem thinned_writeLastWall (moment : Moment) (wall : UInt64) :
    Thinned d (applyOps d (writeLastWall moment wall)) := by
  intro n hn
  rw [writeLastWall, applyOps_writeOps]
  exact .inl (Dir.get_put_ne hn)

theorem thinned_expireEntries (moment : Moment) (names : List Text) (hd : Inv d) :
    Thinned d (applyOps d (expireEntries moment clock false d names)) := by
  induction names generalizing d with
  | nil => exact fun n _ => .inl rfl
  | cons name names ih =>
    have hentry : Thinned d (applyOps d (expireEntry moment clock false d name)) := by
      rcases expireEntry_cases moment clock false name hd with
        ⟨names, hops, -⟩ | ⟨stem, a, -, hpromoted, -⟩
      · exact hops ▸ thinned_removes names
      · cases hpromoted
    rw [expireEntries, applyOps_append]
    exact hentry.trans (ih ((expireEntry_legal moment clock false name hd).inv hd))

theorem thinned_expire (moment : Moment) (hd : Inv d) :
    Thinned d (applyOps d (expire moment d).ops) := by
  simp only [expire, expireWith]
  split
  next => exact fun n _ => .inl rfl
  next =>
    split
    next =>
      rw [applyOps_append]
      exact (thinned_removes _).trans (thinned_writeLastWall moment _)
    next =>
      rw [applyOps_append]
      have hwall := writeLastWall_legal (d := d) moment moment.clock.wallUnixMs
      exact (thinned_writeLastWall moment _).trans
        (thinned_expireEntries moment _ (hwall.inv hd))

/-- **a load reports what the directory held** -/
theorem load_reports {moment : Moment} {a : RecoveryArtifact} (hd : Inv d)
    (h : (load moment id d).result = .ok a) : loadMeta d (metaName id) = .ok a := by
  obtain ⟨-, hload⟩ := load_ok h
  rcases thinned_expire moment hd (metaName id) metaName_ne_clockName with hsame | hnone
  · rwa [loadMeta_congr hsame] at hload
  · obtain ⟨f, -, hf, -⟩ := loadMeta_eq_ok hload
    rw [hnone] at hf
    cases hf

end expiry

/-! ## runs -/

/-- a call, and the number of its file operations that a crash lets happen -/
structure Event where
  moment : Moment
  request : Request
  crash : Option Nat

def Event.ops (d : Store) (e : Event) : List Op :=
  match e.crash with
  | none => requestOps e.moment d e.request
  | some n => (requestOps e.moment d e.request).take n

def runOps : Store → List Event → List Op
  | _, [] => []
  | d, e :: events => e.ops d ++ runOps (applyOps d (e.ops d)) events

/-- the directory after that many file operations of a run -/
def directory (events : List Event) (i : Nat) : Store := applyOps [] ((runOps [] events).take i)

/-- something of the recording is there -/
def Held (d : Store) (id : Text) : Prop := d.get (metaName id) ≠ none ∨ d.get (pcmName id) ≠ none

/-- what the store promises of a run, at every point of it -/
structure Retains (events : List Event) : Prop where
  bounds : ∀ i, (recordings (directory events i)).card ≤ maxRecordings ∧
    sampleBytes (directory events i) ≤ maxTotalBytes
  expired : ∀ i moment clock promoteStarted,
    (expireWith moment clock promoteStarted (directory events i)).result = .ok () →
    ∀ id a, loadMeta (applyOps (directory events i)
        (expireWith moment clock promoteStarted (directory events i)).ops) (metaName id) = .ok a →
      (applyOps (directory events i)
        (expireWith moment clock promoteStarted (directory events i)).ops).get (pcmName id) ≠ none →
      artifactExpired a clock = false
  retained : ∀ i j id f, i ≤ j → (directory events i).get (pcmName id) = some f →
    (∀ k, i ≤ k → k < j → Held (directory events k) id) →
    (directory events j).get (pcmName id) = some f ∨ (directory events j).get (pcmName id) = none
  started : ∀ i j id a, i ≤ j → loadMeta (directory events i) (metaName id) = .ok a →
    a.deliveryState ≠ .none →
    (∀ k, i ≤ k → k ≤ j → (directory events k).get (metaName id) ≠ none) →
    ∀ moment b, (load moment id (directory events j)).result = .ok b → b.deliveryState ≠ .none

theorem inv_nil : Inv [] where
  nodup := List.nodup_nil
  samples := Nat.zero_le _
  held := Nat.zero_le _
  metas := nofun

section runs
variable {events : List Event}

theorem runOps_legal {d : Store} (h : ∀ e ∈ events, e.request.ReadsBack e.moment) (hd : Inv d) :
    LegalOps d (runOps d events) := by
  induction events generalizing d with
  | nil => trivial
  | cons e events ih =>
    have hcall := requestOps_legal (h e List.mem_cons_self) hd
    have hops : LegalOps d (e.ops d) := by
      simp only [Event.ops]
      split
      · exact hcall
      · exact hcall.take _
    exact legalOps_append.2 ⟨hops, ih (fun e' he' => h e' (List.mem_cons_of_mem _ he'))
      (hops.inv hd)⟩

/-- from one point of a run to the next -/
theorem LegalOps.step {d : Store} {ops : List Op} (h : LegalOps d ops) (i : Nat) :
    applyOps d (ops.take (i + 1)) = applyOps d (ops.take i) ∨
      ∃ op, Legal (applyOps d (ops.take i)) op ∧
        applyOps d (ops.take (i + 1)) = op.apply (applyOps d (ops.take i)) := by
  induction ops generalizing d i with
  | nil => exact .inl (by simp)
  | cons op ops ih =>
    cases i with
    | zero => exact .inr ⟨op, h.1, by simp [applyOps]⟩
    | succ i => exact ih h.2 i

variable (h : ∀ e ∈ events, e.request.ReadsBack e.moment)
include h

theorem inv_directory (i : Nat) : Inv (directory events i) :=
  ((runOps_legal h inv_nil).take i).inv inv_nil

theorem directory_step (i : Nat) :
    directory events (i + 1) = directory events i ∨
      ∃ op, Legal (directory events i) op ∧
        directory events (i + 1) = op.apply (directory events i) :=
  (runOps_legal h inv_nil).step i

theorem directory_retained {i j : Nat} {id : Text} {f : File UInt8} (hij : i ≤ j)
    (hf : (directory events i).get (pcmName id) = some f)
    (hheld : ∀ k, i ≤ k → k < j → Held (directory events k) id) :
    (directory events j).get (pcmName id) = some f ∨
      (directory events j).get (pcmName id) = none := by
  induction j, hij using Nat.le_induction with
  | base => exact .inl hf
  | succ j hij ih =>
    have hprev := ih fun k hik hkj => hheld k hik (Nat.lt_succ_of_lt hkj)
    rcases directory_step h j with hsame | ⟨op, hlegal, hnext⟩
    · rwa [hsame]
    · rw [hnext]
      cases hg : (op.apply (directory events j)).get (pcmName id) with
      | none => exact .inr rfl
      | some g =>
        rcases hlegal.pcm hg with hkept | ⟨hpcm, hmeta⟩
        · rwa [hkept] at hprev
        · rcases hheld j hij (Nat.lt_succ_self j) with hthere | hthere
          · exact absurd hmeta hthere
          · exact absurd hpcm hthere

theorem directory_started {i j : Nat} {id : Text} {a : RecoveryArtifact} (hij : i ≤ j)
    (ha : loadMeta (directory events i) (metaName id) = .ok a) (hstarted : a.deliveryState ≠ .none)
    (hthere : ∀ k, i ≤ k → k ≤ j → (directory events k).get (metaName id) ≠ none) :
    ∃ b, loadMeta (directory events j) (metaName id) = .ok b ∧ b.deliveryState ≠ .none := by
  induction j, hij using Nat.le_induction with
  | base => exact ⟨a, ha, hstarted⟩
  | succ j hij ih =>
    obtain ⟨b, hb, hb'⟩ := ih fun k hik hkj => hthere k hik (Nat.le_succ_of_le hkj)
    rcases directory_step h j with hsame | ⟨op, hlegal, hnext⟩
    · exact ⟨b, hsame ▸ hb, hb'⟩
    · rw [hnext]
      exact hlegal.state hb hb' (hnext ▸ hthere (j + 1) (Nat.le_succ_of_le hij) (Nat.le_refl _))

end runs

/-- **what the store promises holds of every run in which what is persisted reads back** -/
theorem run_retains (events : List Event) (h : ∀ e ∈ events, e.request.ReadsBack e.moment) :
    Retains events where
  bounds i := ⟨(inv_directory h i).held, (inv_directory h i).samples⟩
  expired i moment clock promoteStarted hok id a ha _ :=
    expireWith_fresh moment clock promoteStarted id (inv_directory h i) hok a ha
  retained i j id f hij hf hheld := directory_retained h hij hf hheld
  started i j id a hij ha hstarted hthere moment b hb := by
    obtain ⟨c, hc, hc'⟩ := directory_started h hij ha hstarted hthere
    have hload := load_reports (inv_directory h j) hb
    rw [hc] at hload
    exact Except.ok.inj hload ▸ hc'

/-- a moment of a system that lists files in the order they were made and tells no times -/
def momentAt (clock : RecoveryClock) : Moment where
  clock := clock
  modified := fun _ => none
  order := id
  listed := fun _ => .refl _

/-- a recording is persisted, its delivery is started, and the daemon dies while it is marked
again -/
def interrupted : List Event :=
  let moment := momentAt { wallUnixMs := 1000, bootMs := some 10 }
  [{ moment, request := .persistBeforeInference "rec-1".toList [1, 2, 3, 4] "sha".toList
     crash := none },
   { moment, request := .markDeliveryStarted "rec-1".toList, crash := none },
   { moment, request := .markFailed "rec-1".toList, crash := some 40 }]

/-- the moment of its calls -/
def interruption : Moment := momentAt { wallUnixMs := 1000, bootMs := some 10 }

/-- the recording in that state -/
def interruptedArtifact (state : DeliveryState) : RecoveryArtifact :=
  { newArtifact interruption "rec-1".toList [1, 2, 3, 4] "sha".toList with deliveryState := state }

def interruptedPcm : Text × File UInt8 :=
  (pcmName "rec-1".toList, { contents := [1, 2, 3, 4], modified := none })

def interruptedMeta (state : DeliveryState) : Text × File UInt8 :=
  (metaName "rec-1".toList,
    { contents := utf8 (encodeMeta (interruptedArtifact state)), modified := none })

def interruptedClock : Text × File UInt8 :=
  (clockName, { contents := utf8 (u64Text 1000 ++ ['\n']), modified := none })

/-- the store when the clock was just written -/
def interruptedStore (state : DeliveryState) : Store :=
  [interruptedPcm, interruptedMeta state, interruptedClock]

/-- the store when the metadata was just replaced -/
def replacedStore (state : DeliveryState) : Store :=
  [interruptedPcm, interruptedClock, interruptedMeta state]

def persistedStore : Store := [interruptedClock, interruptedPcm, interruptedMeta .none]

/-- the new metadata is cut off -/
def cutStore : Store :=
  interruptedStore .deliveryStarted ++
    [(tmpName (metaName "rec-1".toList),
      { contents := (utf8 (encodeMeta (interruptedArtifact .failed))).take 33, modified := none })]

/-- the operations of the first call -/
def persistingOps : List Op :=
  writeLastWall interruption 1000 ++
    persistOps interruption "rec-1".toList [1, 2, 3, 4] (interruptedArtifact .none)

/-- the operations of a change to that state -/
def replacingOps (state : DeliveryState) : List Op :=
  writeLastWall interruption 1000 ++ replaceOps interruption (metaName "rec-1".toList)
    (utf8 (encodeMeta (interruptedArtifact state)))

theorem loadMeta_interrupted {d : Store} {f : File UInt8} {state : DeliveryState}
    (hget : d.get (metaName "rec-1".toList) = some f)
    (hf : f.contents = utf8 (encodeMeta (interruptedArtifact state))) :
    loadMeta d (metaName "rec-1".toList) = .ok (interruptedArtifact state) := by
  refine (loadMeta_encoded hget hf).mpr ?_
  rw [parseMeta_encodeMeta (show '\n' ∉ "rec-1".toList by decide)
    (show '\n' ∉ "sha".toList by decide)]
  rfl

theorem readLastWall_interrupted {d : Store} (hget : d.get clockName = some interruptedClock.2) :
    readLastWall d = .ok (some 1000) := by
  have hread : fromUtf8 interruptedClock.2.contents = some (u64Text 1000 ++ ['\n']) :=
    fromUtf8_utf8 _
  have hparse : parseU64 (trim (u64Text 1000 ++ ['\n'])) = some 1000 := by decide +kernel
  simp only [readLastWall, hget, hread, hparse]

example : persistedStore.get clockName = some interruptedClock.2 := by decide +kernel

theorem expireEntries_kept {moment : Moment} {clock : RecoveryClock} {promoteStarted : Bool}
    {d : Store} {name : Text} {names : List Text}
    (h : expireEntry moment clock promoteStarted d name = []) :
    expireEntries moment clock promoteStarted d (name :: names) =
      expireEntries moment clock promoteStarted d names := by
  rw [expireEntries, h]
  rfl

/-- an expiry at the same time expires nothing -/
theorem expire_interrupted {d : Store} {state : DeliveryState}
    (hwall : readLastWall d = .ok (some 1000))
    (hd : applyOps d (writeLastWall interruption 1000) = interruptedStore state)
    (hstate : state ≠ .delivered) :
    expire interruption d = { ops := writeLastWall interruption 1000, result := .ok () } := by
  have hload : loadMeta (interruptedStore state) (metaName "rec-1".toList) =
      .ok (interruptedArtifact state) := loadMeta_interrupted rfl rfl
  have hpcm : expireEntry interruption interruption.clock false (interruptedStore state)
      (pcmName "rec-1".toList) = [] := by
    cases state <;> rfl
  have hmeta : expireEntry interruption interruption.clock false (interruptedStore state)
      (metaName "rec-1".toList) = [] := by
    rw [expireEntry_loaded _ _ _ (by decide) hload, if_neg, if_neg (by simp)]
    rintro (hexpired | hdelivered)
    · cases state <;> exact absurd hexpired (by decide)
    · exact hstate hdelivered
  have hentries : interruption.entries (interruptedStore state) =
      [pcmName "rec-1".toList, metaName "rec-1".toList, clockName] := rfl
  have hclock : interruption.clock.wallUnixMs = 1000 := rfl
  rw [expire, expireWith, hwall]
  dsimp only
  rw [if_neg (by decide), hclock, hd, hentries, expireEntries_kept hpcm, expireEntries_kept hmeta,
    expireEntries_kept (if_pos rfl), expireEntries, List.append_nil]

theorem setState_interrupted {d : Store} {current : DeliveryState} (state : DeliveryState)
    (hwall : readLastWall d = .ok (some 1000))
    (hd : applyOps d (writeLastWall interruption 1000) = interruptedStore current)
    (hcurrent : current ≠ .delivered) :
    (setState interruption "rec-1".toList state d).ops =
      replacingOps (nextState current state) := by
  have hload : loadMeta (interruptedStore current) (metaName "rec-1".toList) =
      .ok (interruptedArtifact current) := loadMeta_interrupted rfl rfl
  have hexpired : artifactExpired (interruptedArtifact current) interruption.clock = false := by
    cases current <;> decide
  have hsafe : (!safeId "rec-1".toList) = false := by decide
  rw [setState, load, expire_interrupted hwall hd hcurrent]
  simp only [Called.andThen, hd, hsafe, hload, hexpired, Called.done]
  rfl

example : nextState .deliveryStarted .failed = .failed := by decide +kernel

theorem persist_interrupted :
    (persistBeforeInference interruption "rec-1".toList [1, 2, 3, 4] "sha".toList []).ops =
      persistingOps := by
  decide +kernel

example : safeId "rec-1".toList = true := by decide +kernel

theorem applyOps_persist : applyOps [] persistingOps = persistedStore := by
  rw [persistingOps, applyOps_append, writeLastWall, applyOps_writeOps, persistOps, applyOps_append,
    applyOps_append, applyOps_writeOps, applyOps_writeOps]
  rfl

theorem applyOps_replace {d : Store} {current : DeliveryState} (state : DeliveryState)
    (hd : applyOps d (writeLastWall interruption 1000) = interruptedStore current) :
    applyOps d (replacingOps state) = replacedStore state := by
  rw [replacingOps, applyOps_append, hd, applyOps_replaceOps]
  rfl

theorem written_persisted :
    applyOps persistedStore (writeLastWall interruption 1000) = interruptedStore .none := by
  rw [writeLastWall, applyOps_writeOps]
  rfl

theorem written_replaced (state : DeliveryState) :
    applyOps (replacedStore state) (writeLastWall interruption 1000) = interruptedStore state := by
  rw [writeLastWall, applyOps_writeOps]
  rfl

example : (replacedStore .failed).length = 3 := by decide +kernel

theorem ops_persist (d : Store) (moment : Moment) (id : Text) (pcm : List UInt8) (hash : Text) :
    Event.ops d ⟨moment, .persistBeforeInference id pcm hash, none⟩ =
      (persistBeforeInference moment id pcm hash d).ops := rfl

theorem ops_start (d : Store) (moment : Moment) (id : Text) :
    Event.ops d ⟨moment, .markDeliveryStarted id, none⟩ =
      (setState moment id .deliveryStarted d).ops := rfl

theorem ops_fail_cut (d : Store) (moment : Moment) (id : Text) (n : Nat) :
    Event.ops d ⟨moment, .markFailed id, some n⟩ = (setState moment id .failed d).ops.take n := rfl

theorem runOps_interrupted : runOps [] interrupted =
    persistingOps ++ (replacingOps .deliveryStarted ++ (replacingOps .failed).take 40) := by
  have hpersisted : readLastWall persistedStore = .ok (some 1000) := readLastWall_interrupted rfl
  have hreplaced : readLastWall (replacedStore .deliveryStarted) = .ok (some 1000) :=
    readLastWall_interrupted rfl
  have hstart := setState_interrupted .deliveryStarted hpersisted written_persisted (by decide)
  have hfail := setState_interrupted .failed hreplaced (written_replaced _) (by decide)
  have happlied := applyOps_replace .deliveryStarted written_persisted
  have hstartNext : nextState .none .deliveryStarted = .deliveryStarted := by decide
  have hfailNext : nextState .deliveryStarted .failed = .failed := by decide
  have hevents : interrupted =
      [⟨interruption, .persistBeforeInference "rec-1".toList [1, 2, 3, 4] "sha".toList, none⟩,
        ⟨interruption, .markDeliveryStarted "rec-1".toList, none⟩,
        ⟨interruption, .markFailed "rec-1".toList, some 40⟩] := rfl
  rw [hevents, runOps, runOps, runOps, runOps, ops_persist, persist_interrupted, applyOps_persist,
    ops_start, hstart, hstartNext, happlied, ops_fail_cut, hfail, hfailNext, List.append_nil]

example : cutStore.length = 4 := by decide +kernel

theorem directory_interrupted : directory interrupted 1000 = cutStore := by
  have hlength : (runOps [] interrupted).length ≤ 1000 := by
    rw [runOps_interrupted]
    decide +kernel
  have hcut : applyOps (replacedStore .deliveryStarted) ((replacingOps .failed).take 40) =
      cutStore := by
    decide +kernel
  rw [directory, List.take_of_length_le hlength, runOps_interrupted, applyOps_append,
    applyOps_persist, applyOps_append, applyOps_replace .deliveryStarted written_persisted, hcut]

/-- the moment of the load after it -/
def afterInterruption : Moment := momentAt { wallUnixMs := 2000, bootMs := none }

def afterClock : File UInt8 := { contents := utf8 (u64Text 2000 ++ ['\n']), modified := none }

/-- what was cut off is expired by the next call -/
theorem expire_cut : expire afterInterruption cutStore =
    { ops := writeLastWall afterInterruption 2000 ++ [.remove (tmpName (metaName "rec-1".toList))]
      result := .ok () } := by
  have hwall : readLastWall cutStore = .ok (some 1000) := readLastWall_interrupted rfl
  have hwritten : applyOps cutStore (writeLastWall afterInterruption 2000) =
      cutStore.put clockName afterClock := by
    rw [writeLastWall, applyOps_writeOps]
    rfl
  have hload : loadMeta (cutStore.put clockName afterClock) (metaName "rec-1".toList) =
      .ok (interruptedArtifact .deliveryStarted) := loadMeta_interrupted rfl rfl
  have hpcm : expireEntry afterInterruption afterInterruption.clock false
      (cutStore.put clockName afterClock) (pcmName "rec-1".toList) = [] := rfl
  have hmeta : expireEntry afterInterruption afterInterruption.clock false
      (cutStore.put clockName afterClock) (metaName "rec-1".toList) = [] := by
    rw [expireEntry_loaded _ _ _ (by decide) hload]
    rfl
  have htmp : expireEntry afterInterruption afterInterruption.clock false
      (cutStore.put clockName afterClock) (tmpName (metaName "rec-1".toList)) =
        [.remove (tmpName (metaName "rec-1".toList))] := rfl
  have hentries : afterInterruption.entries (cutStore.put clockName afterClock) =
      [pcmName "rec-1".toList, metaName "rec-1".toList, tmpName (metaName "rec-1".toList),
        clockName] := rfl
  have hclock : afterInterruption.clock.wallUnixMs = 2000 := rfl
  rw [expire, expireWith, hwall]
  dsimp only
  rw [if_neg (by decide), hclock, hwritten, hentries, expireEntries_kept hpcm,
    expireEntries_kept hmeta, expireEntries, htmp, expireEntries_kept (if_pos rfl), expireEntries,
    List.append_nil]

theorem load_cut : (load afterInterruption "rec-1".toList cutStore).result =
    .ok (interruptedArtifact .deliveryStarted) := by
  have hload : loadMeta ((interruptedStore .deliveryStarted).put clockName afterClock)
      (metaName "rec-1".toList) = .ok (interruptedArtifact .deliveryStarted) :=
    loadMeta_interrupted rfl rfl
  have hcleared : applyOps cutStore (writeLastWall afterInterruption 2000 ++
      [.remove (tmpName (metaName "rec-1".toList))]) =
        (interruptedStore .deliveryStarted).put clockName afterClock := by
    rw [applyOps_append, writeLastWall, applyOps_writeOps]
    rfl
  have hsafe : (!safeId "rec-1".toList) = false := by decide
  rw [load, expire_cut]
  simp only [Called.andThen, hcleared, hsafe, hload]
  rfl

theorem run_retains_interrupted :
    Retains interrupted ∧
      (load (momentAt { wallUnixMs := 2000, bootMs := none }) "rec-1".toList
        (directory interrupted 1000)).result.toOption.map (·.deliveryState) =
        some .deliveryStarted := by
  refine ⟨run_retains interrupted ?_, ?_⟩
  · intro e he
    simp only [interrupted, List.mem_cons, List.not_mem_nil, or_false] at he
    rcases he with rfl | rfl | rfl
    · refine ⟨by decide, fun b hb => ?_⟩
      have hread := @parseMeta_encodeMeta (interruptedArtifact .none)
        (show '\n' ∉ "rec-1".toList by decide) (show '\n' ∉ "sha".toList by decide)
      rw [← Option.some.inj (hread.symm.trans hb)]
      rfl
    · trivial
    · trivial
  · rw [directory_interrupted]
    show (load afterInterruption "rec-1".toList cutStore).result.toOption.map _ = _
    rw [load_cut]
    rfl

/-- a recording is persisted under an id with a line break in it -/
def brokenId : List Event :=
  [{ moment := momentAt { wallUnixMs := 0, bootMs := none }
     request := .persistBeforeInference "a\nb".toList [1, 2] "sha".toList
     crash := none }]

/-- the metadata that the call leaves, which is read back as that of the id `a` -/
def brokenMeta : Text :=
  encodeMeta (newArtifact (momentAt { wallUnixMs := 0, bootMs := none }) "a\nb".toList [1, 2]
    "sha".toList)

def brokenArtifact : RecoveryArtifact :=
  { recordingId := "a".toList, createdUnixMs := 0, observedWallUnixMs := 0, bootMs := none
    modelReceiptHash := "sha".toList, deliveryState := .none, pcmBytes := 2 }

def dayLater : RecoveryClock := { wallUnixMs := 86400000, bootMs := none }

/-- what is there a day later, the clock written -/
def brokenStore : Store :=
  [(pcmName "a\nb".toList, { contents := [1, 2], modified := none }),
   (metaName "a\nb".toList, { contents := utf8 brokenMeta, modified := none }),
   (clockName, { contents := utf8 (u64Text 86400000 ++ ['\n']), modified := none })]

theorem loadMeta_brokenStore :
    loadMeta brokenStore (metaName "a\nb".toList) = .ok brokenArtifact :=
  (loadMeta_encoded (f := { contents := utf8 brokenMeta, modified := none }) (by rfl) rfl).2
    (by decide +kernel)

theorem applyOps_writeLastWall :
    applyOps (directory brokenId 1000) (writeLastWall (momentAt dayLater) 86400000) =
      brokenStore := by decide +kernel

theorem applyOps_deleteOps : applyOps brokenStore (deleteOps "a".toList) = brokenStore := by
  decide +kernel

/-- the expiry deletes `a`, of which nothing is there -/
theorem expireEntries_brokenStore :
    expireEntries (momentAt dayLater) dayLater false brokenStore
      [pcmName "a\nb".toList, metaName "a\nb".toList, clockName] = deleteOps "a".toList := by
  have hpcm : expireEntry (momentAt dayLater) dayLater false brokenStore (pcmName "a\nb".toList) =
      [] := by decide +kernel
  have hmeta : expireEntry (momentAt dayLater) dayLater false brokenStore
      (metaName "a\nb".toList) = deleteOps "a".toList := by
    have hvisible : ¬((metaName "a\nb".toList).head? = some '.' ∨
        endsWith (metaName "a\nb".toList) tmpSuffix = true) := by decide
    have hexpired : artifactExpired brokenArtifact dayLater = true := by decide
    have hsafe : (deleteArtifact brokenArtifact.recordingId).ops = deleteOps "a".toList := by
      decide
    exact (expireEntry_loaded _ _ _ hvisible loadMeta_brokenStore).trans
      ((if_pos (.inl hexpired)).trans hsafe)
  rw [expireEntries, hpcm, List.nil_append]
  show expireEntries (momentAt dayLater) dayLater false brokenStore _ = _
  rw [expireEntries, hmeta, applyOps_deleteOps]
  rfl

theorem expireWith_brokenId :
    expireWith (momentAt dayLater) dayLater false (directory brokenId 1000) =
      { ops := writeLastWall (momentAt dayLater) 86400000 ++ deleteOps "a".toList
        result := .ok () } := by
  have hwall : readLastWall (directory brokenId 1000) = .ok (some 0) := by decide +kernel
  have hentries : (momentAt dayLater).entries brokenStore =
      [pcmName "a\nb".toList, metaName "a\nb".toList, clockName] := rfl
  rw [expireWith, hwall]
  show ite _ _ _ = _
  rw [if_neg (by decide)]
  show Called.mk (_ ++ expireEntries _ _ _
    (applyOps _ (writeLastWall (momentAt dayLater) 86400000))
    (Moment.entries _ (applyOps _ (writeLastWall (momentAt dayLater) 86400000)))) _ = _
  rw [applyOps_writeLastWall, hentries, expireEntries_brokenStore]
  rfl

/-- the metadata names the id `a`, so that after a day the expiry deletes that and leaves `a\nb` -/
theorem brokenId_outlives : ¬ Retains brokenId := by
  intro h
  have hfresh := h.expired 1000 (momentAt dayLater) dayLater false
    (by rw [expireWith_brokenId]) "a\nb".toList brokenArtifact
  rw [expireWith_brokenId, applyOps_append, applyOps_writeLastWall, applyOps_deleteOps] at hfresh
  have hsamples : brokenStore.get (pcmName "a\nb".toList) ≠ none := Option.some_ne_none _
  have hexpired : artifactExpired brokenArtifact dayLater = true := rfl
  cases hexpired.symm.trans (hfresh loadMeta_brokenStore hsamples)

end Voisu.Recovery
