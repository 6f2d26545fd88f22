import Mathlib
import Voisu.Config.Setters
import Voisu.Daemon.Actor
import Voisu.Lib.Except

/-!
# The engine that was chosen

The choice of the engine is spread over three files: a marker, the config and a revision.  They are
replaced in that order, each at once, and a crash or a failure may come before or after each of them;
the config may be edited at any time.

* `Store.write`          `persist_asr_mode_at`, step by step;
* `loadMode`             the engine that is read;
* `SaysCloud`            a root line that chooses the Cloud;
* `run_fails_closed`     **once a choice was acknowledged the Cloud is read only where the config says
                         so, and the revisions of the acknowledged choices increase**.
-/

namespace Voisu.Config
open Lib Daemon

/-! ## the files -/

inductive ConfigFile where
  | absent
  | unreadable (error : Text)
  | text (contents : Text)
deriving DecidableEq, Repr

structure Files where
  marker : Bool
  config : ConfigFile
  revision : Option Text
deriving DecidableEq, Repr

/-- what the system may refuse a reader, with its errors -/
structure Faults where
  lock : Option Text
  marker : Option Text
  revision : Option Text
deriving DecidableEq, Repr

def markerPresent (faults : Faults) (files : Files) : Except AdmissionError Bool :=
  match faults.marker with
  | some error => .error (.access ("cannot inspect mode-initialized marker: ".toList ++ error))
  | none => .ok files.marker

def readRevisionAt (faults : Faults) (files : Files) : Except AdmissionError Nat :=
  match faults.revision with
  | some error => .error (.access ("cannot read config revision: ".toList ++ error))
  | none =>
    match files.revision with
    | none => .ok 0
    | some contents =>
      match parseUnsigned u64Max (trim contents) with
      | some revision => .ok revision
      | none => .error (.blocked ("can't read Voisu's saved engine state; run voisu engine local " ++
          "or voisu engine cloud").toList)

/-- `ConfigLock::acquire_bounded` -/
def acquireBounded (faults : Faults) : Except AdmissionError Unit :=
  match faults.lock with
  | some error => .error (.access error)
  | none => .ok ()

def choiceMissing : AdmissionError :=
  .blocked ("your engine choice is missing from the Voisu config file; run voisu engine local or " ++
    "voisu engine cloud").toList

def choiceGone : AdmissionError :=
  .blocked ("the Voisu config file holding your engine choice is gone; run voisu engine local or " ++
    "voisu engine cloud").toList

def loadMode (path : Text) (faults : Faults) (files : Files) :
    Except AdmissionError (AsrMode × Nat) := do
  let _ ← acquireBounded faults
  let marker ← markerPresent faults files
  let revision ← readRevisionAt faults files
  match files.config with
  | .text contents =>
    match ← parseAsrModeDocument contents with
    | some mode => .ok (mode, revision)
    | none => if marker then .error choiceMissing else .ok (.cloud, revision)
  | .absent => if marker then .error choiceGone else .ok (.cloud, revision)
  | .unreadable error =>
    .error (.access ("can't read your Voisu config file ".toList ++ path ++ ": ".toList ++ error))

/-! ## a choice, step by step -/

inductive Stage where
  | marker
  | config
  | revision
deriving DecidableEq, Repr

/-- a call of `persist_asr_mode_at` that holds the lock, before its next step -/
structure Persist where
  mode : AsrMode
  next : Nat
  stage : Stage
deriving DecidableEq, Repr

/-- the files, the call that holds the lock, and what has been acknowledged -/
structure Store where
  files : Files
  inFlight : Option Persist
  acknowledged : List (AsrMode × Nat)
deriving DecidableEq, Repr

/-- how a replacement ends: `indeterminate` when it is made and the caller learns of an error, or of
nothing at all -/
inductive Outcome where
  | done
  | failed
  | indeterminate
deriving DecidableEq, Repr

/-- the text of the config, as a setter reads it -/
def ConfigFile.existing : ConfigFile → Option Text
  | .absent => some []
  | .text contents => some contents
  | .unreadable _ => none

def Store.abandon (s : Store) : Store := { s with inFlight := none }

/-- the files after a replacement, unless it failed -/
def Store.replace (s : Store) (outcome : Outcome) (files : Files) : Store :=
  if outcome = .failed then s else { s with files }

/-- the next step of a call; a marker that is there already is left as it is -/
def Store.write (s : Store) (call : Persist) (outcome : Outcome) : Store :=
  match call.stage with
  | .marker =>
    let s := s.replace outcome { s.files with marker := true }
    if outcome = .done then { s with inFlight := some { call with stage := .config } }
    else s.abandon
  | .config =>
    match s.files.config.existing with
    | none => s.abandon
    | some existing =>
      let s := s.replace outcome
        { s.files with config := .text ((Setting.asrMode call.mode).merge existing) }
      if outcome = .done then { s with inFlight := some { call with stage := .revision } }
      else s.abandon
  | .revision =>
    let s := s.replace outcome { s.files with revision := some (natText call.next ++ ['\n']) }
    if outcome = .done then
      { s.abandon with acknowledged := s.acknowledged ++ [(call.mode, call.next)] }
    else s.abandon

inductive Event where
  | begins (mode : AsrMode) (faults : Faults)
  | writes (outcome : Outcome)
  | crashes
  | sets (setting : Setting) (outcome : Outcome)
  | edits (config : ConfigFile)
deriving DecidableEq, Repr

/-- the lock keeps out a second call and the other setters; none of those sets the engine -/
def Store.step (s : Store) : Event → Store
  | .begins mode faults =>
    if s.inFlight.isSome then s
    else match readRevisionAt faults s.files with
      | .error _ => s
      | .ok revision =>
        { s with inFlight := some { mode, next := saturatingSucc revision, stage := .marker } }
  | .writes outcome =>
    match s.inFlight with
    | none => s
    | some call => s.write call outcome
  | .crashes => s.abandon
  | .sets setting outcome =>
    if s.inFlight.isSome || setting.key = .asrMode then s
    else match s.files.config.existing with
      | none => s
      | some existing =>
        s.replace outcome { s.files with config := .text (setting.merge existing) }
  | .edits config => { s with files := { s.files with config } }

def Store.run (s : Store) (es : List Event) : Store := es.foldl Store.step s

/-! ## a root line that chooses the Cloud -/

/-- a line before the first table with the key of the engine, bare or quoted, and this value -/
def Says (lines : List Text) (mode : AsrMode) : Prop :=
  ∃ before line after k v, lines = before ++ line :: after ∧
    (∀ l ∈ before ++ [line], isTable (content l) = false) ∧
    keyValue (content line) = some (k, v) ∧ isAsrModeKey (trim k) = true ∧
    asrModeOf (trim v) = .ok mode

theorem Says.cons {lines : List Text} {line : Text} {mode : AsrMode} (h : Says lines mode)
    (htable : isTable (content line) = false) : Says (line :: lines) mode := by
  obtain ⟨before, line', after, k, v, hlines, hroot, hrest⟩ := h
  refine ⟨line :: before, line', after, k, v, by rw [hlines]; rfl, ?_, hrest⟩
  intro l hl
  rcases List.mem_cons.mp hl with rfl | hl
  · exact htable
  · exact hroot l hl

theorem Accepts.stated {seen : List Text} {asrMode r : Option AsrMode} {lines : List Text}
    (h : Accepts seen asrMode lines r) : r = asrMode ∨ ∃ mode, r = some mode ∧ Says lines mode := by
  induction h with
  | nil => exact .inl rfl
  | table htable => exact .inl rfl
  | @empty seen asrMode line lines r hempty h ih =>
    have htable : isTable (content line) = false := by
      rw [hempty]
      rfl
    exact ih.imp_right fun ⟨mode, hr, hsays⟩ => ⟨mode, hr, hsays.cons htable⟩
  | other htable hkv hreadable hkey hnew h ih =>
    exact ih.imp_right fun ⟨mode, hr, hsays⟩ => ⟨mode, hr, hsays.cons htable⟩
  | @engine seen asrMode line lines r k v mode htable hkv hkey hnew hmode h ih =>
    rcases ih with hr | ⟨mode', hr, hsays⟩
    · refine .inr ⟨mode, hr, [], line, lines, k, v, rfl, ?_, hkv, hkey, hmode⟩
      intro l hl
      rw [List.mem_singleton.mp hl]
      exact htable
    · exact .inr ⟨mode', hr, hsays.cons htable⟩

theorem says_of_parse {contents : Text} {mode : AsrMode}
    (h : parseAsrModeDocument contents = .ok (some mode)) : Says (strLines contents) mode := by
  rcases (parseAsrModeFrom_eq_ok.mp h).stated with hnone | ⟨mode', hmode, hsays⟩
  · cases hnone
  · obtain rfl := Option.some.inj hmode
    exact hsays

/-- with the marker there, the engine that is read stands in the config -/
theorem loadMode_marked {path : Text} {faults : Faults} {files : Files} {mode : AsrMode}
    {revision : Nat} (hmarker : files.marker = true)
    (h : loadMode path faults files = .ok (mode, revision)) :
    ∃ contents, files.config = .text contents ∧ Says (strLines contents) mode := by
  unfold loadMode at h
  obtain ⟨-, -, h⟩ := bind_eq_ok h
  obtain ⟨marker, hpresent, h⟩ := bind_eq_ok h
  obtain ⟨stored, -, h⟩ := bind_eq_ok h
  obtain rfl : marker = true := by
    unfold markerPresent at hpresent
    split at hpresent
    · cases hpresent
    · rw [← Except.ok.inj hpresent, hmarker]
  split at h
  · rename_i contents hconfig
    obtain ⟨parsed, hparsed, h⟩ := bind_eq_ok h
    cases parsed with
    | none => cases h
    | some chosen =>
      obtain ⟨rfl, -⟩ := Prod.mk.inj (Except.ok.inj h)
      exact ⟨contents, hconfig, says_of_parse hparsed⟩
  · cases h
  · cases h

/-! ## what holds in every state -/

/-- the revision that the file holds -/
def Files.stored (files : Files) : Option Nat :=
  match files.revision with
  | none => some 0
  | some contents => parseUnsigned u64Max (trim contents)

structure Sound (s : Store) : Prop where
  marked : s.acknowledged ≠ [] → s.files.marker = true
  passed : ∀ call, s.inFlight = some call → call.stage ≠ .marker → s.files.marker = true
  follows : ∀ call, s.inFlight = some call → ∃ n, s.files.stored = some n ∧
    call.next = saturatingSucc n
  bounded : ∀ a ∈ s.acknowledged, ∃ n, s.files.stored = some n ∧ a.2 ≤ n
  increasing : (s.acknowledged.map Prod.snd).Pairwise fun a b => a < u64Max → a < b

theorem not_isWhitespace_of_isDigit {c : Char} (h : c.isDigit = true) : isWhitespace c = false := by
  have hrange : 48 ≤ c.toNat ∧ c.toNat ≤ 57 := by
    simp only [Char.isDigit, Bool.and_eq_true, decide_eq_true_eq] at h
    exact h
  simp only [isWhitespace, inRange, Bool.or_eq_false_iff, Bool.and_eq_false_iff,
    decide_eq_false_iff_not, beq_eq_false_iff_ne]
  omega

theorem trim_natText_break (n : Nat) : trim (natText n ++ ['\n']) = natText n := by
  rw [trim_concat (by decide)]
  have hdigits : (natText n).all (fun c => !isWhitespace c) = true :=
    List.all_eq_true.mpr fun c hc => by rw [not_isWhitespace_of_isDigit (natText_isDigit hc)]; rfl
  exact trimMatches_of_trimmed ⟨headSep_of_all hdigits, lastSep_of_all hdigits⟩

theorem stored_le {files : Files} {n : Nat} (h : files.stored = some n) : n ≤ u64Max := by
  unfold Files.stored at h
  split at h
  · rw [← Option.some.inj h]
    exact Nat.zero_le _
  · exact parseUnsigned_le h

theorem stored_natText (files : Files) {n : Nat} (h : n ≤ u64Max) :
    Files.stored { files with revision := some (natText n ++ ['\n']) } = some n := by
  show parseUnsigned u64Max (trim (natText n ++ ['\n'])) = some n
  rw [trim_natText_break, parseUnsigned_natText h]

theorem saturatingSucc_le (n : Nat) : saturatingSucc n ≤ u64Max := Nat.min_le_right _ _

/-- the next revision is above every one before it, up to the last there is -/
theorem lt_saturatingSucc {a n : Nat} (ha : a ≤ n) (hmax : a < u64Max) : a < saturatingSucc n := by
  unfold saturatingSucc
  omega

theorem le_saturatingSucc {a n : Nat} (ha : a ≤ n) (hmax : n ≤ u64Max) : a ≤ saturatingSucc n := by
  unfold saturatingSucc
  omega

section
variable {s : Store}

/-- the call is over, and the files are no further than before or one marker further -/
theorem Sound.abandon (h : Sound s) : Sound s.abandon where
  marked := h.marked
  passed := by simp [Store.abandon]
  follows := by simp [Store.abandon]
  bounded := h.bounded
  increasing := h.increasing

/-- the revision is as it was, and a marker is not taken away -/
theorem Sound.files (h : Sound s) {files : Files}
    (hmarker : s.files.marker = true → files.marker = true)
    (hrevision : files.revision = s.files.revision) : Sound { s with files } := by
  have hstored : files.stored = s.files.stored := by
    unfold Files.stored
    rw [hrevision]
  refine ⟨fun hne => hmarker (h.marked hne), fun call hcall hstage =>
    hmarker (h.passed call hcall hstage), ?_, ?_, h.increasing⟩
  · rw [hstored]
    exact h.follows
  · rw [hstored]
    exact h.bounded

theorem Sound.replace (h : Sound s) {files : Files}
    (hmarker : s.files.marker = true → files.marker = true)
    (hrevision : files.revision = s.files.revision) (outcome : Outcome) :
    Sound (s.replace outcome files) := by
  unfold Store.replace
  split
  · exact h
  · exact h.files hmarker hrevision

/-- the call goes on to its next step, the marker behind it -/
theorem Sound.advance (h : Sound s) {call : Persist} (hcall : s.inFlight = some call)
    (hmarker : s.files.marker = true) (stage : Stage) :
    Sound { s with inFlight := some { call with stage } } where
  marked := h.marked
  passed := fun _ _ _ => hmarker
  follows := by
    rintro _ ⟨⟩
    exact h.follows call hcall
  bounded := h.bounded
  increasing := h.increasing

theorem replace_done (s : Store) (files : Files) : s.replace .done files = { s with files } := rfl

/-- the revision is replaced: it is the next one, and may be acknowledged -/
theorem Sound.commit (h : Sound s) {call : Persist} (hcall : s.inFlight = some call)
    (hmarker : s.files.marker = true) {acknowledged : List (AsrMode × Nat)}
    (hacknowledged : acknowledged = s.acknowledged ∨
      acknowledged = s.acknowledged ++ [(call.mode, call.next)]) :
    Sound { files := { s.files with revision := some (natText call.next ++ ['\n']) },
            inFlight := none, acknowledged } := by
  obtain ⟨n, hstored, hnext⟩ := h.follows call hcall
  have hstored' := stored_natText s.files (hnext ▸ saturatingSucc_le n : call.next ≤ u64Max)
  have hold : ∀ a ∈ s.acknowledged, a.2 ≤ n := by
    intro a ha
    obtain ⟨m, hm, hle⟩ := h.bounded a ha
    rwa [Option.some.inj (hm.symm.trans hstored)] at hle
  have hbounded : ∀ a ∈ s.acknowledged, a.2 ≤ call.next := fun a ha =>
    hnext ▸ le_saturatingSucc (hold a ha) (stored_le hstored)
  refine ⟨fun _ => hmarker, by simp, by simp, fun a ha => ⟨call.next, hstored', ?_⟩, ?_⟩
  · rcases hacknowledged with rfl | rfl
    · exact hbounded a ha
    · rcases List.mem_append.mp ha with ha | ha
      · exact hbounded a ha
      · rw [List.mem_singleton.mp ha]
  · rcases hacknowledged with rfl | rfl
    · exact h.increasing
    · rw [List.map_append, List.map_singleton, List.pairwise_append]
      refine ⟨h.increasing, List.pairwise_singleton _ _, fun a ha b hb hmax => ?_⟩
      obtain ⟨acknowledged, hmem, rfl⟩ := List.mem_map.mp ha
      rw [List.mem_singleton.mp hb, hnext]
      exact lt_saturatingSucc (hold acknowledged hmem) hmax

theorem Sound.write (h : Sound s) {call : Persist} (hcall : s.inFlight = some call)
    (outcome : Outcome) : Sound (s.write call outcome) := by
  unfold Store.write
  split
  · have hreplace := @Sound.replace s h { s.files with marker := true } (fun _ => rfl) rfl outcome
    simp only
    split
    · rename_i hdone
      rw [hdone, replace_done] at hreplace ⊢
      exact hreplace.advance hcall rfl .config
    · exact hreplace.abandon
  · rename_i hstage
    have hmarker := h.passed call hcall (by simp [hstage])
    split
    · exact h.abandon
    · rename_i existing hexisting
      have hreplace := @Sound.replace s h { s.files with
        config := .text ((Setting.asrMode call.mode).merge existing) } id rfl outcome
      simp only
      split
      · rename_i hdone
        rw [hdone, replace_done] at hreplace ⊢
        exact hreplace.advance hcall hmarker .revision
      · exact hreplace.abandon
  · rename_i hstage
    have hmarker := h.passed call hcall (by simp [hstage])
    cases outcome with
    | done => exact h.commit hcall hmarker (.inr rfl)
    | failed => exact h.abandon
    | indeterminate => exact h.commit hcall hmarker (.inl rfl)

theorem stored_of_readRevisionAt {faults : Faults} {files : Files} {n : Nat}
    (h : readRevisionAt faults files = .ok n) : files.stored = some n := by
  unfold readRevisionAt at h
  unfold Files.stored
  split at h
  · cases h
  · split at h
    · rw [Except.ok.inj h]
    · split at h
      · rename_i hparsed
        rw [hparsed, Except.ok.inj h]
      · cases h

/-- **every step keeps what holds** -/
theorem Sound.step (h : Sound s) (e : Event) : Sound (s.step e) := by
  cases e with
  | begins mode faults =>
    simp only [Store.step]
    split
    · exact h
    · split
      · exact h
      · rename_i revision hread
        refine ⟨h.marked, ?_, ?_, h.bounded, h.increasing⟩
        · rintro _ ⟨⟩ hstage
          exact absurd rfl hstage
        · rintro _ ⟨⟩
          exact ⟨revision, stored_of_readRevisionAt hread, rfl⟩
  | writes outcome =>
    simp only [Store.step]
    split
    · exact h
    · rename_i call hcall
      exact h.write hcall outcome
  | crashes => exact h.abandon
  | sets setting outcome =>
    simp only [Store.step]
    split
    · exact h
    · split
      · exact h
      · rename_i existing hexisting
        exact @Sound.replace s h { s.files with config := .text (setting.merge existing) } id rfl
          outcome
  | edits config => exact @Sound.files s h { s.files with config } id rfl

end

/-! ## whole runs -/

def Store.new (files : Files) : Store := { files, inFlight := none, acknowledged := [] }

theorem Sound.run (files : Files) (es : List Event) : Sound ((Store.new files).run es) := by
  induction es using List.reverseRecOn with
  | nil => exact ⟨by simp [Store.new, Store.run], by simp [Store.new, Store.run],
      by simp [Store.new, Store.run], by simp [Store.new, Store.run], List.Pairwise.nil⟩
  | append_singleton es e ih =>
    rw [Store.run, List.foldl_append]
    exact ih.step e

/-- **after an acknowledged choice of Local, whatever crashed, failed or was edited, the Cloud is read
only where a root line of the config chooses it; and the revisions of the acknowledged choices
increase up to the last there is** -/
theorem run_fails_closed (path : Text) (files : Files) (es : List Event) :
    ((∃ revision, (AsrMode.localMode, revision) ∈ ((Store.new files).run es).acknowledged) →
      ∀ faults revision,
        loadMode path faults ((Store.new files).run es).files = .ok (.cloud, revision) →
          ∃ contents, ((Store.new files).run es).files.config = .text contents ∧
            Says (strLines contents) .cloud) ∧
      (((Store.new files).run es).acknowledged.map Prod.snd).Pairwise
        fun a b => a < u64Max → a < b := by
  have h := Sound.run files es
  refine ⟨fun ⟨revision, hmem⟩ faults revision' hload => ?_, h.increasing⟩
  exact loadMode_marked (h.marked (List.ne_nil_of_mem hmem)) hload

/-- Local is chosen, the choice of the Cloud crashes after its marker, and the config is deleted -/
def deletedConfig : List Event :=
  [.begins .localMode ⟨none, none, none⟩, .writes .done, .writes .done, .writes .done,
    .begins .cloud ⟨none, none, none⟩, .writes .done, .crashes, .edits .absent]

theorem run_fails_closed_deletedConfig :
    ((Store.new ⟨false, .absent, none⟩).run deletedConfig).acknowledged = [(.localMode, 1)] ∧
      loadMode [] ⟨none, none, none⟩ ((Store.new ⟨false, .absent, none⟩).run deletedConfig).files ≠
        .ok (.cloud, 1) := by
  have hacknowledged : ((Store.new ⟨false, .absent, none⟩).run deletedConfig).acknowledged =
      [(.localMode, 1)] := rfl
  refine ⟨hacknowledged, fun hload => ?_⟩
  obtain ⟨contents, hconfig, -⟩ := (run_fails_closed [] ⟨false, .absent, none⟩ deletedConfig).1
    ⟨1, by rw [hacknowledged]; exact List.mem_singleton_self _⟩ _ 1 hload
  cases hconfig

end Voisu.Config
