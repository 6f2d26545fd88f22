import Voisu.Compose.Candidate
import Voisu.Provider

/-!
# Diagnostic records

The record that is kept of a Recording, with the strings and lists that are clamped, scrubbed or
pruned.  Closed codes, counters and timings are copied as they are by every function here and left
out.  The evaluation build, which keeps a late candidate, is left out with its feature.

* `clampUtf8Bytes`              the longest prefix within a byte budget;
* `LocalAsrDiagnostic.normalize` and its siblings   the byte budgets of each nested diagnostic;
* `DiagnosticRecord.prepared`   the record as the store persists it;
* `InNormalForm`                every nested diagnostic equals its own normal form.
-/

namespace Voisu.Diagnostics
open Lib

/-! ## byte budgets -/

def maxStoredText : Nat := 8 * 1024
def maxSmartWritingDiagnosticTextUtf8Bytes : Nat := 2048
def maxSmartWritingDiagnosticEdits : Nat := 32
def maxModelIdUtf8Bytes : Nat := 128
def maxSmartWritingFreeTextUtf8Bytes : Nat := 128
def maxSmartWritingEditFieldUtf8Bytes : Nat := 256

/-- the last boundary up to an offset -/
def floorBoundary (text : Text) : Nat → Nat
  | 0 => 0
  | n + 1 => if isBoundary (n + 1) text then n + 1 else floorBoundary text n

def clampUtf8Bytes (text : Text) (maxBytes : Nat) : Text :=
  if byteLen text ≤ maxBytes then text
  else ((slice 0 (floorBoundary text maxBytes) text).getD [])

def clampOptionalUtf8 (value : Option Text) (maxBytes : Nat) : Option Text :=
  value.bind fun text =>
    let clamped := clampUtf8Bytes text maxBytes
    if clamped.isEmpty then none else some clamped

def sanitizeTextSha256Fingerprint (digest : Digest) (value sourceText : Text) : Text :=
  if isTextSha256Fingerprint value then value else textSha256Fingerprint digest sourceText

/-! ## nested diagnostics -/

structure LocalAsrDiagnostic where
  modelId : Text
  runtime : Option Text
  backend : Option Text
  language : Option Text
  requestedDevice : Option Text
  observedDevice : Option Text
  manifestHash : Option Text
  reason : Option Text
deriving DecidableEq, Repr

def LocalAsrDiagnostic.normalize (d : LocalAsrDiagnostic) : LocalAsrDiagnostic :=
  { modelId := clampUtf8Bytes d.modelId maxModelIdUtf8Bytes
    runtime := clampOptionalUtf8 d.runtime maxModelIdUtf8Bytes
    backend := clampOptionalUtf8 d.backend maxModelIdUtf8Bytes
    language := clampOptionalUtf8 d.language maxModelIdUtf8Bytes
    requestedDevice := clampOptionalUtf8 d.requestedDevice maxModelIdUtf8Bytes
    observedDevice := clampOptionalUtf8 d.observedDevice maxModelIdUtf8Bytes
    manifestHash := clampOptionalUtf8 d.manifestHash maxModelIdUtf8Bytes
    reason := clampOptionalUtf8 d.reason maxSmartWritingFreeTextUtf8Bytes }

structure IntentReconstructionDiagnostic where
  model : Text
  candidate : Option Text
deriving DecidableEq, Repr

/-- a candidate that is clamped to nothing stays present -/
def IntentReconstructionDiagnostic.normalize (d : IntentReconstructionDiagnostic) :
    IntentReconstructionDiagnostic :=
  { model := clampUtf8Bytes d.model maxModelIdUtf8Bytes
    candidate := d.candidate.map fun candidate => clampUtf8Bytes candidate maxStoredText }

structure SmartWritingEditEvidence where
  editId : Text
  ruleId : Text
  before : Text
  after : Text
deriving DecidableEq, Repr

def SmartWritingEditEvidence.normalize (e : SmartWritingEditEvidence) :
    SmartWritingEditEvidence :=
  { editId := clampUtf8Bytes e.editId maxSmartWritingFreeTextUtf8Bytes
    ruleId := clampUtf8Bytes e.ruleId maxSmartWritingFreeTextUtf8Bytes
    before := clampUtf8Bytes e.before maxSmartWritingEditFieldUtf8Bytes
    after := clampUtf8Bytes e.after maxSmartWritingEditFieldUtf8Bytes }

structure SmartWritingDiagnostic where
  formatterContractId : Text
  validatedBefore : Text
  validatedBeforeSha256 : Text
  renderedAfter : Text
  renderedAfterSha256 : Text
  edits : List SmartWritingEditEvidence
  modelId : Option Text
  freeFormError : Option Text
deriving DecidableEq, Repr

/-- fingerprints are checked after the texts are clamped -/
def SmartWritingDiagnostic.normalize (digest : Digest) (d : SmartWritingDiagnostic) :
    SmartWritingDiagnostic :=
  let validatedBefore := clampUtf8Bytes d.validatedBefore maxSmartWritingDiagnosticTextUtf8Bytes
  let renderedAfter := clampUtf8Bytes d.renderedAfter maxSmartWritingDiagnosticTextUtf8Bytes
  { formatterContractId := clampUtf8Bytes d.formatterContractId maxSmartWritingFreeTextUtf8Bytes
    validatedBefore
    validatedBeforeSha256 :=
      sanitizeTextSha256Fingerprint digest d.validatedBeforeSha256 validatedBefore
    renderedAfter
    renderedAfterSha256 :=
      sanitizeTextSha256Fingerprint digest d.renderedAfterSha256 renderedAfter
    edits := (d.edits.take maxSmartWritingDiagnosticEdits).map SmartWritingEditEvidence.normalize
    modelId := clampOptionalUtf8 d.modelId maxModelIdUtf8Bytes
    freeFormError := clampOptionalUtf8 d.freeFormError maxSmartWritingFreeTextUtf8Bytes }

/-! ## the prompt rendering timeline -/

def dprDiagnosticVersion : Nat := 1
def maxDprDiagnosticEvents : Nat := 24
def dprLocalFallbackMessage : Text := "Local formatting used".toList

inductive DprDiagnosticEventName where
  | routeSelected
  | cloudSkipped
  | cloudRequestStarted
  | cloudResponseReceived
  | cloudDeadlineExceeded
  | providerFailed
  | schemaValidationFailed
  | sourceDerivationFailed
  | compositionAccepted
  | fallbackBaselineSelected
  | deliveryEmitted
  | lateResultDiscarded
deriving DecidableEq, Repr

structure DprDiagnosticEvent where
  name : DprDiagnosticEventName
  tMs : Nat
deriving DecidableEq, Repr

inductive DprFeedbackKind where
  | silent
  | minimalStatus
deriving DecidableEq, Repr

structure DprDeliveryEvidence where
  state : Text
  autoSend : Bool
  liveType : Bool
  replaceDelivered : Bool
deriving DecidableEq, Repr

def DprDeliveryEvidence.dprDefault : DprDeliveryEvidence :=
  { state := "unsent".toList, autoSend := false, liveType := false, replaceDelivered := false }

structure DprSpanRejection where
  spanIndex : Nat
  reason : Compose.ComposeErrorCode
deriving DecidableEq, Repr

structure DprSpanAdjudication where
  totalSpans : Nat
  appliedSpans : Nat
  rejected : List DprSpanRejection
deriving DecidableEq, Repr

structure DprDiagnostic where
  version : Nat
  events : List DprDiagnosticEvent
  reasonCodes : List Compose.ComposeErrorCode
  spanAdjudication : Option DprSpanAdjudication
  feedbackKind : DprFeedbackKind
  feedbackMessage : Option Text
  delivery : DprDeliveryEvidence
deriving DecidableEq, Repr

/-- the events that are no earlier than the last one kept -/
def retainFrom (previous : Nat) : List DprDiagnosticEvent → List DprDiagnosticEvent
  | [] => []
  | event :: events =>
    if previous ≤ event.tMs then event :: retainFrom event.tMs events
    else retainFrom previous events

def DprDiagnostic.normalize (d : DprDiagnostic) : DprDiagnostic :=
  { version := dprDiagnosticVersion
    events := retainFrom 0 (d.events.take maxDprDiagnosticEvents)
    reasonCodes := d.reasonCodes.take maxDprDiagnosticEvents
    spanAdjudication := d.spanAdjudication.map fun a =>
      { a with rejected := a.rejected.take maxDprDiagnosticEvents }
    feedbackKind := d.feedbackKind
    feedbackMessage :=
      match d.feedbackKind with
      | .silent => none
      | .minimalStatus => some dprLocalFallbackMessage
    delivery := DprDeliveryEvidence.dprDefault }

/-! ## records -/

structure SourceTranscriptRecord where
  provider : Provider
  text : Text
deriving DecidableEq, Repr

structure DebugAudioRecord where
  fileName : Text
  capturedAtUnixMs : Nat
  expiresAtUnixMs : Nat
deriving DecidableEq, Repr

def DebugAudioRecord.isExpired (audio : DebugAudioRecord) (nowMs : Nat) : Bool :=
  audio.expiresAtUnixMs ≤ nowMs

structure DiagnosticRecord where
  correlationId : Text
  recordingId : Nat
  recordedAtUnixMs : Nat
  sourceTranscripts : List SourceTranscriptRecord
  finalTranscript : Option Text
  validationReason : Option Text
  fallbackReason : Option Text
  deliveryFallbackReason : Option Text
  providerFailures : List ProviderFailure
  error : Option Text
  debugAudio : Option DebugAudioRecord
  smartWriting : Option SmartWritingDiagnostic
  dpr : Option DprDiagnostic
  intentReconstruction : Option IntentReconstructionDiagnostic
  localAsr : Option LocalAsrDiagnostic
deriving DecidableEq, Repr

/-- `DiagnosticRecord::new` with the clock as an argument -/
def DiagnosticRecord.new (correlationId : Text) (recordingId recordedAtUnixMs : Nat) :
    DiagnosticRecord :=
  { correlationId
    recordingId
    recordedAtUnixMs
    sourceTranscripts := []
    finalTranscript := none
    validationReason := none
    fallbackReason := none
    deliveryFallbackReason := none
    providerFailures := []
    error := none
    debugAudio := none
    smartWriting := none
    dpr := none
    intentReconstruction := none
    localAsr := none }

/-- the record as `DiagnosticStore::record` persists it -/
def DiagnosticRecord.prepared (digest : Digest) (record : DiagnosticRecord) : DiagnosticRecord :=
  { record with
    smartWriting := record.smartWriting.map (SmartWritingDiagnostic.normalize digest)
    dpr := record.dpr.map DprDiagnostic.normalize
    intentReconstruction :=
      record.intentReconstruction.map IntentReconstructionDiagnostic.normalize }

/-! ## clamped texts -/

theorem floorBoundary_le (text : Text) (n : Nat) : floorBoundary text n ≤ n := by
  induction n with
  | zero => exact Nat.le_refl 0
  | succ n ih =>
    unfold floorBoundary
    split
    · exact Nat.le_refl _
    · exact Nat.le_succ_of_le ih

theorem isBoundary_floorBoundary (text : Text) (n : Nat) :
    isBoundary (floorBoundary text n) text = true := by
  induction n with
  | zero =>
    show (cut 0 text).isSome = true
    rw [cut_zero]
    rfl
  | succ n ih =>
    unfold floorBoundary
    split
    · assumption
    · exact ih

/-- **a clamped text is a prefix within the budget** -/
theorem clampUtf8Bytes_spec (text : Text) (maxBytes : Nat) :
    byteLen (clampUtf8Bytes text maxBytes) ≤ maxBytes ∧
      ∃ rest, text = clampUtf8Bytes text maxBytes ++ rest := by
  unfold clampUtf8Bytes
  split
  · rename_i h
    exact ⟨h, [], (List.append_nil text).symm⟩
  · obtain ⟨a, b, hs, ha⟩ := isBoundary_iff.mp (isBoundary_floorBoundary text maxBytes)
    have hslice : slice 0 (floorBoundary text maxBytes) text = some a := by
      apply slice_eq_some.mpr
      exact ⟨[], b, hs, rfl, by rw [byteLen_nil, Nat.zero_add, ha]⟩
    rw [hslice]
    refine ⟨?_, b, hs⟩
    show byteLen a ≤ maxBytes
    rw [ha]
    exact floorBoundary_le text maxBytes

theorem clampUtf8Bytes_of_le {text : Text} {maxBytes : Nat} (h : byteLen text ≤ maxBytes) :
    clampUtf8Bytes text maxBytes = text := if_pos h

theorem clampUtf8Bytes_eq_self {text : Text} {maxBytes : Nat} :
    clampUtf8Bytes text maxBytes = text ↔ byteLen text ≤ maxBytes := by
  constructor
  · intro h
    rw [← h]
    exact (clampUtf8Bytes_spec text maxBytes).1
  · exact clampUtf8Bytes_of_le

@[simp] theorem clampUtf8Bytes_idem (text : Text) (maxBytes : Nat) :
    clampUtf8Bytes (clampUtf8Bytes text maxBytes) maxBytes = clampUtf8Bytes text maxBytes :=
  clampUtf8Bytes_of_le (clampUtf8Bytes_spec text maxBytes).1

/-- a text that is there, and within the budget -/
def optionalWithin (value : Option Text) (maxBytes : Nat) : Bool :=
  value.all fun text => !text.isEmpty && byteLen text ≤ maxBytes

theorem clampOptionalUtf8_eq_self {value : Option Text} {maxBytes : Nat} :
    clampOptionalUtf8 value maxBytes = value ↔ optionalWithin value maxBytes = true := by
  cases value with
  | none => exact ⟨fun _ => rfl, fun _ => rfl⟩
  | some text =>
    show (if (clampUtf8Bytes text maxBytes).isEmpty then none
      else some (clampUtf8Bytes text maxBytes)) = some text ↔ _
    unfold optionalWithin
    rw [Option.all_some, Bool.and_eq_true, decide_eq_true_eq]
    constructor
    · intro h
      split at h
      · cases h
      · rename_i hne
        have h := Option.some.inj h
        rw [h] at hne
        exact ⟨by simpa using hne, clampUtf8Bytes_eq_self.mp h⟩
    · rintro ⟨hne, hle⟩
      rw [clampUtf8Bytes_of_le hle, if_neg (by simpa using hne)]

@[simp] theorem clampOptionalUtf8_idem (value : Option Text) (maxBytes : Nat) :
    clampOptionalUtf8 (clampOptionalUtf8 value maxBytes) maxBytes =
      clampOptionalUtf8 value maxBytes := by
  apply clampOptionalUtf8_eq_self.mpr
  cases value with
  | none => rfl
  | some text =>
    show optionalWithin (if (clampUtf8Bytes text maxBytes).isEmpty then none
      else some (clampUtf8Bytes text maxBytes)) maxBytes = true
    split
    · rfl
    · rename_i hne
      unfold optionalWithin
      rw [Option.all_some, Bool.and_eq_true, decide_eq_true_eq]
      exact ⟨by simpa using hne, (clampUtf8Bytes_spec text maxBytes).1⟩

/-! ## normal forms -/

/-- every nested diagnostic equals its own normal form -/
structure DiagnosticRecord.InNormalForm (digest : Digest) (record : DiagnosticRecord) : Prop where
  smartWriting : record.smartWriting.map (SmartWritingDiagnostic.normalize digest) =
    record.smartWriting
  dpr : record.dpr.map DprDiagnostic.normalize = record.dpr
  intentReconstruction : record.intentReconstruction.map IntentReconstructionDiagnostic.normalize =
    record.intentReconstruction
  localAsr : record.localAsr.map LocalAsrDiagnostic.normalize = record.localAsr

theorem map_normal {α : Type} {f : α → α} (h : ∀ a, f (f a) = f a) (o : Option α) :
    (o.map f).map f = o.map f := by
  rw [Option.map_map]
  congr 1
  funext a
  exact h a

theorem sanitizeTextSha256Fingerprint_idem (digest : Digest) (value text : Text) :
    sanitizeTextSha256Fingerprint digest (sanitizeTextSha256Fingerprint digest value text) text =
      sanitizeTextSha256Fingerprint digest value text := by
  unfold sanitizeTextSha256Fingerprint
  by_cases h : isTextSha256Fingerprint value = true
  · rw [if_pos h, if_pos h]
  · rw [if_neg h]
    split <;> rfl

theorem SmartWritingEditEvidence.normalize_idem (e : SmartWritingEditEvidence) :
    e.normalize.normalize = e.normalize := by
  unfold normalize
  simp only [clampUtf8Bytes_idem]

theorem SmartWritingDiagnostic.normalize_idem (digest : Digest) (d : SmartWritingDiagnostic) :
    (d.normalize digest).normalize digest = d.normalize digest := by
  have hedits : (((d.edits.take maxSmartWritingDiagnosticEdits).map
      SmartWritingEditEvidence.normalize).take maxSmartWritingDiagnosticEdits).map
        SmartWritingEditEvidence.normalize =
      (d.edits.take maxSmartWritingDiagnosticEdits).map SmartWritingEditEvidence.normalize := by
    rw [← List.map_take, List.take_take, Nat.min_self, List.map_map]
    apply List.map_congr_left
    intro e _
    exact e.normalize_idem
  unfold normalize
  simp only [clampUtf8Bytes_idem, clampOptionalUtf8_idem, sanitizeTextSha256Fingerprint_idem, hedits]

theorem IntentReconstructionDiagnostic.normalize_idem (d : IntentReconstructionDiagnostic) :
    d.normalize.normalize = d.normalize := by
  unfold normalize
  rw [clampUtf8Bytes_idem, map_normal fun text => clampUtf8Bytes_idem text maxStoredText]

theorem length_retainFrom_le (previous : Nat) (events : List DprDiagnosticEvent) :
    (retainFrom previous events).length ≤ events.length := by
  induction events generalizing previous with
  | nil => exact Nat.le_refl 0
  | cons event events ih =>
    unfold retainFrom
    split
    · exact Nat.succ_le_succ (ih event.tMs)
    · exact Nat.le_succ_of_le (ih previous)

theorem retainFrom_idem (previous : Nat) (events : List DprDiagnosticEvent) :
    retainFrom previous (retainFrom previous events) = retainFrom previous events := by
  induction events generalizing previous with
  | nil => rfl
  | cons event events ih =>
    by_cases h : previous ≤ event.tMs
    · simp only [retainFrom, if_pos h, ih]
    · simp only [retainFrom, if_neg h, ih]

theorem DprDiagnostic.normalize_idem (d : DprDiagnostic) : d.normalize.normalize = d.normalize := by
  have hevents : retainFrom 0 ((retainFrom 0 (d.events.take maxDprDiagnosticEvents)).take
      maxDprDiagnosticEvents) = retainFrom 0 (d.events.take maxDprDiagnosticEvents) := by
    have h1 := length_retainFrom_le 0 (d.events.take maxDprDiagnosticEvents)
    have h2 := List.length_take_le maxDprDiagnosticEvents d.events
    rw [List.take_of_length_le (Nat.le_trans h1 h2), retainFrom_idem]
  have hspans : ∀ a : DprSpanAdjudication,
      ({ a with rejected := (a.rejected.take maxDprDiagnosticEvents).take maxDprDiagnosticEvents } :
        DprSpanAdjudication) = { a with rejected := a.rejected.take maxDprDiagnosticEvents } := by
    intro a
    rw [List.take_take, Nat.min_self]
  unfold normalize
  simp only [hevents, List.take_take, Nat.min_self, Option.map_map]
  congr 1
  congr 1
  funext a
  exact hspans a

/-! ## what the store persists -/

/-- the strings of a local diagnostic are there where they are given, and within their budgets -/
def LocalAsrDiagnostic.withinBudget (d : LocalAsrDiagnostic) : Bool :=
  byteLen d.modelId ≤ maxModelIdUtf8Bytes &&
    ([d.runtime, d.backend, d.language, d.requestedDevice, d.observedDevice,
      d.manifestHash].all fun value => optionalWithin value maxModelIdUtf8Bytes) &&
    optionalWithin d.reason maxSmartWritingFreeTextUtf8Bytes

theorem LocalAsrDiagnostic.normalize_eq_self {d : LocalAsrDiagnostic} :
    d.normalize = d ↔ d.withinBudget = true := by
  cases d
  simp only [normalize, withinBudget, LocalAsrDiagnostic.mk.injEq, clampUtf8Bytes_eq_self,
    clampOptionalUtf8_eq_self, Bool.and_eq_true, decide_eq_true_eq, List.all_cons, List.all_nil,
    and_true, and_assoc]

/-- **what the store persists is in normal form where its local diagnostic is within budget** -/
theorem prepared_inNormalForm_iff (digest : Digest) (record : DiagnosticRecord) :
    (record.prepared digest).InNormalForm digest ↔
      record.localAsr.all LocalAsrDiagnostic.withinBudget = true := by
  have hlocal : record.localAsr.map LocalAsrDiagnostic.normalize = record.localAsr ↔
      record.localAsr.all LocalAsrDiagnostic.withinBudget = true := by
    cases record.localAsr with
    | none => exact ⟨fun _ => rfl, fun _ => rfl⟩
    | some d =>
      rw [Option.map_some, Option.some.injEq, Option.all_some]
      exact LocalAsrDiagnostic.normalize_eq_self
  constructor
  · intro h
    exact hlocal.mp h.localAsr
  · intro h
    exact
      { smartWriting := map_normal (SmartWritingDiagnostic.normalize_idem digest) _
        dpr := map_normal DprDiagnostic.normalize_idem _
        intentReconstruction := map_normal IntentReconstructionDiagnostic.normalize_idem _
        localAsr := hlocal.mpr h }

/-- a worker that reports a model name of 129 bytes -/
def longModelRecord : DiagnosticRecord :=
  { DiagnosticRecord.new "rec-1-1-1".toList 1 1 with
    localAsr := some
      { modelId := List.replicate 129 'a'
        runtime := none
        backend := none
        language := none
        requestedDevice := none
        observedDevice := none
        manifestHash := none
        reason := none } }

theorem prepared_longModelRecord_oversized :
    ¬ (longModelRecord.prepared fun _ => []).InNormalForm fun _ => [] := by
  intro h
  have h := (h.localAsr : some (LocalAsrDiagnostic.normalize _) = some _)
  have h := LocalAsrDiagnostic.normalize_eq_self.mp (Option.some.inj h)
  exact absurd h (by decide +kernel)

end Voisu.Diagnostics
