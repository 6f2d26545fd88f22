import Voisu.Coordinator
import Voisu.Daemon.Messages
import Voisu.Diagnostics.Record

/-!
# The ends of a Cloud Recording

A Recording starts its capture and its two providers, streams, is processed, and leaves a diagnostic
record wherever it ends: at a failed start, at a shutdown during the start, at a capture pump that
died, at a stream or a capture that failed, at the providers' completion, at the validation or the
delivery, at a panic of the processing, or delivered.

* `beginRecording`, `capturePump`, `processRecording`   the stages;
* `accountForMissingProviders`, `normalizeDisabledDeepgram`   the accounts of an end;
* `CloudRecording.record`   the record, whichever the end.

What the validation, the formatting and the delivery do is left to other modules: here each is the
error it ends in, if any, and what it notes for the record.
-/

namespace Voisu.Daemon
open Coordinator

/-! ## providers -/

/-- a stream of a provider: `sendAudio k` is what sending its `k`-th chunk gives -/
structure ProviderStream (Confidence : Type) where
  provider : Provider
  sendAudio : Nat → Except BoundaryError Unit
  abort : Except BoundaryError Unit
  complete : Completion
  wordConfidences : List (Text × Confidence)
  tagged : ∀ source, complete = .ok source → source.provider = provider

structure TranscriptProvider (Confidence : Type) (p : Provider) where
  start : Except BoundaryError (ProviderStream Confidence)
  own : ∀ stream, start = .ok stream → stream.provider = p

def deepgramDisabledDiagnostic : Text := "Deepgram disabled for this Recording".toList

def disabledStream (Confidence : Type) (p : Provider) : ProviderStream Confidence where
  provider := p
  sendAudio := fun _ => .ok ()
  abort := .ok ()
  complete := .error (BoundaryError.new .provider deepgramDisabledDiagnostic)
  wordConfidences := []
  tagged := nofun

def disabledProvider (Confidence : Type) (p : Provider) : TranscriptProvider Confidence p where
  start := .ok (disabledStream Confidence p)
  own := fun _ h => by rw [← Except.ok.inj h]; rfl

/-- `build_deepgram_provider`, where `live` is the adapter of an enabled Deepgram -/
def buildDeepgramProvider {Confidence : Type} (deepgramEnabled : Bool)
    (live : TranscriptProvider Confidence .deepgram) : TranscriptProvider Confidence .deepgram :=
  if deepgramEnabled then live else disabledProvider Confidence .deepgram

structure ProviderStreams (Confidence : Type) where
  deepgram : ProviderStream Confidence
  groq : ProviderStream Confidence

/-! ## errors -/

/-- an error that carries no provider failures: `with_provider_failures` is called by the coordinator
and by the aborts only -/
structure PlainError where
  error : BoundaryError
  plain : error.providerFailures = []

/-- a call under a deadline -/
inductive Bounded where
  | finished (result : Except BoundaryError Unit)
  | timedOut
deriving DecidableEq, Repr

/-- `BoundaryError::new` with the cause's kind and failures, and a diagnostic that goes on -/
def extendCause (cause : BoundaryError) (more : Text) : BoundaryError :=
  (BoundaryError.new cause.kind (cause.diagnostic ++ more)).withProviderFailures
    cause.providerFailures

def combineCaptureAbort (cause abortError : BoundaryError) : BoundaryError :=
  extendCause cause ("; capture abort failed: ".toList ++ abortError.diagnostic)

def boundedAbort (capture : Bounded) (cause : BoundaryError) : BoundaryError :=
  match capture with
  | .finished (.ok ()) => cause
  | .finished (.error abortError) => combineCaptureAbort cause abortError
  | .timedOut => extendCause cause "; capture abort timed out".toList

def abortRecordingWork (capture providers : Bounded) (cause : BoundaryError) : BoundaryError :=
  let cause := boundedAbort capture cause
  match providers with
  | .finished (.ok ()) => cause
  | .finished (.error error) =>
    extendCause cause ("; provider abort failed: ".toList ++ error.diagnostic)
  | .timedOut => extendCause cause "; provider abort timed out".toList

/-! ## accounts -/

def normalizeDisabledDeepgram (failures : List ProviderFailure) : List ProviderFailure :=
  sortByProvider ProviderFailure.provider
    (failures.filter (fun failure => failure.provider ≠ .deepgram) ++
      [⟨.deepgram, .notStarted, deepgramDisabledDiagnostic⟩])

/-- one provider of `account_for_missing_providers` -/
def accountFor (sources : List Diagnostics.SourceTranscriptRecord) (diagnostic : Text)
    (failures : List ProviderFailure) (p : Provider) : List ProviderFailure :=
  if !sources.any (fun source => source.provider = p) &&
      !failures.any (fun failure => failure.provider = p) then
    failures ++ [⟨p, .aborted, diagnostic⟩]
  else failures

def accountForMissingProviders (sources : List Diagnostics.SourceTranscriptRecord)
    (failures : List ProviderFailure) (diagnostic : Text) : List ProviderFailure :=
  [Provider.deepgram, .groq].foldl (accountFor sources diagnostic) failures

/-- the last step of every end -/
def settleDisabled (deepgramEnabled : Bool) (failures : List ProviderFailure) :
    List ProviderFailure :=
  if deepgramEnabled then failures else normalizeDisabledDeepgram failures

/-! ## the start -/

/-- `StartFailure`, with the provider of the stream that is left to abort -/
structure StartSequenceFailure where
  error : BoundaryError
  startedProvider : Option Provider
  failedProvider : Option Provider

section start
variable {Confidence : Type}

def beginRecording (capture : Except BoundaryError Unit)
    (deepgram : TranscriptProvider Confidence .deepgram)
    (groq : TranscriptProvider Confidence .groq) :
    Except StartSequenceFailure (ProviderStreams Confidence) :=
  match capture with
  | .error error => .error { error, startedProvider := none, failedProvider := none }
  | .ok () =>
    match deepgram.start with
    | .error error => .error { error, startedProvider := none, failedProvider := some .deepgram }
    | .ok deepgramStream =>
      match groq.start with
      | .error error =>
        .error { error, startedProvider := some deepgramStream.provider,
                 failedProvider := some .groq }
      | .ok groqStream => .ok { deepgram := deepgramStream, groq := groqStream }

/-- one provider of the loop over the providers of a failed start -/
def accountStart (failure : StartSequenceFailure) (failures : List ProviderFailure)
    (p : Provider) : List ProviderFailure :=
  if failures.any (fun failure => failure.provider = p) then failures
  else if failure.startedProvider = some p then
    failures ++ [⟨p, .aborted,
      "provider stream started but the Recording was aborted during startup".toList⟩]
  else
    failures ++ [⟨p, .notStarted, "provider not reached; startup aborted before it began".toList⟩]

def startFailures (failure : StartSequenceFailure) : List ProviderFailure :=
  [Provider.deepgram, .groq].foldl (accountStart failure)
    (match failure.failedProvider with
      | some p => [⟨p, .notStarted, failure.error.diagnostic⟩]
      | none => [])

end start

/-! ## the stream -/

/-- what the pump's `select!` finds: the stop signal, or what the capture yields; while a chunk is
sent the stop signal may come first -/
inductive Polled where
  | stop
  | chunk (stopped : Bool)
  | ended
  | failed (error : PlainError)

section stream
variable {Confidence : Type}

def streamFailure (p : Provider) : Except BoundaryError Unit → List ProviderFailure
  | .ok () => []
  | .error error => [⟨p, .streaming, error.diagnostic⟩]

/-- `stream_audio`, of the `k`-th chunk -/
def streamAudio (streams : ProviderStreams Confidence) (k : Nat) : Except BoundaryError Unit :=
  let deepgram := streams.deepgram.sendAudio k
  let groq := streams.groq.sendAudio k
  let failures := streamFailure .deepgram deepgram ++ streamFailure .groq groq
  match deepgram, groq with
  | .error error, _ | .ok (), .error error => .error (error.withProviderFailures failures)
  | .ok (), .ok () => .ok ()

/-- the stream error of the pump, which has sent `k` chunks; the stop signal comes at last -/
def capturePump (streams : ProviderStreams Confidence) : Nat → List Polled → Option BoundaryError
  | _, [] => none
  | _, .stop :: _ => none
  | k, .chunk stopped :: polls =>
    if stopped then none
    else
      match streamAudio streams k with
      | .ok () => capturePump streams (k + 1) polls
      | .error error => some error
  | _, .ended :: _ => none
  | _, .failed error :: _ =>
    if error.error.kind = .recordingDeadline then none else some error.error

/-- `ProviderCoordinator::abort`, under its deadline -/
def abortProviders (streams : ProviderStreams Confidence) (elapsed : Bool) :
    Except BoundaryError Unit :=
  if elapsed then .error (BoundaryError.new .provider "provider abort deadline elapsed".toList)
  else
    match streams.deepgram.abort with
    | .error error => .error error
    | .ok () => streams.groq.abort

end stream

/-! ## the completion -/

/-- which futures are ready at a poll of the completion's `select!` -/
structure Ready where
  deepgram : Bool
  groq : Bool
  deadline : Bool
  elapsedMs : Nat
deriving DecidableEq, Repr

section completion
variable {Confidence : Type}

def pollOf (streams : ProviderStreams Confidence) (ready : Ready) : Poll where
  deepgram := if ready.deepgram then some streams.deepgram.complete else none
  groq := if ready.groq then some streams.groq.complete else none
  deadline := ready.deadline
  elapsedMs := ready.elapsedMs

/-- how the completion goes: its polls, whether its cleanup is in time, and whether a credential is
prepared beside it, in which case a panic of either is caught -/
structure CompletionCourse where
  polls : List Ready
  cleanupTimedOut : Bool
  credentialNeeded : Bool
  panicked : Bool
deriving DecidableEq, Repr

def completeStreams (streams : ProviderStreams Confidence) (course : CompletionCourse) :
    Except BoundaryError (ProviderCompletion Confidence) :=
  completeWithTimings (course.polls.map (pollOf streams))
    (if course.cleanupTimedOut then .timedOut
      else .finished streams.deepgram.abort streams.groq.abort)
    streams.deepgram.wordConfidences streams.groq.wordConfidences

def completeWithGrammarCapability (streams : ProviderStreams Confidence)
    (course : CompletionCourse) : Except BoundaryError (ProviderCompletion Confidence) :=
  if course.credentialNeeded && course.panicked then
    .error { BoundaryError.new .validation
      "provider or grammar credential preparation panicked".toList with
      publicMessage := some "Couldn't read your keys".toList }
  else completeStreams streams course

end completion

/-! ## the processing -/

def silenceNeedsEveryProvider (error : BoundaryError) (failures : List ProviderFailure)
    (deepgramEnabled : Bool) : BoundaryError :=
  if error.kind = .silentRecording ∧
      failures.any (fun failure => failure.provider ≠ .deepgram || deepgramEnabled) then
    BoundaryError.new .provider error.diagnostic
  else error

/-- what else a Recording's evidence gives its record -/
structure Notes where
  recordedAtUnixMs : Nat
  finalTranscript : Option Text
  validationReason : Option Text
  fallbackReason : Option Text
  deliveryFallbackReason : Option Text
  debugAudio : Option Diagnostics.DebugAudioRecord
  smartWriting : Option Diagnostics.SmartWritingDiagnostic
  dpr : Option Diagnostics.DprDiagnostic
  intentReconstruction : Option Diagnostics.IntentReconstructionDiagnostic

/-- of a Recording that got no further -/
def Notes.blank (recordedAtUnixMs : Nat) : Notes :=
  { recordedAtUnixMs, finalTranscript := none, validationReason := none, fallbackReason := none,
    deliveryFallbackReason := none, debugAudio := none, smartWriting := none, dpr := none,
    intentReconstruction := none }

def clampText (text : Text) : Text :=
  if Lib.byteLen text ≤ Diagnostics.maxStoredText then text
  else Diagnostics.clampUtf8Bytes text Diagnostics.maxStoredText ++ ['…']

def newSourceTranscriptRecord (source : SourceTranscript) : Diagnostics.SourceTranscriptRecord :=
  { provider := source.provider, text := clampText source.text }

/-- `diagnostic_record`, of a Cloud Recording -/
def diagnosticRecord (evidence : LifecycleEvidence) (notes : Notes)
    (sources : List Diagnostics.SourceTranscriptRecord) (failures : List ProviderFailure)
    (error : Option BoundaryError) : Diagnostics.DiagnosticRecord :=
  { Diagnostics.DiagnosticRecord.new evidence.correlationId evidence.recordingId
      notes.recordedAtUnixMs with
    sourceTranscripts := sources
    providerFailures := failures
    finalTranscript := notes.finalTranscript.map clampText
    validationReason := notes.validationReason
    fallbackReason := notes.fallbackReason
    deliveryFallbackReason := notes.deliveryFallbackReason
    error := error.map publicMessage
    debugAudio := notes.debugAudio
    smartWriting := notes.smartWriting
    dpr := notes.dpr
    intentReconstruction := notes.intentReconstruction }

/-- what happens to a Recording that is processed -/
structure Course where
  pump : Except Text (List Polled)
  captureAbort : Bounded
  providerAbortElapsed : Bool
  providerAbortTimedOut : Bool
  finish : Except PlainError Unit
  completion : CompletionCourse
  prepare : Except PlainError Unit
  conclude : Except PlainError Unit
  notes : Notes

/-- the sources and the failures the workflow has collected, and how it ended -/
structure Collected where
  sources : List Diagnostics.SourceTranscriptRecord
  failures : List ProviderFailure
  result : Except BoundaryError Unit

section processing
variable {Confidence : Type}

def abortWork (streams : ProviderStreams Confidence) (course : Course) (cause : BoundaryError) :
    BoundaryError :=
  abortRecordingWork course.captureAbort
    (if course.providerAbortTimedOut then .timedOut
      else .finished (abortProviders streams course.providerAbortElapsed)) cause

/-- the validation, the reconstruction and the delivery -/
def concludeCompletion (deepgramEnabled : Bool) (course : Course)
    (completion : ProviderCompletion Confidence) : Collected where
  sources := completion.sources.map newSourceTranscriptRecord
  failures := completion.providerFailures
  result :=
    match course.prepare with
    | .error error =>
      .error (silenceNeedsEveryProvider error.error completion.providerFailures deepgramEnabled)
    | .ok () =>
      match course.conclude with
      | .error error => .error error.error
      | .ok () => .ok ()

/-- the `async` block of `process_recording` -/
def collect (deepgramEnabled : Bool) (streams : ProviderStreams Confidence) (course : Course)
    (polls : List Polled) : Collected :=
  match capturePump streams 0 polls with
  | some error => { sources := [], failures := [], result := .error (abortWork streams course error) }
  | none =>
    match course.finish with
    | .error error =>
      { sources := [], failures := [], result := .error (abortWork streams course error.error) }
    | .ok () =>
      match completeWithGrammarCapability streams course.completion with
      | .error error => { sources := [], failures := [], result := .error error }
      | .ok completion => concludeCompletion deepgramEnabled course completion

/-- what is done with the failures behind the block -/
def accountCollected (collected : Collected) : List ProviderFailure :=
  match collected.result with
  | .ok () => collected.failures
  | .error error =>
    accountForMissingProviders collected.sources
      (if collected.failures.isEmpty then error.providerFailures else collected.failures)
      error.diagnostic

def pumpFailed (joinError : Text) : BoundaryError :=
  BoundaryError.new .capture ("capture pump task failed: ".toList ++ joinError)

def processRecording (deepgramEnabled : Bool) (streams : ProviderStreams Confidence)
    (evidence : LifecycleEvidence) (course : Course) : Diagnostics.DiagnosticRecord :=
  match course.pump with
  | .error joinError =>
    diagnosticRecord evidence (Notes.blank course.notes.recordedAtUnixMs) []
      (settleDisabled deepgramEnabled
        (accountForMissingProviders [] [] (pumpFailed joinError).diagnostic))
      (some (pumpFailed joinError))
  | .ok polls =>
    let collected := collect deepgramEnabled streams course polls
    diagnosticRecord evidence course.notes collected.sources
      (settleDisabled deepgramEnabled (accountCollected collected))
      (match collected.result with
        | .ok () => none
        | .error error => some error)

end processing

/-! ## the ends -/

def configuredProviders : List Provider := [.deepgram, .groq]

def panicFailures : List ProviderFailure :=
  configuredProviders.map fun p =>
    ⟨p, .aborted, "provider outcome is unknown: the Recording processing task failed".toList⟩

/-- a Cloud Recording, from its start to its end -/
structure CloudRecording (Confidence : Type) where
  id : Nat
  correlationId : Text
  deepgramEnabled : Bool
  capture : Except BoundaryError Unit
  deepgram : TranscriptProvider Confidence .deepgram
  groq : TranscriptProvider Confidence .groq
  shutdown : Bool
  panics : Option Text
  course : Course

/-- the record that is persisted of a Recording -/
def CloudRecording.record {Confidence : Type} (r : CloudRecording Confidence) :
    Diagnostics.DiagnosticRecord :=
  let blank := Diagnostics.DiagnosticRecord.new r.correlationId r.id r.course.notes.recordedAtUnixMs
  match beginRecording r.capture (buildDeepgramProvider r.deepgramEnabled r.deepgram) r.groq with
  | .error failure =>
    { blank with
      error := some (publicMessage failure.error)
      providerFailures := settleDisabled r.deepgramEnabled (startFailures failure) }
  | .ok streams =>
    if r.shutdown then
      { blank with
        error := some "daemon is shutting down".toList
        providerFailures := settleDisabled r.deepgramEnabled (accountForMissingProviders [] []
          "daemon shutting down; Recording aborted during startup".toList) }
    else
      match r.panics with
      | some joinError =>
        diagnosticRecord (baseEvidence r.id r.correlationId)
          (Notes.blank r.course.notes.recordedAtUnixMs) [] (settleDisabled r.deepgramEnabled panicFailures)
          (some { BoundaryError.new .validation
            ("Recording processing task failed at an unknown point: ".toList ++ joinError) with
            publicMessage := some "Recording processing failed at an unknown point".toList })
      | none =>
        processRecording r.deepgramEnabled streams (baseEvidence r.id r.correlationId) r.course

end Voisu.Daemon
