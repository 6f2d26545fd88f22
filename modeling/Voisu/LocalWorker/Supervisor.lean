import Voisu.LocalGate
import Voisu.Lib.Strings

/-!
# The worker supervisor

One worker, one request.  The supervisor owns at most one child process and talks to it through
three operations; the child is a parameter, `WorkerChild C`, and may answer anything.  A clock reading
is an argument of the call that takes it.

* `WorkerSupervisor`     the state of the source, and the log of what reached the child and of what
                         its reaps reported;
* `Call.run`             one public call, with what it returns;
* `runCalls`             the supervisor after a list of calls.
-/

namespace Voisu.LocalWorker
open Lib LocalGate

/-! ## the protocol -/

def maxPcmBytes : Nat := 19200000
def loadDeadlineMs : Nat := 60000
def stopProcessingMs : Nat := 45000
def maxRestarts : Nat := 3
def restartWindowMs : Nat := 300000

inductive FrameError where
  | oddPcmLength
  | pcmTooLarge (bytes : Nat)
  | declaredPcmMismatch (declared actual : Nat)
  | jsonTooLarge (bytes : Nat)
  | jsonTooDeep
  | jsonTooManyFields
  | truncated
  | invalidUtf8
  | invalidJson
  | unknownVersion (version : Nat)
  | duplicateTerminal
  | unsolicited
  | transcriptTooLarge (bytes : Nat)
  | unsupportedControl
  | embeddedNul
  | extraAudio
  | correlationMismatch
  | metadataTooLarge (bytes : Nat)
deriving DecidableEq, Repr

structure Correlation where
  daemonNonce : Text
  generation : Nat
  requestId : Text
  recordingId : Text
  modelReceiptHash : Text
deriving DecidableEq, Repr

inductive ControlFrame where
  | prepare (correlation : Correlation)
  | transcribe (correlation : Correlation) (pcmBytes : Nat)
deriving DecidableEq, Repr

inductive WorkerFrame where
  | ready (correlation : Correlation) (observedDevice : Text)
  | transcript (correlation : Correlation) (text : Text)
  | noText (correlation : Correlation) (reason : Text)
  | error (code : Text) (metadata : List (Text × Value))

def validatePcm (pcm : List UInt8) (declared : Option Nat) : Except FrameError Unit :=
  if pcm.length % 2 ≠ 0 then .error .oddPcmLength
  else if maxPcmBytes < pcm.length then .error (.pcmTooLarge pcm.length)
  else match declared with
    | some declared =>
      if declared ≠ pcm.length then .error (.declaredPcmMismatch declared pcm.length) else .ok ()
    | none => .ok ()

def correlationsMatch (expected got : Correlation) : Except FrameError Unit :=
  if expected = got then .ok () else .error .correlationMismatch

/-- a trailing odd byte is not looked at -/
def isSilencePcm : List UInt8 → Bool
  | low :: high :: rest => low == 0 && high == 0 && isSilencePcm rest
  | _ => true

/-! ## the supervisor -/

inductive RuntimeError where
  | productionDownloadForbidden
  | ollamaRejected
  | missingRuntime
  | relativeProgram
deriving DecidableEq, Repr

inductive SupervisorError where
  | notReady (state : WorkerState)
  | restartExhausted
  | timedOut
  | protocol (error : FrameError)
  | runtime (error : RuntimeError)
  | busy
  | unavailable (message : String)
  | crashed
  | outOfMemory
  | loadAborted
  | refused (code message : Text)
deriving DecidableEq, Repr

structure InferenceMetrics where
  backend : Option Text
  resident : Option Bool
  inferenceMs : Option Nat
  peakHostRamBytes : Option Nat
  peakGpuMemoryBytes : Option Nat
  cpuTimeMs : Option Nat
deriving DecidableEq, Repr

def InferenceMetrics.unset : InferenceMetrics := ⟨none, none, none, none, none, none⟩

inductive WorkerOutcome where
  | transcript (text observedDevice : Text) (metrics : InferenceMetrics)
  | noText (reason observedDevice : Text) (metrics : InferenceMetrics)
deriving DecidableEq, Repr

inductive ReapOutcome where
  | exited
  | killed
  | unreaped
deriving DecidableEq, Repr

/-- the trait of the source: the answers of a child, and what they make of it -/
structure WorkerChild (C : Type) where
  exchange : C → ControlFrame → Option (List UInt8) → Nat → Except SupervisorError WorkerFrame × C
  cancelAndReap : C → Except SupervisorError ReapOutcome × C
  lastInferenceMetrics : C → InferenceMetrics

/-- what the supervisor and its child have seen of one another -/
inductive Event where
  | attached
  | exchanged (control : ControlFrame) (reply : Except SupervisorError WorkerFrame)
  | reaped (outcome : ReapOutcome)
  /-- a reap that ended with an error and was taken for no outcome -/
  | reapFailed (error : SupervisorError)

structure WorkerSupervisor (C : Type) where
  state : WorkerState
  child : Option C
  /-- the rolling budget of starts -/
  restarts : List Nat
  observedDevice : Text
  lastTerminalRequest : Option Text
  /-- not in the source: the events so far -/
  log : List Event

structure TranscribeRequest where
  correlation : Correlation
  pcm : List UInt8
deriving DecidableEq, Repr

section
variable {C : Type}

def WorkerSupervisor.absent : WorkerSupervisor C :=
  { state := .absent
    child := none
    restarts := []
    observedDevice := "unknown".toList
    lastTerminalRequest := none
    log := [] }

def tryRegister (starts : List Nat) (now : Nat) : List Nat × Except SupervisorError Unit :=
  let starts := starts.filter fun started => now - started < restartWindowMs
  if maxRestarts ≤ starts.length then (starts, .error .restartExhausted)
  else (starts ++ [now], .ok ())

/-- `attach_ready` and `attach_pending`: the state the worker begins in is all they differ in -/
def WorkerSupervisor.attach (s : WorkerSupervisor C) (child : C) (now : Nat) (state : WorkerState) :
    WorkerSupervisor C × Except SupervisorError Unit :=
  if s.child.isSome then (s, .error (.unavailable "worker still attached"))
  else match tryRegister s.restarts now with
    | (restarts, .error error) => ({ s with restarts }, .error error)
    | (restarts, .ok ()) =>
      ({ s with restarts, child := some child, state, lastTerminalRequest := none
                log := s.log ++ [Event.attached] }, .ok ())

def WorkerSupervisor.attachReady (s : WorkerSupervisor C) (child : C) (now : Nat) :
    WorkerSupervisor C × Except SupervisorError Unit := s.attach child now .ready

def WorkerSupervisor.attachPending (s : WorkerSupervisor C) (child : C) (now : Nat) :
    WorkerSupervisor C × Except SupervisorError Unit := s.attach child now .loading

def WorkerSupervisor.applyReap (s : WorkerSupervisor C) : ReapOutcome → WorkerSupervisor C
  | .unreaped => { s with lastTerminalRequest := none, state := .unavailable }
  | .exited | .killed => { s with lastTerminalRequest := none, child := none, state := .absent }

/-- the child after one of its answers -/
def WorkerSupervisor.seen (s : WorkerSupervisor C) (child : C) (event : Event) : WorkerSupervisor C :=
  { s with child := some child, log := s.log ++ [event] }

variable (ops : WorkerChild C)

/-- `cancel_and_reap` of the child and `apply_reap`; an error goes up and leaves the state alone -/
def WorkerSupervisor.reap (s : WorkerSupervisor C) :
    WorkerSupervisor C × Except SupervisorError ReapOutcome :=
  match s.child with
  | none => (s.applyReap .exited, .ok .exited)
  | some child =>
    match ops.cancelAndReap child with
    | (.error error, child) => (s.seen child (.reapFailed error), .error error)
    | (.ok outcome, child) => ((s.seen child (.reaped outcome)).applyReap outcome, .ok outcome)

/-- the same, where an error counts as an unreaped child -/
def WorkerSupervisor.reapOrUnreaped (s : WorkerSupervisor C) : WorkerSupervisor C :=
  match s.child with
  | none => s.applyReap .exited
  | some child =>
    let outcome := match (ops.cancelAndReap child).1 with
      | .ok outcome => outcome
      | .error _ => .unreaped
    (s.seen (ops.cancelAndReap child).2 (.reaped outcome)).applyReap outcome

def WorkerSupervisor.timeoutAndReap (s : WorkerSupervisor C) : WorkerSupervisor C × SupervisorError :=
  (s.reapOrUnreaped ops, .timedOut)

def WorkerSupervisor.failAndReap (s : WorkerSupervisor C) (error : SupervisorError) :
    WorkerSupervisor C × SupervisorError :=
  ({ s.reapOrUnreaped ops with state := .unavailable }, error)

def WorkerSupervisor.unloadIdle (s : WorkerSupervisor C) :
    WorkerSupervisor C × Except SupervisorError ReapOutcome :=
  if s.state = .busy ∨ s.state = .stopping then (s, .error .busy)
  else if s.state = .unavailable ∧ s.child.isSome then
    (s, .error (.unavailable "worker unreaped; reap before new work"))
  else s.reap ops

def WorkerSupervisor.markUnavailable (s : WorkerSupervisor C) : WorkerSupervisor C :=
  { s with lastTerminalRequest := none, state := .unavailable }

def WorkerSupervisor.drainForSwitch (s : WorkerSupervisor C) :
    WorkerSupervisor C × Except SupervisorError ReapOutcome :=
  if s.state = .busy ∨ s.state = .stopping then (s, .error .busy)
  else if s.state = .unavailable ∧ s.child.isSome then
    (s, .error (.unavailable "worker unreaped; reap before new work"))
  else match s.unloadIdle ops with
    | (s, .error error) => (s, .error error)
    | (s, .ok outcome) =>
      if s.child.isSome then
        ({ s with state := .unavailable },
          .error (.unavailable "previous worker unreaped; Local unavailable"))
      else (s, .ok outcome)

def WorkerSupervisor.cancel (s : WorkerSupervisor C) :
    WorkerSupervisor C × Except SupervisorError ReapOutcome :=
  WorkerSupervisor.reap ops { s with state := .stopping }

/-- `late` says whether the clock is past the deadline when the reply is in -/
def WorkerSupervisor.concludeExchange (s : WorkerSupervisor C)
    (result : Except SupervisorError WorkerFrame) (late : Bool) (onProtocol : WorkerState) :
    WorkerSupervisor C × Except SupervisorError WorkerFrame :=
  if late then ((s.timeoutAndReap ops).1, .error (s.timeoutAndReap ops).2)
  else match result with
    | .ok frame => (s, .ok frame)
    | .error .timedOut => ((s.timeoutAndReap ops).1, .error (s.timeoutAndReap ops).2)
    | .error (.protocol error) => ({ s with state := onProtocol }, .error (.protocol error))
    | .error .crashed => ((s.failAndReap ops .crashed).1, .error .crashed)
    | .error .outOfMemory => ((s.failAndReap ops .outOfMemory).1, .error .outOfMemory)
    | .error .loadAborted => ((s.failAndReap ops .loadAborted).1, .error .loadAborted)
    | .error error => ({ s with state := .unavailable, lastTerminalRequest := none }, .error error)

def WorkerSupervisor.protocolReject (s : WorkerSupervisor C) (error : FrameError) :
    WorkerSupervisor C × SupervisorError := ({ s with state := .ready }, .protocol error)

def WorkerSupervisor.mapWorkerError (s : WorkerSupervisor C) (code : Text)
    (metadata : List (Text × Value)) (unknown : WorkerState) : WorkerSupervisor C × SupervisorError :=
  if code = "oom".toList then s.failAndReap ops .outOfMemory
  else if code = "crash".toList then s.failAndReap ops .crashed
  else if code = "load_abort".toList then s.failAndReap ops .loadAborted
  else
    ({ s with state := unknown },
      .refused code (((getKey metadata "message".toList).bind Value.asStr).getD []))

/-- the clock when the call begins, and when the reply is in; a load time is taken between the two -/
structure Clock where
  now : Nat
  replied : Nat
deriving DecidableEq, Repr

def WorkerSupervisor.prepare (s : WorkerSupervisor C) (correlation : Correlation) (clock : Clock) :
    WorkerSupervisor C × Except SupervisorError Nat :=
  if s.state = .busy ∨ s.state = .stopping then (s, .error .busy)
  else match s.child with
    | none => (s, .error (.notReady s.state))
    | some child =>
      let deadline := clock.now + loadDeadlineMs
      let reply := ops.exchange child (.prepare correlation) none deadline
      let s := WorkerSupervisor.seen { s with state := .loading } reply.2
        (.exchanged (.prepare correlation) reply.1)
      match s.concludeExchange ops reply.1 (deadline < clock.replied) .unavailable with
      | (s, .error error) => (s, .error error)
      | (s, .ok (.ready got observedDevice)) =>
        match correlationsMatch correlation got with
        | .error error => ({ s with state := .unavailable }, .error (.protocol error))
        | .ok () => ({ s with observedDevice, state := .ready }, .ok (clock.replied - clock.now))
      | (s, .ok (.error code metadata)) =>
        ((s.mapWorkerError ops code metadata .unavailable).1,
          .error (s.mapWorkerError ops code metadata .unavailable).2)
      | (s, .ok _) =>
        ({ s with state := .unavailable, lastTerminalRequest := none },
          .error (.protocol .unsolicited))

/-- the worker's answer to a request, once the reply is in time -/
def WorkerSupervisor.settle (s : WorkerSupervisor C) (request : TranscribeRequest) :
    WorkerFrame → WorkerSupervisor C × Except SupervisorError WorkerOutcome
  | .transcript got text =>
    match correlationsMatch request.correlation got with
    | .error error => ((s.protocolReject error).1, .error (s.protocolReject error).2)
    | .ok () =>
      let metrics := (s.child.map ops.lastInferenceMetrics).getD .unset
      ({ s with lastTerminalRequest := some request.correlation.requestId, state := .ready },
        .ok (if (trim text).isEmpty then .noText "empty".toList s.observedDevice metrics
          else .transcript text s.observedDevice metrics))
  | .noText got reason =>
    match correlationsMatch request.correlation got with
    | .error error => ((s.protocolReject error).1, .error (s.protocolReject error).2)
    | .ok () =>
      let metrics := (s.child.map ops.lastInferenceMetrics).getD .unset
      ({ s with lastTerminalRequest := some request.correlation.requestId, state := .ready },
        .ok (.noText reason s.observedDevice metrics))
  | .error code metadata =>
    ((s.mapWorkerError ops code metadata .ready).1,
      .error (s.mapWorkerError ops code metadata .ready).2)
  | .ready _ _ => ({ s with state := .ready }, .error (.protocol .unsolicited))

def WorkerSupervisor.transcribe (s : WorkerSupervisor C) (request : TranscribeRequest)
    (clock : Clock) : WorkerSupervisor C × Except SupervisorError WorkerOutcome :=
  if s.state ≠ .ready then (s, .error (.notReady s.state))
  else match validatePcm request.pcm (some request.pcm.length) with
    | .error error => (s, .error (.protocol error))
    | .ok () =>
      if s.lastTerminalRequest = some request.correlation.requestId then
        (s, .error (.protocol .duplicateTerminal))
      else match s.child with
        | none => (s, .error (.notReady s.state))
        | some child =>
          let deadline := clock.now + stopProcessingMs
          let control := ControlFrame.transcribe request.correlation request.pcm.length
          let reply := ops.exchange child control (some request.pcm) deadline
          let s := WorkerSupervisor.seen { s with state := .busy } reply.2
            (.exchanged control reply.1)
          match s.concludeExchange ops reply.1 (deadline < clock.replied) .ready with
          | (s, .error error) => (s, .error error)
          | (s, .ok frame) => s.settle ops request frame

end

/-! ## calls -/

/-- the public calls that change the supervisor -/
inductive Call (C : Type) where
  | attachReady (child : C) (now : Nat)
  | attachPending (child : C) (now : Nat)
  | prepare (correlation : Correlation) (clock : Clock)
  | transcribe (request : TranscribeRequest) (clock : Clock)
  | cancel
  | unloadIdle
  | drainForSwitch
  | markUnavailable

inductive Answer where
  | attached (result : Except SupervisorError Unit)
  | prepared (result : Except SupervisorError Nat)
  | transcribed (result : Except SupervisorError WorkerOutcome)
  | reaped (result : Except SupervisorError ReapOutcome)
  | marked

section
variable {C : Type} (ops : WorkerChild C)

def Call.run (s : WorkerSupervisor C) : Call C → WorkerSupervisor C × Answer
  | .attachReady child now => ((s.attachReady child now).1, .attached (s.attachReady child now).2)
  | .attachPending child now =>
    ((s.attachPending child now).1, .attached (s.attachPending child now).2)
  | .prepare correlation clock =>
    ((s.prepare ops correlation clock).1, .prepared (s.prepare ops correlation clock).2)
  | .transcribe request clock =>
    ((s.transcribe ops request clock).1, .transcribed (s.transcribe ops request clock).2)
  | .cancel => ((s.cancel ops).1, .reaped (s.cancel ops).2)
  | .unloadIdle => ((s.unloadIdle ops).1, .reaped (s.unloadIdle ops).2)
  | .drainForSwitch => ((s.drainForSwitch ops).1, .reaped (s.drainForSwitch ops).2)
  | .markUnavailable => (s.markUnavailable, .marked)

/-- the supervisor after a list of calls -/
def runCalls (s : WorkerSupervisor C) (calls : List (Call C)) : WorkerSupervisor C :=
  calls.foldl (fun s call => (Call.run ops s call).1) s

end

end Voisu.LocalWorker
