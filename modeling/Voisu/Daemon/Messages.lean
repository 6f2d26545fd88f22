import Voisu.Provider

/-!
# What the daemon actor is told and what it says

The records of the daemon's protocol, as far as the actor reads or writes them.  Of a response the
payloads of the observer commands (history, export, audio levels, readiness) are left out, of a
Recording's evidence the timings, and of a Recording what only its pump and its processing use.

* `Response`            what a client is answered;
* `ActorState`          the states of the actor;
* `AsrModeJob`, `Task`  the workflows the actor has started, with the replies they hold;
* `deliveredOverlayEvent`, `overlayOutcome`   the event the Overlay shows.
-/

namespace Voisu.Daemon

/-- the sending half of a client's oneshot channel -/
abbrev Reply := Nat

inductive AsrMode where
  | cloud
  | localMode
deriving DecidableEq, Repr

inductive DaemonState where
  | idle
  | recording
  | processing
deriving DecidableEq, Repr

inductive Command where
  | start
  | stop
  | toggle
  | status
  | overlayStatus
  | level
  | shortcut
  | history
  | exportRecord
  | replay (fixture : Text)
  | setAsrMode (mode : AsrMode)
deriving DecidableEq, Repr

inductive DeliveryMethod where
  | compositorSubmitted
  | clipboardFallback
deriving DecidableEq, Repr

/-! ## evidence and responses -/

structure LifecycleEvidence where
  recordingId : Nat
  correlationId : Text
  recoveryAttempted : Bool
  deliveryMethod : Option DeliveryMethod
  deliveryFallbackReason : Option Text
  truncatedBy : Bool
deriving DecidableEq, Repr

def baseEvidence (recordingId : Nat) (correlationId : Text) : LifecycleEvidence :=
  { recordingId, correlationId, recoveryAttempted := false, deliveryMethod := none,
    deliveryFallbackReason := none, truncatedBy := false }

structure Response where
  ok : Bool
  state : Option DaemonState
  message : Text
  evidence : Option LifecycleEvidence
deriving DecidableEq, Repr

def Response.withEvidence (ok : Bool) (state : Option DaemonState) (message : Text)
    (evidence : Option LifecycleEvidence) : Response :=
  { ok, state, message, evidence }

def Response.success (state : DaemonState) (message : Text) : Response :=
  Response.withEvidence true (some state) message none

def Response.rejected (state : Option DaemonState) (message : Text) : Response :=
  Response.withEvidence false state message none

/-- `BoundaryError::public_message` -/
def publicMessage (error : BoundaryError) : Text :=
  error.publicMessage.getD (match error.kind with
    | .capture => "Couldn't record from the microphone".toList
    | .emptyRecording => "No sound recorded; check your microphone".toList
    | .tooShortRecording => "Too short to transcribe".toList
    | .silentRecording => "Didn't hear any words".toList
    | .recordingDeadline => "Stopped at the time limit".toList
    | .provider => "Groq or Deepgram couldn't give us text".toList
    | .validation => "Held back text that looked wrong".toList
    | .delivery => "Couldn't put the text in your window".toList
    | .secretStorage => ("Can't read your keys from the keyring; set VOISU_GROQ_API_KEY or " ++
        "VOISU_DEEPGRAM_API_KEY for development or headless use").toList
    | .providerAuthentication => "Groq or Deepgram rejected your key; run voisu setup".toList
    | .shortcut => "Couldn't set up your Trigger Key".toList)

/-- an error of a boundary, and whether it holds back a Transcript as evidence -/
structure Failure where
  error : BoundaryError
  transcriptFailure : Bool
deriving DecidableEq, Repr

/-! ## the Overlay -/

inductive OverlayOutcome where
  | delivered
  | copied
  | qualityFailure
  | captureFailure
  | emptyRecording
  | tooShortRecording
  | silentRecording
  | recordingDeadline
  | providerFailure
  | deliveryFailure
  | otherFailure
deriving DecidableEq, Repr

structure OverlayEvent where
  id : Nat
  outcome : OverlayOutcome
  message : Text
  correlationId : Option Text
deriving DecidableEq, Repr

def overlayOutcome (failure : Failure) : OverlayOutcome :=
  match failure.error.kind with
  | .silentRecording => .silentRecording
  | kind =>
    if failure.transcriptFailure then .qualityFailure
    else match kind with
      | .capture => .captureFailure
      | .emptyRecording => .emptyRecording
      | .tooShortRecording => .tooShortRecording
      | .recordingDeadline => .recordingDeadline
      | .provider => .providerFailure
      | .delivery => .deliveryFailure
      | _ => .otherFailure

def copyModeReason : Text := "Delivery is set to copy".toList

def deliveredMessage (method : Option DeliveryMethod) (fallbackReason : Option Text)
    (truncated : Bool) : Text :=
  let outcome :=
    match method, fallbackReason with
    | some .clipboardFallback, some why =>
      if why = copyModeReason then "Copied. Paste with Ctrl+V".toList
      else "Couldn't paste; text is on your clipboard (".toList ++ why ++ [')']
    | some .clipboardFallback, none => "Couldn't paste; text is on your clipboard".toList
    | _, _ => if truncated then "Pasted".toList else "Pasted. Also on your clipboard.".toList
  if truncated then outcome ++ ". Recording was cut off; check the end".toList else outcome

def deliveredOverlayEvent (method : Option DeliveryMethod) (fallbackReason : Option Text)
    (truncated : Bool) : OverlayOutcome × Text :=
  if method = some .clipboardFallback then
    (.copied, deliveredMessage method fallbackReason truncated)
  else
    (.delivered, if truncated then deliveredMessage method fallbackReason truncated
      else "Pasted".toList)

/-! ## the states of the actor -/

inductive PendingCapture where
  | start
  | replay (fixture : Text)
deriving DecidableEq, Repr

structure ActiveRecording where
  id : Nat
  asrMode : AsrMode
  evidence : LifecycleEvidence
deriving DecidableEq, Repr

inductive ActorState where
  | idle
  | admitting (token : Nat) (pending : PendingCapture) (reply : Reply)
  | starting (id : Nat) (correlationId : Text) (asrMode : AsrMode)
  | recording (recording : ActiveRecording)
  | processing (evidence : LifecycleEvidence)
  | recovering (id : Nat)
  | replaying (id : Nat)
deriving DecidableEq, Repr

def stateLabel : ActorState → DaemonState
  | .idle | .admitting .. | .recovering _ | .replaying _ => .idle
  | .starting .. | .recording _ => .recording
  | .processing _ => .processing

def cliLabel : DaemonState → Text
  | .idle => "idle".toList
  | .recording => "Recording".toList
  | .processing => "processing".toList

def statusResponse (state : ActorState) : Response :=
  Response.withEvidence true (some (stateLabel state)) (cliLabel (stateLabel state))
    (match state with
      | .recording r => some r.evidence
      | .processing evidence => some evidence
      | _ => none)

/-! ## the workflows -/

/-- a job of the queue that admissions and mode changes share -/
inductive AsrModeJob where
  | persist (mode : AsrMode) (reply : Reply)
  | admission (token : Nat)
deriving DecidableEq, Repr

/-- a workflow that a state of the actor waits for.  The processing of a Recording and a replay
stand for the task and its supervisor together. -/
inductive Task where
  | startup (id : Nat) (asrMode : AsrMode) (reply : Reply)
  | recovery (id : Nat)
  | processing (evidence : LifecycleEvidence) (reply : Option Reply)
  | replay (id : Nat) (reply : Reply)
deriving DecidableEq, Repr

/-- a status response on its way through the blocking pool -/
structure StatusReply where
  response : Response
  reply : Reply
deriving DecidableEq, Repr

inductive Workflow where
  | job (job : AsrModeJob)
  | task (task : Task)
  | status (status : StatusReply)
deriving DecidableEq, Repr

end Voisu.Daemon
