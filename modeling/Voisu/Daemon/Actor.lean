import Mathlib
import Voisu.Daemon.Messages

/-!
# The daemon actor

The actor with the workflows it has started and what became of the replies.  An event is a message
the actor handles, or the end of a workflow; a workflow that reports has ended when its message is
handled.  A panic of a processing or a replay is met by its supervisor, which rebuilds the adapters
and reports a failure; the other workflows have no supervisor, and a panic ends them in silence.
A client's reply is answered when it is sent on, and lost when what holds it is dropped.

* `Actor`          the actor's variables, the outstanding workflows, the answers;
* `Panic`           what the actor itself may die of: an empty slot, a send that blocks it;
* `Actor.handle`   one message;
* `Actor.step`     a message and the end of the loop's body, where a shutdown is acknowledged;
* `Actor.enabled`  workflows end only when they are outstanding.
-/

namespace Voisu.Daemon

/-- fixed when the daemon starts -/
structure Config where
  controlled : Bool
  diagnostics : Bool
deriving DecidableEq, Repr

structure Actor where
  state : ActorState
  nextId : Nat
  nextAdmissionToken : Nat
  capture : Bool
  deepgram : Bool
  groq : Bool
  validator : Bool
  delivery : Bool
  shortcutBinding : Option Text
  nextOverlayEventId : Nat
  lastOverlayEvent : Option OverlayEvent
  shutdownAck : Bool
  acknowledged : Bool
  queueAlive : Bool
  queue : List AsrModeJob
  tasks : List Task
  statuses : List StatusReply
  answered : List (Reply × Response)
  authorizations : List (Nat × Text × Bool)
deriving DecidableEq, Repr

def Actor.new : Actor :=
  { state := .idle, nextId := 1, nextAdmissionToken := 0, capture := true, deepgram := false,
    groq := false, validator := true, delivery := true, shortcutBinding := none,
    nextOverlayEventId := 1, lastOverlayEvent := none, shutdownAck := false, acknowledged := false,
    queueAlive := true, queue := [], tasks := [], statuses := [], answered := [],
    authorizations := [] }

inductive Adapter where
  | capture
  | deepgram
  | groq
  | validator
deriving DecidableEq, Repr

inductive Panic where
  | unavailable (adapter : Adapter)
  | diagnosticsUnchecked
  | blockingSend
deriving DecidableEq, Repr

/-! ## replies, tasks and the Overlay -/

def Actor.answer (a : Actor) (reply : Reply) (response : Response) : Actor :=
  { a with answered := a.answered ++ [(reply, response)] }

def Actor.reject (a : Actor) (reply : Reply) (state : DaemonState) (message : String) : Actor :=
  a.answer reply (Response.rejected (some state) message.toList)

def Actor.spawn (a : Actor) (task : Task) : Actor :=
  { a with tasks := a.tasks ++ [task] }

/-- `reply_with_asr_status` -/
def Actor.replyWithAsrStatus (a : Actor) (response : Response) (reply : Reply) : Actor :=
  { a with statuses := a.statuses ++ [{ response, reply }] }

def Actor.retainOverlayEvent (a : Actor) (outcome : OverlayOutcome) (message : Text)
    (correlationId : Option Text) : Actor :=
  { a with
    lastOverlayEvent := some { id := a.nextOverlayEventId, outcome, message, correlationId }
    nextOverlayEventId := a.nextOverlayEventId + 1 }

/-! ## admissions -/

def u64Max : Nat := 2 ^ 64 - 1

def saturatingSucc (n : Nat) : Nat := min (n + 1) u64Max

/-- `enqueue_capture_admission`; when the queue's thread is gone, the completion runs on the actor,
whose blocking send the runtime refuses -/
def Actor.enqueueCaptureAdmission (a : Actor) (token : Nat) : Except Panic Actor :=
  if a.queueAlive then .ok { a with queue := a.queue ++ [.admission token] } else .error .blockingSend

def Actor.beginAdmission (a : Actor) (pending : PendingCapture) (reply : Reply) :
    Except Panic Actor := do
  let token := a.nextAdmissionToken
  let a ← { a with nextAdmissionToken := saturatingSucc token }.enqueueCaptureAdmission token
  return { a with state := .admitting token pending reply }

def Actor.cancelPendingAdmission (a : Actor) (message : String) : Actor :=
  match a.state with
  | .admitting _ _ reply => { a with state := .idle }.reject reply .idle message
  | _ => a

/-- `AsrModeQueue::persist` -/
def Actor.persist (a : Actor) (mode : AsrMode) (reply : Reply) : Actor :=
  if a.queueAlive then { a with queue := a.queue ++ [.persist mode reply] }
  else a.reject reply (stateLabel a.state) "ASR mode queue is unavailable"

/-! ## processing -/

/-- `spawn_recording_processing`; `none` when an adapter is out -/
def Actor.spawnRecordingProcessing (a : Actor) (recording : ActiveRecording)
    (reply : Option Reply) : Option Actor :=
  if a.validator && a.delivery then
    some ({ a with validator := false, delivery := false, state := .processing recording.evidence }
      |>.spawn (.processing recording.evidence reply))
  else none

/-- a stop without a client: the Recording stays when an adapter is out -/
def Actor.stopUnattended (a : Actor) (recording : ActiveRecording) : Actor :=
  (a.spawnRecordingProcessing recording none).getD a

def Actor.stopFor (a : Actor) (recording : ActiveRecording) (reply : Reply) : Actor :=
  match a.spawnRecordingProcessing recording (some reply) with
  | some a => a
  | none => a.reject reply (stateLabel a.state) "Recording adapters are unavailable"

/-! ## commands -/

/-- what the diagnostic store answers a read -/
inductive StoreRead where
  | found
  | missing
  | failed
deriving DecidableEq, Repr

def historyResponse (diagnostics : Bool) (read : StoreRead) (state : ActorState) : Response :=
  if diagnostics && read = .failed then
    Response.rejected (some (stateLabel state)) "Recording history is unavailable".toList
  else Response.success .idle "diagnostic history".toList

def exportResponse (diagnostics : Bool) (read : StoreRead) (state : ActorState) : Response :=
  if !diagnostics || read = .failed then
    Response.rejected (some (stateLabel state)) "Recording history is unavailable".toList
  else if read = .missing then
    Response.rejected (some (stateLabel state))
      "no Recording with that id; find ids with voisu history --json".toList
  else Response.success .idle "diagnostic export".toList

def shortcutMessage : Option Text → Text
  | some description => "Trigger Key: ".toList ++ description
  | none => "No Trigger Key is bound; start, stop, and toggle remain available".toList

def Actor.replayCommand (cfg : Config) (a : Actor) (fixture : Text) (reply : Reply) :
    Except Panic Actor :=
  if !cfg.diagnostics then
    .ok (a.reject reply (stateLabel a.state) "Recording history is unavailable")
  else match a.state with
    | .idle => a.beginAdmission (.replay fixture) reply
    | state => .ok (a.reject reply (stateLabel state)
        "cannot replay a fixture while a Recording is active")

def Actor.startCommand (a : Actor) (reply : Reply) : Except Panic Actor :=
  match a.state with
  | .recovering _ | .replaying _ =>
    .ok (a.reject reply .idle "Recording recovery in progress; retry shortly")
  | .idle => a.beginAdmission .start reply
  | state => .ok (a.reject reply (stateLabel state) "Recording already active")

def Actor.stopCommand (a : Actor) (reply : Reply) : Actor :=
  match a.state with
  | .admitting .. =>
    (a.cancelPendingAdmission "Recording cancelled").reject reply .idle "No Recording active"
  | .recording recording => a.stopFor recording reply
  | .processing _ => a.reject reply .processing "Recording is being processed"
  | state => a.reject reply (stateLabel state) "No Recording active"

def Actor.toggleCommand (a : Actor) (reply : Reply) : Except Panic Actor :=
  match a.state with
  | .recovering _ | .replaying _ =>
    .ok (a.reject reply .idle "Recording recovery in progress; retry shortly")
  | .idle => a.beginAdmission .start reply
  | .admitting .. =>
    .ok ((a.cancelPendingAdmission "Recording cancelled").reject reply .idle "No Recording active")
  | .recording recording => .ok (a.stopFor recording reply)
  | .processing _ => .ok (a.reject reply .processing "Recording is being processed")
  | .starting .. => .ok (a.reject reply .recording "Recording is starting")

def Actor.command (cfg : Config) (a : Actor) (read : StoreRead) (reply : Reply) :
    Command → Except Panic Actor
  | .status | .overlayStatus => .ok (a.replyWithAsrStatus (statusResponse a.state) reply)
  | .setAsrMode mode => .ok (a.persist mode reply)
  | .level => .ok (a.answer reply (Response.withEvidence true none "audio levels".toList none))
  | .shortcut =>
    .ok (a.answer reply (Response.success (stateLabel a.state) (shortcutMessage a.shortcutBinding)))
  | .history => .ok (a.answer reply (historyResponse cfg.diagnostics read a.state))
  | .exportRecord => .ok (a.answer reply (exportResponse cfg.diagnostics read a.state))
  | .replay fixture => a.replayCommand cfg fixture reply
  | .start => a.startCommand reply
  | .stop => .ok (a.stopCommand reply)
  | .toggle => a.toggleCommand reply

/-! ## a capture is admitted -/

/-- what the queue reports of an admission, and what the actor then asks: the quota of Local
recovery, whether the fixture may be replayed in the Cloud, a fresh correlation id -/
structure Admission where
  result : Except Response AsrMode
  quota : Option Text
  refusal : Option Text
  correlationId : Text
deriving DecidableEq, Repr

/-- `expect("… is available")` -/
def demand (filled : Bool) (adapter : Adapter) : Except Panic Unit :=
  if filled then .ok () else .error (.unavailable adapter)

/-- providers are built for every production operation, and in a controlled daemon when one is
missing -/
def Actor.buildProviders (cfg : Config) (a : Actor) : Actor :=
  if !cfg.controlled || !a.deepgram || !a.groq then { a with deepgram := true, groq := true } else a

def Actor.beginLocalReplay (cfg : Config) (a : Actor) (reply : Reply) : Except Panic Actor := do
  let id := a.nextId
  if !cfg.diagnostics then throw .diagnosticsUnchecked
  demand a.validator .validator
  return { a with nextId := id + 1, state := .replaying id, validator := false }.spawn
    (.replay id reply)

def Actor.beginCloudReplay (cfg : Config) (a : Actor) (reply : Reply) : Except Panic Actor := do
  let id := a.nextId
  demand a.validator .validator
  let a := a.buildProviders cfg
  demand a.deepgram .deepgram
  demand a.groq .groq
  demand a.validator .validator
  if !cfg.diagnostics then throw .diagnosticsUnchecked
  return { a with nextId := id + 1, state := .replaying id, deepgram := false, groq := false,
                  validator := false }.spawn (.replay id reply)

def Actor.beginStart (cfg : Config) (a : Actor) (mode : AsrMode) (correlationId : Text)
    (reply : Reply) : Except Panic Actor := do
  let id := a.nextId
  demand a.validator .validator
  let a := if mode = .localMode then a else a.buildProviders cfg
  demand a.capture .capture
  let a ← if mode = .localMode then pure a else do
    demand a.deepgram .deepgram
    demand a.groq .groq
    pure { a with deepgram := false, groq := false }
  return { a with nextId := id + 1, state := .starting id correlationId mode,
                  capture := false }.spawn (.startup id mode reply)

/-- an admitted capture begins, unless the quota or the fixture's origin refuses it; the flag is set
where the loop goes back to its top and past the acknowledgement of a shutdown -/
def Actor.beginCapture (cfg : Config) (a : Actor) (admission : Admission) (reply : Reply) :
    PendingCapture → AsrMode → Except Panic (Actor × Bool)
  | .replay _, .localMode => (a.beginLocalReplay cfg reply).map (·, false)
  | .replay _, .cloud =>
    match admission.refusal with
    | some message => .ok (a.answer reply (Response.rejected (some .idle) message), true)
    | none => (a.beginCloudReplay cfg reply).map (·, false)
  | .start, .localMode =>
    match admission.quota with
    | some message => .ok (a.answer reply (Response.rejected (some .idle) message), true)
    | none => (a.beginStart cfg .localMode admission.correlationId reply).map (·, false)
  | .start, .cloud => (a.beginStart cfg .cloud admission.correlationId reply).map (·, false)

/-- the handler of `CaptureAdmitted` -/
def Actor.captureAdmitted (cfg : Config) (a : Actor) (token : Nat) (admission : Admission) :
    Except Panic (Actor × Bool) :=
  match a.state with
  | .admitting current pending reply =>
    if current ≠ token then .ok (a, true)
    else
      let a := { a with state := .idle }
      match admission.result with
      | .error response => .ok (a.answer reply response, true)
      | .ok mode =>
        if a.shutdownAck then .ok (a.reject reply .idle "daemon is shutting down", true)
        else a.beginCapture cfg admission reply pending mode
  | _ => .ok (a, true)

/-! ## workflows report -/

/-- `StartFailure`, with whether a capture or a provider stream is left to abort -/
structure StartFailure where
  failure : Failure
  recovering : Bool
deriving DecidableEq, Repr

/-- the adapters come back from a start-up -/
def Actor.returnStartup (cfg : Config) (a : Actor) (mode : AsrMode) : Actor :=
  if cfg.controlled && mode ≠ .localMode then
    { a with capture := true, deepgram := true, groq := true }
  else { a with capture := true }

def startEvidence (id : Nat) (correlationId : Text) (recoveryAttempted : Bool) :
    LifecycleEvidence :=
  { baseEvidence id correlationId with recoveryAttempted }

/-- a start-up that reports to the state waiting for it -/
def Actor.concludeStart (a : Actor) (id : Nat) (correlationId : Text) (mode : AsrMode)
    (reply : Reply) : Except StartFailure Unit → Actor
  | .ok () =>
    if a.shutdownAck then
      { a with state := .recovering id }.answer reply
        (Response.withEvidence false (some .idle) "daemon is shutting down".toList
          (some (startEvidence id correlationId true)))
      |>.spawn (.recovery id)
    else
      { a with state := .recording { id, asrMode := mode,
                                     evidence := baseEvidence id correlationId } }.answer reply
        (Response.success .recording "Recording started".toList)
  | .error failed =>
    let a := a.retainOverlayEvent (overlayOutcome failed.failure)
      (publicMessage failed.failure.error) none
    let a := a.answer reply (Response.withEvidence false (some .idle)
      (publicMessage failed.failure.error)
      (some (startEvidence id correlationId failed.recovering)))
    if failed.recovering then { a with state := .recovering id }.spawn (.recovery id)
    else { a with state := .idle }

/-- the handler of `Started`: a start-up no state waits for keeps its reply to itself -/
def Actor.started (cfg : Config) (a : Actor) (id : Nat) (mode : AsrMode) (reply : Reply)
    (result : Except StartFailure Unit) : Actor :=
  let a := a.returnStartup cfg mode
  match a.state with
  | .starting startingId correlationId _ =>
    if startingId = id then a.concludeStart id correlationId mode reply result else a
  | _ => a

def Actor.recovered (a : Actor) (id : Nat) : Actor :=
  if a.state = .recovering id then { a with state := .idle } else a

def Actor.replayCompleted (cfg : Config) (a : Actor) (id : Nat) (reply : Reply)
    (response : Response) : Actor :=
  let a := if cfg.controlled then { a with deepgram := true, groq := true, validator := true }
    else { a with validator := true }
  let a := if a.state = .replaying id then { a with state := .idle } else a
  a.answer reply response

def Actor.pumpTerminated (a : Actor) (id : Nat) : Actor :=
  match a.state with
  | .recording recording => if recording.id = id then a.stopUnattended recording else a
  | _ => a

/-- whether it is this Recording that is being processed -/
def isProcessing (state : ActorState) (id : Nat) (correlationId : Text) : Bool :=
  match state with
  | .processing evidence => evidence.recordingId = id && evidence.correlationId = correlationId
  | _ => false

def Actor.authorizeDelivery (a : Actor) (id : Nat) (correlationId : Text) : Actor :=
  { a with authorizations := a.authorizations ++
      [(id, correlationId, isProcessing a.state id correlationId)] }

def Actor.deliveryLanded (a : Actor) (id : Nat) (correlationId : Text) (method : DeliveryMethod)
    (fallbackReason : Option Text) (truncated : Bool) : Actor :=
  if isProcessing a.state id correlationId then
    let event := deliveredOverlayEvent (some method) fallbackReason truncated
    a.retainOverlayEvent event.1 event.2 (some correlationId)
  else a

def answerOptional (a : Actor) (reply : Option Reply) (response : Response) : Actor :=
  match reply with
  | some reply => a.answer reply response
  | none => a

/-- a processing that reports to the state waiting for it -/
def Actor.concludeProcessing (a : Actor) (evidence : LifecycleEvidence) (reply : Option Reply) :
    Except Failure Unit → Actor
  | .ok () =>
    let response := Response.withEvidence true (some .idle)
      (deliveredMessage evidence.deliveryMethod evidence.deliveryFallbackReason
        evidence.truncatedBy)
      (some evidence)
    let announced := a.lastOverlayEvent.any (·.correlationId = some evidence.correlationId)
    let a := if announced then a
      else
        let event := deliveredOverlayEvent evidence.deliveryMethod evidence.deliveryFallbackReason
          evidence.truncatedBy
        a.retainOverlayEvent event.1 event.2 (some evidence.correlationId)
    answerOptional a reply response
  | .error failure =>
    let a := a.retainOverlayEvent (overlayOutcome failure) (publicMessage failure.error)
      (some evidence.correlationId)
    answerOptional a reply
      (Response.withEvidence false (some .idle) (publicMessage failure.error) (some evidence))

/-- the handler of `Completed`: the state is matched by the Recording's id -/
def Actor.completed (a : Actor) (evidence : LifecycleEvidence) (reply : Option Reply)
    (result : Except Failure Unit) : Actor :=
  let a := { a with validator := true, delivery := true }
  match a.state with
  | .processing current =>
    if current.recordingId = evidence.recordingId then
      { a with state := .idle }.concludeProcessing evidence reply result
    else a
  | _ => a

/-- what the supervisor of a processing reports when it panics -/
def processingPanicked : Failure :=
  { error := { BoundaryError.new .validation
                "Recording processing task failed at an unknown point".toList with
                publicMessage := some "Recording processing failed at an unknown point".toList }
    transcriptFailure := false }

def Actor.shutdown (a : Actor) : Actor :=
  let a := { a with shutdownAck := true }.cancelPendingAdmission "daemon is shutting down"
  match a.state with
  | .recording recording => a.stopUnattended recording
  | _ => a

/-! ## events -/

/-- what processing adds to the evidence it was given -/
structure Delivered where
  deliveryMethod : Option DeliveryMethod
  deliveryFallbackReason : Option Text
  truncatedBy : Bool
deriving DecidableEq, Repr

def Delivered.into (delivered : Delivered) (evidence : LifecycleEvidence) : LifecycleEvidence :=
  { evidence with
    deliveryMethod := delivered.deliveryMethod
    deliveryFallbackReason := delivered.deliveryFallbackReason
    truncatedBy := delivered.truncatedBy }

inductive Event where
  | command (command : Command) (read : StoreRead) (reply : Reply)
  | persisted (mode : AsrMode) (reply : Reply) (response : Response)
  | captureAdmitted (token : Nat) (admission : Admission)
  | jobPanics (job : AsrModeJob)
  | statusAttached (status : StatusReply)
  | statusPanics (status : StatusReply)
  | started (id : Nat) (asrMode : AsrMode) (reply : Reply) (result : Except StartFailure Unit)
  | startupPanics (id : Nat) (asrMode : AsrMode) (reply : Reply)
  | recovered (id : Nat)
  | recoveryPanics (id : Nat)
  | completed (evidence : LifecycleEvidence) (reply : Option Reply)
      (result : Except Failure Delivered)
  | processingPanics (evidence : LifecycleEvidence) (reply : Option Reply)
  | replayCompleted (id : Nat) (reply : Reply) (response : Response)
  | replayPanics (id : Nat) (reply : Reply)
  | pumpTerminated (id : Nat)
  | authorizeDelivery (id : Nat) (correlationId : Text)
  | deliveryLanded (id : Nat) (correlationId : Text) (method : DeliveryMethod)
      (fallbackReason : Option Text) (truncated : Bool)
  | shortcutBound (binding : Option Text)
  | shutdown
deriving DecidableEq, Repr

/-- the workflow an event ends -/
def Event.ends : Event → Option Workflow
  | .persisted mode reply _ => some (.job (.persist mode reply))
  | .captureAdmitted token _ => some (.job (.admission token))
  | .jobPanics job => some (.job job)
  | .statusAttached status | .statusPanics status => some (.status status)
  | .started id asrMode reply _ | .startupPanics id asrMode reply =>
    some (.task (.startup id asrMode reply))
  | .recovered id | .recoveryPanics id => some (.task (.recovery id))
  | .completed evidence reply _ | .processingPanics evidence reply =>
    some (.task (.processing evidence reply))
  | .replayCompleted id reply _ | .replayPanics id reply => some (.task (.replay id reply))
  | .command .. | .pumpTerminated _ | .authorizeDelivery .. | .deliveryLanded .. | .shortcutBound _
  | .shutdown => none

def Actor.outstanding (a : Actor) : List Workflow :=
  a.queue.map .job ++ a.tasks.map .task ++ a.statuses.map .status

/-- a workflow ends: it is outstanding no more -/
def Actor.close (a : Actor) : Workflow → Actor
  | .job job => { a with queue := a.queue.erase job }
  | .task task => { a with tasks := a.tasks.erase task }
  | .status status => { a with statuses := a.statuses.erase status }

/-- the queue's thread dies with a job that panics, and the jobs behind it are dropped -/
def Actor.closeEnded (a : Actor) : Event → Actor
  | .jobPanics job => { a with queueAlive := false, queue := a.queue.takeWhile (· ≠ job) }
  | e => (e.ends.map a.close).getD a

/-- one message, from the state in which the workflow that sent it has ended -/
def Actor.handle (cfg : Config) (a : Actor) : Event → Except Panic (Actor × Bool)
  | .command command read reply => (a.command cfg read reply command).map (·, false)
  | .persisted _ reply response => .ok (a.answer reply response, true)
  | .captureAdmitted token admission => a.captureAdmitted cfg token admission
  | .jobPanics _ => .ok (a, true)
  | .statusAttached status => .ok (a.answer status.reply status.response, true)
  | .statusPanics _ => .ok (a, true)
  | .started id asrMode reply result => .ok (a.started cfg id asrMode reply result, false)
  | .startupPanics .. => .ok (a, true)
  | .recovered id => .ok (a.recovered id, false)
  | .recoveryPanics _ => .ok (a, true)
  | .completed evidence reply (.ok delivered) =>
    .ok (a.completed (delivered.into evidence) reply (.ok ()), false)
  | .completed evidence reply (.error failure) =>
    .ok (a.completed evidence reply (.error failure), false)
  | .processingPanics evidence reply =>
    .ok (a.completed evidence reply (.error processingPanicked), false)
  | .replayCompleted id reply response => .ok (a.replayCompleted cfg id reply response, false)
  | .replayPanics id reply => .ok (a.replayCompleted cfg id reply
      (Response.rejected (some .idle) "fixture replay failed".toList), false)
  | .pumpTerminated id => .ok (a.pumpTerminated id, false)
  | .authorizeDelivery id correlationId => .ok (a.authorizeDelivery id correlationId, false)
  | .deliveryLanded id correlationId method fallbackReason truncated =>
    .ok (a.deliveryLanded id correlationId method fallbackReason truncated, false)
  | .shortcutBound binding => .ok ({ a with shortcutBinding := binding }, false)
  | .shutdown => .ok (a.shutdown, false)

/-- the end of the loop's body -/
def Actor.acknowledgeShutdown (a : Actor) : Actor :=
  if a.shutdownAck && a.state = .idle then { a with shutdownAck := false, acknowledged := true }
  else a

def Actor.step (cfg : Config) (a : Actor) (e : Event) : Except Panic Actor :=
  ((a.closeEnded e).handle cfg e).map fun (a, skips) => if skips then a else a.acknowledgeShutdown

/-- the actor is still there, and a workflow ends only when it is outstanding -/
def Actor.enabled (a : Actor) (e : Event) : Bool :=
  !a.acknowledged && e.ends.all (a.outstanding.contains ·)

def Actor.run (cfg : Config) (a : Actor) (es : List Event) : Except Panic Actor :=
  es.foldlM (Actor.step cfg) a

/-- the runs that can happen: nothing follows a panic of the actor -/
def Actor.feasible (cfg : Config) (a : Actor) : List Event → Bool
  | [] => true
  | e :: es => a.enabled e &&
    match a.step cfg e with
    | .ok a' => a'.feasible cfg es
    | .error _ => es.isEmpty

end Voisu.Daemon
