import Mathlib
import Voisu.WindowsApp.Gesture
import Voisu.Capture.Stream

/-!
# The trigger, the gesture thread and the engine of the Windows app

The gesture thread reads one queue: the chord signals of the keyboard hook and the ends that the
engine reports.  What the machine commands goes to the engine over a second queue, one command at a
time.  The engine is one task; while it opens the microphone it reads nothing, and while it processes
a Recording it refuses every command.

* `receives`, `works`    one command read by the engine, and one answer it was waiting for;
* `System.step`          one event of either side, in any order; an event that cannot happen changes
                         nothing;
* `Happening`            what a run leaves behind, in its order.

The engine itself holds the sending half of the gesture thread's queue, so neither queue is ever
closed while the engine runs.
-/

namespace Voisu.WindowsApp
open Capture (CaptureLimit)

/-- the lifecycle that the overlay is told about -/
inductive RecordingState where
  | idle
  | recording
  | handsFree
  | processing
  | done
  | error
deriving DecidableEq, Repr

inductive Happening where
  | emitted (action : Action) (at_ : Nat)
  | forgot (id : Nat)
  | received (action : Action)
  | previewEnded
  | captureBegan (id : Nat)
  | captureOver (id : Nat)
  | ended (id : Nat)
  | state (state : RecordingState)
  | stored (id : Nat)
  | delivered (id : Nat)
deriving DecidableEq, Repr

/-! ## the engine -/

/-- what is left of `settle` -/
inductive Settling where
  | aborting (error : Option BoundaryError)
  | finishing (limit : Option CaptureLimit)
  | deciding
  | delivering
deriving DecidableEq, Repr

/-- where the task of the engine waits -/
inductive Phase where
  | idle
  | starting (id : Nat)
  | opening (id : Nat) (begun : Bool)
  | pumping (id : Nat) (sending : Bool)
  | settling (id : Nat) (rest : Settling)
  | draining
deriving DecidableEq, Repr

/-- the Recording in the capture phase -/
def Phase.capturing : Phase → Option Nat
  | .starting id => some id
  | .opening id _ => some id
  | .pumping id _ => some id
  | _ => none

/-- whether the engine looks at its queue -/
def Phase.reads : Phase → Bool
  | .starting _ => false
  | .opening _ _ => false
  | _ => true

/-- the state that a failed Recording ends with; an accidental or silent press is not reported -/
def fail (error : BoundaryError) : Happening :=
  match error.kind with
  | .emptyRecording => .state .idle
  | .tooShortRecording => .state .idle
  | .silentRecording => .state .idle
  | _ => .state .error

/-- what the capture phase leaves for the processing phase -/
inductive Captured where
  | done
  | process (limit : Option CaptureLimit)
  | abort (error : Option BoundaryError)
deriving DecidableEq, Repr

/-- `record` returns: the gesture is told at once, then the processing starts -/
def leave (id : Nat) : Captured → Phase × List Happening
  | .done => (.draining, [.captureOver id, .ended id])
  | .process limit =>
    (.settling id (.finishing limit), [.captureOver id, .ended id, .state .processing])
  | .abort error => (.settling id (.aborting error), [.captureOver id, .ended id])

/-- a command, as `run`, `on_action` or `while_busy` reads it -/
def receives (phase : Phase) (action : Action) : Phase × List Happening :=
  match phase, action with
  | .idle, .start id => (.starting id, [.captureBegan id, .previewEnded])
  | .pumping id sending, .handsFree current =>
    (.pumping id sending, if current = id then [.state .handsFree] else [])
  | .pumping id sending, .stop current =>
    if current = id then leave id (.process none) else (.pumping id sending, [])
  | .pumping id sending, .cancel current =>
    if current = id then leave id (.abort none) else (.pumping id sending, [])
  | .pumping id sending, .start other => (.pumping id sending, [.ended other])
  | .settling id rest, .start other => (.settling id rest, [.ended other])
  | .draining, .start other => (.draining, [.ended other])
  | phase, _ => (phase, [])

/-- what the engine was waiting for -/
inductive Answer where
  | keys (ready : Bool)
  | begun (result : Except BoundaryError Unit)
  | providers (result : Except BoundaryError Unit)
  | chunk (result : Except BoundaryError (Option Unit))
  | sent (result : Except BoundaryError Unit)
  | aborted
  | finished (result : Except BoundaryError Unit)
  | decided (result : Except BoundaryError Unit)
  | delivered (message : Option Text)
  | drained
deriving DecidableEq

def works (phase : Phase) (answer : Answer) : Phase × List Happening :=
  match phase, answer with
  | .starting id, .keys true => (.opening id false, [.state .recording])
  | .starting id, .keys false =>
    ((leave id .done).1, .state .error :: (leave id .done).2)
  | .opening id false, .begun (.error error) =>
    ((leave id .done).1, fail error :: (leave id .done).2)
  | .opening id false, .begun (.ok _) => (.opening id true, [])
  | .opening id true, .providers (.error error) =>
    ((leave id .done).1, fail error :: (leave id .done).2)
  | .opening id true, .providers (.ok _) => (.pumping id false, [])
  | .pumping id false, .chunk (.ok (some _)) => (.pumping id true, [])
  | .pumping id false, .chunk (.ok none) => leave id (.process none)
  | .pumping id false, .chunk (.error error) =>
    if error.kind = .recordingDeadline then leave id (.process (some .recordingDeadline))
    else leave id (.abort (some error))
  | .pumping id true, .sent (.ok _) => (.pumping id false, [])
  | .pumping id true, .sent (.error error) => leave id (.abort (some error))
  | .settling _ (.aborting (some error)), .aborted => (.draining, [fail error])
  | .settling _ (.aborting none), .aborted => (.draining, [.state .idle])
  | .settling id (.finishing _), .finished (.ok _) => (.settling id .deciding, [])
  | .settling id (.finishing _), .finished (.error error) =>
    (.settling id (.aborting (some error)), [])
  | .settling id .deciding, .decided (.ok _) => (.settling id .delivering, [.stored id])
  | .settling _ .deciding, .decided (.error error) => (.draining, [fail error])
  | .settling id .delivering, .delivered none => (.draining, [.delivered id, .state .done])
  | .settling id .delivering, .delivered (some _) => (.draining, [.delivered id, .state .error])
  | .draining, .drained => (.idle, [])
  | phase, _ => (phase, [])

/-! ## both sides -/

inductive Input where
  | chord (signal : ChordSignal) (at_ : Nat)
  | ended (id : Nat)
deriving DecidableEq, Repr

/-- `outbox` are the commands that the gesture thread still has to send -/
structure System where
  machine : GestureMachine
  inputs : List Input
  outbox : List Action
  actions : List Action
  phase : Phase
  log : List Happening

inductive Event where
  | signal (signal : ChordSignal) (at_ : Nat)
  | read
  | timer (now : Nat)
  | send
  | receive
  | work (answer : Answer)
deriving DecidableEq

def endedInput : Happening → Option Input
  | .ended id => some (.ended id)
  | _ => none

namespace System

def initial : System :=
  { machine := .initial, inputs := [], outbox := [], actions := [], phase := .idle,
    log := [.state .idle] }

/-- the gesture thread after a call of the machine at the instant `now` -/
def commands (s : System) (result : GestureMachine × List Action) (now : Nat) : System :=
  { s with
    machine := result.1
    outbox := result.2
    log := s.log ++ result.2.map fun action => .emitted action now }

/-- the engine after a step of its task; the ends it reports join the queue of the gesture thread -/
def advance (s : System) (result : Phase × List Happening) : System :=
  { s with
    phase := result.1
    inputs := s.inputs ++ result.2.filterMap endedInput
    log := s.log ++ result.2 }

def readInput (s : System) (input : Input) (inputs : List Input) : System :=
  match input with
  | .chord signal at_ => { s with inputs }.commands (s.machine.onSignal signal at_) at_
  | .ended id =>
    { s with inputs, machine := s.machine.onEngineEnded id, log := s.log ++ [.forgot id] }

def step (s : System) : Event → System
  | .signal signal at_ => { s with inputs := s.inputs ++ [.chord signal at_] }
  | .read =>
    match s.outbox, s.inputs with
    | [], input :: inputs => s.readInput input inputs
    | _, _ => s
  | .timer now =>
    match s.outbox with
    | [] => s.commands ((s.machine.onTimeout now).1, (s.machine.onTimeout now).2.toList) now
    | _ => s
  | .send =>
    match s.outbox with
    | [] => s
    | action :: outbox => { s with outbox, actions := s.actions ++ [action] }
  | .receive =>
    match s.phase.reads, s.actions with
    | true, action :: actions =>
      { s with actions, log := s.log ++ [Happening.received action] }.advance
        (receives s.phase action)
    | _, _ => s
  | .work answer => s.advance (works s.phase answer)

def run (s : System) (events : List Event) : System := events.foldl step s

theorem run_snoc (s : System) (events : List Event) (event : Event) :
    s.run (events ++ [event]) = (s.run events).step event := by
  rw [run, List.foldl_append]
  rfl

/-- everything that an event can do -/
inductive Steps (s : System) : Event → System → Prop where
  | stay (event : Event) : Steps s event s
  | signal (signal : ChordSignal) (at_ : Nat) :
    Steps s (.signal signal at_) { s with inputs := s.inputs ++ [.chord signal at_] }
  | read {input : Input} {inputs : List Input} (houtbox : s.outbox = [])
    (hinputs : s.inputs = input :: inputs) : Steps s .read (s.readInput input inputs)
  | timer (now : Nat) (houtbox : s.outbox = []) :
    Steps s (.timer now)
      (s.commands ((s.machine.onTimeout now).1, (s.machine.onTimeout now).2.toList) now)
  | send {action : Action} {outbox : List Action} (houtbox : s.outbox = action :: outbox) :
    Steps s .send { s with outbox, actions := s.actions ++ [action] }
  | receive {action : Action} {actions : List Action} (hreads : s.phase.reads = true)
    (hactions : s.actions = action :: actions) :
    Steps s .receive
      ({ s with actions, log := s.log ++ [Happening.received action] }.advance
        (receives s.phase action))
  | work (answer : Answer) : Steps s (.work answer) (s.advance (works s.phase answer))

theorem steps (s : System) (event : Event) : Steps s event (s.step event) := by
  cases event with
  | signal signal at_ => exact .signal signal at_
  | read =>
    rw [step]
    split
    · rename_i input inputs houtbox hinputs
      exact .read houtbox hinputs
    · exact .stay _
  | timer now =>
    rw [step]
    split
    · rename_i houtbox
      exact .timer now houtbox
    · exact .stay _
  | send =>
    rw [step]
    split
    · exact .stay _
    · rename_i action outbox houtbox
      exact .send houtbox
  | receive =>
    rw [step]
    split
    · rename_i action actions hreads hactions
      exact .receive hreads hactions
    · exact .stay _
  | work answer => exact .work answer

end System

end Voisu.WindowsApp
