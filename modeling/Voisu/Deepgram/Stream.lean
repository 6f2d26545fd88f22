import Mathlib
import Voisu.Deepgram.Messages

/-!
# The Deepgram stream of a Recording

The owner hands frames to an unbounded channel; the I/O task dials, forwards the frames in their order
over one connection at a time and reads what the server answers.  A frame that the socket did not take
is tried first on the next connection.  Every event that the task may meet is one step, in any order:
a dial, a frame that is taken or refused, an answer, a tick.  There is no cancellation.

* `Happening`              what a connection saw, in its order: the record of a run;
* `DeepgramStream.step`    one event of the I/O task or of the owner;
* `complete`               the tail of the audio, `Finalize`, `CloseStream`, and the channel is dropped;
* `completion`             what `complete` returns once the task is over.
-/

namespace Voisu.Deepgram
open Lib

/-! ## frames -/

inductive DeepgramOutbound where
  | audio (bytes : List UInt8)
  | finalize
  | closeStream
deriving DecidableEq, Repr

def DeepgramOutbound.isAudio : DeepgramOutbound → Bool
  | .audio _ => true
  | _ => false

/-- what `stream.next()` returns -/
inductive Incoming where
  | text (text : Text)
  | close
  | ended
  | failed
  | other
deriving DecidableEq, Repr

/-- what a connection saw -/
inductive Happening where
  | accepted (frame : DeepgramOutbound)
  | keptAlive
  | received (incoming : Incoming)
deriving DecidableEq, Repr

/-! ## the I/O task -/

def deepgramReconnectAttempts : Nat := 2

/-- a connection is `driving` once the frame that was pending is sent -/
inductive Phase where
  | dialing
  | driving (draining terminalMetadataSeen : Bool)
  | over (result : Except BoundaryError Unit)

/-- `past` and `current` are what the lost connections and the last one saw; `streamed` is what the
owner streamed -/
structure DeepgramStream (Confidence : Type) where
  outbound : Bool
  streamedBytes : Nat
  channel : List DeepgramOutbound
  phase : Phase
  reconnectsLeft : Nat
  pending : Option DeepgramOutbound
  audioDelivered : Bool
  transcript : TranscriptAccumulator Confidence
  past : List (List Happening)
  current : List Happening
  streamed : List (List UInt8)

def providerError (text : Text) : BoundaryError := BoundaryError.new .provider text

def connectionLost : BoundaryError := providerError "Deepgram streaming connection lost".toList

namespace DeepgramStream
variable {Confidence : Type}

def connect : DeepgramStream Confidence :=
  { outbound := true
    streamedBytes := 0
    channel := []
    phase := .dialing
    reconnectsLeft := deepgramReconnectAttempts
    pending := none
    audioDelivered := false
    transcript := .empty
    past := []
    current := []
    streamed := [] }

def ends (st : DeepgramStream Confidence) (result : Except BoundaryError Unit) :
    DeepgramStream Confidence :=
  { st with phase := .over result }

def saw (st : DeepgramStream Confidence) (h : Happening) : DeepgramStream Confidence :=
  { st with current := st.current ++ [h] }

/-- `DeepgramConnectionEnd::Lost`, as the session loop takes it -/
def lost (st : DeepgramStream Confidence) : DeepgramStream Confidence :=
  if st.audioDelivered then st.ends (.error connectionLost)
  else if st.reconnectsLeft = 0 then st.ends (.error connectionLost)
  else
    { st with
      phase := .dialing
      reconnectsLeft := st.reconnectsLeft - 1
      past := st.past ++ [st.current]
      current := [] }

/-- a frame is sent: the socket takes it, or the connection is lost and the frame stays pending -/
def sendFrame (st : DeepgramStream Confidence) (frame : DeepgramOutbound) (accepted seen : Bool) :
    DeepgramStream Confidence :=
  if accepted then
    { st.saw (.accepted frame) with
      audioDelivered := st.audioDelivered || frame.isAudio
      phase := .driving (decide (frame = .closeStream)) seen }
  else { st with pending := some frame }.lost

/-- a connection: the pending frame is tried first -/
def dialed (st : DeepgramStream Confidence) (accepted : Bool) : DeepgramStream Confidence :=
  match st.pending with
  | some frame => { st with pending := none }.sendFrame frame accepted false
  | none => { st with phase := .driving false false }

def dialFailed (st : DeepgramStream Confidence) (error : BoundaryError) :
    DeepgramStream Confidence :=
  if st.reconnectsLeft = 0 then st.ends (.error error)
  else { st with reconnectsLeft := st.reconnectsLeft - 1 }

/-- `outbound.recv()`, which is not awaited while the connection drains -/
def forward (st : DeepgramStream Confidence) (accepted seen : Bool) : DeepgramStream Confidence :=
  match st.channel with
  | frame :: channel => { st with channel }.sendFrame frame accepted seen
  | [] => if st.outbound then st else st.ends (.ok ())

def unconfirmed : BoundaryError :=
  providerError "Deepgram closed without confirming CloseStream".toList

def incoming (decoder : Decoder Confidence) (st : DeepgramStream Confidence) (draining seen : Bool)
    (message : Incoming) : DeepgramStream Confidence :=
  match message with
  | .text text =>
    match ingestDeepgramMessage decoder st.transcript text with
    | .error error => st.ends (.error error)
    | .ok (kind, transcript) =>
      { st with
        transcript
        phase := .driving draining (seen || (draining && decide (kind = .metadata))) }
  | .close | .ended =>
    if !draining then st.lost
    else if seen then st.ends (.ok ())
    else st.ends (.error unconfirmed)
  | .failed => if draining then st.ends (.error connectionLost) else st.lost
  | .other => st

def graceElapsed : BoundaryError :=
  providerError "Deepgram did not confirm CloseStream within the close grace".toList

/-- `due`: the close grace elapsed, or a keep-alive is due -/
def tick (st : DeepgramStream Confidence) (draining due accepted : Bool) :
    DeepgramStream Confidence :=
  if !due then st
  else if draining then st.ends (.error graceElapsed)
  else if accepted then st.saw .keptAlive
  else st.lost

inductive Event where
  | sendAudio (chunk : List UInt8)
  | dialed (accepted : Bool)
  | dialFailed (error : BoundaryError)
  | forward (accepted : Bool)
  | incoming (message : Incoming)
  | tick (due accepted : Bool)
  | panicked

/-- an unbounded channel takes a frame unless its receiver is gone -/
def send (st : DeepgramStream Confidence) (frame : DeepgramOutbound) : DeepgramStream Confidence :=
  match st.phase with
  | .over _ => st
  | _ => { st with channel := st.channel ++ [frame] }

/-- after `complete` the chunk is refused -/
def sendAudio (st : DeepgramStream Confidence) (chunk : List UInt8) : DeepgramStream Confidence :=
  if st.outbound then
    { st with
      streamedBytes := st.streamedBytes + chunk.length
      streamed := st.streamed ++ [chunk] }.send (.audio chunk)
  else { st with streamedBytes := st.streamedBytes + chunk.length }

/-- an event that the task does not wait for in its phase does not happen -/
def step (decoder : Decoder Confidence) (st : DeepgramStream Confidence) (event : Event) :
    DeepgramStream Confidence :=
  match event, st.phase with
  | .sendAudio chunk, _ => st.sendAudio chunk
  | .dialed accepted, .dialing => st.dialed accepted
  | .dialFailed error, .dialing => st.dialFailed error
  | .forward accepted, .driving false seen => st.forward accepted seen
  | .incoming message, .driving draining seen =>
    (st.saw (.received message)).incoming decoder draining seen message
  | .tick due accepted, .driving draining _ => st.tick draining due accepted
  | .panicked, .dialing => st.ends (.error (providerError "Deepgram streaming task failed".toList))
  | .panicked, .driving _ _ =>
    st.ends (.error (providerError "Deepgram streaming task failed".toList))
  | _, _ => st

def run (decoder : Decoder Confidence) (st : DeepgramStream Confidence) (events : List Event) :
    DeepgramStream Confidence :=
  events.foldl (step decoder) st

/-! ## completion -/

/-- the frames that `complete` sends for the audio -/
def closing (st : DeepgramStream Confidence) (pcm : List UInt8) : List DeepgramOutbound :=
  (if (pcm.drop st.streamedBytes).isEmpty then [] else [.audio (pcm.drop st.streamedBytes)]) ++
    [.finalize, .closeStream]

/-- `complete` up to the point where it awaits the task -/
def complete (st : DeepgramStream Confidence) (pcm : List UInt8) :
    Except BoundaryError (DeepgramStream Confidence) :=
  if pcm.length < st.streamedBytes then
    .error (providerError "Deepgram stream exceeded the finalized Recording".toList)
  else if st.outbound then .ok { (st.closing pcm).foldl send st with outbound := false }
  else .ok st

/-- what `complete` returns once the task is over -/
def completion (st : DeepgramStream Confidence) :
    Option (Except BoundaryError SourceTranscript) :=
  match st.phase with
  | .over (.error error) => some (.error error)
  | .over (.ok ()) => some (.ok { provider := .deepgram, text := st.transcript.text })
  | _ => none

end DeepgramStream

end Voisu.Deepgram
