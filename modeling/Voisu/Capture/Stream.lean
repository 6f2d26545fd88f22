import Mathlib
import Voisu.Capture.Wav
import Voisu.Lib.Reads
import Voisu.Lib.Strings
import Voisu.Provider

/-!
# A capture from its pipe to the audio

A thread reads the standard output of `pw-record`, strips the WAV framing where there is one, retains
at most a cap of bytes and queues them in chunks of one size; the caller of `next_chunk` takes the
chunks from the queue, and `finish` drains what is left.  The two share the queue under a lock: a turn
of the thread and a poll of the caller are one step each, in any order.

* `WavHeaderStripper.read`    the reader that hides the framing;
* `readCaptureTurn`           one turn of the loop of `read_capture_stream`;
* `nextChunk`                 one turn of the loop of `next_chunk`;
* `finish`                    the thread is waited for, the queue drained, the audio checked.
-/

namespace Voisu.Capture
open Lib

/-! ## the pipe -/

inductive ErrorKind where
  | interrupted
  | invalidData
  | unexpectedEof
  | other
deriving DecidableEq, Repr

structure IoError where
  kind : ErrorKind
  text : Text
deriving DecidableEq, Repr

/-- what is still to come from `pw-record`: how its bytes arrive is up to the system -/
abbrev Pipe := List (Arrival UInt8 IoError)

def pcmChunkBytes : Nat := 3200
def maxRetainedStdoutBytes : Nat := 64 * 1024
def minRecordingBytes : Nat := pcmChunkBytes

/-! ## the WAV framing -/

/-- `pending` is what follows `pending_pos` -/
structure WavHeaderStripper where
  inner : Pipe
  scan : List UInt8
  pending : List UInt8
  headerDone : Bool
deriving DecidableEq, Repr

def WavHeaderStripper.new (inner : Pipe) : WavHeaderStripper :=
  { inner, scan := [], pending := [], headerDone := false }

def endedBeforeData : IoError :=
  { kind := .unexpectedEof, text := "pw-record WAV stream ended before its data chunk".toList }

def headerUnresolved : IoError :=
  { kind := .invalidData
    text := "pw-record WAV header did not resolve within the bounded prefix".toList }

def WavHeaderStripper.read (s : WavHeaderStripper) (room : Nat) :
    Except IoError (List UInt8) × WavHeaderStripper :=
  if s.pending ≠ [] then
    (.ok (s.pending.take room), { s with pending := s.pending.drop room })
  else if s.headerDone then
    ((receive room s.inner).1, { s with inner := (receive room s.inner).2 })
  else
    match _h : receive pcmChunkBytes s.inner with
    | (.error e, inner) => (.error e, { s with inner })
    | (.ok [], inner) => (.error endedBeforeData, { s with inner })
    | (.ok (b :: bs), inner) =>
      match scanWavPcm (s.scan ++ b :: bs) with
      | .incomplete =>
        if maxRetainedStdoutBytes < (s.scan ++ b :: bs).length then
          (.error headerUnresolved, { s with inner, scan := s.scan ++ b :: bs })
        else WavHeaderStripper.read { s with inner, scan := s.scan ++ b :: bs } room
      | .invalid reason =>
        (.error { kind := .invalidData, text := reason }, { s with inner, scan := s.scan ++ b :: bs })
      | .dataAt offset =>
        WavHeaderStripper.read
          { inner, scan := [], pending := (s.scan ++ b :: bs).drop offset, headerDone := true } room
termination_by weight s.inner
decreasing_by
  all_goals
    have := weight_receive_ok _h
    simp only [List.length_cons] at this
    omega

inductive Source where
  | raw (pipe : Pipe)
  | wav (stripper : WavHeaderStripper)
deriving DecidableEq, Repr

def Source.read (room : Nat) : Source → Except IoError (List UInt8) × Source
  | .raw pipe => ((receive room pipe).1, .raw (receive room pipe).2)
  | .wav stripper => ((stripper.read room).1, .wav (stripper.read room).2)

/-! ## the reader thread -/

structure CaptureReaderState where
  chunks : List (List UInt8)
  receivedBytes : Nat
  eof : Bool
  error : Option Text
  bufferCapReached : Bool
deriving DecidableEq, Repr

def CaptureReaderState.initial : CaptureReaderState :=
  { chunks := [], receivedBytes := 0, eof := false, error := none, bufferCapReached := false }

/-- `PcmChunkAssembler::push`: the chunks that are whole, and what stays pending -/
def assemblerPush (pending bytes : List UInt8) : List (List UInt8) × List UInt8 :=
  pieces pcmChunkBytes (pending ++ bytes)

/-- `PcmChunkAssembler::finish` -/
def assemblerFinish (pending : List UInt8) : List (List UInt8) :=
  if pending.isEmpty then [] else [pending]

/-- what the thread owns; `pending` is the assembler's -/
structure Reader where
  source : Source
  pending : List UInt8
  returned : Bool
deriving DecidableEq, Repr

def readBuffer : Nat := 640

/-- the text of a read error that is kept -/
def readErrorText (e : IoError) : Text :=
  match e.kind with
  | .invalidData | .unexpectedEof => e.text
  | _ => "pw-record audio read failed".toList

/-- a turn after a read: `read` bytes of the stream are put where the caller finds them -/
def retain (cap : Nat) (bytes pending : List UInt8) (state : CaptureReaderState) :
    List UInt8 × CaptureReaderState :=
  let retained := min bytes.length (cap - state.receivedBytes)
  let pushed := if 0 < retained then assemblerPush pending (bytes.take retained) else ([], pending)
  (pushed.2,
    { state with
      receivedBytes := saturatingAdd state.receivedBytes bytes.length
      chunks := state.chunks ++ pushed.1
      bufferCapReached := state.bufferCapReached || decide (retained < bytes.length) })

/-- one turn of the loop of `read_capture_stream` -/
def readCaptureTurn (cap : Nat) (r : Reader) (state : CaptureReaderState) :
    Reader × CaptureReaderState :=
  match r.source.read readBuffer with
  | (.ok [], source) =>
    ({ source, pending := [], returned := true },
      { state with chunks := state.chunks ++ assemblerFinish r.pending, eof := true })
  | (.ok (b :: bs), source) =>
    ({ r with source, pending := (retain cap (b :: bs) r.pending state).1 },
      (retain cap (b :: bs) r.pending state).2)
  | (.error e, source) =>
    match e.kind with
    | .interrupted => ({ r with source }, state)
    | _ =>
      ({ r with source, returned := true },
        { state with error := some (readErrorText e), eof := true })

section turns
variable {cap : Nat} {r : Reader} {state : CaptureReaderState} {source : Source} {e : IoError}

theorem readCaptureTurn_end (h : r.source.read readBuffer = (.ok [], source)) :
    readCaptureTurn cap r state =
      ({ source, pending := [], returned := true },
        { state with chunks := state.chunks ++ assemblerFinish r.pending, eof := true }) := by
  rw [readCaptureTurn, h]

theorem readCaptureTurn_data {b : UInt8} {bs : List UInt8}
    (h : r.source.read readBuffer = (.ok (b :: bs), source)) :
    readCaptureTurn cap r state =
      ({ r with source, pending := (retain cap (b :: bs) r.pending state).1 },
        (retain cap (b :: bs) r.pending state).2) := by
  rw [readCaptureTurn, h]

theorem readCaptureTurn_interrupted (h : r.source.read readBuffer = (.error e, source))
    (hkind : e.kind = .interrupted) : readCaptureTurn cap r state = ({ r with source }, state) := by
  rw [readCaptureTurn, h]
  simp only [hkind]

theorem readCaptureTurn_failed (h : r.source.read readBuffer = (.error e, source))
    (hkind : e.kind ≠ .interrupted) :
    readCaptureTurn cap r state =
      ({ r with source, returned := true },
        { state with error := some (readErrorText e), eof := true }) := by
  rw [readCaptureTurn, h]
  simp only

end turns

/-! ## the caller -/

/-- the cap is a `usize` -/
structure RecordingMaximum where
  pcmByteCap : Nat
  cap_le : pcmByteCap ≤ usizeMax
deriving DecidableEq, Repr

inductive CaptureLimit where
  | buffer
  | recordingDeadline
deriving DecidableEq, Repr

structure CapturedAudio where
  pcmS16leMono16khz : List UInt8
  truncatedBy : Option CaptureLimit
deriving DecidableEq, Repr

inductive PwRecordProbe where
  | unavailable
  | raw
  | wav
deriving DecidableEq, Repr

/-- `returned` lists what `next_chunk` returned so far -/
structure ActiveCapture where
  maximum : RecordingMaximum
  reader : Reader
  state : CaptureReaderState
  pcm : List UInt8
  returned : List (Except BoundaryError (Option (List UInt8)))

/-- `AudioCapture::begin`, with the pipe of the process it started -/
def begin (probe : PwRecordProbe) (stdout : Pipe) (maximum : RecordingMaximum) : ActiveCapture :=
  { maximum
    reader :=
      { source := if probe = .raw then .raw stdout else .wav (WavHeaderStripper.new stdout)
        pending := []
        returned := false }
    state := .initial
    pcm := []
    returned := [] }

def deadlineElapsed : BoundaryError :=
  BoundaryError.new .recordingDeadline "configured Recording Deadline elapsed".toList

def ActiveCapture.returns (c : ActiveCapture) (r : Except BoundaryError (Option (List UInt8))) :
    ActiveCapture :=
  { c with returned := c.returned ++ [r] }

/-- one turn of the loop of `next_chunk`; a turn that returns nothing sleeps -/
def ActiveCapture.nextChunk (elapsed : Bool) (c : ActiveCapture) : ActiveCapture :=
  if elapsed then c.returns (.error deadlineElapsed)
  else
    match c.state.error with
    | some error => c.returns (.error (BoundaryError.new .capture error))
    | none =>
      match c.state.chunks with
      | chunk :: chunks =>
        { c with state := { c.state with chunks }, pcm := c.pcm ++ chunk }.returns (.ok (some chunk))
      | [] => if c.state.eof || c.state.bufferCapReached then c.returns (.ok none) else c

/-- a turn of the reader thread; it has none once it returned -/
def ActiveCapture.readTurn (c : ActiveCapture) : ActiveCapture :=
  if c.reader.returned then c
  else
    { c with
      reader := (readCaptureTurn c.maximum.pcmByteCap c.reader c.state).1
      state := (readCaptureTurn c.maximum.pcmByteCap c.reader c.state).2 }

inductive Event where
  | readTurn
  | nextChunk (elapsed : Bool)
deriving DecidableEq, Repr

def ActiveCapture.step (c : ActiveCapture) : Event → ActiveCapture
  | .readTurn => c.readTurn
  | .nextChunk elapsed => c.nextChunk elapsed

def ActiveCapture.run (c : ActiveCapture) (events : List Event) : ActiveCapture :=
  events.foldl ActiveCapture.step c

/-- the chunks that `next_chunk` yielded -/
def ActiveCapture.yielded (c : ActiveCapture) : List (List UInt8) :=
  c.returned.filterMap fun r =>
    match r with
    | .ok (some chunk) => some chunk
    | _ => none

/-! ## the end of a capture -/

def WavHeaderStripper.left (s : WavHeaderStripper) : Nat :=
  s.pending.length + s.scan.length + 2 * weight s.inner

/-- what the thread has still to read -/
def Source.left : Source → Nat
  | .raw pipe => weight pipe
  | .wav stripper => stripper.left

/-- a read that lets the thread go on leaves less than `n` -/
def Shortens {σ : Type} (left : σ → Nat) (n : Nat) : Except IoError (List UInt8) × σ → Prop
  | (.ok bs, s') => bs ≠ [] → left s' < n
  | (.error e, s') => e.kind = .interrupted → left s' < n

theorem Shortens.mono {σ : Type} {left : σ → Nat} {m n : Nat} (hle : m ≤ n)
    {r : Except IoError (List UInt8) × σ} (h : Shortens left m r) : Shortens left n r := by
  match r, h with
  | (.ok _, _), h => exact fun hne => Nat.lt_of_lt_of_le (h hne) hle
  | (.error _, _), h => exact fun hkind => Nat.lt_of_lt_of_le (h hkind) hle

theorem shortens_receive (room : Nat) (pipe : Pipe) :
    Shortens weight (weight pipe) (receive room pipe) := by
  match h : receive room pipe with
  | (.ok bs, pipe') =>
    intro hne
    have hlen := weight_receive_ok h
    have hpos := List.length_pos_of_ne_nil hne
    omega
  | (.error e, pipe') => exact fun _ => weight_receive_error h

theorem WavHeaderStripper.shortens_read (s : WavHeaderStripper) {room : Nat} (hroom : 0 < room) :
    Shortens WavHeaderStripper.left s.left (s.read room) := by
  fun_induction WavHeaderStripper.read s room with
  | case1 s hpending =>
    intro _
    have hpos := List.length_pos_of_ne_nil hpending
    simp only [left, List.length_drop]
    omega
  | case2 s hpending hdone =>
    have hreceive := shortens_receive room s.inner
    match h : receive room s.inner, hreceive with
    | (.ok bs, inner), hreceive =>
      intro hne
      have hlt := hreceive hne
      simp only [left]
      omega
    | (.error e, inner), hreceive =>
      intro hkind
      have hlt := hreceive hkind
      simp only [left]
      omega
  | case3 s hpending hdone e inner h =>
    intro _
    have hlt := weight_receive_error h
    simp only [left]
    omega
  | case4 => intro h; cases h
  | case5 => intro h; cases h
  | case6 s hpending hdone b bs inner h hscan hlong ih =>
    refine Shortens.mono ?_ ih
    have hlen := weight_receive_ok h
    simp only [left, List.length_append]
    omega
  | case7 => intro h; cases h
  | case8 s hpending hdone b bs inner h offset hscan ih =>
    refine Shortens.mono ?_ ih
    have hlen := weight_receive_ok h
    simp only [left, List.length_append, List.length_drop, List.length_nil]
    omega

theorem Source.shortens_read (source : Source) {room : Nat} (hroom : 0 < room) :
    Shortens Source.left source.left (source.read room) := by
  cases source with
  | raw pipe =>
    have hreceive := shortens_receive room pipe
    simp only [Source.read]
    match h : receive room pipe, hreceive with
    | (.ok _, _), hreceive => exact hreceive
    | (.error _, _), hreceive => exact hreceive
  | wav stripper =>
    have hread := stripper.shortens_read hroom
    simp only [Source.read]
    match h : stripper.read room, hread with
    | (.ok _, _), hread => exact hread
    | (.error _, _), hread => exact hread

/-- a turn of the thread is its last or leaves it less to read -/
theorem readCaptureTurn_left (cap : Nat) (r : Reader) (state : CaptureReaderState) :
    (readCaptureTurn cap r state).1.returned = true ∨
      (readCaptureTurn cap r state).1.source.left < r.source.left := by
  have hread := r.source.shortens_read (by decide : 0 < readBuffer)
  match h : r.source.read readBuffer, hread with
  | (.ok [], _), _ => exact .inl (by rw [readCaptureTurn_end h])
  | (.ok (b :: bs), _), hread =>
    rw [readCaptureTurn_data h]
    exact .inr (hread (by simp))
  | (.error e, _), hread =>
    by_cases hkind : e.kind = .interrupted
    · rw [readCaptureTurn_interrupted h hkind]
      exact .inr (hread hkind)
    · exact .inl (by rw [readCaptureTurn_failed h hkind])

/-- `stop_child` waits for the thread -/
def ActiveCapture.join (c : ActiveCapture) : ActiveCapture :=
  if c.reader.returned then c else c.readTurn.join
termination_by if c.reader.returned then 0 else c.reader.source.left + 1
decreasing_by
  next hreturned =>
  simp only [hreturned, ActiveCapture.readTurn, if_false, Bool.false_eq_true]
  rcases readCaptureTurn_left c.maximum.pcmByteCap c.reader c.state with h | h
  · simp [h]
  · split <;> omega

/-- a sample is heard when it exceeds the silence floor -/
def audible : List UInt8 → Bool
  | a :: b :: rest =>
    let sample := fromLeBytes [a, b]
    decide (32 < if sample < 2 ^ 15 then sample else 2 ^ 16 - sample) || audible rest
  | _ => false

def validateAudio (pcm : List UInt8) : Except BoundaryError Unit :=
  if pcm.isEmpty then
    .error (BoundaryError.new .emptyRecording "pw-record returned no audio frames".toList)
  else if pcm.length < minRecordingBytes then
    .error (BoundaryError.new .tooShortRecording
      ("Recording contained ".toList ++ natText pcm.length ++ " PCM bytes".toList))
  else if audible pcm then .ok ()
  else
    .error (BoundaryError.new .silentRecording
      "Recording peak amplitude did not exceed the silence floor".toList)

/-- the chunks that `finish` drains once the thread was waited for -/
def ActiveCapture.drained (c : ActiveCapture) : List (List UInt8) := c.join.state.chunks

/-- `stopped` is how the process and its readers ended -/
def ActiveCapture.finish (stopped : Except BoundaryError Unit) (c : ActiveCapture) :
    Except BoundaryError CapturedAudio := do
  stopped
  if let some error := c.join.state.error then
    throw (BoundaryError.new .capture error)
  validateAudio (c.join.pcm ++ c.drained.flatten)
  return {
    pcmS16leMono16khz := c.join.pcm ++ c.drained.flatten
    truncatedBy := if c.join.state.bufferCapReached then some .buffer else none }

end Voisu.Capture
