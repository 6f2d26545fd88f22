import Mathlib
import Voisu.Capture.Stream

/-!
# What a capture delivers

The chunks that `next_chunk` yields and `finish` drains are the first bytes of the payload, whatever
the system made of the reads and whenever the caller polled.

* `Served`                 a read takes the first bytes of what a source delivers;
* `Sound`                  the invariant of a capture: what was read, cut at the cap, is in the chunks
                           and in the assembler;
* `run_captures`           **the audio does not depend on the reads, and a refused stream has none**.
-/

namespace Voisu.Capture
open Lib

/-- every error of the pipe is an interruption -/
def OnlyInterrupted (pipe : Pipe) : Prop := ErrorsAre (fun e => e.kind = .interrupted) pipe

/-! ## sources -/

section sources
variable {room : Nat}

/-- a read of a source that delivers `payload` -/
def Served {σ : Type} (delivers : σ → List UInt8 → Prop) (payload : List UInt8) :
    Except IoError (List UInt8) × σ → Prop
  | (.ok bs, s') => ∃ rest, payload = bs ++ rest ∧ delivers s' rest ∧ (bs = [] → payload = [])
  | (.error e, s') => e.kind = .interrupted ∧ delivers s' payload

/-- a read of a source that is refused -/
def Denied {σ : Type} (refuses : σ → Prop) : Except IoError (List UInt8) × σ → Prop
  | (.ok _, _) => False
  | (.error e, s') => e.kind = .interrupted → refuses s'

def PipeDelivers (pipe : Pipe) (payload : List UInt8) : Prop :=
  OnlyInterrupted pipe ∧ payload = symbols pipe

theorem PipeDelivers.receive {pipe : Pipe} {payload : List UInt8} (hroom : 0 < room)
    (h : PipeDelivers pipe payload) : Served PipeDelivers payload (receive room pipe) := by
  obtain ⟨hpipe, rfl⟩ := h
  have hnext : OnlyInterrupted (Lib.receive room pipe).2 := ErrorsAre.receive hpipe
  match hread : Lib.receive room pipe with
  | (.ok bs, pipe') =>
    rw [hread] at hnext
    refine ⟨symbols pipe', symbols_receive hread, ⟨hnext, rfl⟩, ?_⟩
    rintro rfl
    rw [(receive_nil hroom hread).1]
    rfl
  | (.error e, pipe') =>
    rw [hread] at hnext
    have hpipe' := receive_error hread
    subst hpipe'
    exact ⟨hpipe e (by simp), hnext, rfl⟩

/-- the framing of the stripper is not decided yet, and its stream is decided as `scan` -/
structure WavHeaderStripper.Undecided (s : WavHeaderStripper) (scan : WavScan) : Prop where
  pipe : OnlyInterrupted s.inner
  header : s.headerDone = false
  pending : s.pending = []
  part : scanWavPcm s.scan = .incomplete
  whole : scanWavPcm (s.scan ++ symbols s.inner) = scan

inductive WavHeaderStripper.Delivers (s : WavHeaderStripper) : List UInt8 → Prop where
  | done (pipe : OnlyInterrupted s.inner) (header : s.headerDone = true) :
      Delivers s (s.pending ++ symbols s.inner)
  | undecided {o : Nat} (ho : o ≤ maxRetainedStdoutBytes) (h : s.Undecided (.dataAt o)) :
      Delivers s ((s.scan ++ symbols s.inner).drop o)

def WavHeaderStripper.Refuses (s : WavHeaderStripper) : Prop :=
  ∃ reason, s.Undecided (.invalid reason)

/-- while the framing is undecided, what has arrived of it is a prefix of the stream -/
theorem WavHeaderStripper.Undecided.arrived {s : WavHeaderStripper} {scan : WavScan} {b : UInt8}
    {bs : List UInt8} {inner : Pipe} (h : s.Undecided scan)
    (hread : receive pcmChunkBytes s.inner = (.ok (b :: bs), inner)) :
    (s.scan ++ b :: bs) ++ symbols inner = s.scan ++ symbols s.inner ∧
      (scanWavPcm (s.scan ++ b :: bs) = .incomplete ∧
          (∀ o, scan = .dataAt o → (s.scan ++ b :: bs).length < o) ∨
        scanWavPcm (s.scan ++ b :: bs) = scan) := by
  have hwhole : (s.scan ++ b :: bs) ++ symbols inner = s.scan ++ symbols s.inner := by
    rw [symbols_receive hread, List.append_assoc]
  refine ⟨hwhole, ?_⟩
  rw [← h.whole, ← hwhole]
  exact scanWavPcm_prefix (List.prefix_append _ _)

theorem WavHeaderStripper.Undecided.next {s : WavHeaderStripper} {scan : WavScan} {b : UInt8}
    {bs : List UInt8} {inner : Pipe} (h : s.Undecided scan)
    (hread : receive pcmChunkBytes s.inner = (.ok (b :: bs), inner))
    (hpart : scanWavPcm (s.scan ++ b :: bs) = .incomplete) :
    { s with inner, scan := s.scan ++ b :: bs : WavHeaderStripper }.Undecided scan := by
  have hpipe : OnlyInterrupted (receive pcmChunkBytes s.inner).2 := ErrorsAre.receive h.pipe
  rw [hread] at hpipe
  exact ⟨hpipe, h.header, h.pending, hpart, by rw [(h.arrived hread).1, h.whole]⟩

/-- an interruption leaves the stream as it was -/
theorem WavHeaderStripper.Undecided.interrupted {s : WavHeaderStripper} {scan : WavScan}
    {e : IoError} {inner : Pipe} (h : s.Undecided scan)
    (hread : receive pcmChunkBytes s.inner = (.error e, inner)) :
    e.kind = .interrupted ∧ symbols s.inner = symbols inner ∧
      { s with inner : WavHeaderStripper }.Undecided scan := by
  have hpipe : OnlyInterrupted (receive pcmChunkBytes s.inner).2 := ErrorsAre.receive h.pipe
  rw [hread] at hpipe
  have hinner := receive_error hread
  have hsym : symbols s.inner = symbols inner := by rw [hinner]; rfl
  refine ⟨h.pipe e (by rw [hinner]; exact List.mem_cons_self), hsym, ?_⟩
  exact ⟨hpipe, h.header, h.pending, h.part, by rw [← hsym, h.whole]⟩

/-- a stream that was decided does not end undecided -/
theorem WavHeaderStripper.Undecided.not_ended {s : WavHeaderStripper} {scan : WavScan}
    {inner : Pipe} (h : s.Undecided scan) (hscan : scan ≠ .incomplete)
    (hread : receive pcmChunkBytes s.inner = (.ok [], inner)) : False := by
  have hwhole := h.whole
  rw [(receive_nil (by decide) hread).1] at hwhole
  refine hscan (hwhole.symm.trans ?_)
  rw [show s.scan ++ symbols ([] : Pipe) = s.scan from List.append_nil _, h.part]

theorem WavHeaderStripper.Delivers.read {s : WavHeaderStripper} {payload : List UInt8}
    (hroom : 0 < room) (h : s.Delivers payload) :
    Served WavHeaderStripper.Delivers payload (s.read room) := by
  fun_induction WavHeaderStripper.read s room with
  | case1 s hpending =>
    cases h with
    | done hpipe hheader =>
      refine ⟨s.pending.drop room ++ symbols s.inner, ?_, .done hpipe hheader, ?_⟩
      · rw [← List.append_assoc, List.take_append_drop]
      · intro hnil
        rcases List.take_eq_nil_iff.1 hnil with hzero | hnil
        · omega
        · exact absurd hnil hpending
    | undecided _ hund => exact absurd hund.pending hpending
  | case2 s hpending hdone =>
    cases h with
    | done hpipe _ =>
      have hserved := PipeDelivers.receive hroom ⟨hpipe, rfl⟩
      rw [not_not.1 hpending, List.nil_append]
      generalize receive room s.inner = served at hserved ⊢
      obtain ⟨result, inner⟩ := served
      cases result with
      | ok bs =>
        obtain ⟨rest, hrest, ⟨hinner, hsym⟩, hnil⟩ := hserved
        refine ⟨rest, hrest, ?_, hnil⟩
        have hgo : WavHeaderStripper.Delivers { s with inner } (s.pending ++ symbols inner) :=
          .done hinner hdone
        rwa [not_not.1 hpending, List.nil_append, ← hsym] at hgo
      | error e =>
        obtain ⟨hkind, hinner, hsym⟩ := hserved
        refine ⟨hkind, ?_⟩
        have hgo : WavHeaderStripper.Delivers { s with inner } (s.pending ++ symbols inner) :=
          .done hinner hdone
        rwa [not_not.1 hpending, List.nil_append, ← hsym] at hgo
    | undecided _ hund => exact absurd (hund.header.symm.trans hdone) (by decide)
  | case3 s hpending hdone e inner hread =>
    cases h with
    | done _ hheader => exact absurd hheader hdone
    | undecided ho hund =>
      obtain ⟨hkind, hsym, hnext⟩ := hund.interrupted hread
      rw [hsym]
      exact ⟨hkind, .undecided ho hnext⟩
  | case4 s hpending hdone inner hread =>
    cases h with
    | done _ hheader => exact absurd hheader hdone
    | undecided ho hund => exact (hund.not_ended (by simp) hread).elim
  | case5 s hpending hdone b bs inner hread hscan hlong =>
    cases h with
    | done _ hheader => exact absurd hheader hdone
    | undecided ho hund =>
      -- a prefix within the bound that is undecided has not reached the payload
      rcases (hund.arrived hread).2 with ⟨-, hlt⟩ | hsame
      · have := hlt _ rfl
        omega
      · cases hscan.symm.trans hsame
  | case6 s hpending hdone b bs inner hread hscan hlong ih =>
    cases h with
    | done _ hheader => exact absurd hheader hdone
    | undecided ho hund =>
      refine ih ?_
      rw [← (hund.arrived hread).1]
      exact .undecided ho (hund.next hread hscan)
  | case7 s hpending hdone b bs inner hread reason hscan =>
    cases h with
    | done _ hheader => exact absurd hheader hdone
    | undecided ho hund =>
      rcases (hund.arrived hread).2 with ⟨hpart, -⟩ | hsame
      · cases hpart.symm.trans hscan
      · cases hscan.symm.trans hsame
  | case8 s hpending hdone b bs inner hread offset hscan ih =>
    cases h with
    | done _ hheader => exact absurd hheader hdone
    | @undecided o ho hund =>
      obtain ⟨hwhole, hpart⟩ := hund.arrived hread
      have hoff : offset = o := by
        rcases hpart with ⟨hpart, -⟩ | hsame
        · cases hpart.symm.trans hscan
        · exact WavScan.dataAt.inj (hscan.symm.trans hsame)
      subst hoff
      have hpipe : OnlyInterrupted (receive pcmChunkBytes s.inner).2 := ErrorsAre.receive hund.pipe
      rw [hread] at hpipe
      refine ih ?_
      rw [← hwhole, List.drop_append_of_le_length (scanWavPcm_bounds hscan).2]
      exact .done hpipe rfl

theorem WavHeaderStripper.Refuses.read {s : WavHeaderStripper} (h : s.Refuses) :
    Denied WavHeaderStripper.Refuses (s.read room) := by
  obtain ⟨reason, h⟩ := h
  fun_induction WavHeaderStripper.read s room with
  | case1 s hpending => exact absurd h.pending hpending
  | case2 s hpending hdone => exact absurd (h.header.symm.trans hdone) (by decide)
  | case3 s hpending hdone e inner hread => exact fun _ => ⟨reason, (h.interrupted hread).2.2⟩
  | case4 s hpending hdone inner hread => exact (h.not_ended (by simp) hread).elim
  | case5 => intro hkind; cases hkind
  | case6 s hpending hdone b bs inner hread hscan hlong ih => exact ih (h.next hread hscan)
  | case7 => intro hkind; cases hkind
  | case8 s hpending hdone b bs inner hread offset hscan ih =>
    rcases (h.arrived hread).2 with ⟨hpart, -⟩ | hsame
    · cases hpart.symm.trans hscan
    · cases hscan.symm.trans hsame

def Source.Delivers : Source → List UInt8 → Prop
  | .raw pipe => PipeDelivers pipe
  | .wav stripper => stripper.Delivers

def Source.Refuses : Source → Prop
  | .raw _ => False
  | .wav stripper => stripper.Refuses

theorem Source.Delivers.read {source : Source} {payload : List UInt8} (hroom : 0 < room)
    (h : source.Delivers payload) : Served Source.Delivers payload (source.read room) := by
  cases source with
  | raw pipe =>
    have hserved := PipeDelivers.receive hroom h
    simp only [Source.read]
    generalize receive room pipe = served at hserved ⊢
    obtain ⟨result, pipe'⟩ := served
    cases result with
    | ok _ => exact hserved
    | error _ => exact hserved
  | wav stripper =>
    have hserved := WavHeaderStripper.Delivers.read hroom h
    simp only [Source.read]
    generalize stripper.read room = served at hserved ⊢
    obtain ⟨result, stripper'⟩ := served
    cases result with
    | ok _ => exact hserved
    | error _ => exact hserved

theorem Source.Refuses.read {source : Source} (h : source.Refuses) :
    Denied Source.Refuses (source.read room) := by
  cases source with
  | raw pipe => exact h.elim
  | wav stripper =>
    have hdenied : Denied WavHeaderStripper.Refuses (stripper.read room) :=
      WavHeaderStripper.Refuses.read h
    simp only [Source.read]
    generalize stripper.read room = denied at hdenied ⊢
    obtain ⟨result, stripper'⟩ := denied
    cases result with
    | ok _ => exact hdenied.elim
    | error _ => exact hdenied

end sources

/-! ## the bytes that are retained -/

/-- the chunks that were made of `read`, with what the assembler still holds -/
structure Retained (cap : Nat) (read : List UInt8) (chunks : List (List UInt8))
    (pending : List UInt8) (state : CaptureReaderState) : Prop where
  received : state.receivedBytes = min read.length usizeMax
  bytes : chunks.flatten ++ pending = read.take cap
  whole : ∀ chunk ∈ chunks, chunk.length = pcmChunkBytes
  short : pending.length < pcmChunkBytes
  capReached : state.bufferCapReached = decide (cap < read.length)

theorem Retained.initial (cap : Nat) : Retained cap [] [] [] .initial where
  received := rfl
  bytes := by simp
  whole := by simp
  short := by decide
  capReached := by simp [CaptureReaderState.initial]

/-- what a push makes of the bytes, also of none -/
theorem assemblerPush_spec (bytes : List UInt8) (n : Nat) {pending : List UInt8}
    {pushed : List (List UInt8) × List UInt8} (hshort : pending.length < pcmChunkBytes)
    (h : pushed = if 0 < n then assemblerPush pending (bytes.take n) else ([], pending)) :
    pushed.1.flatten ++ pushed.2 = pending ++ bytes.take n ∧
      (∀ chunk ∈ pushed.1, chunk.length = pcmChunkBytes) ∧ pushed.2.length < pcmChunkBytes := by
  subst h
  by_cases hn : 0 < n
  · rw [if_pos hn]
    exact ⟨flatten_pieces _ _, fun _ hchunk => length_of_mem_pieces hchunk,
      length_pieces_lt _ (by decide)⟩
  · rw [if_neg hn, Nat.eq_zero_of_not_pos hn]
    exact ⟨by simp, by simp, hshort⟩

/-- the chunks before those of the queue stay as they are -/
theorem Retained.retain {cap : Nat} {read pending bytes : List UInt8} {prev : List (List UInt8)}
    {state : CaptureReaderState} (hcap : cap ≤ usizeMax) (hbytes : bytes ≠ [])
    (h : Retained cap read (prev ++ state.chunks) pending state) :
    Retained cap (read ++ bytes) (prev ++ (retain cap bytes pending state).2.chunks)
      (retain cap bytes pending state).1 (retain cap bytes pending state).2 := by
  have hpos := List.length_pos_of_ne_nil hbytes
  have hroom : cap - state.receivedBytes = cap - read.length := by
    rw [h.received]
    omega
  have htake : bytes.take (min bytes.length (cap - read.length)) = bytes.take (cap - read.length) := by
    rw [Nat.min_comm, ← List.take_eq_take_min]
  obtain ⟨hflat, hwhole, hshort⟩ :=
    assemblerPush_spec bytes (min bytes.length (cap - read.length)) h.short rfl
  simp only [Capture.retain, hroom]
  constructor
  · simp only [saturatingAdd, h.received, List.length_append]
    omega
  · rw [← List.append_assoc, List.flatten_append, List.append_assoc, hflat, htake,
      ← List.append_assoc, h.bytes, List.take_append]
  · intro chunk hchunk
    rw [← List.append_assoc] at hchunk
    rcases List.mem_append.1 hchunk with hold | hnew
    · exact h.whole chunk hold
    · exact hwhole chunk hnew
  · exact hshort
  · simp only [h.capReached, List.length_append]
    rw [← Bool.decide_or, decide_eq_decide]
    omega

/-- the last chunk is what the assembler held -/
theorem Retained.finish {cap : Nat} {read pending : List UInt8} {chunks : List (List UInt8)}
    {state : CaptureReaderState} (h : Retained cap read chunks pending state) :
    (chunks ++ assemblerFinish pending).flatten = read.take cap ∧
      ∀ chunk ∈ (chunks ++ assemblerFinish pending).dropLast, chunk.length = pcmChunkBytes := by
  rw [← h.bytes]
  simp only [assemblerFinish]
  split
  next hnil =>
    rw [List.isEmpty_iff.1 hnil, List.append_nil, List.append_nil]
    exact ⟨rfl, fun chunk hchunk => h.whole chunk (List.dropLast_subset _ hchunk)⟩
  next hne =>
    rw [List.dropLast_concat]
    exact ⟨by simp, h.whole⟩

/-! ## captures -/

/-- the chunks of a capture, yielded or queued -/
def ActiveCapture.chunks (c : ActiveCapture) : List (List UInt8) := c.yielded ++ c.state.chunks

/-- the thread has read `read`, and `rest` of the payload is still to come -/
def ActiveCapture.Reading (payload : List UInt8) (c : ActiveCapture) : Prop :=
  ∃ read rest, payload = read ++ rest ∧ c.reader.source.Delivers rest ∧
    Retained c.maximum.pcmByteCap read c.chunks c.reader.pending c.state

/-- the thread has read the payload -/
structure ActiveCapture.Complete (payload : List UInt8) (c : ActiveCapture) : Prop where
  bytes : c.chunks.flatten = payload.take c.maximum.pcmByteCap
  whole : ∀ chunk ∈ c.chunks.dropLast, chunk.length = pcmChunkBytes
  capReached : c.state.bufferCapReached = decide (c.maximum.pcmByteCap < payload.length)

structure ActiveCapture.Sound (payload : List UInt8) (c : ActiveCapture) : Prop where
  pcm : c.pcm = c.yielded.flatten
  error : c.state.error = none
  reading : c.reader.returned = false → c.Reading payload
  complete : c.reader.returned = true → c.Complete payload

/-- nothing of a refused stream is queued, and its end is an error -/
structure ActiveCapture.Refused (c : ActiveCapture) : Prop where
  returned : ∀ r ∈ c.returned, ∃ error, r = .error error
  chunks : c.state.chunks = []
  reading : c.reader.returned = false →
    c.reader.source.Refuses ∧ c.state.error = none ∧ c.state.eof = false ∧
      c.state.bufferCapReached = false
  failed : c.reader.returned = true → c.state.error.isSome

/-! ## polls -/

/-- a poll moves chunks from the queue to the caller -/
structure ActiveCapture.Polled (c c' : ActiveCapture) : Prop where
  chunks : c'.chunks = c.chunks
  pcm : c.pcm = c.yielded.flatten → c'.pcm = c'.yielded.flatten
  reader : c'.reader = c.reader
  maximum : c'.maximum = c.maximum
  state : c'.state = { c.state with chunks := c'.state.chunks }

theorem ActiveCapture.yielded_returns {c : ActiveCapture}
    {r : Except BoundaryError (Option (List UInt8))} (hr : ∀ chunk, r ≠ .ok (some chunk)) :
    (c.returns r).yielded = c.yielded := by
  simp only [yielded, returns, List.filterMap_append]
  match r, hr with
  | .ok (some chunk), hr => exact absurd rfl (hr chunk)
  | .ok none, _ => exact List.append_nil _
  | .error _, _ => exact List.append_nil _

theorem ActiveCapture.yielded_returns_chunk (c : ActiveCapture) (chunk : List UInt8) :
    (c.returns (.ok (some chunk))).yielded = c.yielded ++ [chunk] := by
  simp only [yielded, returns, List.filterMap_append]
  rfl

theorem ActiveCapture.polled_returns {c : ActiveCapture}
    {r : Except BoundaryError (Option (List UInt8))} (hr : ∀ chunk, r ≠ .ok (some chunk)) :
    c.Polled (c.returns r) where
  chunks := congrArg (· ++ c.state.chunks) (yielded_returns hr)
  pcm := fun h => h.trans (congrArg List.flatten (yielded_returns hr).symm)
  reader := rfl
  maximum := rfl
  state := rfl

theorem ActiveCapture.polled_nextChunk (elapsed : Bool) (c : ActiveCapture) :
    c.Polled (c.nextChunk elapsed) := by
  simp only [nextChunk]
  split
  next => exact polled_returns (by simp)
  next =>
    split
    next => exact polled_returns (by simp)
    next =>
      split
      next chunk rest hchunks =>
        refine ⟨?_, ?_, rfl, rfl, rfl⟩
        · rw [ActiveCapture.chunks, yielded_returns_chunk, ActiveCapture.chunks, hchunks]
          exact List.append_cons _ _ _ |>.symm
        · intro hpcm
          rw [yielded_returns_chunk]
          show c.pcm ++ chunk = (c.yielded ++ [chunk]).flatten
          simp [hpcm]
      next hchunks =>
        split
        next => exact polled_returns (by simp)
        next => exact ⟨rfl, id, rfl, rfl, rfl⟩

section steps
variable {payload : List UInt8} {c : ActiveCapture}

theorem ActiveCapture.Sound.nextChunk (elapsed : Bool) (h : c.Sound payload) :
    (c.nextChunk elapsed).Sound payload := by
  have hpoll := c.polled_nextChunk elapsed
  refine ⟨hpoll.pcm h.pcm, ?_, fun hrun => ?_, fun hend => ?_⟩
  · rw [hpoll.state]
    exact h.error
  · rw [hpoll.reader] at hrun
    obtain ⟨read, rest, hpayload, hsource, hret⟩ := h.reading hrun
    refine ⟨read, rest, hpayload, by rw [hpoll.reader]; exact hsource, ?_⟩
    rw [hpoll.chunks, hpoll.reader, hpoll.maximum, hpoll.state]
    exact ⟨hret.received, hret.bytes, hret.whole, hret.short, hret.capReached⟩
  · rw [hpoll.reader] at hend
    have hdone := h.complete hend
    refine ⟨?_, ?_, ?_⟩
    · rw [hpoll.chunks, hpoll.maximum]
      exact hdone.bytes
    · rw [hpoll.chunks]
      exact hdone.whole
    · rw [hpoll.state, hpoll.maximum]
      exact hdone.capReached

theorem ActiveCapture.Sound.readTurn (h : c.Sound payload) : c.readTurn.Sound payload := by
  simp only [ActiveCapture.readTurn]
  split
  next => exact h
  next hreturned =>
    have hrun : c.reader.returned = false := by simpa using hreturned
    obtain ⟨read, rest, hpayload, hsource, hret⟩ := h.reading hrun
    have hserved := hsource.read (by decide : 0 < readBuffer)
    match hread : c.reader.source.read readBuffer, hserved with
    | (.ok [], source), ⟨_, _, _, hnil⟩ =>
      rw [readCaptureTurn_end hread]
      refine ⟨h.pcm, h.error, nofun, fun _ => ?_⟩
      have hfin := hret.finish
      rw [hnil rfl, List.append_nil] at hpayload
      subst hpayload
      rw [ActiveCapture.chunks, List.append_assoc] at hfin
      exact ⟨hfin.1, hfin.2, hret.capReached⟩
    | (.ok (b :: bs), source), ⟨rest', hrest, hsource', _⟩ =>
      rw [readCaptureTurn_data hread]
      refine ⟨h.pcm, h.error, fun _ => ?_, fun hend => absurd (hrun.symm.trans hend) (by decide)⟩
      refine ⟨read ++ b :: bs, rest', by rw [hpayload, hrest, List.append_assoc], hsource', ?_⟩
      exact hret.retain c.maximum.cap_le (by simp)
    | (.error e, source), ⟨hkind, hsource'⟩ =>
      rw [readCaptureTurn_interrupted hread hkind]
      refine ⟨h.pcm, h.error, fun _ => ?_, fun hend => absurd (hrun.symm.trans hend) (by decide)⟩
      exact ⟨read, rest, hpayload, hsource', hret⟩

theorem ActiveCapture.Refused.nextChunk (elapsed : Bool) (h : c.Refused) :
    (c.nextChunk elapsed).Refused := by
  have hsays : ∀ error, (c.returns (.error error)).Refused := by
    intro error
    refine ⟨?_, h.chunks, h.reading, h.failed⟩
    intro r hr
    rcases List.mem_append.1 hr with hr | hr
    · exact h.returned r hr
    · exact ⟨error, List.mem_singleton.1 hr⟩
  simp only [ActiveCapture.nextChunk]
  split
  next => exact hsays _
  next =>
    split
    next => exact hsays _
    next herror =>
      rw [h.chunks]
      -- the thread has not returned: its last turn would have left an error
      have hrun : c.reader.returned = false := by
        rw [Bool.eq_false_iff]
        intro hend
        have := h.failed hend
        rw [herror] at this
        cases this
      obtain ⟨-, -, heof, hcap⟩ := h.reading hrun
      rw [heof, hcap]
      exact h

theorem ActiveCapture.Refused.readTurn (h : c.Refused) : c.readTurn.Refused := by
  simp only [ActiveCapture.readTurn]
  split
  next => exact h
  next hreturned =>
    have hrun : c.reader.returned = false := by simpa using hreturned
    obtain ⟨hsource, hstate⟩ := h.reading hrun
    have hdenied : Denied Source.Refuses (c.reader.source.read readBuffer) := hsource.read
    match hread : c.reader.source.read readBuffer, hdenied with
    | (.error e, source), hdenied =>
      by_cases hkind : e.kind = .interrupted
      · rw [readCaptureTurn_interrupted hread hkind]
        exact ⟨h.returned, h.chunks, fun _ => ⟨hdenied hkind, hstate⟩, h.failed⟩
      · rw [readCaptureTurn_failed hread hkind]
        exact ⟨h.returned, h.chunks, nofun, fun _ => rfl⟩

end steps

/-! ## runs -/

/-- what a turn of the thread keeps, waiting for the thread keeps -/
theorem ActiveCapture.join_induction {P : ActiveCapture → Prop} (hturn : ∀ c, P c → P c.readTurn)
    {c : ActiveCapture} (h : P c) : P c.join ∧ c.join.reader.returned = true := by
  fun_induction ActiveCapture.join c with
  | case1 c hreturned => exact ⟨h, hreturned⟩
  | case2 c hreturned ih => exact ih (hturn c h)

theorem ActiveCapture.run_induction {P : ActiveCapture → Prop} (hturn : ∀ c, P c → P c.readTurn)
    (hpoll : ∀ c elapsed, P c → P (c.nextChunk elapsed)) (events : List Event) {c : ActiveCapture}
    (h : P c) : P (c.run events) := by
  induction events generalizing c with
  | nil => exact h
  | cons event events ih =>
    refine ih ?_
    cases event with
    | readTurn => exact hturn c h
    | nextChunk elapsed => exact hpoll c elapsed h

/-- the thread does not touch what the caller has -/
theorem ActiveCapture.join_frame (c : ActiveCapture) :
    c.join.yielded = c.yielded ∧ c.join.maximum = c.maximum := by
  refine (join_induction (P := fun d => d.yielded = c.yielded ∧ d.maximum = c.maximum) ?_
    ⟨rfl, rfl⟩).1
  intro d hd
  simp only [readTurn]
  split
  · exact hd
  · exact hd

theorem ActiveCapture.run_maximum (c : ActiveCapture) (events : List Event) :
    (c.run events).maximum = c.maximum := by
  refine run_induction (P := fun d => d.maximum = c.maximum) ?_ ?_ events rfl
  · intro d hd
    simp only [readTurn]
    split
    · exact hd
    · exact hd
  · intro d elapsed hd
    exact (d.polled_nextChunk elapsed).maximum.trans hd

/-! ## what is delivered -/

/-- the payload of a stream; a WAV stream has one where its framing ends within the bound -/
def Payload (probe : PwRecordProbe) (stream payload : List UInt8) : Prop :=
  match probe with
  | .raw => payload = stream
  | _ => ∃ offset ≤ maxRetainedStdoutBytes,
      scanWavPcm stream = .dataAt offset ∧ payload = stream.drop offset

/-- the capture delivers the payload up to its cap, in chunks of one size but for the last -/
structure ActiveCapture.Captures (c : ActiveCapture) (payload : List UInt8) : Prop where
  audio : (c.yielded ++ c.drained).flatten = payload.take c.maximum.pcmByteCap
  chunks : ∀ chunk ∈ (c.yielded ++ c.drained).dropLast, chunk.length = pcmChunkBytes
  truncated : c.join.state.bufferCapReached = true ↔ c.maximum.pcmByteCap < payload.length
  finish : c.finish (.ok ()) =
    (validateAudio (payload.take c.maximum.pcmByteCap)).map fun _ =>
      { pcmS16leMono16khz := payload.take c.maximum.pcmByteCap
        truncatedBy := if c.maximum.pcmByteCap < payload.length then some .buffer else none }

/-- the capture delivers nothing but errors -/
structure ActiveCapture.Fails (c : ActiveCapture) : Prop where
  yielded : c.yielded = []
  drained : c.drained = []
  returned : ∀ r ∈ c.returned, ∃ error, r = .error error
  finish : ∀ stopped, ∃ error, c.finish stopped = .error error

theorem ActiveCapture.Sound.captures {payload : List UInt8} {c : ActiveCapture}
    (h : c.Sound payload) : c.Captures payload := by
  obtain ⟨hjoin, hreturned⟩ :=
    join_induction (P := fun d => d.Sound payload) (fun _ hd => hd.readTurn) h
  obtain ⟨hyielded, hmax⟩ := c.join_frame
  have hdone := hjoin.complete hreturned
  have hchunks : c.join.chunks = c.yielded ++ c.drained := by
    rw [ActiveCapture.chunks, hyielded]
    rfl
  have hbytes := hdone.bytes
  have hcap := hdone.capReached
  rw [hmax] at hbytes hcap
  have hpcm : c.join.pcm ++ c.drained.flatten = payload.take c.maximum.pcmByteCap := by
    rw [hjoin.pcm, ← hbytes, hchunks, List.flatten_append, hyielded]
  refine ⟨hchunks ▸ hbytes, hchunks ▸ hdone.whole, by simp [hcap], ?_⟩
  simp only [ActiveCapture.finish, hjoin.error, hpcm, hcap, decide_eq_true_eq]
  cases validateAudio (payload.take c.maximum.pcmByteCap) <;> rfl

theorem ActiveCapture.Refused.fails {c : ActiveCapture} (h : c.Refused) : c.Fails := by
  obtain ⟨hjoin, hreturned⟩ := join_induction (P := ActiveCapture.Refused) (fun _ hd => hd.readTurn) h
  refine ⟨?_, hjoin.chunks, h.returned, fun stopped => ?_⟩
  · rw [ActiveCapture.yielded, List.filterMap_eq_nil_iff]
    intro r hr
    obtain ⟨error, rfl⟩ := h.returned r hr
    rfl
  · obtain ⟨error, herror⟩ := Option.isSome_iff_exists.1 (hjoin.failed hreturned)
    cases stopped with
    | error e => exact ⟨e, rfl⟩
    | ok _ => exact ⟨BoundaryError.new .capture error, by simp only [finish, herror]; rfl⟩

theorem sound_begin {probe : PwRecordProbe} {stdout : Pipe} {payload : List UInt8}
    (maximum : RecordingMaximum) (hreads : OnlyInterrupted stdout)
    (h : Payload probe (symbols stdout) payload) : (begin probe stdout maximum).Sound payload := by
  refine ⟨rfl, rfl, fun _ => ?_, nofun⟩
  refine ⟨[], payload, rfl, ?_, Retained.initial _⟩
  have hwav : ∀ offset ≤ maxRetainedStdoutBytes, scanWavPcm (symbols stdout) = .dataAt offset →
      (Source.wav (WavHeaderStripper.new stdout)).Delivers ((symbols stdout).drop offset) :=
    fun offset hle hscan => .undecided hle ⟨hreads, rfl, rfl, scanWavPcm_nil, hscan⟩
  cases probe with
  | raw => exact ⟨hreads, h⟩
  | unavailable =>
    obtain ⟨offset, hle, hscan, rfl⟩ := h
    exact hwav offset hle hscan
  | wav =>
    obtain ⟨offset, hle, hscan, rfl⟩ := h
    exact hwav offset hle hscan

theorem refused_begin {probe : PwRecordProbe} {stdout : Pipe} {reason : Text}
    (maximum : RecordingMaximum) (hreads : OnlyInterrupted stdout) (hprobe : probe ≠ .raw)
    (h : scanWavPcm (symbols stdout) = .invalid reason) : (begin probe stdout maximum).Refused := by
  refine ⟨nofun, rfl, fun _ => ⟨?_, rfl, rfl, rfl⟩, nofun⟩
  simp only [begin, hprobe, if_false]
  exact ⟨reason, hreads, rfl, rfl, scanWavPcm_nil, h⟩

/-- **whatever the sizes and the interruptions of the reads and whenever the caller polls, a capture
delivers the payload of its stream up to the cap; of a stream that is refused it delivers nothing** -/
theorem run_captures (probe : PwRecordProbe) (stdout : Pipe) (maximum : RecordingMaximum)
    (events : List Event) (hreads : OnlyInterrupted stdout) :
    (∀ payload, Payload probe (symbols stdout) payload →
        ((begin probe stdout maximum).run events).maximum = maximum ∧
        ((begin probe stdout maximum).run events).Captures payload) ∧
      (∀ reason, probe ≠ .raw → scanWavPcm (symbols stdout) = .invalid reason →
        ((begin probe stdout maximum).run events).Fails) := by
  constructor
  · intro payload hpayload
    refine ⟨ActiveCapture.run_maximum _ events, ActiveCapture.Sound.captures ?_⟩
    exact ActiveCapture.run_induction (fun _ hc => hc.readTurn)
      (fun _ elapsed hc => hc.nextChunk elapsed) events (sound_begin maximum hreads hpayload)
  · intro reason hprobe hscan
    refine ActiveCapture.Refused.fails ?_
    exact ActiveCapture.run_induction (fun _ hc => hc.readTurn)
      (fun _ elapsed hc => hc.nextChunk elapsed) events (refused_begin maximum hreads hprobe hscan)

/-- the header that `pw-record` writes, with the sizes of a stream -/
def canonicalHeader : List UInt8 :=
  riff ++ [0xff, 0xff, 0xff, 0xff] ++ wave ++ fmtId ++ [16, 0, 0, 0] ++
    [1, 0, 1, 0, 0x80, 0x3e, 0, 0, 0, 0x7d, 0, 0, 2, 0, 16, 0] ++ dataId ++ [0xff, 0xff, 0xff, 0xff]

/-- the header in two reads with an interruption between them, the second with the first samples -/
def splitHeader : Pipe :=
  [.data 0x52 [0x49], .error { kind := .interrupted, text := [] },
    .data 0x46 (canonicalHeader.drop 3 ++ [1, 2]), .data 3 [4, 5]]

theorem run_captures_splitHeader :
    ((begin .wav splitHeader ⟨3, by decide⟩).run [.readTurn, .nextChunk false]).Captures
      [1, 2, 3, 4, 5] :=
  ((run_captures .wav splitHeader ⟨3, by decide⟩ [.readTurn, .nextChunk false]
    (by simp [OnlyInterrupted, ErrorsAre, splitHeader])).1 [1, 2, 3, 4, 5]
    ⟨44, by decide, by decide +kernel, by decide +kernel⟩).2

end Voisu.Capture
