import Mathlib
import Voisu.Deepgram.Stream

/-!
# No gap in a Deepgram transcript

A stream completes only where the server confirmed a connection that took everything.  The invariant
follows the frames: those that the connections took, the pending one and those in the channel are, in
this order, those that the owner handed over; a connection that was lost took no audio.

* `Tracks`                   the frames and the segments, along every run;
* `Drains`                   a connection that took `CloseStream`, and what it saw since;
* `complete_confirmed`       **a completed stream was confirmed by one connection that took the whole
                             audio**.
-/

namespace Voisu.Deepgram
namespace DeepgramStream
variable {Confidence : Type} {decoder : Decoder Confidence} {st : DeepgramStream Confidence}

/-! ## what the connections saw -/

/-- the frames that a connection took -/
def sent (log : List Happening) : List DeepgramOutbound :=
  log.filterMap fun h =>
    match h with
    | .accepted frame => some frame
    | _ => none

/-- the segments of the final transcripts that a connection received -/
def segmentsOf (decoder : Decoder Confidence) (log : List Happening) : List Text :=
  log.flatMap fun h =>
    match h with
    | .received (.text text) => ((finalTranscript decoder text).map segmentOf).getD []
    | _ => []

theorem sent_append (a b : List Happening) : sent (a ++ b) = sent a ++ sent b :=
  List.filterMap_append

theorem segmentsOf_append (a b : List Happening) :
    segmentsOf decoder (a ++ b) = segmentsOf decoder a ++ segmentsOf decoder b :=
  List.flatMap_append

/-- the connections of a stream -/
def connections (st : DeepgramStream Confidence) : List (List Happening) := st.past ++ [st.current]

/-- the frames that were taken, by whichever connection -/
def allSent (st : DeepgramStream Confidence) : List DeepgramOutbound := st.connections.flatMap sent

theorem allSent_eq (st : DeepgramStream Confidence) :
    st.allSent = st.past.flatMap sent ++ sent st.current := by
  simp [allSent, connections]

/-! ## the invariant -/

/-- `tail` is what `complete` handed over -/
structure Tracks (decoder : Decoder Confidence) (tail : List DeepgramOutbound)
    (st : DeepgramStream Confidence) : Prop where
  open_tail : st.outbound = true → tail = []
  closed_tail : st.outbound = false → .closeStream ∈ tail
  order : st.allSent ++ st.pending.toList ++ st.channel = st.streamed.map DeepgramOutbound.audio ++ tail
  delivered : st.audioDelivered = st.allSent.any DeepgramOutbound.isAudio
  past : ∀ frame ∈ st.past.flatMap sent, frame = .finalize
  segments : st.transcript.segments = st.connections.flatMap (segmentsOf decoder)

/-- a connection that took `CloseStream`; it was confirmed where `seen` -/
def Drains (decoder : Decoder Confidence) (seen : Bool) (log : List Happening) : Prop :=
  ∃ before after, log = before ++ Happening.accepted .closeStream :: after ∧ sent after = [] ∧
    (seen = true → ∃ text, .received (.text text) ∈ after ∧ isMetadata decoder text = true)

/-- a connection that is driven has nothing pending -/
structure Driven (decoder : Decoder Confidence) (st : DeepgramStream Confidence)
    (draining seen : Bool) : Prop where
  pending : st.pending = none
  forwarding : draining = false → seen = false ∧ .closeStream ∉ sent st.current
  drains : draining = true → Drains decoder seen st.current

/-- the connection was confirmed, and closed then -/
def Confirmed (decoder : Decoder Confidence) (log : List Happening) : Prop :=
  ∃ before after closed,
    log = before ++ Happening.accepted .closeStream :: (after ++ [Happening.received closed]) ∧
    (closed = .close ∨ closed = .ended) ∧ sent after = [] ∧
    ∃ text, .received (.text text) ∈ after ∧ isMetadata decoder text = true

def Sound (decoder : Decoder Confidence) (tail : List DeepgramOutbound)
    (st : DeepgramStream Confidence) : Prop :=
  match st.phase with
  | .dialing => Tracks decoder tail st ∧ st.current = []
  | .driving draining seen => Tracks decoder tail st ∧ Driven decoder st draining seen
  | .over (.error _) => True
  | .over (.ok ()) =>
    Tracks decoder tail st ∧ st.outbound = false ∧ st.pending = none ∧ Confirmed decoder st.current

/-! ## steps -/

section steps
variable {tail : List DeepgramOutbound}

theorem sound_ends_error (st : DeepgramStream Confidence) (error : BoundaryError) :
    Sound decoder tail (st.ends (.error error)) := trivial

theorem Tracks.ends (h : Tracks decoder tail st) (result : Except BoundaryError Unit) :
    Tracks decoder tail (st.ends result) :=
  ⟨h.open_tail, h.closed_tail, h.order, h.delivered, h.past, h.segments⟩

theorem Tracks.sound {draining seen : Bool} (h : Tracks decoder tail st)
    (hdriven : Driven decoder st draining seen) (hphase : st.phase = .driving draining seen) :
    Sound decoder tail st := by
  rw [Sound, hphase]
  exact ⟨h, hdriven⟩

/-- a connection that is lost took no audio: it is redialed, or the stream fails -/
theorem Tracks.lost (h : Tracks decoder tail st) (hclose : .closeStream ∉ sent st.current) :
    Sound decoder tail st.lost := by
  simp only [DeepgramStream.lost]
  split
  next => exact sound_ends_error _ _
  next hdelivered =>
    split
    next => exact sound_ends_error _ _
    next =>
      have hall : st.allSent.any DeepgramOutbound.isAudio = false := by
        rw [← h.delivered]
        simpa using hdelivered
      refine ⟨⟨h.open_tail, h.closed_tail, ?_, ?_, ?_, ?_⟩, rfl⟩
      · rw [← h.order]
        simp [allSent, connections, sent]
      · rw [h.delivered]
        simp [allSent, connections, sent]
      · intro frame hframe
        rw [List.flatMap_append, List.flatMap_singleton] at hframe
        rcases List.mem_append.1 hframe with hpast | hcurrent
        · exact h.past frame hpast
        · match frame with
          | .audio bytes =>
            have hmem : DeepgramOutbound.audio bytes ∈ st.allSent := by
              rw [allSent_eq]
              exact List.mem_append_right _ hcurrent
            exact absurd (List.any_eq_false.1 hall _ hmem) (by simp [DeepgramOutbound.isAudio])
          | .finalize => rfl
          | .closeStream => exact absurd hcurrent hclose
      · rw [h.segments]
        simp [connections, segmentsOf]

/-- the frame in flight counts as pending -/
theorem Tracks.sendFrame {frame : DeepgramOutbound} (accepted : Bool)
    (h : Tracks decoder tail { st with pending := some frame }) (hpending : st.pending = none)
    (hclose : .closeStream ∉ sent st.current) :
    Sound decoder tail (st.sendFrame frame accepted false) := by
  simp only [DeepgramStream.sendFrame]
  split
  next =>
    have hsent : sent (st.current ++ [Happening.accepted frame]) = sent st.current ++ [frame] :=
      sent_append _ _
    have hall : st.past.flatMap sent ++ sent (st.current ++ [Happening.accepted frame]) =
        st.allSent ++ [frame] := by
      rw [hsent, allSent_eq, List.append_assoc]
    refine ⟨⟨h.open_tail, h.closed_tail, ?_, ?_, h.past, ?_⟩, ⟨hpending, ?_, ?_⟩⟩
    · rw [allSent_eq]
      simp only [saw, hall, hpending, Option.toList_none, List.append_nil]
      exact h.order
    · rw [allSent_eq]
      simp only [saw, hall, List.any_append, List.any_cons, List.any_nil, Bool.or_false]
      exact congrArg (· || frame.isAudio) h.delivered
    · have hsegments := h.segments
      simp only [connections, saw, List.flatMap_append, List.flatMap_singleton,
        segmentsOf_append] at hsegments ⊢
      rw [hsegments]
      simp [segmentsOf]
    · intro hframe
      refine ⟨rfl, ?_⟩
      simp only [saw, hsent, List.mem_append, List.mem_singleton, not_or]
      exact ⟨hclose, fun heq => by simp [← heq] at hframe⟩
    · intro hframe
      obtain rfl : frame = .closeStream := by simpa using hframe
      exact ⟨st.current, [], rfl, rfl, nofun⟩
  next => exact Tracks.lost h hclose

theorem Tracks.forward {seen : Bool} (accepted : Bool) (h : Tracks decoder tail st)
    (hdriven : Driven decoder st false seen) (hphase : st.phase = .driving false seen) :
    Sound decoder tail (st.forward accepted seen) := by
  obtain ⟨rfl, hclose⟩ := hdriven.forwarding rfl
  simp only [DeepgramStream.forward]
  match hchannel : st.channel with
  | frame :: channel =>
    refine Tracks.sendFrame accepted ?_ hdriven.pending hclose
    refine ⟨h.open_tail, h.closed_tail, ?_, h.delivered, h.past, h.segments⟩
    rw [← h.order, hdriven.pending, hchannel]
    simp [allSent, connections]
  | [] =>
    simp only
    split
    next => exact h.sound hdriven hphase
    next hclosed =>
      -- `CloseStream` was handed over: it is taken, and this connection drains
      exfalso
      have htail := h.closed_tail (by simpa using hclosed)
      have horder := h.order
      rw [hdriven.pending, hchannel, allSent_eq] at horder
      simp only [Option.toList_none, List.append_nil] at horder
      have hmem : DeepgramOutbound.closeStream ∈ st.past.flatMap sent ++ sent st.current := by
        rw [horder]
        exact List.mem_append_right _ htail
      rcases List.mem_append.1 hmem with hpast | hcurrent
      · cases h.past _ hpast
      · exact hclose hcurrent

theorem Tracks.dialed (accepted : Bool) (h : Tracks decoder tail st) (hcurrent : st.current = []) :
    Sound decoder tail (st.dialed accepted) := by
  have hclose : .closeStream ∉ sent st.current := by simp [hcurrent, sent]
  simp only [DeepgramStream.dialed]
  match hpending : st.pending with
  | some frame =>
    refine Tracks.sendFrame accepted ?_ rfl hclose
    exact ⟨h.open_tail, h.closed_tail, hpending ▸ h.order, h.delivered, h.past, h.segments⟩
  | none =>
    have horder := h.order
    rw [hpending] at horder
    exact ⟨⟨h.open_tail, h.closed_tail, horder, h.delivered, h.past, h.segments⟩,
      ⟨rfl, fun _ => ⟨rfl, hclose⟩, nofun⟩⟩

theorem allSent_saw (st : DeepgramStream Confidence) {happening : Happening}
    (hsent : sent [happening] = []) : (st.saw happening).allSent = st.allSent := by
  simp only [allSent_eq, DeepgramStream.saw, sent_append, hsent, List.append_nil]

/-- what a connection sees without taking a frame -/
theorem Tracks.saw {happening : Happening} (h : Tracks decoder tail st)
    (hsent : sent [happening] = []) (hsegments : segmentsOf decoder [happening] = []) :
    Tracks decoder tail (st.saw happening) := by
  refine ⟨h.open_tail, h.closed_tail, ?_, ?_, h.past, ?_⟩
  · rw [allSent_saw st hsent]
    exact h.order
  · rw [allSent_saw st hsent]
    exact h.delivered
  · show st.transcript.segments = _
    rw [h.segments]
    simp only [connections, DeepgramStream.saw, List.flatMap_append, List.flatMap_singleton,
      segmentsOf_append, hsegments, List.append_nil]

theorem Drains.append {seen : Bool} {log : List Happening} {happening : Happening}
    (h : Drains decoder seen log) (hsent : sent [happening] = []) :
    Drains decoder seen (log ++ [happening]) := by
  obtain ⟨before, after, rfl, hafter, hseen⟩ := h
  refine ⟨before, after ++ [happening], by simp, ?_, fun htrue => ?_⟩
  · rw [sent_append, hafter, hsent]
    rfl
  · obtain ⟨text, hmem, hmeta⟩ := hseen htrue
    exact ⟨text, List.mem_append_left _ hmem, hmeta⟩

theorem Driven.saw {draining seen : Bool} {happening : Happening}
    (h : Driven decoder st draining seen) (hsent : sent [happening] = []) :
    Driven decoder (st.saw happening) draining seen := by
  refine ⟨h.pending, fun hfalse => ?_, fun htrue => (h.drains htrue).append hsent⟩
  obtain ⟨hseen, hclose⟩ := h.forwarding hfalse
  refine ⟨hseen, ?_⟩
  simp only [DeepgramStream.saw, sent_append, hsent, List.append_nil]
  exact hclose

/-- an answer that is no text does not change the transcript -/
theorem segmentsOf_received {message : Incoming} (h : ∀ text, message ≠ .text text) :
    segmentsOf decoder [.received message] = [] := by
  match message, h with
  | .text text, h => exact absurd rfl (h text)
  | .close, _ | .ended, _ | .failed, _ | .other, _ => rfl

theorem Tracks.incoming_text {draining seen : Bool} {text : Text} (h : Tracks decoder tail st)
    (hdriven : Driven decoder st draining seen) :
    Sound decoder tail ((st.saw (.received (.text text))).incoming decoder draining seen
      (.text text)) := by
  match hingest : ingestDeepgramMessage decoder (st.saw (.received (.text text))).transcript text with
  | .error error =>
    simp only [DeepgramStream.incoming, hingest]
    exact sound_ends_error _ _
  | .ok (kind, transcript) =>
    simp only [DeepgramStream.incoming, hingest]
    obtain ⟨hsegments, hkind⟩ := ingestDeepgramMessage_ok hingest
    have hnone : sent [.received (.text text)] = [] := rfl
    have hall := allSent_saw st hnone
    refine ⟨⟨h.open_tail, h.closed_tail, ?_, ?_, h.past, ?_⟩, ⟨hdriven.pending, ?_, ?_⟩⟩
    · exact (congrArg (· ++ st.pending.toList ++ st.channel) hall).trans h.order
    · exact h.delivered.trans (congrArg (·.any DeepgramOutbound.isAudio) hall.symm)
    · show transcript.segments = _
      rw [hsegments]
      show st.transcript.segments ++ _ = _
      rw [h.segments]
      simp only [connections, DeepgramStream.saw, List.flatMap_append, List.flatMap_singleton,
        segmentsOf_append, List.append_assoc]
      simp [segmentsOf]
    · intro hfalse
      obtain ⟨rfl, hclose⟩ := (hdriven.saw hnone).forwarding hfalse
      exact ⟨by simp [hfalse], hclose⟩
    · intro htrue
      obtain ⟨before, after, hlog, hafter, hseen⟩ := hdriven.drains htrue
      refine ⟨before, after ++ [Happening.received (.text text)], ?_, ?_, fun hnow => ?_⟩
      · simp only [DeepgramStream.saw, hlog, List.append_assoc, List.cons_append]
      · rw [sent_append, hafter, hnone]
        rfl
      · by_cases hold : seen = true
        · obtain ⟨text', hmem, hmeta⟩ := hseen hold
          exact ⟨text', List.mem_append_left _ hmem, hmeta⟩
        · have hmeta : kind = .metadata := by simpa [hold, htrue] using hnow
          exact ⟨text, by simp, hkind.1 hmeta⟩

/-- a close: the stream is confirmed, or the connection lost -/
theorem Tracks.incoming_closed {draining seen : Bool} {message : Incoming}
    (hmessage : message = .close ∨ message = .ended) (h : Tracks decoder tail st)
    (hdriven : Driven decoder st draining seen) :
    Sound decoder tail ((st.saw (.received message)).incoming decoder draining seen message) := by
  have hsent : sent [.received message] = [] := rfl
  have htracks : Tracks decoder tail (st.saw (.received message)) := by
    refine h.saw hsent (segmentsOf_received ?_)
    rcases hmessage with rfl | rfl <;> simp
  have hnow := hdriven.saw hsent
  have hincoming : (st.saw (.received message)).incoming decoder draining seen message =
      if !draining then (st.saw (.received message)).lost
      else if seen then (st.saw (.received message)).ends (.ok ())
      else (st.saw (.received message)).ends (.error unconfirmed) := by
    rcases hmessage with rfl | rfl <;> rfl
  rw [hincoming]
  split
  next hopen => exact htracks.lost (hnow.forwarding (by simpa using hopen)).2
  next hdraining =>
    split
    next hseen =>
      have hdrain : draining = true := by simpa using hdraining
      obtain ⟨before, after, hlog, hafter, hconfirm⟩ := hdriven.drains hdrain
      refine ⟨htracks.ends _, ?_, hnow.pending, before, after, message, ?_, hmessage, hafter, hconfirm hseen⟩
      · -- a stream that is open has no `CloseStream` to take
        rw [Bool.eq_false_iff]
        intro hopen
        have horder := h.order
        rw [h.open_tail hopen, allSent_eq, hlog, sent_append] at horder
        have hmem : DeepgramOutbound.closeStream ∈ st.streamed.map .audio ++ [] := by
          rw [← horder]
          simp [sent]
        simp at hmem
      · show st.current ++ [Happening.received message] = _
        simp [hlog]
    next => exact sound_ends_error _ _

theorem Tracks.incoming {draining seen : Bool} (message : Incoming) (h : Tracks decoder tail st)
    (hdriven : Driven decoder st draining seen) (hphase : st.phase = .driving draining seen) :
    Sound decoder tail ((st.saw (.received message)).incoming decoder draining seen message) := by
  have hsent : sent [.received message] = [] := rfl
  cases message with
  | text text => exact h.incoming_text hdriven
  | close => exact h.incoming_closed (.inl rfl) hdriven
  | ended => exact h.incoming_closed (.inr rfl) hdriven
  | failed =>
    simp only [DeepgramStream.incoming]
    split
    next => exact sound_ends_error _ _
    next hopen =>
      exact (h.saw hsent rfl).lost ((hdriven.saw hsent).forwarding (by simpa using hopen)).2
  | other =>
    exact (h.saw hsent rfl).sound (hdriven.saw hsent) hphase

theorem Tracks.tick {draining seen : Bool} (due accepted : Bool) (h : Tracks decoder tail st)
    (hdriven : Driven decoder st draining seen) (hphase : st.phase = .driving draining seen) :
    Sound decoder tail (st.tick draining due accepted) := by
  simp only [DeepgramStream.tick]
  split
  next => exact h.sound hdriven hphase
  next =>
    split
    next => exact sound_ends_error _ _
    next hopen =>
      split
      next =>
        have hsent : sent [.keptAlive] = [] := rfl
        exact (h.saw hsent rfl).sound (hdriven.saw hsent) hphase
      next => exact h.lost (hdriven.forwarding (by simpa using hopen)).2

/-! ## the owner -/

/-- a task that is over, with the channel still open, has failed -/
theorem Sound.failed {result : Except BoundaryError Unit} (h : Sound decoder tail st)
    (hopen : st.outbound = true) (hphase : st.phase = .over result) :
    ∃ error, result = .error error := by
  match result, hphase with
  | .error error, _ => exact ⟨error, rfl⟩
  | .ok (), hphase =>
    rw [Sound, hphase] at h
    simp [hopen] at h

theorem foldl_send_over {result : Except BoundaryError Unit} (hphase : st.phase = .over result)
    (frames : List DeepgramOutbound) : frames.foldl send st = st := by
  induction frames with
  | nil => rfl
  | cons frame frames ih =>
    have hsend : st.send frame = st := by simp only [send, hphase]
    rw [List.foldl_cons, hsend, ih]

theorem foldl_send (st : DeepgramStream Confidence) (hphase : ∀ result, st.phase ≠ .over result)
    (frames : List DeepgramOutbound) :
    frames.foldl send st = { st with channel := st.channel ++ frames } := by
  induction frames generalizing st with
  | nil => simp
  | cons frame frames ih =>
    have hsend : st.send frame = { st with channel := st.channel ++ [frame] } := by
      simp only [send]
    rw [List.foldl_cons, hsend]
    refine (ih _ ?_).trans ?_
    · exact hphase
    · simp

/-- what the owner hands over comes after what it handed over before -/
theorem Tracks.submit (h : Tracks decoder [] st) {frames tail' : List DeepgramOutbound}
    {streamed' : List (List UInt8)} {outbound' : Bool} (bytes' : Nat)
    (hframes : st.streamed.map DeepgramOutbound.audio ++ frames =
      streamed'.map DeepgramOutbound.audio ++ tail')
    (hopen : outbound' = true → tail' = []) (hclosed : outbound' = false → .closeStream ∈ tail') :
    Tracks decoder tail'
      { st with
        channel := st.channel ++ frames, streamed := streamed', streamedBytes := bytes',
        outbound := outbound' } := by
  refine ⟨hopen, hclosed, ?_, h.delivered, h.past, h.segments⟩
  have horder := h.order
  rw [List.append_nil] at horder
  rw [← hframes, ← horder, List.append_assoc _ st.channel]
  rfl

theorem Sound.submit (h : Sound decoder [] st) (hphase : ∀ result, st.phase ≠ .over result)
    {frames tail' : List DeepgramOutbound} {streamed' : List (List UInt8)} {outbound' : Bool}
    (bytes' : Nat) (hframes : st.streamed.map DeepgramOutbound.audio ++ frames =
      streamed'.map DeepgramOutbound.audio ++ tail')
    (hopen : outbound' = true → tail' = []) (hclosed : outbound' = false → .closeStream ∈ tail') :
    Sound decoder tail'
      { st with
        channel := st.channel ++ frames, streamed := streamed', streamedBytes := bytes',
        outbound := outbound' } := by
  match hst : st.phase with
  | .dialing =>
    simp only [Sound, hst] at h ⊢
    have htracks := h.1.submit bytes' hframes hopen hclosed
    rw [hst] at htracks
    exact ⟨htracks, h.2⟩
  | .driving draining seen =>
    simp only [Sound, hst] at h ⊢
    have htracks := h.1.submit bytes' hframes hopen hclosed
    rw [hst] at htracks
    exact ⟨htracks, h.2.pending, h.2.forwarding, h.2.drains⟩
  | .over result => exact absurd hst (hphase result)

theorem Sound.tail_nil (h : Sound decoder tail st) (hopen : st.outbound = true)
    (hphase : ∀ result, st.phase ≠ .over result) : tail = [] := by
  match hst : st.phase with
  | .dialing =>
    rw [Sound, hst] at h
    exact h.1.open_tail hopen
  | .driving _ _ =>
    rw [Sound, hst] at h
    exact h.1.open_tail hopen
  | .over result => exact absurd hst (hphase result)

/-- the count of the bytes is the owner's -/
theorem Sound.streamedBytes (h : Sound decoder tail st) (n : Nat) :
    Sound decoder tail { st with streamedBytes := n } := by
  simp only [Sound] at h ⊢
  split
  next hst =>
    rw [hst] at h
    obtain ⟨⟨h1, h2, h3, h4, h5, h6⟩, hcurrent⟩ := h
    exact ⟨⟨h1, h2, h3, h4, h5, h6⟩, hcurrent⟩
  next hst =>
    rw [hst] at h
    obtain ⟨⟨h1, h2, h3, h4, h5, h6⟩, hdriven⟩ := h
    exact ⟨⟨h1, h2, h3, h4, h5, h6⟩, hdriven.pending, hdriven.forwarding, hdriven.drains⟩
  next => trivial
  next hst =>
    rw [hst] at h
    obtain ⟨⟨h1, h2, h3, h4, h5, h6⟩, hover⟩ := h
    exact ⟨⟨h1, h2, h3, h4, h5, h6⟩, hover⟩

theorem Sound.sendAudio (chunk : List UInt8) (h : Sound decoder tail st) :
    Sound decoder tail (st.sendAudio chunk) := by
  simp only [DeepgramStream.sendAudio]
  split
  next hopen =>
    by_cases hover : ∃ result, st.phase = .over result
    · obtain ⟨result, hphase⟩ := hover
      obtain ⟨error, rfl⟩ := h.failed hopen hphase
      simp only [send, hphase, Sound]
    · have hphase : ∀ result, st.phase ≠ .over result := fun result hres => hover ⟨result, hres⟩
      obtain rfl := h.tail_nil hopen hphase
      have hsub := h.submit hphase (st.streamedBytes + chunk.length)
        (show st.streamed.map .audio ++ [DeepgramOutbound.audio chunk] =
          (st.streamed ++ [chunk]).map .audio ++ [] by simp)
        (fun _ => rfl) (fun hclosed => absurd (hopen.symm.trans hclosed) (by decide))
      have hsend := foldl_send { st with
        streamedBytes := st.streamedBytes + chunk.length
        streamed := st.streamed ++ [chunk] } hphase [.audio chunk]
      rw [show [DeepgramOutbound.audio chunk].foldl send _ = send _ (.audio chunk) from rfl] at hsend
      rw [hsend]
      exact hsub
  next => exact h.streamedBytes _

/-- **every event keeps the frames in order** -/
theorem Sound.step (event : Event) (h : Sound decoder tail st) :
    Sound decoder tail (st.step decoder event) := by
  match event, hphase : st.phase with
  | .sendAudio chunk, _ =>
    simp only [DeepgramStream.step]
    exact h.sendAudio chunk
  | .dialed accepted, .dialing =>
    simp only [DeepgramStream.step, hphase]
    rw [Sound, hphase] at h
    exact h.1.dialed accepted h.2
  | .dialFailed error, .dialing =>
    simp only [DeepgramStream.step, hphase, DeepgramStream.dialFailed]
    split
    next => exact sound_ends_error _ _
    next =>
      simp only [Sound, hphase] at h ⊢
      obtain ⟨⟨h1, h2, h3, h4, h5, h6⟩, hcurrent⟩ := h
      exact ⟨⟨h1, h2, h3, h4, h5, h6⟩, hcurrent⟩
  | .forward accepted, .driving false seen =>
    simp only [DeepgramStream.step, hphase]
    rw [Sound, hphase] at h
    exact h.1.forward accepted h.2 hphase
  | .incoming message, .driving draining seen =>
    simp only [DeepgramStream.step, hphase]
    rw [Sound, hphase] at h
    exact h.1.incoming message h.2 hphase
  | .tick due accepted, .driving draining seen =>
    simp only [DeepgramStream.step, hphase]
    rw [Sound, hphase] at h
    exact h.1.tick due accepted h.2 hphase
  | .panicked, .dialing =>
    simp only [DeepgramStream.step, hphase]
    exact sound_ends_error _ _
  | .panicked, .driving _ _ =>
    simp only [DeepgramStream.step, hphase]
    exact sound_ends_error _ _
  | .dialed _, .driving _ _ | .dialFailed _, .driving _ _ | .forward _, .driving true _
  | .forward _, .dialing | .incoming _, .dialing | .tick _ _, .dialing
  | .dialed _, .over _ | .dialFailed _, .over _ | .forward _, .over _
  | .incoming _, .over _ | .tick _ _, .over _ | .panicked, .over _ =>
    simp only [DeepgramStream.step, hphase]
    exact h

theorem Sound.run (events : List Event) (h : Sound decoder tail st) :
    Sound decoder tail (st.run decoder events) := by
  induction events generalizing st with
  | nil => exact h
  | cons event events ih => exact ih (h.step event)

theorem sound_connect : Sound decoder [] (connect : DeepgramStream Confidence) :=
  ⟨⟨fun _ => rfl, nofun, rfl, rfl, nofun, rfl⟩, rfl⟩

theorem Sound.complete {pcm : List UInt8} {st' : DeepgramStream Confidence}
    (h : Sound decoder [] st) (hopen : st.outbound = true) (hcomplete : st.complete pcm = .ok st') :
    Sound decoder (st.closing pcm) st' ∧ st'.streamed = st.streamed := by
  simp only [DeepgramStream.complete, hopen, if_true] at hcomplete
  split at hcomplete
  next => cases hcomplete
  next =>
    obtain rfl := Except.ok.inj hcomplete
    by_cases hover : ∃ result, st.phase = .over result
    · obtain ⟨result, hphase⟩ := hover
      obtain ⟨error, rfl⟩ := h.failed hopen hphase
      rw [foldl_send_over hphase]
      exact ⟨by simp only [Sound, hphase], rfl⟩
    · have hphase : ∀ result, st.phase ≠ .over result := fun result hres => hover ⟨result, hres⟩
      rw [foldl_send st hphase]
      refine ⟨h.submit hphase st.streamedBytes rfl nofun fun _ => ?_, rfl⟩
      simp [closing]

end steps

/-! ## what the owner has -/

/-- what the task does not touch -/
def owner (st : DeepgramStream Confidence) : Bool × Nat × List (List UInt8) :=
  (st.outbound, st.streamedBytes, st.streamed)

theorem owner_lost (st : DeepgramStream Confidence) : st.lost.owner = st.owner := by
  simp only [lost]
  split
  · rfl
  · split <;> rfl

theorem owner_sendFrame (st : DeepgramStream Confidence) (frame : DeepgramOutbound)
    (accepted seen : Bool) : (st.sendFrame frame accepted seen).owner = st.owner := by
  simp only [sendFrame]
  split
  · rfl
  · exact owner_lost _

theorem owner_incoming (st : DeepgramStream Confidence) (draining seen : Bool)
    (message : Incoming) : (st.incoming decoder draining seen message).owner = st.owner := by
  simp only [incoming]
  repeat' split
  all_goals first | rfl | exact owner_lost _

theorem owner_dialed (st : DeepgramStream Confidence) (accepted : Bool) :
    (st.dialed accepted).owner = st.owner := by
  simp only [dialed]
  split
  · exact owner_sendFrame _ _ _ _
  · rfl

theorem owner_dialFailed (st : DeepgramStream Confidence) (error : BoundaryError) :
    (st.dialFailed error).owner = st.owner := by
  simp only [dialFailed]
  split <;> rfl

theorem owner_forward (st : DeepgramStream Confidence) (accepted seen : Bool) :
    (st.forward accepted seen).owner = st.owner := by
  simp only [forward]
  split
  · exact owner_sendFrame _ _ _ _
  · split <;> rfl

theorem owner_tick (st : DeepgramStream Confidence) (draining due accepted : Bool) :
    (st.tick draining due accepted).owner = st.owner := by
  simp only [tick]
  repeat' split
  all_goals first | rfl | exact owner_lost _

theorem owner_step (st : DeepgramStream Confidence) {event : Event}
    (h : ∀ chunk, event ≠ .sendAudio chunk) : (st.step decoder event).owner = st.owner := by
  unfold step
  split
  · exact absurd rfl (h _)
  · exact owner_dialed _ _
  · exact owner_dialFailed _ _
  · exact owner_forward _ _ _
  · exact owner_incoming _ _ _ _
  · exact owner_tick _ _ _ _
  · rfl
  · rfl
  · rfl

/-- a chunk is counted and kept while the channel is open -/
theorem owner_sendAudio {st : DeepgramStream Confidence} (hopen : st.outbound = true)
    (chunk : List UInt8) :
    (st.sendAudio chunk).owner =
      (true, st.streamedBytes + chunk.length, st.streamed ++ [chunk]) := by
  simp only [sendAudio, hopen, if_true, send]
  split
  · simp [owner]
  · simp [owner]

/-- the chunks that are streamed by the events -/
def audioOf (events : List Event) : List (List UInt8) :=
  events.filterMap fun event =>
    match event with
    | .sendAudio chunk => some chunk
    | _ => none

theorem owner_run {st : DeepgramStream Confidence} (hopen : st.outbound = true)
    (events : List Event) :
    (st.run decoder events).owner =
      (true, st.streamedBytes + (audioOf events).flatten.length,
        st.streamed ++ audioOf events) := by
  induction events generalizing st with
  | nil => simp [run, owner, audioOf, hopen]
  | cons event events ih =>
    by_cases haudio : ∃ chunk, event = .sendAudio chunk
    · obtain ⟨chunk, rfl⟩ := haudio
      have hstep := owner_sendAudio hopen chunk
      have hnext : (st.sendAudio chunk).outbound = true := congrArg Prod.fst hstep
      have hbytes : (st.sendAudio chunk).streamedBytes = st.streamedBytes + chunk.length :=
        congrArg (fun o => o.2.1) hstep
      have hstreamed : (st.sendAudio chunk).streamed = st.streamed ++ [chunk] :=
        congrArg (fun o => o.2.2) hstep
      refine (ih hnext).trans ?_
      rw [hbytes, hstreamed]
      simp [audioOf, Nat.add_assoc]
    · have hne : ∀ chunk, event ≠ .sendAudio chunk := fun chunk heq => haudio ⟨chunk, heq⟩
      have hstep : (st.step decoder event).owner = st.owner := owner_step st hne
      have hnext : (st.step decoder event).outbound = true := (congrArg Prod.fst hstep).trans hopen
      have hbytes : (st.step decoder event).streamedBytes = st.streamedBytes :=
        congrArg (fun o => o.2.1) hstep
      have hstreamed : (st.step decoder event).streamed = st.streamed :=
        congrArg (fun o => o.2.2) hstep
      refine (ih hnext).trans ?_
      have haudioOf : audioOf (event :: events) = audioOf events := by
        cases event with
        | sendAudio chunk => exact absurd rfl (hne chunk)
        | _ => rfl
      rw [hbytes, hstreamed, haudioOf]

/-- once the channel is dropped, nothing is streamed -/
theorem streamed_run {st : DeepgramStream Confidence} (hclosed : st.outbound = false)
    (events : List Event) : (st.run decoder events).streamed = st.streamed := by
  induction events generalizing st with
  | nil => rfl
  | cons event events ih =>
    have hstep : (st.step decoder event).outbound = false ∧
        (st.step decoder event).streamed = st.streamed := by
      by_cases haudio : ∃ chunk, event = .sendAudio chunk
      · obtain ⟨chunk, rfl⟩ := haudio
        show (st.sendAudio chunk).outbound = false ∧ (st.sendAudio chunk).streamed = st.streamed
        simp [sendAudio, hclosed]
      · have hne : ∀ chunk, event ≠ .sendAudio chunk := fun chunk heq => haudio ⟨chunk, heq⟩
        have howner : (st.step decoder event).owner = st.owner := owner_step st hne
        exact ⟨(congrArg Prod.fst howner).trans hclosed, congrArg (fun o => o.2.2) howner⟩
    exact (ih hstep.1).trans hstep.2

/-! ## completed streams -/

/-- the audio frames of a Recording: what was streamed, and the tail -/
def audioFrames (streamed : List (List UInt8)) (pcm : List UInt8) : List (List UInt8) :=
  streamed ++
    if (pcm.drop streamed.flatten.length).isEmpty then [] else [pcm.drop streamed.flatten.length]

theorem flatten_audioFrames {streamed : List (List UInt8)} {pcm : List UInt8}
    (h : streamed.flatten <+: pcm) : (audioFrames streamed pcm).flatten = pcm := by
  obtain ⟨tail, rfl⟩ := h
  simp only [audioFrames, List.drop_left, List.flatten_append]
  cases tail <;> simp

example : audioFrames [[1, 2]] [1, 2, 3] = [[1, 2], [3]] := by decide +kernel

/-- one connection took the audio and `CloseStream` and was confirmed, and the transcript is what the
server sent.  `Finalize` may have been taken by a connection that was lost, where there is no audio -/
structure Delivers (decoder : Decoder Confidence) (chunks : List (List UInt8))
    (st : DeepgramStream Confidence) (transcript : SourceTranscript) : Prop where
  once : st.allSent = chunks.map .audio ++ [DeepgramOutbound.finalize, .closeStream]
  single : sent st.current = chunks.map .audio ++ [DeepgramOutbound.finalize, .closeStream] ∨
    chunks = [] ∧ sent st.current = [.closeStream]
  confirmed : Confirmed decoder st.current
  text : transcript.text = [' '].intercalate (st.connections.flatMap (segmentsOf decoder))

/-- the frames of a confirmed connection are the last that were handed over -/
theorem Tracks.delivers {tail : List DeepgramOutbound} {chunks : List (List UInt8)}
    (h : Tracks decoder tail st) (hpending : st.pending = none)
    (hconfirmed : Confirmed decoder st.current)
    (hframes : st.streamed.map DeepgramOutbound.audio ++ tail =
      chunks.map .audio ++ [DeepgramOutbound.finalize, .closeStream]) :
    st.allSent = chunks.map .audio ++ [DeepgramOutbound.finalize, .closeStream] ∧
      (sent st.current = chunks.map .audio ++ [DeepgramOutbound.finalize, .closeStream] ∨
        chunks = [] ∧ sent st.current = [.closeStream]) := by
  obtain ⟨before, after, closed, hlog, -, hafter, -⟩ := hconfirmed
  have hcurrent : sent st.current = sent before ++ [DeepgramOutbound.closeStream] := by
    rw [hlog, sent_append]
    have hclosed : sent (after ++ [Happening.received closed]) = [] := by
      rw [sent_append, hafter]
      rfl
    show sent before ++ DeepgramOutbound.closeStream :: sent (after ++ [Happening.received closed]) = _
    rw [hclosed]
  have horder : (st.past.flatMap sent ++ sent before) ++ .closeStream :: st.channel =
      (chunks.map .audio ++ [DeepgramOutbound.finalize]) ++
        DeepgramOutbound.closeStream :: [] := by
    have := h.order
    rw [hframes, hpending, allSent_eq, hcurrent] at this
    simpa using this
  have hnot : DeepgramOutbound.closeStream ∉ chunks.map .audio ++ [DeepgramOutbound.finalize] := by
    simp
  obtain ⟨htaken, -, -⟩ := (List.append_cons_inj_of_notMem hnot (by simp)).1 horder.symm
  have hall : st.allSent = chunks.map .audio ++ [DeepgramOutbound.finalize, .closeStream] := by
    rw [allSent_eq, hcurrent, ← List.append_assoc, ← htaken]
    simp
  refine ⟨hall, ?_⟩
  match chunks, htaken with
  | chunk :: chunks, htaken =>
    -- a lost connection took `Finalize` only, and the first frame is audio
    match hpast : st.past.flatMap sent with
    | [] =>
      left
      rw [hcurrent]
      rw [hpast, List.nil_append] at htaken
      rw [← htaken]
      simp
    | frame :: frames =>
      have hfinal := h.past frame (by rw [hpast]; exact List.mem_cons_self)
      rw [hpast, hfinal] at htaken
      simp at htaken
  | [], htaken =>
    match hpast : st.past.flatMap sent with
    | [] =>
      left
      rw [hpast, List.nil_append] at htaken
      rw [hcurrent, ← htaken]
      simp
    | frame :: frames =>
      right
      rw [hpast] at htaken
      have hnone : sent before = [] := by
        have hlen := congrArg List.length htaken
        simp only [List.map_nil, List.nil_append, List.length_append, List.length_cons,
          List.length_nil] at hlen
        exact List.eq_nil_of_length_eq_zero (by omega)
      rw [hcurrent, hnone]
      simp

/-- **a stream completes only where one connection took the whole audio in its order, then
`CloseStream`, and was confirmed before it closed; the transcript is what the server sent** -/
theorem complete_confirmed (decoder : Decoder Confidence) (before after : List Event)
    (pcm : List UInt8) (st : DeepgramStream Confidence) (transcript : SourceTranscript)
    (hstreamed : (audioOf before).flatten <+: pcm)
    (hcomplete : ((connect : DeepgramStream Confidence).run decoder before).complete pcm = .ok st)
    (hok : (st.run decoder after).completion = some (.ok transcript)) :
    (audioFrames (audioOf before) pcm).flatten = pcm ∧
      Delivers decoder (audioFrames (audioOf before) pcm) (st.run decoder after) transcript := by
  refine ⟨flatten_audioFrames hstreamed, ?_⟩
  have howner : ((connect : DeepgramStream Confidence).run decoder before).owner =
      (true, 0 + (audioOf before).flatten.length, [] ++ audioOf before) := owner_run rfl before
  have hopen := congrArg Prod.fst howner
  have hbytes := congrArg (fun o => o.2.1) howner
  have hchunks := congrArg (fun o => o.2.2) howner
  simp only [owner, Nat.zero_add, List.nil_append] at hopen hbytes hchunks
  obtain ⟨hsound, hkept⟩ := (sound_connect.run before).complete hopen hcomplete
  have hfinal := hsound.run after
  simp only [completion] at hok
  split at hok
  next => cases hok
  next hphase =>
    rw [Sound, hphase] at hfinal
    obtain ⟨htracks, -, hpending, hconfirmed⟩ := hfinal
    have hclosed : st.outbound = false := by
      simp only [complete, hopen, if_true] at hcomplete
      split at hcomplete
      · cases hcomplete
      · rw [← Except.ok.inj hcomplete]
    have hframes : (st.run decoder after).streamed.map DeepgramOutbound.audio ++
          ((connect : DeepgramStream Confidence).run decoder before).closing pcm =
        (audioFrames (audioOf before) pcm).map .audio ++ [DeepgramOutbound.finalize, .closeStream] := by
      rw [streamed_run hclosed, hkept, hchunks]
      simp only [closing, audioFrames, hbytes, List.map_append, List.append_assoc]
      split <;> rfl
    obtain ⟨honce, hsingle⟩ := htracks.delivers hpending hconfirmed hframes
    refine ⟨honce, hsingle, hconfirmed, ?_⟩
    obtain rfl := Except.ok.inj (Option.some.inj hok)
    exact congrArg [' '].intercalate htracks.segments
  next => cases hok

/-! ## two runs -/

def metadataText : Text := "\x7b\"type\":\"Metadata\"\x7d".toList

def resultsText : Text :=
  ("\x7b\"type\":\"Results\",\"is_final\":true," ++
    "\"channel\":\x7b\"alternatives\":[\x7b\"transcript\":\" hi \"\x7d]\x7d\x7d").toList

/-- the decoder on the two texts -/
def twoTexts : Decoder Unit where
  fromStr text :=
    if text = metadataText then some (.object [("type".toList, .string "Metadata".toList)])
    else if text = resultsText then
      some (.object [("type".toList, .string "Results".toList), ("is_final".toList, .bool true),
        ("channel".toList, .object [("alternatives".toList,
          .array [.object [("transcript".toList, .string " hi ".toList)]])])])
    else none
  confidence _ := ()

/-- a chunk is streamed over the connection that is confirmed -/
def streamedRun : List Event := [.dialed true, .sendAudio [1, 2], .forward true]

/-- the tail and the two control frames follow, and the server answers -/
def confirmedRun : List Event :=
  [.forward true, .forward true, .forward true, .incoming (.text resultsText),
    .incoming (.text metadataText), .incoming .close]

/-- `Finalize` is taken by a connection that is lost, `CloseStream` by the next -/
def redialedRun : List Event :=
  [.dialed true, .forward true, .incoming .ended, .dialed true, .forward true,
    .incoming (.text metadataText), .incoming .close]

/-- the stream when `complete` awaits the task -/
def awaiting (before : List Event) (pcm : List UInt8) : DeepgramStream Unit :=
  (((connect : DeepgramStream Unit).run twoTexts before).complete pcm).toOption.getD connect

/-- the transcripts of the final results that a connection received -/
def finalsOf (decoder : Decoder Confidence) (log : List Happening) : List Text :=
  log.filterMap fun h =>
    match h with
    | .received (.text text) => finalTranscript decoder text
    | _ => none

theorem complete_confirmed_streamed :
    (audioFrames (audioOf streamedRun) [1, 2, 3]).flatten = [1, 2, 3] ∧
      Delivers twoTexts (audioFrames (audioOf streamedRun) [1, 2, 3])
        ((awaiting streamedRun [1, 2, 3]).run twoTexts confirmedRun)
        { provider := .deepgram, text := "hi".toList } :=
  complete_confirmed twoTexts streamedRun confirmedRun [1, 2, 3] (awaiting streamedRun [1, 2, 3])
    { provider := .deepgram, text := "hi".toList } (by decide) rfl (by decide +kernel)

/-- without audio a stream completes though no connection took both control frames, and the
transcripts are trimmed before they are joined -/
theorem complete_redialed_trimmed :
    (((awaiting [] []).run twoTexts redialedRun).completion =
        some (.ok { provider := .deepgram, text := [] }) ∧
      ∀ log ∈ ((awaiting [] []).run twoTexts redialedRun).connections,
        ¬(.finalize ∈ sent log ∧ .closeStream ∈ sent log)) ∧
    ((awaiting streamedRun [1, 2, 3]).run twoTexts confirmedRun).completion =
        some (.ok { provider := .deepgram, text := "hi".toList }) ∧
      "hi".toList ≠ [' '].intercalate
        (((awaiting streamedRun [1, 2, 3]).run twoTexts confirmedRun).connections.flatMap
          (finalsOf twoTexts)) := by
  refine ⟨⟨by decide +kernel, by decide +kernel⟩, by decide +kernel, by decide +kernel⟩

end DeepgramStream
end Voisu.Deepgram
