import Mathlib
import Voisu.Groq.Merge
import Voisu.Lib.Windows

/-!
# The audio windows of a Groq stream

A Recording up to two minutes is sent as one request when it is finalized.  Once it grows past that,
windows of one minute with four seconds of overlap are cut off the buffer as the audio arrives, and
what is left at the end is planned again.

* `GroqStream.sendAudio`      the cuts while the audio arrives;
* `planFinalizeChunks`        the windows of what is left;
* `complete`                  the last requests, and the merged transcript;
* `Cut`                       what the stream holds after any pieces of audio;
* `requests_cover`            the windows of both planners run over the finalized audio.
-/

namespace Voisu.Groq
open Lib

def groqFullAudioMaxBytes : Nat := 16000 * 2 * 120
def groqChunkBytes : Nat := 16000 * 2 * 60
def groqChunkOverlapBytes : Nat := 16000 * 2 * 4

/-- how far a window starts after the one before it -/
def groqStep : Nat := groqChunkBytes - groqChunkOverlapBytes

theorem groqStep_pos : 0 < groqStep := by decide

/-! ## planning -/

def groqPrestreamActive (totalReceivedBytes : Nat) : Bool := totalReceivedBytes > groqFullAudioMaxBytes

/-- the `while` loop of `plan_finalize_chunks` -/
def planFrom (len start : Nat) : List Window :=
  if start < len then
    ⟨start, min (start + groqChunkBytes) len⟩ ::
      (if min (start + groqChunkBytes) len = len then [] else planFrom len (start + groqStep))
  else []
termination_by len - start
decreasing_by
  have := groqStep_pos
  omega

def planFinalizeChunks (len : Nat) : List Window :=
  if len ≤ groqFullAudioMaxBytes then [⟨0, len⟩] else planFrom len 0

/-! ## the stream -/

/-- `chunks` are the requests in flight, each with the audio it carries.  Lengths of buffers never
reach the bound of a machine word, so `streamed_bytes` is a plain sum. -/
structure GroqStream where
  buffer : List UInt8
  streamedBytes : Nat
  chunks : List (List UInt8)

def GroqStream.initial : GroqStream := { buffer := [], streamedBytes := 0, chunks := [] }

/-- the `while` loop of `send_audio`: the audio cut off a buffer, and the rest of it -/
def cutChunks (buffer : List UInt8) : List (List UInt8) × List UInt8 :=
  if groqChunkBytes ≤ buffer.length then
    let rest := cutChunks (buffer.drop groqStep)
    (buffer.take groqChunkBytes :: rest.1, rest.2)
  else ([], buffer)
termination_by buffer.length
decreasing_by
  rename_i h
  have hstep := groqStep_pos
  have : groqStep ≤ groqChunkBytes := by decide
  simp only [List.length_drop]
  omega

def GroqStream.sendAudio (st : GroqStream) (chunk : List UInt8) : GroqStream :=
  let streamedBytes := st.streamedBytes + chunk.length
  let buffer := st.buffer ++ chunk
  if groqPrestreamActive streamedBytes then
    { buffer := (cutChunks buffer).2, streamedBytes, chunks := st.chunks ++ (cutChunks buffer).1 }
  else { st with buffer, streamedBytes }

def GroqStream.run (st : GroqStream) (sends : List (List UInt8)) : GroqStream :=
  sends.foldl sendAudio st

def exceeded : BoundaryError :=
  BoundaryError.new .provider "Groq stream exceeded the finalized Recording".toList

/-- the first half of `complete`: the last requests are issued -/
def GroqStream.issue (st : GroqStream) (pcm : List UInt8) : Except BoundaryError GroqStream :=
  if st.streamedBytes > pcm.length then .error exceeded
  else
    let buffer := st.buffer ++ pcm.drop st.streamedBytes
    if st.chunks.isEmpty || buffer.length > groqChunkOverlapBytes then
      .ok { st with
        buffer := []
        chunks := st.chunks ++ (planFinalizeChunks buffer.length).map fun w => w.slice buffer }
    else .ok { st with buffer }

/-- the requests are awaited in their order, the first failure ends the completion -/
def GroqStream.complete (request : List UInt8 → Except BoundaryError GroqChunkTranscript)
    (st : GroqStream) (pcm : List UInt8) :
    Except BoundaryError (SourceTranscript × Arbitration.Evidence) := do
  let st ← st.issue pcm
  let transcripts ← st.chunks.mapM request
  let merged := mergeChunkTranscripts transcripts
  return ({ provider := .groq, text := merged.text }, merged.words)

/-! ## the finalize plan -/

/-- a window of whole samples that one request may carry -/
structure Fits (w : Window) : Prop where
  sample : 2 ∣ w.start
  nonempty : w.start < w.stop
  size : w.stop - w.start ≤ groqFullAudioMaxBytes

theorem Fits.shift {w : Window} {base : Nat} (h : Fits w) (hbase : 2 ∣ base) : Fits (w.shift base) := by
  obtain ⟨hs, hn, hz⟩ := h
  refine ⟨Nat.dvd_add hbase hs, ?_, ?_⟩
  · show base + w.start < base + w.stop
    omega
  · show base + w.stop - (base + w.start) ≤ _
    omega

theorem fits_chunk {start stop : Nat} (hs : 2 ∣ start) (hlt : start < stop)
    (hle : stop ≤ start + groqChunkBytes) : Fits ⟨start, stop⟩ := by
  have : groqChunkBytes ≤ groqFullAudioMaxBytes := by decide
  exact ⟨hs, hlt, by show stop - start ≤ _; omega⟩

theorem planFrom_head {len start : Nat} (h : start < len) :
    (planFrom len start).head? = some ⟨start, min (start + groqChunkBytes) len⟩ := by
  rw [planFrom, if_pos h, List.head?_cons]

theorem chunk_eq : groqChunkBytes = groqStep + groqChunkOverlapBytes := by decide

theorem planFrom_covers (len start : Nat) (h : start < len) :
    Covers groqChunkOverlapBytes start len (planFrom len start) := by
  have hchunk := chunk_eq
  have hstep := groqStep_pos
  fun_induction planFrom len start with
  | case1 start hlt ih =>
    generalize hstop : min (start + groqChunkBytes) len = stop
    by_cases hend : stop = len
    · rw [if_pos hend, ← hend]
      exact Covers.single groqChunkOverlapBytes ⟨start, stop⟩
    · rw [if_neg hend]
      have hnext : start + groqStep < len := by omega
      have hmeets : start + groqStep + groqChunkOverlapBytes = stop := by omega
      have hcover := ih hnext
      refine Covers.cons (w := ⟨start, stop⟩) hcover hmeets ?_
      intro v hv
      rw [planFrom_head hnext] at hv
      obtain rfl := Option.some.inj hv
      show stop < min (start + groqStep + groqChunkBytes) len
      omega
  | case2 start hlt => exact absurd h hlt

theorem fits_planFrom (len start : Nat) (h : 2 ∣ start) : ∀ w ∈ planFrom len start, Fits w := by
  have hstep : 2 ∣ groqStep := by decide
  fun_induction planFrom len start with
  | case1 start hlt ih =>
    generalize hstop : min (start + groqChunkBytes) len = stop
    have hpos : 0 < groqChunkBytes := by decide
    intro w hw
    rcases List.mem_cons.mp hw with rfl | hw
    · exact fits_chunk h (by omega) (by omega)
    · split at hw
      · simp at hw
      · exact ih (Nat.dvd_add h hstep) w hw
  | case2 start hlt =>
    intro w hw
    simp at hw

/-- the plan of a buffer runs over the whole of it, and opens with more than the overlap -/
theorem planFinalizeChunks_covers {len : Nat} (h : 0 < len) :
    Covers groqChunkOverlapBytes 0 len (planFinalizeChunks len) ∧
      (∀ w ∈ planFinalizeChunks len, Fits w) ∧
      (groqChunkOverlapBytes < len → ∀ w ∈ (planFinalizeChunks len).head?, groqChunkOverlapBytes < w.stop) := by
  unfold planFinalizeChunks
  split
  · rename_i hle
    refine ⟨Covers.single groqChunkOverlapBytes ⟨0, len⟩, ?_, ?_⟩
    · intro w hw
      obtain rfl := List.mem_singleton.mp hw
      exact ⟨Nat.dvd_zero 2, h, hle⟩
    · intro hlt w hw
      obtain rfl := Option.some.inj hw
      exact hlt
  · refine ⟨planFrom_covers len 0 h, fits_planFrom len 0 (Nat.dvd_zero 2), ?_⟩
    intro hlt w hw
    rw [planFrom_head h] at hw
    obtain rfl := Option.some.inj hw
    have : groqChunkOverlapBytes < groqChunkBytes := by decide
    show groqChunkOverlapBytes < min (0 + groqChunkBytes) len
    omega

/-! ## the cuts while the audio arrives -/

/-- `chunks` are the windows `ws` of the audio, and `rest` is all of it from `base` on: the overlap of
the last window and what came after it -/
structure Cut (audio : List UInt8) (chunks : List (List UInt8)) (rest : List UInt8)
    (ws : List Window) (base : Nat) : Prop where
  chunks_eq : chunks = ws.map fun w => w.slice audio
  rest_eq : rest = audio.drop base
  fits : ∀ w ∈ ws, Fits w
  even : 2 ∣ base
  run : (ws = [] ∧ base = 0) ∨
    (Covers groqChunkOverlapBytes 0 (base + groqChunkOverlapBytes) ws ∧
      base + groqChunkOverlapBytes ≤ audio.length)
  opens : ∀ w ∈ ws.head?, groqChunkOverlapBytes < w.stop

namespace Cut
variable {audio rest rest' more : List UInt8} {chunks chunks' : List (List UInt8)}
variable {ws ws' : List Window} {base base' : Nat}

theorem nil (audio : List UInt8) : Cut audio [] audio [] 0 where
  chunks_eq := rfl
  rest_eq := (List.drop_zero).symm
  fits := by simp
  even := Nat.dvd_zero 2
  run := .inl ⟨rfl, rfl⟩
  opens := by simp

theorem base_le (h : Cut audio chunks rest ws base) : base ≤ audio.length := by
  rcases h.run with ⟨-, hb⟩ | ⟨-, hb⟩ <;> omega

theorem stop_le (h : Cut audio chunks rest ws base) : ∀ w ∈ ws, w.stop ≤ audio.length := by
  intro w hw
  rcases h.run with ⟨hnil, -⟩ | ⟨hcov, hle⟩
  · rw [hnil] at hw
    simp at hw
  · exact (hcov.stop_le w hw).trans hle

/-- more audio only makes the rest longer -/
theorem extend (h : Cut audio chunks rest ws base) (more : List UInt8) :
    Cut (audio ++ more) chunks (rest ++ more) ws base where
  chunks_eq := by
    rw [h.chunks_eq]
    exact List.map_congr_left fun w hw => (Window.slice_of_le (h.stop_le w hw)).symm
  rest_eq := by rw [h.rest_eq, List.drop_append_of_le_length h.base_le]
  fits := h.fits
  even := h.even
  run := by
    rcases h.run with hnil | ⟨hcov, hle⟩
    · exact .inl hnil
    · refine .inr ⟨hcov, ?_⟩
      rw [List.length_append]
      omega
  opens := h.opens

/-- the windows of the audio, then those of the rest -/
theorem covers_shift {stop : Nat} (h : Cut audio chunks rest ws base)
    (hcov : Covers groqChunkOverlapBytes 0 stop ws')
    (hopens : ws ≠ [] → ∀ w ∈ ws'.head?, groqChunkOverlapBytes < w.stop) :
    Covers groqChunkOverlapBytes 0 (base + stop) (ws ++ ws'.map (Window.shift base)) := by
  have hshift := hcov.shift base
  rcases h.run with ⟨rfl, rfl⟩ | ⟨hws, -⟩
  · exact hshift
  · have hne : ws ≠ [] := by
      rintro rfl
      simpa using hws.first
    refine hws.append hshift rfl ?_
    intro w hw
    rw [List.head?_map] at hw
    obtain ⟨v, hv, rfl⟩ := Option.map_eq_some_iff.mp hw
    have := hopens hne v hv
    show base + groqChunkOverlapBytes < base + v.stop
    omega

theorem map_shift (h : Cut audio chunks rest ws base) (ws' : List Window) :
    chunks ++ (ws'.map fun w => w.slice rest) =
      (ws ++ ws'.map (Window.shift base)).map fun w => w.slice audio := by
  rw [List.map_append, List.map_map, ← h.chunks_eq, h.rest_eq]
  exact congrArg _ (List.map_congr_left fun w _ => (Window.slice_shift base w audio).symm)

theorem trans (h : Cut audio chunks rest ws base) (h' : Cut rest chunks' rest' ws' base') :
    Cut audio (chunks ++ chunks') rest' (ws ++ ws'.map (Window.shift base)) (base + base') where
  chunks_eq := by rw [h'.chunks_eq, h.map_shift]
  rest_eq := by rw [h'.rest_eq, h.rest_eq, List.drop_drop]
  fits := by
    intro w hw
    rcases List.mem_append.mp hw with hw | hw
    · exact h.fits w hw
    · obtain ⟨v, hv, rfl⟩ := List.mem_map.mp hw
      exact (h'.fits v hv).shift h.even
  even := Nat.dvd_add h.even h'.even
  run := by
    rcases h'.run with ⟨rfl, rfl⟩ | ⟨hcov, hle⟩
    · simpa using h.run
    · refine .inr ⟨?_, ?_⟩
      · rw [Nat.add_assoc]
        exact h.covers_shift hcov fun _ => h'.opens
      · rw [h.rest_eq, List.length_drop] at hle
        have := h.base_le
        omega
  opens := by
    intro w hw
    cases ws with
    | nil =>
      rw [List.nil_append, List.head?_map] at hw
      obtain ⟨v, hv, rfl⟩ := Option.map_eq_some_iff.mp hw
      have := h'.opens v hv
      show groqChunkOverlapBytes < base + v.stop
      omega
    | cons v ws => exact h.opens w hw

end Cut

theorem cut_one {buffer : List UInt8} (h : groqChunkBytes ≤ buffer.length) :
    Cut buffer [buffer.take groqChunkBytes] (buffer.drop groqStep) [⟨0, groqChunkBytes⟩] groqStep where
  chunks_eq := rfl
  rest_eq := rfl
  fits := by
    intro w hw
    obtain rfl := List.mem_singleton.mp hw
    exact fits_chunk (Nat.dvd_zero 2) (by decide) (by omega)
  even := by decide
  run := .inr ⟨Covers.single groqChunkOverlapBytes ⟨0, groqChunkBytes⟩, chunk_eq ▸ h⟩
  opens := by
    intro w hw
    obtain rfl := Option.some.inj hw
    decide

theorem cutChunks_cut (buffer : List UInt8) :
    ∃ ws base, Cut buffer (cutChunks buffer).1 (cutChunks buffer).2 ws base := by
  fun_induction cutChunks buffer with
  | case1 buffer h rest ih =>
    obtain ⟨ws, base, hcut⟩ := ih
    exact ⟨_, _, (cut_one h).trans hcut⟩
  | case2 buffer h => exact ⟨[], 0, Cut.nil buffer⟩

/-! ## runs -/

/-- what a stream holds once the audio `sent` has arrived -/
structure Holds (sent : List UInt8) (st : GroqStream) (ws : List Window) (base : Nat) : Prop where
  streamed : st.streamedBytes = sent.length
  cut : Cut sent st.chunks st.buffer ws base
  whole : sent.length ≤ groqFullAudioMaxBytes → ws = []

theorem Holds.sendAudio {sent : List UInt8} {st : GroqStream} {ws : List Window} {base : Nat}
    (h : Holds sent st ws base) (chunk : List UInt8) :
    ∃ ws base, Holds (sent ++ chunk) (st.sendAudio chunk) ws base := by
  have hlength : st.streamedBytes + chunk.length = (sent ++ chunk).length := by
    rw [h.streamed, List.length_append]
  unfold GroqStream.sendAudio
  by_cases hactive : groqPrestreamActive (st.streamedBytes + chunk.length) = true
  · obtain ⟨ws', base', hcut⟩ := cutChunks_cut (st.buffer ++ chunk)
    refine ⟨ws ++ ws'.map (Window.shift base), base + base', ?_, ?_, ?_⟩
    · rw [if_pos hactive]
      exact hlength
    · rw [if_pos hactive]
      exact (h.cut.extend chunk).trans hcut
    · intro hle
      have hgt : groqFullAudioMaxBytes < st.streamedBytes + chunk.length := of_decide_eq_true hactive
      omega
  · refine ⟨ws, base, ?_, ?_, ?_⟩
    · rw [if_neg hactive]
      exact hlength
    · rw [if_neg hactive]
      exact h.cut.extend chunk
    · intro hle
      rw [List.length_append] at hle
      exact h.whole (by omega)

theorem Holds.run {sent : List UInt8} {st : GroqStream} {ws : List Window} {base : Nat}
    (h : Holds sent st ws base) (sends : List (List UInt8)) :
    ∃ ws base, Holds (sent ++ sends.flatten) (st.run sends) ws base := by
  induction sends generalizing sent st ws base with
  | nil => exact ⟨ws, base, by simpa [GroqStream.run] using h⟩
  | cons chunk sends ih =>
    obtain ⟨ws', base', h'⟩ := h.sendAudio chunk
    obtain ⟨ws'', base'', h''⟩ := ih h'
    refine ⟨ws'', base'', ?_⟩
    rw [List.flatten_cons, ← List.append_assoc]
    exact h''

theorem holds_initial : Holds [] GroqStream.initial [] 0 :=
  ⟨rfl, Cut.nil [], fun _ => rfl⟩

/-- the windows of what a stream holds, then those planned over the rest of the finalized audio -/
theorem Holds.covers_planned {sent more : List UInt8} {st : GroqStream} {ws : List Window} {base : Nat}
    (h : Holds sent st ws base) (hne : sent ++ more ≠ [])
    (hlong : ws ≠ [] → groqChunkOverlapBytes < (st.buffer ++ more).length) :
    Covers groqChunkOverlapBytes 0 (sent ++ more).length
      (ws ++ (planFinalizeChunks (st.buffer ++ more).length).map (Window.shift base)) ∧
    ∀ w ∈ ws ++ (planFinalizeChunks (st.buffer ++ more).length).map (Window.shift base), Fits w := by
  have hcut := h.cut.extend more
  have hlength : base + (st.buffer ++ more).length = (sent ++ more).length := by
    rw [hcut.rest_eq, List.length_drop]
    have := hcut.base_le
    omega
  have hpos : 0 < (st.buffer ++ more).length := by
    rcases h.cut.run with ⟨-, hbase⟩ | ⟨hcov, -⟩
    · have := List.length_pos_iff.mpr hne
      omega
    · have hws : ws ≠ [] := by
        rintro rfl
        simpa using hcov.first
      have := hlong hws
      omega
  obtain ⟨hcov, hfits, hopens⟩ := planFinalizeChunks_covers hpos
  refine ⟨?_, ?_⟩
  · rw [← hlength]
    exact hcut.covers_shift hcov fun hws => hopens (hlong hws)
  · intro w hw
    rcases List.mem_append.mp hw with hw | hw
    · exact h.cut.fits w hw
    · obtain ⟨v, hv, rfl⟩ := List.mem_map.mp hw
      exact (hfits v hv).shift h.cut.even

theorem issue_covers (sends : List (List UInt8)) (pcm : List UInt8)
    (hsends : sends.flatten <+: pcm) (hpcm : pcm ≠ []) :
    ∃ (st : GroqStream) (ws : List Window),
      (GroqStream.initial.run sends).issue pcm = .ok st ∧
      st.chunks = (ws.map fun w => w.slice pcm) ∧
      Covers groqChunkOverlapBytes 0 pcm.length ws ∧
      (∀ w ∈ ws, Fits w ∧ w.stop ≤ pcm.length) ∧
      (pcm.length ≤ groqFullAudioMaxBytes → ws = [⟨0, pcm.length⟩]) := by
  obtain ⟨more, rfl⟩ := hsends
  obtain ⟨ws, base, h⟩ := holds_initial.run sends
  rw [List.nil_append] at h
  generalize GroqStream.initial.run sends = st at h
  have hcut := h.cut.extend more
  have hempty : st.chunks = [] ↔ ws = [] := by rw [h.cut.chunks_eq, List.map_eq_nil_iff]
  have hwhole : (sends.flatten ++ more).length ≤ groqFullAudioMaxBytes → ws = [] ∧ base = 0 := by
    intro hle
    rw [List.length_append] at hle
    have hws := h.whole (by omega)
    rcases h.cut.run with hnil | ⟨hcov, -⟩
    · exact hnil
    · rw [hws] at hcov
      simpa using hcov.first
  have hfit : ¬ st.streamedBytes > (sends.flatten ++ more).length := by
    rw [h.streamed, List.length_append]
    omega
  unfold GroqStream.issue
  rw [if_neg hfit, h.streamed, List.drop_left]
  by_cases hfinal : (st.chunks.isEmpty || decide ((st.buffer ++ more).length > groqChunkOverlapBytes)) = true
  · have hlong : ws ≠ [] → groqChunkOverlapBytes < (st.buffer ++ more).length := by
      intro hws
      rcases Bool.or_eq_true _ _ ▸ hfinal with hc | hc
      · exact absurd (hempty.mp (List.isEmpty_iff.mp hc)) hws
      · exact of_decide_eq_true hc
    obtain ⟨hcov, hfits⟩ := h.covers_planned hpcm hlong
    refine ⟨_, _, if_pos hfinal, hcut.map_shift _, hcov, fun w hw => ⟨hfits w hw, hcov.stop_le w hw⟩, ?_⟩
    intro hle
    obtain ⟨rfl, rfl⟩ := hwhole hle
    have hlength : (st.buffer ++ more).length = (sends.flatten ++ more).length := by
      rw [hcut.rest_eq, List.drop_zero]
    rw [hlength, planFinalizeChunks, if_pos hle]
    simp [Window.shift]
  · have hshort : (st.buffer ++ more).length ≤ groqChunkOverlapBytes ∧ ws ≠ [] := by
      simp only [Bool.or_eq_true, List.isEmpty_iff, hempty, decide_eq_true_eq, not_or] at hfinal
      exact ⟨by omega, hfinal.1⟩
    rcases h.cut.run with ⟨hws, -⟩ | ⟨hcov, hle⟩
    · exact absurd hws hshort.2
    -- nothing arrived after the last window
    · have hlength : base + groqChunkOverlapBytes = (sends.flatten ++ more).length := by
        have hbuffer := hshort.1
        rw [hcut.rest_eq, List.length_drop] at hbuffer
        rw [List.length_append] at hbuffer ⊢
        omega
      rw [hlength] at hcov
      refine ⟨_, ws, if_neg hfinal, hcut.chunks_eq, hcov, ?_, ?_⟩
      · intro w hw
        exact ⟨h.cut.fits w hw, hcov.stop_le w hw⟩
      · intro hmax
        exact absurd (hwhole hmax).1 hshort.2

/-- the completion awaits what was issued -/
theorem GroqStream.complete_of_issue {st st' : GroqStream} {pcm : List UInt8}
    (request : List UInt8 → Except BoundaryError GroqChunkTranscript)
    (h : st.issue pcm = .ok st') :
    st.complete request pcm = (st'.chunks.mapM request).map fun transcripts =>
      ({ provider := .groq, text := (mergeChunkTranscripts transcripts).text },
        (mergeChunkTranscripts transcripts).words) := by
  unfold GroqStream.complete
  rw [h]
  show (st'.chunks.mapM request >>= _) = _
  cases st'.chunks.mapM request with
  | error e => rfl
  | ok transcripts => rfl

/-- **the windows that a stream requests, those cut off while the audio arrived and those planned at
the end, run over the finalized audio; a short Recording is one window** -/
theorem requests_cover (sends : List (List UInt8)) (pcm : List UInt8)
    (hsends : sends.flatten <+: pcm) (hpcm : pcm ≠ []) :
    ∃ (st : GroqStream) (ws : List Window),
      (GroqStream.initial.run sends).issue pcm = .ok st ∧
      (∀ request, (GroqStream.initial.run sends).complete request pcm =
        (st.chunks.mapM request).map fun transcripts =>
          ({ provider := .groq, text := (mergeChunkTranscripts transcripts).text },
            (mergeChunkTranscripts transcripts).words)) ∧
      st.chunks = (ws.map fun w => w.slice pcm) ∧
      Covers groqChunkOverlapBytes 0 pcm.length ws ∧
      (∀ w ∈ ws, Fits w ∧ w.stop ≤ pcm.length) ∧
      (pcm.length ≤ groqFullAudioMaxBytes → ws = [⟨0, pcm.length⟩]) := by
  obtain ⟨st, ws, hissue, hcovers⟩ := issue_covers sends pcm hsends hpcm
  exact ⟨st, ws, hissue, fun request => GroqStream.complete_of_issue request hissue, hcovers⟩

/-- a Recording of five million bytes whose first four million arrived while it was captured -/
theorem requests_cover_long :
    [List.replicate 4000000 (0 : UInt8)].flatten <+: List.replicate 5000000 (0 : UInt8) ∧
    ∃ (st : GroqStream) (ws : List Window),
      (GroqStream.initial.run [List.replicate 4000000 0]).issue (List.replicate 5000000 0) = .ok st ∧
      st.chunks = (ws.map fun w => w.slice (List.replicate 5000000 0)) ∧
      Covers groqChunkOverlapBytes 0 5000000 ws := by
  have hsends : [List.replicate 4000000 (0 : UInt8)].flatten <+: List.replicate 5000000 (0 : UInt8) := by
    rw [List.flatten_singleton]
    exact ⟨List.replicate 1000000 0, List.replicate_append_replicate⟩
  have hpcm : List.replicate 5000000 (0 : UInt8) ≠ [] := by
    intro h
    have := congrArg List.length h
    rw [List.length_replicate, List.length_nil] at this
    exact absurd this (by decide)
  obtain ⟨st, ws, hissue, -, hchunks, hcov, -, -⟩ := requests_cover _ _ hsends hpcm
  rw [List.length_replicate] at hcov
  exact ⟨hsends, st, ws, hissue, hchunks, hcov⟩

end Voisu.Groq
