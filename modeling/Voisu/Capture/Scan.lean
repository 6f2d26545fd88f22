import Mathlib
import Voisu.Capture.Wav

/-!
# The scan over a byte slice

A byte slice is at most `isize::MAX` long, which is what keeps the walk of `scan_wav_pcm` in range.

* `walkExact`           the walk in which an access out of range or an addition that overflows ends
                        the run;
* `scanExact_eq`        it ends, and is the scan;
* `Seen`                a chunk of the expected geometry on the way to the payload;
* `scanWavPcm_stable`   **what the scan of a prefix says of the stream**.
-/

namespace Voisu.Capture

def isizeMax : Nat := 2 ^ 63 - 1

/-- a slice of bytes, as long as one can be -/
structure ByteSlice where
  bytes : List UInt8
  bounded : bytes.length ≤ isizeMax

/-- a part that is there -/
def sliceExact (bytes : List UInt8) (start len : Nat) : Option (List UInt8) :=
  if start + len ≤ bytes.length then some (slice bytes start len) else none

/-- one turn, with every access in range and every addition exact -/
def chunkAtExact (stream : List UInt8) (offset : Nat) (fmtValidated : Bool) : Option ChunkStep := do
  let headerEnd ← checkedAdd offset 8
  if stream.length < headerEnd then some (.done .incomplete)
  else
    let id ← sliceExact stream offset 4
    let sizeBytes ← sliceExact stream (offset + 4) 4
    let size := fromLeBytes sizeBytes
    if id = dataId then
      if fmtValidated then some (.done (.dataAt headerEnd))
      else some (.done (.invalid "WAV data chunk precedes its fmt chunk".toList))
    else if id = fmtId then
      if size < 16 then some (.done (.invalid "WAV fmt chunk is too short".toList))
      else
        let bodyEnd ← checkedAdd headerEnd size
        let fmtEnd ← checkedAdd headerEnd 16
        if stream.length < fmtEnd then some (.done .incomplete)
        else
          let body ← sliceExact stream headerEnd 16
          if fmtExpected body then
            let next ← checkedAdd bodyEnd (size % 2)
            some (.next next true)
          else some (.done (.invalid "WAV fmt chunk is not s16 / 16 kHz / mono PCM".toList))
    else
      let bodyEnd ← checkedAdd headerEnd size
      let next ← checkedAdd bodyEnd (size % 2)
      some (.next next fmtValidated)

/-- so many turns; none where they are not enough, or one of them fails -/
def walkExact (stream : List UInt8) : Nat → Nat → Bool → Option WavScan
  | 0, _, _ => none
  | turns + 1, offset, fmtValidated =>
    match chunkAtExact stream offset fmtValidated with
    | none => none
    | some (.done scan) => some scan
    | some (.next offset fmtValidated) => walkExact stream turns offset fmtValidated

def scanExact (stream : List UInt8) (turns : Nat) : Option WavScan := do
  let preamble ← if 4 ≤ stream.length then sliceExact stream 0 4 else some riff
  if preamble ≠ riff then some (.invalid "capture stream is not a RIFF container".toList)
  else
    let form ← if 12 ≤ stream.length then sliceExact stream 8 4 else some wave
    if form ≠ wave then some (.invalid "capture stream is not a WAVE stream".toList)
    else if stream.length < 12 then some .incomplete
    else walkExact stream turns 12 false

/-! ## the walk stays in range -/

section
variable {stream : List UInt8} {offset size : Nat} {v : Bool}

theorem fromLeBytes_lt (bytes : List UInt8) : fromLeBytes bytes < 256 ^ bytes.length := by
  induction bytes with
  | nil => decide
  | cons b bytes ih =>
    have hb : b.toNat < 256 := b.toNat_lt
    rw [fromLeBytes, List.length_cons, Nat.pow_succ]
    omega

theorem size_lt (stream : List UInt8) (start : Nat) :
    fromLeBytes (slice stream start 4) < 2 ^ 32 := by
  have hlen : (slice stream start 4).length ≤ 4 := List.length_take_le _ _
  calc fromLeBytes (slice stream start 4) < 256 ^ (slice stream start 4).length := fromLeBytes_lt _
    _ ≤ 256 ^ 4 := Nat.pow_le_pow_right (by decide) hlen

theorem sliceExact_eq {start len : Nat} (h : start + len ≤ stream.length) :
    sliceExact stream start len = some (slice stream start len) := if_pos h

theorem checkedAdd_eq {a b : Nat} (h : a + b ≤ usizeMax) : checkedAdd a b = some (a + b) := if_pos h

/-- as far as the walk gets: not farther behind the slice than the largest chunk with its pad -/
def Near (stream : List UInt8) (offset : Nat) : Prop := offset ≤ stream.length + 2 ^ 32

/-- a turn stays in range -/
theorem chunkAtExact_eq (hlen : stream.length ≤ isizeMax) (hnear : Near stream offset) :
    chunkAtExact stream offset v = some (chunkAt stream offset v) := by
  have hroom : isizeMax + 2 ^ 33 ≤ usizeMax := by decide
  have hhead : checkedAdd offset 8 = some (offset + 8) := checkedAdd_eq (by
    rw [Near] at hnear
    omega)
  simp only [chunkAtExact, chunkAt, hhead, Option.bind_eq_bind, Option.bind_some]
  by_cases hshort : stream.length < offset + 8
  · rw [if_pos hshort, if_pos hshort]
  · have hsize := size_lt stream (offset + 4)
    have hid : sliceExact stream offset 4 = _ := sliceExact_eq (by omega)
    have hbytes : sliceExact stream (offset + 4) 4 = _ := sliceExact_eq (by omega)
    simp only [if_neg hshort, hid, hbytes, Option.bind_some]
    generalize fromLeBytes (slice stream (offset + 4) 4) = size at hsize ⊢
    have hbody : checkedAdd (offset + 8) size = some (offset + 8 + size) := checkedAdd_eq (by omega)
    have hfmt : checkedAdd (offset + 8) 16 = some (offset + 8 + 16) := checkedAdd_eq (by omega)
    have hpad : checkedAdd (offset + 8 + size) (size % 2) =
        some (advancePastChunk (offset + 8 + size) size) := by
      have hle : offset + 8 + size + size % 2 ≤ usizeMax := by omega
      rw [checkedAdd_eq hle, advancePastChunk, saturatingAdd, Nat.min_eq_left hle]
    simp only [hbody, hfmt, hpad, Option.bind_some]
    by_cases hfmtEnd : stream.length < offset + 8 + 16
    · simp only [hfmtEnd, if_true]
      split_ifs <;> rfl
    · have hslice : sliceExact stream (offset + 8) 16 = _ := sliceExact_eq (by omega)
      simp only [hfmtEnd, if_false, hslice, Option.bind_some]
      split_ifs <;> rfl

/-- and leaves the next one near -/
theorem chunkAt_near {offset' : Nat} {v' : Bool}
    (h : chunkAt stream offset v = .next offset' v') : Near stream offset' := by
  have hread := (chunkAt_next h).1
  have hsize := size_lt stream (offset + 4)
  simp only [chunkAt] at h
  generalize fromLeBytes (slice stream (offset + 4) 4) = size at h hsize
  have hend (headerEnd bodyEnd : Nat) (hhead : checkedAdd offset 8 = some headerEnd)
      (hbody : checkedAdd headerEnd size = some bodyEnd) :
      Near stream (advancePastChunk bodyEnd size) := by
    obtain ⟨rfl, -⟩ := checkedAdd_eq_some hhead
    obtain ⟨rfl, -⟩ := checkedAdd_eq_some hbody
    have hle : advancePastChunk (offset + 8 + size) size ≤ offset + 8 + size + size % 2 :=
      Nat.min_le_left _ _
    rw [Near]
    omega
  split at h
  next => cases h
  next headerEnd hhead =>
    repeat' split at h
    all_goals cases h
    next bodyEnd hbody _ _ => exact hend headerEnd bodyEnd hhead hbody
    next bodyEnd hbody => exact hend headerEnd bodyEnd hhead hbody

/-- the walk ends, in range, as the scan does -/
theorem walkExact_eq (hlen : stream.length ≤ isizeMax) {turns : Nat} (hnear : Near stream offset)
    (hturns : stream.length < turns + offset) :
    walkExact stream (turns + 1) offset v = some (scanChunks stream offset v) := by
  induction turns generalizing offset v with
  | zero =>
    rw [walkExact, chunkAtExact_eq hlen hnear]
    cases hstep : chunkAt stream offset v with
    | done scan => rw [scanChunks_done hstep]
    | next offset' v' =>
      have hread := (chunkAt_next hstep).1
      omega
  | succ turns ih =>
    rw [walkExact, chunkAtExact_eq hlen hnear]
    cases hstep : chunkAt stream offset v with
    | done scan => rw [scanChunks_done hstep]
    | next offset' v' =>
      have hpast := (chunkAt_next hstep).2.1
      rw [scanChunks_next hstep]
      exact ih (chunkAt_near hstep) (by omega)

/-- **the scan of a slice ends, and no access of it is out of range and no offset overflows** -/
theorem scanExact_eq (s : ByteSlice) :
    scanExact s.bytes (s.bytes.length + 1) = some (scanWavPcm s.bytes) := by
  obtain ⟨stream, hlen⟩ := s
  have hwalk : walkExact stream (stream.length + 1) 12 false = some (scanChunks stream 12 false) :=
    walkExact_eq hlen (by rw [Near]; omega) (by omega)
  simp only [scanExact, scanWavPcm, hwalk]
  by_cases h4 : 4 ≤ stream.length
  · have hriff : sliceExact stream 0 4 = some (slice stream 0 4) := sliceExact_eq (by omega)
    by_cases h12 : 12 ≤ stream.length
    · have hwave : sliceExact stream 8 4 = some (slice stream 8 4) := sliceExact_eq (by omega)
      simp only [h4, h12, hriff, hwave, if_true, true_and, Option.bind_eq_bind, Option.bind_some]
      split_ifs <;> rfl
    · simp only [h4, h12, hriff, if_true, if_false, true_and, false_and, Option.bind_eq_bind,
        Option.bind_some, (by omega : stream.length < 12), ne_eq, not_true_eq_false]
      split_ifs <;> rfl
  · have h12 : ¬12 ≤ stream.length := by omega
    simp only [h4, h12, if_false, false_and, Option.bind_eq_bind, Option.bind_some,
      (by omega : stream.length < 12), ne_eq, not_true_eq_false, if_true]

end

/-! ## the format is seen before the payload -/

def chunkSize (stream : List UInt8) (offset : Nat) : Nat := fromLeBytes (slice stream (offset + 4) 4)

/-- behind the body of a chunk and its pad -/
def nextChunk (stream : List UInt8) (offset : Nat) : Nat :=
  offset + 8 + chunkSize stream offset + chunkSize stream offset % 2

/-- a chunk header, and one that the chunks from there on lead to -/
inductive Chain (stream : List UInt8) : Nat → Nat → Prop
  | here (offset : Nat) : Chain stream offset offset
  | next {offset offset' : Nat} : offset + 8 ≤ stream.length →
      Chain stream (nextChunk stream offset) offset' → Chain stream offset offset'

/-- a `fmt ` chunk of s16, mono, 16 kHz -/
structure FmtAt (stream : List UInt8) (offset : Nat) : Prop where
  id : slice stream offset 4 = fmtId
  size : 16 ≤ chunkSize stream offset
  arrived : offset + 24 ≤ stream.length
  audioFormat : fromLeBytes (slice stream (offset + 8) 2) = 1
  channels : fromLeBytes (slice stream (offset + 10) 2) = 1
  sampleRate : fromLeBytes (slice stream (offset + 12) 4) = 16000
  byteRate : fromLeBytes (slice stream (offset + 16) 4) = 32000
  blockAlign : fromLeBytes (slice stream (offset + 20) 2) = 2
  bitsPerSample : fromLeBytes (slice stream (offset + 22) 2) = 16

/-- a `data` chunk whose payload begins at `n` -/
def DataFrom (stream : List UInt8) (offset n : Nat) : Prop :=
  ∃ d, Chain stream offset d ∧ slice stream d 4 = dataId ∧ n = d + 8

/-- the chunks lead to a `fmt ` chunk, and from behind it to the payload -/
def Seen (stream : List UInt8) (offset n : Nat) : Prop :=
  ∃ o, Chain stream offset o ∧ FmtAt stream o ∧ DataFrom stream (nextChunk stream o) n

section
variable {stream : List UInt8} {offset n : Nat} {v : Bool}

theorem slice_slice {start len start' len' : Nat} (h : start' + len' ≤ len) :
    slice (slice stream start len) start' len' = slice stream (start + start') len' := by
  simp only [slice, List.drop_take, List.drop_drop, List.take_take]
  rw [Nat.min_eq_left (by omega)]

theorem fmtAt_of_expected (hid : slice stream offset 4 = fmtId) (hsize : 16 ≤ chunkSize stream offset)
    (hlen : offset + 24 ≤ stream.length)
    (h : fmtExpected (slice stream (offset + 8) 16) = true) : FmtAt stream offset := by
  simp only [fmtExpected, Bool.and_eq_true, beq_iff_eq] at h
  obtain ⟨⟨⟨⟨⟨hformat, hchannels⟩, hrate⟩, hbits⟩, hblock⟩, hbytes⟩ := h
  rw [slice_slice (by decide)] at hformat hchannels hrate hbits hblock hbytes
  exact { id := hid, size := hsize, arrived := hlen, audioFormat := hformat, channels := hchannels,
          sampleRate := hrate, byteRate := hbytes, blockAlign := hblock, bitsPerSample := hbits }

/-- a turn that goes on goes to the next chunk, and has seen the format or learnt nothing of it -/
theorem chunkAt_seen (hlen : stream.length ≤ isizeMax) {offset' : Nat} {v' : Bool}
    (h : chunkAt stream offset v = .next offset' v') :
    offset + 8 ≤ stream.length ∧ offset' = nextChunk stream offset ∧
      (v' = v ∨ FmtAt stream offset) := by
  have hread := (chunkAt_next h).1
  have hsize : chunkSize stream offset < 2 ^ 32 := size_lt stream (offset + 4)
  have hroom : isizeMax + 2 ^ 33 ≤ usizeMax := by decide
  have hend (headerEnd bodyEnd : Nat) (hhead : checkedAdd offset 8 = some headerEnd)
      (hbody : checkedAdd headerEnd (chunkSize stream offset) = some bodyEnd) :
      advancePastChunk bodyEnd (chunkSize stream offset) = nextChunk stream offset := by
    obtain ⟨rfl, -⟩ := checkedAdd_eq_some hhead
    obtain ⟨rfl, -⟩ := checkedAdd_eq_some hbody
    exact Nat.min_eq_left (by omega)
  refine ⟨hread, ?_⟩
  simp only [chunkAt] at h
  split at h
  next => cases h
  next headerEnd hhead =>
    repeat' split at h
    all_goals cases h
    next hid hlong _ bodyEnd hbody hbodyLen hfmt =>
      obtain ⟨rfl, -⟩ := checkedAdd_eq_some hhead
      exact ⟨hend _ _ hhead hbody,
        .inr (fmtAt_of_expected hid (Nat.le_of_not_lt hlong) (by omega) hfmt)⟩
    next bodyEnd hbody => exact ⟨hend _ _ hhead hbody, .inl rfl⟩

theorem chunkAt_dataAt_seen (h : chunkAt stream offset v = .done (.dataAt n)) : v = true := by
  simp only [chunkAt] at h
  split at h
  next => cases h
  next =>
    repeat' split at h
    all_goals first | assumption | cases h

theorem Seen.next (h : offset + 8 ≤ stream.length) (hs : Seen stream (nextChunk stream offset) n) :
    Seen stream offset n := by
  obtain ⟨o, hchain, hfmt, hdata⟩ := hs
  exact ⟨o, .next h hchain, hfmt, hdata⟩

theorem DataFrom.next (h : offset + 8 ≤ stream.length)
    (hd : DataFrom stream (nextChunk stream offset) n) : DataFrom stream offset n := by
  obtain ⟨d, hchain, hdata⟩ := hd
  exact ⟨d, .next h hchain, hdata⟩

/-- a walk to the payload had seen the format, or sees it on the way -/
theorem scanChunks_seen (hlen : stream.length ≤ isizeMax)
    (h : scanChunks stream offset v = .dataAt n) :
    v = true ∧ DataFrom stream offset n ∨ Seen stream offset n := by
  induction hn : stream.length - offset using Nat.strongRecOn generalizing offset v with
  | _ k ih =>
    cases hstep : chunkAt stream offset v with
    | done scan =>
      rw [scanChunks_done hstep] at h
      subst h
      obtain ⟨hid, rfl, -⟩ := chunkAt_dataAt hstep
      exact .inl ⟨chunkAt_dataAt_seen hstep, offset, .here offset, hid, rfl⟩
    | next offset' v' =>
      rw [scanChunks_next hstep] at h
      have hpast := chunkAt_next hstep
      obtain ⟨hread, rfl, hv⟩ := chunkAt_seen hlen hstep
      rcases ih _ (by omega) h rfl with ⟨hv', hdata⟩ | hseen
      · rcases hv with rfl | hfmt
        · exact .inl ⟨hv', hdata.next hread⟩
        · exact .inr ⟨offset, .here offset, hfmt, hdata⟩
      · exact .inr (hseen.next hread)

end

/-! ## the scan of a prefix -/

/-- what the scan of a prefix says of the stream -/
structure Stable (part whole : ByteSlice) : Prop where
  ends : scanExact part.bytes (part.bytes.length + 1) = some (scanWavPcm part.bytes)
  dataAt : ∀ n, scanWavPcm part.bytes = .dataAt n →
    n ≤ part.bytes.length ∧ scanWavPcm whole.bytes = .dataAt n
  invalid : ∀ reason, scanWavPcm part.bytes = .invalid reason →
    scanWavPcm whole.bytes = .invalid reason
  seen : ∀ n, scanWavPcm part.bytes = .dataAt n → Seen part.bytes 12 n

theorem scanWavPcm_seen {s : ByteSlice} {n : Nat} (h : scanWavPcm s.bytes = .dataAt n) :
    Seen s.bytes 12 n := by
  simp only [scanWavPcm] at h
  repeat' split at h
  all_goals first | cases h | skip
  exact (scanChunks_seen s.bounded h).resolve_left fun hv => Bool.false_ne_true hv.1

/-- **the scan is stable under growth of the prefix** -/
theorem scanWavPcm_stable (part whole : ByteSlice) (h : part.bytes <+: whole.bytes) :
    Stable part whole where
  ends := scanExact_eq part
  dataAt n hdata := by
    have hsame := ( scanWavPcm_prefix h).resolve_left fun hwait => by
      rw [hwait.1] at hdata
      cases hdata
    exact ⟨(scanWavPcm_bounds hdata).2, hsame ▸ hdata⟩
  invalid reason hreason := by
    have hsame := ( scanWavPcm_prefix h).resolve_left fun hwait => by
      rw [hwait.1] at hreason
      cases hreason
    exact hsame ▸ hreason
  seen n hdata := scanWavPcm_seen hdata

/-- a header with an odd chunk between the format and the payload -/
def oddHeader : ByteSlice where
  bytes := riff ++ [0xff, 0xff, 0xff, 0xff] ++ wave ++ fmtId ++ [16, 0, 0, 0] ++
    [1, 0, 1, 0, 0x80, 0x3e, 0, 0, 0, 0x7d, 0, 0, 2, 0, 16, 0] ++ [0x4c, 0x49, 0x53, 0x54] ++
    [3, 0, 0, 0] ++ [7, 7, 7, 0] ++ dataId ++ [0, 0, 0, 0]
  bounded := by decide

def oddStream : ByteSlice where
  bytes := oddHeader.bytes ++ [1, 2, 3, 4]
  bounded := by decide

theorem scanWavPcm_stable_oddHeader :
    Stable oddHeader oddStream ∧ scanWavPcm oddHeader.bytes = .dataAt 56 := by
  refine ⟨scanWavPcm_stable oddHeader oddStream (List.prefix_append _ _), ?_⟩
  have hscan : scanExact oddHeader.bytes (oddHeader.bytes.length + 1) = some (.dataAt 56) := by
    decide
  exact Option.some.inj ((scanExact_eq oddHeader).symm.trans hscan)

end Voisu.Capture
