import Mathlib
import Voisu.Json

/-!
# The payload of a streamed WAV

`scan_wav_pcm` is given a growing prefix of what `pw-record` writes.  It says where the samples begin,
that the stream is refused, or that more of it is needed.

* `chunkAt`              one chunk header, and where the next one stands;
* `scanWavPcm`           the walk over the chunks;
* `scanWavPcm_prefix`    what a prefix decides the stream decides the same way, and a prefix that
                         reaches the payload decides.
-/

namespace Voisu.Capture

/-! ## machine words -/

def usizeMax : Nat := 2 ^ 64 - 1

def checkedAdd (a b : Nat) : Option Nat := if a + b ≤ usizeMax then some (a + b) else none
def saturatingAdd (a b : Nat) : Nat := min (a + b) usizeMax

def slice (bytes : List UInt8) (start len : Nat) : List UInt8 := (bytes.drop start).take len

/-- the number that little-endian bytes spell -/
def fromLeBytes : List UInt8 → Nat
  | [] => 0
  | b :: bs => b.toNat + 256 * fromLeBytes bs

theorem checkedAdd_eq_some {a b c : Nat} (h : checkedAdd a b = some c) :
    c = a + b ∧ a + b ≤ usizeMax := by
  simp only [checkedAdd] at h
  split at h
  next hle => exact ⟨(Option.some.inj h).symm, hle⟩
  next => cases h

theorem slice_prefix_eq {part whole : List UInt8} {start len : Nat} (h : part <+: whole)
    (hlen : start + len ≤ part.length) : slice part start len = slice whole start len := by
  obtain ⟨rest, rfl⟩ := h
  simp only [slice]
  rw [List.drop_append_of_le_length (by omega), List.take_append_of_le_length (by simp; omega)]

/-! ## the walk -/

inductive WavScan where
  | incomplete
  | dataAt (offset : Nat)
  | invalid (reason : Text)
deriving DecidableEq, Repr

def riff : List UInt8 := [0x52, 0x49, 0x46, 0x46]
def wave : List UInt8 := [0x57, 0x41, 0x56, 0x45]
def dataId : List UInt8 := [0x64, 0x61, 0x74, 0x61]
def fmtId : List UInt8 := [0x66, 0x6d, 0x74, 0x20]

/-- s16, one channel, 16 kHz, with the frame geometry that follows -/
def fmtExpected (body : List UInt8) : Bool :=
  fromLeBytes (slice body 0 2) == 1 && fromLeBytes (slice body 2 2) == 1 &&
  fromLeBytes (slice body 4 4) == 16000 && fromLeBytes (slice body 14 2) == 16 &&
  fromLeBytes (slice body 12 2) == 2 && fromLeBytes (slice body 8 4) == 32000

/-- bodies are aligned to words -/
def advancePastChunk (bodyEnd size : Nat) : Nat := saturatingAdd bodyEnd (size % 2)

inductive ChunkStep where
  | done (scan : WavScan)
  | next (offset : Nat) (fmtValidated : Bool)
deriving DecidableEq, Repr

/-- one turn of the loop of `scan_wav_pcm` -/
def chunkAt (stream : List UInt8) (offset : Nat) (fmtValidated : Bool) : ChunkStep :=
  match checkedAdd offset 8 with
  | none => .done (.invalid "WAV chunk offset overflowed".toList)
  | some headerEnd =>
    if stream.length < headerEnd then .done .incomplete
    else
      let id := slice stream offset 4
      let size := fromLeBytes (slice stream (offset + 4) 4)
      if id = dataId then
        if fmtValidated then .done (.dataAt headerEnd)
        else .done (.invalid "WAV data chunk precedes its fmt chunk".toList)
      else if id = fmtId then
        if size < 16 then .done (.invalid "WAV fmt chunk is too short".toList)
        else
          match checkedAdd headerEnd size with
          | none => .done (.invalid "WAV fmt chunk size overflowed".toList)
          | some bodyEnd =>
            if stream.length < headerEnd + 16 then .done .incomplete
            else if fmtExpected (slice stream headerEnd 16) then
              .next (advancePastChunk bodyEnd size) true
            else .done (.invalid "WAV fmt chunk is not s16 / 16 kHz / mono PCM".toList)
      else
        match checkedAdd headerEnd size with
        | none => .done (.invalid "WAV chunk size overflowed".toList)
        | some bodyEnd => .next (advancePastChunk bodyEnd size) fmtValidated

theorem le_advancePastChunk {headerEnd size bodyEnd : Nat}
    (h : checkedAdd headerEnd size = some bodyEnd) : bodyEnd ≤ advancePastChunk bodyEnd size := by
  obtain ⟨rfl, hle⟩ := checkedAdd_eq_some h
  simp only [advancePastChunk, saturatingAdd]
  omega

/-- what a turn that goes on has read: the body of a `fmt ` chunk is skipped only as a whole -/
theorem chunkAt_next {stream : List UInt8} {offset offset' : Nat} {v v' : Bool}
    (h : chunkAt stream offset v = .next offset' v') :
    offset + 8 ≤ stream.length ∧ offset + 8 ≤ offset' ∧
      (slice stream offset 4 = fmtId → offset + 24 ≤ offset') := by
  simp only [chunkAt] at h
  split at h
  next => cases h
  next headerEnd hhead =>
    obtain ⟨rfl, -⟩ := checkedAdd_eq_some hhead
    split at h
    next => cases h
    next hlen =>
      have hskip : ∀ {size bodyEnd}, checkedAdd (offset + 8) size = some bodyEnd →
          offset + 8 + size ≤ advancePastChunk bodyEnd size := by
        intro size bodyEnd hbody
        have := le_advancePastChunk hbody
        rwa [(checkedAdd_eq_some hbody).1] at this ⊢
      repeat' split at h
      all_goals cases h
      next hbody _ _ =>
        have := hskip hbody
        exact ⟨by omega, by omega, fun _ => by omega⟩
      next hfmt _ _ hbody =>
        have := hskip hbody
        exact ⟨by omega, by omega, fun hid => absurd hid hfmt⟩

theorem chunkAt_dataAt {stream : List UInt8} {offset o : Nat} {v : Bool}
    (h : chunkAt stream offset v = .done (.dataAt o)) :
    slice stream offset 4 = dataId ∧ o = offset + 8 ∧ o ≤ stream.length := by
  simp only [chunkAt] at h
  split at h
  next => cases h
  next headerEnd hhead =>
    obtain ⟨rfl, -⟩ := checkedAdd_eq_some hhead
    repeat' split at h
    all_goals cases h
    exact ⟨‹_›, rfl, by omega⟩

/-- a turn waits for a chunk header or for the body of a `fmt ` chunk -/
theorem chunkAt_incomplete {stream : List UInt8} {offset : Nat} {v : Bool}
    (h : chunkAt stream offset v = .done .incomplete) :
    stream.length < offset + 8 ∨ slice stream offset 4 = fmtId ∧ stream.length < offset + 24 := by
  simp only [chunkAt] at h
  split at h
  next => cases h
  next headerEnd hhead =>
    obtain ⟨rfl, -⟩ := checkedAdd_eq_some hhead
    repeat' split at h
    all_goals cases h
    next hshort => exact .inl hshort
    next hbody => exact .inr ⟨‹_›, hbody⟩

def scanChunks (stream : List UInt8) (offset : Nat) (fmtValidated : Bool) : WavScan :=
  match _h : chunkAt stream offset fmtValidated with
  | .done scan => scan
  | .next offset' fmtValidated' => scanChunks stream offset' fmtValidated'
termination_by stream.length - offset
decreasing_by
  have := chunkAt_next _h
  omega

def scanWavPcm (stream : List UInt8) : WavScan :=
  if 4 ≤ stream.length ∧ slice stream 0 4 ≠ riff then
    .invalid "capture stream is not a RIFF container".toList
  else if 12 ≤ stream.length ∧ slice stream 8 4 ≠ wave then
    .invalid "capture stream is not a WAVE stream".toList
  else if stream.length < 12 then .incomplete
  else scanChunks stream 12 false

theorem scanWavPcm_nil : scanWavPcm [] = .incomplete := rfl

/-! ## prefixes -/

section prefixes
variable {part whole : List UInt8} {offset o : Nat} {v : Bool}

theorem scanChunks_done {stream : List UInt8} {scan : WavScan}
    (h : chunkAt stream offset v = .done scan) : scanChunks stream offset v = scan := by
  rw [scanChunks]
  split
  next scan' h' => exact ChunkStep.done.inj (h'.symm.trans h)
  next h' => cases h'.symm.trans h

theorem scanChunks_next {stream : List UInt8} {offset' : Nat} {v' : Bool}
    (h : chunkAt stream offset v = .next offset' v') :
    scanChunks stream offset v = scanChunks stream offset' v' := by
  rw [scanChunks]
  split
  next h' => cases h'.symm.trans h
  next h' =>
    obtain ⟨rfl, rfl⟩ := ChunkStep.next.inj (h'.symm.trans h)
    rfl

/-- a turn over a prefix waits or is the turn over the stream -/
theorem chunkAt_prefix (h : part <+: whole) :
    chunkAt part offset v = .done .incomplete ∨ chunkAt part offset v = chunkAt whole offset v := by
  have hle := h.length_le
  simp only [chunkAt]
  split
  next => exact .inr rfl
  next headerEnd hhead =>
    obtain ⟨rfl, -⟩ := checkedAdd_eq_some hhead
    by_cases hshort : part.length < offset + 8
    · exact .inl (if_pos hshort)
    · have hid : slice part offset 4 = slice whole offset 4 := slice_prefix_eq h (by omega)
      have hsize : slice part (offset + 4) 4 = slice whole (offset + 4) 4 :=
        slice_prefix_eq h (by omega)
      rw [if_neg hshort, if_neg (by omega : ¬whole.length < offset + 8), hid, hsize]
      by_cases hbody : part.length < offset + 8 + 16
      · -- only the body of a fmt chunk may be missing
        simp only [hbody, if_true]
        repeat' split
        all_goals first | exact .inr rfl | exact .inl rfl
      · have hfmt : slice part (offset + 8) 16 = slice whole (offset + 8) 16 :=
          slice_prefix_eq h (by omega)
        have hwhole : ¬whole.length < offset + 8 + 16 := by omega
        simp only [hbody, hwhole, hfmt, or_true]

/-- the payload begins after every chunk header that was read -/
theorem le_of_scanChunks_dataAt {stream : List UInt8} (h : scanChunks stream offset v = .dataAt o) :
    offset + 8 ≤ o ∧ o ≤ stream.length := by
  induction hn : stream.length - offset using Nat.strongRecOn generalizing offset v with
  | _ n ih =>
    match hstep : chunkAt stream offset v with
    | .done scan =>
      rw [scanChunks_done hstep] at h
      subst h
      obtain ⟨-, rfl, hle⟩ := chunkAt_dataAt hstep
      exact ⟨by omega, hle⟩
    | .next offset' v' =>
      rw [scanChunks_next hstep] at h
      have hnext := chunkAt_next hstep
      have := ih _ (by omega) h rfl
      omega

/-- a turn over a prefix that waits has not reached the payload -/
theorem length_lt_of_chunkAt_incomplete (h : part <+: whole)
    (hpart : chunkAt part offset v = .done .incomplete)
    (hwhole : scanChunks whole offset v = .dataAt o) : part.length < o := by
  have hout := (le_of_scanChunks_dataAt hwhole).1
  by_cases hshort : part.length < offset + 8
  · omega
  · obtain ⟨hid, hlen⟩ := (chunkAt_incomplete hpart).resolve_left hshort
    rw [slice_prefix_eq h (by omega)] at hid
    match hstep : chunkAt whole offset v with
    | .done scan =>
      rw [scanChunks_done hstep] at hwhole
      subst hwhole
      have hdata := (chunkAt_dataAt hstep).1
      exact absurd (hdata.symm.trans hid) (by decide)
    | .next offset' v' =>
      rw [scanChunks_next hstep] at hwhole
      have := (le_of_scanChunks_dataAt hwhole).1
      have := (chunkAt_next hstep).2.2 hid
      omega

/-- the walk over a prefix waits or is the walk over the stream; it waits only before the payload -/
theorem scanChunks_prefix (h : part <+: whole) :
    scanChunks part offset v = .incomplete ∧
        (∀ o, scanChunks whole offset v = .dataAt o → part.length < o) ∨
      scanChunks part offset v = scanChunks whole offset v := by
  induction hn : part.length - offset using Nat.strongRecOn generalizing offset v with
  | _ n ih =>
    rcases chunkAt_prefix h with hwait | hsame
    · exact .inl ⟨scanChunks_done hwait, fun o ho => length_lt_of_chunkAt_incomplete h hwait ho⟩
    · match hstep : chunkAt part offset v with
      | .done scan =>
        have hwhole : chunkAt whole offset v = .done scan := hsame.symm.trans hstep
        exact .inr ((scanChunks_done hstep).trans (scanChunks_done hwhole).symm)
      | .next offset' v' =>
        have hwhole : chunkAt whole offset v = .next offset' v' := hsame.symm.trans hstep
        rw [scanChunks_next hstep, scanChunks_next hwhole]
        have hnext := chunkAt_next hstep
        exact ih _ (by omega) rfl

theorem scanWavPcm_bounds {stream : List UInt8} (h : scanWavPcm stream = .dataAt o) :
    20 ≤ o ∧ o ≤ stream.length := by
  simp only [scanWavPcm] at h
  repeat' split at h
  all_goals first | cases h | exact le_of_scanChunks_dataAt h

/-- **a prefix is undecided, or decides as the stream does; it is undecided only before the payload** -/
theorem scanWavPcm_prefix (h : part <+: whole) :
    scanWavPcm part = .incomplete ∧ (∀ o, scanWavPcm whole = .dataAt o → part.length < o) ∨
      scanWavPcm part = scanWavPcm whole := by
  have hle := h.length_le
  have hwait : ∀ o, part.length < 12 → scanWavPcm whole = .dataAt o → part.length < o := by
    intro o hshort ho
    have := (scanWavPcm_bounds ho).1
    omega
  by_cases h4 : 4 ≤ part.length
  · have hriff : slice part 0 4 = slice whole 0 4 := slice_prefix_eq h (by omega)
    have hwhole4 : 4 ≤ whole.length := by omega
    by_cases hr : slice whole 0 4 = riff
    · by_cases h12 : 12 ≤ part.length
      · have hwave : slice part 8 4 = slice whole 8 4 := slice_prefix_eq h (by omega)
        have hwhole12 : 12 ≤ whole.length := by omega
        have hlong : ¬part.length < 12 := by omega
        have hwholeLong : ¬whole.length < 12 := by omega
        simp only [scanWavPcm, hriff, hr, hwave, h12, hwhole12, hlong, hwholeLong, ne_eq,
          not_true_eq_false, and_false, if_false, true_and]
        split
        next => exact .inr rfl
        next => exact scanChunks_prefix h
      · have hshort : part.length < 12 := by omega
        refine .inl ⟨?_, fun o ho => hwait o hshort ho⟩
        simp only [scanWavPcm, hriff, hr, h12, hshort, ne_eq, not_true_eq_false, and_false,
          false_and, if_false, if_true]
    · refine .inr ?_
      simp only [scanWavPcm, hriff, hr, h4, hwhole4, ne_eq, not_false_eq_true, and_self, if_true]
  · have hshort : part.length < 12 := by omega
    refine .inl ⟨?_, fun o ho => hwait o hshort ho⟩
    have h12 : ¬12 ≤ part.length := by omega
    simp only [scanWavPcm, h4, h12, hshort, false_and, if_false, if_true]

end prefixes

end Voisu.Capture
