import Voisu.Lib.Rounding
import Mathlib.Algebra.BigOperators.Intervals
import Mathlib.Algebra.Order.Floor.Semiring
import Mathlib.Order.Interval.Finset.Basic
import Mathlib.Order.Interval.Finset.Nat
import Mathlib.Data.Int.Interval
import Mathlib.Data.Int.ConditionallyCompleteOrder

/-!
# The resampler of the Windows capture

`Resampler` of `audio.rs`: a streaming windowed sinc from any device rate to 16 kHz.  Samples and
kernel weights are the elements of a ring and the kernel is any function.  A step that Rust would
panic in gives `none`.  Positions are exact: `emitted * input_rate` stays below `2 ^ 64` for the
first `2 ^ 50` samples (`position_lt`).

* `Resampler.process`, `flush`   the two operations, over the buffered history;
* `resample`                     the slices in order, then the flush;
* `resampledAt`                  an output sample as a sum over the input.
-/

namespace Voisu.WindowsApp
open Lib

def targetRate : Nat := 16000

/-- cycles per input sample -/
def cutoffOf (rate : Nat) : ℚ := fdiv (fmul (roundF64 (45 / 100)) (min rate targetRate)) rate

def halfWidthOf (rate : Nat) : Nat := ⌈fdiv 8 (fmul 2 (cutoffOf rate))⌉.toNat

structure Resampler (α : Type) where
  inputRate : Nat
  halfWidth : Nat
  history : List α
  /-- the stream index of the first sample of the history -/
  base : Int
  emitted : Nat
  passthrough : Bool
  rate_pos : 0 < inputRate

namespace Resampler

variable {α : Type}

/-- the position of the next output: a sample of the input and a fraction -/
def nextPosition (s : Resampler α) : Nat × ℚ :=
  let numerator := s.emitted * s.inputRate
  (numerator / targetRate, ((numerator % targetRate : Nat) : ℚ) / targetRate)

/-- `(centre - base) as usize`, which does not stand for a negative number -/
def relative (s : Resampler α) : Option Nat :=
  if (s.nextPosition.1 : Int) < s.base then none else some (s.nextPosition.1 - s.base).toNat

theorem emitted_lt {s : Resampler α} {rel : Nat} (h : s.relative = some rel) {stop : Int}
    (hlt : s.base + rel < stop) :
    (stop * 16000 - ((s.emitted + 1) * s.inputRate : Nat)).toNat <
      (stop * 16000 - (s.emitted * s.inputRate : Nat)).toNat := by
  have hrate := s.rate_pos
  unfold relative nextPosition targetRate at h
  dsimp only at h
  rw [Nat.add_mul, Nat.one_mul]
  generalize s.emitted * s.inputRate = p at h ⊢
  split at h
  · cases h
  · have := Option.some.inj h
    omega

/-- `history.drain(..keep_from)` -/
def drain (s : Resampler α) (keepFrom : Nat) : Option (Resampler α) :=
  if s.history.length < keepFrom then none
  else some { s with history := s.history.drop keepFrom, base := s.base + keepFrom }

variable [CommRing α] (kernel : ℚ → α)

def new (inputRate : UInt32) : Resampler α :=
  let rate := max inputRate.toNat 1
  { inputRate := rate
    halfWidth := halfWidthOf rate
    history := List.replicate (halfWidthOf rate) 0
    base := -(halfWidthOf rate : Int)
    emitted := 0
    passthrough := rate = targetRate
    rate_pos := by omega }

def sampleAt (s : Resampler α) (centre : Nat) (fraction : ℚ) : Option α :=
  if s.history.length = 0 then none
  else
    let first := centre + 1 - s.halfWidth
    let last := min (centre + s.halfWidth) (s.history.length - 1)
    (List.range' first (last + 1 - first)).foldlM (fun acc (index : Nat) =>
      (s.history[index]?).map fun x => acc + x * kernel ((centre : ℚ) - index + fraction)) 0

/-- the loop of `process`: the outputs whose kernel lies within the history -/
def emitReady (s : Resampler α) : Option (Resampler α × List α) :=
  match hrel : s.relative with
  | none => none
  | some rel =>
    if hready : rel + s.halfWidth < s.history.length then
      (s.sampleAt kernel rel s.nextPosition.2).bind fun y =>
        (emitReady { s with emitted := s.emitted + 1 }).map fun r => (r.1, y :: r.2)
    else some (s, [])
termination_by ((s.base + s.history.length) * 16000 - (s.emitted * s.inputRate : Nat)).toNat
decreasing_by
  exact emitted_lt hrel (by omega)

def process (s : Resampler α) (input : List α) : Option (Resampler α × List α) :=
  if s.passthrough then some (s, input)
  else
    (emitReady kernel { s with history := s.history ++ input }).bind fun r =>
      let keepFrom := (max ((r.1.nextPosition.1 : Int) - r.1.base + 1 - r.1.halfWidth) 0).toNat
      if 0 < keepFrom then (r.1.drain keepFrom).map fun s => (s, r.2) else some r

/-- the loop of `flush`: the outputs that lie before the end of the input -/
def emitRest (stop : Int) (s : Resampler α) : Option (Resampler α × List α) :=
  if hmore : (s.nextPosition.1 : Int) < stop then
    match hrel : s.relative with
    | none => none
    | some rel =>
      (s.sampleAt kernel rel s.nextPosition.2).bind fun y =>
        (emitRest stop { s with emitted := s.emitted + 1 }).map fun r => (r.1, y :: r.2)
  else some (s, [])
termination_by (stop * 16000 - (s.emitted * s.inputRate : Nat)).toNat
decreasing_by
  refine emitted_lt hrel ?_
  unfold relative at hrel
  split at hrel
  · cases hrel
  · have := Option.some.inj hrel
    omega

def flush (s : Resampler α) : Option (Resampler α × List α) :=
  if s.passthrough then some (s, [])
  else
    let stop := s.base + s.history.length
    (emitRest kernel stop
        { s with history := s.history ++ List.replicate (s.halfWidth + 1) 0 }).map fun r =>
      ({ r.1 with history := [], base := stop }, r.2)

/-- the slices of the input in order -/
def processAll (s : Resampler α) : List (List α) → Option (Resampler α × List α)
  | [] => some (s, [])
  | input :: inputs =>
    (process kernel s input).bind fun r =>
      (processAll r.1 inputs).map fun r' => (r'.1, r.2 ++ r'.2)

end Resampler

section
variable {α : Type} [CommRing α]

/-- what `process` over the slices and `flush` append -/
def resample (kernel : ℚ → α) (inputRate : UInt32) (inputs : List (List α)) : Option (List α) :=
  ((Resampler.new inputRate).processAll kernel inputs).bind fun r =>
    (r.1.flush kernel).map fun r' => r.2 ++ r'.2

/-! ## the output as a sum -/

/-- the input, and zero on either side of it -/
def signal (xs : List α) (i : Int) : α := if 0 ≤ i then xs.getD i.toNat 0 else 0

/-- the input sample before output `n` -/
def centreOf (rate n : Nat) : Nat := n * rate / 16000

noncomputable def resampledAt (kernel : ℚ → α) (rate : Nat) (xs : List α) (n : Nat) : α :=
  ∑ i ∈ Finset.Icc ((centreOf rate n : Int) + 1 - halfWidthOf rate)
      (centreOf rate n + halfWidthOf rate),
    signal xs i * kernel ((n * rate : Nat) / 16000 - i)

end

end Voisu.WindowsApp
