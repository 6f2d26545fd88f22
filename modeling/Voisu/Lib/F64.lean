import Mathlib.Data.Rat.Floor
import Mathlib.Tactic.Common

/-!
# Double-precision numbers

A finite double is the rational number it stands for; arithmetic rounds the exact result to the
nearest double, ties to even.  The results that the source computes stay far from the overflow
threshold, so rounding never returns an infinity here.

* `roundF64`     the nearest double;
* `F64`          a double as data: finite, infinite or not a number.
-/

namespace Voisu.Lib

/-- `⌊log₂ q⌋` of a positive rational -/
def log2Floor (q : ℚ) : Int :=
  let k : Int := (Nat.log2 q.num.natAbs : Int) - Nat.log2 q.den
  if (2 : ℚ) ^ k ≤ q then k else k - 1

def roundHalfEven (q : ℚ) : Int :=
  let f := ⌊q⌋
  let r := q - f
  if r < 1 / 2 then f else if 1 / 2 < r then f + 1 else if f % 2 = 0 then f else f + 1

def roundF64 (q : ℚ) : ℚ :=
  if q = 0 then 0
  else
    -- 53 significant bits, fewer below the smallest normal number
    let ulp : ℚ := 2 ^ (max (log2Floor |q|) (-1022) - 52)
    roundHalfEven (q / ulp) * ulp

def fdiv (a b : ℚ) : ℚ := roundF64 (a / b)
def fmul (a b : ℚ) : ℚ := roundF64 (a * b)
def fadd (a b : ℚ) : ℚ := roundF64 (a + b)
def fsub (a b : ℚ) : ℚ := roundF64 (a - b)

/-- ties go to even on either side of zero -/
theorem roundHalfEven_neg (q : ℚ) : roundHalfEven (-q) = -roundHalfEven q := by
  have hle := Int.floor_le q
  have hlt := Int.lt_floor_add_one q
  unfold roundHalfEven
  simp only
  rcases eq_or_lt_of_le hle with h | h
  · have hneg : ⌊-q⌋ = -⌊q⌋ := by
      rw [← h, ← Int.cast_neg, Int.floor_intCast, Int.floor_intCast]
    have hr : -q - ((-⌊q⌋ : Int) : ℚ) = 0 := by
      push_cast
      linarith
    have hr' : q - (⌊q⌋ : ℚ) = 0 := by linarith
    rw [hneg, hr, hr', if_pos (by norm_num), if_pos (by norm_num)]
  · have hneg : ⌊-q⌋ = -⌊q⌋ - 1 := by
      rw [Int.floor_eq_iff]
      push_cast
      constructor <;> linarith
    have hr : -q - ((-⌊q⌋ - 1 : Int) : ℚ) = 1 - (q - ⌊q⌋) := by
      push_cast
      ring
    rw [hneg, hr]
    generalize hf : q - (⌊q⌋ : ℚ) = r
    rcases lt_trichotomy r (1 / 2) with h2 | h2 | h2
    · rw [if_neg (by linarith), if_pos (by linarith), if_pos h2]
      omega
    · rw [if_neg (by linarith), if_neg (by linarith)]
      rcases Int.emod_two_eq_zero_or_one ⌊q⌋ with hpar | hpar
      · rw [if_neg (by omega), if_neg (by linarith), if_neg (by linarith), if_pos hpar]
        omega
      · rw [if_pos (by omega), if_neg (by linarith), if_neg (by linarith), if_neg (by omega)]
        omega
    · rw [if_pos (by linarith), if_neg (by linarith), if_pos h2]
      omega

example : roundHalfEven (5 / 2) = 2 ∧ roundHalfEven (-(5 / 2)) = -2 := by decide +kernel

theorem roundF64_neg (q : ℚ) : roundF64 (-q) = -roundF64 q := by
  unfold roundF64
  by_cases h : q = 0
  · simp [h]
  · rw [if_neg h, if_neg (neg_ne_zero.mpr h), abs_neg]
    simp only [neg_div, roundHalfEven_neg]
    push_cast
    ring

theorem fsub_neg (a b : ℚ) : fsub b a = -fsub a b := by
  rw [fsub, fsub, ← roundF64_neg, neg_sub]

theorem fsub_self (a : ℚ) : fsub a a = 0 := by
  rw [fsub, sub_self, roundF64, if_pos rfl]

/-- a non-negative double with `places` decimals -/
def fixedText (places : Nat) (q : ℚ) : List Char :=
  let n := (roundHalfEven (q * 10 ^ places)).toNat
  let fraction := (toString (n % 10 ^ places)).toList
  (toString (n / 10 ^ places)).toList ++ ['.'] ++
    List.replicate (places - fraction.length) '0' ++ fraction

inductive F64 where
  | nan
  | posInfinity
  | negInfinity
  | finite (value : ℚ)
deriving DecidableEq, Repr

namespace F64

/-- `a < b`; comparisons with a NaN are false -/
def lt : F64 → F64 → Bool
  | finite a, finite b => a < b
  | negInfinity, finite _ | negInfinity, posInfinity | finite _, posInfinity => true
  | _, _ => false

def ge : F64 → F64 → Bool
  | finite a, finite b => b ≤ a
  | posInfinity, finite _ | posInfinity, posInfinity | posInfinity, negInfinity => true
  | finite _, negInfinity | negInfinity, negInfinity => true
  | _, _ => false

/-- the larger number; a NaN loses against a number -/
def max : F64 → F64 → F64
  | nan, b => b
  | a, nan => a
  | a, b => if lt a b then b else a

def min : F64 → F64 → F64
  | nan, b => b
  | a, nan => a
  | a, b => if lt b a then b else a

end F64

end Voisu.Lib
