import Voisu.Lib.F64
import Mathlib.Tactic.Linarith
import Mathlib.Tactic.NormNum
import Mathlib.Tactic.Ring
import Mathlib.Tactic.FieldSimp

/-!
# The error of rounding

* `roundHalfEven_near`   a nearest integer is at most a half away;
* `roundF64_near`        a nearest double is at most a sixteenth of the number away, which is far
                         from sharp and enough for bounds.
-/

namespace Voisu.Lib

theorem roundHalfEven_near (q : ℚ) : |(roundHalfEven q : ℚ) - q| ≤ 1 / 2 := by
  have hle := Int.floor_le q
  have hlt := Int.lt_floor_add_one q
  unfold roundHalfEven
  dsimp only
  rw [abs_le]
  split
  · rename_i h
    constructor <;> linarith
  split
  · rename_i h1 h2
    push_cast
    constructor <;> linarith
  rename_i h1 h2
  split
  · constructor <;> linarith
  · push_cast
    constructor <;> linarith

theorem two_zpow_log2Floor_le {q : ℚ} (hq : 0 < q) : (2 : ℚ) ^ log2Floor q ≤ q := by
  unfold log2Floor
  dsimp only
  split
  · assumption
  have hnum : 0 < q.num := Rat.num_pos.mpr hq
  have hden : (0 : ℚ) < q.den := by exact_mod_cast q.den_pos
  have h1 : (2 : ℚ) ^ Nat.log2 q.num.natAbs ≤ q.num := by
    have h := Nat.log2_self_le (show q.num.natAbs ≠ 0 by omega)
    have h' : ((2 ^ Nat.log2 q.num.natAbs : ℕ) : ℚ) ≤ ((q.num.natAbs : ℕ) : ℚ) := by
      exact_mod_cast h
    have hc : ((q.num.natAbs : ℕ) : ℚ) = (q.num : ℚ) := by
      rw [← Int.cast_natCast, Int.natAbs_of_nonneg hnum.le]
    rw [hc] at h'
    push_cast at h'
    exact h'
  have h2 : (q.den : ℚ) < 2 ^ (Nat.log2 q.den + 1) := by
    exact_mod_cast Nat.lt_log2_self
  have hexp : (2 : ℚ) ^ ((Nat.log2 q.num.natAbs : Int) - Nat.log2 q.den - 1) =
      2 ^ Nat.log2 q.num.natAbs / 2 ^ (Nat.log2 q.den + 1) := by
    rw [sub_sub, zpow_sub₀ two_ne_zero, zpow_natCast]
    norm_cast
  rw [hexp, div_le_iff₀ (by positivity)]
  calc (2 : ℚ) ^ Nat.log2 q.num.natAbs ≤ q.num := h1
    _ = q * q.den := (Rat.mul_den_eq_num q).symm
    _ ≤ q * 2 ^ (Nat.log2 q.den + 1) := mul_le_mul_of_nonneg_left h2.le hq.le

example : log2Floor 5 = 2 ∧ log2Floor (1 / 3) = -2 := by decide +kernel

/-- **a double is near the number it is rounded from** -/
theorem roundF64_near {q : ℚ} (hq : 1 / 2 ^ 100 ≤ q) : |roundF64 q - q| ≤ q / 16 := by
  have hpos : 0 < q := lt_of_lt_of_le (by positivity) hq
  unfold roundF64
  rw [if_neg hpos.ne', abs_of_pos hpos]
  generalize hu : (2 : ℚ) ^ (max (log2Floor q) (-1022) - 52) = ulp
  have hulp : 0 < ulp := by
    rw [← hu]
    exact zpow_pos two_pos _
  have hsmall : ulp ≤ q / 8 := by
    rw [← hu]
    rcases max_cases (log2Floor q) (-1022) with ⟨h, -⟩ | ⟨h, -⟩
    · rw [h, zpow_sub₀ two_ne_zero]
      have := two_zpow_log2Floor_le hpos
      rw [div_le_div_iff₀ (by positivity) (by positivity)]
      calc (2 : ℚ) ^ log2Floor q * 8 ≤ q * 8 := by linarith
        _ ≤ q * 2 ^ (52 : Int) := by
          apply mul_le_mul_of_nonneg_left _ hpos.le
          norm_num
    · rw [h]
      calc (2 : ℚ) ^ (-1022 - 52 : Int) ≤ 2 ^ (-103 : Int) :=
            zpow_le_zpow_right₀ one_le_two (by norm_num)
        _ = 1 / 2 ^ 100 / 8 := by norm_num
        _ ≤ q / 8 := div_le_div_of_nonneg_right hq (by norm_num)
  have hnear := roundHalfEven_near (q / ulp)
  have herr : (roundHalfEven (q / ulp) : ℚ) * ulp - q =
      ((roundHalfEven (q / ulp) : ℚ) - q / ulp) * ulp := by
    field_simp
  dsimp only
  rw [herr, abs_mul, abs_of_pos hulp]
  calc |(roundHalfEven (q / ulp) : ℚ) - q / ulp| * ulp ≤ 1 / 2 * ulp :=
        mul_le_mul_of_nonneg_right hnear hulp.le
    _ ≤ q / 16 := by linarith

theorem roundF64_le {q : ℚ} (hq : 1 / 2 ^ 100 ≤ q) : roundF64 q ≤ q * 17 / 16 := by
  have := (abs_le.mp (roundF64_near hq)).2
  linarith

theorem le_roundF64 {q : ℚ} (hq : 1 / 2 ^ 100 ≤ q) : q * 15 / 16 ≤ roundF64 q := by
  have := (abs_le.mp (roundF64_near hq)).1
  linarith

end Voisu.Lib
