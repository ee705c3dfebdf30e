import Terrain.Proofs.Number.Encoding

/-!
# How far rounding moves

Rounding moves a real by a fixed part of it at most, unless the real is close to the smallest spacing.
Where only reals up to a bound of at least one occur, both cases are covered by a fixed part of the
bound (`abs_round_sub_le_grain`), and so they are after a multiplication (`abs_round_mul_sub_le`).
-/

namespace Terrain.Number

/-- Rounding moves a real by a fixed part of it, or by half of the smallest spacing, at most. -/
lemma Format.abs_round_sub_le_add (f : Format) (x : ℝ) :
    |f.round x - x| ≤ |x| * 2 ^ (-(f.precision : ℤ)) + 2 ^ (f.minExponent - 1) := by
  rcases le_or_gt ((2 : ℝ) ^ (f.minExponent + f.precision - 1)) |x| with hx | hx
  · exact (f.abs_round_sub_le_mul hx).trans (le_add_of_nonneg_right (by positivity))
  have hgrid : f.gridExponent x = f.minExponent := by
    rcases eq_or_ne x 0 with rfl | h0
    · exact f.gridExponent_zero
    have hlog := (Int.lt_zpow_iff_log_lt (b := 2) (by norm_num) (abs_pos.mpr h0)).mp
      (by exact_mod_cast hx)
    rw [f.gridExponent_of_ne_zero h0]
    omega
  calc |f.round x - x| ≤ 2 ^ f.gridExponent x / 2 := f.abs_round_sub_le x
    _ = 2 ^ (f.minExponent - 1) := by rw [hgrid, zpow_sub_one₀ (by norm_num), div_eq_mul_inv]
    _ ≤ _ := le_add_of_nonneg_left (by positivity)

/-- The part by which rounding may move a real, with room for the smallest numbers. -/
noncomputable def grain : ℝ := 1 / (2 ^ 52 : ℕ)

lemma grain_pos : 0 < grain := by
  rw [grain]
  positivity

lemma grain_eq : grain = 1 / 2 ^ 52 := by
  rw [grain]
  norm_num

lemma grain_le : grain ≤ 1 / 1000 := by
  rw [grain_eq]
  norm_num

variable {x φ b : ℝ}

lemma grain_mul_nonneg (hb : 0 ≤ b) : 0 ≤ grain * b := mul_nonneg grain_pos.le hb

lemma grain_mul_le (hb : 0 ≤ b) : grain * b ≤ b / 1000 := by
  rw [div_eq_mul_one_div, mul_comm b]
  exact mul_le_mul_of_nonneg_right grain_le hb

/-- Rounding moves a product with a factor that is not too large by a fixed part of a bound. -/
lemma abs_round_mul_sub_le (hφ : 0 ≤ φ) (hφ' : φ ≤ 2 ^ (128 : ℤ)) (hb : |x * φ| ≤ b) (hb1 : 1 ≤ b) :
    |double.round x * φ - x * φ| ≤ grain * b := by
  have htiny : (2 : ℝ) ^ (-1075 : ℤ) * φ ≤ 2 ^ (-53 : ℤ) :=
    calc (2 : ℝ) ^ (-1075 : ℤ) * φ ≤ 2 ^ (-1075 : ℤ) * 2 ^ (128 : ℤ) := by gcongr
      _ ≤ 2 ^ (-53 : ℤ) := by
        rw [← zpow_add₀ (by norm_num)]
        exact zpow_le_zpow_right₀ (by norm_num) (by norm_num)
  have hhalf : grain = 2 ^ (-53 : ℤ) + 2 ^ (-53 : ℤ) := by
    rw [grain]
    norm_num
  calc |double.round x * φ - x * φ| = |double.round x - x| * φ := by
        rw [← sub_mul, abs_mul, abs_of_nonneg hφ]
    _ ≤ (|x| * 2 ^ (-53 : ℤ) + 2 ^ (-1075 : ℤ)) * φ := by
      gcongr
      exact double.abs_round_sub_le_add x
    _ = |x * φ| * 2 ^ (-53 : ℤ) + 2 ^ (-1075 : ℤ) * φ := by
      rw [abs_mul, abs_of_nonneg hφ]
      ring
    _ ≤ b * 2 ^ (-53 : ℤ) + b * 2 ^ (-53 : ℤ) :=
      add_le_add (mul_le_mul_of_nonneg_right hb (by positivity))
        (htiny.trans (le_mul_of_one_le_left (by positivity) hb1))
    _ = grain * b := by
      rw [hhalf]
      ring

lemma abs_round_sub_le_grain (hx : |x| ≤ b) (hb : 1 ≤ b) : |double.round x - x| ≤ grain * b := by
  have h : |double.round x * 1 - x * 1| ≤ grain * b :=
    abs_round_mul_sub_le zero_le_one (by norm_num) (by rwa [mul_one]) hb
  rwa [mul_one, mul_one] at h

end Terrain.Number
