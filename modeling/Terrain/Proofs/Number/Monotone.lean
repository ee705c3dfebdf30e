import Terrain.Proofs.Number.Encoding

/-!
# Rounding keeps the order

A larger real is not rounded to a smaller number. So a real on one side of a number of the format
stays on that side, and what is known of a rounded real at such numbers is known of the real itself.
-/

namespace Terrain.Number

lemma nearestEven_mono {x y : ℝ} (h : x ≤ y) : nearestEven x ≤ nearestEven y := by
  rcases (Int.floor_mono h).lt_or_eq with hlt | heq
  · have hx : nearestEven x ≤ ⌊x⌋ + 1 :=
      nearestEven_le_of_lt (by exact_mod_cast Int.lt_floor_add_one x)
    have hy := floor_le_nearestEven y
    omega
  · have hx := nearestEven_cases x
    have hy := nearestEven_cases y
    rw [heq] at hx
    rcases hx with ⟨hx, hx'⟩ | ⟨hx, hx'⟩ | ⟨hx, hx'⟩ <;>
      rcases hy with ⟨hy, hy'⟩ | ⟨hy, hy'⟩ | ⟨hy, hy'⟩ <;> first | omega | (exfalso; linarith)

namespace Format

variable (f : Format) {x y : ℝ}

lemma gridExponent_mono (h : |x| ≤ |y|) : f.gridExponent x ≤ f.gridExponent y := by
  rcases eq_or_ne x 0 with rfl | hx
  · rw [gridExponent_zero]
    exact f.minExponent_le_gridExponent y
  have hpos : 0 < |x| := abs_pos.mpr hx
  have hy : y ≠ 0 := abs_pos.mp (hpos.trans_le h)
  have hlog : Int.log 2 |x| ≤ Int.log 2 |y| := Int.log_mono_right hpos h
  rw [f.gridExponent_of_ne_zero hx, f.gridExponent_of_ne_zero hy]
  omega

lemma round_nonneg (hx : 0 ≤ x) : 0 ≤ f.round x :=
  mul_nonneg (by exact_mod_cast f.nearestMantissa_nonneg hx) (by positivity)

lemma abs_round (x : ℝ) : |f.round x| = f.round |x| := by
  rcases le_total 0 x with hx | hx
  · rw [abs_of_nonneg hx, abs_of_nonneg (f.round_nonneg hx)]
  · have hneg := f.round_nonneg (neg_nonneg.mpr hx)
    rw [round_neg] at hneg
    rw [abs_of_nonpos hx, abs_of_nonpos (neg_nonneg.mp hneg), round_neg]

/-- Reals on one side of zero are rounded in their order. -/
lemma round_mono_of_nonneg [f.Proper] (hx : 0 ≤ x) (h : x ≤ y) : f.round x ≤ f.round y := by
  have hy : 0 ≤ y := hx.trans h
  have hgrid : f.gridExponent x ≤ f.gridExponent y :=
    f.gridExponent_mono (by rwa [abs_of_nonneg hx, abs_of_nonneg hy])
  rcases hgrid.lt_or_eq with hlt | heq
  · -- the mantissa of `x` is at most a full one, that of `y` at least half of it
    have hmin := f.minExponent_le_gridExponent x
    obtain ⟨hmax, -⟩ := f.nearestMantissa_bounds hx
    obtain ⟨-, hfull⟩ := f.nearestMantissa_bounds hy
    have hfull := hfull.resolve_right (by omega)
    have hmx := f.nearestMantissa_nonneg hx
    have hmy := f.nearestMantissa_nonneg hy
    have hmax' : (f.nearestMantissa x : ℝ) ≤ 2 * f.unit := by
      exact_mod_cast (by omega : f.nearestMantissa x ≤ 2 * f.unit)
    have hfull' : (f.unit : ℝ) ≤ f.nearestMantissa y := by
      exact_mod_cast (by omega : (f.unit : ℤ) ≤ f.nearestMantissa y)
    calc f.round x ≤ 2 * f.unit * 2 ^ f.gridExponent x := by
          rw [round]
          gcongr
      _ = f.unit * 2 ^ (f.gridExponent x + 1) := by
          rw [zpow_add_one₀ (by norm_num)]
          ring
      _ ≤ f.nearestMantissa y * 2 ^ f.gridExponent y := by
          have hpow : (2 : ℝ) ^ (f.gridExponent x + 1) ≤ 2 ^ f.gridExponent y :=
            zpow_le_zpow_right₀ (by norm_num) hlt
          exact mul_le_mul hfull' hpow (by positivity) (le_trans (by positivity) hfull')
  · have hmantissa : f.nearestMantissa x ≤ f.nearestMantissa y := by
      rw [nearestMantissa, nearestMantissa, heq]
      exact nearestEven_mono (by gcongr)
    rw [round, round, heq]
    gcongr

lemma round_mono [f.Proper] (h : x ≤ y) : f.round x ≤ f.round y := by
  rcases le_total 0 x with hx | hx
  · exact f.round_mono_of_nonneg hx h
  rcases le_total 0 y with hy | hy
  · have hneg := f.round_nonneg (neg_nonneg.mpr hx)
    rw [round_neg] at hneg
    exact (neg_nonneg.mp hneg).trans (f.round_nonneg hy)
  · have hneg := f.round_mono_of_nonneg (neg_nonneg.mpr hy) (neg_le_neg h)
    rwa [round_neg, round_neg, neg_le_neg_iff] at hneg

/-- A multiple of a power of two that the format has is its own nearest number. -/
lemma round_intCast_mul_zpow {n : ℤ} (hn : n.natAbs < 2 ^ f.precision) {e : ℤ}
    (he : f.minExponent ≤ e) : f.round ((n : ℝ) * 2 ^ e) = n * 2 ^ e := by
  obtain ⟨m, rfl | rfl⟩ := n.eq_nat_or_neg
  · rw [Int.natAbs_natCast] at hn
    exact f.round_mul_zpow hn he
  · rw [Int.natAbs_neg, Int.natAbs_natCast] at hn
    rw [Int.cast_neg, Int.cast_natCast, neg_mul, round_neg, f.round_mul_zpow hn he]

end Format

end Terrain.Number
