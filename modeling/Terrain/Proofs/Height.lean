import Terrain.Height
import Terrain.Proofs.Number.Conversion

/-!
# Heights come back as the integers they were made from

Dividing a stored integer by a factor and multiplying the height by it again moves the integer by
two roundings, far less than a half. So the integer nearest to the product is the stored one, and
its image is the height.
-/

namespace Terrain.Height

open Number

/-- Dividing and multiplying again moves a real by one rounding, apart from the last. -/
lemma abs_round_div_mul_sub_le {x r : ℝ} (hr : 0 < r) (hx : 2 ^ (-1022 : ℤ) ≤ |x / r|) :
    |double.round (x / r) * r - x| ≤ |x| * 2 ^ (-53 : ℤ) := by
  have hround := double.abs_round_sub_le_mul (x := x / r) hx
  calc |double.round (x / r) * r - x| = |double.round (x / r) - x / r| * r := by
        rw [← abs_of_pos hr, ← abs_mul, abs_of_pos hr, sub_mul, div_mul_cancel₀ _ hr.ne']
    _ ≤ |x / r| * 2 ^ (-53 : ℤ) * r := mul_le_mul_of_nonneg_right hround hr.le
    _ = |x| * 2 ^ (-53 : ℤ) := by
        rw [abs_div, abs_of_pos hr]
        field_simp

variable {n : Int32} {factor : Float32}

lemma abs_toInt_le (n : Int32) : |n.toInt| ≤ 2 ^ 31 := abs_le.mpr ⟨n.le_toInt, n.toInt_lt.le⟩

/-- The quotient of a stored integer by a factor is not too small to be rounded well. -/
lemma le_abs_quotient {r : ℝ} (hn : n.toInt ≠ 0) (hr : 0 < r) (hhi : r < 2 ^ (128 : ℤ)) :
    2 ^ (-1022 : ℤ) ≤ |(n.toInt : ℝ) / r| := by
  rw [abs_div, abs_of_pos hr, le_div_iff₀ hr]
  calc (2 : ℝ) ^ (-1022 : ℤ) * r ≤ 2 ^ (-1022 : ℤ) * 2 ^ (128 : ℤ) := by gcongr
    _ ≤ 1 := by
      rw [← zpow_add₀ (by norm_num)]
      exact zpow_le_one_of_nonpos₀ (by norm_num) (by norm_num)
    _ ≤ |(n.toInt : ℝ)| := by exact_mod_cast Int.one_le_abs hn

/-- The first rounding and the multiplication. -/
lemma abs_product_sub_le (n : Int32) {r : ℝ} (hr : 0 < r) (hhi : r < 2 ^ (128 : ℤ)) :
    |double.round (n.toInt / r) * r - n.toInt| ≤ 1 / 2 ^ 9 := by
  rcases eq_or_ne n.toInt 0 with hn | hn
  · simp [hn]
  have hmax : |(n.toInt : ℝ)| ≤ 2 ^ (31 : ℤ) := by exact_mod_cast abs_toInt_le n
  have hunit : ((2 : ℝ) ^ (-53 : ℤ)) ≤ 1 / 2 ^ 40 := by norm_num
  calc |double.round (n.toInt / r) * r - n.toInt|
      ≤ |(n.toInt : ℝ)| * 2 ^ (-53 : ℤ) := abs_round_div_mul_sub_le hr (le_abs_quotient hn hr hhi)
    _ ≤ 2 ^ (31 : ℤ) * (1 / 2 ^ 40) := by gcongr
    _ = 1 / 2 ^ 9 := by norm_num

lemma abs_product_le (n : Int32) {r : ℝ} (hr : 0 < r) (hhi : r < 2 ^ (128 : ℤ)) :
    |double.round (n.toInt / r) * r| ≤ 2 ^ 32 := by
  have hmax : |(n.toInt : ℝ)| ≤ 2 ^ 31 := by exact_mod_cast abs_toInt_le n
  have hnear := (abs_sub_abs_le_abs_sub _ _).trans (abs_product_sub_le n hr hhi)
  linarith

/-- The height of a stored integer is far from the largest doubles. -/
lemma abs_round_quotient_le (n : Int32) {r : ℝ} (hlo : 2 ^ (-149 : ℤ) ≤ r)
    (hhi : r < 2 ^ (128 : ℤ)) : |double.round (n.toInt / r)| ≤ 2 ^ (181 : ℤ) := by
  have hr : 0 < r := lt_of_lt_of_le (by positivity) hlo
  refine le_of_mul_le_mul_right ?_ hr
  calc |double.round (n.toInt / r)| * r = |double.round (n.toInt / r) * r| := by
        rw [abs_mul, abs_of_pos hr]
    _ ≤ 2 ^ (32 : ℤ) := by exact_mod_cast abs_product_le n hr hhi
    _ = 2 ^ (181 : ℤ) * 2 ^ (-149 : ℤ) := by
      rw [← zpow_add₀ (by norm_num)]
      norm_num
    _ ≤ 2 ^ (181 : ℤ) * r := by gcongr

/-- The second rounding, of a real that is close to a stored integer. -/
lemma abs_round_sub_le_of_near {y : ℝ} (hn : n.toInt ≠ 0) (hy : |y - n.toInt| ≤ 1 / 2 ^ 9) :
    |double.round y - y| ≤ 1 / 2 ^ 8 := by
  have hone : (1 : ℝ) ≤ |(n.toInt : ℝ)| := by exact_mod_cast Int.one_le_abs hn
  have hmax : |(n.toInt : ℝ)| ≤ 2 ^ (31 : ℤ) := by exact_mod_cast abs_toInt_le n
  have hunit : ((2 : ℝ) ^ (-53 : ℤ)) ≤ 1 / 2 ^ 40 := by norm_num
  have habove := (abs_sub_abs_le_abs_sub y (n.toInt : ℝ)).trans hy
  have hbelow := (abs_sub_abs_le_abs_sub (n.toInt : ℝ) y).trans (abs_sub_comm y _ ▸ hy)
  have hmin : (2 : ℝ) ^ (-1022 : ℤ) ≤ |y| := by
    have hhalf : (2 : ℝ) ^ (-1022 : ℤ) ≤ 2 ^ (-1 : ℤ) :=
      zpow_le_zpow_right₀ (by norm_num) (by norm_num)
    refine hhalf.trans ?_
    norm_num at hbelow ⊢
    linarith
  calc |double.round y - y| ≤ |y| * 2 ^ (-53 : ℤ) := double.abs_round_sub_le_mul hmin
    _ ≤ (2 ^ (31 : ℤ) + 1 / 2 ^ 9) * (1 / 2 ^ 40) := by
      gcongr
      linarith
    _ ≤ 1 / 2 ^ 8 := by norm_num

/-- A stored integer that was divided and multiplied again is not off by a half. -/
lemma abs_scaled_sub_lt (n : Int32) {r : ℝ} (hr : 0 < r) (hhi : r < 2 ^ (128 : ℤ)) :
    |double.round (n.toInt / r) * r - n.toInt| < 1 / 2 ∧
      |double.round (double.round (n.toInt / r) * r) - n.toInt| < 1 / 2 := by
  rcases eq_or_ne n.toInt 0 with h0 | h0
  · simp [h0]
  have hfirst := abs_product_sub_le n hr hhi
  have hsecond := abs_round_sub_le_of_near h0 hfirst
  have htriangle := abs_sub_le (double.round (double.round (n.toInt / r) * r))
    (double.round (n.toInt / r) * r) n.toInt
  refine ⟨hfirst.trans_lt (by norm_num), ?_⟩
  norm_num at hfirst hsecond ⊢
  linarith

/-- The quotient of a stored integer by a factor. -/
lemma stands_quotient {x : Float} (hx : Stands x n.toInt) {r : ℝ} (hr : (ofSingle factor).Denotes r)
    (hlo : 2 ^ (-149 : ℤ) ≤ r) : Stands (x / widen factor) (double.round (n.toInt / r)) := by
  have hpos : 0 < r := lt_of_lt_of_le (by positivity) hlo
  refine hx.div (stands_widen hr) hpos.ne' ?_
  rw [abs_div, abs_of_pos hpos, div_lt_iff₀ hpos]
  calc |(n.toInt : ℝ)| ≤ 2 ^ (31 : ℤ) := by exact_mod_cast abs_toInt_le n
    _ < 2 ^ (1023 : ℤ) * 2 ^ (-149 : ℤ) := by
      rw [← zpow_add₀ (by norm_num)]
      exact zpow_lt_zpow_right₀ (by norm_num) (by norm_num)
    _ ≤ 2 ^ (1023 : ℤ) * r := by gcongr

/-- The product of the height of a stored integer with the factor. -/
lemma stands_rescaled {x : Float} {r : ℝ} (hr : (ofSingle factor).Denotes r)
    (hlo : 2 ^ (-149 : ℤ) ≤ r) (hhi : r < 2 ^ (128 : ℤ))
    (himage : Stands x (double.round (n.toInt / r))) :
    Stands (x * widen factor) (double.round (double.round (n.toInt / r) * r)) := by
  refine himage.mul (stands_widen hr) ?_
  calc |double.round (n.toInt / r) * r| ≤ 2 ^ (32 : ℤ) := by
        exact_mod_cast abs_product_le n (lt_of_lt_of_le (by positivity) hlo) hhi
    _ < 2 ^ (1023 : ℤ) := zpow_lt_zpow_right₀ (by norm_num) (by norm_num)

/-- A number that stands for the height of a stored integer is recovered as that integer. -/
lemma recover_of_stands {x : Float} {r : ℝ} (hr : (ofSingle factor).Denotes r)
    (hlo : 2 ^ (-149 : ℤ) ≤ r) (hhi : r < 2 ^ (128 : ℤ))
    (himage : Stands x (double.round (n.toInt / r))) : recover x factor = n := by
  have hsecond := (abs_scaled_sub_lt n (lt_of_lt_of_le (by positivity) hlo) hhi).2
  have hscaled := stands_rescaled hr hlo hhi himage
  have hnearest := hscaled.roundAway hsecond (lt_of_le_of_lt (abs_toInt_le n) (by norm_num))
  -- both heights stand for the same real, so the first comparison holds
  have hbeq := ((stands_quotient hnearest hr hlo).beq himage).mpr rfl
  rw [recover]
  simp only [hbeq, Bool.true_or, if_true]
  exact hnearest.truncate

/-- The height of a stored integer is recovered as that integer. -/
lemma recover_image (n : Int32) (hpos : 0 < factor) (hfin : factor.isFinite = true) :
    recover (ofStored n factor) factor = n := by
  obtain ⟨r, hr, hlo, hhi⟩ := exists_denotes_of_pos hpos hfin
  exact recover_of_stands hr hlo hhi (stands_quotient (stands_doubleOfInt32 n) hr hlo)

lemma denotes_defaultFactor : (ofSingle defaultFactor).Denotes 100 := by
  refine ⟨false, 13107200, -17, by decide, ?_⟩
  norm_num [signed]

lemma quantize_default : quantize defaultHeight defaultFactor = 2100 := by decide

/-- Only the stored zero has the height zero. -/
lemma ofStored_beq_zero (n : Int32) (hpos : 0 < factor) (hfin : factor.isFinite = true) :
    (ofStored n factor == 0) = true ↔ n = 0 := by
  obtain ⟨r, hr, hlo, hhi⟩ := exists_denotes_of_pos hpos hfin
  have hfirst := (abs_scaled_sub_lt n (lt_of_lt_of_le (by positivity) hlo) hhi).1
  have himage : Stands (ofStored n factor) (double.round (n.toInt / r)) :=
    stands_quotient (stands_doubleOfInt32 n) hr hlo
  rw [himage.beq stands_zero, ← Int32.toInt_inj]
  constructor
  · intro h
    rw [h, zero_mul, zero_sub, abs_neg] at hfirst
    have hlt : |n.toInt| < 1 := by
      have : |(n.toInt : ℝ)| < 1 := by linarith
      exact_mod_cast this
    exact Int.abs_lt_one_iff.mp hlt
  · intro h
    simp [h]

lemma exists_stands_ofStored (n : Int32) (hpos : 0 < factor) (hfin : factor.isFinite = true) :
    ∃ x, Stands (ofStored n factor) x := by
  obtain ⟨r, hr, hlo, hhi⟩ := exists_denotes_of_pos hpos hfin
  exact ⟨_, stands_quotient (stands_doubleOfInt32 n) hr hlo⟩

end Terrain.Height
