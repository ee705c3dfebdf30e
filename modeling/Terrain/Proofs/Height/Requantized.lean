import Terrain.Proofs.Height
import Terrain.Proofs.Number.Truncation

/-!
# Heights that are stored again

A height that is read and stored again has been divided by the factor and multiplied with it. Where
the product is a hair closer to zero than the stored integer was, cutting the fraction loses one: the
29 that stands for a height of 0.29 is stored as 28 the next time. Recovering a height looks at the
nearest integer first and does not lose anything.
-/

namespace Terrain.Height

open Number

variable {n : Int32} {factor : Float32}

/-! ### Heights of the grid -/

/-- What is stored for a number that stands for the height of a stored integer. -/
lemma quantize_of_stands {x : Float} {r : ℝ} (hr : (ofSingle factor).Denotes r)
    (hlo : 2 ^ (-149 : ℤ) ≤ r) (hhi : r < 2 ^ (128 : ℤ))
    (himage : Stands x (double.round (n.toInt / r))) : quantize x factor =
      Int32.ofIntClamp (towardZero (double.round (double.round (n.toInt / r) * r))) := by
  rw [quantize]
  exact (stands_rescaled hr hlo hhi himage).truncate_eq

/-- A height that is stored again is stored as the integer that it was read from or as the next one
towards zero. -/
lemma quantize_ofStored (n : Int32) (hpos : 0 < factor) (hfin : factor.isFinite = true) :
    quantize (ofStored n factor) factor = n ∨
      (quantize (ofStored n factor) factor).toInt = n.toInt - n.toInt.sign := by
  obtain ⟨r, hr, hlo, hhi⟩ := exists_denotes_of_pos hpos hfin
  have hnear := (abs_scaled_sub_lt n (lt_of_lt_of_le (by positivity) hlo) hhi).2
  have himage : Stands (ofStored n factor) (double.round (n.toInt / r)) :=
    stands_quotient (stands_doubleOfInt32 n) hr hlo
  rw [quantize_of_stands hr hlo hhi himage]
  have hmin := n.le_toInt
  have hmax := n.toInt_lt
  rcases towardZero_of_abs_sub_lt hnear with heq | heq
  · left
    rw [heq, Int32.ofIntClamp_toInt]
  · right
    rw [heq, toInt_ofIntClamp]
    rcases lt_trichotomy n.toInt 0 with hn | hn | hn
    · rw [Int.sign_eq_neg_one_of_neg hn]
      omega
    · rw [hn, Int.sign_zero]
      omega
    · rw [Int.sign_eq_one_of_pos hn]
      omega

/-- Nothing that is added to a height changes how it is stored. -/
lemma quantize_ofStored_add {z : Float} (n : Int32) (hpos : 0 < factor)
    (hfin : factor.isFinite = true) (hz : Stands z 0) :
    quantize (ofStored n factor + z) factor = quantize (ofStored n factor) factor := by
  obtain ⟨r, hr, hlo, hhi⟩ := exists_denotes_of_pos hpos hfin
  have himage : Stands (ofStored n factor) (double.round (n.toInt / r)) :=
    stands_quotient (stands_doubleOfInt32 n) hr hlo
  rw [quantize_of_stands hr hlo hhi himage, quantize_of_stands hr hlo hhi (himage.add_zero hz)]

/-! ### The default height -/

lemma stands_defaultHeight : Stands defaultHeight 21 := by
  refine ⟨false, 5910974510923776, -48, by decide, ?_⟩
  norm_num [signed]

/-- With an integer as the factor the default height is stored as the product, as far as that is a
stored integer. -/
lemma quantize_defaultHeight_of_denotes {r : ℤ} (hr : (ofSingle factor).Denotes r) (hpos : 0 < r)
    (hmax : r ≤ 2 ^ 31) : (quantize defaultHeight factor).toInt = min (21 * r) (2 ^ 31 - 1) := by
  lift r to ℕ using hpos.le
  have hexact : double.round (21 * (r : ℤ)) = (21 * r : ℕ) := by
    have hround := Format.round_mul_zpow double (m := 21 * r) (e := 0)
      (by simp only [double]; omega) (by decide)
    rw [zpow_zero, mul_one] at hround
    exact_mod_cast hround
  have hstands : Stands (defaultHeight * widen factor) (double.round (21 * (r : ℤ))) := by
    refine stands_defaultHeight.mul (stands_widen hr) ?_
    have hlt : |(21 * (r : ℤ) : ℝ)| < 2 ^ (36 : ℤ) := by
      rw [abs_of_nonneg (by positivity)]
      exact_mod_cast (by omega : 21 * r < 2 ^ 36)
    exact hlt.trans (zpow_lt_zpow_right₀ (by norm_num) (by norm_num))
  rw [hexact, ← Int.cast_natCast] at hstands
  rw [quantize, hstands.truncate_eq, towardZero_intCast, toInt_ofIntClamp]
  omega

/-- With the factor of a blob the default height fits into 16 bits just for small factors. -/
lemma quantize_defaultHeight_fits_iff {k : Int32} (hk : 0 < k.toInt) :
    (-32768 ≤ quantize defaultHeight (singleOfInt32 k) ∧
      quantize defaultHeight (singleOfInt32 k) ≤ 32767) ↔ k.toInt ≤ 1560 := by
  obtain ⟨r, hr, hmax, hself⟩ := exists_round_eq_intCast hk k.toInt_lt
  have hdenotes := denotes_singleOfInt32_round k
  rw [hr] at hdenotes
  have hquantum := quantize_defaultHeight_of_denotes hdenotes (by omega) hmax
  have hlow : (-32768 : Int32).toInt = -32768 := by decide
  have hhigh : (32767 : Int32).toInt = 32767 := by decide
  rw [Int32.le_iff_toInt_le, Int32.le_iff_toInt_le, hlow, hhigh]
  omega

end Terrain.Height
