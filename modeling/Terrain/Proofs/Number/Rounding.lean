import Mathlib
import Terrain.Number.Format

/-!
# Rounding reals to a format

The numbers of a format lie on a grid whose spacing grows with the magnitude. `Format.round` takes a
real to the nearest number of that grid, a tie going to the even neighbour, with no largest number;
`Format.bitsOf` is the bit pattern that the nearest number has, infinity taking the place of what is
too large. Every operation on numbers of a format is the exact operation followed by `round`, so
what is shown here of `round` is all that is known of arithmetic.
-/

namespace Terrain.Number

/-! ### Powers -/

/-- A power whose exponent may be below zero, by powers of naturals. -/
lemma pow_toNat {b : ℝ} (hb : b ≠ 0) (k : ℤ) : b ^ k.toNat = b ^ k * b ^ (-k).toNat := by
  rw [← zpow_natCast, ← zpow_natCast, ← zpow_add₀ hb]
  congr 1
  omega

/-- A multiple of a power of two is one of any lower power. -/
lemma mul_zpow_eq (n : ℤ) {e t : ℤ} (h : t ≤ e) :
    (n : ℝ) * 2 ^ e = (n * 2 ^ (e - t).toNat : ℤ) * 2 ^ t := by
  push_cast
  rw [← zpow_natCast, Int.toNat_of_nonneg (by omega), mul_assoc, ← zpow_add₀ (by norm_num),
    sub_add_cancel]

/-! ### The nearest integer -/

/-- The integer nearest to a real, a tie going to the even one. -/
noncomputable def nearestEven (x : ℝ) : ℤ :=
  if x - ⌊x⌋ < 1 / 2 then ⌊x⌋ else if 1 / 2 < x - ⌊x⌋ then ⌊x⌋ + 1 else ⌊x⌋ + ⌊x⌋ % 2

lemma nearestEven_of_lt {x : ℝ} {n : ℤ} (hn : n ≤ x) (h : x < n + 1 / 2) : nearestEven x = n := by
  have hf : ⌊x⌋ = n := Int.floor_eq_iff.mpr ⟨hn, by linarith⟩
  rw [nearestEven, hf, if_pos (by linarith)]

lemma nearestEven_of_gt {x : ℝ} {n : ℤ} (hn : n + 1 / 2 < x) (h : x < n + 1) :
    nearestEven x = n + 1 := by
  have hf : ⌊x⌋ = n := Int.floor_eq_iff.mpr ⟨by linarith, h⟩
  rw [nearestEven, hf, if_neg (by linarith), if_pos (by linarith)]

lemma nearestEven_half (n : ℤ) : nearestEven (n + 1 / 2) = n + n % 2 := by
  have hf : ⌊(n + 1 / 2 : ℝ)⌋ = n := Int.floor_eq_iff.mpr ⟨by linarith, by linarith⟩
  rw [nearestEven, hf, if_neg (by linarith), if_neg (by linarith)]

@[simp] lemma nearestEven_intCast (n : ℤ) : nearestEven n = n :=
  nearestEven_of_lt le_rfl (by linarith)

@[simp] lemma nearestEven_zero : nearestEven 0 = 0 := by
  simpa using nearestEven_intCast 0

/-- Where a real lies between its two neighbouring integers decides which of them is nearest. -/
lemma nearestEven_cases (x : ℝ) :
    (x < ⌊x⌋ + 1 / 2 ∧ nearestEven x = ⌊x⌋) ∨ (⌊x⌋ + 1 / 2 < x ∧ nearestEven x = ⌊x⌋ + 1) ∨
      (x = ⌊x⌋ + 1 / 2 ∧ nearestEven x = ⌊x⌋ + ⌊x⌋ % 2) := by
  rcases lt_trichotomy x (⌊x⌋ + 1 / 2) with h | h | h
  · exact .inl ⟨h, nearestEven_of_lt (Int.floor_le x) h⟩
  · refine .inr (.inr ⟨h, ?_⟩)
    conv_lhs => rw [h]
    exact nearestEven_half _
  · exact .inr (.inl ⟨h, nearestEven_of_gt h (Int.lt_floor_add_one x)⟩)

lemma abs_nearestEven_sub_le (x : ℝ) : |nearestEven x - x| ≤ 1 / 2 := by
  have hlo := Int.floor_le x
  have hhi := Int.lt_floor_add_one x
  rcases nearestEven_cases x with ⟨h, he⟩ | ⟨h, he⟩ | ⟨h, he⟩
  · rw [he, abs_le]
    constructor <;> linarith
  · rw [he, abs_le]
    push_cast
    constructor <;> linarith
  · rcases Int.emod_two_eq_zero_or_one ⌊x⌋ with hp | hp <;> rw [he, hp, abs_le] <;> push_cast <;>
      constructor <;> linarith

lemma floor_le_nearestEven (x : ℝ) : ⌊x⌋ ≤ nearestEven x := by
  rcases nearestEven_cases x with ⟨-, he⟩ | ⟨-, he⟩ | ⟨-, he⟩ <;> omega

lemma nearestEven_le_of_lt {x : ℝ} {n : ℤ} (h : x < n) : nearestEven x ≤ n := by
  have hf : ⌊x⌋ < n := Int.floor_lt.mpr h
  rcases nearestEven_cases x with ⟨-, he⟩ | ⟨-, he⟩ | ⟨-, he⟩ <;> omega

lemma nearestEven_nonneg {x : ℝ} (h : 0 ≤ x) : 0 ≤ nearestEven x :=
  (Int.floor_nonneg.mpr h).trans (floor_le_nearestEven x)

/-- An even number of halves to either side of the integers decides a tie, so negation reflects
the choice. -/
lemma nearestEven_neg (x : ℝ) : nearestEven (-x) = -nearestEven x := by
  have hlo := Int.floor_le x
  have hhi := Int.lt_floor_add_one x
  rcases nearestEven_cases x with ⟨h, he⟩ | ⟨h, he⟩ | ⟨h, he⟩
  · rcases hlo.eq_or_lt with hx | hx
    · rw [he]
      conv_lhs => rw [← hx, ← Int.cast_neg, nearestEven_intCast]
    · rw [he, nearestEven_of_gt (n := -⌊x⌋ - 1) (by push_cast; linarith) (by push_cast; linarith)]
      ring
  · rw [he, nearestEven_of_lt (n := -⌊x⌋ - 1) (by push_cast; linarith) (by push_cast; linarith)]
    ring
  · have hn : -x = ((-⌊x⌋ - 1 : ℤ) : ℝ) + 1 / 2 := by
      push_cast
      linarith
    rw [he, hn, nearestEven_half]
    omega

/-- Shifting a natural to the right with rounding is dividing it as a real and rounding. -/
lemma shiftRightEven_eq (m k : ℕ) : (shiftRightEven m k : ℤ) = nearestEven (m / 2 ^ k) := by
  have hpos : (0 : ℝ) < 2 ^ k := by positivity
  have hdiv : (m : ℝ) = 2 ^ k * (m / 2 ^ k : ℕ) + (m % 2 ^ k : ℕ) := by
    exact_mod_cast (Nat.div_add_mod m (2 ^ k)).symm
  have hmod : ((m % 2 ^ k : ℕ) : ℝ) < 2 ^ k := by exact_mod_cast Nat.mod_lt m (Nat.two_pow_pos k)
  have hx : (m : ℝ) / 2 ^ k = ((m / 2 ^ k : ℕ) : ℤ) + (m % 2 ^ k : ℕ) / 2 ^ k := by
    rw [Int.cast_natCast, eq_comm, eq_div_iff hpos.ne', add_mul, div_mul_cancel₀ _ hpos.ne', hdiv,
      mul_comm]
  have hfrac : 0 ≤ ((m % 2 ^ k : ℕ) : ℝ) / 2 ^ k := by positivity
  rw [shiftRightEven, Nat.shiftRight_eq_div_pow, Nat.one_shiftLeft]
  rcases lt_trichotomy (2 * (m % 2 ^ k)) (2 ^ k) with h | h | h
  · have h' : 2 * ((m % 2 ^ k : ℕ) : ℝ) < 2 ^ k := by exact_mod_cast h
    rw [if_neg (by omega), hx, nearestEven_of_lt (le_add_of_nonneg_right hfrac)]
    rw [add_lt_add_iff_left, div_lt_div_iff₀ hpos (by norm_num)]
    linarith
  · have h' : 2 * ((m % 2 ^ k : ℕ) : ℝ) = 2 ^ k := by exact_mod_cast h
    have hhalf : ((m % 2 ^ k : ℕ) : ℝ) / 2 ^ k = 1 / 2 := by
      rw [div_eq_div_iff hpos.ne' (by norm_num)]
      linarith
    rw [hx, hhalf, nearestEven_half]
    split_ifs with hc <;> omega
  · have h' : (2 : ℝ) ^ k < 2 * (m % 2 ^ k : ℕ) := by exact_mod_cast h
    rw [if_pos (Or.inl h), hx, nearestEven_of_gt (n := ((m / 2 ^ k : ℕ) : ℤ)), Nat.cast_add_one]
    · rw [add_lt_add_iff_left, div_lt_div_iff₀ (by norm_num) hpos]
      linarith
    · rw [add_lt_add_iff_left, div_lt_one hpos]
      exact hmod

namespace Format

variable (f : Format)

/-! ### The grid of a format -/

/-- The exponent of the spacing of the numbers of a format around a real; around zero the spacing is
the smallest one. -/
noncomputable def gridExponent (x : ℝ) : ℤ :=
  if x = 0 then f.minExponent else max f.minExponent (Int.log 2 |x| + 1 - f.precision)

/-- The integer nearest to a real in units of the spacing. -/
noncomputable def nearestMantissa (x : ℝ) : ℤ := nearestEven (x / 2 ^ f.gridExponent x)

/-- The nearest number of a format, if there were no largest one. -/
noncomputable def round (x : ℝ) : ℝ := f.nearestMantissa x * 2 ^ f.gridExponent x

@[simp] lemma gridExponent_zero : f.gridExponent 0 = f.minExponent := if_pos rfl

lemma gridExponent_of_ne_zero {x : ℝ} (hx : x ≠ 0) :
    f.gridExponent x = max f.minExponent (Int.log 2 |x| + 1 - f.precision) := if_neg hx

lemma minExponent_le_gridExponent (x : ℝ) : f.minExponent ≤ f.gridExponent x := by
  rw [gridExponent]
  split_ifs
  · exact le_rfl
  · exact le_max_left _ _

@[simp] lemma gridExponent_neg (x : ℝ) : f.gridExponent (-x) = f.gridExponent x := by
  simp only [gridExponent, neg_eq_zero, abs_neg]

@[simp] lemma nearestMantissa_zero : f.nearestMantissa 0 = 0 := by simp [nearestMantissa]

lemma nearestMantissa_nonneg {x : ℝ} (hx : 0 ≤ x) : 0 ≤ f.nearestMantissa x :=
  nearestEven_nonneg (by positivity)

@[simp] lemma round_zero : f.round 0 = 0 := by simp [round]

@[simp] lemma round_neg (x : ℝ) : f.round (-x) = -f.round x := by
  rw [round, round, nearestMantissa, nearestMantissa, gridExponent_neg, neg_div, nearestEven_neg]
  push_cast
  ring

/-- Rounding moves a real by half of the spacing at most. -/
lemma abs_round_sub_le (x : ℝ) : |f.round x - x| ≤ 2 ^ f.gridExponent x / 2 := by
  have hpos : (0 : ℝ) < 2 ^ f.gridExponent x := by positivity
  have h := mul_le_mul_of_nonneg_right (abs_nearestEven_sub_le (x / 2 ^ f.gridExponent x)) hpos.le
  rw [← abs_of_pos hpos, ← abs_mul, abs_of_pos hpos, sub_mul, div_mul_cancel₀ _ hpos.ne'] at h
  rw [round, nearestMantissa]
  linarith

/-- Away from the smallest numbers, rounding moves a real by a fixed part of it at most. -/
lemma abs_round_sub_le_mul {x : ℝ} (hx : (2 : ℝ) ^ (f.minExponent + f.precision - 1) ≤ |x|) :
    |f.round x - x| ≤ |x| * 2 ^ (-(f.precision : ℤ)) := by
  have hpos : 0 < |x| := lt_of_lt_of_le (by positivity) hx
  have hlog : f.minExponent + f.precision - 1 ≤ Int.log 2 |x| :=
    (Int.zpow_le_iff_le_log (by norm_num) hpos).mp (by exact_mod_cast hx)
  have hgrid : f.gridExponent x = Int.log 2 |x| + 1 - f.precision := by
    rw [f.gridExponent_of_ne_zero (abs_pos.mp hpos), max_eq_right (by omega)]
  have hself : (2 : ℝ) ^ Int.log 2 |x| ≤ |x| := by
    exact_mod_cast Int.zpow_log_le_self (b := 2) (by norm_num) hpos
  calc |f.round x - x| ≤ 2 ^ f.gridExponent x / 2 := f.abs_round_sub_le x
    _ = 2 ^ Int.log 2 |x| * 2 ^ (-(f.precision : ℤ)) := by
      rw [hgrid, ← zpow_add₀ (by norm_num), div_eq_iff (by norm_num), ← zpow_add_one₀ (by norm_num)]
      congr 1
      omega
    _ ≤ |x| * 2 ^ (-(f.precision : ℤ)) := by gcongr

lemma log_mul_zpow {m : ℕ} (hm : m ≠ 0) (e : ℤ) :
    Int.log 2 ((m : ℝ) * 2 ^ e) = Nat.log 2 m + e := by
  have hpos : (0 : ℝ) < m := by exact_mod_cast Nat.pos_of_ne_zero hm
  have hlo : (2 : ℝ) ^ Nat.log 2 m ≤ m := by exact_mod_cast Nat.pow_log_le_self 2 hm
  have hhi : (m : ℝ) < 2 ^ (Nat.log 2 m + 1) := by
    exact_mod_cast Nat.lt_pow_succ_log_self (by norm_num) m
  refine le_antisymm ?_ ?_
  · rw [← Int.lt_add_one_iff, ← Int.lt_zpow_iff_log_lt (by norm_num) (by positivity)]
    push_cast
    rw [add_right_comm, zpow_add₀ (by norm_num)]
    gcongr
    exact_mod_cast hhi
  · rw [← Int.zpow_le_iff_le_log (by norm_num) (by positivity)]
    push_cast
    rw [zpow_add₀ (by norm_num)]
    gcongr
    exact_mod_cast hlo

lemma gridExponent_mul_zpow {m : ℕ} (hm : m ≠ 0) (e : ℤ) :
    f.gridExponent ((m : ℝ) * 2 ^ e) = max f.minExponent (e + m.log2 + 1 - f.precision) := by
  rw [f.gridExponent_of_ne_zero (by positivity), abs_of_nonneg (by positivity), log_mul_zpow hm,
    Nat.log2_eq_log_two]
  congr 1
  ring

/-- A number that the format has is its own nearest one. -/
lemma round_mul_zpow {m : ℕ} (hm : m < 2 ^ f.precision) {e : ℤ} (he : f.minExponent ≤ e) :
    f.round ((m : ℝ) * 2 ^ e) = m * 2 ^ e := by
  rcases eq_or_ne m 0 with rfl | hm0
  · simp
  have hgrid : f.gridExponent ((m : ℝ) * 2 ^ e) ≤ e := by
    have hlog : m.log2 < f.precision := (Nat.log2_lt hm0).mpr hm
    rw [f.gridExponent_mul_zpow hm0]
    omega
  obtain ⟨k, hk⟩ := Int.eq_ofNat_of_zero_le (sub_nonneg.mpr hgrid)
  have hx : (m : ℝ) * 2 ^ e / 2 ^ f.gridExponent ((m : ℝ) * 2 ^ e) = ((m * 2 ^ k : ℕ) : ℤ) := by
    rw [mul_div_assoc, ← zpow_sub₀ (by norm_num), hk]
    push_cast
    rw [zpow_natCast]
  rw [round, nearestMantissa, hx, nearestEven_intCast, ← hx, div_mul_cancel₀ _ (by positivity)]

end Format

end Terrain.Number
