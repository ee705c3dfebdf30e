import Terrain.Number.MathLibrary
import Terrain.Proofs.Number.Limits

/-!
# The sign of a cosine

A library computes cosines of the right sign if they are positive only where the real cosine is
(`MathLibrary.SignedCosine`). Up to three right angles the nearest one does. It reduces an angle by
the nearest multiple of a right angle, and the sign of the computed cosine is decided by that multiple
and by the sign of what is left. So the cosine of an angle between one right angle and three of them
is not positive, however it is rounded, and no double lies between a right angle and its bounds.
-/

namespace Terrain.Number

open Float.Model (UnpackedFloat)

variable {x : Float} {a : ℝ}

/-! ### Signs -/

lemma unpack_zero : (0 : Float).toModel.unpack = .zero .positive := by
  have hbits : (0 : Float).toModel.toBits = 0 := by decide
  rw [Float.Model.unpack, hbits]
  rfl

lemma not_pos_of_negative_infinity (h : ofDouble x = .infinite true) : ¬0 < x := by
  intro hpos
  have hlt : UnpackedFloat.lt (.zero .positive) x.toModel.unpack = true := by
    rw [← unpack_zero]
    exact of_decide_eq_true hpos
  rw [ofDouble_eq] at h
  generalize x.toModel.unpack = u at h hlt
  match u with
  | .notANumber | .zero _ | .finite .. => simp [ofUnpacked] at h
  | .infinity .positive => simp [ofUnpacked, isNegative] at h
  | .infinity .negative => simp [UnpackedFloat.lt, UnpackedFloat.compare] at hlt

/-- A number that is nearest to a real that is not positive is not positive. -/
lemma Nearest.not_pos (h : Nearest x a) (ha : a ≤ 0) : ¬0 < x := by
  rw [Nearest] at h
  generalize hb : ofDouble x = b at h
  cases h with
  | finite h =>
    have hx : Stands x (double.round a) := by rwa [Stands, hb]
    have hneg := double.round_nonneg (neg_nonneg.mpr ha)
    rw [double.round_neg] at hneg
    rw [stands_zero.lt hx, not_lt]
    linarith
  | infinite s h =>
    cases s with
    | false =>
      have hlarge : (0 : ℝ) < 2 ^ (double.minExponent + double.fields + double.precision - 4) := by
        positivity
      rw [signed_false] at h
      linarith
    | true => exact not_pos_of_negative_infinity hb

lemma cosine_nearest (x : Float) :
    MathLibrary.nearest.cosine x = toDouble (Trig.cosine (ofDouble x)) := rfl

/-- Only a finite angle has a cosine. -/
lemma isFinite_of_cosine_nearest_pos (h : 0 < MathLibrary.nearest.cosine x) :
    x.isFinite = true := by
  have hnan : ¬0 < toDouble .nan := by decide
  rw [cosine_nearest, ofDouble_eq] at h
  change x.toModel.unpack.isFinite = true
  generalize x.toModel.unpack = u at h
  cases u with
  | notANumber => exact absurd h hnan
  | infinity s => exact absurd h hnan
  | zero | finite => rfl

/-! ### Between one and three right angles -/

namespace Trig

/-- A right angle to more digits than a double has. -/
lemma wideRightAngle_bounds :
    157079632679489661923 * 2 ^ 1280 < wideRightAngle * 10 ^ 20 ∧
      wideRightAngle * 10 ^ 20 < 157079632679489661924 * 2 ^ 1280 := by
  decide +kernel

/-- The right angle with fewer bits. -/
lemma rightAngle_bounds {bits : ℕ} (h : bits ≤ widePrecision) :
    157079632679489661923 * 2 ^ bits < (wideRightAngle >>> (widePrecision - bits) + 1) * 10 ^ 20 ∧
      wideRightAngle >>> (widePrecision - bits) * 10 ^ 20 < 157079632679489661924 * 2 ^ bits := by
  obtain ⟨hlo, hhi⟩ := wideRightAngle_bounds
  have hwide : 2 ^ 1280 = 2 ^ bits * 2 ^ (widePrecision - bits) := by
    rw [← pow_add, Nat.add_sub_cancel' h, widePrecision]
  have hpos : 0 < 2 ^ (widePrecision - bits) := Nat.two_pow_pos _
  rw [Nat.shiftRight_eq_div_pow]
  rw [hwide] at hlo hhi
  generalize 2 ^ (widePrecision - bits) = k at *
  have hdiv := Nat.div_add_mod wideRightAngle k
  have hmod := Nat.mod_lt wideRightAngle hpos
  generalize wideRightAngle / k = q at *
  generalize wideRightAngle % k = r at *
  constructor <;> refine lt_of_mul_lt_mul_right ?_ hpos.le <;> nlinarith

/-- An angle between one right angle and three of them is not less than the computed right angle, and
less than three times that. -/
lemma rightAngle_le_angle {bits : ℕ} (hlo : 201 ≤ bits) (hhi : bits ≤ widePrecision)
    (ha : 15707963267948967 / 10 ^ 16 ≤ a) (ha' : a ≤ 47123889803846898 / 10 ^ 16) :
    wideRightAngle >>> (widePrecision - bits) ≤ ⌊a * 2 ^ bits⌋₊ ∧
      ⌊a * 2 ^ bits⌋₊ < 3 * (wideRightAngle >>> (widePrecision - bits)) := by
  obtain ⟨hbelow, habove⟩ := rightAngle_bounds hhi
  generalize wideRightAngle >>> (widePrecision - bits) = r at hbelow habove ⊢
  have hpow : (2 : ℝ) ^ 201 ≤ 2 ^ bits := pow_le_pow_right₀ (by norm_num) hlo
  have hbelow' : (157079632679489661923 : ℝ) * 2 ^ bits < (r + 1) * 10 ^ 20 := by
    exact_mod_cast hbelow
  have habove' : (r : ℝ) * 10 ^ 20 < 157079632679489661924 * 2 ^ bits := by exact_mod_cast habove
  have hpos : (0 : ℝ) < 2 ^ bits := by positivity
  generalize (2 : ℝ) ^ bits = p at *
  have h0 : 0 ≤ a * p := by
    have : 0 ≤ a := le_trans (by norm_num) ha
    positivity
  have hscaled : 15707963267948967 / 10 ^ 16 * p ≤ a * p := mul_le_mul_of_nonneg_right ha hpos.le
  have hscaled' : a * p ≤ 47123889803846898 / 10 ^ 16 * p := mul_le_mul_of_nonneg_right ha' hpos.le
  constructor
  · refine Nat.le_floor ?_
    linarith
  · rw [Nat.floor_lt h0]
    push_cast
    norm_num at hpow ⊢
    linarith

/-- The cosine of an angle between one right angle and three of them is made of units with a negative
sign. -/
lemma exists_cosine_eq {m : ℕ} {e : ℤ} (h : 15707963267948967 / 10 ^ 16 ≤ (m : ℝ) * 2 ^ e)
    (h' : (m : ℝ) * 2 ^ e ≤ 47123889803846898 / 10 ^ 16) :
    ∃ k, (reduce m e).cosine = ofUnits true k := by
  have hpos : (0 : ℝ) < m * 2 ^ e := lt_of_lt_of_le (by norm_num) h
  have hm : m ≠ 0 := by
    rintro rfl
    simp at hpos
  have hlog := Format.log_mul_zpow hm e
  have hlog0 : 0 ≤ Int.log 2 ((m : ℝ) * 2 ^ e) :=
    (Int.zpow_le_iff_le_log (by norm_num) hpos).mp (by norm_num at h ⊢; linarith)
  have hlog3 : Int.log 2 ((m : ℝ) * 2 ^ e) < 3 :=
    (Int.lt_zpow_iff_log_lt (by norm_num) hpos).mp (by norm_num at h' ⊢; linarith)
  rw [hlog, ← Nat.log2_eq_log_two] at hlog0 hlog3
  obtain ⟨bits, hbits⟩ : ∃ bits, bits = precision + 8 + (e + m.log2 + 1).toNat := ⟨_, rfl⟩
  have hprecision : precision = 192 := rfl
  have hwide : widePrecision = 1280 := rfl
  have hangle : Binary.integerPart m (e + bits) = ⌊(m : ℝ) * 2 ^ e * 2 ^ bits⌋₊ := by
    rw [integerPart_eq_floor, zpow_add₀ (by norm_num), zpow_natCast, mul_assoc]
  have hfine : 201 ≤ bits := by omega
  obtain ⟨hone, hthree⟩ := rightAngle_le_angle hfine (by omega) h h'
  rw [← hangle] at hone hthree
  rw [reduce]
  simp only [← hbits]
  generalize Binary.integerPart m (e + bits) = angle at hone hthree
  generalize wideRightAngle >>> (widePrecision - bits) = right at hone hthree
  have hright : 0 < right := by omega
  have hq1 : 1 ≤ (angle + right / 2) / right := (Nat.one_le_div_iff hright).mpr (by omega)
  have hq3 : (angle + right / 2) / right < 4 := Nat.div_lt_of_lt_mul (by omega)
  generalize (angle + right / 2) / right = q at hq1 hq3
  obtain rfl | rfl | rfl : q = 1 ∨ q = 2 ∨ q = 3 := by omega
  · rw [if_neg (by omega)]
    exact ⟨_, rfl⟩
  · split_ifs <;> exact ⟨_, rfl⟩
  · rw [if_pos (by omega)]
    exact ⟨_, rfl⟩

end Trig

/-- The cosine of an angle between one right angle and three of them is not positive. -/
lemma Stands.not_cosine_nearest_pos (hx : Stands x a) (h : 15707963267948967 / 10 ^ 16 ≤ a)
    (h' : a ≤ 47123889803846898 / 10 ^ 16) : ¬0 < MathLibrary.nearest.cosine x := by
  have hpos : 0 < a := lt_of_lt_of_le (by norm_num) h
  rw [← signed_false a] at hx
  obtain ⟨m, e, heq, rfl⟩ := hx.exists_eq_finite hpos
  obtain ⟨k, hk⟩ := Trig.exists_cosine_eq h h'
  rw [cosine_nearest, heq, Trig.cosine, hk]
  refine (nearest_toDouble true k _).not_pos ?_
  rw [signed_true]
  exact neg_nonpos.mpr (by positivity)

/-! ### Real angles -/

/-- Up to three right angles a computed cosine is positive only where the real one is, and only a finite
angle has one that is positive. -/
structure MathLibrary.SignedCosine (lib : MathLibrary) : Prop where
  isFinite : ∀ {x}, 0 < lib.cosine x → x.isFinite = true
  cos_pos : ∀ {x a}, Stands x a → 0 ≤ a → a ≤ 3 * (Real.pi / 2) → 0 < lib.cosine x → 0 < Real.cos a

/-- A cosine of the right sign is not positive between one right angle and three of them. -/
lemma MathLibrary.SignedCosine.not_pos {lib : MathLibrary} (h : lib.SignedCosine) (hx : Stands x a)
    (hlo : 15707963267948967 / 10 ^ 16 ≤ a) (hhi : a ≤ 47123889803846898 / 10 ^ 16) :
    ¬0 < lib.cosine x := by
  intro hpos
  have hpi := Real.pi_gt_d20
  have hpi' := Real.pi_lt_d20
  norm_num at hlo hhi hpi hpi'
  have hcos := h.cos_pos hx (by linarith) (by linarith) hpos
  exact hcos.not_ge (Real.cos_nonpos_of_pi_div_two_le_of_le (by linarith) (by linarith))

/-- Above one, doubles are as far apart as their last bit. -/
lemma Stands.exists_eq_div (hx : Stands x a) (h : 1 ≤ a) : ∃ n : ℤ, a = n / 2 ^ 52 := by
  have hcanonical := isCanonical_double x
  rw [Stands, ofDouble_eq] at hx
  rcases Format.denotes_ofUnpacked_cases hx with ⟨s, -, rfl⟩ | ⟨s, m, e, hm, hu, rfl⟩
  · norm_num at h
  rw [hu] at hcanonical
  have hlt : (m : ℝ) < 2 ^ (53 : ℤ) := by exact_mod_cast hcanonical.lt
  have hvalue : signed (isNegative s) ((m : ℝ) * 2 ^ e) = m * 2 ^ e := by
    cases s with
    | positive => rfl
    | negative =>
      have hneg : signed (isNegative .negative) ((m : ℝ) * 2 ^ e) = -(m * 2 ^ e) := rfl
      have hnonneg : 0 ≤ (m : ℝ) * 2 ^ e := by positivity
      linarith
  rw [hvalue] at h ⊢
  have he : 0 ≤ e + 52 := by
    by_contra! hsmall
    have hbound : (m : ℝ) * 2 ^ e < 1 :=
      calc (m : ℝ) * 2 ^ e < 2 ^ (53 : ℤ) * 2 ^ e := by gcongr
        _ = 2 ^ (53 + e) := by rw [zpow_add₀ (by norm_num)]
        _ ≤ 2 ^ (0 : ℤ) := zpow_le_zpow_right₀ (by norm_num) (by omega)
        _ = 1 := zpow_zero 2
    linarith
  refine ⟨m * 2 ^ (e + 52).toNat, ?_⟩
  have hpow : (2 : ℝ) ^ (e + 52).toNat = 2 ^ e * 2 ^ 52 := by
    rw [← zpow_natCast, Int.toNat_of_nonneg he, zpow_add₀ (by norm_num)]
    norm_cast
  push_cast
  rw [hpow]
  field_simp

/-- A double that is not below a right angle is above it by some part of its last bit. -/
lemma Stands.le_of_pi_div_two_le (hx : Stands x a) (h : Real.pi / 2 ≤ a) :
    15707963267948967 / 10 ^ 16 ≤ a := by
  have hpi := Real.pi_gt_d20
  obtain ⟨n, rfl⟩ := hx.exists_eq_div (by linarith)
  have hn : (7074237752028440 : ℝ) < n := by
    norm_num at h hpi
    linarith
  have hnext : (7074237752028441 : ℤ) ≤ n := by exact_mod_cast hn
  have hreal : (7074237752028441 : ℝ) ≤ n := by exact_mod_cast hnext
  norm_num
  linarith

/-- A double that is not above three right angles is below them by some part of its last bit. -/
lemma Stands.le_of_le_three_mul (hx : Stands x a) (h1 : 1 ≤ a) (h : a ≤ 3 * (Real.pi / 2)) :
    a ≤ 47123889803846898 / 10 ^ 16 := by
  have hpi := Real.pi_lt_d20
  obtain ⟨n, rfl⟩ := hx.exists_eq_div h1
  have hn : (n : ℝ) < 21222713256085321 := by
    norm_num at h hpi
    linarith
  have hlast : n < (21222713256085321 : ℤ) := by exact_mod_cast hn
  have hreal : (n : ℝ) ≤ 21222713256085320 := by exact_mod_cast (by omega : n ≤ 21222713256085320)
  norm_num
  linarith

lemma MathLibrary.signedCosine_nearest : MathLibrary.nearest.SignedCosine where
  isFinite := isFinite_of_cosine_nearest_pos
  cos_pos := by
    intro x a hx h0 h3 hpos
    by_contra hcos
    have hright : Real.pi / 2 ≤ a := by
      by_contra! hlt
      have hpi := Real.pi_pos
      exact hcos (Real.cos_pos_of_mem_Ioo ⟨by linarith, hlt⟩)
    have hlow := hx.le_of_pi_div_two_le hright
    exact hx.not_cosine_nearest_pos hlow (hx.le_of_le_three_mul (by linarith) h3) hpos

end Terrain.Number
