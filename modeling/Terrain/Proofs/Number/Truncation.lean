import Terrain.Proofs.Number.Single

/-!
# Numbers without their fraction

A number becomes an integer by dropping the fraction of its real. A real that is closer than a half
to an integer may lie on the side of zero, and then the next integer towards zero is left. An integer
that was rounded to a single is cut to one that is rounded to the same single again.
-/

namespace Terrain.Number

/-- A real without its fraction. -/
noncomputable def towardZero (r : ℝ) : ℤ := if r < 0 then ⌈r⌉ else ⌊r⌋

@[simp] lemma towardZero_intCast (n : ℤ) : towardZero n = n := by simp [towardZero]

section Cut

variable {r : ℝ} {n : ℤ}

lemma towardZero_mono {a b : ℝ} (h : a ≤ b) : towardZero a ≤ towardZero b := by
  rw [towardZero, towardZero]
  split_ifs with ha hb hb
  · exact Int.ceil_mono h
  · exact (Int.ceil_nonpos.mpr ha.le).trans (Int.floor_nonneg.mpr (not_lt.mp hb))
  · linarith
  · exact Int.floor_mono h

lemma le_towardZero (h : (n : ℝ) ≤ r) : n ≤ towardZero r := by
  simpa using towardZero_mono h

lemma towardZero_le (h : r ≤ n) : towardZero r ≤ n := by
  simpa using towardZero_mono h

/-- Above zero, cutting rounds down. -/
lemma towardZero_lt (hn : 0 < n) (h : r < n) : towardZero r < n := by
  rw [towardZero]
  split_ifs with hr
  · exact (Int.ceil_nonpos.mpr hr.le).trans_lt hn
  · exact Int.floor_lt.mpr h

lemma intCast_towardZero_le (h : 0 < towardZero r) : (towardZero r : ℝ) ≤ r := by
  rw [towardZero] at h ⊢
  split_ifs at h ⊢ with hr
  · exact absurd h (not_lt.mpr (Int.ceil_nonpos.mpr hr.le))
  · exact Int.floor_le r

lemma le_intCast_towardZero (h : towardZero r < 0) : r ≤ towardZero r := by
  rw [towardZero] at h ⊢
  split_ifs at h ⊢ with hr
  · exact Int.le_ceil r
  · exact absurd h (not_lt.mpr (Int.floor_nonneg.mpr (not_lt.mp hr)))

/-- What is cut is less than one. -/
lemma abs_sub_towardZero_lt (r : ℝ) : |r - towardZero r| < 1 := by
  have hceil := Int.ceil_lt_add_one r
  have hceil' := Int.le_ceil r
  have hfloor := Int.floor_le r
  have hfloor' := Int.lt_floor_add_one r
  rw [towardZero, abs_lt]
  split_ifs <;> constructor <;> linarith

end Cut

lemma towardZero_signed (s : Bool) {y : ℝ} (hy : 0 ≤ y) :
    towardZero (signed s y) = Binary.withSign s ⌊y⌋₊ := by
  rw [towardZero, Binary.withSign, Int.natCast_floor_eq_floor hy]
  cases s with
  | false => exact if_neg hy.not_gt
  | true =>
    simp only [signed, if_true, Int.ceil_neg]
    split_ifs with h
    · rfl
    · have hzero : y = 0 := by linarith
      simp [hzero]

lemma Binary.Denotes.toInt32_eq {b : Binary} {r : ℝ} (h : b.Denotes r) :
    b.toInt32 = Int32.ofIntClamp (towardZero r) := by
  obtain ⟨s, m, e, rfl, rfl⟩ := h
  rw [Binary.toInt32, integerPart_eq_floor, towardZero_signed s (by positivity)]

lemma Stands.truncate_eq {x : Float} {r : ℝ} (h : Stands x r) :
    Number.truncate x = Int32.ofIntClamp (towardZero r) :=
  h.toInt32_eq

/-- An integer lies between two others, or is the next one towards zero from there. -/
inductive NearlyBetween (a b k : ℤ) : Prop where
  | between (hlo : min a b ≤ k) (hhi : k ≤ max a b)
  | below (hpos : 0 < min a b) (hk : k = min a b - 1)
  | above (hneg : max a b < 0) (hk : k = max a b + 1)

/-- A real closer than a half to another one between two integers is cut to an integer between them,
or to the next one towards zero if they lie on one side of it. -/
lemma nearlyBetween_towardZero {r c : ℝ} {a b : ℤ} (hlo : (min a b : ℤ) ≤ c)
    (hhi : c ≤ (max a b : ℤ)) (h : |r - c| < 1 / 2) : NearlyBetween a b (towardZero r) := by
  obtain ⟨hbelow, habove⟩ := abs_lt.mp h
  rw [towardZero]
  split_ifs with hr
  · have hceil : min a b - 1 < ⌈r⌉ := Int.lt_ceil.mpr (by push_cast at hlo ⊢; linarith)
    have hnext : ⌈r⌉ ≤ max a b + 1 := Int.ceil_le.mpr (by push_cast at hhi ⊢; linarith)
    have hzero : ⌈r⌉ ≤ 0 := Int.ceil_nonpos.mpr hr.le
    rcases hnext.lt_or_eq with hlt | heq
    · exact .between (Int.sub_one_lt_iff.mp hceil) (Int.lt_add_one_iff.mp hlt)
    · exact .above (by omega) heq
  · have hfloor : ⌊r⌋ < max a b + 1 := Int.floor_lt.mpr (by push_cast at hhi ⊢; linarith)
    have hnext : min a b - 1 ≤ ⌊r⌋ := Int.le_floor.mpr (by push_cast at hlo ⊢; linarith)
    have hzero : 0 ≤ ⌊r⌋ := Int.floor_nonneg.mpr (not_lt.mp hr)
    rcases hnext.lt_or_eq with hlt | heq
    · exact .between (Int.sub_one_lt_iff.mp hlt) (Int.lt_add_one_iff.mp hfloor)
    · exact .below (by omega) heq.symm

lemma nearlyBetween_left (a b : ℤ) : NearlyBetween a b a := .between (min_le_left a b) (le_max_left a b)

/-- An integer that lies nearly between two stored ones can be stored. -/
lemma NearlyBetween.toInt_ofIntClamp {n m : Int32} {k : ℤ} (h : NearlyBetween n.toInt m.toInt k) :
    (Int32.ofIntClamp k).toInt = k := by
  have hn := n.le_toInt
  have hn' := n.toInt_lt
  have hm := m.le_toInt
  have hm' := m.toInt_lt
  rw [Number.toInt_ofIntClamp]
  cases h <;> omega

/-- A real closer than a half to an integer is cut to that integer or to the next one towards
zero. -/
lemma towardZero_of_abs_sub_lt {r : ℝ} {n : ℤ} (h : |r - n| < 1 / 2) :
    towardZero r = n ∨ towardZero r = n - n.sign := by
  have hnear : NearlyBetween n n (towardZero r) := nearlyBetween_towardZero (by simp) (by simp) h
  cases hnear with
  | between hlo hhi =>
    rw [min_self] at hlo
    rw [max_self] at hhi
    exact .inl (le_antisymm hhi hlo)
  | below hpos hk =>
    rw [min_self] at hpos hk
    exact .inr (by rw [hk, Int.sign_eq_one_of_pos hpos])
  | above hneg hk =>
    rw [max_self] at hneg hk
    exact .inr (by rw [hk, Int.sign_eq_neg_one_of_neg hneg, sub_neg_eq_add])

/-! ### Integers that are singles -/

/-- An integer that a single stands for becomes that single. -/
lemma singleOfInt32_eq_of_denotes {x : Float32} {n : Int32} (h : (ofSingle x).Denotes n.toInt)
    (hn : n.toInt ≠ 0) : singleOfInt32 n = x := by
  obtain ⟨s, m, e, hx, hvalue⟩ := id h
  obtain ⟨⟨hm, he, -⟩, -⟩ := canonical_of_ofSingle hx
  have hround : single.round n.toInt = n.toInt := by
    rw [hvalue, Format.round_signed, Format.round_mul_zpow single (by simpa [single] using hm) he]
  have hsingle := denotes_singleOfInt32_round n
  rw [hround] at hsingle
  exact eq_of_denotes hsingle h (Int.cast_ne_zero.mpr hn)

/-- The spacing of the singles around an integer of more than 24 bits is an integer. -/
lemma gridExponent_natCast {k : ℕ} (hlo : 2 ^ 24 < k) (hhi : k < 2 ^ 31) :
    1 ≤ single.gridExponent k ∧ single.gridExponent k ≤ 7 := by
  have hlog : 24 ≤ k.log2 := (Nat.le_log2 (by omega)).mpr hlo.le
  have hlog' : k.log2 < 31 := (Nat.log2_lt (by omega)).mpr hhi
  have hgrid := single.gridExponent_mul_zpow (m := k) (by omega) 0
  rw [zpow_zero, mul_one] at hgrid
  rw [hgrid]
  simp only [single]
  omega

/-- A positive integer is rounded to an integer, to itself up to 24 bits, and not far beyond the
largest stored one. -/
lemma exists_round_eq_intCast {k : ℤ} (hk : 0 < k) (hhi : k < 2 ^ 31) :
    ∃ r : ℤ, single.round k = r ∧ r ≤ 2 ^ 31 ∧ (r = k ∨ 2 ^ 24 < k ∧ 2 ^ 24 ≤ r) := by
  rcases le_or_gt k (2 ^ 24) with hsmall | hlarge
  · exact ⟨k, round_intCast (by omega), hhi.le, .inl rfl⟩
  lift k to ℕ using hk.le
  obtain ⟨hlo, hle⟩ := gridExponent_natCast (k := k) (by omega) (by omega)
  obtain ⟨hmax, hfull⟩ := single.nearestMantissa_bounds (x := k) (by positivity)
  have hunit : single.unit = 2 ^ 23 := rfl
  have hmin : single.minExponent = -149 := rfl
  rw [hunit] at hmax hfull
  rw [Int.cast_natCast, Format.round]
  generalize single.gridExponent k = g at hlo hle hfull
  generalize single.nearestMantissa k = m at hmax hfull
  lift g to ℕ using by omega
  have hpow : (2 : ℤ) ^ g ≤ 2 ^ 7 := pow_le_pow_right₀ (by norm_num) (by omega)
  have hpow' : (2 : ℤ) ^ 1 ≤ 2 ^ g := pow_le_pow_right₀ (by norm_num) (by omega)
  refine ⟨m * 2 ^ g, by push_cast; rw [zpow_natCast], ?_, .inr ⟨hlarge, ?_⟩⟩
  · calc m * 2 ^ g ≤ 2 ^ 24 * 2 ^ 7 := mul_le_mul (by omega) hpow (by positivity) (by norm_num)
      _ = 2 ^ 31 := by norm_num
  · calc 2 ^ 24 = (2 : ℤ) ^ 23 * 2 ^ 1 := by norm_num
      _ ≤ m * 2 ^ g := mul_le_mul (by omega) hpow' (by norm_num) (by omega)

/-- An integer that was rounded to a single and cut again is rounded to the same single. -/
lemma singleOfInt32_truncateSingle_singleOfInt32 {k : Int32} (hk : 0 < k.toInt) :
    singleOfInt32 (truncateSingle (singleOfInt32 k)) = singleOfInt32 k ∧
      0 < (truncateSingle (singleOfInt32 k)).toInt := by
  have hdenotes := denotes_singleOfInt32_round k
  obtain ⟨r, hr, hmax, hself⟩ := exists_round_eq_intCast hk k.toInt_lt
  have hpos : 0 < r := by omega
  rw [hr] at hdenotes
  have htruncate : truncateSingle (singleOfInt32 k) = Int32.ofIntClamp r := by
    rw [truncateSingle, hdenotes.toInt32_eq, towardZero_intCast]
  have hclamp := toInt_ofIntClamp r
  rw [htruncate]
  refine ⟨?_, by omega⟩
  rcases hmax.lt_or_eq with hlt | rfl
  · have hsame : (Int32.ofIntClamp r).toInt = r := by omega
    exact singleOfInt32_eq_of_denotes (by rwa [hsame]) (by omega)
  · -- the largest stored integer becomes the single above it
    have hlargest : (ofSingle (singleOfInt32 (Int32.ofIntClamp (2 ^ 31)))).Denotes (2 ^ 31 : ℤ) :=
      ⟨false, 8388608, 8, by decide, by norm_num [signed]⟩
    exact eq_of_denotes hlargest hdenotes (by norm_num)

end Terrain.Number
