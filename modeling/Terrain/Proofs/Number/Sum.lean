import Terrain.Proofs.Number.Arithmetic

/-!
# Sums, differences and roots

A sum is computed on mantissas that are aligned to the smaller one of two exponents, a root on a
mantissa with twice the bits of the result. Both are then rounded once, so that the sum of two
doubles is the double nearest to the sum of their reals (`Stands.nearest_add`,
`Stands.nearest_sub`), and the root of a double the one nearest to the root
(`Stands.nearest_sqrt`).
-/

namespace Terrain.Number

open Float.Model (UnpackedFloat totalExponent)
open Float.Model.UnpackedFloat

namespace Format

variable {f : Format} {S : Float.Model.Format} [f.Describes S]

/-- Packing gives the number nearest to what was packed. -/
lemma nearest_pack {u : UnpackedFloat} (hu : IsCanonical f u) {a : ℝ}
    (ha : (ofUnpacked f u).Denotes a) : f.Nearest a (f.decode (pack S u).toNat) := by
  rcases denotes_ofUnpacked_cases ha with ⟨s, rfl, rfl⟩ | ⟨s, m, e, hm, rfl, rfl⟩
  · exact nearest_zero s
  · rw [toNat_pack hu, ofUnpacked, encode_finite]
    exact nearest_decode_bitsOf _ (by positivity)

/-! ### Aligned mantissas -/

lemma shiftLeft_mul_zpow (m : ℕ) {e t : ℤ} (h : t ≤ e) :
    ((m <<< (e - t).toNat : ℕ) : ℝ) * 2 ^ t = m * 2 ^ e := by
  have hshift := mul_zpow_eq m h
  rw [Nat.shiftLeft_eq]
  push_cast at hshift ⊢
  exact hshift.symm

lemma log2_shiftLeft {m : ℕ} (hm : m ≠ 0) (k : ℕ) : (m <<< k).log2 = m.log2 + k := by
  rw [Nat.shiftLeft_eq, Nat.log2_eq_iff (by positivity), pow_add, ← add_right_comm, pow_add]
  exact ⟨Nat.mul_le_mul_right _ (Nat.log2_self_le hm),
    Nat.mul_lt_mul_of_pos_right Nat.lt_log2_self (Nat.two_pow_pos k)⟩

/-- Rounding a mantissa of any size gives the nearest number. -/
lemma nearest_round (s : Sign) {m : ℕ} (hm : m ≠ 0) (e : ℤ) :
    f.Nearest (signed (isNegative s) (m * 2 ^ e))
      (f.decode (pack S (UnpackedFloat.round S s m e)).toNat) := by
  have htarget := targetExponent_eq f S (totalExponent m e)
  rw [totalExponent] at htarget
  rw [UnpackedFloat.round, decreaseExponent, totalExponent]
  generalize S.targetExponent (m.log2 + 1 + e) = t at htarget
  rcases le_or_gt t e with hle | hlt
  · -- zeros are put behind the mantissa until it has enough bits
    have hexponent : e - ((e - t).toNat : ℤ) = t := by omega
    have hlog := log2_shiftLeft hm (e - t).toNat
    simp only [hexponent]
    refine nearest_decode_pack s (by positivity) (.exact ?_) (by omega)
    rw [← shiftLeft_mul_zpow m hle, mul_div_cancel_right₀ _ (by positivity)]
  · have hshift : (e - t).toNat = 0 := by omega
    simp only [hshift, Nat.shiftLeft_zero, Nat.cast_zero, sub_zero]
    exact nearest_decode_pack s (by positivity) (.exact (mul_div_cancel_right₀ _ (by positivity)))
      (by omega)

lemma nearest_normalize (z e : ℤ) :
    f.Nearest (z * 2 ^ e) (f.decode (pack S (UnpackedFloat.normalize S z e .positive)).toNat) := by
  rw [UnpackedFloat.normalize]
  rcases hz : compare z 0 with _ | _ | _
  · have hneg : z < 0 := compare_lt_iff_lt.mp hz
    have hround := nearest_round (f := f) (S := S) .negative (m := (-z).toNat) (by omega) e
    have hcast : (((-z).toNat : ℕ) : ℝ) = -z := by
      exact_mod_cast Int.toNat_of_nonneg (show 0 ≤ -z by omega)
    rwa [hcast, isNegative, signed, if_pos rfl, neg_mul, neg_neg] at hround
  · rw [compare_eq_iff_eq.mp hz, Int.cast_zero, zero_mul]
    exact nearest_zero _
  · have hpos : 0 < z := compare_gt_iff_gt.mp hz
    have hround := nearest_round (f := f) (S := S) .positive (m := z.toNat) (by omega) e
    have hcast : ((z.toNat : ℕ) : ℝ) = z := by exact_mod_cast Int.toNat_of_nonneg hpos.le
    rwa [hcast] at hround

/-! ### Sums -/

lemma apply_mul_zpow (s : Sign) (m : ℕ) {e t : ℤ} (h : t ≤ e) :
    ((s.apply (m <<< (e - t).toNat : ℕ) : ℤ) : ℝ) * 2 ^ t = signed (isNegative s) (m * 2 ^ e) := by
  rw [← shiftLeft_mul_zpow m h]
  generalize m <<< (e - t).toNat = k
  cases s <;> simp [Sign.apply, isNegative, signed]

lemma nearest_add {u v : UnpackedFloat} (hu : IsCanonical f u) (hv : IsCanonical f v) {a b : ℝ}
    (ha : (ofUnpacked f u).Denotes a) (hb : (ofUnpacked f v).Denotes b) :
    f.Nearest (a + b) (f.decode (pack S (add S u v)).toNat) := by
  rcases denotes_ofUnpacked_cases ha with ⟨s, rfl, rfl⟩ | ⟨s, m, e, hm, rfl, rfl⟩ <;>
    rcases denotes_ofUnpacked_cases hb with ⟨t, rfl, rfl⟩ | ⟨t, n, d, hn, rfl, rfl⟩
  · rw [add, add_zero]
    split_ifs <;> exact nearest_zero _
  · rw [zero_add]
    exact nearest_pack hv hb
  · rw [add_zero]
    exact nearest_pack hu ha
  · rw [add, ← apply_mul_zpow s m (min_le_left e d), ← apply_mul_zpow t n (min_le_right e d),
      ← add_mul, ← Int.cast_add]
    exact nearest_normalize _ _

/-- A difference is the sum with the opposite number. -/
lemma sub_eq_add (u v : UnpackedFloat) : sub S u v = add S u v.neg := by
  have happly : ∀ (s : Sign) (z : ℤ), (-s).apply z = -s.apply z := by
    intro s z
    cases s
    · exact (neg_neg z).symm
    · rfl
  match u, v with
  | .notANumber, _ => rfl
  | .infinity _, .notANumber | .infinity _, .infinity _ | .infinity _, .zero _
  | .infinity _, .finite .. => rfl
  | .zero _, .notANumber | .zero _, .infinity _ | .zero _, .zero _ | .zero _, .finite .. => rfl
  | .finite .., .notANumber | .finite .., .infinity _ | .finite .., .zero _ => rfl
  | .finite s m e hm, .finite t n d hn =>
    dsimp only [sub, neg, add]
    rw [happly, sub_eq_add_neg]

lemma denotes_neg {v : UnpackedFloat} {b : ℝ} (hb : (ofUnpacked f v).Denotes b) :
    (ofUnpacked f v.neg).Denotes (-b) := by
  rcases denotes_ofUnpacked_cases hb with ⟨s, rfl, rfl⟩ | ⟨s, m, e, hm, rfl, rfl⟩
  · rw [neg_zero]
    exact denotes_zero _
  · refine ⟨isNegative (-s), m, e, rfl, ?_⟩
    cases s
    · exact neg_neg _
    · rfl

lemma nearest_sub {u v : UnpackedFloat} (hu : IsCanonical f u) (hv : IsCanonical f v) {a b : ℝ}
    (ha : (ofUnpacked f u).Denotes a) (hb : (ofUnpacked f v).Denotes b) :
    f.Nearest (a - b) (f.decode (pack S (sub S u v)).toNat) := by
  have hneg : IsCanonical f v.neg := by
    cases v with
    | finite => exact hv
    | notANumber | infinity | zero => trivial
  rw [sub_eq_add, sub_eq_add_neg]
  exact nearest_add hu hneg ha (denotes_neg hb)

/-! ### Roots -/

/-- The remainder of the root of a natural says on which side of the middle between two integers the
real root lies. -/
lemma locates_sqrt (n : ℕ) : Locates
    (if n - n.sqrt * n.sqrt = 0 then .exact
      else .inexact (if n - n.sqrt * n.sqrt ≤ n.sqrt then .lt else .gt)) n.sqrt √n := by
  have hlo : n.sqrt * n.sqrt ≤ n := Nat.sqrt_le n
  have hhi : n < (n.sqrt + 1) * (n.sqrt + 1) := Nat.lt_succ_sqrt n
  generalize n.sqrt = k at hlo hhi
  have hhi' : (n : ℝ) < (k + 1) ^ 2 := by
    rw [sq]
    exact_mod_cast hhi
  have hlt : √(n : ℝ) < k + 1 := (Real.sqrt_lt' (by positivity)).mpr hhi'
  split_ifs with hzero hhalf
  · have heq : n = k * k := by omega
    exact .exact (by rw [heq, Nat.cast_mul, Real.sqrt_mul_self (Nat.cast_nonneg k)])
  · have hsquare : ((k : ℝ)) ^ 2 < n := by
      rw [sq]
      exact_mod_cast (by omega : k * k < n)
    have hmiddle : (n : ℝ) ≤ k * k + k := by exact_mod_cast (by omega : n ≤ k * k + k)
    refine .below (Real.lt_sqrt_of_sq_lt hsquare) ((Real.sqrt_lt' (by positivity)).mpr ?_)
    nlinarith
  · have hmiddle : (k : ℝ) * k + k + 1 ≤ n := by exact_mod_cast (by omega : k * k + k + 1 ≤ n)
    refine .above (Real.lt_sqrt_of_sq_lt ?_) hlt
    nlinarith

/-- The root of an aligned mantissa has all bits of a mantissa, unless its last bit is below that of
the smallest numbers. -/
lemma precision_le_log2_sqrt {m : ℕ} (hm : m ≠ 0) {e t : ℤ}
    (ht : t = min (e.ediv 2) (S.targetExponent ((totalExponent m e + 1).ediv 2))) :
    f.precision ≤ (m <<< (e - 2 * t).toNat).sqrt.log2 + 1 ∨ t ≤ f.minExponent := by
  rw [targetExponent_eq f S, totalExponent] at ht
  have hhalf : e.ediv 2 = e / 2 := rfl
  have hhalf' : (m.log2 + 1 + e + 1 : ℤ).ediv 2 = (m.log2 + 1 + e + 1) / 2 := rfl
  rw [hhalf, hhalf'] at ht
  refine or_iff_not_imp_right.mpr fun hmin => ?_
  have hp := f.one_le_precision
  have hlog := log2_shiftLeft hm (e - 2 * t).toNat
  have hne : m <<< (e - 2 * t).toNat ≠ 0 := by
    rw [Nat.shiftLeft_eq]
    positivity
  have hle : 2 ^ (f.precision - 1) ≤ (m <<< (e - 2 * t).toNat).sqrt := by
    rw [Nat.le_sqrt, ← pow_add]
    exact (Nat.le_log2 hne).mp (by omega)
  have hpos : 0 < (m <<< (e - 2 * t).toNat).sqrt := (Nat.two_pow_pos _).trans_le hle
  have := (Nat.le_log2 hpos.ne').mpr hle
  omega

lemma nearest_sqrt {u : UnpackedFloat} {a : ℝ} (ha : (ofUnpacked f u).Denotes a) (h0 : 0 ≤ a) :
    f.Nearest √a (f.decode (pack S (sqrt S u)).toNat) := by
  rcases denotes_ofUnpacked_cases ha with ⟨s, rfl, rfl⟩ | ⟨s, m, e, hm, rfl, rfl⟩
  · rw [sqrt, Real.sqrt_zero]
    exact nearest_zero _
  have hvalue := value_pos hm e
  cases s with
  | negative =>
    rw [isNegative, signed, if_pos rfl] at h0
    linarith
  | positive =>
    obtain ⟨t, ht⟩ : ∃ t, t =
      min (e.ediv 2) (S.targetExponent ((totalExponent m e + 1).ediv 2)) := ⟨_, rfl⟩
    have hle : 2 * t ≤ e := by
      have hhalf : e.ediv 2 = e / 2 := rfl
      omega
    have hroot : √((m : ℝ) * 2 ^ e) / 2 ^ t = √(m <<< (e - 2 * t).toNat : ℕ) := by
      have hpow : (2 : ℝ) ^ (2 * t) = (2 ^ t) ^ 2 := by
        rw [← zpow_natCast, ← zpow_mul, mul_comm]
        rfl
      rw [← shiftLeft_mul_zpow m hle, Real.sqrt_mul (by positivity), hpow,
        Real.sqrt_sq (by positivity), mul_div_cancel_right₀ _ (by positivity)]
    rw [sqrt, sqrtCore, ← ht]
    exact nearest_decode_pack .positive (Real.sqrt_nonneg _) (hroot ▸ locates_sqrt _)
      (precision_le_log2_sqrt hm.ne' ht)

end Format

/-! ### Doubles -/

variable {x y : Float} {a b : ℝ}

lemma Stands.nearest_add (hx : Stands x a) (hy : Stands y b) : Nearest (x + y) (a + b) := by
  rw [Stands, ofDouble_eq] at hx hy
  exact Format.nearest_add (S := .binary64) (isCanonical_double x) (isCanonical_double y) hx hy

lemma Stands.nearest_sub (hx : Stands x a) (hy : Stands y b) : Nearest (x - y) (a - b) := by
  rw [Stands, ofDouble_eq] at hx hy
  exact Format.nearest_sub (S := .binary64) (isCanonical_double x) (isCanonical_double y) hx hy

lemma Stands.nearest_sqrt (hx : Stands x a) (h0 : 0 ≤ a) : Nearest x.sqrt √a := by
  rw [Stands, ofDouble_eq] at hx
  exact Format.nearest_sqrt (S := .binary64) hx h0

end Terrain.Number
