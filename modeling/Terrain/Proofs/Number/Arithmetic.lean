import Terrain.Proofs.Number.Native

/-!
# Operations on numbers as operations on reals

A number is related to the real that it stands for. Each operation on doubles gives the number
nearest to the result of the operation on reals (`Stands.nearest_mul`, `Stands.nearest_div`), which
stands for the rounded result as long as that is far from the largest numbers: `Stands.mul`,
`Stands.div`, `stands_toDouble`. Comparing doubles is comparing reals (`Stands.beq`).
-/

namespace Terrain.Number

open Float.Model (UnpackedFloat totalExponent)
open Float.Model.UnpackedFloat

/-- A real with a sign put in front of it. -/
def signed (negative : Bool) (x : ℝ) : ℝ := if negative then -x else x

lemma signed_true (x : ℝ) : signed true x = -x := if_pos rfl

lemma signed_false (x : ℝ) : signed false x = x := if_neg Bool.false_ne_true

@[simp] lemma signed_zero (s : Bool) : signed s 0 = 0 := by cases s <;> simp [signed]

@[simp] lemma abs_signed (s : Bool) (x : ℝ) : |signed s x| = |x| := by cases s <;> simp [signed]

@[simp] lemma signed_signed (s : Bool) (x : ℝ) : signed s (signed s x) = x := by
  cases s <;> simp [signed]

@[simp] lemma signed_eq_zero {s : Bool} {x : ℝ} : signed s x = 0 ↔ x = 0 := by
  cases s <;> simp [signed]

/-- A positive real and its sign are seen in the signed real. -/
lemma signed_inj {s t : Bool} {x y : ℝ} (hx : 0 < x) (hy : 0 < y) :
    signed s x = signed t y ↔ s = t ∧ x = y := by
  cases s <;> cases t <;> simp [signed] <;> intro h <;> linarith

lemma signed_mul (s t : Bool) (x y : ℝ) : signed s x * signed t y = signed (s ^^ t) (x * y) := by
  cases s <;> cases t <;> simp [signed]

lemma signed_div (s t : Bool) (x y : ℝ) : signed s x / signed t y = signed (s ^^ t) (x / y) := by
  cases s <;> cases t <;> simp [signed, neg_div, div_neg]

lemma Format.round_signed (f : Format) (s : Bool) (x : ℝ) :
    f.round (signed s x) = signed s (f.round x) := by
  cases s <;> simp [signed]

/-- A number stands for a real. -/
inductive Binary.Denotes (b : Binary) (r : ℝ) : Prop where
  | finite (s : Bool) (m : ℕ) (e : ℤ) (eq_finite : b = .finite s m e)
      (eq_signed : r = signed s ((m : ℝ) * 2 ^ e))

/-- A number that is not zero has the sign and the magnitude of its real. -/
lemma Binary.Denotes.exists_eq_finite {b : Binary} {s : Bool} {r : ℝ} (h : b.Denotes (signed s r))
    (hr : 0 < r) : ∃ (m : ℕ) (e : ℤ), b = .finite s m e ∧ r = m * 2 ^ e := by
  obtain ⟨t, m, e, rfl, heq⟩ := h
  have hvalue : 0 < (m : ℝ) * 2 ^ e := by
    have habs : |signed s r| = |signed t ((m : ℝ) * 2 ^ e)| := by rw [heq]
    rw [abs_signed, abs_signed, abs_of_pos hr, abs_of_nonneg (by positivity)] at habs
    exact habs ▸ hr
  obtain ⟨rfl, rfl⟩ := (signed_inj hr hvalue).mp heq
  exact ⟨m, e, rfl, rfl⟩

namespace Format

/-- A number is the nearest one to a real: it stands for the rounded real, or it is infinite and the
real is among the largest numbers or beyond them. -/
inductive Nearest (f : Format) (r : ℝ) : Binary → Prop where
  | finite {b : Binary} (h : b.Denotes (f.round r)) : f.Nearest r b
  | infinite (s : Bool) (h : 2 ^ (f.minExponent + f.fields + f.precision - 4) ≤ signed s r) :
      f.Nearest r (.infinite s)

variable {f : Format}

/-! ### Rounded results -/

/-- The number nearest to a real that is not among the largest stands for the rounded real. -/
lemma Nearest.denotes {r : ℝ} {b : Binary} (h : f.Nearest r b) {k : ℤ} (hk : |r| < 2 ^ k)
    (hhi : k + 4 ≤ f.minExponent + f.fields + f.precision) : b.Denotes (f.round r) := by
  cases h with
  | finite h => exact h
  | infinite s h =>
    have hpow : (2 : ℝ) ^ k ≤ 2 ^ (f.minExponent + f.fields + f.precision - 4) :=
      zpow_le_zpow_right₀ (by norm_num) (by omega)
    have habs : signed s r ≤ |r| := (le_abs_self _).trans_eq (abs_signed s r)
    linarith

/-- The bit pattern nearest to a real stands for the rounded real, or for an infinity. -/
lemma nearest_decode_bitsOf [f.Proper] {x : ℝ} (s : Bool) (hx : 0 ≤ x) :
    f.Nearest (signed s x) (f.decode (f.bitsOf x + f.signPart s)) := by
  have hmax : f.bitsOf x ≤ f.infinityBits := min_le_left _ _
  rcases hmax.lt_or_eq with hlt | heq
  · obtain ⟨m, e, hd, hv⟩ := decode_bitsOf hx hlt s
    exact .finite ⟨s, m, e, hd, by rw [round_signed, hv]⟩
  · have hinfinite : f.decode (f.bitsOf x + f.signPart s) = .infinite s := by
      rw [heq]
      exact decode_encode_infinite s
    rw [hinfinite]
    refine .infinite s (le_of_not_gt fun hlt => ?_)
    rw [signed_signed] at hlt
    exact (bitsOf_lt_infinityBits hx hlt (by omega)).ne heq

/-- The bit pattern nearest to a real that is not among the largest stands for the rounded real. -/
lemma denotes_decode_bitsOf [f.Proper] {x : ℝ} (s : Bool) (hx : 0 ≤ x) {k : ℤ} (hk : x < 2 ^ k)
    (hhi : k + 4 ≤ f.minExponent + f.fields + f.precision) :
    (f.decode (f.bitsOf x + f.signPart s)).Denotes (f.round (signed s x)) :=
  (nearest_decode_bitsOf s hx).denotes (by rwa [abs_signed, abs_of_nonneg hx]) hhi

variable (f) in
lemma minExponent_neg [f.Proper] : f.minExponent < 0 := by
  have hp := Proper.two_le_precision (f := f)
  have he := Proper.two_le_exponentBits (f := f)
  have hpow : 1 < 2 ^ (f.exponentBits - 1) := Nat.one_lt_two_pow (by omega)
  rw [f.minExponent_eq, Nat.one_shiftLeft]
  omega

/-- A product has all bits of a mantissa, unless its last bit is below that of the smallest
numbers. -/
lemma precision_le_log2_mul [f.Proper] {m n : ℕ} {e d : ℤ} (hm : f.Canonical m e)
    (hn : f.Canonical n d) (hm0 : 0 < m) (hn0 : 0 < n) :
    f.precision ≤ (m * n).log2 + 1 ∨ e + d ≤ f.minExponent := by
  have hall : f.unit ≤ m * n → f.precision ≤ (m * n).log2 + 1 := by
    intro h
    rw [unit_eq_two_pow] at h
    have := (Nat.le_log2 (Nat.mul_pos hm0 hn0).ne').mpr h
    omega
  rcases hm.full with h | he
  · exact Or.inl (hall (h.trans (Nat.le_mul_of_pos_right _ hn0)))
  rcases hn.full with h | hd
  · exact Or.inl (hall (h.trans (Nat.le_mul_of_pos_left _ hm0)))
  · have := f.minExponent_neg
    exact Or.inr (by omega)

variable {S : Float.Model.Format} [f.Describes S]

/-- What the machine rounds is the nearest number. -/
lemma nearest_decode_pack {x : ℝ} {m : ℕ} {e : ℤ} {a : Accuracy} (s : Sign) (hx : 0 ≤ x)
    (ha : Locates a m (x / 2 ^ e)) (hm : f.precision ≤ m.log2 + 1 ∨ e ≤ f.minExponent) :
    f.Nearest (signed (isNegative s) x) (f.decode (pack S (roundWithAccuracy S s m e a)).toNat) := by
  rw [toNat_pack_roundWithAccuracy (f := f) s hx ha hm]
  exact nearest_decode_bitsOf _ hx

lemma denotes_zero (s : Sign) : (ofUnpacked f (.zero s)).Denotes 0 :=
  ⟨isNegative s, 0, f.minExponent, rfl, by simp⟩

/-- A zero is read from its bit pattern as it is. -/
lemma decode_toNat_pack_zero (s : Sign) :
    f.decode (pack S (.zero s)).toNat = ofUnpacked f (.zero s) := by
  have hpos := f.unit_pos
  have hlt : f.place 0 f.minExponent < f.infinityBits := by
    simp [place, infinityBits, hpos]
    have := f.four_le_fields
    omega
  rw [toNat_pack (f := f) (u := .zero s) trivial, ofUnpacked, encode_finite,
    bitsOf_canonical ⟨by omega, le_rfl, Or.inr rfl⟩, min_eq_right hlt.le]
  exact decode_place ⟨by omega, le_rfl, Or.inr rfl⟩ hlt _

lemma nearest_zero (s : Sign) : f.Nearest 0 (f.decode (pack S (.zero s)).toNat) := by
  rw [decode_toNat_pack_zero]
  exact .finite (f.round_zero.symm ▸ denotes_zero s)

/-- An unpacked number that stands for a real is zero or finite. -/
lemma denotes_ofUnpacked_cases {u : UnpackedFloat} {a : ℝ} (ha : (ofUnpacked f u).Denotes a) :
    (∃ s, u = .zero s ∧ a = 0) ∨
      ∃ s m e hm, u = .finite s m e hm ∧ a = signed (isNegative s) ((m : ℝ) * 2 ^ e) := by
  obtain ⟨s, m, e, heq, rfl⟩ := ha
  match u with
  | .notANumber | .infinity _ => simp [ofUnpacked] at heq
  | .zero s =>
    injection heq with hs hm he
    exact Or.inl ⟨s, rfl, by simp [← hm]⟩
  | .finite s m e hm =>
    injection heq with hs hm he
    subst hs hm he
    exact Or.inr ⟨s, m, e, _, rfl, rfl⟩

lemma isFinite_of_denotes_ofUnpacked {u : UnpackedFloat} {a : ℝ}
    (h : (ofUnpacked f u).Denotes a) : u.isFinite = true := by
  rcases denotes_ofUnpacked_cases h with ⟨s, rfl, -⟩ | ⟨s, m, e, hm, rfl, -⟩ <;> rfl

lemma isNegative_mul (s t : Sign) : isNegative (s * t) = (isNegative s ^^ isNegative t) := by
  cases s <;> cases t <;> rfl

lemma isNegative_div (s t : Sign) : isNegative (s / t) = (isNegative s ^^ isNegative t) := by
  cases s <;> cases t <;> rfl

lemma nearest_mul {u v : UnpackedFloat} (hu : IsCanonical f u) (hv : IsCanonical f v) {a b : ℝ}
    (ha : (ofUnpacked f u).Denotes a) (hb : (ofUnpacked f v).Denotes b) :
    f.Nearest (a * b) (f.decode (pack S (mul S u v)).toNat) := by
  rcases denotes_ofUnpacked_cases ha with ⟨s, rfl, rfl⟩ | ⟨s, m, e, hm, rfl, rfl⟩ <;>
    rcases denotes_ofUnpacked_cases hb with ⟨t, rfl, rfl⟩ | ⟨t, n, d, hn, rfl, rfl⟩
  · rw [mul, zero_mul]
    exact nearest_zero _
  · rw [mul, zero_mul]
    exact nearest_zero _
  · rw [mul, mul_zero]
    exact nearest_zero _
  · have hprod : ((m : ℝ) * 2 ^ e) * (n * 2 ^ d) = (m * n : ℕ) * 2 ^ (e + d) := by
      rw [zpow_add₀ (by norm_num)]
      push_cast
      ring
    have hlocates : Locates .exact (m * n) ((m * n : ℕ) * 2 ^ (e + d) / 2 ^ (e + d)) :=
      .exact (mul_div_cancel_right₀ _ (by positivity))
    rw [mul, signed_mul, ← isNegative_mul, hprod]
    exact nearest_decode_pack _ (by positivity) hlocates (precision_le_log2_mul hu hv hm hn)

/-! ### Adding nothing -/

/-- A sum with a zero stands for what the other number stands for. -/
lemma denotes_add_zero (b : BitVec S.numBits) {v : UnpackedFloat} {a : ℝ}
    (ha : (ofUnpacked f (unpack S b)).Denotes a) (hv : (ofUnpacked f v).Denotes 0) :
    (f.decode (pack S (add S (unpack S b) v)).toNat).Denotes a := by
  rcases denotes_ofUnpacked_cases hv with ⟨t, rfl, -⟩ | ⟨t, n, d, hn, -, hzero⟩
  · rcases denotes_ofUnpacked_cases ha with ⟨s, hu, rfl⟩ | ⟨s, m, e, hm, hu, -⟩
    · rw [hu, add]
      split_ifs <;> rw [decode_toNat_pack_zero] <;> exact denotes_zero _
    · have hsame : add S (unpack S b) (.zero t) = unpack S b := by
        rw [hu]
        rfl
      rwa [hsame, decode_toNat_pack_unpack, decode_toNat]
  · have hpos : (0 : ℝ) < n * 2 ^ d := by positivity
    exact absurd (signed_eq_zero.mp hzero.symm) hpos.ne'

/-! ### Division -/

lemma locates_accuracyOfFraction {m n : ℕ} (hn : 0 < n) :
    Locates (accuracyOfFraction (m % n) n) (m / n) ((m : ℝ) / n) := by
  have hn' : (0 : ℝ) < n := by exact_mod_cast hn
  have hlt : ((m % n : ℕ) : ℝ) < n := by exact_mod_cast Nat.mod_lt m hn
  have hdiv : (m : ℝ) / n = (m / n : ℕ) + (m % n : ℕ) / n := by
    rw [eq_comm, ← mul_left_inj' hn'.ne', add_mul, div_mul_cancel₀ _ hn'.ne',
      div_mul_cancel₀ _ hn'.ne', mul_comm]
    exact_mod_cast Nat.div_add_mod m n
  rw [hdiv, accuracyOfFraction]
  split_ifs with h0
  · exact .exact (by simp [h0])
  have hpos : (0 : ℝ) < (m % n : ℕ) := by exact_mod_cast Nat.pos_of_ne_zero h0
  rcases hc : compare (2 * (m % n)) n with _ | _ | _
  · have hlt2 : 2 * ((m % n : ℕ) : ℝ) < n := by exact_mod_cast Nat.compare_eq_lt.mp hc
    refine .below (lt_add_of_pos_right _ (div_pos hpos hn')) ?_
    rw [add_lt_add_iff_left, div_lt_div_iff₀ hn' (by norm_num)]
    linarith
  · have heq : 2 * ((m % n : ℕ) : ℝ) = n := by exact_mod_cast Nat.compare_eq_eq.mp hc
    refine .half ?_
    rw [add_right_inj, div_eq_div_iff hn'.ne' (by norm_num)]
    linarith
  · have hgt : (n : ℝ) < 2 * (m % n : ℕ) := by exact_mod_cast Nat.compare_eq_gt.mp hc
    refine .above ?_ ?_
    · rw [add_lt_add_iff_left, div_lt_div_iff₀ (by norm_num) hn']
      linarith
    · rwa [add_lt_add_iff_left, div_lt_one hn']

/-- A quotient has all bits of a mantissa, unless its last bit is below that of the smallest
numbers. -/
lemma precision_le_log2_div {m n : ℕ} (hm : 0 < m) (hn : 0 < n) (t : ℤ) {e d : ℤ}
    (ht : t = min (e - d) (S.targetExponent (totalExponent m e - totalExponent n d))) :
    f.precision ≤ (m <<< (e - d - t).toNat / n).log2 + 1 ∨ t ≤ f.minExponent := by
  rw [targetExponent_eq f S, totalExponent, totalExponent] at ht
  refine or_iff_not_imp_right.mpr fun hmin => ?_
  have hp := f.one_le_precision
  -- the shifted numerator has at least so many bits more than the denominator
  have hshift : n.log2 + 1 + (f.precision - 1) ≤ m.log2 + (e - d - t).toNat := by omega
  have hle : 2 ^ (f.precision - 1) ≤ m <<< (e - d - t).toNat / n := by
    rw [Nat.le_div_iff_mul_le hn, Nat.shiftLeft_eq]
    calc 2 ^ (f.precision - 1) * n
        ≤ 2 ^ (f.precision - 1) * 2 ^ (n.log2 + 1) := Nat.mul_le_mul_left _ Nat.lt_log2_self.le
      _ = 2 ^ (n.log2 + 1 + (f.precision - 1)) := by rw [← pow_add, add_comm]
      _ ≤ 2 ^ (m.log2 + (e - d - t).toNat) := Nat.pow_le_pow_right Nat.two_pos hshift
      _ = 2 ^ m.log2 * 2 ^ (e - d - t).toNat := pow_add _ _ _
      _ ≤ m * 2 ^ (e - d - t).toNat := Nat.mul_le_mul_right _ (Nat.log2_self_le hm.ne')
  have hpos : 0 < m <<< (e - d - t).toNat / n := lt_of_lt_of_le (Nat.two_pow_pos _) hle
  have := (Nat.le_log2 hpos.ne').mpr hle
  omega

lemma nearest_div {u v : UnpackedFloat} {a b : ℝ} (ha : (ofUnpacked f u).Denotes a)
    (hb : (ofUnpacked f v).Denotes b) (hb0 : b ≠ 0) :
    f.Nearest (a / b) (f.decode (pack S (div S u v)).toNat) := by
  rcases denotes_ofUnpacked_cases hb with ⟨t, rfl, rfl⟩ | ⟨t, n, d, hn, rfl, rfl⟩
  · exact absurd rfl hb0
  rcases denotes_ofUnpacked_cases ha with ⟨s, rfl, rfl⟩ | ⟨s, m, e, hm, rfl, rfl⟩
  · rw [div, zero_div]
    exact nearest_zero _
  obtain ⟨t', ht⟩ : ∃ t', t' = min (e - d)
    (S.targetExponent (totalExponent m e - totalExponent n d)) := ⟨_, rfl⟩
  have hlocates : Locates (accuracyOfFraction (m <<< (e - d - t').toNat % n) n)
      (m <<< (e - d - t').toNat / n) ((m : ℝ) * 2 ^ e / (n * 2 ^ d) / 2 ^ t') := by
    have hx : (m : ℝ) * 2 ^ e / (n * 2 ^ d) / 2 ^ t' = (m <<< (e - d - t').toNat : ℕ) / n := by
      rw [Nat.shiftLeft_eq, Nat.cast_mul, Nat.cast_pow, Nat.cast_ofNat, ← zpow_natCast,
        Int.toNat_of_nonneg (by omega), zpow_sub₀ (by norm_num), zpow_sub₀ (by norm_num)]
      field_simp
    rw [hx]
    exact locates_accuracyOfFraction hn
  rw [div, divCore, ← ht, signed_div, ← isNegative_div]
  exact nearest_decode_pack _ (by positivity) hlocates (precision_le_log2_div hm hn t' ht)

lemma encode_lt [f.Proper] (b : Binary) : f.encode b < 2 * f.signBit := by
  have hinf := infinityBits_lt_signBit (f := f)
  match b with
  | .nan =>
    have hu := f.two_le_unit
    have hfields := f.four_le_fields
    have hadd : f.infinityBits + f.unit = f.signBit := by
      rw [infinityBits, ← Nat.succ_mul, Nat.succ_eq_add_one, Nat.sub_add_cancel (by omega), signBit]
    rw [encode]
    omega
  | .infinite s =>
    rw [encode]
    split_ifs <;> omega
  | .finite s m e =>
    have hle : f.magnitudeBits m e ≤ f.infinityBits := by
      rw [magnitudeBits_eq_bitsOf]
      exact min_le_left _ _
    rw [encode]
    split_ifs <;> omega

/-! ### Comparing -/

lemma value_pos {m : ℕ} (hm : 0 < m) (e : ℤ) : (0 : ℝ) < m * 2 ^ e := by positivity

/-- Of two canonical numbers the one with the smaller exponent is smaller. -/
lemma Canonical.lt_of_exponent_lt {m n : ℕ} {e d : ℤ} (hc : f.Canonical m e)
    (hc' : f.Canonical n d) (h : e < d) : (m : ℝ) * 2 ^ e < n * 2 ^ d := by
  have hle := hc.le
  have hfull : f.unit ≤ n := hc'.full.resolve_right (by omega)
  calc (m : ℝ) * 2 ^ e < (2 * f.unit : ℕ) * 2 ^ e := by
        gcongr
        exact hc.lt
    _ = f.unit * 2 ^ (e + 1) := by
        rw [zpow_add_one₀ (by norm_num)]
        push_cast
        ring
    _ ≤ n * 2 ^ d := by
        gcongr
        · norm_num
        · exact h

lemma compare_finite {m n : ℕ} {e d : ℤ} (hc : f.Canonical m e) (hc' : f.Canonical n d) :
    (compare e d).then (compare m n) = compare ((m : ℝ) * 2 ^ e) (n * 2 ^ d) := by
  rcases lt_trichotomy e d with h | rfl | h
  · rw [compare_lt_iff_lt.mpr h, compare_lt_iff_lt.mpr (hc.lt_of_exponent_lt hc' h)]
    rfl
  · have hpow : (0 : ℝ) < 2 ^ e := by positivity
    rw [compare_eq_iff_eq.mpr rfl, Ordering.eq_then]
    rcases lt_trichotomy m n with hlt | rfl | hgt
    · rw [compare_lt_iff_lt.mpr hlt,
        compare_lt_iff_lt.mpr (mul_lt_mul_of_pos_right (Nat.cast_lt.mpr hlt) hpow)]
    · rw [compare_eq_iff_eq.mpr rfl, compare_eq_iff_eq.mpr rfl]
    · rw [compare_gt_iff_gt.mpr hgt,
        compare_gt_iff_gt.mpr (mul_lt_mul_of_pos_right (Nat.cast_lt.mpr hgt) hpow)]
  · rw [compare_gt_iff_gt.mpr h, compare_gt_iff_gt.mpr (hc'.lt_of_exponent_lt hc h)]
    rfl

lemma compare_neg (a b : ℝ) : compare (-a) (-b) = (compare a b).swap := by
  rcases lt_trichotomy a b with h | rfl | h
  · rw [compare_lt_iff_lt.mpr h, compare_gt_iff_gt.mpr (neg_lt_neg h)]
    rfl
  · rw [compare_eq_iff_eq.mpr rfl, compare_eq_iff_eq.mpr rfl]
    rfl
  · rw [compare_gt_iff_gt.mpr h, compare_lt_iff_lt.mpr (neg_lt_neg h)]
    rfl

/-- Comparing numbers is comparing the reals that they stand for. -/
lemma compare_eq {u v : UnpackedFloat} (hu : IsCanonical f u) (hv : IsCanonical f v) {a b : ℝ}
    (ha : (ofUnpacked f u).Denotes a) (hb : (ofUnpacked f v).Denotes b) :
    u.compare v = some (compare a b) := by
  rcases denotes_ofUnpacked_cases ha with ⟨s, rfl, rfl⟩ | ⟨s, m, e, hm, rfl, rfl⟩ <;>
    rcases denotes_ofUnpacked_cases hb with ⟨t, rfl, rfl⟩ | ⟨t, n, d, hn, rfl, rfl⟩
  · rw [compare_eq_iff_eq.mpr rfl]
    rfl
  · have hn := value_pos hn d
    cases t <;> simp only [isNegative, signed_true, signed_false]
    · rw [compare_gt_iff_gt.mpr (neg_lt_zero.mpr hn)]
      rfl
    · rw [compare_lt_iff_lt.mpr hn]
      rfl
  · have hm := value_pos hm e
    cases s <;> simp only [isNegative, signed_true, signed_false]
    · rw [compare_lt_iff_lt.mpr (neg_lt_zero.mpr hm)]
      rfl
    · rw [compare_gt_iff_gt.mpr hm]
      rfl
  · have hm := value_pos hm e
    have hn := value_pos hn d
    cases s <;> cases t <;> simp only [isNegative, signed_true, signed_false]
    · rw [compare_neg, ← compare_finite hu hv]
      rfl
    · rw [compare_lt_iff_lt.mpr ((neg_lt_zero.mpr hm).trans hn)]
      rfl
    · rw [compare_gt_iff_gt.mpr ((neg_lt_zero.mpr hn).trans hm)]
      rfl
    · rw [← compare_finite hu hv]
      rfl

lemma beq_iff {u v : UnpackedFloat} (hu : IsCanonical f u) (hv : IsCanonical f v) {a b : ℝ}
    (ha : (ofUnpacked f u).Denotes a) (hb : (ofUnpacked f v).Denotes b) :
    u.beq v = true ↔ a = b := by
  rw [UnpackedFloat.beq, compare_eq hu hv ha hb, beq_iff_eq, Option.some_inj, compare_eq_iff_eq]

lemma lt_iff {u v : UnpackedFloat} (hu : IsCanonical f u) (hv : IsCanonical f v) {a b : ℝ}
    (ha : (ofUnpacked f u).Denotes a) (hb : (ofUnpacked f v).Denotes b) :
    u.lt v = true ↔ a < b := by
  rw [UnpackedFloat.lt, compare_eq hu hv ha hb, beq_iff_eq, Option.some_inj, compare_lt_iff_lt]

lemma le_iff {u v : UnpackedFloat} (hu : IsCanonical f u) (hv : IsCanonical f v) {a b : ℝ}
    (ha : (ofUnpacked f u).Denotes a) (hb : (ofUnpacked f v).Denotes b) :
    u.le v = true ↔ a ≤ b := by
  rw [UnpackedFloat.le, compare_eq hu hv ha hb, Option.any_some, Ordering.isLE_iff_ne_gt,
    ← compare_le_iff_le]

end Format

/-! ### Doubles -/

/-- A double stands for a real. -/
def Stands (x : Float) (r : ℝ) : Prop := (ofDouble x).Denotes r

lemma ofDouble_eq (x : Float) : ofDouble x = ofUnpacked double x.toModel.unpack :=
  Format.decode_toNat (f := double) (S := .binary64) x.toModel.toBits.toBitVec

lemma isCanonical_double (x : Float) : IsCanonical double x.toModel.unpack :=
  Format.isCanonical_unpack (f := double) (S := .binary64) x.toModel.toBits.toBitVec

/-- A double is the nearest one to a real. -/
def Nearest (x : Float) (r : ℝ) : Prop := double.Nearest r (ofDouble x)

lemma Nearest.stands {x : Float} {r : ℝ} (h : Nearest x r) (hr : |r| < 2 ^ (1023 : ℤ)) :
    Stands x (double.round r) :=
  h.denotes hr (by decide)

lemma Stands.nearest_mul {x y : Float} {a b : ℝ} (hx : Stands x a) (hy : Stands y b) :
    Nearest (x * y) (a * b) := by
  rw [Stands, ofDouble_eq] at hx hy
  exact Format.nearest_mul (S := .binary64) (isCanonical_double x) (isCanonical_double y) hx hy

lemma Stands.mul {x y : Float} {a b : ℝ} (hx : Stands x a) (hy : Stands y b)
    (h : |a * b| < 2 ^ (1023 : ℤ)) : Stands (x * y) (double.round (a * b)) :=
  (hx.nearest_mul hy).stands h

lemma Stands.nearest_div {x y : Float} {a b : ℝ} (hx : Stands x a) (hy : Stands y b)
    (hb : b ≠ 0) : Nearest (x / y) (a / b) := by
  rw [Stands, ofDouble_eq] at hx hy
  exact Format.nearest_div (S := .binary64) hx hy hb

lemma Stands.div {x y : Float} {a b : ℝ} (hx : Stands x a) (hy : Stands y b) (hb : b ≠ 0)
    (h : |a / b| < 2 ^ (1023 : ℤ)) : Stands (x / y) (double.round (a / b)) :=
  (hx.nearest_div hy hb).stands h

lemma Stands.add_zero {x z : Float} {a : ℝ} (hx : Stands x a) (hz : Stands z 0) :
    Stands (x + z) a := by
  rw [Stands, ofDouble_eq] at hx hz
  exact Format.denotes_add_zero (f := double) (S := .binary64) x.toModel.toBits.toBitVec hx hz

lemma Stands.beq {x y : Float} {a b : ℝ} (hx : Stands x a) (hy : Stands y b) :
    (x == y) = true ↔ a = b := by
  rw [Stands, ofDouble_eq] at hx hy
  exact Format.beq_iff (isCanonical_double x) (isCanonical_double y) hx hy

lemma Stands.lt {x y : Float} {a b : ℝ} (hx : Stands x a) (hy : Stands y b) : x < y ↔ a < b := by
  rw [Stands, ofDouble_eq] at hx hy
  have hlt : x < y ↔ x.toModel < y.toModel := decide_eq_true_iff
  exact hlt.trans (Format.lt_iff (isCanonical_double x) (isCanonical_double y) hx hy)

lemma Stands.le {x y : Float} {a b : ℝ} (hx : Stands x a) (hy : Stands y b) : x ≤ y ↔ a ≤ b := by
  rw [Stands, ofDouble_eq] at hx hy
  have hle : x ≤ y ↔ x.toModel ≤ y.toModel := decide_eq_true_iff
  exact hle.trans (Format.le_iff (isCanonical_double x) (isCanonical_double y) hx hy)

lemma ofDouble_ofBits (bits : UInt64) : ofDouble (Float.ofBits bits) = double.decode bits.toNat :=
  Format.decode_toNat_pack_unpack (f := double) (S := .binary64) bits.toBitVec

lemma ofDouble_toDouble (b : Binary) : ofDouble (toDouble b) = double.decode (double.encode b) := by
  have hlt : double.encode b < 2 ^ 64 := double.encode_lt b
  rw [toDouble, ofDouble_ofBits, UInt64.toNat_ofNat_of_lt' hlt]

lemma nearest_toDouble (s : Bool) (m : ℕ) (e : ℤ) :
    Nearest (toDouble (.finite s m e)) (signed s ((m : ℝ) * 2 ^ e)) := by
  rw [Nearest, ofDouble_toDouble, Format.encode_finite]
  exact Format.nearest_decode_bitsOf s (by positivity)

lemma stands_toDouble (s : Bool) {m : ℕ} {e : ℤ} (h : (m : ℝ) * 2 ^ e < 2 ^ (1023 : ℤ)) :
    Stands (toDouble (.finite s m e)) (double.round (signed s ((m : ℝ) * 2 ^ e))) :=
  (nearest_toDouble s m e).stands (by rwa [abs_signed, abs_of_nonneg (by positivity)])

/-- A number whose mantissa fits becomes a double without loss. -/
lemma stands_toDouble_exact (s : Bool) {m : ℕ} (hm : m < 2 ^ 53) {e : ℤ} (he : -1074 ≤ e)
    (he' : e ≤ 970) : Stands (toDouble (.finite s m e)) (signed s ((m : ℝ) * 2 ^ e)) := by
  have hlt : (m : ℝ) * 2 ^ e < 2 ^ (1023 : ℤ) :=
    calc (m : ℝ) * 2 ^ e < 2 ^ (53 : ℤ) * 2 ^ e := by
          gcongr
          exact_mod_cast hm
      _ = 2 ^ (53 + e) := by rw [zpow_add₀ (by norm_num)]
      _ ≤ 2 ^ (1023 : ℤ) := zpow_le_zpow_right₀ (by norm_num) (by omega)
  have h := stands_toDouble s hlt
  rwa [Format.round_signed, Format.round_mul_zpow (f := double) hm he] at h

lemma stands_zero : Stands 0 0 := by
  have hbits : (0 : Float).toBits = 0 := by decide
  refine ⟨false, 0, double.minExponent, ?_, by simp⟩
  rw [ofDouble, hbits]
  decide

/-- Some numbers that are written in the program. -/
lemma stands_literals : (Stands 1 1 ∧ Stands (-1) (-1)) ∧ Stands 2 2 ∧ Stands 0.5 (1 / 2) := by
  refine ⟨⟨⟨false, 4503599627370496, -52, by decide, ?_⟩,
    ⟨true, 4503599627370496, -52, by decide, ?_⟩⟩,
    ⟨false, 4503599627370496, -51, by decide, ?_⟩,
    ⟨false, 4503599627370496, -53, by decide, ?_⟩⟩ <;> norm_num [signed]

lemma stands_one : Stands 1 1 := stands_literals.1.1

lemma stands_neg_one : Stands (-1) (-1) := stands_literals.1.2

lemma stands_two : Stands 2 2 := stands_literals.2.1

lemma stands_half : Stands 0.5 (1 / 2) := stands_literals.2.2

lemma Stands.isFinite {x : Float} {r : ℝ} (h : Stands x r) : x.isFinite = true := by
  rw [Stands, ofDouble_eq] at h
  exact Format.isFinite_of_denotes_ofUnpacked h

/-- The bits of a number give the number back. -/
lemma Stands.ofBits_toBits {x : Float} {r : ℝ} (h : Stands x r) : Float.ofBits x.toBits = x := by
  obtain ⟨s, m, e, hx, -⟩ := h
  obtain ⟨⟨bits, hvalid⟩⟩ := x
  change Float.ofModel ⟨UInt64.ofBitVec (pack .binary64 (unpack .binary64 bits.toBitVec)), _⟩ = _
  congr
  exact Format.pack_unpack_of_decode (f := double) (S := .binary64) hx

end Terrain.Number
