import Terrain.Number.Convert
import Terrain.Proofs.Number.Rounding

/-!
# Bit patterns as numbers

The bit pattern of a non-negative number is its place in the order of all numbers of the format.
`decode_place` reads a place, `decode_eq_finite` says which places are numbers, and `decode_bitsOf`
says that the bit pattern of the number nearest to a real stands for the rounded real.
-/

namespace Terrain.Number.Format

/-- What makes the bit patterns of a format work: there are bits besides the leading one, and
exponent fields besides those of the smallest numbers and of infinity. -/
class Proper (f : Format) : Prop where
  two_le_precision : 2 ≤ f.precision
  two_le_exponentBits : 2 ≤ f.exponentBits

instance : Proper single := ⟨by decide, by decide⟩

instance : Proper double := ⟨by decide, by decide⟩

variable (f : Format)

lemma unit_eq_two_pow : f.unit = 2 ^ (f.precision - 1) := by
  rw [f.unit_eq, Nat.one_shiftLeft]

lemma fields_eq_two_pow : f.fields = 2 ^ f.exponentBits := by
  rw [f.fields_eq, Nat.one_shiftLeft]

lemma unit_pos : 0 < f.unit := by
  rw [unit_eq_two_pow]
  exact Nat.two_pow_pos _

lemma four_le_fields [Proper f] : 4 ≤ f.fields := by
  rw [fields_eq_two_pow]
  exact Nat.pow_le_pow_right Nat.two_pos (Proper.two_le_exponentBits (f := f))

lemma one_le_precision [Proper f] : 1 ≤ f.precision :=
  one_le_two.trans (Proper.two_le_precision (f := f))

lemma two_mul_unit [Proper f] : 2 * f.unit = 2 ^ f.precision := by
  rw [unit_eq_two_pow, ← Nat.pow_succ', Nat.succ_eq_add_one, Nat.sub_add_cancel f.one_le_precision]

lemma two_le_unit [Proper f] : 2 ≤ f.unit := by
  have hp := Proper.two_le_precision (f := f)
  rw [unit_eq_two_pow]
  exact Nat.le_self_pow (by omega) 2

/-! ### Places -/

/-- A mantissa and an exponent as a bit pattern holds them: all bits are used, unless the exponent
is the smallest one. -/
structure Canonical (m : ℕ) (e : ℤ) : Prop where
  lt : m < 2 * f.unit
  le : f.minExponent ≤ e
  full : f.unit ≤ m ∨ e = f.minExponent

/-- The place of a number in the order of the non-negative numbers. -/
def place (m : ℕ) (e : ℤ) : ℕ := (e - f.minExponent).toNat * f.unit + m

/-- What the sign adds to a bit pattern. -/
def signPart (negative : Bool) : ℕ := if negative then f.signBit else 0

variable {f}

lemma Canonical.log2 [Proper f] {m : ℕ} {e : ℤ} (hc : f.Canonical m e) (hm : f.unit ≤ m) :
    m.log2 + 1 = f.precision := by
  have hlt := hc.lt
  have hp := f.one_le_precision
  have hm0 : m ≠ 0 := (f.unit_pos.trans_le hm).ne'
  rw [two_mul_unit] at hlt
  rw [unit_eq_two_pow] at hm
  have hlo := (Nat.le_log2 hm0).mpr hm
  have hhi := (Nat.log2_lt hm0).mpr hlt
  omega

/-- The spacing around a canonical number is the weight of its last bit. -/
lemma Canonical.gridExponent [Proper f] {m : ℕ} {e : ℤ} (hc : f.Canonical m e) :
    f.gridExponent ((m : ℝ) * 2 ^ e) = e := by
  have hle := hc.le
  have hpos := f.unit_pos
  rcases eq_or_ne m 0 with rfl | hm
  · have he := hc.full.resolve_left (by omega)
    simp [he]
  rw [f.gridExponent_mul_zpow hm]
  rcases hc.full with hu | he
  · have := hc.log2 hu
    omega
  · have hlt := hc.lt
    rw [two_mul_unit] at hlt
    have := (Nat.log2_lt hm).mpr hlt
    omega

/-- Two canonical numbers with one value are written alike. -/
lemma Canonical.eq_of_value_eq [Proper f] {m m' : ℕ} {e e' : ℤ} (hc : f.Canonical m e)
    (hc' : f.Canonical m' e') (h : (m : ℝ) * 2 ^ e = m' * 2 ^ e') : m = m' ∧ e = e' := by
  have he : e = e' := by rw [← hc.gridExponent, h, hc'.gridExponent]
  subst he
  exact ⟨by exact_mod_cast mul_right_cancel₀ (by positivity) h, rfl⟩

lemma decode_add_signPart {b : ℕ} (hb : b < f.signBit) (s : Bool) :
    f.decode (b + f.signPart s) =
      if b / f.unit + 1 = f.fields then
        if b % f.unit = 0 then .infinite s else .nan
      else if b / f.unit = 0 then .finite s (b % f.unit) f.minExponent
      else .finite s (f.unit + b % f.unit) (f.minExponent + (b / f.unit - 1 : ℕ)) := by
  have hu := f.unit_pos
  have hd : b / f.unit < f.fields := Nat.div_lt_of_lt_mul (by rwa [mul_comm])
  have hs : f.signPart s = f.unit * (f.fields * s.toNat) := by
    cases s <;> simp [signPart, signBit, mul_comm]
  have hmod : (b + f.signPart s) % f.unit = b % f.unit := by rw [hs, Nat.add_mul_mod_self_left]
  have hdiv : (b + f.signPart s) / f.unit = b / f.unit + f.fields * s.toNat := by
    rw [hs, Nat.add_mul_div_left _ _ hu]
  have hfield : (b / f.unit + f.fields * s.toNat) % f.fields = b / f.unit := by
    rw [Nat.add_mul_mod_self_left, Nat.mod_eq_of_lt hd]
  have hneg : ((b / f.unit + f.fields * s.toNat) / f.fields % 2 == 1) = s := by
    rw [Nat.add_mul_div_left _ _ (by omega), Nat.div_eq_of_lt hd]
    cases s <;> rfl
  simp only [decode, hmod, hdiv, hfield, hneg]

lemma infinityBits_lt_signBit [Proper f] : f.infinityBits < f.signBit :=
  Nat.mul_lt_mul_of_pos_right (by have := f.four_le_fields; omega) f.unit_pos

lemma decode_place [Proper f] {m : ℕ} {e : ℤ} (hc : f.Canonical m e)
    (hb : f.place m e < f.infinityBits) (s : Bool) :
    f.decode (f.place m e + f.signPart s) = .finite s m e := by
  have hu := f.unit_pos
  have hfields := f.four_le_fields
  have hlt := hc.lt
  have hle := hc.le
  rw [decode_add_signPart (hb.trans infinityBits_lt_signBit)]
  have hfield : f.place m e / f.unit < f.fields - 1 := Nat.div_lt_of_lt_mul (by rwa [mul_comm])
  rw [if_neg (by omega)]
  by_cases hm : f.unit ≤ m
  · have hdiv : f.place m e / f.unit = (e - f.minExponent).toNat + 1 := by
      rw [place, mul_comm, Nat.mul_add_div hu, Nat.div_eq_of_lt_le] <;> omega
    have hmod : f.place m e % f.unit = m - f.unit := by
      rw [place, Nat.mul_add_mod', Nat.mod_eq_sub_mod hm, Nat.mod_eq_of_lt (by omega)]
    rw [hdiv, hmod, if_neg (by omega), Nat.add_sub_cancel' hm, Nat.add_sub_cancel,
      Int.toNat_of_nonneg (by omega), add_sub_cancel]
  · have he := hc.full.resolve_left hm
    have hplace : f.place m e = m := by simp [place, he]
    rw [hplace, Nat.div_eq_of_lt (by omega), Nat.mod_eq_of_lt (by omega), if_pos rfl, he]

/-- A bit pattern that stands for a number is the place of a canonical one. -/
lemma decode_eq_finite [Proper f] {b : ℕ} (hb : b < f.signBit) {s s' : Bool} {m : ℕ} {e : ℤ}
    (h : f.decode (b + f.signPart s) = .finite s' m e) :
    s' = s ∧ f.Canonical m e ∧ b = f.place m e ∧ b < f.infinityBits := by
  have hu := f.unit_pos
  have hfields := f.four_le_fields
  have hmod := Nat.mod_lt b hu
  have hd : b / f.unit < f.fields := Nat.div_lt_of_lt_mul (by rwa [mul_comm])
  rw [decode_add_signPart hb] at h
  split_ifs at h with hinf hzero hsub
  · injection h with hs hm he
    subst hs hm he
    have hlt : b < f.unit := (Nat.div_eq_zero_iff_lt hu).mp hsub
    rw [Nat.mod_eq_of_lt hlt] at *
    refine ⟨rfl, ⟨by omega, le_rfl, Or.inr rfl⟩, by simp [place], ?_⟩
    exact hlt.trans_le (Nat.le_mul_of_pos_left _ (by omega))
  · injection h with hs hm he
    subst hs hm he
    have hplace : b = f.place (f.unit + b % f.unit) (f.minExponent + (b / f.unit - 1 : ℕ)) := by
      have h1 : b / f.unit - 1 + 1 = b / f.unit := Nat.sub_add_cancel (Nat.pos_of_ne_zero hsub)
      rw [place, add_sub_cancel_left, Int.toNat_natCast, ← add_assoc, ← Nat.succ_mul,
        Nat.succ_eq_add_one, h1, Nat.div_add_mod']
    refine ⟨rfl, ⟨by omega, ?_, Or.inl (by omega)⟩, hplace, ?_⟩
    · exact le_add_of_nonneg_right (Int.natCast_nonneg _)
    · exact (Nat.div_lt_iff_lt_mul hu).mp (Nat.lt_sub_of_add_lt (lt_of_le_of_ne hd hinf))

/-! ### The nearest number -/

variable (f) in
/-- The bit pattern of the number nearest to a real that is not negative. -/
noncomputable def bitsOf (x : ℝ) : ℕ :=
  min f.infinityBits
    (f.place (f.nearestMantissa x).toNat (f.gridExponent x))

/-- A mantissa that was rounded up to one bit more has a canonical form at the same place. -/
lemma exists_canonical [Proper f] {m : ℕ} {e : ℤ} (hm : m ≤ 2 * f.unit) (he : f.minExponent ≤ e)
    (hfull : f.unit ≤ m ∨ e = f.minExponent) :
    ∃ m' e', f.Canonical m' e' ∧ f.place m' e' = f.place m e ∧ (m' : ℝ) * 2 ^ e' = m * 2 ^ e := by
  have hu := f.unit_pos
  rcases hm.lt_or_eq with hlt | rfl
  · exact ⟨m, e, ⟨hlt, he, hfull⟩, rfl, rfl⟩
  · refine ⟨f.unit, e + 1, ⟨by omega, by omega, Or.inl le_rfl⟩, ?_, ?_⟩
    · have h1 : (e + 1 - f.minExponent).toNat = (e - f.minExponent).toNat + 1 := by omega
      rw [place, place, h1, Nat.succ_mul, add_assoc, two_mul]
    · rw [zpow_add_one₀ (by norm_num)]
      push_cast
      ring

/-- The rounded mantissa of a real has at most one bit too many, and too few only at the smallest
exponent. -/
lemma nearestMantissa_bounds [Proper f] {x : ℝ} (hx : 0 ≤ x) :
    (f.nearestMantissa x).toNat ≤ 2 * f.unit ∧
      (f.unit ≤ (f.nearestMantissa x).toNat ∨ f.gridExponent x = f.minExponent) := by
  have hp := f.one_le_precision
  rcases hx.eq_or_lt with rfl | hx
  · simp
  have hgrid := f.gridExponent_of_ne_zero hx.ne'
  rw [abs_of_pos hx] at hgrid
  constructor
  · have hlt : x / 2 ^ f.gridExponent x < ((2 * f.unit : ℕ) : ℤ) := by
      rw [two_mul_unit, div_lt_iff₀ (by positivity)]
      push_cast
      rw [← zpow_natCast, ← zpow_add₀ (by norm_num)]
      refine (Int.lt_zpow_iff_log_lt (b := 2) (by norm_num) hx).mpr ?_
      omega
    have hmantissa : f.nearestMantissa x ≤ (2 * f.unit : ℕ) := nearestEven_le_of_lt hlt
    omega
  · refine or_iff_not_imp_right.mpr fun hne => ?_
    have hle : (f.unit : ℤ) ≤ x / 2 ^ f.gridExponent x := by
      rw [unit_eq_two_pow, le_div_iff₀ (by positivity)]
      push_cast
      rw [← zpow_natCast, ← zpow_add₀ (by norm_num)]
      refine (Int.zpow_le_iff_le_log (b := 2) (by norm_num) hx).mpr ?_
      omega
    have hmantissa : f.unit ≤ f.nearestMantissa x :=
      (Int.le_floor.mpr hle).trans (floor_le_nearestEven _)
    omega

/-- The number nearest to a real, before the largest numbers are cut off: a canonical number at the
place of the rounded mantissa, with the value of the rounded real. -/
lemma exists_canonical_round [Proper f] {x : ℝ} (hx : 0 ≤ x) :
    ∃ m e, f.Canonical m e ∧ f.bitsOf x = min f.infinityBits (f.place m e) ∧
      (m : ℝ) * 2 ^ e = f.round x := by
  have hbounds := nearestMantissa_bounds (f := f) hx
  obtain ⟨m, e, hc, hplace, hvalue⟩ :=
    exists_canonical hbounds.1 (f.minExponent_le_gridExponent x) hbounds.2
  refine ⟨m, e, hc, by rw [bitsOf, hplace], ?_⟩
  have hcast : ((f.nearestMantissa x).toNat : ℝ) =
      f.nearestMantissa x := by
    exact_mod_cast Int.toNat_of_nonneg (f.nearestMantissa_nonneg hx)
  rw [hvalue, hcast, round]

lemma decode_bitsOf [Proper f] {x : ℝ} (hx : 0 ≤ x) (hb : f.bitsOf x < f.infinityBits) (s : Bool) :
    ∃ m e, f.decode (f.bitsOf x + f.signPart s) = .finite s m e ∧ (m : ℝ) * 2 ^ e = f.round x := by
  obtain ⟨m, e, hc, hplace, hvalue⟩ := exists_canonical_round (f := f) hx
  have hlt : f.place m e < f.infinityBits := by omega
  rw [hplace, min_eq_right hlt.le]
  exact ⟨m, e, decode_place hc hlt s, hvalue⟩

/-- A real below a large power of two does not become infinite. -/
lemma bitsOf_lt_infinityBits [Proper f] {x : ℝ} (hx : 0 ≤ x) {k : ℤ} (hk : x < 2 ^ k)
    (hhi : k + 4 ≤ f.minExponent + f.fields + f.precision) : f.bitsOf x < f.infinityBits := by
  have hu := f.unit_pos
  have hfields := f.four_le_fields
  refine (min_le_right _ _).trans_lt ?_
  have hgrid : (f.gridExponent x - f.minExponent).toNat + 3 < f.fields := by
    rcases hx.eq_or_lt with rfl | hpos
    · simp
      omega
    · rw [f.gridExponent_of_ne_zero hpos.ne', abs_of_pos hpos]
      have := (Int.lt_zpow_iff_log_lt (b := 2) (by norm_num) hpos).mp (by exact_mod_cast hk)
      omega
  have hm := (nearestMantissa_bounds (f := f) hx).1
  calc f.place _ (f.gridExponent x)
      ≤ (f.gridExponent x - f.minExponent).toNat * f.unit + 2 * f.unit := Nat.add_le_add_left hm _
    _ = ((f.gridExponent x - f.minExponent).toNat + 2) * f.unit := by rw [add_mul]
    _ < (f.fields - 1) * f.unit := Nat.mul_lt_mul_of_pos_right (by omega) hu

/-! ### Encoding -/

lemma bitsOf_canonical [Proper f] {m : ℕ} {e : ℤ} (hc : f.Canonical m e) :
    f.bitsOf ((m : ℝ) * 2 ^ e) = min f.infinityBits (f.place m e) := by
  rw [bitsOf, nearestMantissa, hc.gridExponent, mul_div_cancel_right₀ _ (by positivity),
    ← Int.cast_natCast, nearestEven_intCast, Int.toNat_natCast]

/-- Rounding on mantissas gives the bit pattern of the nearest number. -/
lemma magnitudeBits_eq_bitsOf (m : ℕ) (e : ℤ) :
    f.magnitudeBits m e = f.bitsOf ((m : ℝ) * 2 ^ e) := by
  rcases eq_or_ne m 0 with rfl | hm
  · simp [magnitudeBits, bitsOf, place]
  rw [magnitudeBits, if_neg hm, bitsOf, nearestMantissa, f.gridExponent_mul_zpow hm, place]
  have hcast : ∀ t : ℤ, (m : ℝ) * 2 ^ e / 2 ^ t = m * 2 ^ (e - t) := fun t => by
    rw [mul_div_assoc, ← zpow_sub₀ (by norm_num)]
  rw [hcast]
  dsimp only
  split_ifs with hle
  · have hshift : (m : ℝ) * 2 ^ (e - max f.minExponent (e + m.log2 + 1 - f.precision)) =
        ((m <<< (e - max f.minExponent (e + m.log2 + 1 - f.precision)).toNat : ℕ) : ℤ) := by
      rw [Nat.shiftLeft_eq]
      push_cast
      rw [← zpow_natCast, Int.toNat_of_nonneg (by omega)]
    rw [hshift, nearestEven_intCast, Int.toNat_natCast]
  · have hshift : (2 : ℝ) ^ (e - max f.minExponent (e + m.log2 + 1 - f.precision)) =
        (2 ^ (max f.minExponent (e + m.log2 + 1 - f.precision) - e).toNat)⁻¹ := by
      rw [← zpow_natCast, ← zpow_neg, Int.toNat_of_nonneg (by omega), neg_sub]
    rw [hshift, ← div_eq_mul_inv, ← shiftRightEven_eq, Int.toNat_natCast]

lemma encode_finite (s : Bool) (m : ℕ) (e : ℤ) :
    f.encode (.finite s m e) = f.bitsOf ((m : ℝ) * 2 ^ e) + f.signPart s := by
  rw [encode, magnitudeBits_eq_bitsOf, signPart]

/-- A bit pattern that stands for a number is the one that the number is written with. -/
lemma encode_decode_finite [Proper f] {b : ℕ} (hb : b < f.signBit) {s s' : Bool} {m : ℕ} {e : ℤ}
    (h : f.decode (b + f.signPart s) = .finite s' m e) :
    f.encode (.finite s' m e) = b + f.signPart s := by
  obtain ⟨rfl, hc, hplace, hlt⟩ := decode_eq_finite hb h
  rw [encode_finite, bitsOf_canonical hc, ← hplace, min_eq_right hlt.le]

variable (f) in
lemma decode_encode_nan [Proper f] : f.decode (f.encode .nan) = .nan := by
  have hu := f.two_le_unit
  have hfields := f.four_le_fields
  have hlt : f.encode .nan < f.signBit := by
    rw [encode, infinityBits, signBit]
    calc (f.fields - 1) * f.unit + f.unit / 2 < (f.fields - 1) * f.unit + f.unit := by omega
      _ = (f.fields - 1 + 1) * f.unit := (Nat.succ_mul _ _).symm
      _ = f.fields * f.unit := by rw [Nat.sub_add_cancel (by omega)]
  have hdiv : f.encode .nan / f.unit = f.fields - 1 := by
    rw [encode, infinityBits, mul_comm, Nat.mul_add_div (by omega), Nat.div_eq_of_lt (by omega),
      add_zero]
  have hmod : f.encode .nan % f.unit = f.unit / 2 := by
    rw [encode, infinityBits, Nat.mul_add_mod', Nat.mod_eq_of_lt (by omega)]
  have h := decode_add_signPart hlt false
  rw [hdiv, hmod, if_pos (by omega), if_neg (by omega)] at h
  exact h

lemma decode_encode_infinite [Proper f] (s : Bool) :
    f.decode (f.encode (.infinite s)) = .infinite s := by
  have hfields := f.four_le_fields
  have h := decode_add_signPart (f := f) infinityBits_lt_signBit s
  rw [infinityBits, Nat.mul_div_cancel _ f.unit_pos, if_pos (by omega),
    if_pos (Nat.mul_mod_left _ _)] at h
  exact h

/-- Writing what was read changes at most how something that is not a number is written. -/
lemma decode_encode_decode [Proper f] {b : ℕ} (hb : b < f.signBit) (s : Bool) :
    f.decode (f.encode (f.decode (b + f.signPart s))) = f.decode (b + f.signPart s) := by
  match hd : f.decode (b + f.signPart s) with
  | .nan => exact f.decode_encode_nan
  | .infinite s => exact decode_encode_infinite s
  | .finite s' m e => rw [encode_decode_finite hb hd, hd]

end Terrain.Number.Format
