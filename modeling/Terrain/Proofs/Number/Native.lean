import Terrain.Proofs.Number.Encoding

/-!
# The arithmetic of the machine

The built-in numbers are given by a model that unpacks a bit pattern, operates on a sign, a mantissa
and an exponent, and packs the rounded result. Here that model is matched with the formats:
`decode_toNat` and `toNat_pack` say that unpacking and packing are reading and writing, and
`toNat_pack_roundWithAccuracy` that its rounding yields the bit pattern of the nearest number.
-/

namespace Terrain.Number

open Float.Model (UnpackedFloat totalExponent)
open Float.Model.UnpackedFloat

/-- A format has the bits of a built-in one. -/
class Format.Describes (f : Format) (S : Float.Model.Format) : Prop extends f.Proper where
  precision_eq : f.precision = S.mantissaBits
  exponentBits_eq : f.exponentBits = S.exponentBits

instance : double.Describes .binary64 := ⟨by decide, by decide⟩

instance : single.Describes .binary32 := ⟨by decide, by decide⟩

/-- Whether a sign is the negative one. -/
def isNegative : Sign → Bool
  | .negative => true
  | .positive => false

/-- What an unpacked number stands for. -/
def ofUnpacked (f : Format) : UnpackedFloat → Binary
  | .notANumber => .nan
  | .infinity s => .infinite (isNegative s)
  | .zero s => .finite (isNegative s) 0 f.minExponent
  | .finite s m e _ => .finite (isNegative s) m e

/-- An unpacked number that could come out of a bit pattern. -/
def IsCanonical (f : Format) : UnpackedFloat → Prop
  | .finite _ m e _ => f.Canonical m e
  | _ => True

namespace Format

variable {f : Format} {S : Float.Model.Format} [f.Describes S]

variable (f S) in
lemma unit_eq_of_describes : f.unit = 2 ^ S.mantissaBitsWithoutImplicit := by
  rw [unit_eq_two_pow, Describes.precision_eq (S := S), Float.Model.Format.mantissaBits,
    Nat.add_sub_cancel_left]

variable (f S) in
lemma fields_eq_of_describes : f.fields = 2 ^ S.exponentBits := by
  rw [fields_eq_two_pow, Describes.exponentBits_eq (S := S)]

variable (f S) in
lemma minExponent_eq_of_describes : f.minExponent = S.minExponent := by
  rw [f.minExponent_eq, Float.Model.Format.minExponent, Describes.precision_eq (S := S),
    Describes.exponentBits_eq (S := S), Nat.one_shiftLeft]
  push_cast
  rfl

variable (f S) in
lemma targetExponent_eq (t : ℤ) : S.targetExponent t = max (t - f.precision) f.minExponent := by
  rw [Float.Model.Format.targetExponent, minExponent_eq_of_describes f S,
    Describes.precision_eq (f := f) (S := S)]

/-! ### Unpacking -/

lemma toNat_unpackMantissa (b : BitVec S.numBits) :
    (unpackMantissa b).toNat = b.toNat % f.unit := by
  have := S.hm
  rw [unit_eq_of_describes f S]
  simp only [unpackMantissa, BitVec.toNat_cast, BitVec.extractLsb_toNat, Nat.shiftRight_zero]
  congr 2
  omega

lemma toNat_unpackExponent (b : BitVec S.numBits) :
    (unpackExponent b).toNat = b.toNat / f.unit % f.fields := by
  have := S.he
  rw [unit_eq_of_describes f S, fields_eq_of_describes f S]
  simp only [unpackExponent, BitVec.toNat_cast, BitVec.extractLsb_toNat, Nat.shiftRight_eq_div_pow]
  congr 2
  omega

lemma isNegative_unpackSign (b : BitVec S.numBits) :
    isNegative (Sign.ofBitVec (unpackSign b)) = (b.toNat / f.unit / f.fields % 2 == 1) := by
  have hs : (unpackSign b).toNat = b.toNat / f.unit / f.fields % 2 := by
    rw [unit_eq_of_describes f S, fields_eq_of_describes f S, Nat.div_div_eq_div_mul, ← Nat.pow_add]
    simp [unpackSign, Nat.shiftRight_eq_div_pow]
  rw [← hs, Sign.ofBitVec]
  split_ifs with h
  · rw [h]
    rfl
  · have hne : (unpackSign b).toNat ≠ 0 := fun h0 => h (BitVec.eq_of_toNat_eq h0)
    have hlt := (unpackSign b).isLt
    rw [show (unpackSign b).toNat = 1 by omega]
    rfl

variable (f S) in
lemma bias_eq : (S.exponentBias + S.mantissaBitsWithoutImplicit : ℤ) = 1 - f.minExponent := by
  have hpow : 1 ≤ 2 ^ (S.exponentBits - 1) := Nat.one_le_two_pow
  rw [minExponent_eq_of_describes f S, Float.Model.Format.minExponent,
    Float.Model.Format.exponentBias, Float.Model.Format.mantissaBits, Nat.cast_sub hpow]
  push_cast
  ring

lemma toNat_one_append (b : BitVec S.mantissaBitsWithoutImplicit) :
    (1#1 ++ b).toNat = f.unit + b.toNat := by
  rw [BitVec.toNat_append, ← Nat.shiftLeft_add_eq_or_of_lt b.isLt, unit_eq_of_describes f S]
  simp [Nat.shiftLeft_eq]

/-- Unpacking a bit pattern is reading it. -/
lemma decode_toNat (b : BitVec S.numBits) : f.decode b.toNat = ofUnpacked f (unpack S b) := by
  have hm := toNat_unpackMantissa (f := f) b
  have he := toNat_unpackExponent (f := f) b
  have hs := isNegative_unpackSign (f := f) b
  have hbias := bias_eq f S
  have hfields := f.four_le_fields
  have hpow := fields_eq_of_describes f S
  have hlast : unpackExponent b = -1#_ ↔ b.toNat / f.unit % f.fields + 1 = f.fields := by
    rw [← he, ← BitVec.toNat_inj, BitVec.neg_one_eq_allOnes, BitVec.toNat_allOnes, hpow]
    omega
  have hfirst : unpackExponent b = 0#_ ↔ b.toNat / f.unit % f.fields = 0 := by
    rw [← he, ← BitVec.toNat_inj]
    rfl
  have hzero : unpackMantissa b = 0#_ ↔ b.toNat % f.unit = 0 := by
    rw [← hm, ← BitVec.toNat_inj]
    rfl
  simp only [decode, unpack, ← hs, hlast, hfirst, hzero]
  split_ifs with h1 h2 h3 h4
  · rfl
  · rfl
  · simp [ofUnpacked, h4]
  · have hexp : (unpackExponent b).toNat = 0 := he.trans h3
    simp only [ofUnpacked, hm, hexp]
    congr 1
    omega
  · simp only [ofUnpacked, toNat_one_append (f := f), hm, he]
    congr 1
    omega

/-! ### Packing -/

variable (f) in
lemma isNegative_toNat (s : Sign) : f.signBit * s.toBitVec.toNat = f.signPart (isNegative s) := by
  cases s <;> simp [signPart, isNegative, Sign.toBitVec]

lemma toNat_packComponents (s : Sign) (e : BitVec S.exponentBits)
    (m : BitVec S.mantissaBitsWithoutImplicit) :
    (packComponents S s e m).toNat = e.toNat * f.unit + m.toNat + f.signPart (isNegative s) := by
  rw [packComponents, BitVec.toNat_append, ← Nat.shiftLeft_add_eq_or_of_lt m.isLt,
    BitVec.toNat_append, ← Nat.shiftLeft_add_eq_or_of_lt e.isLt, Nat.shiftLeft_eq, Nat.shiftLeft_eq,
    ← unit_eq_of_describes f S, ← fields_eq_of_describes f S, ← isNegative_toNat, signBit]
  ring

variable (f S) in
lemma toNat_ones : (-1#S.exponentBits).toNat = f.fields - 1 := by
  rw [BitVec.neg_one_eq_allOnes, BitVec.toNat_allOnes, fields_eq_of_describes f S]

lemma toNat_packedInfinity (s : Sign) :
    (packedInfinity S s).toNat = f.infinityBits + f.signPart (isNegative s) := by
  rw [packedInfinity, toNat_packComponents (f := f), toNat_ones f S, infinityBits]
  rfl

lemma toNat_packedNaN : (packedNaN S).toNat = f.encode .nan := by
  have hhalf : (1#S.mantissaBitsWithoutImplicit <<< (S.mantissaBitsWithoutImplicit - 1)).toNat =
      f.unit / 2 := by
    have := S.hm
    rw [unit_eq_of_describes f S, BitVec.toNat_shiftLeft, BitVec.toNat_ofNat,
      Nat.mod_eq_of_lt (Nat.one_lt_two_pow (by omega)), Nat.one_shiftLeft,
      Nat.mod_eq_of_lt (Nat.pow_lt_pow_right (by omega) (by omega))]
    exact (Nat.pow_div (by omega) (by omega)).symm
  rw [packedNaN, toNat_packComponents (f := f), toNat_ones f S, hhalf]
  simp [encode, infinityBits, isNegative, signPart]

/-- A magnitude whose exponent leaves room for one more field is not infinite. -/
lemma place_le_infinityBits {m : ℕ} {e : ℤ} (hc : f.Canonical m e)
    (he : (e - f.minExponent).toNat + 1 < f.fields - 1) : f.place m e ≤ f.infinityBits :=
  calc f.place m e ≤ (e - f.minExponent).toNat * f.unit + 2 * f.unit :=
        Nat.add_le_add_left hc.lt.le _
    _ = ((e - f.minExponent).toNat + 2) * f.unit := (add_mul _ _ _).symm
    _ ≤ f.infinityBits := Nat.mul_le_mul_right _ (by omega)

lemma infinityBits_le_place {m : ℕ} {e : ℤ} (hm : f.unit ≤ m)
    (he : f.fields - 1 ≤ (e - f.minExponent).toNat + 1) : f.infinityBits ≤ f.place m e :=
  calc f.infinityBits ≤ ((e - f.minExponent).toNat + 1) * f.unit := Nat.mul_le_mul_right _ he
    _ = (e - f.minExponent).toNat * f.unit + f.unit := Nat.succ_mul _ _
    _ ≤ f.place m e := Nat.add_le_add_left hm _

lemma toNat_pack_finite (s : Sign) {m : ℕ} {e : ℤ} (hp : 0 < m) (hc : f.Canonical m e) :
    (pack S (.finite s m e hp)).toNat = f.encode (.finite (isNegative s) m e) := by
  have hbias := bias_eq f S
  have hfields := f.four_le_fields
  have hpow := fields_eq_of_describes f S
  have hunit := unit_eq_of_describes f S
  have hle := hc.le
  have hlt := hc.lt
  have hbiased : (e + S.exponentBias + S.mantissaBitsWithoutImplicit).toNat =
      (e - f.minExponent).toNat + 1 := by omega
  rw [encode_finite, bitsOf_canonical hc, pack, hbiased, ← hpow,
    ← Describes.precision_eq (f := f) (S := S)]
  split_ifs with hover hfull
  · rw [toNat_packedInfinity (f := f), min_eq_left]
    exact infinityBits_le_place (hc.full.resolve_right (by omega)) (by omega)
  all_goals
    rw [toNat_packComponents (f := f), min_eq_right (place_le_infinityBits hc (by omega)),
      BitVec.toNat_ofNat, BitVec.toNat_ofNat, ← hunit, ← hpow]
  · have hm : f.unit ≤ m := by
      rw [unit_eq_two_pow, ← hfull, Nat.add_sub_cancel]
      exact Nat.log2_self_le hp.ne'
    rw [Nat.mod_eq_of_lt (show _ < f.fields by omega), Nat.mod_eq_sub_mod hm,
      Nat.mod_eq_of_lt (by omega), Nat.succ_mul, place]
    omega
  · have hm : m < f.unit := lt_of_not_ge fun hm => hfull (hc.log2 hm)
    have he := hc.full.resolve_left (by omega)
    simp [place, he, Nat.mod_eq_of_lt hm]

/-- Packing a number is writing it. -/
lemma toNat_pack {u : UnpackedFloat} (hu : IsCanonical f u) :
    (pack S u).toNat = f.encode (ofUnpacked f u) := by
  match u with
  | .notANumber => exact toNat_packedNaN
  | .infinity s => rw [pack, toNat_packedInfinity (f := f), ofUnpacked, encode, signPart]
  | .zero s =>
    rw [pack, packedZero, toNat_packComponents (f := f), ofUnpacked, encode_finite]
    simp [bitsOf, place]
  | .finite s m e hp => exact toNat_pack_finite s hp hu

/-- A bit pattern has a sign and the place of a magnitude. -/
lemma exists_add_signPart (b : BitVec S.numBits) :
    ∃ n s, n < f.signBit ∧ b.toNat = n + f.signPart s := by
  have hb : b.toNat < 2 * f.signBit := by
    have hlt := b.isLt
    rwa [Nat.pow_add, Nat.pow_add, ← unit_eq_of_describes f S, ← fields_eq_of_describes f S,
      pow_one, mul_assoc] at hlt
  by_cases h : b.toNat < f.signBit
  · exact ⟨b.toNat, false, h, rfl⟩
  · refine ⟨b.toNat - f.signBit, true, by omega, ?_⟩
    rw [signPart, if_pos rfl]
    omega

/-- The bit pattern of a number is the place of its magnitude, with its sign. -/
lemma toNat_of_decode {b : BitVec S.numBits} {s : Bool} {m : ℕ} {e : ℤ}
    (h : f.decode b.toNat = .finite s m e) :
    f.Canonical m e ∧ f.place m e < f.infinityBits ∧ b.toNat = f.place m e + f.signPart s := by
  obtain ⟨n, t, hn, hsplit⟩ := exists_add_signPart (f := f) b
  rw [hsplit] at h ⊢
  obtain ⟨rfl, hc, rfl, hlt⟩ := decode_eq_finite hn h
  exact ⟨hc, hlt, rfl⟩

lemma isCanonical_unpack (b : BitVec S.numBits) : IsCanonical f (unpack S b) := by
  have hdecode := decode_toNat (f := f) b
  match hu : unpack S b with
  | .finite s m e hp =>
    rw [hu] at hdecode
    exact (toNat_of_decode hdecode).1
  | .notANumber | .infinity _ | .zero _ => trivial

/-- Packing what was unpacked changes at most how something that is not a number is written. -/
lemma decode_toNat_pack_unpack (b : BitVec S.numBits) :
    f.decode (pack S (unpack S b)).toNat = f.decode b.toNat := by
  obtain ⟨n, s, hn, hsplit⟩ := exists_add_signPart (f := f) b
  rw [toNat_pack (isCanonical_unpack (f := f) b), ← decode_toNat, hsplit,
    decode_encode_decode hn]

/-- The bit pattern of a number is packed again as it was. -/
lemma pack_unpack_of_decode {b : BitVec S.numBits} {s : Bool} {m : ℕ} {e : ℤ}
    (h : f.decode b.toNat = .finite s m e) : pack S (unpack S b) = b := by
  obtain ⟨hc, hlt, hsplit⟩ := toNat_of_decode h
  refine BitVec.eq_of_toNat_eq ?_
  rw [toNat_pack (isCanonical_unpack (f := f) b), ← decode_toNat, h, encode_finite,
    bitsOf_canonical hc, min_eq_right hlt.le, hsplit]

end Format

/-! ### Rounding -/

open Float.Model.UnpackedFloat

/-- Where an accuracy says that a real lies, seen from the integer below it. -/
inductive Locates : Accuracy → ℕ → ℝ → Prop where
  | exact {m : ℕ} {y : ℝ} : y = m → Locates .exact m y
  | below {m : ℕ} {y : ℝ} : m < y → y < m + 1 / 2 → Locates (.inexact .lt) m y
  | half {m : ℕ} {y : ℝ} : y = m + 1 / 2 → Locates (.inexact .eq) m y
  | above {m : ℕ} {y : ℝ} : m + 1 / 2 < y → y < m + 1 → Locates (.inexact .gt) m y

lemma Locates.le {a : Accuracy} {m : ℕ} {y : ℝ} (h : Locates a m y) : m ≤ y := by
  cases h <;> linarith

lemma Locates.lt {a : Accuracy} {m : ℕ} {y : ℝ} (h : Locates a m y) : y < m + 1 := by
  cases h <;> linarith

/-- Rounding by the accuracy is rounding to the nearest integer. -/
lemma Locates.nearestEven {a : Accuracy} {m : ℕ} {y : ℝ} (h : Locates a m y) :
    nearestEven y = a.roundToNearestEven m := by
  cases h with
  | exact h =>
    rw [h, ← Int.cast_natCast, nearestEven_intCast]
    rfl
  | below hlo hhi =>
    exact nearestEven_of_lt (n := m) (by exact_mod_cast hlo.le) (by exact_mod_cast hhi)
  | half h =>
    rw [h, ← Int.cast_natCast, nearestEven_half]
    rfl
  | above hlo hhi =>
    exact nearestEven_of_gt (n := m) (by exact_mod_cast hlo) (by exact_mod_cast hhi)

/-- A mantissa with its two residual bits says where a real lies. -/
def Holds (em : ExtendedMantissa) (y : ℝ) : Prop := Locates em.accuracy em.mantissa y

lemma holds_ofMantissaAndAccuracy {a : Accuracy} {m : ℕ} {y : ℝ} (h : Locates a m y) :
    Holds (.ofMantissaAndAccuracy m a) y := by
  rcases a with _ | (_ | _ | _) <;> exact h

/-- Shifting out one bit keeps track of the half of a real. -/
lemma Holds.shiftRightOne {em : ExtendedMantissa} {y : ℝ} (h : Holds em y) :
    Holds em.shiftRightOne (y / 2) := by
  obtain ⟨m, r, s⟩ := em
  have hm : (m : ℝ) = 2 * (m / 2 : ℕ) + (m % 2 : ℕ) := by exact_mod_cast (Nat.div_add_mod m 2).symm
  -- the bit shifted out becomes the round bit, the old round bit joins the sticky one
  rcases Nat.mod_two_eq_zero_or_one m with hp | hp <;> rw [hp] at hm
  · have hs : ExtendedMantissa.shiftRightOne ⟨m, r, s⟩ = ⟨m / 2, false, r || s⟩ := by
      simp [ExtendedMantissa.shiftRightOne, hp]
    rw [hs]
    push_cast at hm
    rcases r <;> rcases s <;> simp only [Holds, ExtendedMantissa.accuracy, Bool.or_true,
      Bool.or_false] at h ⊢ <;> cases h <;> constructor <;> linarith
  · have hs : ExtendedMantissa.shiftRightOne ⟨m, r, s⟩ = ⟨m / 2, true, r || s⟩ := by
      simp [ExtendedMantissa.shiftRightOne, hp]
    rw [hs]
    push_cast at hm
    rcases r <;> rcases s <;> simp only [Holds, ExtendedMantissa.accuracy, Bool.or_true,
      Bool.or_false] at h ⊢ <;> cases h <;> constructor <;> linarith

lemma Holds.shiftRight {em : ExtendedMantissa} {y : ℝ} (h : Holds em y) (k : ℕ) :
    Holds (em >>> k) (y / 2 ^ k) := by
  change Holds (k.repeat ExtendedMantissa.shiftRightOne em) _
  induction k with
  | zero => simpa [Nat.repeat] using h
  | succ k ih =>
    rw [Nat.repeat, pow_succ, ← div_div]
    exact ih.shiftRightOne

namespace Format

variable {f : Format} {S : Float.Model.Format} [f.Describes S]

lemma targetExponent_totalExponent {m : ℕ} (hm : m ≠ 0) (e : ℤ) :
    S.targetExponent (totalExponent m e) = f.gridExponent ((m : ℝ) * 2 ^ e) := by
  rw [targetExponent_eq f S, f.gridExponent_mul_zpow hm, totalExponent, max_comm]
  congr 1
  ring

/-- A canonical mantissa stays as it is when it is aligned. -/
lemma shiftToTargetExponent_canonical {m : ℕ} {e : ℤ} (hc : f.Canonical m e) :
    shiftToTargetExponent S m e .exact = (⟨m, false, false⟩, e) := by
  have htarget : S.targetExponent (totalExponent m e) ≤ e := by
    rcases eq_or_ne m 0 with rfl | hm
    · have hp := f.one_le_precision
      have hle := hc.le
      rw [targetExponent_eq f S, totalExponent, Nat.log2_zero]
      omega
    · rw [targetExponent_totalExponent (f := f) hm, hc.gridExponent]
  have hshift : (S.targetExponent (totalExponent m e) - e).toNat = 0 := by omega
  rw [shiftToTargetExponent, shiftToExponent, hshift]
  simp [HShiftRight.hShiftRight, Nat.repeat, ExtendedMantissa.ofMantissaAndAccuracy]

/-- A mantissa that was rounded up to one bit more loses its last bit, a zero. -/
lemma shiftToTargetExponent_carry {e : ℤ} (he : f.minExponent ≤ e) :
    shiftToTargetExponent S (2 * f.unit) e .exact = (⟨f.unit, false, false⟩, e + 1) := by
  have htarget : S.targetExponent (totalExponent (2 * f.unit) e) = e + 1 := by
    have hp := f.one_le_precision
    rw [targetExponent_eq f S, totalExponent, two_mul_unit, Nat.log2_two_pow]
    omega
  have hshift : (e + 1 - e).toNat = 1 := by omega
  rw [shiftToTargetExponent, htarget, shiftToExponent, hshift]
  simp [HShiftRight.hShiftRight, Nat.repeat, ExtendedMantissa.ofMantissaAndAccuracy,
    ExtendedMantissa.shiftRightOne]

/-- The binary logarithm of a real whose leading digits are those of a natural. -/
lemma log_eq {x : ℝ} {m : ℕ} {e : ℤ} (hm : m ≠ 0) (hlo : (m : ℝ) * 2 ^ e ≤ x)
    (hhi : x < (m + 1) * 2 ^ e) : Int.log 2 x = m.log2 + e := by
  have hpos : 0 < x := lt_of_lt_of_le (by positivity) hlo
  refine le_antisymm ?_ ?_
  · rw [← Int.lt_add_one_iff, ← Int.lt_zpow_iff_log_lt (by norm_num) hpos]
    refine hhi.trans_le ?_
    push_cast
    rw [add_right_comm, zpow_add₀ (by norm_num)]
    gcongr
    exact_mod_cast Nat.lt_log2_self
  · rw [← Int.zpow_le_iff_le_log (by norm_num) hpos]
    refine le_trans ?_ hlo
    push_cast
    rw [zpow_add₀ (by norm_num)]
    gcongr
    exact_mod_cast Nat.log2_self_le hm

/-- The exponent that rounding aligns to is that of the spacing around the real. -/
lemma targetExponent_of_locates {x : ℝ} {m : ℕ} {e : ℤ} {a : Accuracy} (hx : 0 ≤ x)
    (ha : Locates a m (x / 2 ^ e)) (hm : f.precision ≤ m.log2 + 1 ∨ e ≤ f.minExponent) :
    S.targetExponent (totalExponent m e) = f.gridExponent x ∧ e ≤ f.gridExponent x := by
  have hp := f.one_le_precision
  have hlo : (m : ℝ) * 2 ^ e ≤ x := (le_div_iff₀ (by positivity)).mp ha.le
  have hhi : x < (m + 1) * 2 ^ e := (div_lt_iff₀ (by positivity)).mp ha.lt
  rcases eq_or_ne m 0 with rfl | hm0
  · have he : e ≤ f.minExponent := by
      rw [Nat.log2_zero] at hm
      have := Format.Proper.two_le_precision (f := f)
      omega
    have hgrid : f.gridExponent x = f.minExponent := by
      rcases hx.eq_or_lt with rfl | hpos
      · exact f.gridExponent_zero
      rw [f.gridExponent_of_ne_zero hpos.ne', abs_of_pos hpos]
      have := (Int.lt_zpow_iff_log_lt (b := 2) (by norm_num) hpos).mp (by simpa using hhi)
      omega
    rw [hgrid, targetExponent_eq f S, totalExponent, Nat.log2_zero]
    omega
  · have hpos : 0 < x := lt_of_lt_of_le (by positivity) hlo
    rw [f.gridExponent_of_ne_zero hpos.ne', abs_of_pos hpos, log_eq hm0 hlo hhi,
      targetExponent_eq f S, totalExponent]
    omega

/-- The last step of rounding aligns a rounded mantissa and keeps its place. -/
lemma toNat_pack_aligned (s : Sign) {r : ℕ} {g : ℤ} (hr : r ≤ 2 * f.unit) (hg : f.minExponent ≤ g)
    (hfull : f.unit ≤ r ∨ g = f.minExponent) :
    (pack S (if h : (shiftToTargetExponent S r g .exact).1.mantissa = 0 then .zero s
      else .finite s (shiftToTargetExponent S r g .exact).1.mantissa
        (shiftToTargetExponent S r g .exact).2 (Nat.pos_of_ne_zero h))).toNat =
      min f.infinityBits (f.place r g) + f.signPart (isNegative s) := by
  have hu := f.unit_pos
  obtain ⟨m, e, hc, hshift, hplace⟩ : ∃ m e, f.Canonical m e ∧
      shiftToTargetExponent S r g .exact = (⟨m, false, false⟩, e) ∧ f.place m e = f.place r g := by
    rcases hr.lt_or_eq with hlt | rfl
    · have hc : f.Canonical r g := ⟨hlt, hg, hfull⟩
      exact ⟨r, g, hc, shiftToTargetExponent_canonical hc, rfl⟩
    · have hc : f.Canonical f.unit (g + 1) := ⟨by omega, by omega, Or.inl le_rfl⟩
      refine ⟨f.unit, g + 1, hc, shiftToTargetExponent_carry hg, ?_⟩
      have h1 : (g + 1 - f.minExponent).toNat = (g - f.minExponent).toNat + 1 := by omega
      rw [place, place, h1, Nat.succ_mul, add_assoc, two_mul]
  rw [← hplace]
  generalize shiftToTargetExponent S r g .exact = shifted at hshift ⊢
  subst hshift
  dsimp only
  split_ifs with hm
  · have he := hc.full.resolve_left (by omega)
    rw [toNat_pack (f := f) (u := .zero s) trivial, ofUnpacked, encode_finite, hm, he]
    simp [bitsOf, place]
  · rw [toNat_pack_finite s (Nat.pos_of_ne_zero hm) hc, encode_finite, bitsOf_canonical hc]

/-- The rounding of the machine yields the bit pattern of the nearest number. -/
lemma toNat_pack_roundWithAccuracy {x : ℝ} {m : ℕ} {e : ℤ} {a : Accuracy} (s : Sign) (hx : 0 ≤ x)
    (ha : Locates a m (x / 2 ^ e)) (hm : f.precision ≤ m.log2 + 1 ∨ e ≤ f.minExponent) :
    (pack S (roundWithAccuracy S s m e a)).toNat = f.bitsOf x + f.signPart (isNegative s) := by
  obtain ⟨htarget, hle⟩ := targetExponent_of_locates (S := S) hx ha hm
  have hmin := f.minExponent_le_gridExponent x
  have hrounded : (ExtendedMantissa.ofMantissaAndAccuracy m a >>>
      (f.gridExponent x - e).toNat).roundedMantissa =
        (f.nearestMantissa x).toNat := by
    have h := ((holds_ofMantissaAndAccuracy ha).shiftRight (f.gridExponent x - e).toNat).nearestEven
    rw [div_div, ← zpow_natCast, ← zpow_add₀ (by norm_num), Int.toNat_of_nonneg (by omega),
      add_sub_cancel] at h
    rw [nearestMantissa, h]
    rfl
  have hbounds := nearestMantissa_bounds (f := f) hx
  rw [roundWithAccuracy, shiftToTargetExponent, htarget, shiftToExponent]
  simp only [hrounded, Int.toNat_of_nonneg (sub_nonneg.mpr hle), add_sub_cancel]
  exact toNat_pack_aligned s hbounds.1 hmin hbounds.2

end Format

end Terrain.Number
