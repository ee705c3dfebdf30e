import Terrain.Proofs.Number.Conversion

/-!
# Singles

A single is known by its bit pattern, and a finite one by its sign and its value. Integers of up to
24 bits become singles without loss.
-/

namespace Terrain.Number

open Float.Model (UnpackedFloat)
open Float.Model.UnpackedFloat (pack unpack)

variable {x y : Float32} {a b : ℝ}

/-! ### Bit patterns -/

lemma ofSingle_ofBits (bits : UInt32) :
    ofSingle (Float32.ofBits bits) = single.decode bits.toNat :=
  Format.decode_toNat_pack_unpack (f := single) (S := .binary32) bits.toBitVec

lemma ofSingle_toSingle (b : Binary) :
    ofSingle (toSingle b) = single.decode (single.encode b) := by
  have hlt : single.encode b < 2 ^ 32 := single.encode_lt b
  rw [toSingle, ofSingle_ofBits, UInt32.toNat_ofNat_of_lt' hlt]

/-- The bits of a number give the number back. -/
lemma ofBits_toBits_of_denotes (h : (ofSingle x).Denotes a) : Float32.ofBits x.toBits = x := by
  obtain ⟨s, m, e, hx, -⟩ := h
  obtain ⟨⟨bits, hvalid⟩⟩ := x
  change Float32.ofModel ⟨UInt32.ofBitVec (pack .binary32 (unpack .binary32 bits.toBitVec)), _⟩ = _
  congr
  exact Format.pack_unpack_of_decode (f := single) (S := .binary32) hx

lemma isFinite_of_denotes (h : (ofSingle x).Denotes a) : x.isFinite = true := by
  rw [ofSingle_eq] at h
  exact Format.isFinite_of_denotes_ofUnpacked h

lemma ofSingle_beq_iff (hx : (ofSingle x).Denotes a) (hy : (ofSingle y).Denotes b) :
    (x == y) = true ↔ a = b := by
  rw [ofSingle_eq] at hx hy
  exact Format.beq_iff (Format.isCanonical_unpack (S := .binary32) x.toModel.toBits.toBitVec)
    (Format.isCanonical_unpack (S := .binary32) y.toModel.toBits.toBitVec) hx hy

/-- A positive single, infinity included, is equal to itself. -/
lemma beq_self_of_pos (h : 0 < x) : (x == x) = true := by
  have hlt : UnpackedFloat.lt (.zero .positive) x.toModel.unpack = true := by
    rw [← unpack_zero_single]
    exact of_decide_eq_true h
  change x.toModel.unpack.beq x.toModel.unpack = true
  generalize x.toModel.unpack = u at hlt ⊢
  cases u with
  | notANumber => simp [UnpackedFloat.lt, UnpackedFloat.compare] at hlt
  | infinity s => cases s <;> rfl
  | zero s => rfl
  | finite s m e hm => cases s <;> simp [UnpackedFloat.beq, UnpackedFloat.compare]

/-- Two singles that stand for the same real are the same, unless that is zero. -/
lemma eq_of_denotes (hx : (ofSingle x).Denotes a) (hy : (ofSingle y).Denotes a) (ha : a ≠ 0) :
    x = y := by
  obtain ⟨s, m, e, hx', rfl⟩ := id hx
  obtain ⟨t, n, d, hy', hsame⟩ := id hy
  have hm : 0 < (m : ℝ) * 2 ^ e := lt_of_le_of_ne (by positivity) fun h => ha (by simp [← h])
  have hn : 0 < (n : ℝ) * 2 ^ d :=
    lt_of_le_of_ne (by positivity) fun h => ha (hsame.trans (by simp [← h]))
  obtain ⟨hc, -, hbits⟩ := toNat_toBits_of_ofSingle hx'
  obtain ⟨hc', -, hbits'⟩ := toNat_toBits_of_ofSingle hy'
  obtain ⟨rfl, hvalue⟩ := (signed_inj hm hn).mp hsame
  obtain ⟨rfl, rfl⟩ := hc.eq_of_value_eq hc' hvalue
  have hbits : x.toBits = y.toBits := UInt32.toNat_inj.mp (hbits.trans hbits'.symm)
  rw [← ofBits_toBits_of_denotes hx, ← ofBits_toBits_of_denotes hy, hbits]

/-! ### Rounding to a single -/

lemma denotes_toSingle (s : Bool) {m : ℕ} {e : ℤ} (h : (m : ℝ) * 2 ^ e < 2 ^ (127 : ℤ)) :
    (ofSingle (toSingle (.finite s m e))).Denotes
      (single.round (signed s ((m : ℝ) * 2 ^ e))) := by
  rw [ofSingle_toSingle, Format.encode_finite]
  exact Format.denotes_decode_bitsOf s (by positivity) h (by decide)

lemma denotes_narrow {y : Float} {r : ℝ} (h : Stands y r) (hr : |r| < 2 ^ (127 : ℤ)) :
    (ofSingle (narrow y)).Denotes (single.round r) := by
  obtain ⟨s, m, e, hy, rfl⟩ := h
  rw [abs_signed, abs_of_nonneg (by positivity)] at hr
  rw [narrow, hy]
  exact denotes_toSingle s hr

/-- The single nearest to a double is known by the sign of the double and the place that is nearest
to its magnitude. -/
lemma narrow_eq_toSingle {y : Float} {s : Bool} {r : ℝ} (h : Stands y (signed s r)) (hr : 0 < r)
    {m : ℕ} {e : ℤ} (hc : single.Canonical m e) (hplace : single.place m e < single.infinityBits)
    (hbits : single.bitsOf r = single.place m e) : narrow y = toSingle (.finite s m e) := by
  obtain ⟨n, d, hy, rfl⟩ := h.exists_eq_finite hr
  have hsame : single.encode (.finite s n d) = single.encode (.finite s m e) := by
    rw [Format.encode_finite, Format.encode_finite, hbits, Format.bitsOf_canonical hc,
      min_eq_right hplace.le]
  rw [narrow, hy, toSingle, toSingle, hsame]

lemma ofSingle_toSingle_finite (s : Bool) {m : ℕ} {e : ℤ} (hc : single.Canonical m e)
    (hplace : single.place m e < single.infinityBits) :
    ofSingle (toSingle (.finite s m e)) = .finite s m e := by
  rw [ofSingle_toSingle, Format.encode_finite, Format.bitsOf_canonical hc, min_eq_right hplace.le,
    Format.decode_place hc hplace]

/-- A single that is equal to zero stands for zero, whatever its sign. -/
lemma denotes_zero_of_beq (h : (x == 0) = true) : (ofSingle x).Denotes 0 := by
  have hbeq : x.toModel.unpack.beq (.zero .positive) = true := by
    rw [← unpack_zero_single]
    exact h
  rw [ofSingle_eq]
  generalize x.toModel.unpack = u at hbeq ⊢
  match u with
  | .notANumber | .infinity .negative | .infinity .positive | .finite .negative _ _ _
  | .finite .positive _ _ _ =>
    simp [UnpackedFloat.beq, UnpackedFloat.compare] at hbeq
  | .zero s => exact Format.denotes_zero s

/-! ### Integers as singles -/

/-- An integer becomes the single nearest to it. -/
lemma denotes_singleOfInt32_round (n : Int32) :
    (ofSingle (singleOfInt32 n)).Denotes (single.round n.toInt) := by
  have hvalue : signed (n.toInt < 0) ((n.toInt.natAbs : ℝ) * 2 ^ (0 : ℤ)) = n.toInt := by
    rw [zpow_zero, mul_one, ← cast_withSign, withSign_natAbs]
  have hlt : (n.toInt.natAbs : ℝ) * 2 ^ (0 : ℤ) < 2 ^ (127 : ℤ) := by
    have hle : (n.toInt.natAbs : ℝ) ≤ 2 ^ (31 : ℤ) := by
      have hlo := n.le_toInt
      have hhi := n.toInt_lt
      have hmax : n.toInt.natAbs ≤ 2 ^ 31 := by omega
      exact_mod_cast hmax
    rw [zpow_zero, mul_one]
    exact hle.trans_lt (zpow_lt_zpow_right₀ (by norm_num) (by norm_num))
  have h := denotes_toSingle (n.toInt < 0) hlt
  rwa [hvalue] at h

/-- An integer of up to 24 bits is a number of the format. -/
lemma round_intCast {n : ℤ} (hn : n.natAbs ≤ 2 ^ 24) : single.round n = n := by
  have hvalue : signed (n < 0) ((n.natAbs : ℝ) * 2 ^ (0 : ℤ)) = n := by
    rw [zpow_zero, mul_one, ← cast_withSign, withSign_natAbs]
  rw [← hvalue, Format.round_signed]
  congr 1
  rcases hn.lt_or_eq with hlt | heq
  · exact Format.round_mul_zpow single hlt (by decide)
  · have hpow : ((n.natAbs : ℕ) : ℝ) * 2 ^ (0 : ℤ) = (1 : ℕ) * 2 ^ (24 : ℤ) := by
      rw [heq]
      norm_num
    rw [hpow]
    exact Format.round_mul_zpow single (by decide) (by decide)

/-- An integer of up to 24 bits becomes a single without loss. -/
lemma denotes_singleOfInt32 {n : Int32} (hn : n.toInt.natAbs ≤ 2 ^ 24) :
    (ofSingle (singleOfInt32 n)).Denotes n.toInt := by
  have h := denotes_singleOfInt32_round n
  rwa [round_intCast hn] at h

lemma truncateSingle_singleOfInt32 {n : Int32} (hn : n.toInt.natAbs ≤ 2 ^ 24) :
    truncateSingle (singleOfInt32 n) = n := by
  rw [truncateSingle, (denotes_singleOfInt32 hn).toInt32, Int32.ofIntClamp_toInt]

end Terrain.Number
