import Terrain.Proofs.Number.Arithmetic

/-!
# Integers, singles and doubles

Stored integers and singles become doubles without loss, and a double that is an integer, or near
enough to one, becomes that integer again.
-/

namespace Terrain.Number

open Float.Model (UnpackedFloat)

/-! ### Integers near a number -/

lemma integerPart_eq_floor (m : ℕ) (e : ℤ) : Binary.integerPart m e = ⌊(m : ℝ) * 2 ^ e⌋₊ := by
  rw [Binary.integerPart]
  split_ifs with he
  · lift e to ℕ using he
    rw [Int.toNat_natCast, Nat.shiftLeft_eq, zpow_natCast]
    exact_mod_cast (Nat.floor_natCast (R := ℝ) (m * 2 ^ e)).symm
  · obtain ⟨k, rfl⟩ : ∃ k : ℕ, e = -k := ⟨(-e).toNat, by omega⟩
    rw [neg_neg, Int.toNat_natCast, Nat.shiftRight_eq_div_pow, zpow_neg, zpow_natCast,
      ← div_eq_mul_inv]
    exact_mod_cast (Nat.floor_div_eq_div (K := ℝ) m (2 ^ k)).symm

lemma nearestInteger_eq_floor (m : ℕ) (e : ℤ) :
    Binary.nearestInteger m e = ⌊(m : ℝ) * 2 ^ e + 1 / 2⌋₊ := by
  rw [Binary.nearestInteger]
  split_ifs with he
  · lift e to ℕ using he
    have hfloor : ⌊((m * 2 ^ e : ℕ) : ℝ) + 1 / 2⌋₊ = m * 2 ^ e := by
      rw [Nat.floor_eq_iff (by positivity)]
      constructor <;> linarith
    rw [Int.toNat_natCast, Nat.shiftLeft_eq, zpow_natCast]
    exact_mod_cast hfloor.symm
  · obtain ⟨k, rfl⟩ : ∃ k : ℕ, e = -(k + 1 : ℕ) := ⟨(-e).toNat - 1, by omega⟩
    have hhalf : (m : ℝ) * 2 ^ (-((k + 1 : ℕ) : ℤ)) + 1 / 2 =
        (m + 2 ^ k : ℕ) / (2 ^ (k + 1) : ℕ) := by
      rw [zpow_neg, zpow_natCast]
      push_cast
      field_simp
      ring
    rw [hhalf, Nat.floor_div_eq_div, neg_neg, Int.toNat_natCast, Nat.add_sub_cancel,
      Nat.shiftRight_eq_div_pow, Nat.one_shiftLeft]

/-- An integer that is cut to the range of the stored integers ends at the nearer end of it. -/
lemma toInt_ofIntClamp (n : ℤ) :
    (Int32.ofIntClamp n).toInt = max (-2 ^ 31) (min n (2 ^ 31 - 1)) := by
  have hmin : Int32.minValue.toInt = -2 ^ 31 := by decide
  have hmax : Int32.maxValue.toInt = 2 ^ 31 - 1 := by decide
  rw [Int32.ofIntClamp]
  split_ifs with hlo hhi
  · rw [Int32.toInt_ofIntLE]
    omega
  · omega
  · omega

lemma cast_withSign (s : Bool) (n : ℕ) : ((Binary.withSign s n : ℤ) : ℝ) = signed s n := by
  cases s <;> simp [Binary.withSign, signed]

lemma Binary.Denotes.toInt32 {b : Binary} {n : ℤ} (h : b.Denotes n) :
    b.toInt32 = Int32.ofIntClamp n := by
  obtain ⟨s, m, e, rfl, hr⟩ := h
  have habs : (n.natAbs : ℝ) = m * 2 ^ e := by
    rw [Nat.cast_natAbs, Int.cast_abs, hr, abs_signed, abs_of_nonneg (by positivity)]
  have hn : n = Binary.withSign s n.natAbs := by
    rw [← habs, ← cast_withSign] at hr
    exact_mod_cast hr
  rw [Binary.toInt32, integerPart_eq_floor, ← habs, Nat.floor_natCast, ← hn]

lemma Stands.truncate {x : Float} {n : Int32} (h : Stands x n.toInt) : truncate x = n := by
  rw [Number.truncate, h.toInt32, Int32.ofIntClamp_toInt]

/-- An integer within a half of a signed real has its sign. -/
lemma exists_eq_withSign {s : Bool} {y : ℝ} (hy : 0 ≤ y) {n : ℤ} (h : |signed s y - n| < 1 / 2) :
    ∃ k : ℕ, n = Binary.withSign s k ∧ |y - k| < 1 / 2 := by
  cases s <;> simp only [signed, Bool.false_eq_true, if_false, if_true] at h
  · have hn : 0 ≤ n := by
      have : (-1 : ℝ) < n := by linarith [abs_lt.mp h]
      exact_mod_cast this
    lift n to ℕ using hn
    exact ⟨n, rfl, h⟩
  · have hn : 0 ≤ -n := by
      have : (-1 : ℝ) < (-n : ℤ) := by
        push_cast
        linarith [abs_lt.mp h]
      exact_mod_cast this
    obtain ⟨k, hk⟩ := Int.eq_ofNat_of_zero_le hn
    refine ⟨k, by rw [Binary.withSign, if_pos rfl, ← hk, neg_neg], ?_⟩
    rw [← neg_add', abs_neg] at h
    rwa [← Int.cast_natCast k, ← hk, Int.cast_neg, sub_neg_eq_add]

/-- A number within a half of an integer is rounded to it. -/
lemma Stands.roundAway {x : Float} {r : ℝ} (h : Stands x r) {n : ℤ} (hn : |r - n| < 1 / 2)
    (hlt : |n| < 2 ^ 53) : Stands (roundAway x) n := by
  obtain ⟨s, m, e, hx, rfl⟩ := id h
  obtain ⟨k, rfl, hk⟩ := exists_eq_withSign (by positivity) hn
  have hfloor : Binary.nearestInteger m e = k := by
    rw [abs_lt] at hk
    rw [nearestInteger_eq_floor, Nat.floor_eq_iff (by positivity)]
    constructor <;> linarith
  rw [Number.roundAway, hx]
  dsimp only
  rw [hfloor]
  split_ifs with he
  · rw [Binary.nearestInteger, if_pos he, Nat.shiftLeft_eq] at hfloor
    lift e to ℕ using he
    rw [Int.toNat_natCast] at hfloor
    rw [cast_withSign, ← hfloor]
    push_cast
    rwa [zpow_natCast] at h
  · have hk53 : k < 2 ^ 53 := by
      cases s <;> simp only [Binary.withSign] at hlt <;> simp at hlt <;> exact_mod_cast hlt
    have hround := stands_toDouble_exact s hk53 (e := 0) (by norm_num) (by norm_num)
    rwa [zpow_zero, mul_one, ← cast_withSign] at hround

/-- A number that may lie halfway between two integers is rounded to the one that is further from
zero. -/
lemma Stands.roundAway_signed {x : Float} {s : Bool} {y : ℝ} (h : Stands x (signed s y))
    (hy : 0 < y) (hlt : y < 2 ^ 52) : Stands (Number.roundAway x) (signed s ⌊y + 1 / 2⌋₊) := by
  obtain ⟨m, e, hx, rfl⟩ := h.exists_eq_finite hy
  rw [Number.roundAway, hx]
  dsimp only
  rw [← nearestInteger_eq_floor]
  split_ifs with he
  · rw [Binary.nearestInteger, if_pos he, Nat.shiftLeft_eq]
    lift e to ℕ using he
    rw [Int.toNat_natCast]
    push_cast
    rwa [zpow_natCast] at h
  · have hk : Binary.nearestInteger m e < 2 ^ 53 := by
      rw [nearestInteger_eq_floor, Nat.floor_lt (by positivity)]
      push_cast
      linarith
    have hround := stands_toDouble_exact s hk (e := 0) (by norm_num) (by norm_num)
    rwa [zpow_zero, mul_one] at hround

/-! ### Stored integers -/

lemma withSign_natAbs (n : ℤ) : Binary.withSign (n < 0) n.natAbs = n := by
  rw [Binary.withSign]
  split_ifs with h <;> simp only [decide_eq_true_eq] at h <;> omega

lemma stands_doubleOfInt32 (n : Int32) : Stands (doubleOfInt32 n) n.toInt := by
  have hlo := n.le_toInt
  have hhi := n.toInt_lt
  have h := stands_toDouble_exact (n.toInt < 0) (m := n.toInt.natAbs) (by omega) (e := 0)
    (by norm_num) (by norm_num)
  rwa [zpow_zero, mul_one, ← cast_withSign, withSign_natAbs] at h

/-! ### Singles -/

lemma ofSingle_eq (x : Float32) : ofSingle x = ofUnpacked single x.toModel.unpack :=
  Format.decode_toNat (f := single) (S := .binary32) x.toModel.toBits.toBitVec

lemma unpack_zero_single : (0 : Float32).toModel.unpack = .zero .positive := by
  have hbits : (0 : Float32).toModel.toBits = 0 := by decide
  rw [Float32.Model.unpack, hbits]
  rfl

lemma exists_of_pos {x : Float32} (h : 0 < x) (hf : x.isFinite = true) :
    ∃ m e, ofSingle x = .finite false m e ∧ 0 < m := by
  have hlt : UnpackedFloat.lt (.zero .positive) x.toModel.unpack = true := by
    rw [← unpack_zero_single]
    exact of_decide_eq_true h
  have hfin : x.toModel.unpack.isFinite = true := hf
  rw [ofSingle_eq]
  generalize x.toModel.unpack = u at hlt hfin
  match u with
  | .notANumber | .infinity _ => simp [UnpackedFloat.isFinite] at hfin
  | .zero s => simp [UnpackedFloat.lt, UnpackedFloat.compare] at hlt
  | .finite .negative m e hm => simp [UnpackedFloat.lt, UnpackedFloat.compare] at hlt
  | .finite .positive m e hm => exact ⟨m, e, rfl, hm⟩

/-- The bit pattern of a finite single is the place of its magnitude, with its sign. -/
lemma toNat_toBits_of_ofSingle {x : Float32} {s : Bool} {m : ℕ} {e : ℤ}
    (h : ofSingle x = .finite s m e) : single.Canonical m e ∧
      single.place m e < single.infinityBits ∧
      x.toBits.toNat = single.place m e + single.signPart s :=
  Format.toNat_of_decode (f := single) (S := .binary32) (b := x.toBits.toBitVec) h

lemma canonical_of_ofSingle {x : Float32} {s : Bool} {m : ℕ} {e : ℤ}
    (h : ofSingle x = .finite s m e) : single.Canonical m e ∧ e ≤ 104 := by
  obtain ⟨hc, hlt, -⟩ := toNat_toBits_of_ofSingle h
  have hfull := hc.full
  simp only [Format.place, Format.infinityBits, single] at hlt hfull
  exact ⟨hc, by omega⟩

lemma stands_widen {x : Float32} {r : ℝ} (h : (ofSingle x).Denotes r) : Stands (widen x) r := by
  obtain ⟨s, m, e, hx, rfl⟩ := h
  obtain ⟨⟨hm, he, -⟩, he'⟩ := canonical_of_ofSingle hx
  simp only [single] at hm he
  rw [widen, hx]
  exact stands_toDouble_exact s (by omega) (by omega) (by omega)

lemma exists_denotes_of_pos {x : Float32} (h : 0 < x) (hf : x.isFinite = true) :
    ∃ r : ℝ, (ofSingle x).Denotes r ∧ 2 ^ (-149 : ℤ) ≤ r ∧ r < 2 ^ (128 : ℤ) := by
  obtain ⟨m, e, hx, hm⟩ := exists_of_pos h hf
  obtain ⟨⟨hlt, he, -⟩, he'⟩ := canonical_of_ofSingle hx
  simp only [single] at hlt he
  refine ⟨(m : ℝ) * 2 ^ e, ⟨false, m, e, hx, rfl⟩, ?_, ?_⟩
  · calc (2 : ℝ) ^ (-149 : ℤ) ≤ 2 ^ e := zpow_le_zpow_right₀ (by norm_num) he
      _ ≤ m * 2 ^ e := le_mul_of_one_le_left (by positivity) (by exact_mod_cast hm)
  · calc (m : ℝ) * 2 ^ e < 2 ^ (24 : ℤ) * 2 ^ e := by
          gcongr
          exact_mod_cast hlt
      _ = 2 ^ (24 + e) := by rw [zpow_add₀ (by norm_num)]
      _ ≤ 2 ^ (128 : ℤ) := zpow_le_zpow_right₀ (by norm_num) (by omega)

lemma zero_le_ofIntClamp {n : ℤ} (hn : 0 ≤ n) : 0 ≤ Int32.ofIntClamp n := by
  rw [Int32.le_iff_toInt_le, toInt_ofIntClamp]
  change 0 ≤ _
  omega

/-- A positive single stays non-negative without its fraction. -/
lemma zero_le_truncateSingle {x : Float32} (h : 0 < x) (hf : x.isFinite = true) :
    0 ≤ truncateSingle x := by
  obtain ⟨m, e, hx, -⟩ := exists_of_pos h hf
  rw [truncateSingle, hx, Binary.toInt32]
  exact zero_le_ofIntClamp (Int.natCast_nonneg _)

end Terrain.Number
