import Terrain.Proofs.Height
import Terrain.Proofs.Number.Interval
import Terrain.Proofs.Number.Single

/-!
# Heights that were written as singles

With the default factor, singles lie closer to each other than the heights of two stored integers
do up to a height of `2 ^ 17`, so the stored integer comes back. Beyond that several integers share a
single; the one that comes back has the same single, since it is the nearest to a product that has
no rounding.
-/

namespace Terrain.Height

open Number

/-- The product of a single and the default factor has no rounding. -/
lemma round_mul_defaultFactor {x : Float32} {r : ℝ} (h : (ofSingle x).Denotes r) :
    double.round (r * 100) = r * 100 := by
  obtain ⟨s, m, e, hx, rfl⟩ := h
  obtain ⟨⟨hm, he, -⟩, -⟩ := canonical_of_ofSingle hx
  simp only [single] at hm he
  have hproduct : (m : ℝ) * 2 ^ e * 100 = (100 * m : ℕ) * 2 ^ e := by
    push_cast
    ring
  have hsigned : signed s ((m : ℝ) * 2 ^ e) * 100 = signed s ((100 * m : ℕ) * 2 ^ e) := by
    rw [← hproduct]
    cases s <;> simp [signed]
  have hm53 : 100 * m < 2 ^ double.precision := by
    simp only [double]
    omega
  rw [hsigned, double.round_signed, double.round_mul_zpow hm53 (he.trans' (by decide))]

variable {x : Float} {n : Int32}

lemma stands_hundredth (h : Stands x n.toInt) :
    Stands (x / widen defaultFactor) (double.round (n.toInt / 100)) :=
  stands_quotient h denotes_defaultFactor (by norm_num)

lemma stands_scaled {h : Float32} {r : ℝ} (hh : (ofSingle h).Denotes r) (hr : |r| < 2 ^ 32) :
    Stands (widen h * widen defaultFactor) (r * 100) := by
  rw [← round_mul_defaultFactor hh]
  refine (stands_widen hh).mul (stands_widen denotes_defaultFactor) ?_
  rw [abs_mul, abs_of_pos (by norm_num : (0 : ℝ) < 100)]
  calc |r| * 100 < 2 ^ (32 : ℕ) * 2 ^ (7 : ℕ) := by linarith
    _ ≤ 2 ^ (1023 : ℤ) := by
      rw [← pow_add, ← zpow_natCast]
      exact zpow_le_zpow_right₀ (by norm_num) (by norm_num)

/-- The height of a stored integer is far from the end of the singles. -/
lemma abs_hundredth_lt (n : Int32) : |double.round (n.toInt / 100)| < 2 ^ (25 : ℤ) := by
  have hmax : |(n.toInt : ℝ)| ≤ 2 ^ (31 : ℤ) := by exact_mod_cast abs_toInt_le n
  have hproduct := (abs_scaled_sub_lt n (r := 100) (by norm_num) (by norm_num)).1
  have habove := abs_sub_abs_le_abs_sub (double.round (n.toInt / 100) * 100) (n.toInt : ℝ)
  rw [abs_mul, abs_of_pos (by norm_num : (0 : ℝ) < 100)] at habove
  norm_num at hmax ⊢
  linarith

/-! ### Where singles lie close -/

/-- Below `2 ^ 17` a single is off by less than a stored integer. -/
lemma abs_single_sub_le {q : ℝ} (hq : |q| < 2 ^ 17) : |single.round q - q| ≤ 2 ^ (-8 : ℤ) := by
  rcases eq_or_ne q 0 with rfl | h0
  · simp
  have hlog : Int.log 2 |q| < 17 :=
    (Int.lt_zpow_iff_log_lt (b := 2) (by norm_num) (abs_pos.mpr h0)).mp (by exact_mod_cast hq)
  have hgrid : single.gridExponent q ≤ -7 := by
    rw [single.gridExponent_of_ne_zero h0]
    simp only [single]
    omega
  calc |single.round q - q| ≤ 2 ^ single.gridExponent q / 2 := single.abs_round_sub_le q
    _ ≤ 2 ^ (-7 : ℤ) / 2 := by
      gcongr
      norm_num
    _ = 2 ^ (-8 : ℤ) := by norm_num

/-- The greatest height that singles hold to the default factor is one of them. -/
lemma single_round_hundredth_max (h : |n.toInt| = 13107200) :
    single.round (double.round (n.toInt / 100)) * 100 = n.toInt := by
  have hdouble : double.round 131072 = 131072 := by
    have h := double.round_mul_zpow (m := 1) (e := 17) (by decide) (by decide)
    norm_num at h
    exact h
  have hsingle : single.round 131072 = 131072 := by
    have h := single.round_mul_zpow (m := 1) (e := 17) (by decide) (by decide)
    norm_num at h
    exact h
  rcases (abs_eq (by norm_num)).mp h with hn | hn <;> rw [hn]
  · have hquotient : ((13107200 : ℤ) : ℝ) / 100 = 131072 := by norm_num
    rw [hquotient, hdouble, hsingle]
    norm_num
  · have hquotient : ((-13107200 : ℤ) : ℝ) / 100 = -131072 := by norm_num
    rw [hquotient, double.round_neg, single.round_neg, hdouble, hsingle]
    norm_num

/-- A height of at most `2 ^ 17` that was rounded twice is not off by half a stored integer. -/
lemma abs_single_scaled_sub_lt (hn : |n.toInt| ≤ 13107200) :
    |single.round (double.round (n.toInt / 100)) * 100 - n.toInt| < 1 / 2 := by
  rcases hn.eq_or_lt with hmax | hlt
  · rw [single_round_hundredth_max hmax, sub_self, abs_zero]
    norm_num
  have hdouble := abs_product_sub_le n (r := 100) (by norm_num) (by norm_num)
  have hbound : |(n.toInt : ℝ)| ≤ 13107199 := by exact_mod_cast Int.le_sub_one_of_lt hlt
  set q := double.round (n.toInt / 100)
  have hq : |q| < 2 ^ 17 := by
    have habove := abs_sub_abs_le_abs_sub (q * 100) (n.toInt : ℝ)
    rw [abs_mul, abs_of_pos (by norm_num : (0 : ℝ) < 100)] at habove
    norm_num at hdouble ⊢
    linarith
  have hsingle := abs_single_sub_le hq
  calc |single.round q * 100 - n.toInt|
      ≤ |single.round q * 100 - q * 100| + |q * 100 - n.toInt| := abs_sub_le _ _ _
    _ = |single.round q - q| * 100 + |q * 100 - n.toInt| := by
      rw [← sub_mul, abs_mul, abs_of_pos (by norm_num : (0 : ℝ) < 100)]
    _ ≤ 2 ^ (-8 : ℤ) * 100 + 1 / 2 ^ 9 := by gcongr
    _ < 1 / 2 := by norm_num

/-- The single of a height up to `2 ^ 17` is recovered as the stored integer. -/
lemma recoverSingle_narrow (hn : |n.toInt| ≤ 13107200) :
    recoverSingle (narrow (ofStored n defaultFactor)) defaultFactor = n := by
  have himage : Stands (ofStored n defaultFactor) (double.round (n.toInt / 100)) :=
    stands_hundredth (stands_doubleOfInt32 n)
  have hnear := abs_single_scaled_sub_lt hn
  have hbound : |(n.toInt : ℝ)| ≤ 13107200 := by exact_mod_cast hn
  have hsmall : |double.round (n.toInt / 100)| < 2 ^ (127 : ℤ) :=
    (abs_hundredth_lt n).trans (by norm_num)
  have hheight := denotes_narrow himage hsmall
  have hsmall' : |single.round (double.round (n.toInt / 100))| < 2 ^ 32 := by
    have habove := abs_sub_abs_le_abs_sub (single.round (double.round (n.toInt / 100)) * 100)
      (n.toInt : ℝ)
    rw [abs_mul, abs_of_pos (by norm_num : (0 : ℝ) < 100)] at habove
    linarith
  have hnearest := (stands_scaled hheight hsmall').roundAway hnear
    (lt_of_le_of_lt (abs_toInt_le n) (by norm_num))
  have hbeq := (ofSingle_beq_iff (denotes_narrow (stands_hundredth hnearest) hsmall) hheight).mpr rfl
  rw [recoverSingle]
  simp only [hbeq, if_true]
  exact hnearest.truncate

/-! ### Where singles lie far apart -/

lemma abs_hundredth_scaled_sub_le {k : ℕ} (hk : k ≤ 2 ^ 31) :
    |double.round (k / 100) * 100 - k| ≤ 2 ^ (-22 : ℤ) := by
  rcases Nat.eq_zero_or_pos k with rfl | hpos
  · simp
  have hone : (1 : ℝ) ≤ k := by exact_mod_cast hpos
  have hmax : (k : ℝ) ≤ 2147483648 := by exact_mod_cast hk
  have hquotient : (2 : ℝ) ^ (-1022 : ℤ) ≤ |(k : ℝ) / 100| := by
    rw [abs_of_nonneg (by positivity), le_div_iff₀ (by norm_num)]
    calc (2 : ℝ) ^ (-1022 : ℤ) * 100 ≤ 2 ^ (-7 : ℤ) * 100 := by
          gcongr
          · norm_num
          · norm_num
      _ ≤ 1 := by norm_num
      _ ≤ k := hone
  calc |double.round (k / 100) * 100 - k| ≤ |(k : ℝ)| * 2 ^ (-53 : ℤ) :=
        abs_round_div_mul_sub_le (by norm_num) hquotient
    _ ≤ 2147483648 * 2 ^ (-53 : ℤ) := by
      rw [abs_of_nonneg (by positivity)]
      gcongr
    _ = 2 ^ (-22 : ℤ) := by norm_num

/-- The single of a height beyond `2 ^ 17`, by its mantissa and exponent. -/
lemma exists_canonical_hundredth {k : ℕ} (hlo : 13107200 < k) (hhi : k ≤ 2 ^ 31) :
    ∃ m e, single.Canonical m e ∧ single.place m e < single.infinityBits ∧
      single.bitsOf (double.round (k / 100)) = single.place m e ∧
      2 ^ 23 ≤ m ∧ -6 ≤ e ∧ (m : ℝ) * 2 ^ e ≤ 21474836 := by
  have hk : (13107201 : ℝ) ≤ k := by exact_mod_cast hlo
  have hk' : (k : ℝ) ≤ 2147483648 := by exact_mod_cast hhi
  have hdouble := abs_hundredth_scaled_sub_le hhi
  obtain ⟨hlow, hhigh⟩ := abs_le.mp hdouble
  set q := double.round (k / 100)
  have hq : 131072.009 ≤ q ∧ q ≤ 21474836.49 := by
    norm_num at hlow hhigh ⊢
    constructor <;> linarith
  have hq0 : 0 < q := by linarith [hq.1]
  obtain ⟨m, e, hc, hbits, hvalue⟩ := Format.exists_canonical_round (f := single) hq0.le
  have hlt := Format.bitsOf_lt_infinityBits (f := single) (k := 25) hq0.le
    (hq.2.trans_lt (by norm_num)) (by decide)
  have hmin : (2 : ℝ) ^ (single.minExponent + single.precision - 1) ≤ |q| := by
    rw [abs_of_pos hq0]
    exact (zpow_le_one_of_nonpos₀ (by norm_num) (by decide)).trans (by linarith [hq.1])
  have hround := single.abs_round_sub_le_mul hmin
  rw [abs_of_pos hq0, ← hvalue, abs_le] at hround
  have hvalue' : 2 ^ (17 : ℤ) ≤ (m : ℝ) * 2 ^ e ∧ (m : ℝ) * 2 ^ e < 21474838 := by
    norm_num [single] at hround ⊢
    constructor <;> linarith [hq.1, hq.2]
  have hm : (m : ℝ) < 2 ^ (24 : ℤ) := by
    have := hc.lt
    simp only [single] at this
    exact_mod_cast this
  -- a mantissa of 24 bits tells the exponent
  have he {t : ℤ} (ht : 2 ^ t ≤ (m : ℝ) * 2 ^ e) : t - 24 < e := by
    have hpow : (2 : ℝ) ^ t < 2 ^ (24 + e) := by
      rw [zpow_add₀ (by norm_num)]
      exact ht.trans_lt (mul_lt_mul_of_pos_right hm (by positivity))
    have := (zpow_lt_zpow_iff_right₀ (by norm_num)).mp hpow
    omega
  have he17 := he hvalue'.1
  have hfull := hc.full.resolve_right (by simp only [single]; omega)
  refine ⟨m, e, hc, by omega, by omega, hfull, by omega, ?_⟩
  by_cases hlarge : 2 ^ (24 : ℤ) ≤ (m : ℝ) * 2 ^ e
  · -- from `2 ^ 24` on all singles are even
    obtain ⟨d, rfl⟩ : ∃ d : ℕ, e = d + 1 := ⟨(e - 1).toNat, by have := he hlarge; omega⟩
    have heven : (m : ℝ) * 2 ^ (d + 1 : ℤ) = (2 * (m * 2 ^ d) : ℕ) := by
      push_cast
      rw [zpow_add₀ (by norm_num), zpow_natCast]
      ring
    rw [heven] at hvalue' ⊢
    have hlt : 2 * (m * 2 ^ d) < 21474838 := by exact_mod_cast hvalue'.2
    have hle : 2 * (m * 2 ^ d) ≤ 21474836 := by omega
    exact_mod_cast hle
  · norm_num at hlarge ⊢
    linarith

variable {m k : ℕ} {e : ℤ}

/-- The stored integer nearest to a single has that single, for heights from `2 ^ 17` on. -/
lemma near_hundredth (hm : 2 ^ 23 ≤ m) (he : -6 ≤ e) (hk : |(k : ℝ) - m * 2 ^ e * 100| ≤ 1 / 2)
    (hmax : k < 2 ^ 31) : single.Near m e (double.round (k / 100)) := by
  by_cases hwhole : 0 ≤ e ∨ m = 2 ^ 23
  · -- such a single is an integer, so the stored one is a hundred times that
    obtain ⟨j, hj⟩ : ∃ j : ℕ, (m : ℝ) * 2 ^ e = j := by
      rcases hwhole with he0 | rfl
      · lift e to ℕ using he0
        exact ⟨m * 2 ^ e, by push_cast; rfl⟩
      · obtain ⟨d, hd⟩ : ∃ d : ℕ, 23 + e = d := ⟨(23 + e).toNat, by omega⟩
        refine ⟨2 ^ d, ?_⟩
        rw [Nat.cast_pow, Nat.cast_pow, Nat.cast_ofNat, ← zpow_natCast, ← zpow_natCast, ← hd,
          zpow_add₀ (by norm_num)]
        rfl
    have hkj : k = 100 * j := by
      rw [hj, abs_le] at hk
      have hlow : (100 * j : ℕ) < (k + 1 : ℕ) := by
        have : ((100 * j : ℕ) : ℝ) < (k + 1 : ℕ) := by
          push_cast
          linarith
        exact_mod_cast this
      have hhigh : k < 100 * j + 1 := by
        have : (k : ℝ) < (100 * j + 1 : ℕ) := by
          push_cast
          linarith
        exact_mod_cast this
      omega
    have hexact : double.round (k / 100) = m * 2 ^ e := by
      have hj53 : j < 2 ^ double.precision := by
        simp only [double]
        omega
      have hround := double.round_mul_zpow hj53 (e := 0) (by decide)
      rw [zpow_zero, mul_one] at hround
      rw [hj, hkj, Nat.cast_mul, Nat.cast_ofNat, mul_div_cancel_left₀ _ (by norm_num), hround]
    rw [hexact]
    exact Format.near_self
  · rw [not_or] at hwhole
    refine Format.near_of_abs_sub_lt (fun h => hwhole.2 h.1) ?_
    have hdouble := abs_hundredth_scaled_sub_le hmax.le
    have hspacing : (2 : ℝ) ^ (-6 : ℤ) ≤ 2 ^ e := zpow_le_zpow_right₀ (by norm_num) he
    have htriangle := abs_sub_le (double.round (k / 100) * 100) (k : ℝ) (m * 2 ^ e * 100)
    rw [← sub_mul, abs_mul, abs_of_pos (by norm_num : (0 : ℝ) < 100)] at htriangle
    norm_num at hdouble hspacing ⊢
    linarith

/-- The sign of a stored integer is that of its height. -/
lemma round_hundredth_signed (s : Bool) (k : ℕ) :
    double.round (signed s k / 100) = signed s (double.round (k / 100)) := by
  rw [← double.round_signed]
  congr 1
  cases s <;> simp [signed, neg_div]

/-- The single of a height, by the mantissa and the exponent in whose interval the height lies. -/
lemma narrow_hundredth {s : Bool} (hx : Stands x (signed s k)) {stored : Int32}
    (hstored : stored.toInt = Binary.withSign s k) (hc : single.Canonical m e) (hm : 0 < m)
    (hplace : single.place m e < single.infinityBits)
    (hnear : single.Near m e (double.round (k / 100))) :
    narrow (x / widen defaultFactor) = toSingle (.finite s m e) := by
  have hcast : (stored.toInt : ℝ) = signed s k := by rw [hstored, cast_withSign]
  rw [← hcast] at hx
  have himage := stands_hundredth hx
  rw [hcast, round_hundredth_signed] at himage
  refine narrow_eq_toSingle himage (hnear.pos hm) hc hplace ?_
  rw [hnear.bitsOf_eq hc hm, min_eq_right hplace.le]

/-- The integer that is recovered from a single with its product with the factor can be stored. -/
lemma exists_nearest {s : Bool} (hm : 0 < m) (hmax : (m : ℝ) * 2 ^ e ≤ 21474836)
    (hx : Stands x (signed s (m * 2 ^ e * 100))) :
    ∃ (j : ℕ) (stored : Int32), stored.toInt = Binary.withSign s j ∧
      Stands (roundAway x) (signed s j) ∧ |(j : ℝ) - m * 2 ^ e * 100| ≤ 1 / 2 ∧ j < 2 ^ 31 := by
  have hvalue : (0 : ℝ) < m * 2 ^ e := Format.value_pos hm e
  have hle := Nat.floor_le (a := (m : ℝ) * 2 ^ e * 100 + 1 / 2) (by positivity)
  have hlt := Nat.lt_floor_add_one ((m : ℝ) * 2 ^ e * 100 + 1 / 2)
  have hnearest := hx.roundAway_signed (by positivity) (by linarith)
  have hj : ⌊(m : ℝ) * 2 ^ e * 100 + 1 / 2⌋₊ ≤ 2147483600 := by
    refine Nat.le_of_lt_succ ((Nat.floor_lt (by positivity)).mpr ?_)
    push_cast
    linarith
  generalize ⌊(m : ℝ) * 2 ^ e * 100 + 1 / 2⌋₊ = j at hle hlt hnearest hj
  refine ⟨j, Int32.ofInt (Binary.withSign s j), Int32.toInt_ofInt_of_le ?_ ?_, hnearest, ?_, ?_⟩
  · rw [Binary.withSign]
    split_ifs <;> omega
  · rw [Binary.withSign]
    split_ifs <;> omega
  · rw [abs_le]
    constructor <;> linarith
  · omega

/-- From `2 ^ 17` on, the stored integer that is recovered from the single of a height has the same
single. -/
lemma narrow_recoverSingle (hn : 13107200 < |n.toInt|) :
    narrow (ofStored (recoverSingle (narrow (ofStored n defaultFactor)) defaultFactor)
      defaultFactor) = narrow (ofStored n defaultFactor) := by
  obtain ⟨s, k, hs, hlo, hhi⟩ : ∃ s k, n.toInt = Binary.withSign s k ∧ 13107200 < k ∧ k ≤ 2 ^ 31 := by
    have habs := abs_toInt_le n
    rw [Int.abs_eq_natAbs] at habs hn
    exact ⟨_, _, (withSign_natAbs n.toInt).symm, by omega, by omega⟩
  obtain ⟨m, e, hc, hplace, hbits, hm, he, hmax⟩ := exists_canonical_hundredth hlo hhi
  have hm0 : 0 < m := by omega
  -- the single of the height
  have himage : Stands (ofStored n defaultFactor) (signed s (double.round (k / 100))) := by
    rw [← round_hundredth_signed, ← cast_withSign, ← hs]
    exact stands_hundredth (stands_doubleOfInt32 n)
  have hpos : 0 < double.round (k / 100) := by
    have hdouble := (abs_le.mp (abs_hundredth_scaled_sub_le hhi)).1
    have hk : (13107201 : ℝ) ≤ k := by exact_mod_cast hlo
    norm_num at hdouble
    linarith
  have hsingle := narrow_eq_toSingle himage hpos hc hplace hbits
  have hdenotes : (ofSingle (toSingle (.finite s m e))).Denotes (signed s (m * 2 ^ e)) :=
    ⟨s, m, e, ofSingle_toSingle_finite s hc hplace, rfl⟩
  -- the integer nearest to its product with the factor
  have hscaled : Stands (widen (toSingle (.finite s m e)) * widen defaultFactor)
      (signed s (m * 2 ^ e * 100)) := by
    have hproduct : signed s (m * 2 ^ e * 100) = signed s (m * 2 ^ e) * 100 := by
      cases s <;> simp [signed]
    rw [hproduct]
    refine stands_scaled hdenotes ?_
    rw [abs_signed, abs_of_pos (Format.value_pos hm0 e)]
    linarith
  obtain ⟨j, stored, hstored, hnearest, hclose, hj⟩ := exists_nearest hm0 hmax hscaled
  have hnear := near_hundredth hm he hclose hj
  have hback := narrow_hundredth hnearest hstored hc hm0 hplace hnear
  have hrecovered : recoverSingle (toSingle (.finite s m e)) defaultFactor = stored := by
    have hbeq := (ofSingle_beq_iff hdenotes hdenotes).mpr rfl
    rw [recoverSingle]
    simp only [hback, hbeq, if_true]
    rw [← cast_withSign, ← hstored] at hnearest
    exact hnearest.truncate
  have hdouble : Stands (doubleOfInt32 stored) (signed s j) := by
    rw [← cast_withSign, ← hstored]
    exact stands_doubleOfInt32 stored
  rw [hsingle, hrecovered]
  exact narrow_hundredth hdouble hstored hc hm0 hplace hnear

end Terrain.Height
