import Terrain.Proofs.Number.Encoding

/-!
# The reals that round to a number

A real between the midpoints to both neighbours of a number rounds to that number, and a midpoint
does if the number is even. A real is placed among the midpoints by comparisons with the multiples
of a small enough power of two, so two reals that no such multiple parts round alike, which is why a
quotient may be cut off after some bits if a last bit tells that there was more.
-/

namespace Terrain.Number

/-- An integer at most a half away is the nearest one, if it is even where it is exactly a half
away. -/
lemma nearestEven_eq {x : ℝ} {n : ℤ} (h : |x - n| ≤ 1 / 2) (heven : |x - n| = 1 / 2 → n % 2 = 0) :
    nearestEven x = n := by
  rcases le_or_gt (n : ℝ) x with hle | hlt
  · rw [abs_of_nonneg (by linarith)] at h heven
    rcases h.lt_or_eq with hlt | heq
    · exact nearestEven_of_lt hle (by linarith)
    · have hx : x = n + 1 / 2 := by linarith
      rw [hx, nearestEven_half, heven heq, add_zero]
  · rw [abs_of_neg (by linarith)] at h heven
    rcases h.lt_or_eq with hlt' | heq
    · have hnext := nearestEven_of_gt (x := x) (n := n - 1) (by push_cast; linarith)
        (by push_cast; linarith)
      rw [hnext, sub_add_cancel]
    · have hx : x = (n - 1 : ℤ) + 1 / 2 := by
        push_cast
        linarith
      have hparity := heven heq
      rw [hx, nearestEven_half]
      omega

/-- Reals that no half integer parts have the same nearest integer. -/
lemma nearestEven_congr {x y : ℝ} (h : ∀ j : ℤ, ((j : ℝ) / 2 ≤ x ↔ (j : ℝ) / 2 ≤ y) ∧
    (x ≤ (j : ℝ) / 2 ↔ y ≤ (j : ℝ) / 2)) : nearestEven x = nearestEven y := by
  have hle (n : ℤ) : (n : ℝ) ≤ x ↔ (n : ℝ) ≤ y := by
    have := (h (2 * n)).1
    rwa [Int.cast_mul, Int.cast_ofNat, mul_div_cancel_left₀ _ two_ne_zero] at this
  have hfloor : ⌊x⌋ = ⌊y⌋ := by
    refine le_antisymm (Int.le_floor.mpr ?_) (Int.le_floor.mpr ?_)
    · exact (hle _).mp (Int.floor_le x)
    · exact (hle _).mpr (Int.floor_le y)
  have hhalf : ((2 * ⌊y⌋ + 1 : ℤ) : ℝ) / 2 = ⌊y⌋ + 1 / 2 := by
    push_cast
    ring
  obtain ⟨hbelow, habove⟩ := h (2 * ⌊y⌋ + 1)
  rw [hhalf] at hbelow habove
  rcases nearestEven_cases x with ⟨hx, hnx⟩ | ⟨hx, hnx⟩ | ⟨hx, hnx⟩ <;>
    rcases nearestEven_cases y with ⟨hy, hny⟩ | ⟨hy, hny⟩ | ⟨hy, hny⟩ <;>
    rw [hfloor] at hx hnx <;> rw [hnx, hny]
  · exact absurd (habove.mp hx.le) hy.not_ge
  · exact absurd (hbelow.mpr hy.ge) hx.not_ge
  · exact absurd (habove.mpr hy.le) hx.not_ge
  · exact absurd (habove.mpr hy.le) hx.not_ge
  · exact absurd (hbelow.mp hx.ge) hy.not_ge
  · exact absurd (habove.mp hx.le) hy.not_ge

namespace Format

variable {f : Format} [Proper f] {m : ℕ} {e : ℤ} {x y : ℝ}

/-! ### The interval of a number -/

/-- A positive real of so many bits lies on the grid of its last one. -/
lemma gridExponent_eq (hx : 0 < x) (he : f.minExponent ≤ e) (hhi : x < 2 * f.unit * 2 ^ e)
    (hlo : f.unit * 2 ^ e ≤ x ∨ e = f.minExponent) : f.gridExponent x = e := by
  have hp := f.one_le_precision
  rw [f.gridExponent_of_ne_zero hx.ne', abs_of_pos hx]
  have hlt : Int.log 2 x < f.precision + e := by
    refine (Int.lt_zpow_iff_log_lt (b := 2) (by norm_num) hx).mp ?_
    rw [Nat.cast_ofNat, zpow_add₀ (by norm_num), zpow_natCast]
    refine hhi.trans_eq ?_
    rw [← Nat.cast_two, ← Nat.cast_mul, two_mul_unit, Nat.cast_pow]
  rcases hlo with hlo | rfl
  · have hle : (f.precision - 1 : ℕ) + e ≤ Int.log 2 x := by
      refine (Int.zpow_le_iff_le_log (b := 2) (by norm_num) hx).mp ?_
      rw [Nat.cast_ofNat, zpow_add₀ (by norm_num), zpow_natCast]
      refine Eq.trans_le ?_ hlo
      rw [unit_eq_two_pow, Nat.cast_pow, Nat.cast_ofNat]
    omega
  · omega

variable (f m e) in
/-- How far below a number its interval reaches. The gap below a power of two is half as wide as the
one above. -/
noncomputable def reachBelow : ℝ :=
  (if m = f.unit ∧ f.minExponent < e then 1 else 2 : ℕ) / (4 : ℕ)

variable (f m e x) in
/-- A real in the interval of a number, the ends included if the number is even. -/
structure Near : Prop where
  low : (m - f.reachBelow m e) * 2 ^ e ≤ x
  high : x ≤ (m + 1 / 2) * 2 ^ e
  inside : m % 2 = 1 → (m - f.reachBelow m e) * 2 ^ e < x ∧ x < (m + 1 / 2) * 2 ^ e

omit [Proper f] in
lemma reachBelow_eq :
    f.reachBelow m e = if m = f.unit ∧ f.minExponent < e then 1 / 4 else 1 / 2 := by
  rw [reachBelow]
  split_ifs <;> norm_num

omit [Proper f] in
lemma reachBelow_le : f.reachBelow m e ≤ 1 / 2 := by
  rw [reachBelow_eq]
  split_ifs <;> norm_num

omit [Proper f] in
lemma Near.pos (h : f.Near m e x) (hm : 0 < m) : 0 < x := by
  have hone : (1 : ℝ) ≤ m := by exact_mod_cast hm
  have hreach := f.reachBelow_le (m := m) (e := e)
  refine lt_of_lt_of_le (mul_pos ?_ (by positivity)) h.low
  linarith

omit [Proper f] in
/-- A real in the interval of a number, measured in units of the last bit. -/
lemma Near.abs_sub_le (h : f.Near m e x) : |x / 2 ^ e - m| ≤ 1 / 2 := by
  have hpos : (0 : ℝ) < 2 ^ e := by positivity
  have hlow := (le_div_iff₀ hpos).mpr h.low
  have hhigh := (div_le_iff₀ hpos).mpr h.high
  have hreach := f.reachBelow_le (m := m) (e := e)
  rw [abs_le]
  constructor <;> linarith

omit [Proper f] in
lemma Near.abs_sub_lt (h : f.Near m e x) (hm : m % 2 = 1) : |x / 2 ^ e - m| < 1 / 2 := by
  have hpos : (0 : ℝ) < 2 ^ e := by positivity
  obtain ⟨hlow, hhigh⟩ := h.inside hm
  have hlow := (lt_div_iff₀ hpos).mpr hlow
  have hhigh := (div_lt_iff₀ hpos).mpr hhigh
  have hreach := f.reachBelow_le (m := m) (e := e)
  rw [abs_lt]
  constructor <;> linarith

omit [Proper f] in
lemma reachBelow_pos : 0 < f.reachBelow m e := by
  rw [reachBelow_eq]
  split_ifs <;> norm_num

omit [Proper f] in
/-- What is closer to a number than half of its last bit is in the interval, but for the powers of
two. -/
lemma near_of_abs_sub_lt (hm : ¬(m = f.unit ∧ f.minExponent < e))
    (h : |x - m * 2 ^ e| < 1 / 2 * 2 ^ e) : f.Near m e x := by
  have hreach : f.reachBelow m e = 1 / 2 := reachBelow_eq.trans (if_neg hm)
  rw [abs_lt] at h
  have hstrict : (m - f.reachBelow m e) * 2 ^ e < x ∧ x < (m + 1 / 2) * 2 ^ e := by
    rw [hreach, sub_mul, add_mul]
    constructor <;> linarith
  exact ⟨hstrict.1.le, hstrict.2.le, fun _ => hstrict⟩

omit [Proper f] in
lemma near_self : f.Near m e (m * 2 ^ e) := by
  have hpos : (0 : ℝ) < 2 ^ e := by positivity
  have hstrict : (m - f.reachBelow m e) * 2 ^ e < m * 2 ^ e ∧
      m * (2 : ℝ) ^ e < (m + 1 / 2) * 2 ^ e :=
    ⟨mul_lt_mul_of_pos_right (sub_lt_self _ reachBelow_pos) hpos,
      mul_lt_mul_of_pos_right (lt_add_of_pos_right _ (by norm_num)) hpos⟩
  exact ⟨hstrict.1.le, hstrict.2.le, fun _ => hstrict⟩

/-- Below a power of two the grid is twice as fine, and what is in the interval there rounds up to
the power of two. -/
lemma Near.bitsOf_below (h : f.Near f.unit e x) (he : f.minExponent < e) (hx : x < f.unit * 2 ^ e) :
    f.bitsOf x = min f.infinityBits (f.place f.unit e) := by
  have hpos : (0 : ℝ) < 2 ^ (e - 1) := by positivity
  have htwo : (2 : ℝ) ^ e = 2 * 2 ^ (e - 1) := by
    rw [← zpow_one_add₀ (by norm_num)]
    congr 1
    ring
  have hunit : (2 : ℝ) ≤ f.unit := by exact_mod_cast f.two_le_unit
  have hlow := h.low
  rw [reachBelow_eq, if_pos ⟨rfl, he⟩, htwo] at hlow
  rw [htwo] at hx
  have hge : f.unit * 2 ^ (e - 1) ≤ x := by nlinarith
  have hgrid : f.gridExponent x = e - 1 := by
    refine gridExponent_eq (lt_of_lt_of_le (by positivity) hge) (by omega) ?_ (Or.inl hge)
    linarith
  have hnearest : nearestEven (x / 2 ^ (e - 1)) = (2 * f.unit : ℕ) := by
    refine nearestEven_eq ?_ fun _ => by omega
    have hbelow : x / 2 ^ (e - 1) < 2 * f.unit := (div_lt_iff₀ hpos).mpr (by linarith)
    have habove : 2 * f.unit - 1 / 2 ≤ x / 2 ^ (e - 1) := (le_div_iff₀ hpos).mpr (by linarith)
    push_cast
    rw [abs_le]
    constructor <;> linarith
  have hplace : f.place (2 * f.unit) (e - 1) = f.place f.unit e := by
    have hstep : (e - f.minExponent).toNat = (e - 1 - f.minExponent).toNat + 1 := by omega
    rw [place, place, hstep, Nat.succ_mul]
    ring
  rw [bitsOf, nearestMantissa, hgrid, hnearest, Int.toNat_natCast, hplace]

/-- What lies in the interval of a number rounds to the number. -/
theorem Near.bitsOf_eq (h : f.Near m e x) (hc : f.Canonical m e) (hm : 0 < m) :
    f.bitsOf x = min f.infinityBits (f.place m e) := by
  by_cases hbelow : m = f.unit ∧ f.minExponent < e ∧ x < m * 2 ^ e
  · obtain ⟨rfl, he, hx⟩ := hbelow
    exact h.bitsOf_below he hx
  have hpos : (0 : ℝ) < 2 ^ e := by positivity
  have hone : (1 : ℝ) ≤ m := by exact_mod_cast hm
  have habs := h.abs_sub_le
  rw [abs_le] at habs
  have hlow : (m - 1 / 2) * 2 ^ e ≤ x := (le_div_iff₀ hpos).mp (by linarith)
  have hx : 0 < x := lt_of_lt_of_le (by nlinarith) hlow
  have hhi : x < 2 * f.unit * 2 ^ e := by
    have hle : (m : ℝ) + 1 ≤ 2 * f.unit := by exact_mod_cast hc.lt
    refine h.high.trans_lt ?_
    nlinarith
  have hlo : f.unit * 2 ^ e ≤ x ∨ e = f.minExponent := by
    refine or_iff_not_imp_right.mpr fun he => ?_
    have hmin : f.minExponent < e := lt_of_le_of_ne hc.le (Ne.symm he)
    rcases (hc.full.resolve_right he).eq_or_lt with hunit | hunit
    · rw [hunit]
      exact le_of_not_gt fun hlt => hbelow ⟨hunit.symm, hmin, hlt⟩
    · have hge : (f.unit : ℝ) + 1 ≤ m := by exact_mod_cast hunit
      nlinarith
  have hnearest : nearestEven (x / 2 ^ e) = (m : ℤ) := by
    refine nearestEven_eq h.abs_sub_le fun heq => ?_
    rcases Nat.mod_two_eq_zero_or_one m with heven | hodd
    · omega
    · exact absurd heq (h.abs_sub_lt hodd).ne
  rw [bitsOf, nearestMantissa, gridExponent_eq hx hc.le hhi hlo, hnearest, Int.toNat_natCast]

/-! ### Quotients -/

omit [Proper f] in
/-- Reals that no multiple of a power of two parts have the same bit pattern, if that power is below
the last bit of both. -/
lemma bitsOf_congr {k : ℤ} (hx : 2 ^ (k + f.precision) ≤ x)
    (h : ∀ j : ℤ, (j * 2 ^ k ≤ x ↔ j * 2 ^ k ≤ y) ∧ (x ≤ j * 2 ^ k ↔ y ≤ j * 2 ^ k)) :
    f.bitsOf x = f.bitsOf y := by
  have hpow {t : ℤ} (ht : k ≤ t) : (2 : ℝ) ^ t ≤ x ↔ 2 ^ t ≤ y := by
    rw [← one_mul ((2 : ℝ) ^ t), ← Int.cast_one, mul_zpow_eq _ ht]
    exact (h _).1
  have hy : 2 ^ (k + f.precision) ≤ y := (hpow (by omega)).mp hx
  have hx0 : 0 < x := lt_of_lt_of_le (by positivity) hx
  have hy0 : 0 < y := lt_of_lt_of_le (by positivity) hy
  have hlx : k + f.precision ≤ Int.log 2 x :=
    (Int.zpow_le_iff_le_log (b := 2) (by norm_num) hx0).mp (by exact_mod_cast hx)
  have hly : k + f.precision ≤ Int.log 2 y :=
    (Int.zpow_le_iff_le_log (b := 2) (by norm_num) hy0).mp (by exact_mod_cast hy)
  have hlog : Int.log 2 x = Int.log 2 y := by
    refine le_antisymm ?_ ?_
    · rw [← Int.zpow_le_iff_le_log (by norm_num) hy0, Nat.cast_ofNat, ← hpow (by omega)]
      exact_mod_cast Int.zpow_log_le_self (b := 2) (by norm_num) hx0
    · rw [← Int.zpow_le_iff_le_log (by norm_num) hx0, Nat.cast_ofNat, hpow (by omega)]
      exact_mod_cast Int.zpow_log_le_self (b := 2) (by norm_num) hy0
  have hgrid : f.gridExponent x = f.gridExponent y := by
    rw [f.gridExponent_of_ne_zero hx0.ne', f.gridExponent_of_ne_zero hy0.ne', abs_of_pos hx0,
      abs_of_pos hy0, hlog]
  have hlast : k + 1 ≤ f.gridExponent y := by
    rw [f.gridExponent_of_ne_zero hy0.ne', abs_of_pos hy0]
    omega
  rw [bitsOf, bitsOf, nearestMantissa, nearestMantissa, hgrid]
  congr 3
  refine nearestEven_congr fun j => ?_
  have hpos : (0 : ℝ) < 2 ^ f.gridExponent y := by positivity
  have hhalf : (j : ℝ) / 2 * 2 ^ f.gridExponent y = j * 2 ^ (f.gridExponent y - 1) := by
    rw [zpow_sub_one₀ (by norm_num)]
    ring
  rw [le_div_iff₀ hpos, le_div_iff₀ hpos, div_le_iff₀ hpos, div_le_iff₀ hpos, hhalf,
    mul_zpow_eq _ (by omega : k ≤ f.gridExponent y - 1)]
  exact h _

omit [Proper f] in
/-- Where a real between two neighbouring integers stands among all integers. -/
lemma intCast_le_iff_of_between {q : ℤ} (hlo : q < x) (hhi : x < q + 1) (j : ℤ) :
    ((j : ℝ) ≤ x ↔ j ≤ q) ∧ (x ≤ j ↔ q + 1 ≤ j) := by
  refine ⟨⟨fun h => ?_, fun h => ?_⟩, ⟨fun h => ?_, fun h => ?_⟩⟩
  · have : (j : ℝ) < (q + 1 : ℤ) := by
      push_cast
      linarith
    exact Int.lt_add_one_iff.mp (by exact_mod_cast this)
  · have : (j : ℝ) ≤ q := by exact_mod_cast h
    linarith
  · have : (q : ℝ) < j := by linarith
    exact Int.add_one_le_iff.mpr (by exact_mod_cast this)
  · have : (q : ℝ) + 1 ≤ j := by exact_mod_cast h
    linarith

omit [Proper f] in
/-- A quotient of naturals stands among the integers where its integer part with one more bit does,
which tells whether there is a remainder. -/
lemma le_div_iff_le_sticky (num : ℕ) {den : ℕ} (hden : 0 < den) (j : ℤ) :
    ((j : ℝ) ≤ (num : ℝ) / den ↔
      (j : ℝ) ≤ ((2 * (num / den) + if num % den = 0 then 0 else 1 : ℕ) : ℝ) / 2) ∧
    ((num : ℝ) / den ≤ j ↔
      ((2 * (num / den) + if num % den = 0 then 0 else 1 : ℕ) : ℝ) / 2 ≤ j) := by
  have hden' : (0 : ℝ) < den := by exact_mod_cast hden
  have hdivision : (num : ℝ) / den = (num / den : ℕ) + ((num % den : ℕ) : ℝ) / den := by
    rw [div_eq_iff hden'.ne', add_mul, div_mul_cancel₀ _ hden'.ne', mul_comm]
    exact_mod_cast (Nat.div_add_mod num den).symm
  have hrest : ((num % den : ℕ) : ℝ) / den < 1 := by
    rw [div_lt_one hden']
    exact_mod_cast Nat.mod_lt num hden
  rw [hdivision]
  generalize num / den = q
  generalize num % den = r at hrest ⊢
  split_ifs with hr
  · rw [hr]
    simp
  · have hpos : (0 : ℝ) < r := by exact_mod_cast Nat.pos_of_ne_zero hr
    have hquotient := intCast_le_iff_of_between (q := q)
      (lt_add_of_pos_right (q : ℝ) (div_pos hpos hden')) (add_lt_add_right hrest _) j
    have hsticky := intCast_le_iff_of_between (q := q) (x := ((2 * q + 1 : ℕ) : ℝ) / 2)
      (by push_cast; linarith) (by push_cast; linarith) j
    exact ⟨hquotient.1.trans hsticky.1.symm, hquotient.2.trans hsticky.2.symm⟩

omit [Proper f] in
/-- Rounding a quotient of naturals rounds the real quotient. -/
theorem ratioBits_eq_bitsOf {num den : ℕ} (hnum : 0 < num) (hden : 0 < den) :
    f.ratioBits num den = f.bitsOf ((num : ℝ) / den) := by
  obtain ⟨shift, hshift⟩ : ∃ shift : ℤ, shift = f.precision + 3 + den.log2 - num.log2 := ⟨_, rfl⟩
  have hden' : 0 < den <<< (-shift).toNat := by
    rw [Nat.shiftLeft_eq]
    positivity
  have hvalue : (num : ℝ) / den =
      (num <<< shift.toNat : ℕ) / (den <<< (-shift).toNat : ℕ) * 2 ^ (-shift) := by
    have hpow : (2 : ℝ) ^ (-shift).toNat = 2 ^ shift.toNat * 2 ^ (-shift) := by
      rw [pow_toNat two_ne_zero, neg_neg, mul_comm]
    have hne : (den : ℝ) ≠ 0 := by exact_mod_cast hden.ne'
    rw [Nat.shiftLeft_eq, Nat.shiftLeft_eq]
    push_cast
    rw [hpow]
    field_simp
  have hlarge : 2 ^ (-shift + f.precision) ≤ (num : ℝ) / den := by
    have hlo : (2 : ℝ) ^ (num.log2 : ℤ) ≤ num := by
      exact_mod_cast Nat.log2_self_le hnum.ne'
    have hhi : (den : ℝ) < 2 ^ (den.log2 + 1 : ℤ) := by exact_mod_cast Nat.lt_log2_self
    rw [le_div_iff₀ (by exact_mod_cast hden)]
    calc (2 : ℝ) ^ (-shift + f.precision) * den
        ≤ 2 ^ (-shift + f.precision) * 2 ^ (den.log2 + 1 : ℤ) := by gcongr
      _ = 2 ^ (-shift + f.precision + (den.log2 + 1)) := (zpow_add₀ (by norm_num) _ _).symm
      _ ≤ 2 ^ (num.log2 : ℤ) := zpow_le_zpow_right₀ (by norm_num) (by omega)
      _ ≤ num := hlo
  rw [ratioBits, quotient, ← hshift]
  dsimp only
  rw [magnitudeBits_eq_bitsOf]
  symm
  refine bitsOf_congr hlarge fun j => ?_
  have hpos : (0 : ℝ) < 2 ^ (-shift) := by positivity
  have hsticky := le_div_iff_le_sticky (num <<< shift.toNat) hden' j
  rw [hvalue, zpow_sub_one₀ (by norm_num), mul_le_mul_iff_left₀ hpos, mul_le_mul_iff_left₀ hpos,
    ← div_eq_mul_inv, mul_div_assoc', mul_div_right_comm, mul_le_mul_iff_left₀ hpos,
    mul_le_mul_iff_left₀ hpos]
  exact hsticky

end Format

end Terrain.Number
