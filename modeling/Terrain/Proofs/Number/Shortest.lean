import Terrain.Proofs.Number.Decimal
import Terrain.Proofs.Number.Single

/-!
# The shortest decimal reads back

A hit on a grid of decimals lies in the interval of the number, so it rounds to the number. The
search finds one, at the latest on the grid of which the number itself is a point.
-/

namespace Terrain.Number

namespace Shortest

variable {i : Interval} {k : ℤ}

/-- A real in the interval; the ends are in it if they belong to it. -/
structure Interval.Holds (i : Interval) (x : ℝ) : Prop where
  low : i.low * 2 ^ i.exponent ≤ x
  high : x ≤ i.high * 2 ^ i.exponent
  inside : i.closed = false → i.low * 2 ^ i.exponent < x ∧ x < i.high * 2 ^ i.exponent

/-! ### Comparisons -/

/-- So many units of an interval as they are compared with a point of the grid: multiplied by the
powers of two and of ten that make both of them integers. -/
def scaled (i : Interval) (k : ℤ) (n : ℕ) : ℕ :=
  (n <<< i.exponent.toNat) * Nat.pow 10 (-k).toNat

/-- The step of the grid, multiplied by the same powers. -/
def scaledUnit (i : Interval) (k : ℤ) : ℕ := (1 <<< (-i.exponent).toNat) * Nat.pow 10 k.toNat

/-- What both sides of a comparison are multiplied by. -/
def scale (i : Interval) (k : ℤ) : ℕ := 2 ^ (-i.exponent).toNat * 10 ^ (-k).toNat

lemma scale_pos : (0 : ℝ) < scale i k := by
  rw [scale]
  positivity

lemma cast_scaled (n : ℕ) : (scaled i k n : ℝ) = n * 2 ^ i.exponent * scale i k := by
  rw [scaled, scale, Nat.shiftLeft_eq]
  change ((n * 2 ^ i.exponent.toNat * 10 ^ (-k).toNat : ℕ) : ℝ) = _
  push_cast
  rw [pow_toNat two_ne_zero]
  ring

lemma cast_mul_scaledUnit (c : ℕ) : (c * scaledUnit i k : ℕ) = c * (10 : ℝ) ^ k * scale i k := by
  rw [scaledUnit, scale, Nat.one_shiftLeft]
  change ((c * (2 ^ (-i.exponent).toNat * 10 ^ k.toNat) : ℕ) : ℝ) = _
  push_cast
  rw [pow_toNat (b := (10 : ℝ)) (by norm_num)]
  ring

/-- Whether a point of the grid is in the interval. -/
def inside (i : Interval) (k : ℤ) (c : ℕ) : Bool :=
  if i.closed then scaled i k i.low ≤ c * scaledUnit i k ∧ c * scaledUnit i k ≤ scaled i k i.high
  else scaled i k i.low < c * scaledUnit i k ∧ c * scaledUnit i k < scaled i k i.high

/-- The points of the grid next to the number, and the nearer of the two. -/
def below (i : Interval) (k : ℤ) : ℕ := scaled i k i.value / scaledUnit i k

def nearer (i : Interval) (k : ℤ) : ℕ :=
  if 2 * scaled i k i.value < (2 * below i k + 1) * scaledUnit i k then below i k else below i k + 1

lemma onGrid?_eq (i : Interval) (k : ℤ) : onGrid? i k =
    if inside i k (nearer i k) then some (nearer i k)
    else if inside i k (below i k) then some (below i k)
    else if inside i k (below i k + 1) then some (below i k + 1)
    else none := rfl

lemma scaled_le_iff {n c : ℕ} :
    scaled i k n ≤ c * scaledUnit i k ↔ (n : ℝ) * 2 ^ i.exponent ≤ c * 10 ^ k := by
  rw [← @Nat.cast_le ℝ, cast_scaled, cast_mul_scaledUnit, mul_le_mul_iff_left₀ scale_pos]

lemma le_scaled_iff {n c : ℕ} :
    c * scaledUnit i k ≤ scaled i k n ↔ c * 10 ^ k ≤ (n : ℝ) * 2 ^ i.exponent := by
  rw [← @Nat.cast_le ℝ, cast_scaled, cast_mul_scaledUnit, mul_le_mul_iff_left₀ scale_pos]

lemma inside_iff {c : ℕ} : inside i k c = true ↔ i.Holds (c * 10 ^ k) := by
  have hstrict : (scaled i k i.low < c * scaledUnit i k ∧ c * scaledUnit i k < scaled i k i.high) ↔
      (i.low * 2 ^ i.exponent < (c : ℝ) * 10 ^ k ∧ (c : ℝ) * 10 ^ k < i.high * 2 ^ i.exponent) := by
    rw [← not_le, ← not_le, scaled_le_iff, le_scaled_iff, not_le, not_le]
  rw [inside]
  split_ifs with hclosed
  · rw [decide_eq_true_eq, scaled_le_iff, le_scaled_iff]
    exact ⟨fun h => ⟨h.1, h.2, fun hopen => by simp [hclosed] at hopen⟩, fun h => ⟨h.low, h.high⟩⟩
  · rw [decide_eq_true_eq, hstrict]
    exact ⟨fun h => ⟨h.1.le, h.2.le, fun _ => h⟩, fun h => h.inside (by simpa using hclosed)⟩

/-! ### Hits -/

/-- A hit is in the interval. -/
lemma holds_of_onGrid? {c : ℕ} (h : onGrid? i k = some c) : i.Holds (c * 10 ^ k) := by
  rw [onGrid?_eq] at h
  split_ifs at h with hnearer hbelow habove <;> obtain rfl := Option.some_inj.mp h
  · exact inside_iff.mp hnearer
  · exact inside_iff.mp hbelow
  · exact inside_iff.mp habove

/-- Where the number is itself a point of the grid, there is a hit. -/
lemma onGrid?_of_point {c : ℕ} (hvalue : (i.value : ℝ) * 2 ^ i.exponent = c * 10 ^ k)
    (h : i.Holds (c * 10 ^ k)) : onGrid? i k = some c := by
  have hpos : 0 < scaledUnit i k := by
    rw [scaledUnit, Nat.one_shiftLeft]
    exact Nat.mul_pos (Nat.two_pow_pos _) (Nat.pow_pos (by decide))
  have hscaled : scaled i k i.value = c * scaledUnit i k := by
    rw [← @Nat.cast_inj ℝ, cast_scaled, cast_mul_scaledUnit, hvalue]
  have hbelow : below i k = c := by rw [below, hscaled, Nat.mul_div_cancel _ hpos]
  have hnearer : nearer i k = c := by
    rw [nearer, hscaled, hbelow, if_pos]
    rw [← mul_assoc, add_mul]
    omega
  rw [onGrid?_eq, hnearer, if_pos (inside_iff.mpr h)]

/-- The search ends with a hit, if there is one on the grids that it tries. -/
lemma onGrid?_search {grids : ℕ} (h : ∃ j < grids, (onGrid? i (k - j)).isSome) :
    onGrid? i (search i grids k).2 = some (search i grids k).1 := by
  induction grids generalizing k with
  | zero =>
    obtain ⟨j, hj, -⟩ := h
    exact absurd hj (Nat.not_lt_zero j)
  | succ grids ih =>
    rw [search]
    cases hk : onGrid? i k with
    | some digits => exact hk
    | none =>
      obtain ⟨j, hj, hhit⟩ := h
      -- the hit is not on this grid, and the rest of the search starts one grid further down
      cases j with
      | zero => simp [hk] at hhit
      | succ j =>
        refine ih ⟨j, Nat.lt_of_succ_lt_succ hj, ?_⟩
        rwa [sub_sub, ← Nat.cast_one, ← Nat.cast_add, Nat.add_comm]

/-! ### Numbers -/

variable {f : Format} {m : ℕ} {e : ℤ} {x : ℝ}

/-- Four units of an interval are the last bit of its number. -/
lemma four_mul_zpow (x : ℝ) : 4 * x * 2 ^ (interval f m e).exponent = x * 2 ^ e := by
  have hexponent : (interval f m e).exponent = e - 2 := rfl
  rw [hexponent, zpow_sub₀ (by norm_num)]
  ring

lemma cast_low (hm : 0 < m) :
    ((interval f m e).low : ℝ) * 2 ^ (interval f m e).exponent = (m - f.reachBelow m e) * 2 ^ e := by
  have hlow : ((interval f m e).low : ℝ) = 4 * (m - f.reachBelow m e) := by
    rw [interval, Format.reachBelow_eq]
    dsimp only
    rw [Nat.cast_sub (by split_ifs <;> omega)]
    split_ifs <;> push_cast <;> ring
  rw [hlow, four_mul_zpow]

lemma cast_high :
    ((interval f m e).high : ℝ) * 2 ^ (interval f m e).exponent = (m + 1 / 2) * 2 ^ e := by
  have hhigh : ((interval f m e).high : ℝ) = 4 * (m + 1 / 2) := by
    rw [interval]
    push_cast
    ring
  rw [hhigh, four_mul_zpow]

lemma cast_value :
    ((interval f m e).value : ℝ) * 2 ^ (interval f m e).exponent = m * 2 ^ e := by
  have hvalue : ((interval f m e).value : ℝ) = 4 * m := Nat.cast_mul 4 m
  rw [hvalue, four_mul_zpow]

/-- The interval of a number is that of the reals that round to it. -/
lemma holds_interval_iff (hm : 0 < m) : (interval f m e).Holds x ↔ f.Near m e x := by
  have hopen : (interval f m e).closed = false ↔ m % 2 = 1 := by
    rw [interval, beq_eq_false_iff_ne, Nat.mod_two_ne_zero]
  constructor
  · rintro ⟨hlow, hhigh, hinside⟩
    rw [cast_low hm, cast_high, hopen] at hinside
    exact ⟨cast_low hm ▸ hlow, cast_high ▸ hhigh, hinside⟩
  · rintro ⟨hlow, hhigh, hinside⟩
    rw [← cast_low hm, ← cast_high, ← hopen] at hinside
    exact ⟨cast_low hm ▸ hlow, cast_high ▸ hhigh, hinside⟩

/-- Every number is a point of some grid of decimals. -/
lemma exists_point (m : ℕ) (e : ℤ) : ∃ c : ℕ, (m : ℝ) * 2 ^ e = c * 10 ^ (-(e.natAbs : ℤ)) := by
  obtain ⟨n, rfl | rfl⟩ := e.eq_nat_or_neg
  · refine ⟨m * 2 ^ n * 10 ^ n, ?_⟩
    simp [mul_assoc]
  · -- a fraction with so many binary places has as many decimal places
    refine ⟨m * 5 ^ n, ?_⟩
    have hten : (10 : ℝ) ^ n = 5 ^ n * 2 ^ n := by rw [← mul_pow]; norm_num
    simp only [Int.natAbs_neg, Int.natAbs_natCast, zpow_neg, zpow_natCast, hten]
    push_cast
    field_simp

/-- The coarsest grid that is tried. -/
def top (m : ℕ) (e : ℤ) : ℤ := max 0 (e + m.log2 + 1)

/-- The search gets down to the grid of which the number is a point. -/
lemma exists_hit (hm : 0 < m) :
    ∃ j < (top m e + e.natAbs + 1).toNat, (onGrid? (interval f m e) (top m e - j)).isSome := by
  obtain ⟨c, hc⟩ := exists_point m e
  have htop : 0 ≤ top m e := le_max_left _ _
  refine ⟨(top m e + e.natAbs).toNat, by omega, ?_⟩
  have hgrid : top m e - (top m e + e.natAbs).toNat = -(e.natAbs : ℤ) := by omega
  have hself : (interval f m e).Holds (c * 10 ^ (-(e.natAbs : ℤ))) := by
    rw [← hc, holds_interval_iff hm]
    exact Format.near_self
  rw [hgrid, onGrid?_of_point (cast_value.trans hc) hself]
  rfl

/-- The shortest decimal of a positive number is in its interval. -/
theorem near_decimal (negative : Bool) (hm : 0 < m) :
    f.Near m e (decimal f negative m e).magnitude := by
  have hdecimal : decimal f negative m e =
      ⟨negative, (search (interval f m e) (top m e + e.natAbs + 1).toNat (top m e)).1,
        (search (interval f m e) (top m e + e.natAbs + 1).toNat (top m e)).2⟩ := if_neg hm.ne'
  rw [hdecimal, ← holds_interval_iff hm]
  exact holds_of_onGrid? (onGrid?_search (exists_hit hm))

lemma negative_decimal (negative : Bool) (m : ℕ) (e : ℤ) :
    (decimal f negative m e).negative = negative := by
  rw [decimal]
  split_ifs <;> rfl

end Shortest

/-! ### Singles -/

/-- What rounds to a finite single is within reach of a decimal. -/
lemma reach_of_near {m : ℕ} {e : ℤ} {x : ℝ} (h : single.Near m e x) (hm : 0 < m)
    (hc : single.Canonical m e) (he : e ≤ 104) :
    (10 : ℝ) ^ (-Decimal.reach) ≤ x ∧ x < 10 ^ Decimal.reach := by
  have hone : (1 : ℝ) ≤ m := by exact_mod_cast hm
  have hlt : (m : ℝ) + 1 ≤ 2 ^ 24 := by exact_mod_cast hc.lt
  have hle := hc.le
  have hreach := single.reachBelow_le (m := m) (e := e)
  simp only [single] at hle
  constructor
  · calc (10 : ℝ) ^ (-Decimal.reach) ≤ 10 ^ (-50 : ℤ) :=
          zpow_le_zpow_right₀ (by norm_num) (by decide)
      _ ≤ 1 / 2 * 2 ^ (-149 : ℤ) := by norm_num
      _ ≤ (m - single.reachBelow m e) * 2 ^ e :=
        mul_le_mul (by linarith) (zpow_le_zpow_right₀ one_le_two hle) (by positivity) (by linarith)
      _ ≤ x := h.low
  · calc x ≤ (m + 1 / 2) * 2 ^ e := h.high
      _ ≤ 2 ^ 24 * 2 ^ (104 : ℤ) :=
        mul_le_mul (by linarith) (zpow_le_zpow_right₀ one_le_two he) (by positivity) (by positivity)
      _ < 10 ^ (50 : ℤ) := by norm_num
      _ ≤ 10 ^ Decimal.reach := zpow_le_zpow_right₀ (by norm_num) (by decide)

/-- A finite single is read from its text. -/
theorem readSingle?_singleText {x : Float32} {s : Bool} {m : ℕ} {e : ℤ}
    (h : ofSingle x = .finite s m e) : readSingle? (singleText x).toList = some x := by
  obtain ⟨hc, hplace, hbits⟩ := toNat_toBits_of_ofSingle h
  have htext : singleText x = (Shortest.decimal single s m e).positional := by rw [singleText, h]
  obtain ⟨d, hread, hnegative, hmagnitude⟩ :=
    exists_readBits?_positional single (Shortest.decimal single s m e)
  rw [Shortest.negative_decimal] at hnegative
  have hsame : d.bits single = x.toBits.toNat := by
    rw [hbits, ← hnegative]
    -- zero has no interval, but its digits say what it is
    rcases Nat.eq_zero_or_pos m with rfl | hm
    · have hd : d.digits = 0 := by
        rw [← Decimal.magnitude_eq_zero, hmagnitude, Decimal.magnitude_eq_zero]
        rfl
      have hexponent : e = single.minExponent := hc.full.resolve_left (by decide)
      have hzero : single.place 0 e = 0 := by
        rw [hexponent]
        rfl
      rw [Decimal.bits_of_digits_eq_zero single hd, hzero, Nat.zero_add]
    · have hnear : single.Near m e d.magnitude := hmagnitude ▸ Shortest.near_decimal s hm
      obtain ⟨hlo, hhi⟩ := reach_of_near hnear hm hc (canonical_of_ofSingle h).2
      rw [Decimal.bits_eq_bitsOf single hlo hhi, hnear.bitsOf_eq hc hm, min_eq_right hplace.le]
  rw [readSingle?, htext, hread, Option.map_some, hsame, UInt32.ofNat_toNat,
    ofBits_toBits_of_denotes ⟨s, m, e, h, rfl⟩]

end Terrain.Number
