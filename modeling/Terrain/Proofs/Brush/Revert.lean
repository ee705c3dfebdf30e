import Terrain.Brush.Revert
import Terrain.Proofs.Height.Requantized
import Terrain.Proofs.Number.Grain
import Terrain.Proofs.Number.Limits
import Terrain.Proofs.Surface.Painting

/-!
# Reverting stays between the heights

The height that a weight picks lies between the height of a cell and that of the reference, and the
roundings move it by far less than half of a stored unit (`abs_blended_mul_sub_le`). Cutting the
fraction can take a height that lies a hair closer to zero than both stored integers to the next integer
towards zero: `Revert.apply_between` says that this is the only way out from between the two.
-/

namespace Terrain

open Number

namespace Revert

open Surface

/-! ### Blended heights -/

/-- The height that a weight picks between two heights, as it is computed. -/
noncomputable def blended (x y w : ℝ) : ℝ :=
  double.round (double.round (x * double.round (1 - w)) + double.round (y * w))

variable {x y w φ : ℝ} {n m : Int32}

/-- The rest of a weight stays between zero and one when it is rounded, and hardly moves. -/
lemma round_rest_bounds (hw : 0 ≤ w) (hw' : w ≤ 1) : 0 ≤ double.round (1 - w) ∧
    double.round (1 - w) ≤ 1 ∧ |double.round (1 - w) - (1 - w)| ≤ grain := by
  have hone : double.round 1 = 1 := stands_one.round_eq
  refine ⟨double.round_nonneg (by linarith), ?_, ?_⟩
  · calc double.round (1 - w) ≤ double.round 1 := double.round_mono (by linarith)
      _ = 1 := hone
  · have h := abs_round_sub_le_grain (x := 1 - w) (b := 1) (abs_le.mpr ⟨by linarith, by linarith⟩)
      le_rfl
    rwa [mul_one] at h

/-- A part of a height is not larger than the height. -/
lemma abs_part_le (hw : 0 ≤ w) (hw' : w ≤ 1) : |x * w * φ| ≤ |x * φ| := by
  rw [mul_right_comm, abs_mul _ w, abs_of_nonneg hw]
  exact mul_le_of_le_one_right (abs_nonneg _) hw'

/-- What the factor makes of a blended height is close to the same blend of the two products. -/
lemma abs_blended_mul_sub_le (hφ : 0 ≤ φ) (hφ' : φ ≤ 2 ^ (128 : ℤ)) (hw : 0 ≤ w) (hw' : w ≤ 1)
    (hx : |x * φ| ≤ 2 ^ 32) (hy : |y * φ| ≤ 2 ^ 32) :
    |double.round (blended x y w * φ) - ((1 - w) * (x * φ) + w * (y * φ))| ≤ 1 / 2 ^ 10 := by
  obtain ⟨hv, hv', hrest⟩ := round_rest_bounds hw hw'
  rw [blended]
  generalize double.round (1 - w) = v at hv hv' hrest ⊢
  have hunit : grain * 2 ^ 35 = 1 / 2 ^ 17 := by
    rw [grain_eq]
    norm_num
  have hmove : ∀ {t : ℝ}, |t * φ| ≤ 2 ^ 35 → |double.round t * φ - t * φ| ≤ 1 / 2 ^ 17 :=
    fun ht => hunit ▸ abs_round_mul_sub_le hφ hφ' ht (by norm_num)
  -- the two products
  have hxv := (abs_part_le hv hv').trans hx
  have hyw := (abs_part_le hw hw').trans hy
  have hp := abs_le.mp (hmove (hxv.trans (by norm_num)))
  have hq := abs_le.mp (hmove (hyw.trans (by norm_num)))
  generalize double.round (x * v) = p at hp ⊢
  generalize double.round (y * w) = q at hq ⊢
  -- their sum, and its product with the factor
  obtain ⟨hxv, hxv'⟩ := abs_le.mp hxv
  obtain ⟨hyw, hyw'⟩ := abs_le.mp hyw
  have hpq : |(p + q) * φ| ≤ 2 ^ 34 := abs_le.mpr ⟨by linarith, by linarith⟩
  have hsum := abs_le.mp (hmove (hpq.trans (by norm_num)))
  generalize double.round (p + q) = z at hsum ⊢
  obtain ⟨hpq, hpq'⟩ := abs_le.mp hpq
  have hz : |z * φ| ≤ 2 ^ 35 := abs_le.mpr ⟨by linarith, by linarith⟩
  have hlast := abs_le.mp (hunit ▸ abs_round_sub_le_grain hz (by norm_num))
  -- the rest of the weight was rounded, too
  have hmoved : |x * φ * (v - (1 - w))| ≤ 2 ^ 32 * grain := by
    rw [abs_mul]
    exact mul_le_mul hx hrest (abs_nonneg _) (by norm_num)
  have hmoved := abs_le.mp hmoved
  exact abs_le.mpr ⟨by linarith, by linarith⟩

/-- A weighted mean of two reals of an interval belongs to the interval. -/
lemma weighted_mem_Icc {lo hi : ℝ} (hw : 0 ≤ w) (hw' : w ≤ 1) (hx : x ∈ Set.Icc lo hi)
    (hy : y ∈ Set.Icc lo hi) : (1 - w) * x + w * y ∈ Set.Icc lo hi := by
  have h := convex_Icc lo hi hx hy (sub_nonneg.mpr hw') hw (sub_add_cancel 1 w)
  rwa [smul_eq_mul, smul_eq_mul] at h

/-- What the factor makes of a blend of the heights of two stored integers is close to the same blend
of the integers. -/
lemma abs_blended_mul_sub_stored_le (n m : Int32) (hφ : 0 < φ) (hφ' : φ < 2 ^ (128 : ℤ)) (hw : 0 ≤ w)
    (hw' : w ≤ 1) :
    |double.round (blended (double.round (n.toInt / φ)) (double.round (m.toInt / φ)) w * φ) -
      ((1 - w) * n.toInt + w * m.toInt)| ≤ 1 / 2 ^ 8 := by
  have hblend := abs_le.mp (abs_blended_mul_sub_le hφ.le hφ'.le hw hw' (Height.abs_product_le n hφ hφ')
    (Height.abs_product_le m hφ hφ'))
  have hmoved := weighted_mem_Icc hw hw'
    (Set.mem_Icc.mpr (abs_le.mp (Height.abs_product_sub_le n hφ hφ')))
    (Set.mem_Icc.mpr (abs_le.mp (Height.abs_product_sub_le m hφ hφ')))
  obtain ⟨hmoved, hmoved'⟩ := hmoved
  exact abs_le.mpr ⟨by linarith [hblend.1], by linarith [hblend.2]⟩

/-- What is stored for a blend of the heights of two stored integers lies nearly between these. -/
lemma nearlyBetween_blended (n m : Int32) (hφ : 0 < φ) (hφ' : φ < 2 ^ (128 : ℤ)) (hw : 0 ≤ w)
    (hw' : w ≤ 1) : NearlyBetween n.toInt m.toInt (towardZero (double.round
      (blended (double.round (n.toInt / φ)) (double.round (m.toInt / φ)) w * φ))) := by
  have hmean : (1 - w) * n.toInt + w * m.toInt ∈
      Set.Icc ((min n.toInt m.toInt : ℤ) : ℝ) (max n.toInt m.toInt : ℤ) :=
    weighted_mem_Icc hw hw'
      ⟨by exact_mod_cast min_le_left _ _, by exact_mod_cast le_max_left _ _⟩
      ⟨by exact_mod_cast min_le_right _ _, by exact_mod_cast le_max_right _ _⟩
  refine nearlyBetween_towardZero hmean.1 hmean.2 ?_
  exact (abs_blended_mul_sub_stored_le n m hφ hφ' hw hw').trans_lt (by norm_num)

/-! ### Weights -/

variable {stroke : Stroke} {p : Point} {weight : Float}

/-- A weight that is a number lies between zero and one. -/
lemma exists_stands_weight (h : weight? stroke p = some weight) (hfinite : weight.isFinite = true) :
    ∃ w, Stands weight w ∧ 0 ≤ w ∧ w ≤ 1 := by
  have hcases : weight = 0 ∨ weight = 1 ∨ (¬weight < 0 ∧ ¬1 < weight) := by
    rw [weight?] at h
    dsimp only at h
    split_ifs at h with hfar hless hmore hmore <;> obtain rfl := Option.some.inj h
    · exact .inr (.inl rfl)
    · exact .inl rfl
    · exact .inr (.inl rfl)
    · exact .inr (.inr ⟨hless, hmore⟩)
  rcases hcases with rfl | rfl | ⟨hless, hmore⟩
  · exact ⟨0, stands_zero, le_rfl, zero_le_one⟩
  · exact ⟨1, stands_one, zero_le_one, le_rfl⟩
  · obtain ⟨w, hw⟩ := exists_stands hfinite
    exact ⟨w, hw, not_lt.mp (mt (hw.lt stands_zero).mpr hless),
      not_lt.mp (mt (stands_one.lt hw).mpr hmore)⟩

lemma weight_bounds (h : weight? stroke p = some weight) (hw : Stands weight w) : 0 ≤ w ∧ w ≤ 1 := by
  obtain ⟨w', hw', hbounds⟩ := exists_stands_weight h hw.isFinite
  exact hw.unique hw' ▸ hbounds

/-- A blend is a number only if its weight is one. -/
lemma isFinite_weight {height target : Float} (h : (blend height target weight).isFinite = true) :
    weight.isFinite = true := by
  obtain ⟨-, hmoved⟩ := isFinite_of_add h
  exact (isFinite_of_mul hmoved).2

/-- A blend of heights that are not too large is the blend of the reals behind them. -/
lemma stands_blend {height target : Float} (hx : Stands height x) (hy : Stands target y)
    (hw : Stands weight w) (hw0 : 0 ≤ w) (hw1 : w ≤ 1) (hxmax : |x| ≤ 2 ^ (181 : ℤ))
    (hymax : |y| ≤ 2 ^ (181 : ℤ)) : Stands (blend height target weight) (blended x y w) := by
  have hmax : ∀ {t : ℝ}, |t| ≤ 2 ^ (182 : ℤ) → |t| < 2 ^ (1023 : ℤ) := fun ht =>
    ht.trans_lt (zpow_lt_zpow_right₀ (by norm_num) (by norm_num))
  have hpart : ∀ {t v : ℝ}, |t| ≤ 2 ^ (181 : ℤ) → 0 ≤ v → v ≤ 1 → |t * v| ≤ 2 ^ (181 : ℤ) :=
    fun ht hv hv' => by
      rw [abs_mul, abs_of_nonneg hv]
      exact (mul_le_of_le_one_right (abs_nonneg _) hv').trans ht
  have hdouble : (2 : ℝ) ^ (182 : ℤ) = 2 ^ (181 : ℤ) + 2 ^ (181 : ℤ) := by norm_num
  have hle : (2 : ℝ) ^ (181 : ℤ) ≤ 2 ^ (182 : ℤ) := zpow_le_zpow_right₀ (by norm_num) (by norm_num)
  obtain ⟨hv, hv', -⟩ := round_rest_bounds hw0 hw1
  have hrest := (stands_one.nearest_sub hw).stands (hmax (t := 1 - w) ((abs_le.mpr
    ⟨by linarith, by linarith⟩ : |1 - w| ≤ 1).trans (one_le_zpow₀ (by norm_num) (by norm_num))))
  have hkept := (hx.nearest_mul hrest).stands (hmax ((hpart hxmax hv hv').trans hle))
  have hmoved := (hy.nearest_mul hw).stands (hmax ((hpart hymax hw0 hw1).trans hle))
  refine (hkept.nearest_add hmoved).stands (hmax ?_)
  rw [hdouble]
  exact (abs_add_le _ _).trans (add_le_add (abs_round_le_zpow (by norm_num) (hpart hxmax hv hv'))
    (abs_round_le_zpow (by norm_num) (hpart hymax hw0 hw1)))

/-- The whole weight picks the target. -/
lemma blended_one (x : ℝ) (hy : double.round y = y) : blended x y 1 = y := by
  rw [blended, sub_self, double.round_zero, mul_zero, double.round_zero, mul_one, hy, zero_add, hy]

/-! ### Reverted heights -/

/-- The height that a point gets on the way to a reference, if it is in reach. -/
def rule (reference : Surface) (stroke : Stroke) (p : Point) (height : Float) : Option Float :=
  (weight? stroke p).map (blend height (reference.level p))

/-- The points that are pulled back. -/
def points (s : Surface) (stroke : Stroke) : List Point :=
  if 0 < stroke.duration then s.extent.points else []

lemma reverted?_eq (reference : Surface) (stroke : Stroke) (p : Point) (height : Float) :
    reverted? reference stroke p height = .ok (rule reference stroke p height) := by
  rw [reverted?, rule]
  cases weight? stroke p with
  | none => rfl
  | some weight =>
    dsimp only
    rw [get_eq_level, ok_bind]
    rfl

/-- Reverting goes through, and paints its points. -/
lemma exists_apply (reference s : Surface) (mask : Mask) (stroke : Stroke) :
    ∃ t, apply reference s mask stroke = .ok t ∧
      s.Painted mask (rule reference stroke) (points s stroke) t := by
  rw [apply, points]
  split_ifs
  · exact exists_paint (reverted?_eq reference stroke) (Extent.nodup_points _) s mask
  · exact ⟨s, rfl, painted_nil s mask _⟩

variable {reference s : Surface} {factor : Float32}

/-- A reference of the same sizes and factor has a stored integer at every point of the region. -/
lemma exists_level_eq (hwidth : reference.grid.width = s.grid.width)
    (hheight : reference.grid.height = s.grid.height)
    (hfactor : reference.grid.factor = s.grid.factor) (hp : s.stored? p = some n) :
    ∃ m, reference.stored? p = some m ∧ reference.level p = Height.ofStored m s.grid.factor := by
  have hextent : reference.extent = s.extent := by
    simp only [Surface.extent, Surface.width, Surface.height, hwidth, hheight]
  obtain ⟨m, hm⟩ := exists_stored? (hextent.symm ▸ mem_extent_of_stored? hp)
  exact ⟨m, hm, by rw [level_of_stored? hm, hfactor]⟩

/-- A weight that is not a number leaves a stored integer alone. -/
lemma repaint_of_not_isFinite (n : Int32) (hweight : weight? stroke p = some weight)
    (h : weight.isFinite = false) : repaint (rule reference stroke p) factor n = n := by
  rcases repaint_cases (rule reference stroke p) factor n with hsame | ⟨height, hrule, hfinite, -⟩
  · exact hsame
  · obtain ⟨weight', hweight', rfl⟩ := Option.map_eq_some_iff.mp hrule
    obtain rfl := Option.some.inj (hweight.symm.trans hweight')
    exact absurd (isFinite_weight hfinite) (by rw [h]; exact Bool.false_ne_true)

/-- A point that is not in reach keeps its stored integer. -/
lemma repaint_of_none (n : Int32) (hweight : weight? stroke p = none) :
    repaint (rule reference stroke p) factor n = n := by
  rw [repaint, rule, hweight, Option.map_none]

/-- What reverting makes of a stored integer: the heights of the two integers are blended, and the
fraction of the product with the factor is cut. -/
lemma toInt_repaint (n : Int32) (hlevel : reference.level p = Height.ofStored m factor)
    (hr : (ofSingle factor).Denotes φ) (hlo : 2 ^ (-149 : ℤ) ≤ φ) (hhi : φ < 2 ^ (128 : ℤ))
    (hweight : weight? stroke p = some weight) (hw : Stands weight w) (hw0 : 0 ≤ w) (hw1 : w ≤ 1) :
    (repaint (rule reference stroke p) factor n).toInt = towardZero (double.round
      (blended (double.round (n.toInt / φ)) (double.round (m.toInt / φ)) w * φ)) := by
  have hheight : ∀ k : Int32, Stands (Height.ofStored k factor) (double.round (k.toInt / φ)) :=
    fun k => Height.stands_quotient (stands_doubleOfInt32 k) hr hlo
  have hblend := stands_blend (hheight n) (hheight m) hw hw0 hw1
    (Height.abs_round_quotient_le n hlo hhi) (Height.abs_round_quotient_le m hlo hhi)
  have hbetween := nearlyBetween_blended n m (lt_of_lt_of_le (by positivity) hlo) hhi hw0 hw1
  rw [repaint, rule, hweight, Option.map_some]
  dsimp only
  rw [hlevel, if_pos hblend.isFinite, Height.quantize,
    (hblend.nearest_mul (stands_widen hr)).truncate_eq, hbetween.toInt_ofIntClamp]

/-- What reverting makes of a stored integer lies nearly between it and that of the reference. -/
lemma nearlyBetween_repaint (n : Int32) (hlevel : reference.level p = Height.ofStored m factor)
    (hpos : 0 < factor) (hfin : factor.isFinite = true) :
    NearlyBetween n.toInt m.toInt (repaint (rule reference stroke p) factor n).toInt := by
  have hleft := nearlyBetween_left n.toInt m.toInt
  cases hweight : weight? stroke p with
  | none => rwa [repaint_of_none n hweight]
  | some weight =>
    cases hnumber : weight.isFinite with
    | false => rwa [repaint_of_not_isFinite n hweight hnumber]
    | true =>
      obtain ⟨r, hr, hlo, hhi⟩ := exists_denotes_of_pos hpos hfin
      obtain ⟨w, hw, hw0, hw1⟩ := exists_stands_weight hweight hnumber
      rw [toInt_repaint n hlevel hr hlo hhi hweight hw hw0 hw1]
      exact nearlyBetween_blended n m (lt_of_lt_of_le (by positivity) hlo) hhi hw0 hw1

/-- The whole weight makes of a stored integer what the height of the reference is stored as. -/
lemma repaint_of_weight_one (n : Int32) (hlevel : reference.level p = Height.ofStored m factor)
    (hpos : 0 < factor) (hfin : factor.isFinite = true) (hweight : weight? stroke p = some 1) :
    repaint (rule reference stroke p) factor n =
      Height.quantize (Height.ofStored m factor) factor := by
  obtain ⟨r, hr, hlo, hhi⟩ := exists_denotes_of_pos hpos hfin
  have hheight : ∀ k : Int32, Stands (Height.ofStored k factor) (double.round (k.toInt / r)) :=
    fun k => Height.stands_quotient (stands_doubleOfInt32 k) hr hlo
  have hblend := stands_blend (hheight n) (hheight m) stands_one zero_le_one le_rfl
    (Height.abs_round_quotient_le n hlo hhi) (Height.abs_round_quotient_le m hlo hhi)
  rw [blended_one _ (hheight m).round_eq] at hblend
  rw [repaint, rule, hweight, Option.map_some]
  dsimp only
  rw [hlevel, if_pos hblend.isFinite, Height.quantize_of_stands hr hlo hhi hblend,
    Height.quantize_of_stands hr hlo hhi (hheight m)]

end Revert

/-- Reverting moves no cell away from a reference of the same sizes and factor: what it stores lies
between what was stored before and what the reference stores, except that it may be the next integer
towards zero from there. A cell with the whole weight gets what the height of the reference is stored
as. The patches of the cells that changed become dirty, and no others. -/
theorem Revert.apply_between (reference s : Surface) (mask : Mask) (stroke : Stroke)
    (hwidth : reference.grid.width = s.grid.width) (hheight : reference.grid.height = s.grid.height)
    (hfactor : reference.grid.factor = s.grid.factor) (hpos : 0 < s.grid.factor)
    (hfin : s.grid.factor.isFinite = true) :
    ∃ t, apply reference s mask stroke = .ok t ∧ s.SameFrame t ∧
      (∀ p n, s.stored? p = some n → ∃ m k, reference.stored? p = some m ∧ t.stored? p = some k ∧
        NearlyBetween n.toInt m.toInt k.toInt ∧
        (0 < stroke.duration → mask.allows p = true → weight? stroke p = some 1 →
          k = Height.quantize (Height.ofStored m s.grid.factor) s.grid.factor)) ∧
      ∀ P, t.grid.Dirty P ↔ s.grid.Dirty P ∨ ∃ p, t.stored? p ≠ s.stored? p ∧ P = p.patch := by
  obtain ⟨t, ht, hpainted⟩ := exists_apply reference s mask stroke
  refine ⟨t, ht, hpainted.frame, fun p n hp => ?_, hpainted.dirty_iff⟩
  obtain ⟨m, hm, hlevel⟩ := exists_level_eq hwidth hheight hfactor hp
  have hstored := hpainted.stored_eq p
  rw [hp] at hstored
  split_ifs at hstored with hreached
  · exact ⟨m, _, hm, hstored, nearlyBetween_repaint n hlevel hpos hfin, fun _ _ hweight =>
      repaint_of_weight_one n hlevel hpos hfin hweight⟩
  · refine ⟨m, n, hm, hstored, nearlyBetween_left n.toInt m.toInt, fun hduration hallows => ?_⟩
    refine absurd ⟨?_, hallows⟩ hreached
    rw [points, if_pos hduration, Extent.mem_points]
    exact Surface.mem_extent_of_stored? hp

/-- A default height above a reference of zeros. -/
theorem Revert.apply_between_flat : ∃ t,
    apply (Surface.ofSize 16 16) (Surface.flat 16 16) (.all (Surface.flat 16 16)) ⟨8, 8, 64, 1⟩ =
      .ok t ∧ t.stored? ⟨8, 8⟩ = some 0 := by
  obtain ⟨t, ht, -, hbetween, -⟩ := apply_between (Surface.ofSize 16 16) (Surface.flat 16 16)
    (.all (Surface.flat 16 16)) ⟨8, 8, 64, 1⟩ rfl rfl rfl (by decide +kernel) (by decide +kernel)
  have hflat : (Surface.flat 16 16).stored? ⟨8, 8⟩ = some 2100 := by decide +kernel
  have hreference : (Surface.ofSize 16 16).stored? ⟨8, 8⟩ = some 0 := by decide +kernel
  obtain ⟨m, k, hm, hk, -, hwhole⟩ := hbetween ⟨8, 8⟩ 2100 hflat
  have hm0 : m = 0 := Option.some.inj (hm.symm.trans hreference)
  rw [hm0] at hwhole
  have hk0 : k = 0 :=
    (hwhole (by decide +kernel) (by decide +kernel) (by decide +kernel)).trans (by decide +kernel)
  exact ⟨t, ht, hk0 ▸ hk⟩

/-- Reverting may move a cell away from the reference: a surface without flags that is its own reference
loses one where 29 is stored, and the patch of the cell becomes dirty. -/
theorem Revert.not_apply_between : ∃ s₀ s t, (Surface.ofSize 16 16).set 0 0 0.295 = .ok s₀ ∧
    s₀.clearFlags = s ∧ s.stored? ⟨0, 0⟩ = some 29 ∧
    apply s s (.all (Surface.ofSize 16 16)) ⟨0, 0, 64, 1⟩ = .ok t ∧
    t.stored? ⟨0, 0⟩ = some 28 ∧ t.grid.Dirty (0, 0) := by
  obtain ⟨s₀, hset, hframe, hwritten⟩ := Surface.exists_set_lossy
  obtain ⟨s, hs⟩ : ∃ s, s₀.clearFlags = s := ⟨_, rfl⟩
  have hstored : s.stored? ⟨0, 0⟩ = some 29 := hs ▸ hwritten
  have hextent : s.extent = (Surface.ofSize 16 16).extent := hs ▸ hframe.extent_eq
  have hfactor : s.grid.factor = Height.defaultFactor := hs ▸ hframe.factor_eq
  have hlevel : s.level ⟨0, 0⟩ = Height.ofStored 29 Height.defaultFactor := by
    rw [Surface.level_of_stored? hstored, hfactor]
  obtain ⟨t, ht, hpainted⟩ := exists_apply s s (.all (Surface.ofSize 16 16)) ⟨0, 0, 64, 1⟩
  have hlost : t.stored? ⟨0, 0⟩ = some 28 := by
    have hreached : (⟨0, 0⟩ : Point) ∈ points s ⟨0, 0, 64, 1⟩ := by
      rw [points, hextent]
      decide +kernel
    rw [hpainted.stored_eq, if_pos ⟨hreached, by decide +kernel⟩, hstored, Option.map_some,
      Surface.repaint, rule, hlevel, hfactor]
    decide +kernel
  have hchanged : t.stored? ⟨0, 0⟩ ≠ s.stored? ⟨0, 0⟩ := by
    rw [hlost, hstored]
    decide
  exact ⟨s₀, s, t, hset, hs, hstored, ht, hlost,
    (hpainted.dirty_iff _).mpr (.inr ⟨⟨0, 0⟩, hchanged, rfl⟩)⟩

end Terrain
