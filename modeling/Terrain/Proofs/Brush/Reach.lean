import Terrain.Proofs.Brush.Dome
import Terrain.Proofs.Number.Cosine

/-!
# How far a dome reaches

No test compares a distance with the radius. Beyond the radius a cell is left alone because the cosine
of its angle is not positive, up to three times the radius, where the cosine becomes positive again. The
box keeps all cells closer than that, with one exception: a dome of radius one before the first cell
of both axes. There the sides of the box, cut towards zero, reach one and a half cells too far
(`Raise.apply_near`).
-/

namespace Terrain

open Number Surface

namespace Raise

variable {lib : MathLibrary} {s : Surface} {stroke : Stroke} {r : Int32} {p : Point} {cx cy : ℝ}

/-! ### Angles -/

/-- The number that angles are computed with in place of `π`. -/
noncomputable def halfTurnReal : ℝ := (884279719003555 : ℕ) / (2 ^ 48 : ℕ)

lemma stands_halfTurn : Stands halfTurn halfTurnReal := by
  refine ⟨false, 7074237752028440, -51, by decide, ?_⟩
  norm_num [signed, halfTurnReal]

lemma stands_two_mul (r : Int32) : Stands (2 * doubleOfInt32 r) (2 * r.toInt) := by
  have hlo := r.le_toInt
  have hhi := r.toInt_lt
  have hexact : double.round (2 * r.toInt) = 2 * r.toInt := by
    have hround := double.round_intCast_mul_zpow (n := 2 * r.toInt) (e := 0)
      (by simp only [double]; omega) (by decide)
    rw [zpow_zero, mul_one] at hround
    exact_mod_cast hround
  have hlt : |(2 * r.toInt : ℝ)| < 2 ^ (33 : ℤ) := by
    have habs : |2 * r.toInt| < 2 ^ 33 := by
      rw [abs_lt]
      omega
    exact_mod_cast habs
  have hmul := stands_two.mul (stands_doubleOfInt32 r)
    (hlt.trans (zpow_lt_zpow_right₀ (by norm_num) (by norm_num)))
  rwa [hexact] at hmul

/-- The angle of a point at a computed distance, as it is computed. -/
noncomputable def roundedAngle (d k : ℝ) : ℝ :=
  double.round (double.round (d * halfTurnReal) / ((2 : ℕ) * k))

lemma roundedAngle_eq (d k : ℝ) :
    roundedAngle d k = double.round (double.round (d * halfTurnReal) / (2 * k)) := by
  rw [roundedAngle, Nat.cast_ofNat]

/-- A cell that a dome raises has a center to be away from, and an angle. -/
lemma exists_stands_angle (hcosine : lib.SignedCosine) (hr : 0 < r.toInt)
    (h : 0 < share lib stroke r p) :
    ∃ cx cy, stroke.CenteredAt cx cy ∧ |cx| < 2 ^ (513 : ℤ) ∧ |cy| < 2 ^ (513 : ℤ) ∧
      Stands (stroke.distance p * halfTurn / (2 * doubleOfInt32 r))
        (roundedAngle (roundedDistance (p.x.toInt - cx) (p.y.toInt - cy)) r.toInt) := by
  have hangle := hcosine.isFinite h
  have hproduct := isFinite_of_div hangle
  obtain ⟨cx, cy, hc, hcx, hcy, hdistance⟩ :=
    Stroke.exists_centeredAt (isFinite_of_mul hproduct).1
  have hr0 : (2 * r.toInt : ℝ) ≠ 0 := by
    have : (0 : ℝ) < r.toInt := by exact_mod_cast hr
    positivity
  have hmul := (hdistance.nearest_mul stands_halfTurn).stands_of_isFinite hproduct
  refine ⟨cx, cy, hc, hcx, hcy, ?_⟩
  rw [roundedAngle_eq]
  exact (hmul.nearest_div (stands_two_mul r) hr0).stands_of_isFinite hangle

/-- The product of a computed distance with the number in place of `π`, rounded. -/
lemma abs_round_mul_halfTurn_sub_le {d e : ℝ} (hd : 1 ≤ d) (he : |e - d| ≤ 16 * grain * d) :
    |double.round (e * halfTurnReal) - e * halfTurnReal| ≤ grain * (e * halfTurnReal) := by
  have hg := grain_le
  have he' := (abs_le.mp he).1
  have hturn : (3 : ℝ) ≤ halfTurnReal := by norm_num [halfTurnReal]
  have hmove : 16 * grain * d ≤ 16 / 1000 * d := by
    gcongr
    linarith
  have hlarge : 1 ≤ e * halfTurnReal :=
    calc (1 : ℝ) ≤ 1 / 2 * 3 := by norm_num
      _ ≤ e * halfTurnReal := mul_le_mul (by linarith) hturn (by norm_num) (by linarith)
  exact abs_round_sub_le_grain (abs_of_nonneg (by linarith)).le hlarge

/-- The angle of a distance that is a little more than the radius is more than a right angle. -/
lemma le_roundedAngle {d e k : ℝ} (hk : 1 ≤ k) (hd : k * (1 + 32 * grain) ≤ d)
    (he : |e - d| ≤ 16 * grain * d) : 15707963267948967 / 10 ^ 16 ≤ roundedAngle e k := by
  have hg := grain_pos
  have hg' := grain_le
  have hturn : 0 < halfTurnReal := by norm_num [halfTurnReal]
  have hproduct := abs_le.mp (abs_round_mul_halfTurn_sub_le (by nlinarith) he)
  have he' := abs_le.mp he
  have hquotient : (1 - grain) * (1 - 16 * grain) * (1 + 32 * grain) * (halfTurnReal / 2) ≤
      double.round (e * halfTurnReal) / (2 * k) := by
    rw [le_div_iff₀ (by linarith)]
    calc (1 - grain) * (1 - 16 * grain) * (1 + 32 * grain) * (halfTurnReal / 2) * (2 * k)
        = (1 - grain) * ((1 - 16 * grain) * (k * (1 + 32 * grain)) * halfTurnReal) := by ring
      _ ≤ (1 - grain) * ((1 - 16 * grain) * d * halfTurnReal) := by
        gcongr <;> linarith
      _ ≤ (1 - grain) * (e * halfTurnReal) := by
        gcongr <;> linarith
      _ ≤ double.round (e * halfTurnReal) := by linarith
  rw [roundedAngle_eq]
  generalize double.round (e * halfTurnReal) / (2 * k) = y at hquotient
  have hy : 15707963267948967 / 10 ^ 16 ≤ (1 - grain) * y := by
    calc (15707963267948967 / 10 ^ 16 : ℝ)
        ≤ (1 - grain) * ((1 - grain) * (1 - 16 * grain) * (1 + 32 * grain) * (halfTurnReal / 2)) := by
          norm_num [grain_eq, halfTurnReal]
      _ ≤ (1 - grain) * y := by
        gcongr
        linarith
  have hy1 : 1 ≤ y := by nlinarith
  have hround := abs_le.mp (abs_round_sub_le_grain (abs_of_nonneg (by linarith)).le hy1)
  linarith

/-- The angle of a distance that is a little less than three times the radius is less than three right
angles. -/
lemma roundedAngle_le {d e k : ℝ} (hk : 1 ≤ k) (hd : k ≤ d) (hd' : d ≤ 3 * k * (1 - 32 * grain))
    (he : |e - d| ≤ 16 * grain * d) : roundedAngle e k ≤ 47123889803846898 / 10 ^ 16 := by
  have hg := grain_pos
  have hg' := grain_le
  have hturn : 0 < halfTurnReal := by norm_num [halfTurnReal]
  have hproduct := abs_le.mp (abs_round_mul_halfTurn_sub_le (by linarith) he)
  have he' := abs_le.mp he
  obtain ⟨b, hb⟩ : ∃ b, b = (1 + grain) * (1 + 16 * grain) * (3 * (1 - 32 * grain)) *
    (halfTurnReal / 2) := ⟨_, rfl⟩
  have hb1 : 1 ≤ b := by
    rw [hb]
    norm_num [grain_eq, halfTurnReal]
  have hquotient : double.round (e * halfTurnReal) / (2 * k) ≤ b := by
    rw [hb, div_le_iff₀ (by linarith)]
    calc double.round (e * halfTurnReal) ≤ (1 + grain) * (e * halfTurnReal) := by linarith
      _ ≤ (1 + grain) * ((1 + 16 * grain) * d * halfTurnReal) := by
        gcongr
        linarith
      _ ≤ (1 + grain) * ((1 + 16 * grain) * (3 * k * (1 - 32 * grain)) * halfTurnReal) := by
        gcongr
      _ = (1 + grain) * (1 + 16 * grain) * (3 * (1 - 32 * grain)) * (halfTurnReal / 2) *
          (2 * k) := by ring
  have hpos : 0 ≤ double.round (e * halfTurnReal) / (2 * k) := by
    have he0 : 0 ≤ e * halfTurnReal := mul_nonneg (by nlinarith) hturn.le
    exact div_nonneg (double.round_nonneg he0) (by linarith)
  rw [roundedAngle_eq]
  have hround := abs_le.mp (abs_round_sub_le_grain ((abs_of_nonneg hpos).le.trans hquotient) hb1)
  calc double.round (double.round (e * halfTurnReal) / (2 * k)) ≤ (1 + grain) * b := by linarith
    _ ≤ 47123889803846898 / 10 ^ 16 := by
      rw [hb]
      norm_num [grain_eq, halfTurnReal]

/-! ### What is far away in the box -/

/-- A coordinate between the sides of a box is less than three halves further away than the radius, and
hardly more than a half unless it is the first one. -/
lemma BetweenSides.sq_sub_lt {n : ℤ} {γ k : ℝ} {w : ℤ} (h : BetweenSides n γ k w) (hn : 0 ≤ n)
    (hnw : n < w) (hw : w < 2 ^ 31) : (n - γ) ^ 2 < (k + 3 / 2) ^ 2 ∧
      ((n - γ) ^ 2 < (k + 1 / 2 + 1 / 512) ^ 2 ∨ n = 0 ∧ γ < -(k + 1 / 2)) := by
  obtain ⟨hlow, hhigh, -⟩ := h
  have hbefore := lt_of_cellNear_le hn (by omega) hnw hlow
  rcases hn.eq_or_lt with rfl | hpos
  · have hbehind := neg_lt_of_cellNear hhigh
    rw [Int.cast_zero] at hbefore ⊢
    refine ⟨sq_lt_sq' (by linarith) (by linarith), ?_⟩
    rcases lt_or_ge (-γ) (k + 1 / 2 + 1 / 512) with hnear | hfar
    · exact .inl (sq_lt_sq' (by linarith) (by linarith))
    · exact .inr ⟨rfl, by linarith⟩
  · have hbehind := lt_of_le_cellNear hn (by omega) hpos hhigh
    exact ⟨sq_lt_sq' (by linarith) (by linarith), .inl (sq_lt_sq' (by linarith) (by linarith))⟩

/-- A point of the box that is three times the radius away, or nearly, is the first cell, under a dome
of radius one whose center lies before it on both axes. -/
lemma eq_zero_of_far {k w h m n : ℤ} {x y : ℝ} (hk : 1 ≤ k) (hx : BetweenSides m x k w)
    (hy : BetweenSides n y k h) (hm : 0 ≤ m ∧ m < w) (hw : w < 2 ^ 31) (hn : 0 ≤ n ∧ n < h)
    (hh : h < 2 ^ 31) (hfar : (3 * k * (1 - 32 * grain)) ^ 2 < (m - x) ^ 2 + (n - y) ^ 2) :
    k = 1 ∧ (m = 0 ∧ x < -(3 / 2)) ∧ n = 0 ∧ y < -(3 / 2) := by
  obtain ⟨hx', hx⟩ := hx.sq_sub_lt hm.1 hm.2 hw
  obtain ⟨hy', hy⟩ := hy.sq_sub_lt hn.1 hn.2 hh
  have hk1 : (1 : ℝ) ≤ k := by exact_mod_cast hk
  have hlarge : 8 * (k : ℝ) ^ 2 + 3 / 5 * k < (m - x) ^ 2 + (n - y) ^ 2 := by
    refine lt_of_le_of_lt ?_ hfar
    rw [grain_eq]
    norm_num
    nlinarith
  obtain rfl : k = 1 := by
    by_contra hne
    have hk2 : (2 : ℝ) ≤ k := by exact_mod_cast (by omega : 2 ≤ k)
    nlinarith
  push_cast at hx' hx hy' hy hlarge
  norm_num at hx' hx hy' hy hlarge
  refine ⟨rfl, hx.resolve_left fun hnear => ?_, hy.resolve_left fun hnear => ?_⟩ <;> linarith

/-! ### The reach of a dome -/

/-- A cell that a dome raises is not between the radius and three times the radius away. -/
lemma near_or_far_of_share_pos (hcosine : lib.SignedCosine) (hr : 0 < r.toInt)
    (h : 0 < share lib stroke r p) :
    ∃ cx cy, stroke.CenteredAt cx cy ∧ |cx| < 2 ^ (513 : ℤ) ∧ |cy| < 2 ^ (513 : ℤ) ∧
      (p.distanceTo cx cy ≤ r.toInt * (1 + 32 * grain) ∨
        3 * r.toInt * (1 - 32 * grain) < p.distanceTo cx cy) := by
  obtain ⟨cx, cy, hc, hcx, hcy, hangle⟩ := exists_stands_angle hcosine hr h
  refine ⟨cx, cy, hc, hcx, hcy, ?_⟩
  by_contra! hbetween
  have hg := grain_pos
  have hk : (1 : ℝ) ≤ r.toInt := by exact_mod_cast hr
  have hd : (r.toInt : ℝ) ≤ p.distanceTo cx cy := by nlinarith
  have herror := abs_roundedDistance_sub_le (hk.trans hd)
  exact hcosine.not_pos hangle (le_roundedAngle hk hbetween.1.le herror)
    (roundedAngle_le hk hd hbetween.2 herror) h

/-- A point that a dome changes is in its box, and its share is positive. -/
lemma of_stored?_ne {mask : Mask} {t : Surface}
    (hpainted : s.Painted mask (raised? lib stroke (radius lib stroke.strength))
      (points lib s stroke) t)
    (hp : t.stored? p ≠ s.stored? p) : 0 < (radius lib stroke.strength).toInt ∧
      p ∈ between s stroke (radius lib stroke.strength) ∧
      0 < share lib stroke (radius lib stroke.strength) p := by
  rw [hpainted.stored_eq] at hp
  split_ifs at hp with hreached
  · obtain ⟨hpoints, -⟩ := hreached
    rw [points] at hpoints
    split_ifs at hpoints with hr
    · exact absurd hpoints List.not_mem_nil
    rw [Int32.le_iff_toInt_le] at hr
    refine ⟨not_le.mp hr, Extent.mem_points.mp hpoints, ?_⟩
    cases hn : s.stored? p with
    | none =>
      rw [hn] at hp
      exact absurd rfl hp
    | some n =>
      rw [hn, Option.map_some] at hp
      exact ((repaint_raised?_eq lib stroke _ p n).resolve_left fun hsame => hp (by rw [hsame])).1
  · exact absurd rfl hp

end Raise

/-- A dome that goes through changes no cell that is further away than its radius, up to a small part of
the radius for the rounding of distances and angles, if cosines have the right sign. The exception is
the first cell: a dome of radius one whose center is more than one and a half cells before it on both
axes may raise it from three cells away. A dome goes through if the sizes of the surface are
coordinates. -/
theorem Raise.apply_near (lib : MathLibrary) (hcosine : lib.SignedCosine) (s : Surface) (mask : Mask)
    (stroke : Stroke) :
    (s.Addressable → ∃ t, apply lib s mask stroke = .ok t) ∧
    ∀ t, apply lib s mask stroke = .ok t → s.SameFrame t ∧
      ∀ p, t.stored? p ≠ s.stored? p → ∃ cx cy, stroke.CenteredAt cx cy ∧
        (p.distanceTo cx cy ≤ (radius lib stroke.strength).toInt * (1 + 2 ^ (-47 : ℤ)) ∨
          (radius lib stroke.strength = 1 ∧ p = ⟨0, 0⟩ ∧ (cx < -(3 / 2) ∧ cy < -(3 / 2)) ∧
            3 * (1 - 2 ^ (-47 : ℤ)) < p.distanceTo cx cy)) := by
  refine ⟨fun hs => ?_, fun t ht => ?_⟩
  · obtain ⟨t, ht, -⟩ := exists_apply hs lib mask stroke
    exact ⟨t, ht⟩
  have hpainted := painted_of_apply ht
  refine ⟨hpainted.frame, fun p hp => ?_⟩
  obtain ⟨hr, hbetween, hshare⟩ := of_stored?_ne hpainted hp
  have hgrain : (2 : ℝ) ^ (-47 : ℤ) = 32 * grain := by
    rw [grain_eq]
    norm_num
  rw [hgrain]
  obtain ⟨cx, cy, hc, hcx, hcy, hnear | hfar⟩ := near_or_far_of_share_pos hcosine hr hshare
  · exact ⟨cx, cy, hc, .inl hnear⟩
  have hextent : p ∈ s.extent := (Extent.mem_inter.mp hbetween).2
  obtain ⟨hx, hy⟩ := Surface.mem_extent_iff.mp hextent
  obtain ⟨hsidesx, hsidesy⟩ := (mem_between_iff hc hcx hcy hextent).mp hbetween
  have hsq : (3 * (radius lib stroke.strength).toInt * (1 - 32 * grain)) ^ 2 <
      (p.x.toInt - cx) ^ 2 + (p.y.toInt - cy) ^ 2 := by
    have hg := grain_le
    have hr0 : (0 : ℝ) ≤ (radius lib stroke.strength).toInt := by exact_mod_cast hr.le
    exact (Real.lt_sqrt (mul_nonneg (by linarith) (by linarith))).mp hfar
  obtain ⟨hone, ⟨hpx, hcx'⟩, hpy, hcy'⟩ := eq_zero_of_far hr hsidesx hsidesy hx s.width.toInt_lt hy
    s.height.toInt_lt hsq
  refine ⟨cx, cy, hc, .inr ⟨Int32.toInt_inj.mp hone, Point.ext_toInt hpx hpy, ⟨hcx', hcy'⟩, ?_⟩⟩
  rwa [hone, Int.cast_one, mul_one] at hfar

/-- The corner of flat terrain is out of the reach of a dome around its middle. -/
theorem Raise.apply_near_flat : ∃ t,
    apply .nearest (Surface.flat 16 16) (.all (Surface.flat 16 16)) ⟨8, 8, 2, 5⟩ = .ok t ∧
      t.stored? ⟨15, 15⟩ = some 2100 := by
  obtain ⟨hok, hall⟩ := apply_near .nearest MathLibrary.signedCosine_nearest (Surface.flat 16 16)
    (.all (Surface.flat 16 16)) ⟨8, 8, 2, 5⟩
  obtain ⟨t, ht⟩ := hok ⟨by decide, by decide⟩
  obtain ⟨-, hnear⟩ := hall t ht
  refine ⟨t, ht, ?_⟩
  have hflat : (Surface.flat 16 16).stored? ⟨15, 15⟩ = some 2100 := by decide +kernel
  have hradius : radius .nearest 2 = 4 := by decide +kernel
  have hstands : Stands 8 8 := ⟨false, 4503599627370496, -49, by decide +kernel, by norm_num [signed]⟩
  rw [← hflat]
  by_contra hne
  obtain ⟨cx, cy, ⟨hcx, hcy⟩, hreach⟩ := hnear ⟨15, 15⟩ hne
  obtain rfl := hcx.unique hstands
  obtain rfl := hcy.unique hstands
  have hfour : (4 : Int32).toInt = 4 := rfl
  have hcorner : (15 : Int32).toInt = 15 := rfl
  have hdistance : (9 : ℝ) ≤ (⟨15, 15⟩ : Point).distanceTo 8 8 := by
    rw [Point.distanceTo, hcorner]
    exact Real.le_sqrt_of_sq_le (by norm_num)
  rw [hradius, hfour] at hreach
  rcases hreach with hle | ⟨hone, -⟩
  · norm_num at hle
    linarith
  · exact absurd hone (by decide)

/-- A dome of radius one may raise a cell that is more than three cells away. -/
theorem Raise.not_apply_near : ∃ t,
    apply .nearest (Surface.ofSize 16 16) (.all (Surface.ofSize 16 16)) ⟨-2.25, -2.25, 0, 1⟩ = .ok t ∧
      (⟨-2.25, -2.25, 0, 1⟩ : Stroke).CenteredAt (-9 / 4) (-9 / 4) ∧ radius .nearest 0 = 1 ∧
      3 < (⟨0, 0⟩ : Point).distanceTo (-9 / 4) (-9 / 4) ∧
      (Surface.ofSize 16 16).stored? ⟨0, 0⟩ = some 0 ∧ t.stored? ⟨0, 0⟩ = some 28 := by
  obtain ⟨t, ht, hpainted⟩ := exists_apply (s := Surface.ofSize 16 16) ⟨by decide, by decide⟩ .nearest
    (.all (Surface.ofSize 16 16)) ⟨-2.25, -2.25, 0, 1⟩
  have hstands : Stands (-2.25) (-9 / 4) :=
    ⟨true, 5066549580791808, -51, by decide +kernel, by norm_num [signed]⟩
  have hzero : (0 : Int32).toInt = 0 := rfl
  refine ⟨t, ht, ⟨hstands, hstands⟩, by decide +kernel, ?_, by decide +kernel, ?_⟩
  · rw [Point.distanceTo, hzero]
    exact Real.lt_sqrt_of_sq_lt (by norm_num)
  · rw [hpainted.stored_eq]
    decide +kernel

end Terrain
