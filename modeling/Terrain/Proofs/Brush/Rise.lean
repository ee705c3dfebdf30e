import Terrain.Proofs.Brush.Sides
import Terrain.Proofs.Height.Requantized
import Terrain.Proofs.Number.Limits
import Terrain.Proofs.Surface.Painting

/-!
# Raising does not lower

A dome adds a share of its duration to a height, and no rounding takes the sum below the height. What
is stored for the sum can be one less than what was stored before all the same, because the height of a
stored integer may be stored as the integer below: `Raise.apply_rises` says that nothing else is lost.
-/

namespace Terrain

open Number

namespace Height

variable {x y : Float} {a b : ℝ} {factor : Float32}

/-- The higher of two heights is not stored as a smaller integer. -/
lemma toInt_quantize_mono (hx : Stands x a) (hy : Stands y b) (h : a ≤ b) (hpos : 0 < factor)
    (hfin : factor.isFinite = true) : (quantize x factor).toInt ≤ (quantize y factor).toInt := by
  obtain ⟨r, hr, hlo, -⟩ := exists_denotes_of_pos hpos hfin
  have hr0 : 0 ≤ r := le_trans (by positivity) hlo
  rw [quantize, quantize, (hx.nearest_mul (stands_widen hr)).truncate_eq,
    (hy.nearest_mul (stands_widen hr)).truncate_eq]
  exact toInt_ofIntClamp_mono
    (towardZero_mono (double.round_mono (mul_le_mul_of_nonneg_right h hr0)))

end Height

namespace Raise

open Surface

variable {lib : MathLibrary} {s t : Surface} {mask : Mask} {stroke : Stroke} {r : Int32} {p : Point}

/-! ### The points of a dome -/

/-- The points that a dome looks at, if it has a box. -/
def points (lib : MathLibrary) (s : Surface) (stroke : Stroke) : List Point :=
  if radius lib stroke.strength ≤ 0 then []
  else (between s stroke (radius lib stroke.strength)).points

/-- On an addressable surface a dome goes through, and paints its points. -/
lemma exists_apply (hs : s.Addressable) (lib : MathLibrary) (mask : Mask) (stroke : Stroke) :
    ∃ t, apply lib s mask stroke = .ok t ∧
      s.Painted mask (raised? lib stroke (radius lib stroke.strength)) (points lib s stroke) t := by
  rw [apply, points]
  simp only [box_of_addressable hs, ok_bind]
  split_ifs
  · exact ⟨s, rfl, painted_nil s mask _⟩
  · exact exists_paint (fun _ _ => rfl) (Extent.nodup_points _) s mask

/-- A dome that goes through paints its points, however large the surface is. -/
lemma painted_of_apply (h : apply lib s mask stroke = .ok t) :
    s.Painted mask (raised? lib stroke (radius lib stroke.strength)) (points lib s stroke) t := by
  by_cases hs : s.Addressable
  · obtain ⟨t', ht', hpainted⟩ := exists_apply hs lib mask stroke
    exact Except.ok.inj (ht'.symm.trans h) ▸ hpainted
  · rw [apply] at h
    simp only [box_of_not_addressable hs, error_bind] at h
    split_ifs at h with hr
    obtain rfl := Except.ok.inj h
    rw [points, if_pos hr]
    exact painted_nil s mask _

/-- The points of a dome depend on the sizes of the surface alone. -/
lemma points_congr (h : s.SameFrame t) (lib : MathLibrary) (stroke : Stroke) :
    points lib t stroke = points lib s stroke := by
  have hwidth : t.width = s.width := congrArg Int32.ofNat h.width_eq
  have hheight : t.height = s.height := congrArg Int32.ofNat h.height_eq
  simp only [points, between, Surface.extent, hwidth, hheight]

/-! ### Raised heights -/

variable {height : Float} {a : ℝ}

/-- What a dome adds to a height. -/
lemma eq_add_of_raised? {new : Float} (h : raised? lib stroke r p height = some new) :
    0 < share lib stroke r p ∧ new = height + share lib stroke r p * stroke.duration := by
  rw [raised?] at h
  split_ifs at h with hshare
  exact ⟨hshare, (Option.some.inj h).symm⟩

/-- A finite height that a dome gives is not below the height that it started from. -/
lemma exists_stands_raised {new : Float} (h : raised? lib stroke r p height = some new)
    (hnew : new.isFinite = true) (hduration : 0 ≤ stroke.duration) (hheight : Stands height a) :
    ∃ b, Stands new b ∧ a ≤ b := by
  obtain ⟨hshare, rfl⟩ := eq_add_of_raised? h
  obtain ⟨-, hproduct⟩ := isFinite_of_add hnew
  obtain ⟨hshareFinite, hdurationFinite⟩ := isFinite_of_mul hproduct
  obtain ⟨σ, hσ⟩ := exists_stands hshareFinite
  obtain ⟨δ, hδ⟩ := exists_stands hdurationFinite
  have hσ0 : 0 < σ := (stands_zero.lt hσ).mp hshare
  have hδ0 : 0 ≤ δ := (stands_zero.le hδ).mp hduration
  have hrise := (hσ.nearest_mul hδ).stands_of_isFinite hproduct
  have hrise0 := double.round_nonneg (mul_nonneg hσ0.le hδ0)
  refine ⟨_, (hheight.nearest_add hrise).stands_of_isFinite hnew, ?_⟩
  calc a = double.round a := hheight.round_eq.symm
    _ ≤ double.round (a + double.round (σ * δ)) := double.round_mono (le_add_of_nonneg_right hrise0)

/-- A dome that takes no time adds nothing to a height. -/
lemma stands_rise_zero {new : Float} (h : raised? lib stroke r p height = some new)
    (hnew : new.isFinite = true) (hduration : Stands stroke.duration 0) :
    Stands (share lib stroke r p * stroke.duration) 0 := by
  obtain ⟨-, rfl⟩ := eq_add_of_raised? h
  obtain ⟨-, hproduct⟩ := isFinite_of_add hnew
  obtain ⟨σ, hσ⟩ := exists_stands (isFinite_of_mul hproduct).1
  have hrise := (hσ.nearest_mul hduration).stands_of_isFinite hproduct
  rwa [mul_zero, double.round_zero] at hrise

lemma repaint_raised? {factor : Float32} {n : Int32} (hshare : 0 < share lib stroke r p)
    (hfinite : (Height.ofStored n factor + share lib stroke r p * stroke.duration).isFinite = true) :
    repaint (raised? lib stroke r p) factor n =
      Height.quantize (Height.ofStored n factor + share lib stroke r p * stroke.duration) factor := by
  have hraised : raised? lib stroke r p (Height.ofStored n factor) =
      some (Height.ofStored n factor + share lib stroke r p * stroke.duration) := if_pos hshare
  rw [repaint, hraised]
  exact if_pos hfinite

/-- A stored integer that a dome changes is raised by the share of its point. -/
lemma repaint_raised?_eq {factor : Float32} (lib : MathLibrary) (stroke : Stroke) (r : Int32)
    (p : Point) (n : Int32) :
    repaint (raised? lib stroke r p) factor n = n ∨ (0 < share lib stroke r p ∧
      repaint (raised? lib stroke r p) factor n = Height.quantize
        (Height.ofStored n factor + share lib stroke r p * stroke.duration) factor) := by
  refine (repaint_cases (raised? lib stroke r p) factor n).imp_right ?_
  rintro ⟨new, hrule, -, heq⟩
  obtain ⟨hshare, rfl⟩ := eq_add_of_raised? hrule
  exact ⟨hshare, heq⟩

/-- What a dome makes of a stored integer is not below what the integer is stored as again. -/
lemma le_repaint_raised? {factor : Float32} (n : Int32) (hpos : 0 < factor)
    (hfin : factor.isFinite = true) (hduration : 0 ≤ stroke.duration) :
    repaint (raised? lib stroke r p) factor n = n ∨
      (Height.quantize (Height.ofStored n factor) factor).toInt ≤
        (repaint (raised? lib stroke r p) factor n).toInt := by
  obtain ⟨a, ha⟩ := Height.exists_stands_ofStored n hpos hfin
  refine (repaint_cases (raised? lib stroke r p) factor n).imp_right ?_
  rintro ⟨new, hrule, hnew, heq⟩
  obtain ⟨b, hb, hab⟩ := exists_stands_raised hrule hnew hduration ha
  rw [heq]
  exact Height.toInt_quantize_mono ha hb hab hpos hfin

/-- A dome that takes no time makes of a stored integer at most what that is stored as again. -/
lemma repaint_raised?_of_zero {factor : Float32} (n : Int32) (hpos : 0 < factor)
    (hfin : factor.isFinite = true) (hduration : Stands stroke.duration 0) :
    repaint (raised? lib stroke r p) factor n = n ∨
      repaint (raised? lib stroke r p) factor n =
        Height.quantize (Height.ofStored n factor) factor := by
  refine (repaint_cases (raised? lib stroke r p) factor n).imp_right ?_
  rintro ⟨new, hrule, hnew, heq⟩
  have hz := stands_rise_zero hrule hnew hduration
  rw [heq, (eq_add_of_raised? hrule).2]
  exact Height.quantize_ofStored_add n hpos hfin hz

/-- A dome loses one unit of a positive stored height at most, and only where the height of the
integer is stored as the integer below it. -/
lemma toInt_le_repaint_raised? {factor : Float32} (n : Int32) (hpos : 0 < factor)
    (hfin : factor.isFinite = true) (hduration : 0 ≤ stroke.duration) :
    n.toInt ≤ (repaint (raised? lib stroke r p) factor n).toInt ∨
      (0 < n.toInt ∧ (repaint (raised? lib stroke r p) factor n).toInt = n.toInt - 1 ∧
        repaint (raised? lib stroke r p) factor n =
          Height.quantize (Height.ofStored n factor) factor) := by
  rcases le_repaint_raised? n hpos hfin hduration (r := r) (p := p) with hsame | hle
  · exact .inl (by rw [hsame])
  · rcases Height.quantize_ofStored n hpos hfin with hagain | hagain
    · exact .inl (by rwa [hagain] at hle)
    · rcases lt_trichotomy n.toInt 0 with hn | hn | hn
      · rw [Int.sign_eq_neg_one_of_neg hn] at hagain
        exact .inl (by omega)
      · rw [hn, Int.sign_zero] at hagain
        exact .inl (by omega)
      · rw [Int.sign_eq_one_of_pos hn] at hagain
        rcases hle.lt_or_eq with hlt | heq
        · exact .inl (by omega)
        · exact .inr ⟨hn, by omega, (Int32.toInt_inj.mp heq).symm⟩

end Raise

/-- A dome that takes some time, or none, does not lower the terrain, except that a positive stored
height loses one where its own height is stored as the integer below it. A dome that takes no time
leaves every cell as it was or as its own height is stored. The patches of the cells that changed
become dirty, and no others. All this holds of every dome that goes through, whatever the cosine and the
power of two are computed as, and a dome does go through if the sizes of the surface are coordinates. -/
theorem Raise.apply_rises (lib : MathLibrary) (s : Surface) (mask : Mask) (stroke : Stroke)
    (hpos : 0 < s.grid.factor) (hfin : s.grid.factor.isFinite = true) (hduration : 0 ≤ stroke.duration)
    (hfinite : stroke.duration.isFinite = true) :
    (s.Addressable → ∃ t, apply lib s mask stroke = .ok t) ∧
    ∀ t, apply lib s mask stroke = .ok t → s.SameFrame t ∧
      (∀ p n, s.stored? p = some n → ∃ m, t.stored? p = some m ∧
        (n.toInt ≤ m.toInt ∨ (0 < n.toInt ∧ m.toInt = n.toInt - 1 ∧
          m = Height.quantize (Height.ofStored n s.grid.factor) s.grid.factor)) ∧
        ((stroke.duration == 0) = true →
          m = n ∨ m = Height.quantize (Height.ofStored n s.grid.factor) s.grid.factor)) ∧
      ∀ P, t.grid.Dirty P ↔ s.grid.Dirty P ∨ ∃ p, t.stored? p ≠ s.stored? p ∧ P = p.patch := by
  refine ⟨fun hs => ?_, fun t ht => ?_⟩
  · obtain ⟨t, ht, -⟩ := exists_apply hs lib mask stroke
    exact ⟨t, ht⟩
  have hpainted := painted_of_apply ht
  obtain ⟨δ, hδ⟩ := exists_stands hfinite
  refine ⟨hpainted.frame, fun p n hp => ?_, hpainted.dirty_iff⟩
  have hstored := hpainted.stored_eq p
  rw [hp] at hstored
  split_ifs at hstored with hreached
  · refine ⟨_, hstored, toInt_le_repaint_raised? n hpos hfin hduration, fun hzero => ?_⟩
    obtain rfl := (hδ.beq stands_zero).mp hzero
    exact repaint_raised?_of_zero n hpos hfin hδ
  · exact ⟨n, hstored, .inl le_rfl, fun _ => .inl rfl⟩

/-- A default height under a dome. -/
theorem Raise.apply_rises_flat : ∃ t m,
    apply .nearest (Surface.flat 16 16) (.all (Surface.flat 16 16)) ⟨8, 8, 2, 0.5⟩ = .ok t ∧
      t.stored? ⟨8, 8⟩ = some m ∧ 2099 ≤ m.toInt := by
  obtain ⟨hok, hall⟩ := apply_rises .nearest (Surface.flat 16 16) (.all (Surface.flat 16 16))
    ⟨8, 8, 2, 0.5⟩ (by decide +kernel) (by decide +kernel) (by decide +kernel) (by decide +kernel)
  obtain ⟨t, ht⟩ := hok ⟨by decide, by decide⟩
  obtain ⟨-, hrises, -⟩ := hall t ht
  have hflat : (Surface.flat 16 16).stored? ⟨8, 8⟩ = some 2100 := by decide +kernel
  obtain ⟨m, hm, hle, -⟩ := hrises ⟨8, 8⟩ 2100 hflat
  have hn : (2100 : Int32).toInt = 2100 := rfl
  exact ⟨t, m, ht, hm, by omega⟩

/-- A dome may lower a cell, even one that takes no time: the 29 of a height of 0.29 becomes 28. -/
theorem Raise.not_apply_rises : ∃ s t, (Surface.ofSize 16 16).set 0 0 0.295 = .ok s ∧
    s.stored? ⟨0, 0⟩ = some 29 ∧
      apply .nearest s (.all (Surface.ofSize 16 16)) ⟨0, 0, 0, 0⟩ = .ok t ∧
      t.stored? ⟨0, 0⟩ = some 28 := by
  obtain ⟨s, hset, hframe, hs⟩ := Surface.exists_set_lossy
  have haddressable : s.Addressable := hframe.addressable ⟨by decide, by decide⟩
  obtain ⟨t, ht, hpainted⟩ :=
    exists_apply haddressable .nearest (.all (Surface.ofSize 16 16)) ⟨0, 0, 0, 0⟩
  refine ⟨s, t, hset, hs, ht, ?_⟩
  have hfactor : s.grid.factor = Height.defaultFactor := hframe.factor_eq
  have hreached : (⟨0, 0⟩ : Point) ∈ points .nearest (Surface.ofSize 16 16) ⟨0, 0, 0, 0⟩ := by
    decide +kernel
  rw [hpainted.stored_eq, points_congr hframe, if_pos ⟨hreached, by decide +kernel⟩, hs, hfactor,
    Option.map_some]
  decide +kernel

end Terrain
