import Terrain.Proofs.Brush.Box

/-!
# The shape of a dome

Every cell whose computed distance is below the radius lies in the box: the distance is off by far
less than the quarter of a cell that the sides of the box leave (`Raise.mem_between_of_distance_lt`).
The box lists a point once. So each cell of the dome is raised just once, by the part of the duration
that the cosine of its angle gives it (`Raise.apply_dome`).
-/

namespace Terrain

open Number Surface

namespace Raise

variable {lib : MathLibrary} {s : Surface} {stroke : Stroke} {r : Int32} {p : Point} {cx cy : ℝ}

/-! ### All of the dome is in the box -/

/-- A point whose computed distance is below the radius is hardly further away on any axis. -/
lemma abs_lt_of_roundedDistance_lt {a b k : ℝ} (hk : 1 ≤ k) (hk' : k ≤ 2 ^ 31)
    (h : roundedDistance a b < k) : |a| < k + 1 / 4 ∧ |b| < k + 1 / 4 := by
  have ha : |a| ≤ √(a ^ 2 + b ^ 2) := Real.abs_le_sqrt (le_add_of_nonneg_right (sq_nonneg b))
  have hb : |b| ≤ √(a ^ 2 + b ^ 2) := Real.abs_le_sqrt (le_add_of_nonneg_left (sq_nonneg a))
  suffices hlt : √(a ^ 2 + b ^ 2) < k + 1 / 4 from ⟨ha.trans_lt hlt, hb.trans_lt hlt⟩
  rcases lt_or_ge √(a ^ 2 + b ^ 2) 1 with hsmall | hlarge
  · linarith
  · have herror := abs_le.mp (abs_roundedDistance_sub_le hlarge)
    rw [grain_eq] at herror
    generalize √(a ^ 2 + b ^ 2) = d at *
    by_contra! hfar
    norm_num at herror hk'
    linarith

lemma betweenSides_of_abs_lt {n : ℤ} {γ k : ℝ} {w : ℤ} (hn : 0 ≤ n) (hnw : n < w)
    (hw : w < 2 ^ 31 - 1) (h : |n - γ| < k + 1 / 4) : BetweenSides n γ k w := by
  obtain ⟨hlo, hhi⟩ := abs_lt.mp h
  have hside := neg_one_le_cellNear (γ - k) (w := w) (by omega)
  refine ⟨cellNear_le hn (by omega) (by linarith), le_cellNear hn (by omega) hnw.le (by linarith), ?_⟩
  omega

/-- The box leaves out no cell of the dome. -/
lemma mem_between_of_distance_lt (hw : s.width.toInt < 2 ^ 31 - 1) (hh : s.height.toInt < 2 ^ 31 - 1)
    (hr : 0 < r.toInt) (hp : p ∈ s.extent) (hdistance : stroke.distance p < doubleOfInt32 r) :
    p ∈ between s stroke r := by
  obtain ⟨cx, cy, hc, hcx, hcy, hstands⟩ :=
    Stroke.exists_centeredAt (isFinite_of_sqrt_lt hdistance)
  have hlt := (hstands.lt (stands_doubleOfInt32 r)).mp hdistance
  have hmax := r.toInt_lt
  obtain ⟨hx, hy⟩ := abs_lt_of_roundedDistance_lt (by exact_mod_cast hr)
    (by exact_mod_cast hmax.le) hlt
  obtain ⟨⟨hpx, hpx'⟩, hpy, hpy'⟩ := Surface.mem_extent_iff.mp hp
  exact (mem_between_iff hc hcx hcy hp).mpr
    ⟨betweenSides_of_abs_lt hpx hpx' hw hx, betweenSides_of_abs_lt hpy hpy' hh hy⟩

lemma toInt_lt_max {n : Int32} (h : n ≠ Int32.maxValue) : n.toInt < 2 ^ 31 - 1 := by
  have hlt := n.toInt_lt
  have hne : n.toInt ≠ 2 ^ 31 - 1 := fun heq => h (Int32.toInt_inj.mp heq)
  omega

end Raise

/-- The box of a dome does not clip it, whatever the cosine and the power of two are computed as. A cell
that the mask allows, whose computed distance is below the radius and whose share is positive stores the
sum of its height and its part of the duration, if that is finite. Every cell is as it was or was raised
once. This holds of every dome that goes through, which is the case if the sizes of the surface are
coordinates. (No size of whole patches is the largest coordinate. On an axis of that size, a box that
starts before the first cell ends before the last.) -/
theorem Raise.apply_dome (lib : MathLibrary) (s : Surface) (mask : Mask) (stroke : Stroke)
    (hwidth : s.width ≠ Int32.maxValue) (hheight : s.height ≠ Int32.maxValue)
    (hr : 0 < radius lib stroke.strength) :
    (s.Addressable → ∃ t, apply lib s mask stroke = .ok t) ∧
    ∀ t, apply lib s mask stroke = .ok t → s.SameFrame t ∧
      (∀ p h, p ∈ s.extent → s.get p.x p.y = .ok h → mask.allows p = true →
        stroke.distance p < doubleOfInt32 (radius lib stroke.strength) →
        0 < share lib stroke (radius lib stroke.strength) p →
        (h + share lib stroke (radius lib stroke.strength) p * stroke.duration).isFinite = true →
        t.stored? p = some (Height.quantize
          (h + share lib stroke (radius lib stroke.strength) p * stroke.duration) s.grid.factor)) ∧
      ∀ p h, s.get p.x p.y = .ok h → t.stored? p = s.stored? p ∨
        (mask.allows p = true ∧ 0 < share lib stroke (radius lib stroke.strength) p ∧
          t.stored? p = some (Height.quantize
            (h + share lib stroke (radius lib stroke.strength) p * stroke.duration)
            s.grid.factor)) := by
  refine ⟨fun hs => ?_, fun t ht => ?_⟩
  · obtain ⟨t, ht, -⟩ := exists_apply hs lib mask stroke
    exact ⟨t, ht⟩
  have hpainted := painted_of_apply ht
  have hpos : 0 < (radius lib stroke.strength).toInt := Int32.lt_iff_toInt_lt.mp hr
  refine ⟨hpainted.frame, fun p h hp hget hallows hdistance hshare hfinite => ?_,
    fun p h hget => ?_⟩
  · obtain ⟨n, hn⟩ := Surface.exists_stored? hp
    obtain rfl := Surface.eq_ofStored_of_get hget hn
    have hbetween := mem_between_of_distance_lt (toInt_lt_max hwidth) (toInt_lt_max hheight) hpos hp
      hdistance
    have hpoints : p ∈ points lib s stroke := by
      rw [points, if_neg (by rw [Int32.le_iff_toInt_le]; exact not_le.mpr hpos)]
      exact Extent.mem_points.mpr hbetween
    rw [hpainted.stored_eq, if_pos ⟨hpoints, hallows⟩, hn, Option.map_some,
      repaint_raised? hshare hfinite]
  · rw [hpainted.stored_eq]
    split_ifs with hreached
    · cases hn : s.stored? p with
      | none => exact .inl rfl
      | some n =>
        obtain rfl := Surface.eq_ofStored_of_get hget hn
        rw [Option.map_some]
        rcases repaint_raised?_eq lib stroke (radius lib stroke.strength) p n with
          hsame | ⟨hshare, hraised⟩
        · exact .inl (by rw [hsame])
        · exact .inr ⟨hreached.2, hshare, by rw [hraised]⟩
    · exact .inl rfl

/-- The center of a dome between four cells of flat terrain. -/
theorem Raise.apply_dome_flat : ∃ t,
    apply .nearest (Surface.flat 16 16) (.all (Surface.flat 16 16)) ⟨7.5, 7.5, 2, 3⟩ = .ok t ∧
      t.stored? ⟨8, 7⟩ = some 2388 := by
  obtain ⟨hok, hall⟩ := apply_dome .nearest (Surface.flat 16 16) (.all (Surface.flat 16 16))
    ⟨7.5, 7.5, 2, 3⟩ (by decide) (by decide) (by decide +kernel)
  obtain ⟨t, ht⟩ := hok ⟨by decide, by decide⟩
  obtain ⟨-, hdome, -⟩ := hall t ht
  refine ⟨t, ht, ?_⟩
  have hcell := hdome ⟨8, 7⟩ ((Surface.flat 16 16).level ⟨8, 7⟩) (by decide) (Surface.get_eq_level _ _)
    (by decide +kernel) (by decide +kernel) (by decide +kernel) (by decide +kernel)
  rw [hcell]
  decide +kernel

end Terrain
