import Terrain.Brush
import Terrain.Proofs.Height
import Terrain.Proofs.Number.Grain
import Terrain.Proofs.Number.Limits

/-!
# Computed distances

The distance of a point from the center of a stroke is computed with six roundings, each of which moves
its real by a fixed part of the largest real around. So a computed distance is the distance in the
plane up to a fixed part of it (`abs_roundedDistance_sub_le`), unless the point is very close to the
center. A distance that is not finite comes from a center that is not, or that is too far away.
-/

namespace Terrain

open Number

/-- The distance of a point from another point of the plane. -/
noncomputable def Point.distanceTo (p : Point) (x y : ℝ) : ℝ :=
  √((p.x.toInt - x) ^ 2 + (p.y.toInt - y) ^ 2)

/-! ### Six roundings -/

/-- A rounded difference that is squared and rounded again. -/
lemma abs_round_mul_self_sub_le {a b : ℝ} (ha : |a| ≤ b) (hb : 1 ≤ b) :
    |double.round (double.round a * double.round a) - a ^ 2| ≤ 5 * grain * b ^ 2 := by
  have hmove := abs_round_sub_le_grain ha hb
  generalize double.round a = r at hmove ⊢
  have hb2 : 1 ≤ b ^ 2 := one_le_pow₀ hb
  have hpart := grain_mul_nonneg (sq_nonneg b)
  have hsmall := grain_mul_le (sq_nonneg b)
  have hr : |r| ≤ b + grain * b := by
    calc |r| = |a + (r - a)| := by rw [add_sub_cancel]
      _ ≤ |a| + |r - a| := abs_add_le _ _
      _ ≤ b + grain * b := add_le_add ha hmove
  have hsquare : |r * r - a ^ 2| ≤ 3 * grain * b ^ 2 := by
    calc |r * r - a ^ 2| = |r - a| * |r + a| := by
          rw [← abs_mul]
          ring_nf
      _ ≤ grain * b * (b + grain * b + b) :=
        mul_le_mul hmove ((abs_add_le _ _).trans (add_le_add hr ha)) (abs_nonneg _)
          (grain_mul_nonneg (by linarith))
      _ = grain * b ^ 2 * (2 + grain) := by ring
      _ ≤ grain * b ^ 2 * 3 := by
        gcongr
        linarith [grain_le]
      _ = 3 * grain * b ^ 2 := by ring
  have hlarge : |r * r| ≤ 2 * b ^ 2 := by
    have habs := abs_sub_abs_le_abs_sub (r * r) (a ^ 2)
    have ha2 : |a ^ 2| ≤ b ^ 2 := by
      rw [abs_pow]
      exact pow_le_pow_left₀ (abs_nonneg a) ha 2
    linarith
  calc |double.round (r * r) - a ^ 2|
      ≤ |double.round (r * r) - r * r| + |r * r - a ^ 2| := abs_sub_le _ _ _
    _ ≤ grain * (2 * b ^ 2) + 3 * grain * b ^ 2 :=
      add_le_add (abs_round_sub_le_grain hlarge (by linarith)) hsquare
    _ = 5 * grain * b ^ 2 := by ring

/-- A root moves by no larger part of it than the number under it. -/
lemma abs_sqrt_sub_le {s d c : ℝ} (hs : 0 ≤ s) (hd : 0 < d) (h : |s - d ^ 2| ≤ c * d ^ 2) :
    |√s - d| ≤ c * d := by
  have hfactor : |s - d ^ 2| = |√s - d| * (√s + d) := by
    rw [← abs_of_nonneg (add_nonneg (Real.sqrt_nonneg s) hd.le), ← abs_mul, ← Real.sq_sqrt hs,
      Real.sqrt_sq (Real.sqrt_nonneg s)]
    ring_nf
  have hle : |√s - d| * d ≤ c * d * d :=
    calc |√s - d| * d ≤ |√s - d| * (√s + d) :=
          mul_le_mul_of_nonneg_left (le_add_of_nonneg_left (Real.sqrt_nonneg s)) (abs_nonneg _)
      _ ≤ c * d ^ 2 := hfactor ▸ h
      _ = c * d * d := by ring
  exact le_of_mul_le_mul_right hle hd

/-- The distance of a point from a center, of which the differences of the coordinates are given, as
it is computed. -/
noncomputable def roundedDistance (a b : ℝ) : ℝ :=
  double.round √(double.round (double.round (double.round a * double.round a) +
    double.round (double.round b * double.round b)))

/-- A computed distance differs from the distance by a fixed part of it at most. -/
lemma abs_roundedDistance_sub_le {a b : ℝ} (h : 1 ≤ √(a ^ 2 + b ^ 2)) :
    |roundedDistance a b - √(a ^ 2 + b ^ 2)| ≤ 16 * grain * √(a ^ 2 + b ^ 2) := by
  have hsum : √(a ^ 2 + b ^ 2) ^ 2 = a ^ 2 + b ^ 2 := Real.sq_sqrt (by positivity)
  have ha : |a| ≤ √(a ^ 2 + b ^ 2) := Real.abs_le_sqrt (le_add_of_nonneg_right (sq_nonneg b))
  have hb : |b| ≤ √(a ^ 2 + b ^ 2) := Real.abs_le_sqrt (le_add_of_nonneg_left (sq_nonneg a))
  have hx := abs_round_mul_self_sub_le ha h
  have hy := abs_round_mul_self_sub_le hb h
  have hx0 := double.round_nonneg (mul_self_nonneg (double.round a))
  have hy0 := double.round_nonneg (mul_self_nonneg (double.round b))
  rw [roundedDistance]
  generalize √(a ^ 2 + b ^ 2) = d at *
  generalize double.round (double.round a * double.round a) = x at *
  generalize double.round (double.round b * double.round b) = y at *
  have hd2 : 1 ≤ d ^ 2 := one_le_pow₀ h
  have hpart := grain_mul_nonneg (zero_le_one.trans h)
  have hsmall := grain_mul_le (zero_le_one.trans h)
  have hsmall2 := grain_mul_le (sq_nonneg d)
  rw [abs_le] at hx hy
  have hxy : |x + y| ≤ 2 * d ^ 2 := by
    rw [abs_of_nonneg (add_nonneg hx0 hy0)]
    linarith
  have hrounded := abs_round_sub_le_grain hxy (by linarith)
  have hs0 := double.round_nonneg (add_nonneg hx0 hy0)
  generalize double.round (x + y) = s at *
  rw [abs_le] at hrounded
  have hs : |s - d ^ 2| ≤ 12 * grain * d ^ 2 := by
    rw [abs_le]
    constructor <;> linarith
  have hroot := abs_sqrt_sub_le hs0 (by linarith) hs
  have hlarge : |√s| ≤ 2 * d := by
    have habs := abs_sub_abs_le_abs_sub (√s) d
    rw [abs_of_pos (by linarith : 0 < d)] at habs
    linarith
  calc |double.round √s - d| ≤ |double.round √s - √s| + |√s - d| := abs_sub_le _ _ _
    _ ≤ grain * (2 * d) + 12 * grain * d :=
      add_le_add (abs_round_sub_le_grain hlarge (by linarith)) hroot
    _ ≤ 16 * grain * d := by linarith

/-! ### Finite distances -/

/-- The center of a stroke is a point of the plane. -/
structure Stroke.CenteredAt (stroke : Stroke) (cx cy : ℝ) : Prop where
  x : Stands stroke.x cx
  y : Stands stroke.y cy

/-- A difference of coordinates with a finite square. -/
lemma exists_stands_difference {n : Int32} {c : Float}
    (h : ((doubleOfInt32 n - c) * (doubleOfInt32 n - c)).isFinite = true) :
    ∃ γ, Stands c γ ∧ |γ| < 2 ^ (513 : ℤ) ∧
      Stands ((doubleOfInt32 n - c) * (doubleOfInt32 n - c))
        (double.round (double.round (n.toInt - γ) * double.round (n.toInt - γ))) := by
  obtain ⟨hdiff, -⟩ := isFinite_of_mul h
  obtain ⟨γ, hγ⟩ := exists_stands (isFinite_of_sub hdiff).2
  have hround := ((stands_doubleOfInt32 n).nearest_sub hγ).stands_of_isFinite hdiff
  have hsquare := (hround.nearest_mul hround).stands_of_isFinite h
  refine ⟨γ, hγ, ?_, hsquare⟩
  have hbound := abs_lt_of_abs_round_lt (by norm_num) hsquare.abs_lt
  have hpow : (2 : ℝ) ^ (1024 : ℤ) = 2 ^ (512 : ℤ) * 2 ^ (512 : ℤ) := by
    rw [← zpow_add₀ (by norm_num)]
    norm_num
  rw [hpow, abs_mul, ← sq, ← sq] at hbound
  have hlt := abs_lt_of_abs_round_lt (by norm_num) (lt_of_pow_lt_pow_left₀ 2 (by positivity) hbound)
  have hn : |(n.toInt : ℝ)| ≤ 2 ^ (512 : ℤ) :=
    calc |(n.toInt : ℝ)| ≤ 2 ^ (31 : ℤ) := by exact_mod_cast Height.abs_toInt_le n
      _ ≤ 2 ^ (512 : ℤ) := zpow_le_zpow_right₀ (by norm_num) (by norm_num)
  calc |γ| ≤ |(n.toInt : ℝ)| + |(n.toInt : ℝ) - γ| := by
        rw [← sub_sub_cancel (n.toInt : ℝ) γ]
        exact (abs_sub _ _).trans_eq (by rw [sub_sub_cancel])
    _ < 2 ^ (512 : ℤ) + 2 ^ (512 : ℤ) := add_lt_add_of_le_of_lt hn hlt
    _ = 2 ^ (513 : ℤ) := by
      rw [← two_mul, ← zpow_one_add₀ (by norm_num)]
      norm_num

lemma Stroke.exists_centeredAt {stroke : Stroke} {p : Point}
    (h : (stroke.distance p).isFinite = true) :
    ∃ cx cy, stroke.CenteredAt cx cy ∧ |cx| < 2 ^ (513 : ℤ) ∧ |cy| < 2 ^ (513 : ℤ) ∧
      Stands (stroke.distance p) (roundedDistance (p.x.toInt - cx) (p.y.toInt - cy)) := by
  have hsum := isFinite_of_sqrt h
  obtain ⟨hx, hy⟩ := isFinite_of_add hsum
  obtain ⟨cx, hcx, hcx', hdx⟩ := exists_stands_difference hx
  obtain ⟨cy, hcy, hcy', hdy⟩ := exists_stands_difference hy
  refine ⟨cx, cy, ⟨hcx, hcy⟩, hcx', hcy', ?_⟩
  have hadd := (hdx.nearest_add hdy).stands_of_isFinite hsum
  exact (hadd.nearest_sqrt (double.round_nonneg (add_nonneg (double.round_nonneg (mul_self_nonneg _))
    (double.round_nonneg (mul_self_nonneg _))))).stands_of_isFinite h

end Terrain
