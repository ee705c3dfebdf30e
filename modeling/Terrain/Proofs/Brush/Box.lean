import Terrain.Proofs.Brush.Distance
import Terrain.Proofs.Brush.Rise

/-!
# The box of a dome

A dome looks at the cells of a box around its center, of which the sides are computed: a place on an
axis is moved by a half, held between one cell before the first and one after the last, and cut to an
integer. Cutting rounds towards zero, which is up for a place before the first cell. So the box
reaches a half further than the radius, and around the first cell up to three halves
(`neg_lt_of_cellNear`).
-/

namespace Terrain

open Number

/-! ### Places on an axis -/

/-- The cell nearest to a place on an axis, as it is computed. -/
noncomputable def cellNear (place : ℝ) (cells : ℤ) : ℤ :=
  towardZero (min (max (double.round (double.round place + 1 / (2 : ℕ))) (-1)) cells)

lemma cellNear_eq (place : ℝ) (cells : ℤ) : cellNear place cells =
    towardZero (min (max (double.round (double.round place + 1 / 2)) (-1)) cells) := by
  rw [cellNear, Nat.cast_ofNat]

variable {x y : ℝ} {n w : ℤ}

lemma cellNear_mono (w : ℤ) (h : x ≤ y) : cellNear x w ≤ cellNear y w := by
  have hround := double.round_mono h
  exact towardZero_mono (min_le_min_right _ (max_le_max_right _ (double.round_mono (by linarith))))

/-- A place that is a multiple of a small part of the grid is not rounded. -/
lemma cellNear_grid {z : ℤ} (hz : z.natAbs < 2 ^ 52) (w : ℤ) :
    cellNear ((z : ℝ) / 1024) w = towardZero (min (max ((z + 512 : ℤ) / 1024 : ℝ) (-1)) w) := by
  have hgrid : ∀ k : ℤ, k.natAbs < 2 ^ 53 → double.round ((k : ℝ) / 1024) = k / 1024 := by
    intro k hk
    have hpow : (2 : ℝ) ^ (-10 : ℤ) = 1 / 1024 := by norm_num
    have h := double.round_intCast_mul_zpow (n := k) hk (e := -10) (by decide)
    rwa [hpow, mul_one_div] at h
  have hhalf : (z : ℝ) / 1024 + 1 / 2 = ((z + 512 : ℤ) : ℝ) / 1024 := by
    push_cast
    ring
  rw [cellNear_eq, hgrid z (by omega), hhalf, hgrid _ (by omega)]

section Cells

variable (hn : 0 ≤ n) (hn' : n < 2 ^ 31)

include hn hn'

/-- A cell that is not before the one nearest to a place is at most a half before the place. -/
lemma lt_of_cellNear_le (hw : n < w) (h : cellNear x w ≤ n) : x < n + 1 / 2 := by
  by_contra! hle
  have hgrid : ((1024 * n + 512 : ℤ) : ℝ) / 1024 ≤ x := by
    push_cast
    linarith
  have hmono := cellNear_mono w hgrid
  rw [cellNear_grid (by omega)] at hmono
  have hnext : n + 1 ≤ cellNear x w := by
    refine le_trans (le_towardZero ?_) hmono
    refine le_min (le_max_of_le_left ?_) (by exact_mod_cast hw)
    push_cast
    linarith
  omega

/-- A cell that is less than a quarter before a place is not before the one nearest to it. -/
lemma cellNear_le (h : x ≤ n + 1 / 4) : cellNear x w ≤ n := by
  have hgrid : x ≤ ((1024 * n + 256 : ℤ) : ℝ) / 1024 := by
    push_cast
    linarith
  have hmono := cellNear_mono w hgrid
  rw [cellNear_grid (by omega)] at hmono
  have hn0 : (0 : ℝ) ≤ n := by exact_mod_cast hn
  have hcut : towardZero (min (max ((1024 * n + 256 + 512 : ℤ) / 1024 : ℝ) (-1)) w) < n + 1 := by
    refine towardZero_lt (by omega) (min_lt_of_left_lt (max_lt ?_ ?_)) <;> push_cast <;> linarith
  omega

/-- A cell that is less than a quarter behind a place is not behind the one nearest to it. -/
lemma le_cellNear (hw : n ≤ w) (h : n - 1 / 4 ≤ x) : n ≤ cellNear x w := by
  have hgrid : ((1024 * n - 256 : ℤ) : ℝ) / 1024 ≤ x := by
    push_cast
    linarith
  have hmono := cellNear_mono w hgrid
  rw [cellNear_grid (by omega)] at hmono
  refine le_trans (le_towardZero (le_min (le_max_of_le_left ?_) (by exact_mod_cast hw))) hmono
  push_cast
  linarith

/-- A cell behind the first that is not behind the one nearest to a place is hardly more than a half
behind the place. -/
lemma lt_of_le_cellNear (hpos : 0 < n) (h : n ≤ cellNear x w) : n - 1 / 2 - 1 / 512 < x := by
  by_contra! hle
  have hgrid : x ≤ ((1024 * n - 514 : ℤ) : ℝ) / 1024 := by
    push_cast
    linarith
  have hmono := cellNear_mono w hgrid
  rw [cellNear_grid (by omega)] at hmono
  have hn1 : (1 : ℝ) ≤ n := by exact_mod_cast hpos
  have hcut : towardZero (min (max ((1024 * n - 514 + 512 : ℤ) / 1024 : ℝ) (-1)) w) < n := by
    refine towardZero_lt hpos (min_lt_of_left_lt (max_lt ?_ ?_)) <;> push_cast <;> linarith
  omega

end Cells

/-- The first cell may be the one nearest to a place up to three halves before it. -/
lemma neg_lt_of_cellNear (h : 0 ≤ cellNear x w) : -(3 / 2) < x := by
  by_contra! hle
  have hgrid : x ≤ ((-1536 : ℤ) : ℝ) / 1024 := by
    push_cast
    linarith
  have hmono := cellNear_mono w hgrid
  rw [cellNear_grid (by decide)] at hmono
  have hcut : towardZero (min (max ((-1536 + 512 : ℤ) / 1024 : ℝ) (-1)) w) ≤ -1 := by
    refine towardZero_le (min_le_of_left_le (max_le ?_ ?_)) <;> push_cast <;> norm_num
  omega

lemma neg_one_le_cellNear (x : ℝ) (hw : 0 ≤ w) : -1 ≤ cellNear x w := by
  refine le_towardZero (le_min ?_ ?_) <;> push_cast
  · exact le_max_right _ _
  · exact_mod_cast (by omega : -1 ≤ w)

/-! ### The sides of a box -/

namespace Raise

lemma stands_held {x low high : Float} {a l h : ℝ} (hx : Stands x a) (hl : Stands low l)
    (hh : Stands high h) : Stands (held x low high) (min (max a l) h) := by
  have hmax : Stands (if x < low then low else x) (max a l) := by
    simp only [hx.lt hl]
    split_ifs with hlow
    · rwa [max_eq_right hlow.le]
    · rwa [max_eq_left (not_lt.mp hlow)]
  rw [held]
  generalize (if x < low then low else x) = y at hmax
  simp only [hh.lt hmax]
  split_ifs with hhigh
  · rwa [min_eq_right hhigh.le]
  · rwa [min_eq_left (not_lt.mp hhigh)]

/-- A side of a box is the cell nearest to its place. -/
lemma toInt_side {place : Float} {x : ℝ} (hplace : Stands place (double.round x))
    (hx : |x| < 2 ^ (1000 : ℤ)) {cells : Int32} (hcells : 0 ≤ cells.toInt) :
    (side place cells).toInt = cellNear x cells.toInt := by
  have hround : |double.round x| ≤ 2 ^ (1000 : ℤ) := by
    rw [double.abs_round, ← round_two_zpow (by norm_num)]
    exact double.round_mono hx.le
  have hsum : |double.round x + 1 / 2| < 2 ^ (1023 : ℤ) :=
    calc |double.round x + 1 / 2| ≤ |double.round x| + |1 / 2| := abs_add_le _ _
      _ ≤ 2 ^ (1000 : ℤ) + 2 ^ (1000 : ℤ) := by
        refine add_le_add hround ?_
        rw [abs_of_pos (by norm_num)]
        exact le_trans (by norm_num) (one_le_zpow₀ (by norm_num) (by norm_num))
      _ = 2 ^ (1001 : ℤ) := by
        rw [← two_mul, ← zpow_one_add₀ (by norm_num)]
        norm_num
      _ < 2 ^ (1023 : ℤ) := zpow_lt_zpow_right₀ (by norm_num) (by norm_num)
  have hheld := stands_held ((hplace.nearest_add stands_half).stands hsum) stands_neg_one
    (stands_doubleOfInt32 cells)
  have hlo := neg_one_le_cellNear x hcells
  have hhi : cellNear x cells.toInt ≤ cells.toInt := towardZero_le (min_le_right _ _)
  have hmax := cells.toInt_lt
  rw [side, hheld.truncate_eq, toInt_ofIntClamp, ← cellNear_eq]
  omega

variable {s : Surface} {stroke : Stroke} {r : Int32} {p : Point} {cx cy : ℝ}

/-- The sides of a box on an axis. -/
lemma toInt_sides {c : Float} {γ : ℝ} (hc : Stands c γ) (hγ : |γ| < 2 ^ (513 : ℤ)) (r : Int32)
    {cells : Int32} (hcells : 0 ≤ cells.toInt) :
    (side (c - doubleOfInt32 r) cells).toInt = cellNear (γ - r.toInt) cells.toInt ∧
      (side (c + doubleOfInt32 r) cells).toInt = cellNear (γ + r.toInt) cells.toInt := by
  have hr : |(r.toInt : ℝ)| ≤ 2 ^ (513 : ℤ) :=
    calc |(r.toInt : ℝ)| ≤ 2 ^ (31 : ℤ) := by exact_mod_cast Height.abs_toInt_le r
      _ ≤ 2 ^ (513 : ℤ) := zpow_le_zpow_right₀ (by norm_num) (by norm_num)
  have hsum : |γ| + |(r.toInt : ℝ)| < 2 ^ (1000 : ℤ) :=
    calc |γ| + |(r.toInt : ℝ)| < 2 ^ (513 : ℤ) + 2 ^ (513 : ℤ) := add_lt_add_of_lt_of_le hγ hr
      _ = 2 ^ (514 : ℤ) := by
        rw [← two_mul, ← zpow_one_add₀ (by norm_num)]
        norm_num
      _ ≤ 2 ^ (1000 : ℤ) := zpow_le_zpow_right₀ (by norm_num) (by norm_num)
  have hlarge : (2 : ℝ) ^ (1000 : ℤ) < 2 ^ (1023 : ℤ) :=
    zpow_lt_zpow_right₀ (by norm_num) (by norm_num)
  have hsub : |γ - r.toInt| < 2 ^ (1000 : ℤ) := (abs_sub _ _).trans_lt hsum
  have hadd : |γ + r.toInt| < 2 ^ (1000 : ℤ) := (abs_add_le _ _).trans_lt hsum
  have hradius := stands_doubleOfInt32 r
  exact ⟨toInt_side ((hc.nearest_sub hradius).stands (hsub.trans hlarge)) hsub hcells,
    toInt_side ((hc.nearest_add hradius).stands (hadd.trans hlarge)) hadd hcells⟩

/-- A coordinate lies between the sides of a box on its axis. -/
@[mk_iff] structure BetweenSides (n : ℤ) (γ r : ℝ) (cells : ℤ) : Prop where
  low_le : cellNear (γ - r) cells ≤ n
  le_high : n ≤ cellNear (γ + r) cells
  /-- An extent does not reach beyond the largest coordinate, nor is it larger than that. -/
  lt_reach : n < min (2 ^ 31 - 1) (cellNear (γ - r) cells + (2 ^ 31 - 1))

/-- A cell of the surface is in the box if it lies between the sides on both axes. -/
lemma mem_between_iff (hc : stroke.CenteredAt cx cy) (hcx : |cx| < 2 ^ (513 : ℤ))
    (hcy : |cy| < 2 ^ (513 : ℤ)) (hp : p ∈ s.extent) :
    p ∈ between s stroke r ↔ BetweenSides p.x.toInt cx r.toInt s.width.toInt ∧
      BetweenSides p.y.toInt cy r.toInt s.height.toInt := by
  obtain ⟨⟨hx, hx'⟩, hy, hy'⟩ := Surface.mem_extent_iff.mp hp
  obtain ⟨hlowx, hhighx⟩ := toInt_sides hc.x hcx r (hx.trans hx'.le)
  obtain ⟨hlowy, hhighy⟩ := toInt_sides hc.y hcy r (hy.trans hy'.le)
  rw [between, Extent.mem_inter, and_iff_left hp, Extent.mem_ofMax]
  simp only [hlowx, hhighx, hlowy, hhighy, betweenSides_iff]

end Raise

end Terrain
