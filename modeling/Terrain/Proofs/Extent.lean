import Terrain.Extent
import Terrain.Proofs.Grid
import Terrain.Proofs.Number.Conversion

/-!
# Points of extents

Coordinates are compared and added as integers, of which a saturating sum keeps the part that a
coordinate can hold. The points that an extent lists are those that belong to it.
-/

namespace Terrain

/-! ### Coordinates as integers -/

lemma toInt_saturatingAdd (a b : Int32) :
    (saturatingAdd a b).toInt = max (-2 ^ 31) (min (a.toInt + b.toInt) (2 ^ 31 - 1)) :=
  Number.toInt_ofIntClamp _

lemma toInt_max (a b : Int32) : (max a b).toInt = max a.toInt b.toInt := by
  change (if a ≤ b then b else a).toInt = _
  split_ifs with h <;> rw [Int32.le_iff_toInt_le] at h <;> omega

lemma toInt_min (a b : Int32) : (min a b).toInt = min a.toInt b.toInt := by
  change (if a ≤ b then a else b).toInt = _
  split_ifs with h <;> rw [Int32.le_iff_toInt_le] at h <;> omega

lemma Point.ext_toInt {p q : Point} (hx : p.x.toInt = q.x.toInt) (hy : p.y.toInt = q.y.toInt) :
    p = q := by
  obtain ⟨px, py⟩ := p
  obtain ⟨qx, qy⟩ := q
  obtain rfl : px = qx := Int32.toInt_inj.mp hx
  obtain rfl : py = qy := Int32.toInt_inj.mp hy
  rfl

/-- A point comes before another one if its column does, or its row in the same column. -/
def Point.Before (p q : Point) : Prop :=
  p.x.toInt < q.x.toInt ∨ (p.x.toInt = q.x.toInt ∧ p.y.toInt < q.y.toInt)

lemma Point.Before.ne {p q : Point} (h : p.Before q) : p ≠ q := by
  rintro rfl
  rw [Before] at h
  omega

namespace Extent

variable {a b e : Extent} {p : Point}

/-- A point belongs to an extent when its coordinates do, as integers. -/
lemma mem_iff_toInt : p ∈ e ↔
    (e.minimum.x.toInt ≤ p.x.toInt ∧ p.x.toInt < e.upper.x.toInt) ∧
      (e.minimum.y.toInt ≤ p.y.toInt ∧ p.y.toInt < e.upper.y.toInt) := by
  rw [← Int32.le_iff_toInt_le, ← Int32.lt_iff_toInt_lt, ← Int32.le_iff_toInt_le,
    ← Int32.lt_iff_toInt_lt]
  exact Iff.rfl

/-! ### Bounds -/

/-- No extent is longer than the largest coordinate. -/
lemma toInt_upper_le (e : Extent) : e.upper.x.toInt ≤ e.minimum.x.toInt + (2 ^ 31 - 1) ∧
    e.upper.y.toInt ≤ e.minimum.y.toInt + (2 ^ 31 - 1) := by
  have hx := e.minimum.x.le_toInt
  have hx' := e.shape.x.toInt_lt
  have hy := e.minimum.y.le_toInt
  have hy' := e.shape.y.toInt_lt
  simp only [upper, Point.add, toInt_saturatingAdd]
  omega

lemma toInt_span (low high : Int32) :
    (span low high).toInt = min (max 0 (high.toInt - low.toInt)) (2 ^ 31 - 1) := by
  rw [span, Number.toInt_ofIntClamp]
  omega

/-- A coordinate and the span from it. -/
lemma toInt_saturatingAdd_span (low high : Int32) :
    (saturatingAdd low (max (span low high) 0)).toInt =
      max low.toInt (min high.toInt (low.toInt + (2 ^ 31 - 1))) := by
  have hzero : (0 : Int32).toInt = 0 := rfl
  have hlow := low.le_toInt
  have hlow' := low.toInt_lt
  have hhigh := high.toInt_lt
  rw [toInt_saturatingAdd, toInt_max, toInt_span, hzero]
  omega

/-- The points between a corner and an upper bound, except where they are too far from the corner. -/
lemma mem_ofUpper {low upper : Point} : p ∈ ofUpper low upper ↔
    (low.x.toInt ≤ p.x.toInt ∧
      p.x.toInt < max low.x.toInt (min upper.x.toInt (low.x.toInt + (2 ^ 31 - 1)))) ∧
    low.y.toInt ≤ p.y.toInt ∧
      p.y.toInt < max low.y.toInt (min upper.y.toInt (low.y.toInt + (2 ^ 31 - 1))) := by
  have hx : (ofUpper low upper).upper.x = saturatingAdd low.x (max (span low.x upper.x) 0) := rfl
  have hy : (ofUpper low upper).upper.y = saturatingAdd low.y (max (span low.y upper.y) 0) := rfl
  have hlow : (ofUpper low upper).minimum = low := rfl
  rw [mem_iff_toInt, hx, hy, hlow, toInt_saturatingAdd_span, toInt_saturatingAdd_span]

/-- On one axis, a coordinate is between the bounds of an intersection if it is between both. -/
lemma between_inter_iff {la lb ua ub n : ℤ} (ha : ua ≤ la + (2 ^ 31 - 1))
    (hb : ub ≤ lb + (2 ^ 31 - 1)) :
    (max la lb ≤ n ∧ n < max (max la lb) (min (min ua ub) (max la lb + (2 ^ 31 - 1)))) ↔
      (la ≤ n ∧ n < ua) ∧ lb ≤ n ∧ n < ub := by
  omega

/-- The points of an intersection are those of both extents. -/
lemma mem_inter : p ∈ a.inter b ↔ p ∈ a ∧ p ∈ b := by
  obtain ⟨hax, hay⟩ := a.toInt_upper_le
  obtain ⟨hbx, hby⟩ := b.toInt_upper_le
  rw [inter, mem_ofUpper, mem_iff_toInt, mem_iff_toInt]
  simp only [Point.min, Point.max, toInt_min, toInt_max]
  rw [between_inter_iff hax hbx, between_inter_iff hay hby, and_and_and_comm]

/-- On one axis, a coordinate is between the bounds of an extent between two corners. -/
lemma between_ofMax_iff {low high n : ℤ} (hhigh : -2 ^ 31 ≤ high) :
    (low ≤ n ∧ n < max low (min (max (-2 ^ 31) (min (high + 1) (2 ^ 31 - 1)))
      (low + (2 ^ 31 - 1)))) ↔
      low ≤ n ∧ n ≤ high ∧ n < min (2 ^ 31 - 1) (low + (2 ^ 31 - 1)) := by
  omega

/-- The points between two corners, both included, are those of their extent, except where a
coordinate is the largest one or too far from the lower corner. -/
lemma mem_ofMax {low high : Point} : p ∈ ofMax low high ↔
    (low.x.toInt ≤ p.x.toInt ∧ p.x.toInt ≤ high.x.toInt ∧
      p.x.toInt < min (2 ^ 31 - 1) (low.x.toInt + (2 ^ 31 - 1))) ∧
    low.y.toInt ≤ p.y.toInt ∧ p.y.toInt ≤ high.y.toInt ∧
      p.y.toInt < min (2 ^ 31 - 1) (low.y.toInt + (2 ^ 31 - 1)) := by
  have hone : (1 : Int32).toInt = 1 := rfl
  rw [ofMax, mem_ofUpper]
  simp only [Point.add, toInt_saturatingAdd, hone]
  rw [between_ofMax_iff high.x.le_toInt, between_ofMax_iff high.y.le_toInt]

/-! ### The list of points -/

/-- A coordinate between two others is the sum of the lower one and a natural. -/
lemma toInt_ofInt_add {low high : Int32} {n : Nat} (h : low.toInt + n < high.toInt) :
    (Int32.ofInt (low.toInt + n)).toInt = low.toInt + n := by
  have hlow := low.le_toInt
  have hhigh := high.toInt_lt
  exact Int32.toInt_ofInt_of_le (by omega) (by omega)

/-- A numbered point does not reach the upper bound. -/
lemma point_lt_upper {i : Nat} (hi : i < e.columns * e.rows) :
    e.minimum.x.toInt + (i / e.rows : Nat) < e.upper.x.toInt ∧
      e.minimum.y.toInt + (i % e.rows : Nat) < e.upper.y.toInt := by
  obtain ⟨hcolumn, hrow⟩ := Grid.div_lt_and_mod_lt hi
  exact ⟨lt_sub_iff_add_lt'.mp (Int.lt_toNat.mp hcolumn),
    lt_sub_iff_add_lt'.mp (Int.lt_toNat.mp hrow)⟩

/-- The coordinates of the point in a column and a row. -/
lemma toInt_point {i : Nat} (hi : i < e.columns * e.rows) :
    (e.point i).x.toInt = e.minimum.x.toInt + (i / e.rows : Nat) ∧
      (e.point i).y.toInt = e.minimum.y.toInt + (i % e.rows : Nat) :=
  ⟨toInt_ofInt_add (point_lt_upper hi).1, toInt_ofInt_add (point_lt_upper hi).2⟩

lemma mem_point {i : Nat} (hi : i < e.columns * e.rows) : e.point i ∈ e := by
  obtain ⟨hcolumn, hrow⟩ := point_lt_upper hi
  obtain ⟨hx, hy⟩ := toInt_point hi
  rw [mem_iff_toInt, hx, hy]
  exact ⟨⟨Int.le_add_of_nonneg_right (Int.natCast_nonneg _), hcolumn⟩,
    Int.le_add_of_nonneg_right (Int.natCast_nonneg _), hrow⟩

/-- Every point of an extent has a number. -/
lemma exists_point (h : p ∈ e) : ∃ i < e.columns * e.rows, e.point i = p := by
  rw [mem_iff_toInt] at h
  obtain ⟨⟨hx, hx'⟩, hy, hy'⟩ := h
  obtain ⟨x, hx⟩ := Int.le.dest hx
  obtain ⟨y, hy⟩ := Int.le.dest hy
  have hcolumn : x < e.columns := by
    rw [columns]
    omega
  have hrow : y < e.rows := by
    rw [rows]
    omega
  have hi := Grid.column_lt hcolumn hrow
  obtain ⟨hpx, hpy⟩ := toInt_point hi
  rw [Grid.flat_div hrow] at hpx
  rw [Grid.flat_mod hrow] at hpy
  exact ⟨_, hi, Point.ext_toInt (by omega) (by omega)⟩

/-- The points that are listed are those of the extent. -/
lemma mem_points : p ∈ e.points ↔ p ∈ e := by
  rw [points, firstPoints, Nat.min_self, List.mem_map]
  constructor
  · rintro ⟨i, hi, rfl⟩
    exact mem_point (List.mem_range.mp hi)
  · intro h
    obtain ⟨i, hi, hpoint⟩ := exists_point h
    exact ⟨i, List.mem_range.mpr hi, hpoint⟩

/-- The points are listed column by column, and row by row within a column. -/
lemma pairwise_points (e : Extent) : e.points.Pairwise Point.Before := by
  rw [points, firstPoints, Nat.min_self, List.pairwise_map]
  refine List.Pairwise.imp_of_mem ?_ List.pairwise_lt_range
  intro i j hi hj hlt
  obtain ⟨hx, hy⟩ := toInt_point (List.mem_range.mp hi)
  obtain ⟨hx', hy'⟩ := toInt_point (List.mem_range.mp hj)
  have hdiv : i / e.rows ≤ j / e.rows := Nat.div_le_div_right hlt.le
  rw [Point.Before, hx, hy, hx', hy']
  rcases hdiv.lt_or_eq with hcolumn | hcolumn
  · exact .inl (by omega)
  · have hi := Nat.div_add_mod i e.rows
    have hj := Nat.div_add_mod j e.rows
    rw [hcolumn] at hi
    exact .inr (by omega)

lemma nodup_points (e : Extent) : e.points.Nodup := e.pairwise_points.imp Point.Before.ne

end Extent

end Terrain
