import Terrain.Proofs.Extent

/-!
# Extents as sets of points

Which points belong to an extent is said by integers, whose sums do not saturate: on each axis, a
point is from the corner on, nearer to it than the shape says, and not at the largest coordinate. The
list of the points of an extent, the intersection of two and the extent between two corners are what
they are for sets of points (`extents_are_sets`).
-/

namespace Terrain.Extent

variable {a b e : Extent} {p low high : Point}

/-! ### Coordinates on one axis -/

/-- A sum that saturates bounds a coordinate as the sum itself and the largest coordinate do. -/
lemma lt_toInt_saturatingAdd_iff {start shape n : Int32} :
    n.toInt < (saturatingAdd start shape).toInt ↔
      n.toInt < start.toInt + shape.toInt ∧ n.toInt < 2 ^ 31 - 1 := by
  have hn := n.le_toInt
  rw [toInt_saturatingAdd]
  omega

/-- Nothing is cut off between two coordinates that are near enough to each other and below the
largest one. -/
lemma between_ofMax_iff_of_lt {low high n : ℤ} (hhigh : high < 2 ^ 31 - 1)
    (hspan : high - low < 2 ^ 31 - 1) :
    (low ≤ n ∧ n ≤ high ∧ n < min (2 ^ 31 - 1) (low + (2 ^ 31 - 1))) ↔ low ≤ n ∧ n ≤ high := by
  omega

/-! ### Points -/

/-- A point belongs to an extent if, on both axes, it lies from the corner on and less than the shape
away from it, and is not at the largest coordinate. -/
lemma mem_iff_lt_add : p ∈ e ↔
    (e.minimum.x.toInt ≤ p.x.toInt ∧ p.x.toInt < e.minimum.x.toInt + e.shape.x.toInt ∧
      p.x.toInt < 2 ^ 31 - 1) ∧
    (e.minimum.y.toInt ≤ p.y.toInt ∧ p.y.toInt < e.minimum.y.toInt + e.shape.y.toInt ∧
      p.y.toInt < 2 ^ 31 - 1) := by
  rw [mem_iff_toInt, upper, Point.add, lt_toInt_saturatingAdd_iff, lt_toInt_saturatingAdd_iff]

/-- The points between two corners, both included, are those of their extent, if the upper corner is
below the largest coordinate and near enough to the lower one. -/
lemma mem_ofMax_iff_of_lt (hx : high.x.toInt < 2 ^ 31 - 1) (hy : high.y.toInt < 2 ^ 31 - 1)
    (hcolumns : high.x.toInt - low.x.toInt < 2 ^ 31 - 1)
    (hrows : high.y.toInt - low.y.toInt < 2 ^ 31 - 1) :
    p ∈ ofMax low high ↔
      (low.x.toInt ≤ p.x.toInt ∧ p.x.toInt ≤ high.x.toInt) ∧
      (low.y.toInt ≤ p.y.toInt ∧ p.y.toInt ≤ high.y.toInt) := by
  rw [mem_ofMax, between_ofMax_iff_of_lt hx hcolumns, between_ofMax_iff_of_lt hy hrows]

/-- The points are what a loop over the columns around one over the rows goes through. -/
lemma points_eq_flatMap (e : Extent) :
    e.points = (List.range e.columns).flatMap fun x => (List.range e.rows).map fun y =>
      ⟨Int32.ofInt (e.minimum.x.toInt + x), Int32.ofInt (e.minimum.y.toInt + y)⟩ := by
  rw [points, firstPoints, Nat.min_self]
  exact Grid.map_range_mul (fun x y : Nat => (⟨Int32.ofInt (e.minimum.x.toInt + x),
    Int32.ofInt (e.minimum.y.toInt + y)⟩ : Point)) e.columns e.rows

/-- The points that an extent lists are those that belong to it, each of them once, column by column
and from the lowest row up in each, as two nested loops go through them. They are the points that lie,
on both axes, from the corner on and less than the shape away from it, except at the largest
coordinate; so there are none if the shape is not positive. A point belongs to the intersection of two
extents just if it belongs to both, and to the extent between two corners just if it lies between them,
both included, as long as the upper corner is below the largest coordinate and less than that away from
the lower one on both axes. -/
theorem extents_are_sets (a b : Extent) :
    (∀ p, p ∈ a.points ↔ p ∈ a) ∧ a.points.Nodup ∧ a.points.Pairwise Point.Before ∧
    (a.points = (List.range a.columns).flatMap fun x => (List.range a.rows).map fun y =>
      ⟨Int32.ofInt (a.minimum.x.toInt + x), Int32.ofInt (a.minimum.y.toInt + y)⟩) ∧
    (∀ p, p ∈ a ↔
      (a.minimum.x.toInt ≤ p.x.toInt ∧ p.x.toInt < a.minimum.x.toInt + a.shape.x.toInt ∧
        p.x.toInt < 2 ^ 31 - 1) ∧
      (a.minimum.y.toInt ≤ p.y.toInt ∧ p.y.toInt < a.minimum.y.toInt + a.shape.y.toInt ∧
        p.y.toInt < 2 ^ 31 - 1)) ∧
    (∀ p, p ∈ a.inter b ↔ p ∈ a ∧ p ∈ b) ∧
    ∀ low high : Point, high.x.toInt < 2 ^ 31 - 1 → high.y.toInt < 2 ^ 31 - 1 →
      high.x.toInt - low.x.toInt < 2 ^ 31 - 1 → high.y.toInt - low.y.toInt < 2 ^ 31 - 1 →
      ∀ p, p ∈ ofMax low high ↔ (low.x ≤ p.x ∧ p.x ≤ high.x) ∧ (low.y ≤ p.y ∧ p.y ≤ high.y) := by
  refine ⟨fun p => mem_points, a.nodup_points, a.pairwise_points, a.points_eq_flatMap,
    fun p => mem_iff_lt_add, fun p => mem_inter, ?_⟩
  intro low high hx hy hcolumns hrows p
  rw [mem_ofMax_iff_of_lt hx hy hcolumns hrows]
  simp only [Int32.le_iff_toInt_le]

/-- A row that would reach beyond the largest coordinate ends before it. -/
example : (Extent.mk ⟨2147483645, -7⟩ ⟨1000, 1⟩).points = [⟨2147483645, -7⟩, ⟨2147483646, -7⟩] := by
  decide +kernel

end Terrain.Extent
