import Terrain.Proofs.Extent.Membership

/-!
# Extents without points

Whether an extent is empty is judged by its shape, but an extent ends at the largest coordinate, which
its shape may reach beyond. As an extent that has a point has its corner, the judgement is wrong only
where the corner is at the largest coordinate and the shape is positive all the same. The shape of an
extent that is made from its bounds is the distance between them, and there is none from the largest
coordinate on: such an extent is judged right, and so is what two extents have in common
(`shape_tells_emptiness`).
-/

namespace Terrain.Extent

variable {e : Extent} {p : Point}

/-- An extent is judged empty just if no point belongs to it, and just if it lists none. -/
def ShapeTells (e : Extent) : Prop :=
  (e.isEmpty = true ↔ ∀ p, p ∉ e) ∧ (e.isEmpty = true ↔ e.points = [])

/-! ### Points and the corner -/

lemma points_eq_nil_iff : e.points = [] ↔ ∀ p, p ∉ e := by
  simp only [List.eq_nil_iff_forall_not_mem, mem_points]

/-- An extent that has a point has its corner. -/
lemma minimum_mem (h : p ∈ e) : e.minimum ∈ e := by
  rw [mem_iff_lt_add] at h ⊢
  omega

lemma forall_notMem_iff : (∀ p, p ∉ e) ↔ e.minimum ∉ e :=
  ⟨fun h => h e.minimum, fun h _ hp => h (minimum_mem hp)⟩

/-- The corner is a point if the shape is positive on both axes and the corner is not at the largest
coordinate on either. -/
lemma minimum_mem_iff : e.minimum ∈ e ↔
    (0 < e.shape.x.toInt ∧ 0 < e.shape.y.toInt) ∧
      e.minimum.x.toInt < 2 ^ 31 - 1 ∧ e.minimum.y.toInt < 2 ^ 31 - 1 := by
  rw [mem_iff_lt_add]
  omega

/-! ### The judgement -/

lemma isEmpty_iff : e.isEmpty = true ↔ e.shape.x.toInt ≤ 0 ∨ e.shape.y.toInt ≤ 0 := by
  have hzero : (0 : Int32).toInt = 0 := rfl
  simp only [isEmpty, Bool.or_eq_true, decide_eq_true_eq, Int32.le_iff_toInt_le, hzero]

/-- An extent without points is one that is judged empty, or one whose corner is at the largest
coordinate. -/
lemma forall_notMem_iff_isEmpty_or : (∀ p, p ∉ e) ↔
    e.isEmpty = true ∨ e.minimum.x.toInt = 2 ^ 31 - 1 ∨ e.minimum.y.toInt = 2 ^ 31 - 1 := by
  have hx := e.minimum.x.toInt_lt
  have hy := e.minimum.y.toInt_lt
  rw [forall_notMem_iff, minimum_mem_iff, isEmpty_iff]
  omega

lemma shapeTells_iff : e.ShapeTells ↔
    e.isEmpty = true ∨ e.minimum.x.toInt < 2 ^ 31 - 1 ∧ e.minimum.y.toInt < 2 ^ 31 - 1 := by
  have hx := e.minimum.x.toInt_lt
  have hy := e.minimum.y.toInt_lt
  rw [ShapeTells, points_eq_nil_iff, and_self, forall_notMem_iff_isEmpty_or, isEmpty_iff]
  omega

/-! ### Ways to make an extent -/

lemma isEmpty_ofShape {low shape : Point} :
    (ofShape low shape).isEmpty = true ↔ shape.x.toInt ≤ 0 ∨ shape.y.toInt ≤ 0 := by
  have hzero : (0 : Int32).toInt = 0 := rfl
  rw [isEmpty_iff, ofShape, Point.max, toInt_max, toInt_max, hzero]
  omega

/-- Nothing is above the largest coordinate, so no span from it is positive. -/
lemma toInt_lt_of_span_pos {low high : Int32} (h : 0 < (span low high).toInt) :
    low.toInt < 2 ^ 31 - 1 := by
  have hhigh := high.toInt_lt
  rw [toInt_span] at h
  omega

lemma shapeTells_ofUpper (low upper : Point) : (ofUpper low upper).ShapeTells := by
  rw [shapeTells_iff, ofUpper, isEmpty_ofShape]
  by_cases hshape : 0 < (span low.x upper.x).toInt ∧ 0 < (span low.y upper.y).toInt
  · exact .inr ⟨toInt_lt_of_span_pos hshape.1, toInt_lt_of_span_pos hshape.2⟩
  · exact .inl ((not_and_or.mp hshape).imp not_lt.mp not_lt.mp)

/-- An extent lists no point just if none belongs to it, and then it is judged empty or its corner is at
the largest coordinate on some axis; one that is judged empty has no point. The judgement is right of an
extent just if it says empty or the corner is below the largest coordinate on both axes. So it is right
of every extent made from a corner and an upper bound or from two corners, and of everything that two
extents have in common. Of an extent made from a corner and a shape it is right unless the shape is
positive on both axes and the corner is at the largest coordinate on one: there is no point then, and it
says that there is. -/
theorem shape_tells_emptiness (a b : Extent) (low high shape : Point) :
    (a.points = [] ↔ ∀ p, p ∉ a) ∧
    ((∀ p, p ∉ a) ↔
      a.isEmpty = true ∨ a.minimum.x.toInt = 2 ^ 31 - 1 ∨ a.minimum.y.toInt = 2 ^ 31 - 1) ∧
    (a.ShapeTells ↔
      a.isEmpty = true ∨ a.minimum.x.toInt < 2 ^ 31 - 1 ∧ a.minimum.y.toInt < 2 ^ 31 - 1) ∧
    (ofUpper low high).ShapeTells ∧ (ofMax low high).ShapeTells ∧ (a.inter b).ShapeTells ∧
    ((ofShape low shape).ShapeTells ↔
      (shape.x.toInt ≤ 0 ∨ shape.y.toInt ≤ 0) ∨
        low.x.toInt < 2 ^ 31 - 1 ∧ low.y.toInt < 2 ^ 31 - 1) := by
  -- The extent between two corners and the intersection of two extents are made from their bounds.
  refine ⟨points_eq_nil_iff, forall_notMem_iff_isEmpty_or, shapeTells_iff, shapeTells_ofUpper low high,
    shapeTells_ofUpper _ _, shapeTells_ofUpper _ _, ?_⟩
  rw [shapeTells_iff, isEmpty_ofShape]
  exact Iff.rfl

/-- The extent of one cell whose column is the largest coordinate has no point, and is not judged empty.
Made between two equal corners it is, and so is what it has in common with itself. -/
theorem not_shapeTells_lastColumn :
    (ofShape ⟨2147483647, 0⟩ ⟨1, 1⟩).isEmpty = false ∧
    (ofShape ⟨2147483647, 0⟩ ⟨1, 1⟩).points = [] ∧
    ¬(ofShape ⟨2147483647, 0⟩ ⟨1, 1⟩).ShapeTells ∧
    (ofMax ⟨2147483647, 0⟩ ⟨2147483647, 0⟩).isEmpty = true ∧
    ((ofShape ⟨2147483647, 0⟩ ⟨1, 1⟩).inter (ofShape ⟨2147483647, 0⟩ ⟨1, 1⟩)).isEmpty = true := by
  have hjudged : (ofShape ⟨2147483647, 0⟩ ⟨1, 1⟩).isEmpty = false := by decide +kernel
  have hnone : (ofShape ⟨2147483647, 0⟩ ⟨1, 1⟩).points = [] := by decide +kernel
  refine ⟨hjudged, hnone, fun h => ?_, by decide +kernel, by decide +kernel⟩
  rw [h.2.mpr hnone] at hjudged
  exact Bool.noConfusion hjudged

end Terrain.Extent
