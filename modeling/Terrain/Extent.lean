/-!
# Points and extents

An extent is an axis-aligned rectangle of integer lattice points, held as its smallest corner and
its shape. Coordinates saturate at the ends of their range: a rectangle that would reach beyond the
largest coordinate ends there. A rectangle with a shape that is not positive on some axis is empty.
-/

namespace Terrain

/-- A lattice point. -/
structure Point where
  x : Int32
  y : Int32
  deriving DecidableEq, Repr

/-- The sum of two coordinates, clamped to their range. -/
def saturatingAdd (a b : Int32) : Int32 := Int32.ofIntClamp (a.toInt + b.toInt)

/-- The sum of two points, each coordinate clamped to its range. -/
def Point.add (p q : Point) : Point := ⟨saturatingAdd p.x q.x, saturatingAdd p.y q.y⟩

def Point.max (p q : Point) : Point := ⟨Max.max p.x q.x, Max.max p.y q.y⟩

def Point.min (p q : Point) : Point := ⟨Min.min p.x q.x, Min.min p.y q.y⟩

/-- A rectangle of lattice points. -/
structure Extent where
  minimum : Point
  shape : Point
  deriving DecidableEq, Repr

namespace Extent

/-- The extent with the given corner and shape; a negative shape counts as zero. -/
def ofShape (minimum shape : Point) : Extent := ⟨minimum, shape.max ⟨0, 0⟩⟩

/-- How many coordinates lie from `low` to below `high`, at most the largest coordinate. -/
def span (low high : Int32) : Int32 := Int32.ofIntClamp (Max.max 0 (high.toInt - low.toInt))

/-- The extent from `minimum` to below `upper` on both axes. -/
def ofUpper (minimum upper : Point) : Extent :=
  ofShape minimum ⟨span minimum.x upper.x, span minimum.y upper.y⟩

/-- The extent from `minimum` to `maximum`, both included, except that the largest coordinate is
left out. -/
def ofMax (minimum maximum : Point) : Extent := ofUpper minimum (maximum.add ⟨1, 1⟩)

/-- The first coordinates beyond the extent. -/
def upper (e : Extent) : Point := e.minimum.add e.shape

/-- Whether the extent holds no point, judged by its shape. -/
def isEmpty (e : Extent) : Bool := e.shape.x ≤ 0 || e.shape.y ≤ 0

/-- A point belongs to an extent when it lies from the corner to below the upper bound. -/
def Contains (e : Extent) (p : Point) : Prop :=
  (e.minimum.x ≤ p.x ∧ p.x < e.upper.x) ∧ (e.minimum.y ≤ p.y ∧ p.y < e.upper.y)

instance : Membership Point Extent := ⟨Contains⟩

instance (p : Point) (e : Extent) : Decidable (p ∈ e) :=
  inferInstanceAs (Decidable ((_ ∧ _) ∧ (_ ∧ _)))

/-- The points of both extents. -/
def inter (a b : Extent) : Extent := ofUpper (a.minimum.max b.minimum) (a.upper.min b.upper)

def columns (e : Extent) : Nat := (e.upper.x.toInt - e.minimum.x.toInt).toNat

def rows (e : Extent) : Nat := (e.upper.y.toInt - e.minimum.y.toInt).toNat

/-- The point with the given number in the order of columns, and of rows within a column. -/
def point (e : Extent) (i : Nat) : Point :=
  ⟨Int32.ofInt (e.minimum.x.toInt + (i / e.rows : Nat)),
    Int32.ofInt (e.minimum.y.toInt + (i % e.rows : Nat))⟩

def firstPoints (e : Extent) (n : Nat) : List Point :=
  (List.range (Min.min n (e.columns * e.rows))).map e.point

/-- Every point of the extent, column by column and from the lowest row up. -/
def points (e : Extent) : List Point := e.firstPoints (e.columns * e.rows)

theorem firstPoints_eq_take (e : Extent) (n : Nat) : e.firstPoints n = e.points.take n := by
  simp [points, firstPoints, ← List.map_take, List.take_range]

end Extent

end Terrain
