import Terrain.Surface

/-!
# Brushes

A brush changes the heights around a center, and a mask says which cells it may change. A mask may
have any size; a cell outside it may not be changed.
-/

namespace Terrain

/-- The cells that a brush may change. -/
structure Mask where
  cells : Grid Bool
  deriving DecidableEq

namespace Mask

/-- The mask that says the same of every cell of a surface. -/
def filled (s : Surface) (allowed : Bool) : Mask :=
  ⟨.replicate s.grid.width s.grid.height allowed s.grid.cells.count_lt⟩

def all (s : Surface) : Mask := filled s true

def none (s : Surface) : Mask := filled s false

def allows (m : Mask) (p : Point) : Bool := (m.cells.get? p.x.toInt p.y.toInt).getD false

/-- Says whether a point is allowed; a point outside the mask stays forbidden. -/
def allow (m : Mask) (p : Point) (allowed : Bool) : Mask :=
  if m.cells.Contains p.x.toInt p.y.toInt then
    ⟨m.cells.put p.x.toInt.toNat p.y.toInt.toNat allowed⟩
  else m

def count (m : Mask) : Nat := m.cells.countP id

end Mask

/-- One application of a brush: where its center is, how strong it is and how long it takes. -/
structure Stroke where
  x : Float
  y : Float
  strength : Float
  duration : Float

namespace Stroke

/-- The square of the distance of a point from the center. -/
def distanceSquared (stroke : Stroke) (p : Point) : Float :=
  let dx := Number.doubleOfInt32 p.x - stroke.x
  let dy := Number.doubleOfInt32 p.y - stroke.y
  dx * dx + dy * dy

def distance (stroke : Stroke) (p : Point) : Float := (stroke.distanceSquared p).sqrt

end Stroke

/-- Gives every allowed point of a list, in order, the height that a rule finds for it from its
present height; the rule may leave a point alone. -/
def Surface.paint (s : Surface) (mask : Mask) (points : List Point)
    (rule : Point → Float → Except Error (Option Float)) : Except Error Surface :=
  points.foldlM (fun s p => do
    if mask.allows p then
      match ← rule p (← s.get p.x p.y) with
      | some height => s.set p.x p.y height
      | none => pure s
    else pure s) s

end Terrain
