import Terrain.Brush

/-!
# Reverting to a reference

Heights are pulled back towards those of a reference, usually the terrain as it was last saved. The
strength is the radius in cells. The closer a cell is to the center, the larger the part of the gap
that one application closes, up to the whole of it; how long an application takes does not matter
as long as it takes some time.
-/

namespace Terrain.Revert

/-- The part of the gap that is closed for every unit by which the squared distance falls short of
the squared radius. -/
def convergence : Float := 0.03

/-- The part of the gap that is closed at a point, if the point is in reach. -/
def weight? (stroke : Stroke) (p : Point) : Option Float :=
  let falloff := stroke.strength * stroke.strength - stroke.distanceSquared p
  if falloff ≤ 0 then none
  else
    let weight := falloff * convergence
    let weight := if weight < 0 then 0 else weight
    some (if 1 < weight then 1 else weight)

/-- The height between two heights that a weight picks. -/
def blend (height target weight : Float) : Float := height * (1 - weight) + target * weight

/-- The height that a point gets on the way to a reference, if it is in reach. -/
def reverted? (reference : Surface) (stroke : Stroke) (p : Point) (height : Float) :
    Except Error (Option Float) :=
  match weight? stroke p with
  | none => .ok none
  | some weight => do
    let target ← reference.get p.x p.y
    pure (some (blend height target weight))

/-- Pulls heights towards those of a reference. -/
def apply (reference s : Surface) (mask : Mask) (stroke : Stroke) : Except Error Surface :=
  if 0 < stroke.duration then s.paint mask s.extent.points (reverted? reference stroke) else .ok s

end Terrain.Revert
