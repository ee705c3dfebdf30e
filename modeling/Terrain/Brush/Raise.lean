import Terrain.Brush
import Terrain.Number.MathLibrary

/-!
# Raising a dome

The strength is the binary logarithm of the radius. A cell rises by the duration times the cosine
of its distance from the center, a quarter turn being the radius, so that the center rises by the
whole duration and the rim not at all.
-/

namespace Terrain.Raise

def halfTurn : Float := 3.141592653589793

def radius (lib : Number.MathLibrary) (strength : Float) : Int32 :=
  Number.truncate (lib.exp2 strength + 0.5)

/-- A number held between two others; what is not a number stays as it is. -/
def held (x low high : Float) : Float :=
  let x := if x < low then low else x
  if high < x then high else x

/-- A number held between two others, which have to be in order. -/
def clamp (x low high : Float) : Except Error Float :=
  if low ≤ high then .ok (held x low high) else .error .crossedBounds

/-- The coordinate nearest to a place on an axis, no further than one step before the first cell
and the first place after the last. -/
def coordinate (place : Float) (cells : Int32) : Except Error Int32 :=
  (clamp (place + 0.5) (-1) (Number.doubleOfInt32 cells)).map Number.truncate

/-- The cells of a surface around the center that a dome may reach. -/
def box (s : Surface) (stroke : Stroke) (radius : Int32) : Except Error Extent := do
  let r := Number.doubleOfInt32 radius
  let left ← coordinate (stroke.x - r) s.width
  let top ← coordinate (stroke.y - r) s.height
  let right ← coordinate (stroke.x + r) s.width
  let bottom ← coordinate (stroke.y + r) s.height
  pure ((Extent.ofMax ⟨left, top⟩ ⟨right, bottom⟩).inter s.extent)

/-- The part of the duration by which a point rises. -/
def share (lib : Number.MathLibrary) (stroke : Stroke) (radius : Int32) (p : Point) : Float :=
  lib.cosine (stroke.distance p * halfTurn / (2 * Number.doubleOfInt32 radius))

/-- The height that a dome gives to a point, if it reaches that far. -/
def raised? (lib : Number.MathLibrary) (stroke : Stroke) (radius : Int32) (p : Point)
    (height : Float) : Option Float :=
  let share := share lib stroke radius p
  if 0 < share then some (height + share * stroke.duration) else none

/-- Raises a dome. -/
def apply (lib : Number.MathLibrary) (s : Surface) (mask : Mask) (stroke : Stroke) :
    Except Error Surface :=
  let radius := radius lib stroke.strength
  if radius ≤ 0 then .ok s
  else do
    let box ← box s stroke radius
    s.paint mask box.points fun p height => .ok (raised? lib stroke radius p height)

end Terrain.Raise
