import Terrain.Logged
import Terrain.Number.MathLibrary
import Terrain.Surface

/-!
# Merging

A merge writes one surface into another, displaced, and turned about a pivot. A turned cell rarely
lands on a lattice point, which would leave spikes and pits of single cells, so cells close to a
target follow it if they differ from it by more than a threshold.

Horizontal displacements are cut to whole cells, and coordinates saturate at the ends of their range.
-/

namespace Terrain.Merge

/-- How far a surface is moved; the vertical part is added to every height. -/
structure Displacement where
  x : Float32
  y : Float32
  z : Float32

/-- The point about which a surface is turned. -/
structure Pivot where
  x : Float32
  y : Float32

/-- Cells close to a turned one follow it if they differ from it by more than this. -/
def threshold : Float := 1

/-- How many cells away, on each axis, a cell counts as close. -/
def reach : Int32 := 2

def Displacement.offset (d : Displacement) : Point :=
  ⟨Number.truncateSingle d.x, Number.truncateSingle d.y⟩

def Displacement.rise (d : Displacement) : Float := Number.widen d.z

def Displacement.text (d : Displacement) : String :=
  let x := Number.singleText d.x
  let y := Number.singleText d.y
  let z := Number.singleText d.z
  s!"[{x}, {y}, {z}]"

def Pivot.text (p : Pivot) : String :=
  let x := Number.singleText p.x
  let y := Number.singleText p.y
  s!"[{x}, {y}]"

/-- The record that a merge leaves. -/
def record (target source : Surface) (d : Displacement) (rotation : Float32) (pivot : Pivot) :
    String :=
  let size (s : Surface) : String := s!"<{s.width},{s.height}>"
  "Merging terrain. In=" ++ size source ++ " Disp=" ++ d.text ++ " Rot=" ++
    Number.singleText rotation ++ " Pivot=" ++ pivot.text ++ " Out=" ++ size target

/-- The point that a point is turned to, cut to whole cells. -/
def turned (sine cosine : Float32) (pivot : Pivot) (p : Point) : Point :=
  let dx := Number.singleOfInt32 p.x - pivot.x
  let dy := Number.singleOfInt32 p.y - pivot.y
  ⟨Number.truncateSingle (pivot.x + dx * cosine - dy * sine),
    Number.truncateSingle (pivot.y + dx * sine + dy * cosine)⟩

/-- The cells of a surface that are close to a point. -/
def close (s : Surface) (p : Point) : Extent :=
  (Extent.ofMax (p.add ⟨-reach, -reach⟩) (p.add ⟨reach, reach⟩)).inter s.extent

/-- Writes a height at a point and into the cells close to it that differ too much. -/
def smoothInto (s : Surface) (target : Point) (height : Float) : Except Error Surface :=
  (close s target).points.foldlM (fun s p => do
    let before ← s.get p.x p.y
    if p = target ∨ threshold < (before - height).abs then s.set p.x p.y height else pure s) s

/-- Writes a cell of the source where a displacement takes it. -/
def moveCell (source : Surface) (d : Displacement) (s : Surface) (p : Point) :
    Except Error Surface := do
  let height ← source.get p.x p.y
  let target := p.add d.offset
  s.set target.x target.y (height + d.rise)

/-- Writes a cell of the source where a turn and a displacement take it. -/
def turnCell (source : Surface) (d : Displacement) (sine cosine : Float32) (pivot : Pivot)
    (s : Surface) (p : Point) : Except Error Surface :=
  let target := (turned sine cosine pivot p).add d.offset
  if target ∈ s.extent then do
    let height ← source.get p.x p.y
    smoothInto s target (height + d.rise)
  else .ok s

/-- Writes every cell of the source, column by column. -/
def cells (lib : Number.MathLibrary) (s source : Surface) (d : Displacement) (rotation : Float32)
    (pivot : Pivot) : Except Error Surface :=
  if rotation == 0 then source.extent.points.foldlM (moveCell source d) s
  else
    let sine := lib.sineSingle rotation
    let cosine := lib.cosineSingle rotation
    source.extent.points.foldlM (turnCell source d sine cosine pivot) s

end Merge

def Surface.merge (lib : Number.MathLibrary) (s source : Surface) (d : Merge.Displacement)
    (rotation : Float32) (pivot : Merge.Pivot) : Logged Surface := do
  Logged.note .debug (Merge.record s source d rotation pivot)
  Logged.ofExcept (Merge.cells lib s source d rotation pivot)

end Terrain
