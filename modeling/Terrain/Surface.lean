import Terrain.Config
import Terrain.Extent
import Terrain.HeightGrid

/-!
# Surfaces

A surface is a height grid under signed coordinates. Outside the region there is nothing to see and
nothing to change: heights read as zero, writes are dropped, and no patch is dirty.

The operations answer with an error where the storage of the grid does not reach a cell of the
region, which the proofs of the grid rule out for sizes of whole patches.
-/

namespace Terrain

/-- The terrain of one region. -/
structure Surface where
  grid : HeightGrid

namespace Surface

/-- All heights zero. -/
def ofSize (width height : Nat) (fits : HeightGrid.Fits width height := by decide) : Surface :=
  ⟨.new width height defaultAltitude Height.defaultFactor fits⟩

/-- All heights at the default height. -/
def flat (width height : Nat) (fits : HeightGrid.Fits width height := by decide) : Surface :=
  ⟨(ofSize width height fits).grid.flatten⟩

/-- The surface that a configuration lays out, if a region can have its size. -/
def ofConfig (c : Config) : Except Error Surface := do
  let grid ← HeightGrid.create c.width c.height c.altitude c.factor
  pure ⟨grid.fill c.ground⟩

def width (s : Surface) : Int32 := Int32.ofNat s.grid.width

def height (s : Surface) : Int32 := Int32.ofNat s.grid.height

/-- The cells of the region. -/
def extent (s : Surface) : Extent := .ofShape ⟨0, 0⟩ ⟨s.width, s.height⟩

/-- The column and row of a point of the region. -/
def cell? (s : Surface) (x y : Int32) : Option (Nat × Nat) :=
  if (0 ≤ x ∧ 0 ≤ y) ∧ (x < s.width ∧ y < s.height) then some (x.toInt.toNat, y.toInt.toNat)
  else none

/-- The height at a point, zero outside the region. -/
def get (s : Surface) (x y : Int32) : Except Error Float :=
  match s.cell? x y with
  | some (x, y) => fromStorage (s.grid.height? x y)
  | none => .ok 0

def ofWrite (w : Write) : Except Error Surface := w.toExcept.map Surface.mk

/-- Writes a height; outside the region nothing happens. -/
def set (s : Surface) (x y : Int32) (height : Float) : Except Error Surface :=
  match s.cell? x y with
  | some (x, y) => ofWrite (s.grid.set x y height)
  | none => .ok s

/-- The height of the cell under a point of the plane, zero outside the region. -/
def heightAt (s : Surface) (x y : Float32) : Except Error Float :=
  if (0 ≤ x ∧ 0 ≤ y) ∧ (x < Number.singleOfInt32 s.width ∧ y < Number.singleOfInt32 s.height) then
    s.get (Number.truncateSingle x) (Number.truncateSingle y)
  else .ok 0

/-- Whether the patch of a point is flagged, and the surface after the question, which may clear
the flag it reads. -/
def readDirty (s : Surface) (x y : Int32) (clearing : Bool) : Except Error (Bool × Surface) :=
  match s.cell? x y with
  | some (x, y) =>
    fromStorage ((s.grid.readDirty? x y clearing).map fun (dirty, grid) => (dirty, ⟨grid⟩))
  | none => .ok (false, s)

/-- Whether the patch of a point is flagged; a flag that was read is cleared. -/
def readTainted (s : Surface) (x y : Int32) : Except Error (Bool × Surface) := s.readDirty x y true

def markAll (s : Surface) : Surface := ⟨s.grid.markAll⟩

def clearFlags (s : Surface) : Surface := ⟨s.grid.clearFlags⟩

/-- The column and row of every flagged patch, and the surface after clearing them. -/
def drain (s : Surface) : List (Nat × Nat) × Surface := (s.grid.drain.1, ⟨s.grid.drain.2⟩)

def copy (s : Surface) : Surface := ⟨s.grid.copy⟩

/-- Writes the doubles of a list of cells, each where the source holds one. -/
def writeCells (grid : HeightGrid) (doubles : Grid Float) (cells : List (Nat × Nat)) :
    Except Error HeightGrid :=
  cells.foldlM (fun grid (x, y) => do
    let height ← fromStorage (doubles.at? x y)
    (grid.set x y height).toExcept) grid

/-- Fits a rectangle of doubles into a region of the given size, if a region can have it. What the
rectangle does not cover stays at the default height, and no flag is set. -/
def ofDoubles (doubles : Grid Float) (width height altitude : Nat) : Except Error Surface := do
  let columns := min doubles.width width
  let rows := min doubles.height height
  let cells := (List.range (columns * rows)).map fun i => (i / rows, i % rows)
  let new ← HeightGrid.create width height altitude Height.defaultFactor
  let grid ← writeCells new.flatten doubles cells
  pure ⟨grid.clearFlags⟩

end Surface

end Terrain
