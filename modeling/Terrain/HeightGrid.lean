import Terrain.Error
import Terrain.Grid
import Terrain.Height
import Terrain.PatchFlags

/-!
# Height grids

A height grid holds the stored heights of a region, the factor they were compressed with, an
altitude that is only carried along, and one dirty flag per patch. A write that changes a stored
height flags the patch of the cell; a write of what is there already, or of what is not a finite
height, changes nothing.

Coordinates are not checked against the size here: a cell is whatever stands at its place in the
storage, and only a place past the end of the storage is refused. The size itself has to be one for
which the cells and the patches can be counted.
-/

namespace Terrain

def defaultAltitude : Nat := 4096

/-- The heights of a region, without flags. -/
structure Heights where
  altitude : Nat
  factor : Float32
  cells : Grid Int32
  fits : PatchFlags.Fits cells.width cells.height

/-- The heights of a region and the flags of its patches. -/
structure HeightGrid extends Heights where
  flags : PatchFlags
  columns_flags : flags.columns = patchCount cells.width
  rows_flags : flags.rows = patchCount cells.height

/-- How a write ended: it went through, or the cell was written but its patch has no flag in
storage, or there is no such cell. -/
inductive Write where
  | done (grid : HeightGrid)
  | unflagged (grid : HeightGrid)
  | refused

/-- The grid that a write leaves, where the storage of the grid reaches the cell. -/
def Write.toExcept : Write → Except Error HeightGrid
  | .done grid => .ok grid
  | .unflagged _ | .refused => .error .outOfStorage

/-- The column and the row of a numbered cell, if there are columns to divide by. Cells are numbered in
32 bits. -/
def cellOf (columns number : Nat) : Except Error (Nat × Nat) :=
  let number := number % Grid.placeCount
  if columns = 0 then .error .outOfStorage else .ok (number % columns, number / columns)

namespace HeightGrid

/-- Whether a region can have a size: its cells can be counted, and so can its patches. -/
def Fits (width height : Nat) : Prop :=
  width * height < Grid.placeCount ∧ PatchFlags.Fits width height

instance (width height : Nat) : Decidable (Fits width height) :=
  inferInstanceAs (Decidable (_ ∧ _))

/-- What is made for a region of the given size, if a region can have it. -/
def sized {α : Type} (width height : Nat) (make : Fits width height → α) : Except Error α :=
  if h : Fits width height then .ok (make h) else .error .uncountable

def ofHeights (h : Heights) : HeightGrid :=
  ⟨h, .new h.cells.width h.cells.height h.fits, rfl, rfl⟩

/-- A grid of zero heights with no flag set. -/
def new (width height altitude : Nat) (factor : Float32)
    (fits : Fits width height := by decide) : HeightGrid :=
  ofHeights ⟨altitude, factor, .replicate width height 0 fits.1, fits.2⟩

/-- A grid of zero heights of the given size, if a region can have it. -/
def create (width height altitude : Nat) (factor : Float32) : Except Error HeightGrid :=
  sized width height fun fits => new width height altitude factor fits

def width (g : HeightGrid) : Nat := g.cells.width

def height (g : HeightGrid) : Nat := g.cells.height

/-- The stored height at the place of a cell. -/
def stored? (g : HeightGrid) (x y : Nat) : Option Int32 := g.cells.at? x y

def height? (g : HeightGrid) (x y : Nat) : Option Float :=
  (g.stored? x y).map fun stored => Height.ofStored stored g.factor

/-- The grid with a stored height written, and no flag touched. -/
def put (g : HeightGrid) (x y : Nat) (stored : Int32) : HeightGrid :=
  { g with cells := g.cells.put x y stored }

/-- The grid with a stored height written, if the storage of the grid reaches the cell. -/
def put? (g : HeightGrid) (x y : Nat) (stored : Int32) : Option HeightGrid :=
  if g.cells.Holds x y then some (g.put x y stored) else none

def mark (g : HeightGrid) (x y : Nat) : HeightGrid := { g with flags := g.flags.mark x y }

/-- Writes a stored height and flags the patch of the cell if that is a change. -/
def setStored (g : HeightGrid) (x y : Nat) (stored : Int32) : Write :=
  match g.stored? x y with
  | none => .refused
  | some before =>
    if before = stored then .done g
    else if g.flags.Finds x y then .done ((g.put x y stored).mark x y)
    else .unflagged (g.put x y stored)

/-- Writes a height; what is not finite is dropped, wherever it was to go. -/
def set (g : HeightGrid) (x y : Nat) (height : Float) : Write :=
  if height.isFinite then g.setStored x y (Height.quantize height g.factor) else .done g

def withFlags (g : HeightGrid) (flags : PatchFlags) (hc : flags.columns = g.flags.columns)
    (hr : flags.rows = g.flags.rows) : HeightGrid :=
  { g with
    flags := flags
    columns_flags := hc.trans g.columns_flags
    rows_flags := hr.trans g.rows_flags }

/-- Whether the patch of a cell is flagged, and the grid after the question, which may clear the
flag it reads. -/
def readDirty? (g : HeightGrid) (x y : Nat) (clearing : Bool) : Option (Bool × HeightGrid) :=
  (g.flags.isDirty? x y).map fun dirty =>
    (dirty, if clearing then { g with flags := g.flags.clearAt x y } else g)

def markAll (g : HeightGrid) : HeightGrid := { g with flags := g.flags.markAll }

def clearFlags (g : HeightGrid) : HeightGrid := { g with flags := g.flags.clear }

/-- The column and row of every flagged patch, and the grid after clearing them. -/
def drain (g : HeightGrid) : List (Nat × Nat) × HeightGrid :=
  (g.flags.drain.1, { g with flags := g.flags.drain.2 })

/-- Writes one height into every cell and touches no flag; what is not finite is dropped. -/
def fill (g : HeightGrid) (height : Float) : HeightGrid :=
  if height.isFinite then { g with cells := g.cells.fill (Height.quantize height g.factor) } else g

/-- Writes the default height into every cell and touches no flag. -/
def flatten (g : HeightGrid) : HeightGrid := g.fill Height.defaultHeight

def copy (g : HeightGrid) : HeightGrid := ofHeights g.toHeights

/-- The grid of a rectangle of doubles; what is not finite is stored as zero. -/
def ofDoubles (doubles : Grid Float) : Except Error HeightGrid :=
  sized doubles.width doubles.height fun fits =>
    ofHeights ⟨defaultAltitude, Height.defaultFactor,
      doubles.map fun h => if h.isFinite then Height.quantize h Height.defaultFactor else 0, fits.2⟩

def compressedMap (g : HeightGrid) : List Int32 := g.cells.columnMajor

/-- Writes the next stored height into a cell of a column, as long as there is one, and leaves the
rest. -/
def writeNext (x : Nat) (state : HeightGrid × List Int32) (y : Nat) :
    Except Error (HeightGrid × List Int32) :=
  match state with
  | (g, []) => .ok (g, [])
  | (g, stored :: rest) => (fromStorage (g.put? x y stored)).map fun g => (g, rest)

/-- Writes the next stored heights down a column. -/
def writeColumn (height : Nat) (state : HeightGrid × List Int32) (x : Nat) :
    Except Error (HeightGrid × List Int32) :=
  (List.range height).foldlM (writeNext x) state

/-- The grid with the given stored heights, column after column; surplus ones are ignored. -/
def ofCompressedMap (map : List Int32) (factor : Float32) (width height altitude : Nat) :
    Except Error HeightGrid :=
  if map.length < width * height then
    .error (.truncated .compressedMap (width * height) map.length)
  else do
    let blank ← create width height altitude factor
    let (grid, _) ← (List.range width).foldlM (writeColumn height) (blank, map)
    pure grid

def singles (g : HeightGrid) : List Float32 :=
  g.cells.values.toList.map fun stored => Number.narrow (Height.ofStored stored g.factor)

def doubles (g : HeightGrid) : Grid Float :=
  g.cells.map fun stored => Height.ofStored stored g.factor

/-- Grids are compared by altitude, factor and heights; flags do not count. -/
instance : BEq HeightGrid where
  beq a b := a.altitude == b.altitude && a.factor == b.factor && a.cells == b.cells

end HeightGrid

end Terrain
