import Terrain.Blob.Bytes
import Terrain.HeightGrid
import Terrain.Logged

/-!
# The legacy layout

Doubles for exactly 256 by 256 cells, column after column. A zero is written as the smallest
positive double, since old readers take a literal zero for a cell without data; cells outside the
grid are written the same way. Reading starts from flat terrain and writes number after number, so
the default height stays in the cells that the layout does not cover and wherever it holds no finite
number.
-/

namespace Terrain

/-- The edge length of the regions of the legacy layouts. -/
def legacySize : Nat := 256

namespace Legacy

def cellCount : Nat := legacySize * legacySize

/-- What stands for a zero: the smallest positive double. -/
def zeroMark : Float := Float.ofBits 1

/-- The height that the layout holds for a cell. -/
def written (g : HeightGrid) (x y : Nat) : Float :=
  let height :=
    if x < g.width ∧ y < g.height then (g.height? x y).getD 0 else 0
  if height == 0 then zeroMark else height

def column (g : HeightGrid) (x : Nat) : List UInt8 :=
  (List.range legacySize).flatMap fun y => Bytes.ofDouble (written g x y)

/-- The bytes of a grid. -/
def encode (g : HeightGrid) : List UInt8 := (List.range legacySize).flatMap (column g)

/-- Writes a number of the layout into its cell, if the region has that cell and the number is
finite. -/
def writeHeight (g : HeightGrid) (number : Nat × Nat) : Except Error HeightGrid :=
  let x := number.2 / legacySize
  let y := number.2 % legacySize
  let height := Bytes.double number.1
  if x < g.width ∧ y < g.height ∧ height.isFinite then
    (g.setStored x y (Height.recover height g.factor)).toExcept
  else .ok g

def decode (width height altitude : Nat) (bytes : List UInt8) : Logged HeightGrid := do
  let available := bytes.length / 8
  if available < cellCount then
    Logged.ofExcept (.error (.truncated .legacy cellCount available))
  else
    Logged.noteIf (legacySize < width || legacySize < height) .debug
      s!"Legacy blob covers only {legacySize}x{legacySize} of a {width}x{height} region"
    let new ← Logged.ofExcept (HeightGrid.create width height altitude Height.defaultFactor)
    let numbers := (Bytes.naturals 8 bytes).take cellCount
    let grid ← Logged.ofExcept (numbers.zipIdx.foldlM writeHeight new.flatten)
    Logged.noteIf (width < legacySize || height < legacySize) .warn
      s!"Dropped legacy terrain outside of the {width}x{height} region"
    pure grid.clearFlags

end Legacy

end Terrain
