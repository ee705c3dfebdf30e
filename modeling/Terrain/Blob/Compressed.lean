import Terrain.Blob.Header
import Terrain.Logged

/-!
# The compressed layout

A header and the low halves of the stored heights, row after row. Stored heights beyond 16 bits do
not survive. Reading takes the factor of the blob, starts from flat terrain and writes word after
word, so the cells that the blob does not cover keep the default height.
-/

namespace Terrain.Compressed

/-- The bytes of a grid. -/
def encode (g : HeightGrid) : List UInt8 :=
  (BlobHeader.ofGrid g).toBytes ++ g.cells.values.toList.flatMap Bytes.ofLowHalf

/-- Writes a word of a blob with the given number of columns into its cell, if the region has that
cell. -/
def writeWord (columns : Nat) (g : HeightGrid) (word : Nat × Nat) : Except Error HeightGrid := do
  let (x, y) ← cellOf columns word.2
  if x < g.width ∧ y < g.height then (g.setStored x y (Bytes.lowHalf word.1)).toExcept else .ok g

def decode (width height altitude : Nat) (bytes : List UInt8) : Logged HeightGrid := do
  let header ← Logged.ofExcept (BlobHeader.read bytes)
  let payload := bytes.drop BlobHeader.size
  let columns := header.width.toInt.toNat
  let rows := header.height.toInt.toNat
  if payload.length < header.payloadLength then
    Logged.ofExcept (.error (.truncated .compressed header.cellCount (payload.length / 2)))
  else
    let factor := header.factor
    let new ← Logged.ofExcept
      (HeightGrid.create width height altitude (Number.singleOfInt32 factor))
    let words := (Bytes.naturals 2 payload).take header.cellCount
    let grid ← Logged.ofExcept (words.zipIdx.foldlM (writeWord columns) new.flatten)
    Logged.noteIf (width < columns || height < rows) .warn
      s!"Dropped compressed terrain outside of the {width}x{height} region"
    let sizes := s!"Heightmap size=<{columns},{rows}>. Region size=<{width},{height}>."
    Logged.note .info s!"Read compressed 2D heightmap. {sizes} CompFact={factor}"
    pure grid.clearFlags

end Terrain.Compressed
