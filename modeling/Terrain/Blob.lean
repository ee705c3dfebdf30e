import Terrain.Blob.Compressed
import Terrain.Blob.Legacy

/-!
# Blobs

A stored region is a row of bytes with the tag of its layout. Regions of exactly the legacy size
are written in the legacy layout and all others in the compressed one. A blob may be read into a
region of another size.
-/

namespace Terrain

/-- A stored region. -/
structure Blob where
  tag : BlobTag
  bytes : List UInt8
  deriving DecidableEq

/-- Whether a grid has the size of the legacy layouts. -/
def HeightGrid.HasLegacySize (g : HeightGrid) : Prop := g.width = legacySize ∧ g.height = legacySize

instance (g : HeightGrid) : Decidable g.HasLegacySize := inferInstanceAs (Decidable (_ ∧ _))

namespace Blob

/-- Writes a grid in the layout of its size. -/
def encode (g : HeightGrid) : Blob :=
  if g.HasLegacySize then ⟨.legacy256, Legacy.encode g⟩ else ⟨.compressed2D, Compressed.encode g⟩

/-- Reads bytes with the given code into a region of the given size. -/
def decode (width height altitude : Nat) (code : Int32) (bytes : List UInt8) : Logged HeightGrid :=
  match BlobTag.ofCode code with
  | .compressed2D => do
    let grid ← Compressed.decode width height altitude bytes
    Logged.note .debug s!"Created height grid from compressed 2D blob. Size=<{width},{height}>"
    pure grid
  | _ => do
    let grid ← Legacy.decode width height altitude bytes
    Logged.note .debug s!"Created height grid from legacy blob. Size=<{width},{height}>"
    pure grid

end Blob

end Terrain
