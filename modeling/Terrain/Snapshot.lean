import Terrain.Blob.Compressed

/-!
# Snapshots

A snapshot keeps the altitude of a grid and its bytes in the compressed layout, so the factor is
kept without its fraction and heights beyond 16 bits do not survive. The bytes are packed by a
general purpose method, which is a parameter here.
-/

namespace Terrain

/-- A method to pack bytes, and to unpack what was packed. -/
structure Packing where
  pack : List UInt8 → List UInt8
  unpack : List UInt8 → Except Error (List UInt8)

namespace Packing

def plain : Packing := ⟨id, .ok⟩

/-- Unpacking gives back what was packed. -/
def Faithful (p : Packing) : Prop := ∀ bytes, p.unpack (p.pack bytes) = .ok bytes

theorem faithful_plain : plain.Faithful := fun _ => rfl

end Packing

/-- A copy of a grid to go back to. -/
structure Snapshot where
  altitude : Nat
  bytes : List UInt8
  deriving DecidableEq

namespace Snapshot

def ofGrid (g : HeightGrid) (packing : Packing := .plain) : Snapshot :=
  ⟨g.altitude, packing.pack (Compressed.encode g)⟩

/-- The grid of a snapshot, in the size that it was taken in. -/
def restore (s : Snapshot) (packing : Packing := .plain) : Logged HeightGrid := do
  let bytes ← Logged.ofExcept (packing.unpack s.bytes)
  let header ← Logged.ofExcept (BlobHeader.read bytes)
  Compressed.decode header.width.toInt.toNat header.height.toInt.toNat s.altitude bytes

end Snapshot

end Terrain
