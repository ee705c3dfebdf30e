import Terrain.Blob
import Terrain.Document
import Terrain.Snapshot
import Terrain.Surface

/-!
# Saved surfaces

A surface is read from a blob, a document or a snapshot, either as a new one or in place of the
terrain that is there. Terrain that was read has no flag set. Where reading fails there is no new
surface, so the old one stays as it is.
-/

namespace Terrain.Surface

/-- Takes over a grid that was read; all flags are clear afterwards. -/
def ofRead (read : HeightGrid) : Surface := ⟨read.clearFlags⟩

def ofBlob (width height altitude : Nat) (code : Int32) (bytes : List UInt8) : Logged Surface := do
  let read ← Blob.decode width height altitude code bytes
  pure ⟨read⟩

def ofSnapshot (snapshot : Snapshot) (packing : Packing := .plain) : Logged Surface := do
  let grid ← snapshot.restore packing
  pure ⟨grid⟩

/-- Replaces the terrain with a blob, keeping the size. -/
def loadBlob (s : Surface) (code : Int32) (bytes : List UInt8) : Logged Surface := do
  let read ← Blob.decode s.grid.width s.grid.height s.grid.altitude code bytes
  pure (ofRead read)

/-- Replaces the terrain with a document, which may change the size. -/
def loadDocument (s : Surface) (text : List Char) : Logged Surface := do
  let read ← Document.decode s.grid.width s.grid.height s.grid.altitude text
  pure (ofRead read)

def toBlob (s : Surface) : Blob := .encode s.grid

def toDocument (s : Surface) : List Char := Document.encode s.grid

def snapshot (s : Surface) (packing : Packing := .plain) : Snapshot := .ofGrid s.grid packing

end Terrain.Surface
