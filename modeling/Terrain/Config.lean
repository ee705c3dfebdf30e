import Terrain.Error
import Terrain.Height
import Terrain.HeightGrid
import Terrain.Blob.Legacy

/-!
# Configurations

A configuration says how a fresh region is laid out: its size, its altitude, the compression
factor and the height of every cell. A usable one has a size of whole patches, a positive factor
and a finite height; of several faults the first in this order is reported.
-/

namespace Terrain

/-- How a fresh region is laid out. -/
structure Config where
  width : Nat
  height : Nat
  altitude : Nat
  factor : Float32
  ground : Float

namespace Config

/-- The configuration of a text that names no field. -/
def standard : Config :=
  ⟨legacySize, legacySize, defaultAltitude, Height.defaultFactor, Height.defaultHeight⟩

/-- The first fault of a configuration. -/
def fault? (c : Config) : Option ConfigFault :=
  if c.width = 0 ∨ c.height = 0 then some (.emptySize c.width c.height)
  else if c.width % patchSize ≠ 0 ∨ c.height % patchSize ≠ 0 then
    some (.unevenSize c.width c.height patchSize)
  else if !(c.factor.isFinite && 0 < c.factor) then some (.factorNotPositive c.factor)
  else if !c.ground.isFinite then some .heightNotFinite
  else none

def checked (c : Config) : Except Error Config :=
  match c.fault? with
  | none => .ok c
  | some fault => .error (.config fault)

theorem fault?_standard : standard.fault? = none := by decide +kernel

end Config

end Terrain
