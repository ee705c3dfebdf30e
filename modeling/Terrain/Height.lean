import Terrain.Number.Convert

/-!
# Heights and their stored integers

A grid keeps heights as integers: the height times the compression factor, without the fraction.
Reading divides again. A height that was written out as a real number and comes back may lie a hair
below the image of its integer, so recovering a stored integer first asks whether the height is
exactly the image of the nearest one.
-/

namespace Terrain.Height

/-- The compression factor of grids that name none, for two decimal digits. -/
def defaultFactor : Float32 := 100.0

/-- The height where nobody gave one. -/
def defaultHeight : Float := 21.0

/-- The stored integer of a height. -/
def quantize (height : Float) (factor : Float32) : Int32 :=
  Number.truncate (height * Number.widen factor)

/-- The height of a stored integer. -/
def ofStored (stored : Int32) (factor : Float32) : Float :=
  Number.doubleOfInt32 stored / Number.widen factor

/-- The stored integer behind a height that was written out, at full precision or as a single that
was widened. -/
def recover (height : Float) (factor : Float32) : Int32 :=
  let factor := Number.widen factor
  let scaled := height * factor
  let nearest := Number.roundAway scaled
  let image := nearest / factor
  if image == height || Number.widen (Number.narrow image) == height then Number.truncate nearest
  else Number.truncate scaled

/-- The stored integer behind a height that was written out as a single. -/
def recoverSingle (height : Float32) (factor : Float32) : Int32 :=
  let factor := Number.widen factor
  let scaled := Number.widen height * factor
  let nearest := Number.roundAway scaled
  if Number.narrow (nearest / factor) == height then Number.truncate nearest
  else Number.truncate scaled

end Terrain.Height
