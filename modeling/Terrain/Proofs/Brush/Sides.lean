import Terrain.Brush.Raise
import Terrain.Proofs.Number.Conversion
import Terrain.Proofs.Surface.Touch

/-!
# The sides of the box of a dome

A side is held between one cell before the first and the size of the surface. Where the sizes are
coordinates these bounds are in order, so there is a box, whatever the center is. A size beyond the
coordinates is taken for a negative one, far below the lower bound, and there is none
(`Raise.apply_of_not_addressable`).
-/

namespace Terrain.Raise

open Number Surface

variable {s : Surface}

/-- The side of a box at a place. -/
def side (place : Float) (cells : Int32) : Int32 :=
  truncate (held (place + 0.5) (-1) (doubleOfInt32 cells))

/-- The cells of a surface between the sides of a box. -/
def between (s : Surface) (stroke : Stroke) (radius : Int32) : Extent :=
  let r := doubleOfInt32 radius
  (Extent.ofMax ⟨side (stroke.x - r) s.width, side (stroke.y - r) s.height⟩
    ⟨side (stroke.x + r) s.width, side (stroke.y + r) s.height⟩).inter s.extent

/-! ### Bounds in order -/

lemma neg_one_le_doubleOfInt32_iff (cells : Int32) :
    (-1 : Float) ≤ doubleOfInt32 cells ↔ -1 ≤ cells.toInt := by
  rw [stands_neg_one.le (stands_doubleOfInt32 cells)]
  exact_mod_cast Iff.rfl

lemma coordinate_of_le {cells : Int32} (h : -1 ≤ cells.toInt) (place : Float) :
    coordinate place cells = .ok (side place cells) := by
  rw [coordinate, clamp, if_pos ((neg_one_le_doubleOfInt32_iff cells).mpr h)]
  rfl

lemma coordinate_of_lt {cells : Int32} (h : cells.toInt < -1) (place : Float) :
    coordinate place cells = .error .crossedBounds := by
  rw [coordinate, clamp, if_neg (mt (neg_one_le_doubleOfInt32_iff cells).mp (not_le.mpr h))]
  rfl

/-! ### Sizes -/

/-- A size that is a coordinate is taken for what it is. -/
lemma neg_one_le_toInt_ofNat {n : Nat} (h : n < 2 ^ 31) : -1 ≤ (Int32.ofNat n).toInt := by
  rw [Int32.toInt_ofNat_of_lt h]
  omega

/-- A size beyond the coordinates is taken for a negative one. -/
lemma toInt_ofNat_lt {n : Nat} (h : 2 ^ 31 ≤ n) (h' : n + patchSize < Grid.placeCount) :
    (Int32.ofNat n).toInt < -1 := by
  have hsize : Int32.size = 4294967296 := rfl
  simp only [patchSize, Grid.placeCount] at h'
  rw [Int32.toInt_ofNat', Int.bmod_def, hsize]
  omega

lemma box_of_addressable (hs : s.Addressable) (stroke : Stroke) (radius : Int32) :
    box s stroke radius = .ok (between s stroke radius) := by
  have hwidth : -1 ≤ s.width.toInt := neg_one_le_toInt_ofNat hs.width_lt
  have hheight : -1 ≤ s.height.toInt := neg_one_le_toInt_ofNat hs.height_lt
  simp only [box, coordinate_of_le hwidth, coordinate_of_le hheight]
  rfl

lemma box_of_not_addressable (hs : ¬s.Addressable) (stroke : Stroke) (radius : Int32) :
    box s stroke radius = .error .crossedBounds := by
  obtain ⟨⟨hwidth, hheight⟩, -⟩ := s.grid.fits
  rw [box]
  rcases le_or_gt (2 ^ 31) s.grid.width with hwide | hnarrow
  · have hlt : s.width.toInt < -1 := toInt_ofNat_lt hwide hwidth
    simp only [coordinate_of_lt hlt]
    rfl
  · have hhigh : 2 ^ 31 ≤ s.grid.height := by
      by_contra! hlow
      exact hs ⟨hnarrow, hlow⟩
    have hle : -1 ≤ s.width.toInt := neg_one_le_toInt_ofNat hnarrow
    have hlt : s.height.toInt < -1 := toInt_ofNat_lt hhigh hheight
    simp only [coordinate_of_le hle, coordinate_of_lt hlt]
    rfl

/-- A dome fails on a surface with a size beyond the coordinates, if there is a dome to raise. -/
lemma apply_of_not_addressable (hs : ¬s.Addressable) {lib : MathLibrary} {stroke : Stroke}
    (hr : 0 < radius lib stroke.strength) (mask : Mask) :
    apply lib s mask stroke = .error .crossedBounds := by
  rw [apply]
  simp only [box_of_not_addressable hs]
  rw [if_neg (by rw [Int32.not_le]; exact hr)]
  rfl

end Terrain.Raise
