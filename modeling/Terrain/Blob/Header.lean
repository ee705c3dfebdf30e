import Terrain.Blob.Bytes
import Terrain.HeightGrid

/-!
# Tags and headers of blobs

A tag says in which layout a blob is written. Some tags were overwritten by timestamps, so every
code other than that of the compressed layout is read as the legacy layout.

The compressed layout has a header of four 32-bit integers: the code of the layout, the sizes, and the
compression factor without its fraction. Reading checks the length, then the sizes, then the factor.
-/

namespace Terrain

/-! ### Tags -/

/-- The layout of a blob. The codes above `revisionHigh` are timestamps. -/
inductive BlobTag where
  | legacy256
  | compressed2D
  | revisionHigh
  deriving DecidableEq, Repr

namespace BlobTag

def code : BlobTag → Int32
  | legacy256 => 11
  | compressed2D => 27
  | revisionHigh => 1234

def ofCode (code : Int32) : BlobTag := if code = compressed2D.code then compressed2D else legacy256

/-- The layout that a blob with this tag is read in. -/
def decodedAs (tag : BlobTag) : BlobTag := ofCode tag.code

theorem ofCode_eq_compressed2D_iff {code : Int32} : ofCode code = compressed2D ↔ code = 27 := by
  change (if code = 27 then compressed2D else legacy256) = compressed2D ↔ code = 27
  split <;> simp [*]

end BlobTag

/-! ### Headers -/

/-- The leading bytes of a blob in the compressed layout. -/
structure BlobHeader where
  code : Int32
  width : Int32
  height : Int32
  factor : Int32
  deriving DecidableEq, Repr

namespace BlobHeader

def size : Nat := 16

def ofGrid (g : HeightGrid) : BlobHeader :=
  ⟨BlobTag.compressed2D.code, Int32.ofNat g.width, Int32.ofNat g.height,
    Number.truncateSingle g.factor⟩

def toBytes (h : BlobHeader) : List UInt8 :=
  Bytes.ofInt32 h.code ++ Bytes.ofInt32 h.width ++ Bytes.ofInt32 h.height ++ Bytes.ofInt32 h.factor

def cellCount (h : BlobHeader) : Nat := h.width.toInt.toNat * h.height.toInt.toNat

/-- The number of bytes that follow the header. -/
def payloadLength (h : BlobHeader) : Nat := 2 * h.cellCount

/-- The header that the leading bytes write, unchecked. -/
def ofBytes (bytes : List UInt8) : BlobHeader :=
  let field (i : Nat) : Int32 := Bytes.int32 (Bytes.naturalAt 4 (4 * i) bytes)
  ⟨field 0, field 1, field 2, field 3⟩

def read (bytes : List UInt8) : Except Error BlobHeader :=
  let header := ofBytes bytes
  if bytes.length < size then .error (.truncated .compressedHeader size bytes.length)
  else if header.width < 0 ∨ header.height < 0 then
    .error (.invalidDimensions header.width.toInt header.height.toInt)
  else if header.factor ≤ 0 then .error (.invalidFactor header.factor)
  else .ok header

end BlobHeader

end Terrain
