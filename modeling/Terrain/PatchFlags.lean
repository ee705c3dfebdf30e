import Terrain.Bitset
import Terrain.Grid

/-!
# Dirty flags of patches

The cells of a grid are grouped into square patches, and each patch has one flag that tells whether
it changed since the flag was last cleared. Patches are numbered row by row. A cell is found through
the number of its patch alone, so a cell to the right of the grid shares its flag with a patch of
the next row.

All of this is counted in 32 bits. A size is rounded up to whole patches by a sum, so there are no
flags for a size that comes within a patch of the limit, and none for more patches than can be
counted. A cell so far outside that the number of its patch cannot be counted has no flag either.
-/

namespace Terrain

/-- The edge length of a patch, in cells. -/
def patchSize : Nat := 16

/-- The number of patches that cover a row of cells. -/
def patchCount (cells : Nat) : Nat := (cells + patchSize - 1) / patchSize

/-- One flag for every patch of a grid. -/
structure PatchFlags where
  columns : Nat
  rows : Nat
  flags : Bitset
  length_flags : flags.length = columns * rows
  count_lt : flags.length < Grid.placeCount
  deriving DecidableEq

namespace PatchFlags

/-- Whether the patches of a grid of the given size in cells can be counted. -/
def Fits (width height : Nat) : Prop :=
  (width + patchSize < Grid.placeCount ∧ height + patchSize < Grid.placeCount) ∧
    patchCount width * patchCount height < Grid.placeCount

instance (width height : Nat) : Decidable (Fits width height) :=
  inferInstanceAs (Decidable (_ ∧ _))

/-- So many flags are far from the limit of a set of bits. -/
theorem add_wordBits_lt {n : Nat} (h : n < Grid.placeCount) : n + wordBits < Bitset.lengthCount := by
  simp only [Grid.placeCount, Bitset.lengthCount, wordBits] at h ⊢
  omega

/-- The flags of a grid of the given size in cells, all clear. -/
def new (width height : Nat) (fits : Fits width height := by decide) : PatchFlags :=
  ⟨patchCount width, patchCount height,
    .empty (patchCount width * patchCount height) (add_wordBits_lt fits.2), rfl, fits.2⟩

/-- The flags of a grid of the given size in cells, if they can be counted. -/
def new? (width height : Nat) : Option PatchFlags :=
  if h : Fits width height then some (new width height h) else none

/-- The number of the patch of a cell. -/
def patchOf (f : PatchFlags) (x y : Nat) : Nat := y / patchSize * f.columns + x / patchSize

/-- Whether the patch of a cell has a number that can be counted, and a flag. -/
def Finds (f : PatchFlags) (x y : Nat) : Prop :=
  f.patchOf x y < Grid.placeCount ∧ f.flags.Reaches (f.patchOf x y)

instance (f : PatchFlags) (x y : Nat) : Decidable (f.Finds x y) :=
  inferInstanceAs (Decidable (_ ∧ _))

def coordinates (f : PatchFlags) (patch : Nat) : Nat × Nat := (patch % f.columns, patch / f.columns)

def withFlags (f : PatchFlags) (flags : Bitset) (h : flags.length = f.flags.length) : PatchFlags :=
  ⟨f.columns, f.rows, flags, h.trans f.length_flags, h ▸ f.count_lt⟩

def mark (f : PatchFlags) (x y : Nat) : PatchFlags :=
  f.withFlags (f.flags.insert (f.patchOf x y)) rfl

/-- Sets the flag of the patch of a cell; none when there is no such flag. -/
def mark? (f : PatchFlags) (x y : Nat) : Option PatchFlags :=
  if f.Finds x y then some (f.mark x y) else none

/-- Whether the patch of a cell is flagged; none when there is no such flag. -/
def isDirty? (f : PatchFlags) (x y : Nat) : Option Bool :=
  if f.patchOf x y < Grid.placeCount then f.flags.get? (f.patchOf x y) else none

def clearAt (f : PatchFlags) (x y : Nat) : PatchFlags :=
  f.withFlags (f.flags.erase (f.patchOf x y)) rfl

/-- Whether the patch of a cell is flagged, and the flags after the question, which may clear the
flag it reads; none when there is no such flag. -/
def read? (f : PatchFlags) (x y : Nat) (clearing : Bool) : Option (Bool × PatchFlags) :=
  (f.isDirty? x y).map fun dirty => (dirty, if clearing then f.clearAt x y else f)

def markAll (f : PatchFlags) : PatchFlags := f.withFlags f.flags.fill rfl

def clear (f : PatchFlags) : PatchFlags := f.withFlags f.flags.clear rfl

def count (f : PatchFlags) : Nat := f.flags.count

/-- The column and row of every flagged patch, row by row, and the flags after clearing them. -/
def drain (f : PatchFlags) : List (Nat × Nat) × PatchFlags :=
  (f.flags.toList.map f.coordinates, f.clear)

end PatchFlags

end Terrain
