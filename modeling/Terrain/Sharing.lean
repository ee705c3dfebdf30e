import Terrain.Surface.Loading

/-!
# Shared flags

The flags of a region can be watched from outside. They live in a store, and a region and every
watcher hold a reference to them. Marks and clears through one reference are seen through all
others. A load that keeps the size of the region keeps its reference; a load that changes the size
leaves the old flags to their watchers and goes on with fresh ones.
-/

namespace Terrain

/-- A reference to flags in a store. -/
structure FlagRef where
  index : Nat
  deriving DecidableEq, Repr

/-- Every set of flags that is referred to. -/
structure FlagStore where
  held : Array PatchFlags

namespace FlagStore

def empty : FlagStore := ⟨#[]⟩

/-- Takes up new flags and gives a reference to them. -/
def insert (s : FlagStore) (flags : PatchFlags) : FlagRef × FlagStore :=
  (⟨s.held.size⟩, ⟨s.held.push flags⟩)

def get? (s : FlagStore) (ref : FlagRef) : Option PatchFlags := s.held[ref.index]?

def set (s : FlagStore) (ref : FlagRef) (flags : PatchFlags) : FlagStore :=
  ⟨s.held.setIfInBounds ref.index flags⟩

def clear (s : FlagStore) (ref : FlagRef) : FlagStore := ⟨s.held.modify ref.index .clear⟩

/-- What stands behind a reference after it was set. -/
theorem get?_set (s : FlagStore) (ref other : FlagRef) (flags : PatchFlags) :
    (s.set ref flags).get? other =
      if ref = other ∧ ref.index < s.held.size then some flags else s.get? other := by
  obtain ⟨i⟩ := ref
  obtain ⟨j⟩ := other
  change (s.held.setIfInBounds i flags)[j]? = _
  rw [Array.getElem?_setIfInBounds]
  by_cases hij : i = j
  · by_cases hs : j < s.held.size <;> simp [hij, hs, get?]
  · simp [hij, get?]

end FlagStore

/-- The heights of a region and a reference to its flags. -/
structure SharedGrid where
  heights : Heights
  flags : FlagRef

namespace SharedGrid

def share (store : FlagStore) (g : HeightGrid) : SharedGrid × FlagStore :=
  let (ref, store) := store.insert g.flags
  (⟨g.toHeights, ref⟩, store)

/-- The grid with the flags that a store holds for it. -/
def view? (store : FlagStore) (g : SharedGrid) : Option HeightGrid :=
  match store.get? g.flags with
  | none => none
  | some flags =>
    if h : flags.columns = patchCount g.heights.cells.width ∧
        flags.rows = patchCount g.heights.cells.height then
      some ⟨g.heights, flags, h.1, h.2⟩
    else none

/-- Takes over the heights and the flags of an edited grid. -/
def commit (store : FlagStore) (g : SharedGrid) (edited : HeightGrid) : SharedGrid × FlagStore :=
  (⟨edited.toHeights, g.flags⟩, store.set g.flags edited.flags)

/-- Takes over the contents of another region and clears all flags. The reference is kept if the
sizes agree, otherwise it is that of the other region. -/
def replaceWith (store : FlagStore) (g other : SharedGrid) : SharedGrid × FlagStore :=
  let ref :=
    if other.heights.cells.width = g.heights.cells.width ∧
        other.heights.cells.height = g.heights.cells.height then g.flags
    else other.flags
  (⟨other.heights, ref⟩, store.clear ref)

/-- Takes over a grid that was read. -/
def load (store : FlagStore) (g : SharedGrid) (read : HeightGrid) : SharedGrid × FlagStore :=
  let (other, store) := share store read
  replaceWith store g other

/-- A copy of the heights, with flags of its own that are all clear. -/
def copy (store : FlagStore) (g : SharedGrid) : SharedGrid × FlagStore :=
  share store (.ofHeights g.heights)

/-- Replaces the terrain with a blob, keeping the size. -/
def loadBlob (store : FlagStore) (g : SharedGrid) (code : Int32) (bytes : List UInt8) :
    Logged (SharedGrid × FlagStore) := do
  let cells := g.heights.cells
  let read ← Blob.decode cells.width cells.height g.heights.altitude code bytes
  pure (load store g read)

/-- Replaces the terrain with a document, which may change the size. -/
def loadDocument (store : FlagStore) (g : SharedGrid) (text : List Char) :
    Logged (SharedGrid × FlagStore) := do
  let cells := g.heights.cells
  let read ← Document.decode cells.width cells.height g.heights.altitude text
  pure (load store g read)

end SharedGrid

end Terrain
