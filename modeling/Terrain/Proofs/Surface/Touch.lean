import Terrain.Proofs.HeightGrid
import Terrain.Proofs.Loop
import Terrain.Surface

/-!
# Touches of a surface

A touch sees a surface as the touches before it left it, and names the point that is to get a height,
if there is one. A touch does not fail, and its write goes through, so a list of touches is one
elementary write after another.

A surface is addressable if its sizes are coordinates. A size beyond them is taken for a negative one,
so that no point of the surface has a cell.
-/

namespace Terrain

namespace Surface

variable {s s' t : Surface}

/-! ### Frames -/

/-- The sizes, the altitude and the factor of a surface are those of another one. -/
structure SameFrame (s s' : Surface) : Prop where
  width_eq : s'.grid.width = s.grid.width
  height_eq : s'.grid.height = s.grid.height
  altitude_eq : s'.grid.altitude = s.grid.altitude
  factor_eq : s'.grid.factor = s.grid.factor

lemma sameFrame_self (s : Surface) : s.SameFrame s := ⟨rfl, rfl, rfl, rfl⟩

lemma SameFrame.trans (h : s.SameFrame s') (h' : s'.SameFrame t) : s.SameFrame t :=
  ⟨h'.width_eq.trans h.width_eq, h'.height_eq.trans h.height_eq,
    h'.altitude_eq.trans h.altitude_eq, h'.factor_eq.trans h.factor_eq⟩

lemma sameFrame_of_edited (h : s.grid.Edited s'.grid) : s.SameFrame s' :=
  ⟨h.width_eq, h.height_eq, h.altitude_eq, h.factor_eq⟩

lemma SameFrame.extent_eq (h : s.SameFrame s') : s'.extent = s.extent := by
  simp only [extent, width, height, h.width_eq, h.height_eq]

/-- The sizes of a surface are coordinates. -/
structure Addressable (s : Surface) : Prop where
  width_lt : s.grid.width < 2 ^ 31
  height_lt : s.grid.height < 2 ^ 31

lemma SameFrame.addressable (h : s.SameFrame s') (hs : s.Addressable) : s'.Addressable :=
  ⟨h.width_eq ▸ hs.width_lt, h.height_eq ▸ hs.height_lt⟩

lemma sameFrame_of_heights (h : s'.grid.toHeights = s.grid.toHeights) : s.SameFrame s' :=
  ⟨congrArg (·.cells.width) h, congrArg (·.cells.height) h, congrArg (·.altitude) h,
    congrArg (·.factor) h⟩

/-! ### Cells -/

/-- A number of cells does not grow when it is cut to a coordinate. -/
lemma toInt_ofNat_le (n : Nat) : (Int32.ofNat n).toInt ≤ n := by
  have hsize : Int32.size = 4294967296 := rfl
  rw [Int32.toInt_ofNat', Int.bmod_def, hsize]
  omega

/-- A point that has a cell lies in the region. -/
lemma lt_of_cell? {x y : Int32} {cx cy : Nat} (h : s.cell? x y = some (cx, cy)) :
    cx < s.grid.width ∧ cy < s.grid.height := by
  rw [cell?] at h
  split_ifs at h with hin
  obtain ⟨⟨hx, hy⟩, hwidth, hheight⟩ := hin
  cases h
  have hcolumns := toInt_ofNat_le s.grid.width
  have hrows := toInt_ofNat_le s.grid.height
  rw [Int32.le_iff_toInt_le] at hx hy
  rw [Int32.lt_iff_toInt_lt] at hwidth hheight
  rw [width] at hwidth
  rw [height] at hheight
  have hzero : (0 : Int32).toInt = 0 := rfl
  omega

/-- The height at a point that has a cell. -/
lemma get_of_cell? {x y : Int32} {cx cy : Nat} (h : s.cell? x y = some (cx, cy)) :
    s.get x y = .ok (Height.ofStored (s.grid.storedAt cx cy) s.grid.factor) := by
  obtain ⟨hx, hy⟩ := lt_of_cell? h
  rw [get, h]
  dsimp only
  rw [HeightGrid.height?_eq_ofStored hx hy]
  rfl

lemma get_of_cell?_eq_none {x y : Int32} (h : s.cell? x y = none) : s.get x y = .ok 0 := by
  rw [get, h]

lemma exists_get (s : Surface) (x y : Int32) : ∃ height, s.get x y = .ok height := by
  cases h : s.cell? x y with
  | none => exact ⟨0, get_of_cell?_eq_none h⟩
  | some c => exact ⟨_, get_of_cell? h⟩

lemma exists_set (s : Surface) (x y : Int32) (height : Float) :
    ∃ s', s.set x y height = .ok s' ∧ s.grid.Edited s'.grid := by
  rw [set]
  cases h : s.cell? x y with
  | none => exact ⟨s, rfl, HeightGrid.edited_self s.grid⟩
  | some c =>
    obtain ⟨hx, hy⟩ := lt_of_cell? h
    obtain ⟨g', hg', hedited⟩ := HeightGrid.exists_set hx hy height
    refine ⟨⟨g'⟩, ?_, hedited⟩
    dsimp only
    rw [hg']
    rfl

/-- Reading a flag leaves the heights alone. -/
lemma exists_readDirty (s : Surface) (x y : Int32) (clearing : Bool) :
    ∃ dirty s', s.readDirty x y clearing = .ok (dirty, s') ∧
      s'.grid.toHeights = s.grid.toHeights := by
  rw [readDirty]
  cases h : s.cell? x y with
  | none => exact ⟨false, s, rfl, rfl⟩
  | some c =>
    obtain ⟨hx, hy⟩ := lt_of_cell? h
    obtain ⟨dirty, g', hread, hheights, -⟩ := HeightGrid.exists_readDirty? hx hy clearing
    dsimp only
    rw [hread]
    exact ⟨dirty, ⟨g'⟩, rfl, hheights⟩

/-! ### Touches -/

/-- A place of an operation that may write: seeing the surface, it names a point and the height that
the point is to get. -/
def Touch : Type := Surface → Except Error (Option (Point × Float))

def Touch.Total (t : Touch) : Prop := ∀ s, ∃ write, t s = .ok write

def touch (s : Surface) (t : Touch) : Except Error Surface := do
  match ← t s with
  | some (p, height) => s.set p.x p.y height
  | none => pure s

/-- Writes what each touch of a list names, one after another. -/
def edit (s : Surface) (touches : List Touch) : Except Error Surface := touches.foldlM touch s

lemma exists_touch {t : Touch} (ht : t.Total) (s : Surface) :
    ∃ s', s.touch t = .ok s' ∧ s.grid.Edited s'.grid := by
  obtain ⟨write, hwrite⟩ := ht s
  rw [touch, hwrite]
  cases write with
  | none => exact ⟨s, rfl, HeightGrid.edited_self s.grid⟩
  | some write => exact exists_set s write.1.x write.1.y write.2

/-- An edit keeps the frame. -/
lemma exists_edit {touches : List Touch} (ht : ∀ t ∈ touches, t.Total) (s : Surface) :
    ∃ s', s.edit touches = .ok s' ∧ s.SameFrame s' := by
  refine exists_foldlM (P := s.SameFrame) (sameFrame_self s) fun t hmem s₁ h₁ => ?_
  obtain ⟨s₂, hs₂, hedited⟩ := exists_touch (ht t hmem) s₁
  exact ⟨s₂, hs₂, h₁.trans (sameFrame_of_edited hedited)⟩

/-- A loop whose every round is an edit of the same region is one edit. -/
lemma foldlM_eq_edit {α : Type} {round : Surface → α → Except Error Surface}
    {touches : α → List Touch} {region : Extent}
    (hround : ∀ s a, s.extent = region → round s a = s.edit (touches a))
    (ht : ∀ a, ∀ t ∈ touches a, t.Total) (as : List α) (hs : s.extent = region) :
    as.foldlM round s = s.edit (as.flatMap touches) := by
  induction as generalizing s with
  | nil => rfl
  | cons a as ih =>
    obtain ⟨s', hs', hframe⟩ := exists_edit (ht a) s
    rw [List.foldlM_cons, hround s a hs, List.flatMap_cons, edit, edit, List.foldlM_append]
    rw [edit] at hs'
    rw [hs']
    exact ih (hframe.extent_eq.trans hs)

end Surface

end Terrain
