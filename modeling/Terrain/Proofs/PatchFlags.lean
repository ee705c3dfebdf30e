import Terrain.PatchFlags
import Terrain.Proofs.Bitset
import Terrain.Proofs.Grid

/-!
# Flags of patches

A patch is known by its column and its row. Every patch has a bit of its own, so an operation on the
patch of a cell changes the flag of that patch and of no other.
-/

namespace Terrain

/-- The column and the row of the patch of a cell. -/
def patchAt (x y : Nat) : Nat × Nat := (x / patchSize, y / patchSize)

/-- A cell lies in a patch of its row of patches. -/
lemma div_patchSize_lt {x cells : Nat} (hx : x < cells) : x / patchSize < patchCount cells := by
  rw [patchCount, patchSize]
  omega

lemma patchCount_le (cells : Nat) : patchCount cells ≤ cells := by
  rw [patchCount, patchSize]
  omega

namespace PatchFlags

variable {f : PatchFlags} {x y : Nat} {p q : Nat × Nat}

/-- The flags have a patch in this column and row. -/
def Has (f : PatchFlags) (p : Nat × Nat) : Prop := p.1 < f.columns ∧ p.2 < f.rows

/-- The bit of the patch in a column and a row. -/
def bit (f : PatchFlags) (p : Nat × Nat) : Nat := p.2 * f.columns + p.1

/-- There is a patch in this column and row, and it is flagged. -/
def Flagged (f : PatchFlags) (p : Nat × Nat) : Prop := f.Has p ∧ f.flags.get? (f.bit p) = some true

/-- The patch of a cell of a grid is among the patches of the grid. -/
lemma has_of_lt {width height : Nat} (hcolumns : f.columns = patchCount width)
    (hrows : f.rows = patchCount height) (hx : x < width) (hy : y < height) :
    f.Has (patchAt x y) :=
  ⟨(div_patchSize_lt hx).trans_eq hcolumns.symm, (div_patchSize_lt hy).trans_eq hrows.symm⟩

lemma bit_lt_length (hp : f.Has p) : f.bit p < f.flags.length := by
  rw [f.length_flags]
  exact Grid.flat_lt hp.1 hp.2

lemma reaches_bit (hp : f.Has p) : f.flags.Reaches (f.bit p) :=
  Bitset.reaches_of_lt (bit_lt_length hp)

/-- The number of a patch of the grid can be counted. -/
lemma bit_lt_placeCount (hp : f.Has p) : f.bit p < Grid.placeCount :=
  (bit_lt_length hp).trans f.count_lt

lemma finds_of_has (hc : f.Has (patchAt x y)) : f.Finds x y :=
  ⟨bit_lt_placeCount hc, reaches_bit hc⟩

lemma isDirty?_eq_get? (hc : f.Has (patchAt x y)) :
    f.isDirty? x y = f.flags.get? (f.bit (patchAt x y)) := if_pos (bit_lt_placeCount hc)

/-- A patch is where its bit says it is. -/
lemma coordinates_bit (hp : f.Has p) : f.coordinates (f.bit p) = p := by
  rw [coordinates, bit, Grid.flat_mod hp.1, Grid.flat_div hp.1]

lemma bit_coordinates (i : Nat) : f.bit (f.coordinates i) = i := Nat.div_add_mod' i f.columns

/-- No two patches share a bit. -/
lemma bit_inj (hp : f.Has p) (hq : f.Has q) : f.bit p = f.bit q ↔ p = q := by
  constructor
  · intro h
    rw [← coordinates_bit hp, h, coordinates_bit hq]
  · rintro rfl
    rfl

/-! ### What the operations do to the flags -/

lemma not_flagged_new {width height : Nat} {fits : Fits width height} (p : Nat × Nat) :
    ¬(new width height fits).Flagged p :=
  fun h => Bitset.get?_empty_ne_true _ h.2

lemma not_flagged_clear (f : PatchFlags) (p : Nat × Nat) : ¬f.clear.Flagged p :=
  fun h => Bitset.get?_empty_ne_true _ h.2

lemma flagged_markAll : f.markAll.Flagged p ↔ f.Has p := by
  constructor
  · exact fun h => h.1
  · intro hp
    exact ⟨hp, Bitset.get?_fill (bit_lt_length hp)⟩

/-- Marking a cell flags its patch. -/
lemma flagged_mark (hc : f.Has (patchAt x y)) :
    (f.mark x y).Flagged p ↔ f.Flagged p ∨ p = patchAt x y := by
  have hget : (f.mark x y).flags.get? (f.bit p) = some true ↔ f.flags.get? (f.bit p) = some true ∨
      (f.bit (patchAt x y) = f.bit p ∧ f.flags.Reaches (f.bit p)) := Bitset.get?_insert_iff
  constructor
  · rintro ⟨hp, h⟩
    rcases hget.mp h with h | ⟨hbit, -⟩
    · exact Or.inl ⟨hp, h⟩
    · exact Or.inr ((bit_inj hc hp).mp hbit).symm
  · rintro (⟨hp, h⟩ | rfl)
    · exact ⟨hp, hget.mpr (Or.inl h)⟩
    · exact ⟨hc, hget.mpr (Or.inr ⟨rfl, reaches_bit hc⟩)⟩

lemma mark_comm (f : PatchFlags) (x y x' y' : Nat) :
    (f.mark x y).mark x' y' = (f.mark x' y').mark x y := by
  simp only [mark, withFlags, mk.injEq, true_and]
  exact f.flags.insert_comm _ _

/-- Clearing at a cell clears the flag that the cell is found at. -/
lemma flagged_clearAt_iff :
    (f.clearAt x y).Flagged p ↔ f.Flagged p ∧ p ≠ f.coordinates (f.patchOf x y) := by
  have hget : (f.clearAt x y).flags.get? (f.bit p) = some true ↔
      f.flags.get? (f.bit p) = some true ∧ f.patchOf x y ≠ f.bit p := Bitset.get?_erase_iff
  constructor
  · rintro ⟨hp, h⟩
    obtain ⟨h, hne⟩ := hget.mp h
    exact ⟨⟨hp, h⟩, fun heq => hne (by rw [heq, bit_coordinates])⟩
  · rintro ⟨⟨hp, h⟩, hne⟩
    exact ⟨hp, hget.mpr ⟨h, fun hbit => hne (by rw [hbit, coordinates_bit hp])⟩⟩

/-- For a cell of the grid that is the flag of its patch. -/
lemma flagged_clearAt (hc : f.Has (patchAt x y)) :
    (f.clearAt x y).Flagged p ↔ f.Flagged p ∧ p ≠ patchAt x y := by
  have hfound : f.coordinates (f.patchOf x y) = patchAt x y := coordinates_bit hc
  rw [flagged_clearAt_iff, hfound]

/-! ### Draining -/

/-- What is drained are the flagged patches. -/
lemma mem_drain (hp : f.Has p) : p ∈ f.drain.1 ↔ f.Flagged p := by
  rw [drain, List.mem_map, Flagged, and_iff_right hp]
  constructor
  · rintro ⟨i, hi, rfl⟩
    rw [bit_coordinates]
    exact Bitset.mem_toList.mp hi
  · exact fun h => ⟨f.bit p, Bitset.mem_toList.mpr h, coordinates_bit hp⟩

end PatchFlags

end Terrain
