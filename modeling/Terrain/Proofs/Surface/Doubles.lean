import Terrain.Proofs.Blob.Decode
import Terrain.Surface

/-!
# Terrain from rectangles of doubles

There are two ways from a rectangle of doubles to terrain. A region of a given size takes over the
cells it has in common with the rectangle, one write after the other, and flags nothing in the end;
a grid of the size of the rectangle takes over all values at once. They agree in every finite cell.
-/

namespace Terrain

open HeightGrid

variable {doubles : Grid Float} {g : HeightGrid} {width height altitude : Nat}

/-! ### Stored heights -/

/-- The stored height that a cell takes over from a rectangle of doubles, or another one where the
rectangle has no finite double. -/
def Grid.quantizeOr (doubles : Grid Float) (rest : Int32) (x y : Nat) : Int32 :=
  match doubles.get? x y with
  | some double => if double.isFinite then Height.quantize double Height.defaultFactor else rest
  | none => rest

lemma Grid.quantizeOr_of_get? {x y : Nat} {double : Float} (h : doubles.get? x y = some double)
    (rest : Int32) : doubles.quantizeOr rest x y =
      if double.isFinite then Height.quantize double Height.defaultFactor else rest := by
  rw [Grid.quantizeOr, h]

/-- Outside of the rectangle there is nothing to take over. -/
lemma Grid.quantizeOr_of_not_lt {x y : Nat} (h : ¬(x < doubles.width ∧ y < doubles.height))
    (rest : Int32) : doubles.quantizeOr rest x y = rest := by
  have hnone : doubles.get? x y = none := by
    rw [Option.eq_none_iff_forall_ne_some]
    exact fun _ hsome => h (Grid.lt_of_get?_eq_some hsome)
  rw [Grid.quantizeOr, hnone]

/-! ### A grid of the size of the rectangle -/

lemma HeightGrid.exists_ofDoubles (fits : Fits doubles.width doubles.height) :
    ∃ g, HeightGrid.ofDoubles doubles = .ok g ∧
      g.IsFresh doubles.width doubles.height defaultAltitude Height.defaultFactor
        (doubles.quantizeOr 0) := by
  refine ⟨_, sized_of_fits fits, ⟨⟨rfl, rfl, rfl, rfl, fun {x y} hx hy => ?_⟩, ?_⟩⟩
  · obtain ⟨double, hdouble⟩ := Grid.exists_at?_eq_some hx hy
    rw [Grid.quantizeOr_of_get? ((Grid.get?_of_lt hx hy).trans hdouble)]
    exact (Grid.at?_map _ doubles x y).trans (congrArg (Option.map _) hdouble)
  · exact @PatchFlags.not_flagged_new doubles.width doubles.height fits.2

namespace Surface

/-! ### A region of a given size -/

/-- The number of the write to a cell of the common part, which goes column after column. -/
def writeNumber? (columns rows x y : Nat) : Option Nat := Compressed.number? rows columns y x

lemma writeNumber?_eq_some_iff {columns rows i : Nat} (hi : i < columns * rows) (x y : Nat) :
    writeNumber? columns rows x y = some i ↔ i / rows = x ∧ i % rows = y :=
  (Compressed.number?_eq_some_iff (hi.trans_eq (Nat.mul_comm _ _)) y x).trans and_comm

/-- The stored height of the write with a number. -/
def writeValue (doubles : Grid Float) (rest : Int32) (rows i : Nat) : Int32 :=
  doubles.quantizeOr rest (i / rows) (i % rows)

/-- One write. -/
lemma exists_writeCell {columns rows i : Nat} {rest : Int32} (hi : i < columns * rows)
    (hcolumns : columns ≤ doubles.width ∧ columns ≤ width)
    (hrows : rows ≤ doubles.height ∧ rows ≤ height)
    (h : g.Shows width height altitude Height.defaultFactor
      (covered (writeNumber? columns rows) (writeValue doubles rest rows) rest i)) :
    ∃ double g', doubles.at? (i / rows) (i % rows) = some double ∧
      g.set (i / rows) (i % rows) double = .done g' ∧
      g'.Shows width height altitude Height.defaultFactor
        (covered (writeNumber? columns rows) (writeValue doubles rest rows) rest (i + 1)) := by
  have hcell := writeNumber?_eq_some_iff hi
  obtain ⟨hx, hy⟩ := Grid.div_lt_and_mod_lt hi
  obtain ⟨double, hdouble⟩ := Grid.exists_at?_eq_some (hx.trans_le hcolumns.1) (hy.trans_le hrows.1)
  have hvalue := Grid.quantizeOr_of_get?
    ((Grid.get?_of_lt (hx.trans_le hcolumns.1) (hy.trans_le hrows.1)).trans hdouble) rest
  change writeValue doubles rest rows i = _ at hvalue
  by_cases hfinite : double.isFinite = true
  · rw [if_pos hfinite] at hvalue
    obtain ⟨g', hg', hw⟩ := exists_setStored ((hx.trans_le hcolumns.2).trans_eq h.width_eq.symm)
      ((hy.trans_le hrows.2).trans_eq h.height_eq.symm) (writeValue doubles rest rows i)
    refine ⟨double, g', hdouble, ?_, h.next hw hcell⟩
    rw [HeightGrid.set, if_pos hfinite, h.factor_eq, ← hvalue]
    exact hg'
  -- what is not finite is dropped, which leaves what its number stands for
  · rw [if_neg hfinite] at hvalue
    exact ⟨double, g, hdouble, if_neg hfinite, h.skip fun _ _ _ _ _ => hvalue⟩

/-- The writes to the common part, by the cells that have been written so far. -/
lemma exists_writeCells (doubles : Grid Float) {columns rows : Nat} {rest : Int32}
    (hcolumns : columns ≤ doubles.width ∧ columns ≤ width)
    (hrows : rows ≤ doubles.height ∧ rows ≤ height)
    (h : g.Shows width height altitude Height.defaultFactor fun _ _ => rest) :
    ∃ g', writeCells g doubles ((List.range (columns * rows)).map fun i => (i / rows, i % rows)) =
        .ok g' ∧
      g'.Shows width height altitude Height.defaultFactor
        (covered (writeNumber? columns rows) (writeValue doubles rest rows) rest
          (columns * rows)) := by
  rw [writeCells, List.foldlM_map]
  refine exists_foldlM_range
    (P := fun i (g : HeightGrid) => g.Shows width height altitude Height.defaultFactor
      (covered (writeNumber? columns rows) (writeValue doubles rest rows) rest i))
    (h.covered_zero _ _) ?_
  intro i hi g hs
  obtain ⟨double, g', hdouble, hg', hs'⟩ := exists_writeCell hi hcolumns hrows hs
  refine ⟨g', ?_, hs'⟩
  dsimp only
  rw [hdouble]
  exact congrArg Write.toExcept hg'

/-- A rectangle of doubles fits into any region. -/
lemma exists_ofDoubles (doubles : Grid Float) (fits : Fits width height) (altitude : Nat) :
    ∃ s, ofDoubles doubles width height altitude = .ok s ∧
      s.grid.IsFresh width height altitude Height.defaultFactor (doubles.quantizeOr 2100) := by
  obtain ⟨g, hg, hshows⟩ := exists_writeCells doubles
    ⟨min_le_left _ _, min_le_right _ _⟩ ⟨min_le_left _ _, min_le_right _ _⟩
    (shows_flatten_new width height altitude Height.defaultFactor fits)
  rw [Height.quantize_default] at hshows
  refine ⟨⟨g.clearFlags⟩, ?_, (hshows.congr fun x y hx hy => ?_).clearFlags⟩
  · rw [ofDoubles, create_of_fits fits, ok_bind, hg]
    rfl
  rw [covered, writeNumber?, Compressed.number?]
  split_ifs with hin
  · obtain ⟨hy', hx'⟩ := hin
    simp only [Nat.mul_comm (min doubles.width width), Grid.flat_lt hy' hx', if_true, writeValue,
      Grid.flat_div hy', Grid.flat_mod hy']
  · refine (Grid.quantizeOr_of_not_lt (fun hin' => hin ?_) _).symm
    exact ⟨lt_min hin'.2 hy, lt_min hin'.1 hx⟩

/-- There is no region to fit into where its cells or patches cannot be counted. -/
lemma ofDoubles_of_not_fits (doubles : Grid Float) (hfits : ¬Fits width height) (altitude : Nat) :
    ofDoubles doubles width height altitude = .error .uncountable := by
  rw [ofDoubles, create, sized_of_not_fits hfits]
  rfl

/-- A rectangle of doubles of any size fits into a region of any size that a region can have, which is
the case with less than `2 ^ 32` cells and sizes below the limit by more than a patch. The region has
the altitude it was given and the default factor, no patch of it is flagged, and a cell holds the
stored height of the double there, or 2100 where the rectangle has no finite double. The grid of the
rectangle has its size, the default altitude and factor, no flagged patch, and zero instead of 2100; in
the finite cells the region of the same size holds the same. -/
theorem ofDoubles_fits (doubles : Grid Float) (width height altitude : Nat) :
    (width * height < 2 ^ 32 → width + 16 < 2 ^ 32 → height + 16 < 2 ^ 32 →
      ∃ s, ofDoubles doubles width height altitude = .ok s ∧
        s.grid.IsFresh width height altitude Height.defaultFactor (doubles.quantizeOr 2100)) ∧
    (¬Fits width height → ofDoubles doubles width height altitude = .error .uncountable) ∧
    (doubles.width + 16 < 2 ^ 32 → doubles.height + 16 < 2 ^ 32 →
      ∃ g s, HeightGrid.ofDoubles doubles = .ok g ∧
        g.IsFresh doubles.width doubles.height defaultAltitude Height.defaultFactor
          (doubles.quantizeOr 0) ∧
        ofDoubles doubles doubles.width doubles.height altitude = .ok s ∧
        ∀ (x y : Nat) (double : Float), doubles.get? x y = some double →
          g.stored? x y = if double.isFinite then s.grid.stored? x y else some 0) := by
  refine ⟨fun hcount hwidth hheight => ?_, fun hfits => ?_, fun hwidth hheight => ?_⟩
  · exact exists_ofDoubles doubles (fits_iff.mpr ⟨hcount, hwidth, hheight⟩) altitude
  · exact ofDoubles_of_not_fits doubles hfits altitude
  have fits : Fits doubles.width doubles.height :=
    fits_iff.mpr ⟨doubles.count_lt, hwidth, hheight⟩
  obtain ⟨g, hg, hgrid⟩ := HeightGrid.exists_ofDoubles fits
  obtain ⟨s, hs, hfresh⟩ := exists_ofDoubles doubles fits altitude
  refine ⟨g, s, hg, hgrid, hs, fun x y double hdouble => ?_⟩
  obtain ⟨hx, hy⟩ := Grid.lt_of_get?_eq_some hdouble
  rw [hgrid.stored_eq hx hy, hfresh.stored_eq hx hy, Grid.quantizeOr_of_get? hdouble,
    Grid.quantizeOr_of_get? hdouble]
  split_ifs <;> rfl

/-- A row of two doubles, of which the second is not a number. -/
def row : Grid Float := .ofFn 2 1 fun x _ => if x = 0 then 1.25 else 0 / 0

/-- The row in a region of one patch. -/
theorem ofDoubles_fits_row : ∃ s, ofDoubles row 16 16 512 = .ok s ∧
    s.grid.stored? 0 0 = some 125 ∧ s.grid.stored? 1 0 = some 2100 ∧
      s.grid.stored? 0 1 = some 2100 := by
  obtain ⟨s, hs, hfresh⟩ := (ofDoubles_fits row 16 16 512).1 (by decide) (by decide) (by decide)
  have hfirst : row.quantizeOr 2100 0 0 = 125 := by decide +kernel
  have hsecond : row.quantizeOr 2100 1 0 = 2100 := by decide +kernel
  have hbeyond : row.quantizeOr 2100 0 1 = 2100 := by decide +kernel
  exact ⟨s, hs, hfirst ▸ hfresh.stored_eq (by decide) (by decide),
    hsecond ▸ hfresh.stored_eq (by decide) (by decide),
    hbeyond ▸ hfresh.stored_eq (by decide) (by decide)⟩

/-- There is no region of 65536 by 65536 cells for the row, because that is one more than can be
counted. -/
theorem not_ofDoubles_fits_large : ¬∃ s, ofDoubles row 65536 65536 512 = .ok s := by
  rintro ⟨s, hs⟩
  rw [ofDoubles_of_not_fits row (by decide)] at hs
  cases hs

end Surface

end Terrain
