import Terrain.HeightGrid
import Terrain.Proofs.Loop
import Terrain.Proofs.PatchFlags

/-!
# Writes to height grids

A write to a cell of the region always goes through, and `Wrote` says all that it does: the cell
takes the stored height, and the patch of the cell is flagged if that is a change. `Shows` says what
a region looks like, and `IsFresh` also that no patch is flagged, as after reading it.
-/

namespace Terrain.HeightGrid

variable {g g' : HeightGrid} {x y : Nat}

/-- The patch in a column and a row is flagged. -/
def Dirty (g : HeightGrid) (p : Nat × Nat) : Prop := g.flags.Flagged p

/-- The patch of a cell of the region has a flag. -/
lemma has_patchAt (hx : x < g.width) (hy : y < g.height) : g.flags.Has (patchAt x y) :=
  PatchFlags.has_of_lt g.columns_flags g.rows_flags hx hy

lemma has_congr (hw : g'.width = g.width) (hh : g'.height = g.height) {p : Nat × Nat} :
    g'.flags.Has p ↔ g.flags.Has p := by
  have hcolumns : g'.flags.columns = g.flags.columns := by
    rw [g'.columns_flags, g.columns_flags]
    exact congrArg patchCount hw
  have hrows : g'.flags.rows = g.flags.rows := by
    rw [g'.rows_flags, g.rows_flags]
    exact congrArg patchCount hh
  rw [PatchFlags.Has, PatchFlags.Has, hcolumns, hrows]

lemma not_dirty_clearFlags (g : HeightGrid) (p : Nat × Nat) : ¬g.clearFlags.Dirty p :=
  PatchFlags.not_flagged_clear g.flags p

/-! ### Sizes as they are written -/

lemma toNat_toInt_ofNat {n : Nat} (hn : n < 2 ^ 31) : (Int32.ofNat n).toInt.toNat = n := by
  rw [Int32.toInt_ofNat_of_lt hn, Int.toNat_natCast]

lemma not_ofNat_lt_zero {n : Nat} (hn : n < 2 ^ 31) : ¬Int32.ofNat n < 0 := by
  rw [Int32.lt_iff_toInt_lt, Int32.toInt_ofNat_of_lt hn]
  exact not_lt_of_ge (Int.natCast_nonneg n)

/-! ### One write -/

/-- A grid after a stored height was written to a cell. -/
structure Wrote (g : HeightGrid) (x y : Nat) (stored : Int32) (g' : HeightGrid) : Prop where
  width_eq : g'.width = g.width
  height_eq : g'.height = g.height
  altitude_eq : g'.altitude = g.altitude
  factor_eq : g'.factor = g.factor
  stored_eq : ∀ {x' y'}, x' < g.width → y' < g.height →
    g'.stored? x' y' = if x = x' ∧ y = y' then some stored else g.stored? x' y'
  dirty_iff : ∀ p, g'.Dirty p ↔ g.Dirty p ∨ (g.stored? x y ≠ some stored ∧ p = patchAt x y)

/-- Writing what is there already changes nothing. -/
lemma wrote_self {stored : Int32} (h : g.stored? x y = some stored) : g.Wrote x y stored g where
  width_eq := rfl
  height_eq := rfl
  altitude_eq := rfl
  factor_eq := rfl
  stored_eq := by
    intro x' y' _ _
    split_ifs with heq
    · rw [← heq.1, ← heq.2, h]
    · rfl
  dirty_iff := by
    intro p
    rw [h]
    simp

lemma wrote_put_mark (hx : x < g.width) (hy : y < g.height) {stored : Int32}
    (h : g.stored? x y ≠ some stored) : g.Wrote x y stored ((g.put x y stored).mark x y) where
  width_eq := rfl
  height_eq := rfl
  altitude_eq := rfl
  factor_eq := rfl
  stored_eq := fun hx' hy' => Grid.at?_put_of_lt hx hy hx' hy' stored
  dirty_iff := by
    intro p
    rw [and_iff_right h]
    exact PatchFlags.flagged_mark (has_patchAt hx hy)

/-- The grid with another stored height in a cell; a change flags the patch of the cell. -/
def write (g : HeightGrid) (x y : Nat) (stored : Int32) : HeightGrid :=
  if g.stored? x y = some stored then g else (g.put x y stored).mark x y

lemma wrote_write (hx : x < g.width) (hy : y < g.height) (stored : Int32) :
    g.Wrote x y stored (g.write x y stored) := by
  rw [write]
  split_ifs with h
  · exact wrote_self h
  · exact wrote_put_mark hx hy h

lemma setStored_eq_write (hx : x < g.width) (hy : y < g.height) (stored : Int32) :
    g.setStored x y stored = .done (g.write x y stored) := by
  obtain ⟨before, hbefore⟩ := Grid.exists_at?_eq_some (g := g.cells) hx hy
  have hstored : g.stored? x y = some before := hbefore
  have hfinds : g.flags.Finds x y := PatchFlags.finds_of_has (has_patchAt hx hy)
  rw [setStored, write, hstored]
  simp only [hfinds, if_true, Option.some_inj]
  split_ifs <;> rfl

/-- A write to a cell of the region goes through. -/
lemma exists_setStored (hx : x < g.width) (hy : y < g.height) (stored : Int32) :
    ∃ g', g.setStored x y stored = .done g' ∧ g.Wrote x y stored g' :=
  ⟨_, setStored_eq_write hx hy stored, wrote_write hx hy stored⟩

/-! ### Changes -/

/-- Some cell of a patch does not hold what it held. -/
def Changed (g g' : HeightGrid) (p : Nat × Nat) : Prop :=
  ∃ x y, (x < g.width ∧ y < g.height) ∧ p = patchAt x y ∧ g'.stored? x y ≠ g.stored? x y

lemma not_changed_self (g : HeightGrid) (p : Nat × Nat) : ¬g.Changed g p := by
  rintro ⟨x, y, -, -, hne⟩
  exact hne rfl

/-- A grid after at most one cell was written. -/
structure Edited (g g' : HeightGrid) : Prop where
  width_eq : g'.width = g.width
  height_eq : g'.height = g.height
  altitude_eq : g'.altitude = g.altitude
  factor_eq : g'.factor = g.factor
  dirty_iff : ∀ p, g'.Dirty p ↔ g.Dirty p ∨ g.Changed g' p

lemma edited_self (g : HeightGrid) : g.Edited g where
  width_eq := rfl
  height_eq := rfl
  altitude_eq := rfl
  factor_eq := rfl
  dirty_iff := fun p => (or_iff_left (not_changed_self g p)).symm

/-- A write changes a patch if it changes the cell it goes to. -/
lemma Wrote.changed_iff {stored : Int32} (h : g.Wrote x y stored g') (hx : x < g.width)
    (hy : y < g.height) {p : Nat × Nat} :
    g.Changed g' p ↔ g.stored? x y ≠ some stored ∧ p = patchAt x y := by
  constructor
  · rintro ⟨x', y', ⟨hx', hy'⟩, hp, hne⟩
    rw [h.stored_eq hx' hy'] at hne
    split_ifs at hne with hcell
    · obtain ⟨rfl, rfl⟩ := hcell
      exact ⟨hne.symm, hp⟩
    · exact absurd rfl hne
  · rintro ⟨hne, hp⟩
    refine ⟨x, y, ⟨hx, hy⟩, hp, ?_⟩
    rw [h.stored_eq hx hy, if_pos ⟨rfl, rfl⟩]
    exact hne.symm

lemma Wrote.edited {stored : Int32} (h : g.Wrote x y stored g') (hx : x < g.width)
    (hy : y < g.height) : g.Edited g' where
  width_eq := h.width_eq
  height_eq := h.height_eq
  altitude_eq := h.altitude_eq
  factor_eq := h.factor_eq
  dirty_iff := fun p => by rw [h.dirty_iff p, h.changed_iff hx hy]

/-- A height that is written to a cell of the region goes through or is dropped. -/
lemma exists_set (hx : x < g.width) (hy : y < g.height) (height : Float) :
    ∃ g', g.set x y height = .done g' ∧ g.Edited g' := by
  rw [set]
  split_ifs with hfinite
  · obtain ⟨g', hg', hw⟩ := exists_setStored hx hy (Height.quantize height g.factor)
    exact ⟨g', hg', hw.edited hx hy⟩
  · exact ⟨g, rfl, edited_self g⟩

/-! ### Reading flags -/

/-- Reading at a cell tells whether its patch is flagged, and clears at most the flag it reads. -/
lemma exists_readDirty? (hx : x < g.width) (hy : y < g.height) (clearing : Bool) :
    ∃ dirty g', g.readDirty? x y clearing = some (dirty, g') ∧ g'.toHeights = g.toHeights ∧
      (dirty = true ↔ g.Dirty (patchAt x y)) ∧
      ∀ p, g'.Dirty p ↔ g.Dirty p ∧ ¬(clearing = true ∧ p = patchAt x y) := by
  have hhas := has_patchAt hx hy
  have hget := Bitset.get?_eq_some (PatchFlags.reaches_bit hhas)
  refine ⟨_, _, congrArg (Option.map _) ((PatchFlags.isDirty?_eq_get? hhas).trans hget), ?_, ?_, ?_⟩
  · cases clearing <;> rfl
  · rw [Dirty, PatchFlags.Flagged, and_iff_right hhas, hget, Option.some_inj]
  · intro p
    cases clearing with
    | false => simp
    | true =>
      rw [and_iff_right rfl]
      exact PatchFlags.flagged_clearAt hhas

/-! ### What a region looks like -/

/-- The sizes, the altitude, the factor and the stored heights of a region. -/
structure Shows (g : HeightGrid) (width height altitude : Nat) (factor : Float32)
    (cell : Nat → Nat → Int32) : Prop where
  width_eq : g.width = width
  height_eq : g.height = height
  altitude_eq : g.altitude = altitude
  factor_eq : g.factor = factor
  stored_eq : ∀ {x y}, x < width → y < height → g.stored? x y = some (cell x y)

/-- A region that looks so and of which no patch is flagged. -/
structure IsFresh (g : HeightGrid) (width height altitude : Nat) (factor : Float32)
    (cell : Nat → Nat → Int32) : Prop
    extends g.Shows width height altitude factor cell where
  clean : ∀ p, ¬g.Dirty p

variable {width height altitude : Nat} {factor : Float32} {cell cell' : Nat → Nat → Int32}

lemma Shows.congr (h : g.Shows width height altitude factor cell)
    (hcell : ∀ x y, x < width → y < height → cell x y = cell' x y) :
    g.Shows width height altitude factor cell' :=
  { h with stored_eq := fun hx hy => by rw [h.stored_eq hx hy, hcell _ _ hx hy] }

lemma Shows.wrote (h : g.Shows width height altitude factor cell) {stored : Int32}
    (hw : g.Wrote x y stored g') :
    g'.Shows width height altitude factor
      fun x' y' => if x = x' ∧ y = y' then stored else cell x' y' where
  width_eq := hw.width_eq.trans h.width_eq
  height_eq := hw.height_eq.trans h.height_eq
  altitude_eq := hw.altitude_eq.trans h.altitude_eq
  factor_eq := hw.factor_eq.trans h.factor_eq
  stored_eq := by
    intro x' y' hx' hy'
    rw [hw.stored_eq (h.width_eq ▸ hx') (h.height_eq ▸ hy'), h.stored_eq hx' hy']
    split_ifs <;> rfl

lemma Shows.clearFlags (h : g.Shows width height altitude factor cell) :
    g.clearFlags.IsFresh width height altitude factor cell :=
  { h with clean := not_dirty_clearFlags g }

/-! ### Numbered cells -/

/-- A number that is that of a cell is divided by the columns. -/
lemma cellOf_of_lt {columns rows i : Nat} (hi : i < columns * rows)
    (hcount : columns * rows ≤ Grid.placeCount) :
    cellOf columns i = .ok (i % columns, i / columns) := by
  have hpos : columns ≠ 0 := (Nat.pos_of_mul_pos_right (Nat.zero_lt_of_lt hi)).ne'
  rw [cellOf, Nat.mod_eq_of_lt (hi.trans_le hcount)]
  exact if_neg hpos

/-! ### New regions -/

/-- The sizes of a region are some that a region can have. -/
lemma fits_self (g : HeightGrid) : Fits g.width g.height := ⟨g.cells.count_lt, g.fits⟩

/-- With few enough cells, and sizes a patch below the limit, the patches can be counted too. -/
lemma fits_iff : Fits width height ↔ width * height < 2 ^ 32 ∧
    width + 16 < 2 ^ 32 ∧ height + 16 < 2 ^ 32 := by
  constructor
  · rintro ⟨hcount, ⟨hwidth, hheight⟩, -⟩
    exact ⟨hcount, hwidth, hheight⟩
  · rintro ⟨hcount, hwidth, hheight⟩
    exact ⟨hcount, ⟨hwidth, hheight⟩,
      (Nat.mul_le_mul (patchCount_le width) (patchCount_le height)).trans_lt hcount⟩

lemma fits_of_lt (hwidth : width < 2 ^ 31) (hheight : height < 2 ^ 31)
    (hcount : width * height < 2 ^ 32) : Fits width height :=
  fits_iff.mpr ⟨hcount, by omega, by omega⟩

lemma sized_of_fits {α : Type} {make : Fits width height → α} (h : Fits width height) :
    sized width height make = .ok (make h) :=
  dif_pos h

lemma sized_of_not_fits {α : Type} {make : Fits width height → α} (h : ¬Fits width height) :
    sized width height make = .error .uncountable :=
  dif_neg h

lemma create_of_fits (h : Fits width height) (altitude : Nat) (factor : Float32) :
    create width height altitude factor = .ok (new width height altitude factor h) :=
  sized_of_fits h

lemma isFresh_new (width height altitude : Nat) (factor : Float32) (fits : Fits width height) :
    (new width height altitude factor fits).IsFresh width height altitude factor fun _ _ => 0 where
  width_eq := rfl
  height_eq := rfl
  altitude_eq := rfl
  factor_eq := rfl
  stored_eq := fun hx hy => Grid.at?_replicate 0 hx hy
  clean := @PatchFlags.not_flagged_new width height fits.2

/-- New terrain that was flattened has the default height everywhere. -/
lemma shows_flatten_new (width height altitude : Nat) (factor : Float32)
    (fits : Fits width height) :
    (new width height altitude factor fits).flatten.Shows width height altitude factor
      fun _ _ => Height.quantize Height.defaultHeight factor := by
  have hfinite : Height.defaultHeight.isFinite = true := by decide +kernel
  rw [flatten, fill, if_pos hfinite]
  exact ⟨rfl, rfl, rfl, rfl, fun hx hy => Grid.at?_replicate _ hx hy⟩

/-- The stored height of a cell of the region. -/
def storedAt (g : HeightGrid) (x y : Nat) : Int32 := (g.stored? x y).getD 0

lemma stored?_eq_storedAt (hx : x < g.width) (hy : y < g.height) :
    g.stored? x y = some (g.storedAt x y) := by
  obtain ⟨stored, h⟩ := Grid.exists_at?_eq_some (g := g.cells) hx hy
  have hstored : g.stored? x y = some stored := h
  rw [storedAt, hstored, Option.getD_some]

lemma height?_eq_ofStored (hx : x < g.width) (hy : y < g.height) :
    g.height? x y = some (Height.ofStored (g.storedAt x y) g.factor) := by
  rw [height?, stored?_eq_storedAt hx hy, Option.map_some]

lemma shows_self (g : HeightGrid) :
    g.Shows g.width g.height g.altitude g.factor g.storedAt :=
  ⟨rfl, rfl, rfl, rfl, stored?_eq_storedAt⟩

/-- The stored heights of a region, row after row. -/
lemma Shows.toList_values (h : g.Shows width height altitude factor cell) :
    g.cells.values.toList =
      (List.range (width * height)).map fun i => cell (i % width) (i / width) := by
  have hsize : g.cells.values.size = width * height := by
    rw [g.cells.size_values, ← h.width_eq, ← h.height_eq]
    rfl
  refine List.ext_getElem ?_ fun i hi hi' => ?_
  · rw [Array.length_toList, List.length_map, List.length_range, hsize]
  · rw [List.length_map, List.length_range] at hi'
    obtain ⟨hx, hy⟩ := Grid.mod_lt_and_div_lt hi'
    have hcell := h.stored_eq hx hy
    have hplace := Grid.at?_of_lt (g := g.cells) (hx.trans_eq h.width_eq.symm)
      (hy.trans_eq h.height_eq.symm)
    have hwidth : g.cells.width = width := h.width_eq
    rw [hwidth, Nat.div_add_mod', Array.getElem?_eq_getElem (hsize.symm ▸ hi')] at hplace
    rw [List.getElem_map, List.getElem_range, Array.getElem_toList]
    exact Option.some_inj.mp (hplace.symm.trans hcell)

/-! ### Column after column -/

/-- The stored heights of a region, column after column. -/
lemma Shows.compressedMap (h : g.Shows width height altitude factor cell) :
    g.compressedMap = (List.range (width * height)).map fun i => cell (i / height) (i % height) := by
  have hwidth : g.cells.width = width := h.width_eq
  have hheight : g.cells.height = height := h.height_eq
  have hcell : ∀ i ∈ List.range (width * height), g.cells.at? (i / height) (i % height) =
      some (cell (i / height) (i % height)) := by
    intro i hi
    obtain ⟨hx, hy⟩ := Grid.div_lt_and_mod_lt (List.mem_range.mp hi)
    exact h.stored_eq hx hy
  rw [HeightGrid.compressedMap, Grid.columnMajor, hwidth, hheight, List.filterMap_congr hcell]
  exact congrFun List.filterMap_eq_map' _

/-- A region while the stored heights of a map are written, down one column after the other: the first
`count` have been written, and the others are left. -/
structure Taken (width height altitude : Nat) (factor : Float32) (map : List Int32) (count : Nat)
    (state : HeightGrid × List Int32) : Prop where
  fresh : state.1.IsFresh width height altitude factor
    fun x y => if x * height + y < count then map.getD (x * height + y) 0 else 0
  rest_eq : state.2 = map.drop count

section Taken

variable {map : List Int32} {state : HeightGrid × List Int32}

/-- One step of the loop down a column. -/
lemma Taken.exists_writeNext
    (h : Taken width height altitude factor map (x * height + y) state) (hx : x < width)
    (hy : y < height) (henough : width * height ≤ map.length) :
    ∃ state', writeNext x state y = .ok state' ∧
      Taken width height altitude factor map (x * height + y + 1) state' := by
  obtain ⟨g, rest⟩ := state
  obtain ⟨hfresh, rfl⟩ := h
  have hlt : x * height + y < map.length := (Grid.column_lt hx hy).trans_le henough
  have hx' : x < g.cells.width := hx.trans_eq hfresh.width_eq.symm
  have hy' : y < g.cells.height := hy.trans_eq hfresh.height_eq.symm
  have hput : g.put? x y map[x * height + y] = some (g.put x y map[x * height + y]) :=
    if_pos (Grid.holds_of_lt g.cells hx' hy')
  refine ⟨(g.put x y map[x * height + y], map.drop (x * height + y + 1)), ?_,
    ⟨⟨⟨hfresh.width_eq, hfresh.height_eq, hfresh.altitude_eq, hfresh.factor_eq, ?_⟩,
      hfresh.clean⟩, rfl⟩⟩
  · rw [List.drop_eq_getElem_cons hlt, writeNext, hput]
    rfl
  · intro x' y' hxw hyh
    have hcell := Grid.at?_put_of_lt hx' hy' (hxw.trans_eq hfresh.width_eq.symm)
      (hyh.trans_eq hfresh.height_eq.symm) map[x * height + y]
    refine hcell.trans ?_
    by_cases hsame : x = x' ∧ y = y'
    · obtain ⟨rfl, rfl⟩ := hsame
      rw [if_pos ⟨rfl, rfl⟩, if_pos (Nat.lt_succ_self _), List.getD_eq_getElem _ _ hlt]
    · have hne : x' * height + y' ≠ x * height + y := by
        intro heq
        refine hsame ⟨?_, ?_⟩
        · rw [← Grid.flat_div (y := x) hy, ← heq, Grid.flat_div hyh]
        · rw [← Grid.flat_mod (y := x) hy, ← heq, Grid.flat_mod hyh]
      have hbefore : x' * height + y' < x * height + y + 1 ↔
          x' * height + y' < x * height + y := by omega
      rw [if_neg hsame]
      simp only [hbefore]
      exact hfresh.stored_eq hxw hyh

/-- The loop down a column. -/
lemma Taken.exists_writeColumn (h : Taken width height altitude factor map (x * height) state)
    (hx : x < width) (henough : width * height ≤ map.length) :
    ∃ state', writeColumn height state x = .ok state' ∧
      Taken width height altitude factor map ((x + 1) * height) state' := by
  rw [Nat.succ_mul]
  exact exists_foldlM_range (P := fun y => Taken width height altitude factor map (x * height + y)) h
    fun _ hy _ hstate => hstate.exists_writeNext hx hy henough

end Taken

/-- Enough stored heights make a region of any size that a region can have. The cells of a column
stand next to each other. -/
lemma exists_ofCompressedMap {map : List Int32} (fits : Fits width height)
    (henough : width * height ≤ map.length) (factor : Float32) (altitude : Nat) :
    ∃ r, ofCompressedMap map factor width height altitude = .ok r ∧
      r.IsFresh width height altitude factor fun x y => map.getD (x * height + y) 0 := by
  have hnew : Taken width height altitude factor map (0 * height)
      (new width height altitude factor fits, map) := by
    rw [Nat.zero_mul]
    exact ⟨{ isFresh_new width height altitude factor fits with
      stored_eq := fun hx hy => by simp [(isFresh_new _ _ _ _ fits).stored_eq hx hy] }, rfl⟩
  obtain ⟨⟨r, rest⟩, hloop, hfresh, -⟩ := exists_foldlM_range
    (P := fun x => Taken width height altitude factor map (x * height)) hnew
    fun _ hx _ hstate => hstate.exists_writeColumn hx henough
  refine ⟨r, ?_, { hfresh.toShows.congr fun x y hx hy => if_pos (Grid.column_lt hx hy) with
    clean := hfresh.clean }⟩
  rw [ofCompressedMap, if_neg (not_lt.mpr henough), create_of_fits fits, ok_bind, hloop]
  rfl

/-- For another size there is no region. -/
lemma ofCompressedMap_of_not_fits {map : List Int32} (hfits : ¬Fits width height)
    (henough : width * height ≤ map.length) (factor : Float32) (altitude : Nat) :
    ofCompressedMap map factor width height altitude = .error .uncountable := by
  rw [ofCompressedMap, if_neg (not_lt.mpr henough), create, sized_of_not_fits hfits, error_bind]

/-- The stored heights of a region make the region again. -/
lemma Shows.exists_ofCompressedMap (h : g.Shows width height altitude factor cell)
    (factor' : Float32) (altitude' : Nat) :
    ∃ r, ofCompressedMap g.compressedMap factor' width height altitude' = .ok r ∧
      r.IsFresh width height altitude' factor' cell := by
  have hlength : g.compressedMap.length = width * height := by
    rw [h.compressedMap, List.length_map, List.length_range]
  have fits : Fits width height := h.width_eq ▸ h.height_eq ▸ g.fits_self
  obtain ⟨r, hr, hfresh⟩ := HeightGrid.exists_ofCompressedMap fits hlength.ge factor' altitude'
  refine ⟨r, hr, { hfresh.toShows.congr fun x y hx hy => ?_ with clean := hfresh.clean }⟩
  rw [h.compressedMap]
  simp [Grid.column_lt hx hy, Grid.flat_mod hy, Grid.flat_div hy]

/-! ### Comparing -/

lemma beq_iff : (g == g') = true ↔
    g.altitude = g'.altitude ∧ (g.factor == g'.factor) = true ∧ g.cells = g'.cells := by
  change (g.altitude == g'.altitude && g.factor == g'.factor && g.cells == g'.cells) = true ↔ _
  simp [and_assoc]

/-- Two regions of one size have the same heights if their cells agree. -/
lemma Shows.cells_eq_iff (h : g.Shows width height altitude factor cell) {altitude' : Nat}
    {factor' : Float32} (h' : g'.Shows width height altitude' factor' cell') :
    g.cells = g'.cells ↔ ∀ x y, x < width → y < height → cell x y = cell' x y := by
  constructor
  · intro heq x y hx hy
    have hcell : g.stored? x y = g'.stored? x y := by rw [stored?, stored?, heq]
    rw [h.stored_eq hx hy, h'.stored_eq hx hy] at hcell
    exact Option.some_inj.mp hcell
  · intro hcell
    refine Grid.ext_at? (h.width_eq.trans h'.width_eq.symm) (h.height_eq.trans h'.height_eq.symm) ?_
    intro x y hx hy
    have hx' : x < width := h.width_eq ▸ hx
    have hy' : y < height := h.height_eq ▸ hy
    exact (h.stored_eq hx' hy').trans ((hcell x y hx' hy') ▸ (h'.stored_eq hx' hy').symm)

end Terrain.HeightGrid
