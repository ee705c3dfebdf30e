import Terrain.Proofs.HeightGrid
import Terrain.Proofs.Number.Single

/-!
# Lists of the heights of a region

A region is written out as a list of stored heights, column after column, as a list of singles, row
after row, and as a rectangle of doubles. Each of them holds every cell once, at a place that its
coordinates tell, and the stored heights make the region again. They are what the first entries of any
list of integers are to a region that is made from it.
-/

namespace Terrain.HeightGrid

variable {g : HeightGrid} {x y width height : Nat} {map : List Int32}

/-! ### Places of cells -/

lemma length_compressedMap (g : HeightGrid) : g.compressedMap.length = g.width * g.height := by
  rw [g.shows_self.compressedMap, List.length_map, List.length_range]

/-- The stored heights are what a loop over the columns around one over the rows goes through. -/
lemma compressedMap_eq_flatMap (g : HeightGrid) : g.compressedMap =
    (List.range g.width).flatMap fun x => (List.range g.height).map (g.storedAt x) := by
  rw [g.shows_self.compressedMap]
  exact Grid.map_range_mul g.storedAt g.width g.height

lemma length_singles (g : HeightGrid) : g.singles.length = g.width * g.height := by
  rw [singles, List.length_map, Array.length_toList, g.cells.size_values]
  rfl

/-- Among the stored heights, a cell stands in its column. -/
lemma getElem?_compressedMap (hx : x < g.width) (hy : y < g.height) :
    g.compressedMap[x * g.height + y]? = g.stored? x y := by
  rw [g.shows_self.compressedMap, stored?_eq_storedAt hx hy]
  simp [Grid.column_lt hx hy, Grid.flat_mod hy, Grid.flat_div hy]

/-- Among the singles, a cell stands in its row. -/
lemma getElem?_singles (hx : x < g.width) (hy : y < g.height) :
    g.singles[y * g.width + x]? = (g.height? x y).map Number.narrow := by
  have hplace : g.stored? x y = g.cells.values[y * g.width + x]? := Grid.at?_of_lt hx hy
  rw [singles, List.getElem?_map, Array.getElem?_toList, height?, hplace, Option.map_map]
  rfl

lemma at?_doubles (g : HeightGrid) (x y : Nat) : g.doubles.at? x y = g.height? x y :=
  Grid.at?_map _ g.cells x y

/-! ### From stored heights to a region and back -/

/-- The stored heights of a region, with anything behind them, make the region again. -/
lemma exists_ofCompressedMap_append (g : HeightGrid) (surplus : List Int32) :
    ∃ r, ofCompressedMap (g.compressedMap ++ surplus) g.factor g.width g.height g.altitude = .ok r ∧
      (r.altitude = g.altitude ∧ r.factor = g.factor ∧ r.cells = g.cells) ∧ ∀ p, ¬r.Dirty p := by
  have hlength := g.length_compressedMap
  have henough : g.width * g.height ≤ (g.compressedMap ++ surplus).length := by
    rw [List.length_append, hlength]
    exact Nat.le_add_right _ _
  obtain ⟨r, hr, hfresh⟩ := exists_ofCompressedMap g.fits_self henough g.factor g.altitude
  refine ⟨r, hr, ⟨hfresh.altitude_eq, hfresh.factor_eq, ?_⟩, hfresh.clean⟩
  refine (hfresh.toShows.cells_eq_iff g.shows_self).mpr fun x y hx hy => ?_
  rw [List.getD_eq_getElem?_getD, List.getElem?_append_left (hlength ▸ Grid.column_lt hx hy),
    getElem?_compressedMap hx hy, storedAt]

lemma map_getD_range {n : Nat} (h : n ≤ map.length) :
    ((List.range n).map fun i => map.getD i 0) = map.take n := by
  refine List.ext_getElem (by simp [h]) fun i hi hi' => ?_
  rw [List.length_map, List.length_range] at hi
  rw [List.getElem_map, List.getElem_range, List.getElem_take, List.getD_eq_getElem]

/-- The stored heights of a region that is made from a list are the first ones of the list. -/
lemma exists_compressedMap_eq_take (fits : Fits width height)
    (henough : width * height ≤ map.length) (factor : Float32) (altitude : Nat) :
    ∃ r, ofCompressedMap map factor width height altitude = .ok r ∧
      r.width = width ∧ r.height = height ∧ r.altitude = altitude ∧ r.factor = factor ∧
      (∀ p, ¬r.Dirty p) ∧ r.compressedMap = map.take (width * height) := by
  obtain ⟨r, hr, hfresh⟩ := exists_ofCompressedMap fits henough factor altitude
  refine ⟨r, hr, hfresh.width_eq, hfresh.height_eq, hfresh.altitude_eq, hfresh.factor_eq,
    hfresh.clean, ?_⟩
  rw [hfresh.compressedMap]
  simp only [Nat.div_add_mod', map_getD_range henough]

lemma toHeights_eq {r : HeightGrid} (haltitude : r.altitude = g.altitude)
    (hfactor : r.factor = g.factor) (hcells : r.cells = g.cells) : r.toHeights = g.toHeights := by
  obtain ⟨⟨altitude, factor, cells, fits⟩, flags, hcolumns, hrows⟩ := r
  dsimp only at haltitude hfactor hcells
  subst haltitude hfactor hcells
  rfl

/-- The lists and the rectangle that a region is written out as have as many entries as the region has
cells. The cell in a column and a row stands at `x * height + y` among the stored heights, at
`y * width + x` among the heights that are rounded to singles, and at its own place in the rectangle;
the stored heights come as a loop over the columns around one over the rows goes through them.
The stored heights, with anything behind them, make a region that has the same heights, altitude and
factor, is equal to the first one, and has no flagged patch. And a region of any size that a region can
have, as every region has one, is made from a list of integers with the first ones of them as its
stored heights, while a list that is too short is refused with its length and the one that is needed. -/
theorem flat_layouts_agree (g : HeightGrid) :
    (g.compressedMap.length = g.width * g.height ∧ g.singles.length = g.width * g.height ∧
      g.doubles.width = g.width ∧ g.doubles.height = g.height) ∧
    (∀ x y, x < g.width → y < g.height → ∃ stored height,
      g.stored? x y = some stored ∧ g.height? x y = some height ∧
      g.compressedMap[x * g.height + y]? = some stored ∧
      g.singles[y * g.width + x]? = some (Number.narrow height) ∧
      g.doubles.at? x y = some height) ∧
    (g.compressedMap =
      (List.range g.width).flatMap fun x => (List.range g.height).map (g.storedAt x)) ∧
    (∀ surplus, ∃ r,
      ofCompressedMap (g.compressedMap ++ surplus) g.factor g.width g.height g.altitude = .ok r ∧
      r.toHeights = g.toHeights ∧ (0 < g.factor → (r == g) = true) ∧ ∀ p, ¬r.Dirty p) ∧
    Fits g.width g.height ∧
    ∀ (width height altitude : Nat) (factor : Float32) (map : List Int32),
      (Fits width height → width * height ≤ map.length →
        ∃ r, ofCompressedMap map factor width height altitude = .ok r ∧ r.width = width ∧
          r.height = height ∧ r.altitude = altitude ∧ r.factor = factor ∧ (∀ p, ¬r.Dirty p) ∧
          r.compressedMap = map.take (width * height)) ∧
      (map.length < width * height → ofCompressedMap map factor width height altitude =
        .error (.truncated .compressedMap (width * height) map.length)) := by
  refine ⟨⟨g.length_compressedMap, g.length_singles, rfl, rfl⟩, ?_, g.compressedMap_eq_flatMap, ?_,
    g.fits_self, ?_⟩
  · intro x y hx hy
    have hstored := stored?_eq_storedAt hx hy
    have hheight := height?_eq_ofStored hx hy
    refine ⟨_, _, hstored, hheight, ?_, ?_, ?_⟩
    · rw [getElem?_compressedMap hx hy, hstored]
    · rw [getElem?_singles hx hy, hheight, Option.map_some]
    · rw [at?_doubles, hheight]
  · intro surplus
    obtain ⟨r, hr, ⟨haltitude, hfactor, hcells⟩, hclean⟩ := g.exists_ofCompressedMap_append surplus
    refine ⟨r, hr, toHeights_eq haltitude hfactor hcells, fun hpos => ?_, hclean⟩
    refine beq_iff.mpr ⟨haltitude, ?_, hcells⟩
    rw [hfactor]
    exact Number.beq_self_of_pos hpos
  · intro width height altitude factor map
    exact ⟨fun fits henough => exists_compressedMap_eq_take fits henough factor altitude,
      fun hshort => if_pos hshort⟩

/-- Three columns of two cells, and an entry that is left over. -/
example : (ofCompressedMap [1, 2, 3, 4, 5, 6, 7] 100 3 2 4096).toOption.map
    (fun r => (r.cells.values.toList, r.compressedMap)) =
      some ([1, 3, 5, 2, 4, 6], [1, 2, 3, 4, 5, 6]) := by
  decide +kernel

end Terrain.HeightGrid
