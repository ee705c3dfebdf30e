import Mathlib.Tactic
import Terrain.Grid

/-!
# Cells of a grid

Inside the rectangle every cell has a place of its own, so that what is written to one cell is seen
at that cell and at no other, and a grid is known by its cells.
-/

namespace Terrain.Grid

variable {α β : Type} {g : Grid α} {x y x' y' : Nat}

lemma lt_size_values (hx : x < g.width) (hy : y < g.height) :
    y * g.width + x < g.values.size := by
  rw [g.size_values]
  exact flat_lt hx hy

lemma at?_of_lt (hx : x < g.width) (hy : y < g.height) :
    g.at? x y = g.values[y * g.width + x]? := by
  rw [at?, place_of_lt g hx hy]

lemma exists_at?_eq_some (hx : x < g.width) (hy : y < g.height) : ∃ a, g.at? x y = some a :=
  ⟨_, (at?_of_lt hx hy).trans (Array.getElem?_eq_getElem (lt_size_values hx hy))⟩

lemma get?_of_lt (hx : x < g.width) (hy : y < g.height) : g.get? x y = g.at? x y :=
  if_pos ⟨Int.natCast_nonneg x, Int.natCast_nonneg y, Int.ofNat_lt.mpr hx, Int.ofNat_lt.mpr hy⟩

lemma lt_of_get?_eq_some {a : α} (h : g.get? x y = some a) : x < g.width ∧ y < g.height := by
  rw [get?, Option.ite_none_right_eq_some] at h
  exact ⟨Int.ofNat_lt.mp h.1.2.2.1, Int.ofNat_lt.mp h.1.2.2.2⟩

lemma at?_map (f : α → β) (g : Grid α) (x y : Nat) : (g.map f).at? x y = (g.at? x y).map f :=
  Array.getElem?_map

lemma flat_mod {width : Nat} (hx : x < width) : (y * width + x) % width = x := by
  rw [Nat.mul_add_mod', Nat.mod_eq_of_lt hx]

lemma flat_div {width : Nat} (hx : x < width) : (y * width + x) / width = y := by
  rw [Nat.mul_comm, Nat.mul_add_div (Nat.zero_lt_of_lt hx), Nat.div_eq_of_lt hx, Nat.add_zero]

/-- Counted row after row, a number stands for a cell of the rectangle. -/
lemma mod_lt_and_div_lt {width height i : Nat} (hi : i < width * height) :
    i % width < width ∧ i / width < height :=
  ⟨Nat.mod_lt i (Nat.pos_of_mul_pos_right (Nat.zero_lt_of_lt hi)), Nat.div_lt_of_lt_mul hi⟩

/-- Counted column after column, a number stands for a cell of the rectangle. -/
lemma div_lt_and_mod_lt {width height i : Nat} (hi : i < width * height) :
    i / height < width ∧ i % height < height :=
  (mod_lt_and_div_lt (hi.trans_eq (Nat.mul_comm _ _))).symm

/-- A cell of a column comes before the end of the columns. -/
lemma column_lt {width height : Nat} (hx : x < width) (hy : y < height) :
    x * height + y < width * height :=
  (flat_lt hy hx).trans_eq (Nat.mul_comm height width)

/-- Numbering the cells column by column goes the way of a loop over the columns around one over the
rows. -/
lemma map_range_mul (f : Nat → Nat → β) (columns rows : Nat) :
    ((List.range (columns * rows)).map fun i => f (i / rows) (i % rows)) =
      (List.range columns).flatMap fun x => (List.range rows).map (f x) := by
  induction columns with
  | zero => simp
  | succ columns ih =>
    rw [Nat.succ_mul, List.range_add, List.map_append, ih, List.range_succ, List.flatMap_append,
      List.flatMap_singleton, List.map_map]
    congr 1
    refine List.map_congr_left fun y hy => ?_
    have hlt := List.mem_range.mp hy
    simp only [Function.comp_apply, flat_div hlt, flat_mod hlt]

/-- Two cells of the rectangle do not share a place. -/
lemma place_inj (hx : x < g.width) (hy : y < g.height) (hx' : x' < g.width) (hy' : y' < g.height) :
    g.place x y = g.place x' y' ↔ x = x' ∧ y = y' := by
  rw [place_of_lt g hx hy, place_of_lt g hx' hy']
  constructor
  · intro h
    refine ⟨?_, ?_⟩
    · rw [← flat_mod (y := y) hx, h, flat_mod hx']
    · rw [← flat_div (y := y) hx, h, flat_div hx']
  · rintro ⟨rfl, rfl⟩
    rfl

/-- A write to a cell of the rectangle is seen at that cell only. -/
lemma at?_put_of_lt (hx : x < g.width) (hy : y < g.height) (hx' : x' < g.width)
    (hy' : y' < g.height) (a : α) :
    (g.put x y a).at? x' y' = if x = x' ∧ y = y' then some a else g.at? x' y' := by
  simp only [at?_put, place_inj hx hy hx' hy', holds_of_lt g hx hy, and_true]

/-- Writes to two places may change their order. -/
lemma put_comm (h : g.place x y ≠ g.place x' y') (a b : α) :
    (g.put x y a).put x' y' b = (g.put x' y' b).put x y a := by
  simp only [put, mk.injEq, true_and]
  exact Array.setIfInBounds_comm a b h

section Made

variable {width height : Nat} {count_lt : width * height < placeCount}

lemma at?_ofFn (f : Nat → Nat → α) (hx : x < width) (hy : y < height) :
    (ofFn width height f count_lt).at? x y = some (f x y) := by
  rw [at?_of_lt (g := ofFn width height f count_lt) hx hy,
    Array.getElem?_eq_getElem (lt_size_values (g := ofFn width height f count_lt) hx hy)]
  simp only [ofFn, Array.getElem_ofFn, flat_mod hx, flat_div hx]

lemma at?_replicate (a : α) (hx : x < width) (hy : y < height) :
    (replicate width height a count_lt).at? x y = some a := by
  rw [at?_of_lt (g := replicate width height a count_lt) hx hy,
    Array.getElem?_eq_getElem (lt_size_values (g := replicate width height a count_lt) hx hy)]
  simp only [replicate, Array.getElem_replicate]

end Made

/-- A grid is known by its sizes and its cells. -/
lemma ext_at? {g' : Grid α} (hw : g.width = g'.width) (hh : g.height = g'.height)
    (h : ∀ x y, x < g.width → y < g.height → g.at? x y = g'.at? x y) : g = g' := by
  obtain ⟨width, height, values, hsize, _⟩ := g
  obtain ⟨width', height', values', hsize', _⟩ := g'
  dsimp only at hw hh
  subst hw hh
  congr
  refine Array.ext (hsize.trans hsize'.symm) fun i hi hi' => ?_
  obtain ⟨hx, hy⟩ := mod_lt_and_div_lt (hi.trans_eq hsize)
  have hcell := h (i % width) (i / width) hx hy
  rw [at?_of_lt hx hy, at?_of_lt hx hy] at hcell
  simpa only [Nat.div_add_mod', Array.getElem?_eq_getElem hi, Array.getElem?_eq_getElem hi',
    Option.some_inj] using hcell

end Terrain.Grid
