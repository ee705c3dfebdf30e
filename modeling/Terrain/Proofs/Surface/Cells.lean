import Terrain.Proofs.Extent
import Terrain.Proofs.Surface.Saving

/-!
# A surface as a map of points

A surface maps the points of its region to stored heights. Writing at a point changes the map there
and nowhere else, and outside the region it changes nothing, so that what is read after any writes
is decided by the last one that went to the point.
-/

namespace Terrain.Surface

open HeightGrid

variable {s s' : Surface} {p q : Point}

/-- The stored height at a point of the region. -/
def stored? (s : Surface) (p : Point) : Option Int32 :=
  (s.cell? p.x p.y).map fun c => s.grid.storedAt c.1 c.2

/-- Whether a point lies in the region. -/
def Covers (s : Surface) (p : Point) : Prop :=
  (0 ≤ p.x.toInt ∧ p.x.toInt < s.grid.width) ∧ (0 ≤ p.y.toInt ∧ p.y.toInt < s.grid.height)

instance (s : Surface) (p : Point) : Decidable (s.Covers p) :=
  inferInstanceAs (Decidable ((_ ∧ _) ∧ (_ ∧ _)))

lemma SameFrame.cell?_eq (h : s.SameFrame s') (x y : Int32) : s'.cell? x y = s.cell? x y := by
  have hwidth : s'.width = s.width := congrArg Int32.ofNat h.width_eq
  have hheight : s'.height = s.height := congrArg Int32.ofNat h.height_eq
  rw [cell?, cell?, hwidth, hheight]

/-! ### The points of the region -/

/-- The points of a region are those between zero and its sizes. -/
lemma mem_extent_iff : p ∈ s.extent ↔ (0 ≤ p.x.toInt ∧ p.x.toInt < s.width.toInt) ∧
    (0 ≤ p.y.toInt ∧ p.y.toInt < s.height.toInt) := by
  have hzero : (0 : Int32).toInt = 0 := rfl
  have hwidth := s.width.toInt_lt
  have hheight := s.height.toInt_lt
  rw [Extent.mem_iff_toInt, extent, Extent.ofShape, Extent.upper, Point.add, Point.max]
  simp only [toInt_saturatingAdd, toInt_max, hzero]
  omega

/-- Where the sizes are coordinates, they are those of the grid. -/
lemma mem_extent_iff_covers (hw : s.grid.width < 2 ^ 31) (hh : s.grid.height < 2 ^ 31) :
    p ∈ s.extent ↔ s.Covers p := by
  rw [mem_extent_iff, Covers, Surface.width, Surface.height, Int32.toInt_ofNat_of_lt hw,
    Int32.toInt_ofNat_of_lt hh]

/-- A point of the region has a cell, and no other point has one. -/
lemma cell?_eq_none_iff : s.cell? p.x p.y = none ↔ p ∉ s.extent := by
  have hzero : (0 : Int32).toInt = 0 := rfl
  rw [cell?, mem_extent_iff]
  simp only [Int32.le_iff_toInt_le, Int32.lt_iff_toInt_lt, hzero]
  split_ifs with h
  · exact iff_of_false (by simp) fun hout => hout (by tauto)
  · exact iff_of_true rfl (by tauto)

lemma stored?_eq_none_iff : s.stored? p = none ↔ p ∉ s.extent := by
  rw [stored?, Option.map_eq_none_iff, cell?_eq_none_iff]

lemma exists_stored? (h : p ∈ s.extent) : ∃ stored, s.stored? p = some stored :=
  Option.ne_none_iff_exists'.mp fun hnone => stored?_eq_none_iff.mp hnone h

lemma mem_extent_of_stored? {stored : Int32} (h : s.stored? p = some stored) : p ∈ s.extent := by
  by_contra hout
  exact Option.some_ne_none stored (h.symm.trans (stored?_eq_none_iff.mpr hout))

/-- A flat surface stores the default height everywhere. -/
lemma stored?_flat {width height : Nat} {fits : Fits width height}
    (h : p ∈ (flat width height fits).extent) :
    (flat width height fits).stored? p =
      some (Height.quantize Height.defaultHeight Height.defaultFactor) := by
  obtain ⟨⟨cx, cy⟩, hcell⟩ := Option.ne_none_iff_exists'.mp fun hnone => cell?_eq_none_iff.mp hnone h
  obtain ⟨hx, hy⟩ := lt_of_cell? hcell
  have hshows : (flat width height fits).grid.Shows width height _ _ _ :=
    shows_flatten_new width height defaultAltitude Height.defaultFactor fits
  rw [hshows.width_eq] at hx
  rw [hshows.height_eq] at hy
  rw [stored?, hcell, Option.map_some, storedAt, hshows.stored_eq hx hy, Option.getD_some]

/-- Two points do not share a cell. -/
lemma cell?_inj {cx cy : Nat} (hp : s.cell? p.x p.y = some (cx, cy))
    (hq : s.cell? q.x q.y = some (cx, cy)) : p = q := by
  have hzero : (0 : Int32).toInt = 0 := rfl
  rw [cell?] at hp hq
  split_ifs at hp hq with hpin hqin
  simp only [Int32.le_iff_toInt_le, hzero] at hpin hqin
  rw [Option.some_inj, Prod.mk.injEq] at hp hq
  exact Point.ext_toInt (by omega) (by omega)

/-- What is read at a point is the height of what is stored there. -/
lemma get_eq_stored? (s : Surface) (p : Point) :
    s.get p.x p.y =
      .ok ((s.stored? p).elim 0 fun stored => Height.ofStored stored s.grid.factor) := by
  rw [stored?]
  cases h : s.cell? p.x p.y with
  | none => exact get_of_cell?_eq_none h
  | some c => exact get_of_cell? h

/-- The height at a point, zero outside the region. -/
def level (s : Surface) (p : Point) : Float :=
  (s.stored? p).elim 0 fun stored => Height.ofStored stored s.grid.factor

lemma get_eq_level (s : Surface) (p : Point) : s.get p.x p.y = .ok (s.level p) :=
  get_eq_stored? s p

lemma level_of_stored? {n : Int32} (h : s.stored? p = some n) :
    s.level p = Height.ofStored n s.grid.factor := by
  rw [level, h, Option.elim_some]

lemma eq_ofStored_of_get {height : Float} {n : Int32} (hget : s.get p.x p.y = .ok height)
    (hn : s.stored? p = some n) : height = Height.ofStored n s.grid.factor := by
  rw [get_eq_level, level_of_stored? hn] at hget
  exact (Except.ok.inj hget).symm

/-! ### Writes -/

/-- Writing a stored height to the cell of a point is seen at that point and at no other. -/
lemma stored?_of_wrote {cx cy : Nat} {stored : Int32} {g : HeightGrid}
    (hp : s.cell? p.x p.y = some (cx, cy)) (h : s.grid.Wrote cx cy stored g) (q : Point) :
    stored? ⟨g⟩ q = if p = q then some stored else s.stored? q := by
  obtain ⟨hx, hy⟩ := lt_of_cell? hp
  have hframe : s.SameFrame ⟨g⟩ := sameFrame_of_edited (h.edited hx hy)
  rw [stored?, stored?, hframe.cell?_eq]
  cases hq : s.cell? q.x q.y with
  | none =>
    have hne : p ≠ q := by
      rintro rfl
      simp [hp] at hq
    rw [if_neg hne, Option.map_none, Option.map_none]
  | some c =>
    obtain ⟨cx', cy'⟩ := c
    obtain ⟨hx', hy'⟩ := lt_of_cell? hq
    have hcell : p = q ↔ cx = cx' ∧ cy = cy' := by
      constructor
      · rintro rfl
        simpa using hp.symm.trans hq
      · rintro ⟨rfl, rfl⟩
        exact cell?_inj hp hq
    simp only [Option.map_some, hcell, storedAt, h.stored_eq hx' hy']
    split_ifs <;> rfl

/-- A write changes what is stored at its own point, if that is in the region and the height is
finite. -/
lemma exists_set_stored? (s : Surface) (p : Point) (height : Float) :
    ∃ s', s.set p.x p.y height = .ok s' ∧ s.SameFrame s' ∧ ∀ q, s'.stored? q =
      if p = q ∧ height.isFinite = true then
        (s.stored? q).map fun _ => Height.quantize height s.grid.factor
      else s.stored? q := by
  rw [set]
  cases hp : s.cell? p.x p.y with
  | none =>
    refine ⟨s, rfl, sameFrame_self s, fun q => ?_⟩
    split_ifs with h
    · rw [stored?, ← h.1, hp, Option.map_none, Option.map_none]
    · rfl
  | some c =>
    obtain ⟨hx, hy⟩ := lt_of_cell? hp
    dsimp only
    rw [HeightGrid.set]
    split_ifs with hfinite
    · obtain ⟨g, hg, hwrote⟩ := exists_setStored hx hy (Height.quantize height s.grid.factor)
      rw [hg]
      refine ⟨⟨g⟩, rfl, sameFrame_of_edited (hwrote.edited hx hy), fun q => ?_⟩
      rw [stored?_of_wrote hp hwrote]
      simp only [and_iff_left hfinite]
      split_ifs with h
      · rw [stored?, ← h, hp, Option.map_some, Option.map_some]
      · rfl
    · refine ⟨s, rfl, sameFrame_self s, fun q => ?_⟩
      rw [if_neg fun h => hfinite h.2]

/-- A height that is stored as 29, which has a height that is stored as 28. -/
lemma exists_set_lossy : ∃ s', (ofSize 16 16).set 0 0 0.295 = .ok s' ∧
    (ofSize 16 16).SameFrame s' ∧ s'.stored? ⟨0, 0⟩ = some 29 := by
  obtain ⟨s', hset, hframe, hstored⟩ := exists_set_stored? (ofSize 16 16) ⟨0, 0⟩ 0.295
  refine ⟨s', hset, hframe, ?_⟩
  rw [hstored, if_pos ⟨rfl, by decide⟩]
  decide

lemma set_of_not_mem (h : p ∉ s.extent) (height : Float) : s.set p.x p.y height = .ok s := by
  rw [set, cell?_eq_none_iff.mpr h]

lemma set_of_not_isFinite {height : Float} (h : height.isFinite = false) (x y : Int32) :
    s.set x y height = .ok s := by
  rw [set]
  cases s.cell? x y with
  | none => rfl
  | some c =>
    dsimp only
    rw [HeightGrid.set, if_neg (by rw [h]; exact Bool.false_ne_true)]
    rfl

/-! ### Any number of writes -/

/-- The last finite height that a list of writes has for a point. -/
def lastWrite? (writes : List (Point × Float)) (p : Point) : Option Float :=
  (writes.filter fun w => w.1 = p ∧ w.2.isFinite = true).getLast?.map Prod.snd

lemma lastWrite?_cons (w : Point × Float) (writes : List (Point × Float)) (p : Point) :
    lastWrite? (w :: writes) p =
      if w.1 = p ∧ w.2.isFinite = true then some ((lastWrite? writes p).getD w.2)
      else lastWrite? writes p := by
  rw [lastWrite?, lastWrite?, List.filter_cons]
  simp only [decide_eq_true_eq]
  split_ifs
  · rw [List.getLast?_cons, Option.map_some, Option.getD_map]
  · rfl

/-- The only write that goes to a point is the last one. -/
lemma lastWrite?_eq_some {writes : List (Point × Float)} {w : Point × Float} (hw : w ∈ writes)
    (hfinite : w.2.isFinite = true) (honly : ∀ w' ∈ writes, w'.1 = w.1 → w' = w) :
    lastWrite? writes w.1 = some w.2 := by
  rw [lastWrite?]
  have hmem : w ∈ writes.filter fun w' => w'.1 = w.1 ∧ w'.2.isFinite = true :=
    List.mem_filter.mpr ⟨hw, by simpa using hfinite⟩
  rw [List.getLast?_eq_some_getLast (List.ne_nil_of_mem hmem), Option.map_some]
  obtain ⟨hlast, hkept⟩ := List.mem_filter.mp (List.getLast_mem (List.ne_nil_of_mem hmem))
  rw [honly _ hlast (of_decide_eq_true hkept).1]

lemma lastWrite?_eq_none {writes : List (Point × Float)}
    (h : ∀ w ∈ writes, w.1 = p → w.2.isFinite = false) : lastWrite? writes p = none := by
  have hnone : writes.filter (fun w => w.1 = p ∧ w.2.isFinite = true) = [] := by
    rw [List.filter_eq_nil_iff]
    intro w hw hkept
    obtain ⟨hsame, hfinite⟩ := of_decide_eq_true hkept
    exact absurd ((h w hw hsame).symm.trans hfinite) Bool.false_ne_true
  rw [lastWrite?, hnone]
  rfl

/-- After any writes, every point of the region stores the last finite height that was written there,
or what it stored before. -/
lemma exists_setAll_stored? (s : Surface) (writes : List (Point × Float)) :
    ∃ s', s.setAll writes = .ok s' ∧ s.SameFrame s' ∧ ∀ q, s'.stored? q =
      (s.stored? q).map fun before =>
        (lastWrite? writes q).elim before fun h => Height.quantize h s.grid.factor := by
  induction writes generalizing s with
  | nil => exact ⟨s, rfl, sameFrame_self s, fun q => Option.map_id'.symm⟩
  | cons w rest ih =>
    obtain ⟨s₁, hs₁, hframe₁, hstored₁⟩ := exists_set_stored? s w.1 w.2
    obtain ⟨s₂, hs₂, hframe₂, hstored₂⟩ := ih s₁
    refine ⟨s₂, ?_, hframe₁.trans hframe₂, fun q => ?_⟩
    · rw [setAll, List.foldlM_cons, hs₁]
      exact hs₂
    · rw [hstored₂, hstored₁, hframe₁.factor_eq, lastWrite?_cons]
      split_ifs with hw
      · rw [Option.map_map]
        cases lastWrite? rest q <;> rfl
      · rfl

/-- A surface is a map that forgives every point. Outside the region it reads as zero, and a write
there changes nothing at all. Inside, after any writes, a point reads as the height of what is stored
for the last finite height written to just that point, or as before if there was none. The sizes, the
altitude and the factor stay. -/
theorem get_setAll (s : Surface) (hw : s.grid.width < 2 ^ 31) (hh : s.grid.height < 2 ^ 31)
    (writes : List (Point × Float)) :
    (∀ p height, ¬s.Covers p → s.set p.x p.y height = .ok s) ∧
    ∃ s', s.setAll writes = .ok s' ∧ s.SameFrame s' ∧ ∀ p, s'.get p.x p.y =
      if s.Covers p then
        match lastWrite? writes p with
        | some h => .ok (Height.ofStored (Height.quantize h s.grid.factor) s.grid.factor)
        | none => s.get p.x p.y
      else .ok 0 := by
  have hcovers : ∀ p, p ∈ s.extent ↔ s.Covers p := fun p => mem_extent_iff_covers hw hh
  refine ⟨fun p height hp => set_of_not_mem (mt (hcovers p).mp hp) height, ?_⟩
  obtain ⟨s', hs', hframe, hstored⟩ := exists_setAll_stored? s writes
  refine ⟨s', hs', hframe, fun p => ?_⟩
  rw [get_eq_stored?, get_eq_stored?, hstored, hframe.factor_eq]
  split_ifs with hp
  · obtain ⟨before, hbefore⟩ := exists_stored? ((hcovers p).mpr hp)
    rw [hbefore]
    cases lastWrite? writes p <;> rfl
  · rw [stored?_eq_none_iff.mpr (mt (hcovers p).mp hp)]
    rfl

/-- The column after the last is not the first of the next row. -/
theorem get_setAll_rightEdge :
    ∃ s', (ofSize 16 16).setAll [(⟨0, 1⟩, 3), (⟨16, 0⟩, 7), (⟨-16, 2⟩, 8)] = .ok s' ∧
      s'.get 0 1 =
        .ok (Height.ofStored (Height.quantize 3 Height.defaultFactor) Height.defaultFactor) ∧
      s'.get 16 0 = .ok 0 := by
  obtain ⟨-, s', hs', -, hget⟩ := get_setAll (ofSize 16 16) (by decide) (by decide)
    [(⟨0, 1⟩, 3), (⟨16, 0⟩, 7), (⟨-16, 2⟩, 8)]
  refine ⟨s', hs', ?_, ?_⟩
  · have hlast : lastWrite? [(⟨0, 1⟩, 3), (⟨16, 0⟩, 7), (⟨-16, 2⟩, 8)] ⟨0, 1⟩ = some 3 := by
      decide +kernel
    have h := hget ⟨0, 1⟩
    rw [if_pos (by decide), hlast] at h
    exact h
  · exact (hget ⟨16, 0⟩).trans (if_neg (by decide))

end Terrain.Surface
