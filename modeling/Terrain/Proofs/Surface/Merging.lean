import Terrain.Proofs.Height.Requantized
import Terrain.Proofs.Number.Limits
import Terrain.Proofs.Surface.Cells

/-!
# Merges without a turn

A merge that does not turn the source writes each of its cells to the point that lies the offset away.
Coordinates that saturate on the way are outside of every region, so no two cells are written to one
point, and what a point of the region holds afterwards was read from one cell of the source.
-/

namespace Terrain

open Surface

/-! ### Offsets -/

/-- A sum of points that lies in a region did not saturate. -/
lemma Point.toInt_add_of_mem {s : Surface} {p o : Point} (h : p.add o ∈ s.extent) :
    (p.add o).x.toInt = p.x.toInt + o.x.toInt ∧ (p.add o).y.toInt = p.y.toInt + o.y.toInt := by
  rw [mem_extent_iff, Point.add] at h
  rw [Point.add]
  have hwidth := s.width.toInt_lt
  have hheight := s.height.toInt_lt
  simp only [toInt_saturatingAdd] at h ⊢
  omega

/-- Points that are the same offset away from a point of a region are the same. -/
lemma Point.add_inj_of_mem {s : Surface} {p q o : Point} (h : p.add o ∈ s.extent)
    (hsame : q.add o = p.add o) : q = p := by
  obtain ⟨hx, hy⟩ := toInt_add_of_mem h
  rw [← hsame] at h
  obtain ⟨hx', hy'⟩ := toInt_add_of_mem h
  rw [hsame] at hx' hy'
  exact Point.ext_toInt (by omega) (by omega)

/-! ### The writes of a merge -/

namespace Merge

variable {lib : Number.MathLibrary} {s source : Surface} {d : Displacement} {rotation : Float32}
  {pivot : Pivot} {p : Point} {n : Int32}

/-- Where a cell of the source is written, and which height. -/
def moved (source : Surface) (d : Displacement) (p : Point) : Point × Float :=
  (p.add d.offset,
    ((source.stored? p).elim 0 fun stored => Height.ofStored stored source.grid.factor) + d.rise)

lemma moveCell_eq_set (s source : Surface) (d : Displacement) (p : Point) :
    moveCell source d s p = s.set (moved source d p).1.x (moved source d p).1.y
      (moved source d p).2 := by
  rw [moveCell, get_eq_stored?, ok_bind, moved]

/-- Without a turn, a merge is one write for every cell of the source. -/
lemma cells_eq_setAll (hrotation : (rotation == 0) = true) :
    cells lib s source d rotation pivot = s.setAll (source.extent.points.map (moved source d)) := by
  rw [cells, if_pos hrotation, setAll, List.foldlM_map]
  congr
  funext s p
  exact moveCell_eq_set s source d p

/-- The last write to where a cell comes is that of the cell, for no other one comes there. -/
lemma lastWrite?_moved (hp : p ∈ source.extent) (htarget : p.add d.offset ∈ s.extent)
    (hfinite : (moved source d p).2.isFinite = true) :
    lastWrite? (source.extent.points.map (moved source d)) (p.add d.offset) =
      some (moved source d p).2 := by
  refine lastWrite?_eq_some (w := moved source d p) ?_ hfinite ?_
  · exact List.mem_map.mpr ⟨p, Extent.mem_points.mpr hp, rfl⟩
  · intro w hw hsame
    obtain ⟨q, -, rfl⟩ := List.mem_map.mp hw
    rw [Point.add_inj_of_mem htarget hsame]

/-- A merge without a turn goes through, and every cell stores the last height that comes to it, or
what it stored before. -/
lemma exists_merge_lastWrite (lib : Number.MathLibrary) (hrotation : (rotation == 0) = true)
    (s source : Surface) (d : Displacement) (pivot : Pivot) :
    ∃ s', (s.merge lib source d rotation pivot).result = .ok s' ∧ s.SameFrame s' ∧
      ∀ q, s'.stored? q = (s.stored? q).map fun before =>
        (lastWrite? (source.extent.points.map (moved source d)) q).elim before
          fun h => Height.quantize h s.grid.factor := by
  obtain ⟨s', hs', hframe, hstored⟩ :=
    exists_setAll_stored? s (source.extent.points.map (moved source d))
  refine ⟨s', ?_, hframe, hstored⟩
  rw [Surface.merge, Logged.result_bind]
  exact (cells_eq_setAll hrotation).trans hs'

/-- A cell of the source that comes into the region is stored there, raised. -/
lemma exists_merge_stored? (lib : Number.MathLibrary) (hrotation : (rotation == 0) = true)
    (s source : Surface) (d : Displacement) (pivot : Pivot) :
    ∃ s', (s.merge lib source d rotation pivot).result = .ok s' ∧ s.SameFrame s' ∧
      ∀ p n, source.stored? p = some n → p.add d.offset ∈ s.extent →
        (Height.ofStored n source.grid.factor + d.rise).isFinite = true →
        s'.stored? (p.add d.offset) = some
          (Height.quantize (Height.ofStored n source.grid.factor + d.rise) s.grid.factor) := by
  obtain ⟨s', hs', hframe, hstored⟩ := exists_merge_lastWrite lib hrotation s source d pivot
  refine ⟨s', hs', hframe, fun p n hp htarget hfinite => ?_⟩
  have hmoved : (moved source d p).2 = Height.ofStored n source.grid.factor + d.rise := by
    rw [moved, hp, Option.elim_some]
  obtain ⟨before, hbefore⟩ := exists_stored? htarget
  rw [hstored, hbefore, lastWrite?_moved (mem_extent_of_stored? hp) htarget (by rwa [hmoved]), hmoved]
  rfl

/-- A displacement without a vertical part does not raise anything. -/
lemma stands_rise (hz : (d.z == 0) = true) : Number.Stands d.rise 0 :=
  Number.stands_widen (Number.denotes_zero_of_beq hz)

end Merge

/-- A merge that neither turns nor raises the source stores its cells again. What is stored at the
point that a cell comes to is what the height of the cell is stored as, which is what the source stores
or the next integer towards zero. -/
theorem Surface.merge_stored (lib : Number.MathLibrary) (s source : Surface)
    (d : Merge.Displacement) (rotation : Float32) (pivot : Merge.Pivot)
    (hrotation : (rotation == 0) = true) (hz : (d.z == 0) = true)
    (hfactor : source.grid.factor = s.grid.factor) (hpos : 0 < s.grid.factor)
    (hfin : s.grid.factor.isFinite = true) :
    ∃ s', (s.merge lib source d rotation pivot).result = .ok s' ∧ s.SameFrame s' ∧
      ∀ p n, source.stored? p = some n → p.add d.offset ∈ s.extent →
        ∃ m, s'.stored? (p.add d.offset) = some m ∧
          m = Height.quantize (Height.ofStored n s.grid.factor) s.grid.factor ∧
          (m = n ∨ m.toInt = n.toInt - n.toInt.sign) := by
  obtain ⟨s', hs', hframe, hstored⟩ := Merge.exists_merge_stored? lib hrotation s source d pivot
  refine ⟨s', hs', hframe, fun p n hp htarget => ?_⟩
  have hrise := Merge.stands_rise hz
  obtain ⟨h, hstands⟩ := Height.exists_stands_ofStored n hpos hfin
  have hcell := hstored p n hp htarget (hfactor ▸ (hstands.add_zero hrise).isFinite)
  rw [hfactor, Height.quantize_ofStored_add n hpos hfin hrise] at hcell
  exact ⟨_, hcell, rfl, Height.quantize_ofStored n hpos hfin⟩

/-- The default height is the same after a merge. -/
theorem Surface.merge_stored_flat : ∃ s',
    ((ofSize 32 16).merge .nearest (flat 16 16) ⟨3, 4, 0⟩ 0 ⟨0, 0⟩).result = .ok s' ∧
      s'.stored? ⟨3, 4⟩ = some 2100 := by
  obtain ⟨s', hs', -, hstored⟩ := merge_stored .nearest (ofSize 32 16) (flat 16 16) ⟨3, 4, 0⟩ 0 ⟨0, 0⟩
    (by decide +kernel) (by decide +kernel) rfl (by decide +kernel) (by decide +kernel)
  have hsource : (flat 16 16).stored? ⟨0, 0⟩ = some 2100 := by decide +kernel
  obtain ⟨m, hm, rfl, -⟩ := hstored ⟨0, 0⟩ 2100 hsource (by decide +kernel)
  have hquantum : Height.quantize (Height.ofStored 2100 (ofSize 32 16).grid.factor)
      (ofSize 32 16).grid.factor = 2100 := by decide +kernel
  have htarget : (⟨0, 0⟩ : Point).add (⟨3, 4, 0⟩ : Merge.Displacement).offset = ⟨3, 4⟩ := by
    decide +kernel
  rw [htarget, hquantum] at hm
  exact ⟨s', hs', hm⟩

/-- Not every stored height is the same after a merge: the 29 of a height of 0.29 becomes 28. -/
theorem Surface.not_merge_stored_same : ∃ source s',
    (ofSize 16 16).set 0 0 0.295 = .ok source ∧ source.stored? ⟨0, 0⟩ = some 29 ∧
      ((ofSize 16 16).merge .nearest source ⟨0, 0, 0⟩ 0 ⟨0, 0⟩).result = .ok s' ∧
      s'.stored? ⟨0, 0⟩ = some 28 := by
  obtain ⟨source, hset, hframe, hwritten⟩ := exists_set_stored? (ofSize 16 16) ⟨0, 0⟩ 0.295
  have hturn : ((0 : Float32) == 0) = true := by decide +kernel
  obtain ⟨s', hs', -, hstored⟩ :=
    Merge.exists_merge_stored? .nearest hturn (ofSize 16 16) source ⟨0, 0, 0⟩ ⟨0, 0⟩
  have hsource : source.stored? ⟨0, 0⟩ = some 29 := by
    rw [hwritten, if_pos ⟨rfl, by decide +kernel⟩]
    decide +kernel
  have hfactor : source.grid.factor = (ofSize 16 16).grid.factor := hframe.factor_eq
  have htarget : (⟨0, 0⟩ : Point).add (⟨0, 0, 0⟩ : Merge.Displacement).offset = ⟨0, 0⟩ := by
    decide +kernel
  have hcell := hstored ⟨0, 0⟩ 29 hsource (by decide +kernel)
    (by rw [hfactor]; decide +kernel)
  rw [htarget, hfactor] at hcell
  refine ⟨source, s', hset, hsource, hs', hcell.trans ?_⟩
  decide +kernel

/-! ### Every cell of a merge -/

namespace Merge

variable {lib : Number.MathLibrary} {s source : Surface} {d : Displacement} {rotation : Float32}
  {pivot : Pivot} {p q : Point}

/-- A displacement takes a point to another one, as integers. -/
def Displacement.Takes (d : Displacement) (p q : Point) : Prop :=
  q.x.toInt = p.x.toInt + d.offset.x.toInt ∧ q.y.toInt = p.y.toInt + d.offset.y.toInt

lemma takes_iff (hq : q ∈ s.extent) : d.Takes p q ↔ p.add d.offset = q := by
  constructor
  · rintro ⟨hx, hy⟩
    have hxlow := q.x.le_toInt
    have hxhigh := q.x.toInt_lt
    have hylow := q.y.le_toInt
    have hyhigh := q.y.toInt_lt
    refine Point.ext_toInt ?_ ?_ <;> simp only [Point.add, toInt_saturatingAdd] <;> omega
  · rintro rfl
    exact Point.toInt_add_of_mem hq

/-- Nothing is written where no cell of the source comes. -/
lemma lastWrite?_moved_eq_none (hq : q ∈ s.extent) (h : ∀ p ∈ source.extent, ¬d.Takes p q) :
    lastWrite? (source.extent.points.map (moved source d)) q = none := by
  refine lastWrite?_eq_none fun w hw hsame => ?_
  obtain ⟨p, hp, rfl⟩ := List.mem_map.mp hw
  exact absurd ((takes_iff hq).mpr hsame) (h p (Extent.mem_points.mp hp))

/-- Nothing is written where the cell that comes has no finite height. -/
lemma lastWrite?_moved_of_not_isFinite (htarget : p.add d.offset ∈ s.extent)
    (h : (source.level p + d.rise).isFinite = false) :
    lastWrite? (source.extent.points.map (moved source d)) (p.add d.offset) = none := by
  refine lastWrite?_eq_none fun w hw hsame => ?_
  obtain ⟨p', -, rfl⟩ := List.mem_map.mp hw
  rw [Point.add_inj_of_mem htarget hsame]
  exact h

/-- What is not written anywhere in the region changes nothing. -/
lemma moveCell_of_not_mem (h : p.add d.offset ∉ s.extent) : moveCell source d s p = .ok s := by
  rw [moveCell_eq_set]
  exact set_of_not_mem h _

lemma moveCell_of_not_isFinite (h : d.z.isFinite = false) (s source : Surface) (p : Point) :
    moveCell source d s p = .ok s := by
  rw [moveCell_eq_set]
  exact set_of_not_isFinite (Number.not_isFinite_add _ (Number.not_isFinite_widen h)) _ _

/-- No coordinate that is cut to the range of coordinates takes a cell into a region. -/
lemma add_offset_not_mem (h : (Number.ofSingle d.x).Saturates ∨ (Number.ofSingle d.y).Saturates)
    (hp : p ∈ source.extent) : p.add d.offset ∉ s.extent := by
  intro htarget
  obtain ⟨hx, hy⟩ := Point.toInt_add_of_mem htarget
  rw [mem_extent_iff] at hp htarget
  have hwidth := s.width.toInt_lt
  have hheight := s.height.toInt_lt
  have hwidth' := source.width.toInt_lt
  have hheight' := source.height.toInt_lt
  rcases h with (hover | hunder) | (hover | hunder)
  · have hoffset : d.offset.x.toInt = _ := Number.Binary.toInt_toInt32_of_overflows hover
    omega
  · have hoffset : d.offset.x.toInt = _ := Number.Binary.toInt_toInt32_of_underflows hunder
    omega
  · have hoffset : d.offset.y.toInt = _ := Number.Binary.toInt_toInt32_of_overflows hover
    omega
  · have hoffset : d.offset.y.toInt = _ := Number.Binary.toInt_toInt32_of_underflows hunder
    omega

/-- A merge without a turn that raises by what is not finite, or moves by more than a coordinate can
hold, leaves everything as it was. -/
lemma merge_eq_self (hrotation : (rotation == 0) = true)
    (h : d.z.isFinite = false ∨ (Number.ofSingle d.x).Saturates ∨ (Number.ofSingle d.y).Saturates) :
    (s.merge lib source d rotation pivot).result = .ok s := by
  rw [Surface.merge, Logged.result_bind]
  change cells lib s source d rotation pivot = .ok s
  rw [cells, if_pos hrotation]
  refine foldlM_eq_self fun p hp => ?_
  rcases h with hz | hfar
  · exact moveCell_of_not_isFinite hz s source p
  · exact moveCell_of_not_mem (add_offset_not_mem hfar (Extent.mem_points.mp hp))

end Merge

/-- A merge that does not turn the source copies cells. A cell that the displacement takes a cell of
the source to stores the sum of the height there and the vertical part, if that is finite. Every other
cell is as before, as are the sizes, the altitude and the factor. Nothing at all changes if the vertical
part is not finite, or if a horizontal one is more than a coordinate can hold. -/
theorem Surface.merge_moves (lib : Number.MathLibrary) (s source : Surface)
    (d : Merge.Displacement) (rotation : Float32) (pivot : Merge.Pivot)
    (hrotation : (rotation == 0) = true) (hw : s.grid.width < 2 ^ 31) (hh : s.grid.height < 2 ^ 31)
    (hw' : source.grid.width < 2 ^ 31) (hh' : source.grid.height < 2 ^ 31) :
    ∃ s', (s.merge lib source d rotation pivot).result = .ok s' ∧ s.SameFrame s' ∧
      (∀ p q, source.Covers p → s.Covers q → d.Takes p q →
        ∃ h, source.get p.x p.y = .ok h ∧ s'.stored? q =
          if (h + d.rise).isFinite = true then some (Height.quantize (h + d.rise) s.grid.factor)
          else s.stored? q) ∧
      (∀ q, s.Covers q → (∀ p, source.Covers p → ¬d.Takes p q) → s'.stored? q = s.stored? q) ∧
      (d.z.isFinite = false ∨ (Number.ofSingle d.x).Saturates ∨ (Number.ofSingle d.y).Saturates →
        s' = s) := by
  obtain ⟨s', hs', hframe, hstored⟩ := Merge.exists_merge_lastWrite lib hrotation s source d pivot
  refine ⟨s', hs', hframe, fun p q hp hq htakes => ?_, fun q hq hnone => ?_, fun hidle => ?_⟩
  · rw [← mem_extent_iff_covers hw' hh'] at hp
    rw [← mem_extent_iff_covers hw hh] at hq
    obtain rfl := (Merge.takes_iff hq).mp htakes
    obtain ⟨before, hbefore⟩ := exists_stored? hq
    refine ⟨source.level p, get_eq_level source p, ?_⟩
    rw [hstored, hbefore]
    split_ifs with hfinite
    · rw [Merge.lastWrite?_moved hp hq hfinite]
      rfl
    · rw [Merge.lastWrite?_moved_of_not_isFinite hq (Bool.not_eq_true _ ▸ hfinite)]
      rfl
  · rw [← mem_extent_iff_covers hw hh] at hq
    have hsource : ∀ p ∈ source.extent, ¬d.Takes p q := fun p hp =>
      hnone p ((mem_extent_iff_covers hw' hh').mp hp)
    rw [hstored, Merge.lastWrite?_moved_eq_none hq hsource]
    exact Option.map_id'
  · exact Except.ok.inj (hs'.symm.trans (Merge.merge_eq_self hrotation hidle))

/-- A default height that is raised by a half and moved to the left. -/
theorem Surface.merge_moves_flat : ∃ s',
    ((ofSize 32 16).merge .nearest (flat 16 16) ⟨-3.75, 4, 0.5⟩ (-0) ⟨7, 7⟩).result = .ok s' ∧
      s'.stored? ⟨2, 9⟩ = some 2150 ∧ s'.stored? ⟨13, 9⟩ = some 0 := by
  obtain ⟨s', hs', -, htaken, hother, -⟩ := merge_moves .nearest (ofSize 32 16) (flat 16 16)
    ⟨-3.75, 4, 0.5⟩ (-0) ⟨7, 7⟩ (by decide +kernel) (by decide) (by decide) (by decide) (by decide)
  have hoffset : (⟨-3.75, 4, 0.5⟩ : Merge.Displacement).offset = ⟨-3, 4⟩ := by decide +kernel
  refine ⟨s', hs', ?_, ?_⟩
  · obtain ⟨h, hget, hstored⟩ := htaken ⟨5, 5⟩ ⟨2, 9⟩ (by decide) (by decide)
      (by rw [Merge.Displacement.Takes, hoffset]; decide)
    have hlevel : (flat 16 16).get 5 5 = .ok ((flat 16 16).level ⟨5, 5⟩) := get_eq_level _ ⟨5, 5⟩
    obtain rfl := Except.ok.inj (hget.symm.trans hlevel)
    rw [hstored]
    decide +kernel
  · have hsame := hother ⟨13, 9⟩ (by decide) fun p hp htakes => by
      rw [Merge.Displacement.Takes, hoffset] at htakes
      obtain ⟨⟨-, hx⟩, -⟩ := hp
      have hwidth : (flat 16 16).grid.width = 16 := rfl
      have htarget : (⟨13, 9⟩ : Point).x.toInt = 13 := rfl
      have hleft : (⟨-3, 4⟩ : Point).x.toInt = -3 := rfl
      omega
    rw [hsame]
    decide +kernel

end Terrain
