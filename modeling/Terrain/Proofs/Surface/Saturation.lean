import Terrain.Proofs.Surface.Merging
import Terrain.Proofs.Surface.Turning

/-!
# Saturation in merges

Where a cell of the source comes to is computed with three steps that saturate: the coordinate and the
displacement are cut to the range of coordinates, and so is their sum. A cell whose exact sums are
outside of the region is dropped, except where something saturated at the upper end of the range and
the other summand brings it back all the way, or where the coordinate is not a number and counts as
zero.
-/

namespace Terrain.Merge

open Number Surface

variable {lib : MathLibrary} {s s' source : Surface} {d : Displacement} {rotation : Float32}
  {pivot : Pivot} {p : Point} {kx ky : ℤ}

/-! ### Cells one by one -/

/-- What a merge does with one point of the source. -/
def mergeCell (lib : MathLibrary) (source : Surface) (d : Displacement) (rotation : Float32)
    (pivot : Pivot) (s : Surface) (p : Point) : Except Error Surface :=
  if rotation == 0 then moveCell source d s p
  else turnCell source d (lib.sineSingle rotation) (lib.cosineSingle rotation) pivot s p

lemma cells_eq_foldlM_mergeCell (lib : MathLibrary) (s source : Surface) (d : Displacement)
    (rotation : Float32) (pivot : Pivot) :
    cells lib s source d rotation pivot =
      source.extent.points.foldlM (mergeCell lib source d rotation pivot) s := by
  rw [cells]
  unfold mergeCell
  split_ifs <;> rfl

lemma mergeCell_of_turn (hrotation : (rotation == 0) = false) (s source : Surface)
    (d : Displacement) (pivot : Pivot) (p : Point) :
    mergeCell lib source d rotation pivot s p =
      turnCell source d (lib.sineSingle rotation) (lib.cosineSingle rotation) pivot s p :=
  if_neg (by rw [hrotation]; exact Bool.false_ne_true)

/-- The single that is cut to the column that a point is turned to. -/
def turnedX (lib : MathLibrary) (rotation : Float32) (pivot : Pivot) (p : Point) : Float32 :=
  pivot.x + (singleOfInt32 p.x - pivot.x) * lib.cosineSingle rotation -
    (singleOfInt32 p.y - pivot.y) * lib.sineSingle rotation

/-- The single that is cut to the row that a point is turned to. -/
def turnedY (lib : MathLibrary) (rotation : Float32) (pivot : Pivot) (p : Point) : Float32 :=
  pivot.y + (singleOfInt32 p.x - pivot.x) * lib.sineSingle rotation +
    (singleOfInt32 p.y - pivot.y) * lib.cosineSingle rotation

lemma turned_eq (lib : MathLibrary) (rotation : Float32) (pivot : Pivot) (p : Point) :
    turned (lib.sineSingle rotation) (lib.cosineSingle rotation) pivot p =
      ⟨truncateSingle (turnedX lib rotation pivot p),
        truncateSingle (turnedY lib rotation pivot p)⟩ := rfl

/-! ### Sums on one axis -/

section Axis

variable {size k n : ℤ} {a b : Int32} {x y : Binary}

/-- An exact sum is not the number of a column, or of a row. -/
def Outside (size n : ℤ) : Prop := n < 0 ∨ size ≤ n

/-- A coordinate is not finite, or its integer part and a displacement sum up to what is outside. -/
def Misses (size : ℤ) (x : Binary) (k : ℤ) : Prop := ∀ n, x.whole? = some n → Outside size (n + k)

/-- A coordinate that counts as zero, or one that is beyond the upper end of the range, or displaced
by something that is, and that comes back from there to before the last column or row. -/
def MayReturn (size : ℤ) (x : Binary) (k : ℤ) : Prop :=
  x = .nan ∨ (x.Overflows ∧ 2 ^ 31 - 1 + k < size) ∨
    (2 ^ 31 ≤ k ∧ ∃ n, x.whole? = some n ∧ n + (2 ^ 31 - 1) < size)

/-- A number does not return if neither end of the sum is beyond the range, or it stays there. -/
lemma not_mayReturn (hn : x.whole? = some n) (hover : 2 ^ 31 ≤ n → size ≤ 2 ^ 31 - 1 + k)
    (hover' : 2 ^ 31 ≤ k → size ≤ n + (2 ^ 31 - 1)) : ¬MayReturn size x k := by
  rintro (rfl | ⟨hbeyond, hback⟩ | ⟨hbeyond, m, hm, hback⟩)
  · cases hn
  · exact absurd hback (not_lt.mpr (hover ((Binary.overflows_iff_of_whole? hn).mp hbeyond)))
  · obtain rfl := Option.some.inj (hn.symm.trans hm)
    exact absurd hback (not_lt.mpr (hover' hbeyond))

/-- A sum of what was cut to the range of coordinates is outside if the exact sum is, unless it comes
back from the upper end. -/
lemma outside_saturatingAdd (hsize : size < 2 ^ 31)
    (ha : a.toInt = max (-2 ^ 31) (min n (2 ^ 31 - 1)))
    (hb : b.toInt = max (-2 ^ 31) (min k (2 ^ 31 - 1))) (hout : Outside size (n + k))
    (hover : 2 ^ 31 ≤ n → size ≤ 2 ^ 31 - 1 + k) (hover' : 2 ^ 31 ≤ k → size ≤ n + (2 ^ 31 - 1)) :
    Outside size (saturatingAdd a b).toInt := by
  rw [Outside] at hout ⊢
  rw [toInt_saturatingAdd, ha, hb]
  omega

/-- A coordinate that misses and does not return is outside after it was displaced. -/
lemma Misses.outside (hmiss : Misses size x k) (hsize : size < 2 ^ 31) (hk : y.whole? = some k)
    (hstay : ¬MayReturn size x k) : Outside size (saturatingAdd x.toInt32 y.toInt32).toInt := by
  have hy := Binary.toInt_toInt32_of_whole? hk
  cases x with
  | nan => exact absurd (.inl rfl) hstay
  | infinite negative =>
    rw [Outside, toInt_saturatingAdd]
    cases negative with
    | false =>
      have hx := Binary.toInt_toInt32_of_overflows (b := .infinite false) rfl
      have hback : ¬2 ^ 31 - 1 + k < size := fun h => hstay (.inr (.inl ⟨rfl, h⟩))
      omega
    | true =>
      have hx := Binary.toInt_toInt32_of_underflows (b := .infinite true) rfl
      omega
  | finite negative m e =>
    have hn : (Binary.finite negative m e).whole? =
      some (Binary.withSign negative (Binary.integerPart m e)) := rfl
    refine outside_saturatingAdd hsize (Binary.toInt_toInt32_of_whole? hn) hy (hmiss _ hn)
      (fun hover => ?_) fun hover => ?_
    · exact not_lt.mp fun h => hstay (.inr (.inl ⟨hover, h⟩))
    · exact not_lt.mp fun h => hstay (.inr (.inr ⟨hover, _, hn, h⟩))

/-- The column or row of a point of a region, which did not saturate, does not return either. -/
lemma outside_add_of_nonneg (hsize : size < 2 ^ 31) (hk : y.whole? = some k) (ha : 0 ≤ a.toInt)
    (hout : Outside size (a.toInt + k)) : Outside size (saturatingAdd a y.toInt32).toInt := by
  have hlow := a.le_toInt
  have hhigh := a.toInt_lt
  exact outside_saturatingAdd hsize (by omega) (Binary.toInt_toInt32_of_whole? hk) hout
    (by omega) (by omega)

end Axis

/-! ### Dropped cells -/

/-- A point that a merge brings nowhere near the region: without a turn, one whose exact sums are
outside; with a turn, one that misses on an axis and does not return there. -/
def Far (lib : MathLibrary) (s : Surface) (rotation : Float32) (pivot : Pivot) (kx ky : ℤ)
    (p : Point) : Prop :=
  if rotation == 0 then
    Outside s.width.toInt (p.x.toInt + kx) ∨ Outside s.height.toInt (p.y.toInt + ky)
  else
    (Misses s.width.toInt (ofSingle (turnedX lib rotation pivot p)) kx ∧
      ¬MayReturn s.width.toInt (ofSingle (turnedX lib rotation pivot p)) kx) ∨
    (Misses s.height.toInt (ofSingle (turnedY lib rotation pivot p)) ky ∧
      ¬MayReturn s.height.toInt (ofSingle (turnedY lib rotation pivot p)) ky)

/-- A point is not in the region if a coordinate of it is outside. -/
lemma not_mem_extent_of_outside (h : Outside s.width.toInt p.x.toInt ∨
    Outside s.height.toInt p.y.toInt) : p ∉ s.extent := by
  rw [Outside, Outside] at h
  rw [mem_extent_iff]
  omega

/-- Nothing happens to a far point of the source. -/
lemma mergeCell_of_far (hx : (ofSingle d.x).whole? = some kx) (hy : (ofSingle d.y).whole? = some ky)
    (hp : p ∈ source.extent) (h : Far lib s rotation pivot kx ky p) :
    mergeCell lib source d rotation pivot s p = .ok s := by
  have hwidth := s.width.toInt_lt
  have hheight := s.height.toInt_lt
  rw [Far] at h
  rw [mergeCell]
  split_ifs at h ⊢
  · rw [mem_extent_iff] at hp
    exact moveCell_of_not_mem (not_mem_extent_of_outside
      (h.imp (outside_add_of_nonneg hwidth hx hp.1.1) (outside_add_of_nonneg hheight hy hp.2.1)))
  · have htarget : (turned (lib.sineSingle rotation) (lib.cosineSingle rotation) pivot p).add d.offset ∉
        s.extent := by
      rw [turned_eq]
      exact not_mem_extent_of_outside (h.imp (fun hfar => hfar.1.outside hwidth hx hfar.2)
        fun hfar => hfar.1.outside hheight hy hfar.2)
    rw [turnCell]
    exact if_neg htarget

end Terrain.Merge

namespace Terrain

open Number Surface Merge

/-- A merge goes through the points of the source one by one, and a far one leaves the region as it is
then, whatever was done before. If all are far, nothing changes. -/
theorem Surface.merge_far (lib : MathLibrary) (s source : Surface) (d : Displacement)
    (rotation : Float32) (pivot : Pivot) {kx ky : ℤ} (hx : (ofSingle d.x).whole? = some kx)
    (hy : (ofSingle d.y).whole? = some ky) :
    (s.merge lib source d rotation pivot).result =
        source.extent.points.foldlM (mergeCell lib source d rotation pivot) s ∧
      (∀ s' p, p ∈ source.extent → Far lib s' rotation pivot kx ky p →
        mergeCell lib source d rotation pivot s' p = .ok s') ∧
      ((∀ p ∈ source.extent, Far lib s rotation pivot kx ky p) →
        (s.merge lib source d rotation pivot).result = .ok s) := by
  have hcells : (s.merge lib source d rotation pivot).result =
      source.extent.points.foldlM (mergeCell lib source d rotation pivot) s := by
    rw [Surface.merge, Logged.result_bind]
    exact cells_eq_foldlM_mergeCell lib s source d rotation pivot
  refine ⟨hcells, fun s' p hp hfar => mergeCell_of_far hx hy hp hfar, fun hfar => ?_⟩
  rw [hcells]
  refine foldlM_eq_self fun p hp => ?_
  rw [Extent.mem_points] at hp
  exact mergeCell_of_far hx hy hp (hfar p hp)

/-- A cell that is turned by a quarter and moved beyond all coordinates is dropped. -/
theorem Surface.merge_far_quarter :
    mergeCell .nearest (flat 16 16) ⟨1e10, 0, 0⟩ 1.5707964 ⟨0, 0⟩ (ofSize 16 16) ⟨3, 5⟩ =
      .ok (ofSize 16 16) := by
  have hx : (ofSingle (1e10 : Float32)).whole? = some 10000000000 := by decide +kernel
  have hy : (ofSingle (0 : Float32)).whole? = some 0 := by decide +kernel
  have hcolumn : (ofSingle (turnedX .nearest 1.5707964 ⟨0, 0⟩ ⟨3, 5⟩)).whole? = some (-5) := by
    decide +kernel
  have hturn : ((1.5707964 : Float32) == 0) = false := by decide +kernel
  have hfar : Far .nearest (ofSize 16 16) 1.5707964 ⟨0, 0⟩ 10000000000 0 ⟨3, 5⟩ := by
    rw [Far, hturn]
    refine .inl ⟨fun n hn => ?_, not_mayReturn hcolumn (by decide) (by decide)⟩
    obtain rfl := Option.some.inj (hcolumn.symm.trans hn)
    exact .inr (by decide)
  exact (merge_far .nearest (ofSize 16 16) (flat 16 16) ⟨1e10, 0, 0⟩ 1.5707964 ⟨0, 0⟩ hx hy).2.1 _ _
    (by decide) hfar

/-- Not every cell that misses is dropped: a column of 2400000000 counts as the largest coordinate, from
which a displacement by -2147483520 brings it back to column 127. -/
theorem Surface.not_merge_misses : ∃ s',
    ((ofSingle (-2147483520 : Float32)).whole? = some (-2147483520) ∧
      (ofSingle (-100 : Float32)).whole? = some (-100)) ∧
    (⟨0, 0⟩ ∈ (flat 16 16).extent ∧
      Misses (ofSize 128 16).width.toInt (ofSingle (turnedX .nearest 3.1415927 ⟨1200000000, 0⟩ ⟨0, 0⟩))
        (-2147483520)) ∧
    mergeCell .nearest (flat 16 16) ⟨-2147483520, -100, 0⟩ 3.1415927 ⟨1200000000, 0⟩
      (ofSize 128 16) ⟨0, 0⟩ = .ok s' ∧
    (ofSize 128 16).stored? ⟨127, 4⟩ = some 0 ∧ s'.stored? ⟨127, 4⟩ = some 2100 := by
  have hcolumn :
      (ofSingle (turnedX .nearest 3.1415927 ⟨1200000000, 0⟩ ⟨0, 0⟩)).whole? = some 2400000000 := by
    decide +kernel
  have hturn : ((3.1415927 : Float32) == 0) = false := by decide +kernel
  have htarget :
      target .nearest ⟨-2147483520, -100, 0⟩ 3.1415927 ⟨1200000000, 0⟩ ⟨0, 0⟩ = ⟨127, 4⟩ := by
    decide +kernel
  obtain ⟨s', hs', h⟩ := (turned_nil .nearest (ofSize 128 16) (flat 16 16) ⟨-2147483520, -100, 0⟩
    3.1415927 ⟨1200000000, 0⟩).exists_turnCell (p := ⟨0, 0⟩) (by simp) (by decide +kernel)
  refine ⟨s', ⟨by decide +kernel, by decide +kernel⟩, ⟨by decide, fun n hn => ?_⟩, ?_,
    by decide +kernel, ?_⟩
  · obtain rfl := Option.some.inj (hcolumn.symm.trans hn)
    exact .inr (by decide)
  · exact (mergeCell_of_turn hturn _ _ _ _ _).trans hs'
  · obtain ⟨p, hp, -, -, hstored⟩ := h.hit ⟨0, 0⟩ (by simp) (by rw [htarget]; decide)
    obtain rfl : p = ⟨0, 0⟩ := by simpa using hp
    rw [htarget] at hstored
    rw [hstored]
    decide +kernel

end Terrain
