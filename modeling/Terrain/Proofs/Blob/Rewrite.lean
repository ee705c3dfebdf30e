import Terrain.Proofs.Blob.RoundTrip
import Terrain.Proofs.Number.Single

/-!
# Writing what was read

A blob in the compressed layout that is read into a region of its own size is written again byte for
byte: its header and its words are all that it holds, and neither loses anything on the way.
-/

namespace Terrain

/-! ### The header -/

namespace BlobHeader

/-- The leading bytes of a blob are those that its header writes. -/
lemma toBytes_ofBytes {bytes : List UInt8} (h : size ≤ bytes.length) :
    (ofBytes bytes).toBytes = bytes.take size := by
  have hfield : ∀ i, 4 * i + 4 ≤ size →
      Bytes.ofInt32 (Bytes.int32 (Bytes.naturalAt 4 (4 * i) bytes)) =
        (bytes.drop (4 * i)).take 4 := by
    intro i hi
    refine Bytes.ofInt32_int32_natural ?_
    rw [List.length_take, List.length_drop]
    omega
  have hsize : size = 4 * 4 := rfl
  rw [hsize, ← Bytes.flatMap_pieces 4 4 bytes]
  simp only [toBytes, ofBytes]
  rw [hfield 0 (by decide), hfield 1 (by decide), hfield 2 (by decide), hfield 3 (by decide)]
  simp [List.range_succ]

end BlobHeader

/-! ### Blobs -/

namespace Compressed

open HeightGrid

variable {bytes : List UInt8} {g : HeightGrid} {width height altitude : Nat}

/-- A header with sizes and a factor that are not too large, and just the bytes it announces, can be
read. -/
lemma fault?_eq_none {factor : Int32} (hw : width < 2 ^ 31) (hh : height < 2 ^ 31)
    (hheader : BlobHeader.ofBytes bytes = ⟨27, Int32.ofNat width, Int32.ofNat height, factor⟩)
    (hfactor : 1 ≤ factor) (hlength : bytes.length = 16 + 2 * (width * height)) :
    fault? bytes = none := by
  have hsizes : ¬(Int32.ofNat width < 0 ∨ Int32.ofNat height < 0) :=
    not_or.mpr ⟨not_ofNat_lt_zero hw, not_ofNat_lt_zero hh⟩
  have hpos : ¬factor ≤ 0 := by
    rw [Int32.le_iff_toInt_le] at hfactor ⊢
    have hone : (1 : Int32).toInt = 1 := rfl
    have hzero : (0 : Int32).toInt = 0 := rfl
    omega
  rw [fault?, hheader]
  simp only [BlobHeader.cellCount, BlobHeader.size, toNat_toInt_ofNat hw, toNat_toInt_ofNat hh]
  rw [if_neg (by omega), if_neg hsizes, if_neg hpos, if_neg (by omega)]

/-- The words of a region that shows a blob are the words of the blob. -/
lemma flatMap_ofLowHalf_values {f : Float32} (h : g.Shows width height altitude f (cell bytes))
    (hwidth : (BlobHeader.ofBytes bytes).width.toInt.toNat = width)
    (hheight : (BlobHeader.ofBytes bytes).height.toInt.toNat = height)
    (hlength : bytes.length = BlobHeader.size + 2 * (width * height)) :
    g.cells.values.toList.flatMap Bytes.ofLowHalf = bytes.drop BlobHeader.size := by
  have hpayload : (bytes.drop BlobHeader.size).length = 2 * (width * height) := by
    rw [List.length_drop]
    omega
  have hword : ∀ i ∈ List.range (width * height),
      Bytes.ofLowHalf (cell bytes (i % width) (i / width)) =
        ((bytes.drop BlobHeader.size).drop (2 * i)).take 2 := by
    intro i hi
    have hlt := List.mem_range.mp hi
    rw [cell, hwidth, hheight, if_pos (Grid.mod_lt_and_div_lt hlt), Nat.div_add_mod', List.drop_drop]
    refine Bytes.ofLowHalf_lowHalf_natural ?_
    rw [List.length_take, List.length_drop]
    omega
  rw [h.toList_values, List.flatMap_map, List.flatMap_congr hword, Bytes.flatMap_pieces, ← hpayload,
    List.take_length]

/-- A blob in the compressed layout with a header of its own size, a factor that a single can hold
and nothing behind its words is read into a region of that size, whatever its words are, and the
region is written as the same bytes. Off the size of the legacy layout it keeps its tag, too. -/
theorem encode_decode_compressed (width height altitude : Nat) (factor : Int32)
    (bytes : List UInt8) (hw : width < 2 ^ 31) (hh : height < 2 ^ 31)
    (hcount : width * height < 2 ^ 31) (hlo : 1 ≤ factor) (hhi : factor ≤ 2 ^ 24)
    (hheader : BlobHeader.ofBytes bytes = ⟨27, Int32.ofNat width, Int32.ofNat height, factor⟩)
    (hlength : bytes.length = 16 + 2 * (width * height)) :
    ∃ g, (decode width height altitude bytes).result = .ok g ∧ encode g = bytes ∧
      (Blob.decode width height altitude 27 bytes).result = .ok g ∧
      (¬(width = 256 ∧ height = 256) → Blob.encode g = ⟨.compressed2D, bytes⟩) := by
  have hfault := fault?_eq_none hw hh hheader hlo hlength
  have hcolumns : (BlobHeader.ofBytes bytes).width.toInt.toNat = width := by
    rw [hheader, toNat_toInt_ofNat hw]
  have hrows : (BlobHeader.ofBytes bytes).height.toInt.toNat = height := by
    rw [hheader, toNat_toInt_ofNat hh]
  have hcells : (BlobHeader.ofBytes bytes).cellCount ≤ Grid.placeCount := by
    rw [BlobHeader.cellCount, hcolumns, hrows]
    exact hcount.le.trans (by decide)
  obtain ⟨g, hg, hfresh⟩ := exists_decode hfault (fits_of_lt hw hh (hcount.trans (by decide)))
    altitude hcells
  have hfactor : Number.truncateSingle g.factor = factor := by
    rw [hfresh.factor_eq, Compressed.factor, hheader]
    refine Number.truncateSingle_singleOfInt32 ?_
    rw [Int32.le_iff_toInt_le] at hlo hhi
    have hone : (1 : Int32).toInt = 1 := rfl
    have hmax : (2 ^ 24 : Int32).toInt = 2 ^ 24 := by decide
    change factor.toInt.natAbs ≤ 2 ^ 24
    omega
  have hsame : BlobHeader.ofGrid g = BlobHeader.ofBytes bytes := by
    rw [BlobHeader.ofGrid, hfactor, hfresh.width_eq, hfresh.height_eq, hheader]
    rfl
  have hencode : encode g = bytes := by
    rw [encode, hsame, BlobHeader.toBytes_ofBytes (size_le hfault),
      flatMap_ofLowHalf_values hfresh.toShows hcolumns hrows hlength, List.take_append_drop]
  refine ⟨g, hg, hencode, ?_, fun hsize => ?_⟩
  · rw [Blob.result_decode, if_pos rfl, hg]
  · have hnot : ¬g.HasLegacySize := by
      rwa [HasLegacySize, hfresh.width_eq, hfresh.height_eq]
    rw [Blob.encode, if_neg hnot, hencode]

/-- A blob of 16 by 16 cells, in all of which the stored height is -1. -/
def trench : List UInt8 :=
  [27, 0, 0, 0, 16, 0, 0, 0, 16, 0, 0, 0, 10, 0, 0, 0] ++ List.replicate 512 255

/-- The blob is read and written again. -/
theorem encode_decode_compressed_trench : ∃ g,
    (decode 16 16 4096 trench).result = .ok g ∧ encode g = trench ∧
      (Blob.decode 16 16 4096 27 trench).result = .ok g ∧
      Blob.encode g = ⟨.compressed2D, trench⟩ := by
  have hlength : trench.length = 16 + 2 * (16 * 16) := by
    rw [trench, List.length_append, List.length_replicate]
    rfl
  obtain ⟨g, hg, hencode, hblob, htag⟩ :=
    encode_decode_compressed 16 16 4096 10 trench (by decide) (by decide) (by decide) (by decide)
      (by decide) (by decide) hlength
  exact ⟨g, hg, hencode, hblob, htag (by decide)⟩

end Compressed

end Terrain
