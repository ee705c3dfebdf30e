import Terrain.Proofs.Blob.Decode
import Terrain.Snapshot

/-!
# Reading back a written grid

A grid in the compressed layout comes back with the low halves of its heights and with its factor
cut to an integer, or not at all when nothing is left of the factor. A grid in the legacy layout
comes back as it was, as far as the layout reaches.
-/

namespace Terrain

open HeightGrid

/-! ### The compressed layout -/

namespace BlobHeader

@[simp] lemma length_toBytes (h : BlobHeader) : h.toBytes.length = size := by
  simp [toBytes, size]

lemma ofBytes_toBytes (h : BlobHeader) (rest : List UInt8) : ofBytes (h.toBytes ++ rest) = h := by
  have hfirst : ∀ n tail, Bytes.int32 (Bytes.naturalAt 4 0 (Bytes.ofInt32 n ++ tail)) = n := by
    intro n tail
    have hfront := Bytes.naturalAt_zero_append (Bytes.ofInt32 n) tail
    rw [Bytes.length_ofInt32] at hfront
    rw [hfront, Bytes.int32_natural_ofInt32]
  have hnext : ∀ n tail place,
      Bytes.naturalAt 4 (4 + place) (Bytes.ofInt32 n ++ tail) = Bytes.naturalAt 4 place tail := by
    intro n tail place
    rw [← Bytes.naturalAt_length_add 4 place (Bytes.ofInt32 n), Bytes.length_ofInt32]
  obtain ⟨code, width, height, factor⟩ := h
  simp only [toBytes, List.append_assoc]
  change BlobHeader.mk (Bytes.int32 (Bytes.naturalAt 4 0 _))
    (Bytes.int32 (Bytes.naturalAt 4 (4 + 0) _)) (Bytes.int32 (Bytes.naturalAt 4 (4 + (4 + 0)) _))
    (Bytes.int32 (Bytes.naturalAt 4 (4 + (4 + (4 + 0))) _)) = _
  simp only [hfirst, hnext]

end BlobHeader

namespace Compressed

variable {g : HeightGrid}

lemma columns_ofGrid (hw : g.width < 2 ^ 31) :
    (BlobHeader.ofGrid g).width.toInt.toNat = g.width :=
  toNat_toInt_ofNat hw

lemma rows_ofGrid (hh : g.height < 2 ^ 31) :
    (BlobHeader.ofGrid g).height.toInt.toNat = g.height :=
  toNat_toInt_ofNat hh

lemma header_encode (g : HeightGrid) : BlobHeader.ofBytes (encode g) = BlobHeader.ofGrid g :=
  BlobHeader.ofBytes_toBytes _ _

lemma length_encode (g : HeightGrid) :
    (encode g).length = BlobHeader.size + 2 * (g.width * g.height) := by
  rw [encode, List.length_append, BlobHeader.length_toBytes,
    Bytes.length_flatMap_of_length Bytes.length_ofLowHalf, Array.length_toList, g.cells.size_values]
  rfl

lemma cellCount_ofGrid (hw : g.width < 2 ^ 31) (hh : g.height < 2 ^ 31) :
    (BlobHeader.ofGrid g).cellCount = g.width * g.height := by
  rw [BlobHeader.cellCount, columns_ofGrid hw, rows_ofGrid hh]

/-- The word of a cell is the low half of its stored height. -/
lemma naturalAt_encode {x y : Nat} (hx : x < g.width) (hy : y < g.height) :
    Bytes.naturalAt 2 (BlobHeader.size + 2 * (y * g.width + x)) (encode g) =
      Bytes.natural (Bytes.ofLowHalf (g.storedAt x y)) := by
  have hlt : y * g.width + x < g.cells.values.toList.length := by
    rw [Array.length_toList, g.cells.size_values]
    exact Grid.flat_lt hx hy
  have hstored : g.storedAt x y = g.cells.values.toList[y * g.width + x] := by
    have hcell := (stored?_eq_storedAt hx hy).symm.trans (Grid.at?_of_lt (g := g.cells) hx hy)
    rw [Array.getElem?_eq_getElem (Grid.lt_size_values (g := g.cells) hx hy)] at hcell
    exact (Option.some_inj.mp hcell).trans (Array.getElem_toList _).symm
  rw [encode, ← BlobHeader.length_toBytes (BlobHeader.ofGrid g), Bytes.naturalAt_length_add,
    Bytes.naturalAt, Bytes.take_drop_flatMap Bytes.length_ofLowHalf _ hlt, hstored]

/-- Nothing can be read from a grid whose factor vanishes, and any other grid can be read. -/
lemma fault?_encode (hw : g.width < 2 ^ 31) (hh : g.height < 2 ^ 31) (hpos : 0 < g.factor)
    (hfin : g.factor.isFinite = true) : fault? (encode g) =
      if Number.truncateSingle g.factor = 0 then some (.invalidFactor 0) else none := by
  have hnonneg := Number.zero_le_truncateSingle hpos hfin
  have hsizes : ¬((BlobHeader.ofGrid g).width < 0 ∨ (BlobHeader.ofGrid g).height < 0) :=
    not_or.mpr ⟨not_ofNat_lt_zero hw, not_ofNat_lt_zero hh⟩
  have hfactor : (BlobHeader.ofGrid g).factor ≤ 0 ↔ Number.truncateSingle g.factor = 0 := by
    change Number.truncateSingle g.factor ≤ 0 ↔ _
    constructor
    · exact fun h => Int32.le_antisymm h hnonneg
    · exact fun h => h ▸ Int32.le_refl 0
  rw [fault?, header_encode, length_encode, cellCount_ofGrid hw hh]
  simp only [Nat.add_sub_cancel_left, hfactor]
  rw [if_neg (by omega), if_neg hsizes, if_neg (lt_irrefl _)]
  split_ifs with hzero
  · change some (Error.invalidFactor (Number.truncateSingle g.factor)) = _
    rw [hzero]
  · rfl

lemma cell_encode (hw : g.width < 2 ^ 31) (hh : g.height < 2 ^ 31) {x y : Nat}
    (hx : x < g.width) (hy : y < g.height) :
    cell (encode g) x y = (g.storedAt x y).toInt16.toInt32 := by
  rw [cell, header_encode, columns_ofGrid hw, rows_ofGrid hh, if_pos ⟨hx, hy⟩,
    naturalAt_encode hx hy, Bytes.lowHalf_natural_ofLowHalf]

/-- What is written without a fault is read again with the low halves of the stored heights. -/
lemma exists_decode_encode (hw : g.width < 2 ^ 31) (hh : g.height < 2 ^ 31)
    (hfault : fault? (encode g) = none) (altitude : Nat) :
    ∃ r, (decode g.width g.height altitude (encode g)).result = .ok r ∧
      r.IsFresh g.width g.height altitude
        (Number.singleOfInt32 (Number.truncateSingle g.factor))
        fun x y => (g.storedAt x y).toInt16.toInt32 := by
  have hcells : (BlobHeader.ofBytes (encode g)).cellCount ≤ Grid.placeCount := by
    rw [header_encode, cellCount_ofGrid hw hh]
    exact g.cells.count_lt.le
  obtain ⟨r, hr, hfresh⟩ := exists_decode hfault g.fits_self altitude hcells
  rw [factor, header_encode] at hfresh
  have hshows := hfresh.toShows.congr fun x y hx hy => cell_encode hw hh hx hy
  exact ⟨r, hr, { hshows with clean := hfresh.clean }⟩

/-- A stored height survives if it fits into 16 bits. -/
lemma toInt16_toInt32_eq_iff (n : Int32) :
    n.toInt16.toInt32 = n ↔ -32768 ≤ n ∧ n ≤ 32767 := by
  rw [← Int32.toInt_inj, Int16.toInt_toInt32, Int32.toInt_toInt16, Int32.le_iff_toInt_le,
    Int32.le_iff_toInt_le]
  change n.toInt.bmod 65536 = n.toInt ↔ -32768 ≤ n.toInt ∧ n.toInt ≤ 32767
  rw [Int.bmod_def]
  split_ifs <;> omega

end Compressed

namespace Snapshot

/-- Restoring reads the packed bytes in the size that their header says. -/
lemma result_restore {packing : Packing} (hp : packing.Faithful) (altitude : Nat)
    (bytes : List UInt8) : (restore ⟨altitude, packing.pack bytes⟩ packing).result =
      (Compressed.decode (BlobHeader.ofBytes bytes).width.toInt.toNat
        (BlobHeader.ofBytes bytes).height.toInt.toNat altitude bytes).result := by
  rw [restore, hp bytes]
  simp only [Logged.result_bind, Logged.result_ofExcept, Except.bind]
  match hread : BlobHeader.read bytes with
  | .error e =>
    rw [Compressed.decode, hread]
    rfl
  | .ok header =>
    have hheader : header = BlobHeader.ofBytes bytes := by
      rw [BlobHeader.read] at hread
      split_ifs at hread
      exact (Except.ok.inj hread).symm
    rw [hheader]

end Snapshot

namespace Compressed

/-- A grid in the compressed layout comes back with the sign-extended low halves of its stored
heights, with its factor cut to an integer and without flags; if nothing is left of the factor,
reading fails. So it comes back equal exactly when the factor is an integer that a single can hold
and every stored height fits into 16 bits. Snapshots do the same. -/
theorem round_trip_compressed (g : HeightGrid) (altitude : Nat) (packing : Packing)
    (hp : packing.Faithful) (hw : g.width < 2 ^ 31) (hh : g.height < 2 ^ 31)
    (hpos : 0 < g.factor) (hfin : g.factor.isFinite = true) :
    (Number.truncateSingle g.factor = 0 →
      (decode g.width g.height altitude (encode g)).result = .error (.invalidFactor 0)) ∧
    (Number.truncateSingle g.factor ≠ 0 →
      ∃ r, (decode g.width g.height altitude (encode g)).result = .ok r ∧
        r.IsFresh g.width g.height altitude
          (Number.singleOfInt32 (Number.truncateSingle g.factor))
          (fun x y => (g.storedAt x y).toInt16.toInt32) ∧
        (altitude = g.altitude → ((r == g) = true ↔
          (Number.singleOfInt32 (Number.truncateSingle g.factor) == g.factor) = true ∧
          ∀ x y, x < g.width → y < g.height →
            -32768 ≤ g.storedAt x y ∧ g.storedAt x y ≤ 32767))) ∧
    ((Snapshot.ofGrid g packing).restore packing).result =
      (decode g.width g.height g.altitude (encode g)).result := by
  have hfault := fault?_encode hw hh hpos hfin
  refine ⟨?_, ?_, ?_⟩
  · intro hzero
    rw [result_decode, hfault, if_pos hzero]
  · intro hne
    rw [if_neg hne] at hfault
    obtain ⟨r, hr, hfresh⟩ := exists_decode_encode hw hh hfault altitude
    have hshows := hfresh.toShows
    refine ⟨r, hr, hfresh, ?_⟩
    intro haltitude
    simp only [HeightGrid.beq_iff, hshows.altitude_eq, hshows.factor_eq, haltitude, true_and,
      hshows.cells_eq_iff g.shows_self, toInt16_toInt32_eq_iff]
  · rw [Snapshot.ofGrid, Snapshot.result_restore hp, header_encode, columns_ofGrid hw,
      rows_ofGrid hh]

/-- A new grid with an integer factor comes back equal, and one with a factor below one does not
come back. -/
theorem round_trip_compressed_new :
    (∃ r, (decode 16 16 4096 (encode (.new 16 16 4096 100))).result = .ok r ∧
      (r == .new 16 16 4096 100) = true) ∧
    (decode 16 16 0 (encode (.new 16 16 0 0.5))).result = .error (.invalidFactor 0) := by
  refine ⟨?_, ?_⟩
  · obtain ⟨r, hr, -, heq⟩ := (round_trip_compressed (.new 16 16 4096 100) 4096 .plain
      Packing.faithful_plain (by decide) (by decide) (by decide +kernel)
      (by decide +kernel)).2.1 (by decide +kernel)
    refine ⟨r, hr, (heq rfl).mpr ⟨by decide +kernel, ?_⟩⟩
    intro x y hx hy
    have hzero : (HeightGrid.new 16 16 4096 100).stored? x y = some 0 :=
      Grid.at?_replicate 0 hx hy
    rw [storedAt, hzero]
    decide
  · exact (round_trip_compressed (.new 16 16 0 0.5) 0 .plain Packing.faithful_plain (by decide)
      (by decide) (by decide +kernel) (by decide +kernel)).1 (by decide +kernel)

end Compressed

/-! ### The legacy layout -/

namespace Legacy

variable {g r : HeightGrid}

/-- The stored height of a cell of the layout, zero outside the grid. -/
def storedIn (g : HeightGrid) (x y : Nat) : Int32 :=
  if x < g.width ∧ y < g.height then g.storedAt x y else 0

lemma storedIn_of_lt {x y : Nat} (hx : x < g.width) (hy : y < g.height) :
    storedIn g x y = g.storedAt x y := if_pos ⟨hx, hy⟩

lemma storedIn_of_not_lt {x y : Nat} (h : ¬(x < g.width ∧ y < g.height)) : storedIn g x y = 0 :=
  if_neg h

lemma length_column (g : HeightGrid) (x : Nat) : (column g x).length = 8 * legacySize := by
  rw [column, Bytes.length_flatMap_of_length fun y => Bytes.length_ofDouble (written g x y),
    List.length_range]

lemma length_encode (g : HeightGrid) : (encode g).length = 8 * cellCount := by
  rw [encode, Bytes.length_flatMap_of_length (length_column g), List.length_range, cellCount,
    Nat.mul_assoc]

/-- The layout holds the number of a cell at its place. -/
lemma naturalAt_encode (g : HeightGrid) {x y : Nat} (hx : x < legacySize) (hy : y < legacySize) :
    Bytes.naturalAt 8 (8 * (legacySize * x + y)) (encode g) =
      Bytes.natural (Bytes.ofDouble (written g x y)) := by
  have hcolumn : ((encode g).drop (8 * legacySize * x)).take (8 * legacySize) = column g x := by
    rw [encode, Bytes.take_drop_flatMap (length_column g) _ (by rwa [List.length_range]),
      List.getElem_range]
  have hcell : ((column g x).drop (8 * y)).take 8 = Bytes.ofDouble (written g x y) := by
    rw [column, Bytes.take_drop_flatMap (fun y => Bytes.length_ofDouble (written g x y)) _
      (by rwa [List.length_range]), List.getElem_range]
  have hplace : 8 * (legacySize * x + y) = 8 * legacySize * x + 8 * y := by ring
  rw [← hcolumn, List.drop_take, List.take_take, List.drop_drop, min_eq_left (by omega)] at hcell
  rw [Bytes.naturalAt, hplace, hcell]

lemma toBits_zeroMark : zeroMark.toBits = 1 := by decide +kernel

/-- The mark of a zero is read as a zero. -/
lemma value_zeroMark : value (Bytes.natural (Bytes.ofDouble zeroMark)) = 0 := by
  have hfinite : zeroMark.isFinite = true := by decide +kernel
  have hdouble : Bytes.double (Bytes.natural (Bytes.ofDouble zeroMark)) = zeroMark := by
    rw [Bytes.natural_ofDouble, toBits_zeroMark]
    rfl
  rw [value, hdouble, if_pos hfinite]
  decide +kernel

/-- What is written for a cell is the height of its stored integer, unless that is a zero. -/
lemma written_of_pos (hpos : 0 < g.factor) (hfin : g.factor.isFinite = true) (x y : Nat) :
    written g x y =
      if storedIn g x y = 0 then zeroMark else Height.ofStored (storedIn g x y) g.factor := by
  have hzero : ((0 : Float) == 0) = true := by decide +kernel
  rw [written]
  by_cases hin : x < g.width ∧ y < g.height
  · rw [storedIn_of_lt hin.1 hin.2]
    simp only [if_pos hin, height?_eq_ofStored hin.1 hin.2, Option.getD_some,
      Height.ofStored_beq_zero (g.storedAt x y) hpos hfin]
  · simp only [if_neg hin, hzero, if_true, storedIn_of_not_lt hin]

/-- What is written for a cell stands for its stored height. -/
lemma value_written (hfactor : g.factor = Height.defaultFactor) (x y : Nat) :
    value (Bytes.natural (Bytes.ofDouble (written g x y))) = storedIn g x y := by
  have hpos : 0 < Height.defaultFactor := by decide +kernel
  have hfin : Height.defaultFactor.isFinite = true := by decide +kernel
  rw [written_of_pos (hfactor ▸ hpos) (hfactor ▸ hfin), hfactor]
  split_ifs with hzero
  · rw [value_zeroMark, hzero]
  · obtain ⟨h, hstands⟩ := Height.exists_stands_ofStored (storedIn g x y) hpos hfin
    rw [value, Bytes.double_natural_ofDouble hstands.ofBits_toBits, if_pos hstands.isFinite,
      Height.recover_image _ hpos hfin]

/-- The bytes depend on the stored heights and the factor only. -/
lemma encode_congr (hcells : r.cells = g.cells) (hfactor : r.factor = g.factor) :
    encode r = encode g := by
  have hcolumn : column r = column g := by
    funext x
    have hwritten : written r x = written g x := by
      funext y
      unfold written height? stored? width height
      rw [hcells, hfactor]
    rw [column, column, hwritten]
  rw [encode, encode, hcolumn]

lemma cell_encode (hfactor : g.factor = Height.defaultFactor) (x y : Nat) :
    cell (encode g) x y = if x < 256 ∧ y < 256 then storedIn g x y else 2100 := by
  rw [cell]
  by_cases hin : x < legacySize ∧ y < legacySize
  · rw [if_pos hin, naturalAt_encode g hin.1 hin.2, value_written hfactor]
    exact (if_pos hin).symm
  · rw [if_neg hin]
    exact (if_neg hin).symm

/-- A grid with the default factor comes back from the legacy layout as far as the layout reaches, in a
region of any size with less than `2 ^ 32` cells that stays below the limit of sizes by more than a
patch: zero where the layout is larger than the grid, and the default height where it ends. Grids of the
size of the layout come back as they are, and with the same bytes. A region of another size cannot be
had. -/
theorem round_trip_legacy (g : HeightGrid) (hfactor : g.factor = Height.defaultFactor)
    (width height altitude : Nat) :
    (width * height < 2 ^ 32 → width + 16 < 2 ^ 32 → height + 16 < 2 ^ 32 →
      ∃ r, (decode width height altitude (encode g)).result = .ok r ∧
        r.IsFresh width height altitude Height.defaultFactor
          (fun x y =>
            if x < 256 ∧ y < 256 then if x < g.width ∧ y < g.height then g.storedAt x y else 0
            else 2100) ∧
        (width = 256 → height = 256 → g.width = 256 → g.height = 256 →
          r.cells = g.cells ∧ r.factor = g.factor ∧ encode r = encode g)) ∧
    (¬Fits width height →
      (decode width height altitude (encode g)).result = .error .uncountable) := by
  have hfault : fault? (encode g) = none := by
    rw [fault?, length_encode, if_neg (by omega)]
  refine ⟨fun hcells hwidth hheight => ?_, fun hfits => ?_⟩
  · obtain ⟨r, hr, hfresh⟩ := exists_decode hfault (fits_iff.mpr ⟨hcells, hwidth, hheight⟩) altitude
    have hshows := hfresh.toShows.congr fun x y _ _ => cell_encode hfactor x y
    refine ⟨r, hr, { hshows with clean := hfresh.clean }, ?_⟩
    rintro rfl rfl hgw hgh
    have hself := g.shows_self
    rw [hgw, hgh] at hself
    have hcells : r.cells = g.cells := by
      rw [hshows.cells_eq_iff hself]
      intro x y hx hy
      rw [if_pos ⟨hx, hy⟩, storedIn, hgw, hgh, if_pos ⟨hx, hy⟩]
    have hsame : r.factor = g.factor := hshows.factor_eq.trans hfactor.symm
    exact ⟨hcells, hsame, encode_congr hcells hsame⟩
  · exact result_decode_of_not_fits hfault hfits altitude

/-- A new grid of the size of the layout comes back as it is. -/
theorem round_trip_legacy_new : ∃ r,
    (decode 256 256 0 (encode (.new 256 256 4096 Height.defaultFactor))).result = .ok r ∧
      r.cells = Grid.replicate 256 256 0 ∧
      encode r = encode (.new 256 256 4096 Height.defaultFactor) := by
  obtain ⟨r, hr, -, hsame⟩ :=
    (round_trip_legacy (.new 256 256 4096 Height.defaultFactor) rfl 256 256 0).1 (by decide)
      (by decide) (by decide)
  obtain ⟨hcells, -, hbytes⟩ := hsame rfl rfl rfl rfl
  exact ⟨r, hr, hcells, hbytes⟩

/-- It does not come back in a region of 65536 by 65536 cells, which are one more than can be counted. -/
theorem not_round_trip_legacy_large :
    ¬∃ r, (decode 65536 65536 0 (encode (.new 256 256 4096 Height.defaultFactor))).result =
      .ok r := by
  have hfault : fault? (encode (.new 256 256 4096 Height.defaultFactor)) = none := by
    rw [fault?, length_encode, if_neg (by decide)]
  rintro ⟨r, hr⟩
  rw [result_decode_of_not_fits hfault (by decide)] at hr
  cases hr

end Legacy

end Terrain
