import Terrain.Proofs.Blob.Rewrite
import Terrain.Proofs.Height.Factor
import Terrain.Proofs.Height.Requantized

/-!
# Writing what was read into a region of another size

A blob in the compressed layout may be read into a region of any size. A cell that the blob covers
holds 16 bits and survives being written and read again. The other cells hold the default height, and
whether that fits into 16 bits depends on the factor.
-/

namespace Terrain.Compressed

open HeightGrid

variable {g : HeightGrid} {bytes : List UInt8} {width height altitude : Nat} {f : Float32}
  {columns : Nat} {rest : Int32} {i : Nat}

/-! ### The cells of a blob -/

/-- Some of the words go to a cell. They stand in rows of the given length and are numbered in 32
bits. -/
def Reaches (columns count x y : Nat) : Prop :=
  x < columns ∧ y * columns + x < min count Grid.placeCount

/-- A blob has a word for a cell. -/
def Covers (bytes : List UInt8) (x y : Nat) : Prop :=
  let header := BlobHeader.ofBytes bytes
  Reaches header.width.toInt.toNat header.cellCount x y

/-- One more word goes to one more cell, or to one that another word went to before. -/
lemma reaches_succ (hpos : 0 < columns) (i x y : Nat) : Reaches columns (i + 1) x y ↔
    (i % Grid.placeCount % columns = x ∧ i % Grid.placeCount / columns = y) ∨
      Reaches columns i x y := by
  have hcell : (i % Grid.placeCount % columns = x ∧ i % Grid.placeCount / columns = y) ↔
      x < columns ∧ y * columns + x = i % Grid.placeCount := by
    constructor
    · rintro ⟨rfl, rfl⟩
      exact ⟨Nat.mod_lt _ hpos, Nat.div_add_mod' _ _⟩
    · rintro ⟨hx, hplace⟩
      rw [← hplace]
      exact ⟨Grid.flat_mod hx, Grid.flat_div hx⟩
  have hcount : Grid.placeCount = 4294967296 := rfl
  rw [hcell, Reaches, Reaches, hcount, ← and_or_left]
  refine and_congr_right fun _ => ?_
  omega

/-! ### The loop -/

/-- Flat terrain into which so many words have been written: the cells that the words reach hold no
more than 16 bits, and the others what they held before. -/
structure Filled (width height altitude : Nat) (f : Float32) (columns : Nat) (rest : Int32)
    (count : Nat) (g : HeightGrid) : Prop where
  shows_self : g.Shows width height altitude f g.storedAt
  low : ∀ x y, x < width → y < height → Reaches columns count x y →
    (g.storedAt x y).toInt16.toInt32 = g.storedAt x y
  other : ∀ x y, x < width → y < height → ¬Reaches columns count x y → g.storedAt x y = rest

lemma filled_zero (h : g.Shows width height altitude f fun _ _ => rest) :
    Filled width height altitude f columns rest 0 g where
  shows_self := by
    refine h.congr fun x y hx hy => ?_
    rw [storedAt, h.stored_eq hx hy, Option.getD_some]
  low := fun x y _ _ hreach => absurd (hreach.2.trans_le (min_le_left _ _)) (Nat.not_lt_zero _)
  other := fun x y hx hy _ => by rw [storedAt, h.stored_eq hx hy, Option.getD_some]

/-- One step of the loop. -/
lemma Filled.exists_writeWord (h : Filled width height altitude f columns rest i g)
    (hpos : 0 < columns) (word : Nat) : ∃ g', writeWord columns g (word, i) = .ok g' ∧
      Filled width height altitude f columns rest (i + 1) g' := by
  rw [writeWord, cellOf, if_neg hpos.ne', ok_bind]
  dsimp only
  split_ifs with hin
  · obtain ⟨g', hg', hwrote⟩ := exists_setStored hin.1 hin.2 (Bytes.lowHalf word)
    have hshows := h.shows_self.wrote hwrote
    have hstored : ∀ x y, x < width → y < height → g'.storedAt x y =
        if i % Grid.placeCount % columns = x ∧ i % Grid.placeCount / columns = y then
          Bytes.lowHalf word
        else g.storedAt x y := by
      intro x y hx hy
      rw [storedAt, hshows.stored_eq hx hy, Option.getD_some]
    refine ⟨g', by rw [hg', Write.toExcept], ?_, ?_, ?_⟩
    · exact hshows.congr fun x y hx hy => (hstored x y hx hy).symm
    · intro x y hx hy hreach
      rw [hstored x y hx hy]
      split_ifs with hcell
      · exact Bytes.toInt32_toInt16_lowHalf word
      · exact h.low x y hx hy (((reaches_succ hpos i x y).mp hreach).resolve_left hcell)
    · intro x y hx hy hreach
      rw [reaches_succ hpos, not_or] at hreach
      rw [hstored x y hx hy, if_neg hreach.1]
      exact h.other x y hx hy hreach.2
  · have hout : ∀ x y, x < width → y < height →
        (Reaches columns (i + 1) x y ↔ Reaches columns i x y) := by
      intro x y hx hy
      refine (reaches_succ hpos i x y).trans (or_iff_right ?_)
      rintro ⟨rfl, rfl⟩
      exact hin ⟨hx.trans_eq h.shows_self.width_eq.symm, hy.trans_eq h.shows_self.height_eq.symm⟩
    exact ⟨g, rfl, h.shows_self, fun x y hx hy hreach => h.low x y hx hy ((hout x y hx hy).mp hreach),
      fun x y hx hy hreach => h.other x y hx hy (mt (hout x y hx hy).mpr hreach)⟩

lemma Filled.clearFlags (h : Filled width height altitude f columns rest i g) :
    Filled width height altitude f columns rest i g.clearFlags :=
  ⟨h.shows_self.clearFlags.toShows, h.low, h.other⟩

/-- No cell holds more than 16 bits if what was there before does not, or if the words reach every
cell. -/
lemma Filled.low_iff (h : Filled width height altitude f columns rest i g) :
    (∀ x y, x < width → y < height → (g.storedAt x y).toInt16.toInt32 = g.storedAt x y) ↔
      rest.toInt16.toInt32 = rest ∨ ∀ x y, x < width → y < height → Reaches columns i x y := by
  constructor
  · intro hall
    refine or_iff_not_imp_right.mpr fun hreach => ?_
    push Not at hreach
    obtain ⟨x, y, hx, hy, hout⟩ := hreach
    have hcell := hall x y hx hy
    rwa [h.other x y hx hy hout] at hcell
  · intro hor x y hx hy
    by_cases hreach : Reaches columns i x y
    · exact h.low x y hx hy hreach
    · rw [h.other x y hx hy hreach]
      exact hor.resolve_right fun hall => hreach (hall x y hx hy)

/-- What is read into a region of any size that a region can have holds no more than 16 bits where the
blob covers it, and the default height elsewhere. -/
lemma exists_decode_filled (hfault : fault? bytes = none) (fits : Fits width height)
    (altitude : Nat) :
    ∃ g, (decode width height altitude bytes).result = .ok g ∧
      Filled width height altitude (factor bytes) (BlobHeader.ofBytes bytes).width.toInt.toNat
        (Height.quantize Height.defaultHeight (factor bytes)) (BlobHeader.ofBytes bytes).cellCount
        g := by
  have hlength := length_words hfault
  obtain ⟨g, hg, hfilled⟩ := exists_foldlM_zipIdx (l := words bytes)
    (P := Filled width height altitude (factor bytes)
      (BlobHeader.ofBytes bytes).width.toInt.toNat
      (Height.quantize Height.defaultHeight (factor bytes)))
    (filled_zero (shows_flatten_new width height altitude (factor bytes) fits))
    fun i hi s hs => hs.exists_writeWord
      (Nat.pos_of_mul_pos_right (Nat.zero_lt_of_lt (hi.trans_eq hlength))) _
  rw [hlength] at hfilled
  refine ⟨g.clearFlags, ?_, hfilled.clearFlags⟩
  rw [result_decode, hfault, create_of_fits fits]
  exact congrArg (Except.map clearFlags) hg

lemma filled_of_decode (h : (decode width height altitude bytes).result = .ok g) :
    fault? bytes = none ∧
      Filled width height altitude (factor bytes) (BlobHeader.ofBytes bytes).width.toInt.toNat
        (Height.quantize Height.defaultHeight (factor bytes)) (BlobHeader.ofBytes bytes).cellCount
        g := by
  match hfault : fault? bytes with
  | some e =>
    rw [result_decode, hfault] at h
    cases h
  | none =>
    by_cases fits : Fits width height
    · obtain ⟨g', hg', hfilled⟩ := exists_decode_filled hfault fits altitude
      obtain rfl : g' = g := Except.ok.inj (hg'.symm.trans h)
      exact ⟨rfl, hfilled⟩
    · rw [result_decode_of_not_fits hfault fits] at h
      cases h

/-! ### Reading twice -/

/-- The factor of a blob that was read is positive. -/
lemma factor_pos (h : fault? bytes = none) : 0 < (BlobHeader.ofBytes bytes).factor.toInt := by
  rw [fault?] at h
  split_ifs at h with _ _ hfactor
  rw [Int32.le_iff_toInt_le] at hfactor
  exact not_le.mp hfactor

/-- A region that takes its factor from a blob can be written and read again. -/
lemma fault?_encode_of_factor (hw : g.width < 2 ^ 31) (hh : g.height < 2 ^ 31) {k : Int32}
    (hk : 0 < k.toInt) (hfactor : g.factor = Number.singleOfInt32 k) :
    fault? (encode g) = none := by
  refine fault?_eq_none hw hh (header_encode g) ?_ (length_encode g)
  rw [hfactor, Int32.le_iff_toInt_le]
  exact (Number.singleOfInt32_truncateSingle_singleOfInt32 hk).2

/-- What was read from a blob into a region of any size is written and read again. The sizes, the
altitude, the factor and the cells that the blob covers come back. The other cells hold the default
height, of which the low 16 bits come back. So the region comes back equal exactly when the factor is at
most 1560 or the blob covers every cell. -/
theorem decode_encode_resized (width height altitude : Nat) (bytes : List UInt8) (g : HeightGrid)
    (hw : width < 2 ^ 31) (hh : height < 2 ^ 31)
    (h : (decode width height altitude bytes).result = .ok g) :
    ∃ r, (decode width height altitude (encode g)).result = .ok r ∧
      r.IsFresh width height altitude g.factor
        (fun x y => (g.storedAt x y).toInt16.toInt32) ∧
      (∀ x y, x < width → y < height →
        (Covers bytes x y → r.storedAt x y = g.storedAt x y) ∧
        (¬Covers bytes x y →
          g.storedAt x y = Height.quantize Height.defaultHeight g.factor)) ∧
      ((r == g) = true ↔ (BlobHeader.ofBytes bytes).factor.toInt ≤ 1560 ∨
        ∀ x y, x < width → y < height → Covers bytes x y) := by
  obtain ⟨hfault, hfilled⟩ := filled_of_decode h
  have hk := factor_pos hfault
  have hshows := hfilled.shows_self
  obtain ⟨hgw, hgh⟩ : g.width = width ∧ g.height = height := ⟨hshows.width_eq, hshows.height_eq⟩
  have hfactor : g.factor = Number.singleOfInt32 (BlobHeader.ofBytes bytes).factor :=
    hshows.factor_eq
  obtain ⟨r, hr, hfresh⟩ := exists_decode_encode (hgw ▸ hw) (hgh ▸ hh)
    (fault?_encode_of_factor (hgw ▸ hw) (hgh ▸ hh) hk hfactor) altitude
  have hsame : Number.singleOfInt32 (Number.truncateSingle g.factor) = g.factor := by
    rw [hfactor, (Number.singleOfInt32_truncateSingle_singleOfInt32 hk).1]
  rw [hgw, hgh, hsame] at hfresh
  rw [hgw, hgh] at hr
  have hrest : ∀ x y, x < width → y < height → ¬Covers bytes x y →
      g.storedAt x y = Height.quantize Height.defaultHeight g.factor := by
    intro x y hx hy hcover
    rw [hfilled.other x y hx hy hcover, hshows.factor_eq]
  refine ⟨r, hr, hfresh, fun x y hx hy => ⟨fun hcover => ?_, hrest x y hx hy⟩, ?_⟩
  · rw [storedAt, hfresh.stored_eq hx hy, Option.getD_some]
    exact hfilled.low x y hx hy hcover
  · have hdenotes := Number.denotes_singleOfInt32_round (BlobHeader.ofBytes bytes).factor
    have hbeq : (g.factor == g.factor) = true := by
      rw [hfactor]
      exact (Number.ofSingle_beq_iff hdenotes hdenotes).mpr rfl
    rw [HeightGrid.beq_iff, hfresh.altitude_eq, hshows.altitude_eq, hfresh.factor_eq,
      hfresh.cells_eq_iff hshows, and_iff_right rfl, and_iff_right hbeq, hfilled.low_iff,
      toInt16_toInt32_eq_iff]
    exact or_congr_left (Height.quantize_defaultHeight_fits_iff hk)

/-- A blob of one cell is read into a larger region, which comes back. -/
theorem decode_encode_resized_oneCell : ∃ g r,
    (decode 16 16 4096 Blob.oneCell).result = .ok g ∧
      (decode 16 16 4096 (encode g)).result = .ok r ∧ (r == g) = true := by
  have hfault : fault? Blob.oneCell = none := rfl
  obtain ⟨g, hg, -⟩ := exists_decode hfault (by decide : Fits 16 16) 4096 (by decide)
  obtain ⟨r, hr, -, -, hsame⟩ := decode_encode_resized 16 16 4096 Blob.oneCell g (by decide)
    (by decide) hg
  exact ⟨g, r, hg, hr, hsame.mpr (.inl (by decide))⟩

/-- A blob without cells, with the factor 2000. -/
def noCells : List UInt8 := [27, 0, 0, 0, 0, 0, 0, 0, 0, 0, 0, 0, 208, 7, 0, 0]

/-- With that factor the default height is stored as 42000, and -23536 comes back. -/
theorem not_decode_encode_resized_same : ∃ g r,
    (decode 16 16 4096 noCells).result = .ok g ∧ g.storedAt 0 0 = 42000 ∧
      (decode 16 16 4096 (encode g)).result = .ok r ∧ r.storedAt 0 0 = -23536 ∧
      (r == g) = false := by
  have hfault : fault? noCells = none := rfl
  obtain ⟨g, hg, hread⟩ := exists_decode hfault (by decide : Fits 16 16) 4096 (by decide)
  have hwidth : g.width < 2 ^ 31 := by rw [hread.width_eq]; decide
  have hheight : g.height < 2 ^ 31 := by rw [hread.height_eq]; decide
  obtain ⟨r, hr, hfresh⟩ := exists_decode_encode hwidth hheight
    (fault?_encode_of_factor (k := 2000) hwidth hheight (by decide) hread.factor_eq) 4096
  rw [hread.width_eq, hread.height_eq] at hr hfresh
  have hstored : g.storedAt 0 0 = 42000 := by
    rw [storedAt, hread.stored_eq (by decide) (by decide)]
    decide +kernel
  have hback : r.storedAt 0 0 = -23536 := by
    rw [storedAt, hfresh.stored_eq (by decide) (by decide), Option.getD_some, hstored]
    decide
  refine ⟨g, r, hg, hstored, hr, hback, ?_⟩
  rw [← Bool.not_eq_true, HeightGrid.beq_iff]
  rintro ⟨-, -, hcells⟩
  have hsame : r.storedAt 0 0 = g.storedAt 0 0 := by rw [storedAt, storedAt, stored?, stored?, hcells]
  rw [hstored, hback] at hsame
  exact absurd hsame (by decide)

end Terrain.Compressed
