import Terrain.Document
import Terrain.Proofs.Base64
import Terrain.Proofs.Blob.Decode
import Terrain.Proofs.Document.Layout
import Terrain.Proofs.Height.Single

/-!
# Reading back a legacy document

The heights of a region are found in its document as singles. Up to a height of `2 ^ 17` they come
back as they were, and at any height the region that comes back has the same document.
-/

namespace Terrain

open HeightGrid

namespace LegacyDocument

/-! ### The encoded data -/

/-- Symbols and padding need no care in a document. -/
lemma symbol_plain : ∀ n < 64, Base64.symbol n ≠ '<' ∧ Base64.symbol n ≠ '&' ∧
    Markup.isBlank (Base64.symbol n) = false ∧ Markup.isDataBlank (Base64.symbol n) = false := by
  decide +kernel

lemma isPlain_encode (bytes : List UInt8) : Markup.IsPlain (Base64.encode bytes) := by
  intro c hc
  obtain rfl | ⟨n, hn, rfl⟩ := Base64.isWritten_of_mem_encode hc
  · decide
  · obtain ⟨hopen, hamp, hblank, -⟩ := symbol_plain n hn
    exact ⟨hopen, hamp, hblank⟩

lemma dataBytes_of_filter {data : List Char} {bytes : List UInt8}
    (h : data.filter (fun c => !Markup.isDataBlank c) = Base64.encode bytes) :
    dataBytes data = .ok bytes := by
  rw [dataBytes, h, ← Base64.octets, Base64.decode_encode]
  rfl

lemma dataBytes_encode (bytes : List UInt8) : dataBytes (Base64.encode bytes) = .ok bytes := by
  refine dataBytes_of_filter (List.filter_eq_self.mpr fun c hc => ?_)
  obtain rfl | ⟨n, hn, rfl⟩ := Base64.isWritten_of_mem_encode hc
  · rfl
  · rw [(symbol_plain n hn).2.2.2]
    rfl

lemma isName_field : Markup.IsName field.toList := by decide

lemma writes_data (bytes : List UInt8) :
    Markup.Writes (Document.element field.toList (Base64.encode bytes))
      [Markup.leaf field.toList (Base64.encode bytes)] :=
  .leaf isName_field (isPlain_encode bytes)

lemma readChild_leaf (data : List Char) :
    readChild none (Markup.leaf field.toList data) = .ok (some data) := by
  have hfield : readChild none (Markup.leaf field.toList data) =
      if Markup.localName field.toList = field.toList then
        Markup.readOnce field none (Markup.readText (Markup.leaf field.toList data))
      else (Markup.skip (Markup.leaf field.toList data)).map fun _ => none := rfl
  rw [hfield, if_pos isName_field.localName, Markup.readText_leaf]
  rfl

lemma readData_leaf (name data : List Char) :
    readData (.element name [] [Markup.leaf field.toList data] true) = .ok data := by
  rw [readData, Markup.readRecord_element, Markup.foldlM_cons_of_ok (readChild_leaf data)]
  rfl

/-- A written document is read as the bytes that it was written for. -/
lemma decode_element (width height altitude : Nat) (bytes : List UInt8) :
    decode width height altitude (Document.declaration ++
      Document.element DocumentLayout.legacy.root
        (Document.element field.toList (Base64.encode bytes))) =
      ofBytes width height altitude bytes := by
  rw [decode, Document.readRoot_element readData (DocumentLayout.isName_root _) (writes_data bytes),
    readData_leaf]
  change dataBytes (Base64.encode bytes) >>= ofBytes width height altitude = _
  rw [dataBytes_encode]
  rfl

/-! ### The region of the bytes -/

/-- The stored height of a cell of a region of the given width: that of the single in the four bytes of
the cell, or zero if the single is not finite. -/
def cell (width : Nat) (bytes : List UInt8) (x y : Nat) : Int32 :=
  let height := Bytes.single (Bytes.naturalAt 4 (4 * (y * width + x)) bytes)
  if height.isFinite then Height.recoverSingle height Height.defaultFactor else 0

/-- Too few bytes for a region. -/
lemma ofBytes_of_lt {width height : Nat} {bytes : List UInt8}
    (h : bytes.length / 4 < width * height) (altitude : Nat) :
    ofBytes width height altitude bytes =
      .error (.truncated .legacyDocument (width * height) (bytes.length / 4)) :=
  if_pos h

/-- What a cell of a new region stores after a single was written to it. -/
def storedOf (single : Nat) : Int32 :=
  let height := Bytes.single single
  if height.isFinite then Height.recoverSingle height Height.defaultFactor else 0

section Loop

variable {g : HeightGrid} {width height altitude i single : Nat} {value : Nat → Int32}
  {bytes : List UInt8}

/-- One step of the loop. A single that is not finite leaves the zero of its cell. -/
lemma exists_writeSingle
    (h : g.Shows width height altitude Height.defaultFactor
      (covered (Compressed.number? width height) value 0 i))
    (hi : i < width * height) (hcount : width * height ≤ Grid.placeCount)
    (hsingle : storedOf single = value i) :
    ∃ g', writeSingle width g (single, i) = .ok g' ∧
      g'.Shows width height altitude Height.defaultFactor
        (covered (Compressed.number? width height) value 0 (i + 1)) := by
  have hcell := Compressed.number?_eq_some_iff hi
  rw [storedOf] at hsingle
  rw [writeSingle, cellOf_of_lt hi hcount, ok_bind]
  dsimp only at hsingle ⊢
  split_ifs at hsingle ⊢ with hfinite
  · obtain ⟨hx, hy⟩ := Grid.mod_lt_and_div_lt hi
    obtain ⟨g', hg', hwrote⟩ := exists_setStored (hx.trans_eq h.width_eq.symm)
      (hy.trans_eq h.height_eq.symm) (value i)
    exact ⟨g', by rw [h.factor_eq, hsingle, hg', Write.toExcept], h.next hwrote hcell⟩
  · exact ⟨g, rfl, h.skip fun _ _ _ _ _ => hsingle.symm⟩

/-- The whole loop, over as many singles as the region has cells. -/
lemma exists_writeSingles {singles : List Nat}
    (h : g.Shows width height altitude Height.defaultFactor fun _ _ => 0)
    (hcount : width * height ≤ Grid.placeCount) (hlength : singles.length = width * height) :
    ∃ g', singles.zipIdx.foldlM (writeSingle width) g = .ok g' ∧
      g'.Shows width height altitude Height.defaultFactor fun x y =>
        storedOf (singles.getD (y * width + x) 0) := by
  obtain ⟨g', hg', hshows⟩ := exists_foldlM_zipIdx (l := singles)
    (P := fun i (g : HeightGrid) => g.Shows width height altitude Height.defaultFactor
      (covered (Compressed.number? width height) (fun i => storedOf (singles.getD i 0)) 0 i))
    (h.covered_zero _ _)
    fun i hi s hs => exists_writeSingle hs (hlength ▸ hi) hcount (by simp [hi])
  refine ⟨g', hg', hshows.congr fun x y hx hy => ?_⟩
  rw [covered, Compressed.number?, if_pos ⟨hx, hy⟩]
  simp [hlength, Grid.flat_lt hx hy]

/-- Enough bytes for a region; those behind its last cell do not matter. -/
lemma exists_ofBytes (fits : Fits width height) (h : width * height ≤ bytes.length / 4)
    (altitude : Nat) :
    ∃ r, ofBytes width height altitude bytes = .ok r ∧
      r.IsFresh width height altitude Height.defaultFactor (cell width bytes) := by
  have hlength : ((Bytes.naturals 4 bytes).take (width * height)).length = width * height := by
    rw [List.length_take, Bytes.length_naturals, Nat.min_eq_left h]
  obtain ⟨g, hg, hshows⟩ := exists_writeSingles
    (isFresh_new width height altitude Height.defaultFactor fits).toShows fits.1.le hlength
  refine ⟨g.clearFlags, ?_, (hshows.congr fun x y hx hy => ?_).clearFlags⟩
  · rw [ofBytes, if_neg (not_lt.mpr h), create_of_fits fits, ok_bind]
    dsimp only
    rw [hg]
    rfl
  · have hplace := Grid.flat_lt hx hy
    have hlt : y * width + x < (Bytes.naturals 4 bytes).length := by
      rw [Bytes.length_naturals]
      exact hplace.trans_le h
    rw [List.getD_eq_getElem _ _ (hlength.symm ▸ hplace), List.getElem_take,
      Bytes.getElem_naturals 4 bytes hlt]
    rfl

/-- For another size there is no region. -/
lemma ofBytes_of_not_fits (hfits : ¬Fits width height) (h : width * height ≤ bytes.length / 4)
    (altitude : Nat) : ofBytes width height altitude bytes = .error .uncountable := by
  rw [ofBytes, if_neg (not_lt.mpr h), create, sized_of_not_fits hfits, error_bind]

end Loop

/-! ### Singles -/

/-- The stored height that comes back for one in the region. -/
def recovered (stored : Int32) : Int32 :=
  Height.recoverSingle (Number.narrow (Height.ofStored stored Height.defaultFactor))
    Height.defaultFactor

lemma storedOf_written (stored : Int32) :
    storedOf (Bytes.natural (Bytes.ofSingle
      (Number.narrow (Height.ofStored stored Height.defaultFactor)))) = recovered stored := by
  have himage := Height.stands_hundredth (Number.stands_doubleOfInt32 stored)
  have hsmall := (Height.abs_hundredth_lt stored).trans (by norm_num : _ < (2 : ℝ) ^ (127 : ℤ))
  have hsingle := Number.denotes_narrow himage hsmall
  rw [← Height.ofStored] at hsingle
  rw [storedOf, Bytes.single_natural_ofSingle (Number.ofBits_toBits_of_denotes hsingle)]
  exact if_pos (Number.isFinite_of_denotes hsingle)

/-- The single of a height is that of the stored height that comes back for it. -/
lemma narrow_recovered (stored : Int32) :
    Number.narrow (Height.ofStored (recovered stored) Height.defaultFactor) =
      Number.narrow (Height.ofStored stored Height.defaultFactor) := by
  rcases le_or_gt |stored.toInt| 13107200 with hle | hlt
  · rw [recovered, Height.recoverSingle_narrow hle]
  · exact Height.narrow_recoverSingle hlt

variable {g r : HeightGrid} {width height altitude : Nat} {cell cell' : Nat → Nat → Int32}

/-- The bytes that the singles of a region write are read as a region with the stored heights that
come back. -/
lemma exists_ofBytes_singles
    (h : g.Shows width height altitude Height.defaultFactor cell) (altitude' : Nat) :
    ∃ r, ofBytes width height altitude' (g.singles.flatMap Bytes.ofSingle) = .ok r ∧
      r.IsFresh width height altitude' Height.defaultFactor fun x y => recovered (cell x y) := by
  have hsingles : g.singles = (List.range (width * height)).map fun i =>
      Number.narrow (Height.ofStored (cell (i % width) (i / width)) Height.defaultFactor) := by
    rw [singles, h.toList_values, h.factor_eq, List.map_map]
    rfl
  have hlength : g.singles.length = width * height := by
    rw [hsingles, List.length_map, List.length_range]
  have henough : width * height ≤ (g.singles.flatMap Bytes.ofSingle).length / 4 := by
    rw [Bytes.length_flatMap_of_length Bytes.length_ofSingle, hlength,
      Nat.mul_div_cancel_left _ (by decide)]
  have fits : Fits width height := h.width_eq ▸ h.height_eq ▸ g.fits_self
  obtain ⟨r, hr, hfresh⟩ := exists_ofBytes fits henough altitude'
  refine ⟨r, hr, { hfresh.toShows.congr fun x y hx hy => ?_ with clean := hfresh.clean }⟩
  have hlt : y * width + x < g.singles.length := hlength ▸ Grid.flat_lt hx hy
  have hwritten : Bytes.naturalAt 4 (4 * (y * width + x)) (g.singles.flatMap Bytes.ofSingle) =
      Bytes.natural (Bytes.ofSingle
        (Number.narrow (Height.ofStored (cell x y) Height.defaultFactor))) := by
    rw [Bytes.naturalAt, Bytes.take_drop_flatMap Bytes.length_ofSingle g.singles hlt]
    simp [hsingles, Grid.flat_mod hx, Grid.flat_div hx]
  change storedOf _ = _
  rw [hwritten, storedOf_written]

/-- Regions with the same singles have the same document. -/
lemma singles_congr (h : g.Shows width height altitude Height.defaultFactor cell) {altitude' : Nat}
    (h' : r.Shows width height altitude' Height.defaultFactor fun x y => recovered (cell x y)) :
    r.singles = g.singles := by
  rw [singles, singles, h.toList_values, h'.toList_values, h.factor_eq, h'.factor_eq, List.map_map,
    List.map_map]
  exact List.map_congr_left fun i _ => narrow_recovered _

end LegacyDocument

namespace Document

variable {g : HeightGrid}

lemma encode_of_hasLegacySize (h : g.HasLegacySize) :
    encode g = declaration ++ LegacyDocument.encode g := by
  have hlayout : DocumentLayout.ofGrid g = .legacy := if_pos h
  rw [encode, hlayout]

lemma result_decode_of_legacy {text : List Char} (h : DocumentLayout.detect text = .ok .legacy)
    (width height altitude : Nat) :
    (decode width height altitude text).result =
      LegacyDocument.decode width height altitude text := by
  rw [decode, h]
  rfl

/-- A region of the legacy size with the default factor is read from its document, whatever its
heights are, and its document is written again. Heights up to `2 ^ 17` come back as they were. -/
theorem decode_encode_legacy (g : HeightGrid) (hwidth : g.width = 256) (hheight : g.height = 256)
    (hfactor : g.factor = Height.defaultFactor) (altitude : Nat) :
    ∃ r, (decode 256 256 altitude (encode g)).result = .ok r ∧ encode r = encode g ∧
      (∀ p, ¬r.Dirty p) ∧
      ((∀ x y, x < 256 → y < 256 → |(g.storedAt x y).toInt| ≤ 13107200) →
        r.IsFresh 256 256 altitude Height.defaultFactor g.storedAt ∧
          (altitude = g.altitude → (r == g) = true)) := by
  have hlegacy : g.HasLegacySize := ⟨hwidth, hheight⟩
  have hself := g.shows_self
  rw [hwidth, hheight, hfactor] at hself
  obtain ⟨r, hr, hfresh⟩ := LegacyDocument.exists_ofBytes_singles hself altitude
  have hresult : (decode 256 256 altitude (encode g)).result = .ok r := by
    rw [encode_of_hasLegacySize hlegacy, LegacyDocument.encode, result_decode_of_legacy
      (DocumentLayout.detect_element .legacy (LegacyDocument.writes_data _)),
      LegacyDocument.decode_element, hr]
  have hencode : encode r = encode g := by
    rw [encode_of_hasLegacySize ⟨hfresh.width_eq, hfresh.height_eq⟩,
      encode_of_hasLegacySize hlegacy, LegacyDocument.encode, LegacyDocument.encode,
      LegacyDocument.singles_congr hself hfresh.toShows]
  refine ⟨r, hresult, hencode, hfresh.clean, fun hsmall => ?_⟩
  have hshows := hfresh.toShows.congr fun x y hx hy =>
    Height.recoverSingle_narrow (hsmall x y hx hy)
  refine ⟨{ hshows with clean := hfresh.clean }, fun haltitude => beq_iff.mpr ?_⟩
  refine ⟨hshows.altitude_eq.trans haltitude, ?_, ?_⟩
  · rw [hshows.factor_eq, hfactor]
    exact (Number.ofSingle_beq_iff Height.denotes_defaultFactor
      Height.denotes_defaultFactor).mpr rfl
  · exact (hshows.cells_eq_iff hself).mpr fun x y _ _ => rfl

/-- A new region of the legacy size comes back as it is. -/
theorem decode_encode_legacy_new : ∃ r,
    (decode 256 256 4096 (encode (.new 256 256 4096 Height.defaultFactor))).result = .ok r ∧
      (r == .new 256 256 4096 Height.defaultFactor) = true := by
  obtain ⟨r, hr, -, -, hsame⟩ :=
    decode_encode_legacy (.new 256 256 4096 Height.defaultFactor) rfl rfl rfl 4096
  have hzero : ∀ x y, x < 256 → y < 256 →
      |((HeightGrid.new 256 256 4096 Height.defaultFactor).storedAt x y).toInt| ≤ 13107200 := by
    intro x y hx hy
    have hcell : (HeightGrid.new 256 256 4096 Height.defaultFactor).stored? x y = some 0 :=
      Grid.at?_replicate 0 hx hy
    rw [storedAt, hcell]
    decide
  exact ⟨r, hr, (hsame hzero).2 rfl⟩

end Document

end Terrain
