import Terrain.Proofs.Document.Legacy

/-!
# The data of a legacy document

The singles of a legacy document stand in its data row after row, and blanks in the data do not count,
wherever they stand. A document with fewer singles than the region has cells is refused. Of any other
the first singles are taken (`Document.decode_data`), whatever their bits are.
-/

namespace Terrain

open HeightGrid Markup

namespace LegacyDocument

variable {bytes : List UInt8} {data : List Char}

/-- The legacy document with the given data, without a declaration. -/
def ofData (data : List Char) : List Char :=
  Document.element DocumentLayout.legacy.root (Document.element field.toList data)

/-- Data with blanks in it has no character that markup gives a meaning to. -/
lemma not_mem_of_filter (h : data.filter (fun c => !isDataBlank c) = Base64.encode bytes) {c : Char}
    (hc : c = '<' ∨ c = '&') : c ∉ data := by
  intro hmem
  have hkept : isDataBlank c = false := by
    rcases hc with rfl | rfl <;> decide
  have hwritten : c ∈ Base64.encode bytes := by
    rw [← h]
    exact List.mem_filter.mpr ⟨hmem, by rw [hkept]; rfl⟩
  obtain ⟨hopen, hamp, -⟩ := isPlain_encode bytes c hwritten
  exact hc.elim hopen hamp

/-- A document whose data writes bytes, with blanks anywhere, is read as these bytes. -/
lemma decode_of_filter (h : data.filter (fun c => !isDataBlank c) = Base64.encode bytes)
    (width height altitude : Nat) :
    decode width height altitude (ofData data) = ofBytes width height altitude bytes := by
  have hname := DocumentLayout.isName_root .legacy
  have hroot := root?_element_leaf hname isName_field (not_mem_of_filter h (.inl rfl))
    (not_mem_of_filter h (.inr rfl))
  have htrimmed : dataBytes (trim data) = .ok bytes := by
    refine dataBytes_of_filter ?_
    rw [filter_trim (fun c hc => by rw [isDataBlank_of_isBlank hc]; rfl), h]
  rw [decode, ofData, Document.readRoot, Document.body_element hname, hroot]
  dsimp only
  rw [readData_leaf]
  change dataBytes (trim data) >>= ofBytes width height altitude = _
  rw [htrimmed]
  rfl

end LegacyDocument

namespace Document

open LegacyDocument

lemma result_decode_of_filter {bytes : List UInt8} {data : List Char}
    (h : data.filter (fun c => !isDataBlank c) = Base64.encode bytes) (width height altitude : Nat) :
    (decode width height altitude (ofData data)).result = ofBytes width height altitude bytes := by
  have hscan := Scans.leaf isName_field (not_mem_of_filter h (.inl rfl))
  have hdetect : DocumentLayout.detect (ofData data) = .ok .legacy :=
    DocumentLayout.detect_of_scans .legacy hscan
  rw [result_decode_of_legacy hdetect, decode_of_filter h]

/-- What a legacy document means. Its data writes bytes in base 64, with blanks anywhere. With fewer than
four bytes for each cell of the region the document is refused as too short; otherwise the region comes
back with the altitude that was asked for, with the default factor, without flags and with the stored
height of the single in the four bytes of each cell, row after row, if a region can have the size. With
less than `2 ^ 32` cells, and sizes below the limit by more than a patch, it can; for another size there
is nothing to read into. -/
theorem decode_data (width height altitude : Nat) (bytes : List UInt8) (data : List Char)
    (hdata : data.filter (fun c => !isDataBlank c) = Base64.encode bytes) :
    (bytes.length / 4 < width * height →
      (decode width height altitude (ofData data)).result =
        .error (.truncated .legacyDocument (width * height) (bytes.length / 4))) ∧
    (width * height ≤ bytes.length / 4 →
      width * height < 2 ^ 32 → width + 16 < 2 ^ 32 → height + 16 < 2 ^ 32 →
      ∃ r, (decode width height altitude (ofData data)).result = .ok r ∧
        r.IsFresh width height altitude Height.defaultFactor (cell width bytes)) ∧
    (width * height ≤ bytes.length / 4 → ¬Fits width height →
      (decode width height altitude (ofData data)).result = .error .uncountable) := by
  rw [result_decode_of_filter hdata]
  refine ⟨fun h => ofBytes_of_lt h altitude, fun h hcells hwidth hheight => ?_,
    fun h hfits => ofBytes_of_not_fits hfits h altitude⟩
  exact exists_ofBytes (fits_iff.mpr ⟨hcells, hwidth, hheight⟩) h altitude

/-- An infinity and a one, with blanks inside of a group and in the padding. -/
theorem decode_data_two :
    ∃ r, (decode 2 1 7 (ofData "\n AACA f\tw AAgD8 =\x0c ".toList)).result = .ok r ∧
      r.stored? 0 0 = some 0 ∧ r.stored? 1 0 = some 100 := by
  obtain ⟨r, hr, hfresh⟩ := (decode_data 2 1 7 [0, 0, 128, 127, 0, 0, 128, 63]
    "\n AACA f\tw AAgD8 =\x0c ".toList (by decide +kernel)).2.1 (by decide) (by decide) (by decide)
    (by decide)
  have hinfinite : cell 2 [0, 0, 128, 127, 0, 0, 128, 63] 0 0 = 0 := by decide +kernel
  have hone : cell 2 [0, 0, 128, 127, 0, 0, 128, 63] 1 0 = 100 := by decide +kernel
  exact ⟨r, hr, hinfinite ▸ hfresh.stored_eq (by decide) (by decide),
    hone ▸ hfresh.stored_eq (by decide) (by decide)⟩

/-- A document without singles has enough of them for a region of no rows and 4294967280 columns, but
the patches of its columns cannot be counted. -/
theorem not_decode_data_wide : 4294967280 * 0 ≤ ([] : List UInt8).length / 4 ∧
    ¬∃ r, (decode 4294967280 0 0 (ofData [])).result = .ok r := by
  refine ⟨by decide, ?_⟩
  rintro ⟨r, hr⟩
  have hdata : ([] : List Char).filter (fun c => !isDataBlank c) = Base64.encode [] := rfl
  rw [result_decode_of_filter hdata, ofBytes_of_not_fits (by decide) (by decide)] at hr
  cases hr

end Document

end Terrain
