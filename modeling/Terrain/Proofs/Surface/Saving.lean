import Terrain.Proofs.Blob.RoundTrip
import Terrain.Proofs.Height.Factor
import Terrain.Proofs.Surface.Edit
import Terrain.Surface.Loading

/-!
# Loading what was saved

A surface that a configuration describes, with heights written to it, is saved as a blob and read
from it. A blob holds the factor without its fraction, or not at all in the legacy layout, so whether
the heights are the same afterwards depends on the factor.
-/

namespace Terrain

open HeightGrid

namespace Legacy

variable {g : HeightGrid}

/-- What is written for a cell is read with the default factor, whatever the factor of the grid. -/
lemma value_written_of_pos (hpos : 0 < g.factor) (hfin : g.factor.isFinite = true) {x y : Nat}
    (hx : x < g.width) (hy : y < g.height) :
    value (Bytes.natural (Bytes.ofDouble (written g x y))) =
      Height.recover (Height.ofStored (g.storedAt x y) g.factor) Height.defaultFactor := by
  rw [written_of_pos hpos hfin, storedIn_of_lt hx hy]
  split_ifs with hzero
  · rw [value_zeroMark, hzero, Height.recover_ofStored_zero hpos hfin]
  · obtain ⟨h, hstands⟩ := Height.exists_stands_ofStored (g.storedAt x y) hpos hfin
    rw [value, Bytes.double_natural_ofDouble hstands.ofBits_toBits, if_pos hstands.isFinite]

end Legacy

namespace Surface

variable {s t : Surface} {width height altitude altitude' : Nat} {factor factor' : Float32}
  {cell cell' : Nat → Nat → Int32}

/-- Every point has the same height on both surfaces. -/
def SameHeights (s t : Surface) : Prop :=
  ∀ x y, ∃ h h', s.get x y = .ok h ∧ t.get x y = .ok h' ∧ (h == h') = true

/-- Every stored height of the region fits into 16 bits. -/
def FitsWords (s : Surface) : Prop :=
  ∀ x y, x < s.grid.width → y < s.grid.height →
    -32768 ≤ s.grid.storedAt x y ∧ s.grid.storedAt x y ≤ 32767

/-- Writes one height after another. -/
def setAll (s : Surface) (writes : List (Point × Float)) : Except Error Surface :=
  writes.foldlM (fun s w => s.set w.1.x w.1.y w.2) s

/-- Reads a surface of the same size and altitude from the blob that a surface writes. -/
def reload (s : Surface) : Logged Surface :=
  ofBlob s.grid.width s.grid.height s.grid.altitude s.toBlob.tag.code s.toBlob.bytes

/-! ### Points and cells -/

/-- A cell of a region that coordinates can reach is that of a point. -/
lemma cell?_ofNat (hw : s.grid.width < 2 ^ 31) (hh : s.grid.height < 2 ^ 31) {x y : Nat}
    (hx : x < s.grid.width) (hy : y < s.grid.height) :
    s.cell? (Int32.ofNat x) (Int32.ofNat y) = some (x, y) := by
  have hx31 := Int32.toInt_ofNat_of_lt (hx.trans hw)
  have hy31 := Int32.toInt_ofNat_of_lt (hy.trans hh)
  have hin : (0 ≤ Int32.ofNat x ∧ 0 ≤ Int32.ofNat y) ∧
      (Int32.ofNat x < s.width ∧ Int32.ofNat y < s.height) := by
    simp only [Int32.le_iff_toInt_le, Int32.lt_iff_toInt_lt, Surface.width, Surface.height, hx31,
      hy31, Int32.toInt_ofNat_of_lt hw, Int32.toInt_ofNat_of_lt hh]
    have hzero : (0 : Int32).toInt = 0 := rfl
    omega
  rw [cell?, if_pos hin, hx31, hy31, Int.toNat_natCast, Int.toNat_natCast]

/-- Surfaces of one size have the same heights if all their cells have. -/
lemma sameHeights_iff (hw : width < 2 ^ 31) (hh : height < 2 ^ 31)
    (hs : s.grid.Shows width height altitude factor cell)
    (ht : t.grid.Shows width height altitude' factor' cell') :
    SameHeights s t ↔ ∀ x y, x < width → y < height →
      (Height.ofStored (cell x y) factor == Height.ofStored (cell' x y) factor') = true := by
  have hcell : ∀ x y, t.cell? x y = s.cell? x y := by
    intro x y
    simp only [cell?, Surface.width, Surface.height, hs.width_eq, hs.height_eq, ht.width_eq,
      ht.height_eq]
  have hstored : ∀ {x y}, x < width → y < height →
      s.grid.storedAt x y = cell x y ∧ t.grid.storedAt x y = cell' x y := by
    intro x y hx hy
    rw [storedAt, storedAt, hs.stored_eq hx hy, ht.stored_eq hx hy]
    exact ⟨rfl, rfl⟩
  constructor
  · intro h x y hx hy
    have hpoint := cell?_ofNat (s := s) (hs.width_eq ▸ hw) (hs.height_eq ▸ hh)
      (hs.width_eq ▸ hx) (hs.height_eq ▸ hy)
    obtain ⟨a, b, ha, hb, hab⟩ := h (Int32.ofNat x) (Int32.ofNat y)
    rw [get_of_cell? hpoint, Except.ok.injEq] at ha
    rw [get_of_cell? ((hcell _ _).trans hpoint), Except.ok.injEq] at hb
    rwa [← ha, ← hb, (hstored hx hy).1, (hstored hx hy).2, hs.factor_eq, ht.factor_eq] at hab
  · intro h x y
    cases hpoint : s.cell? x y with
    | none =>
      refine ⟨0, 0, get_of_cell?_eq_none hpoint,
        get_of_cell?_eq_none ((hcell x y).trans hpoint), ?_⟩
      decide +kernel
    | some c =>
      obtain ⟨hx, hy⟩ := lt_of_cell? hpoint
      rw [hs.width_eq] at hx
      rw [hs.height_eq] at hy
      refine ⟨_, _, get_of_cell? hpoint, get_of_cell? ((hcell x y).trans hpoint), ?_⟩
      rw [(hstored hx hy).1, (hstored hx hy).2, hs.factor_eq, ht.factor_eq]
      exact h c.1 c.2 hx hy

/-- Writing heights keeps the region. -/
lemma exists_setAll (s : Surface) (writes : List (Point × Float)) :
    ∃ s', s.setAll writes = .ok s' ∧ s.SameFrame s' := by
  refine exists_foldlM (P := s.SameFrame) (sameFrame_self s) fun w _ s₁ h₁ => ?_
  obtain ⟨s₂, hs₂, hedited⟩ := exists_set s₁ w.1.x w.1.y w.2
  exact ⟨s₂, hs₂, h₁.trans (sameFrame_of_edited hedited)⟩

/-! ### Both layouts -/

lemma result_reload (s : Surface) : s.reload.result =
    (Blob.decode s.grid.width s.grid.height s.grid.altitude s.toBlob.tag.code
      s.toBlob.bytes).result.map Surface.mk := by
  rw [reload, ofBlob, Logged.result_bind]
  cases (Blob.decode s.grid.width s.grid.height s.grid.altitude s.toBlob.tag.code
    s.toBlob.bytes).result <;> rfl

/-- Of the compressed layout the low halves of the stored heights come back, with the factor cut to
an integer. -/
lemma reload_compressed (hsize : ¬s.grid.HasLegacySize) (hw : s.grid.width < 2 ^ 31)
    (hh : s.grid.height < 2 ^ 31) (hpos : 0 < s.grid.factor) (hfin : s.grid.factor.isFinite = true) :
    (Number.truncateSingle s.grid.factor = 0 → s.reload.result = .error (.invalidFactor 0)) ∧
    (Number.truncateSingle s.grid.factor ≠ 0 → ∃ t, s.reload.result = .ok t ∧
      t.grid.IsFresh s.grid.width s.grid.height s.grid.altitude
        (Number.singleOfInt32 (Number.truncateSingle s.grid.factor))
        fun x y => (s.grid.storedAt x y).toInt16.toInt32) := by
  have hblob : s.toBlob = ⟨.compressed2D, Compressed.encode s.grid⟩ := if_neg hsize
  have hresult : s.reload.result = (Compressed.decode s.grid.width s.grid.height s.grid.altitude
      (Compressed.encode s.grid)).result.map Surface.mk := by
    rw [result_reload, hblob, Blob.result_decode]
    exact congrArg (Except.map Surface.mk) (if_pos rfl)
  have hfault := Compressed.fault?_encode hw hh hpos hfin
  refine ⟨fun hzero => ?_, fun hne => ?_⟩
  · rw [if_pos hzero] at hfault
    rw [hresult, Compressed.result_decode, hfault]
    rfl
  · rw [if_neg hne] at hfault
    obtain ⟨r, hr, hfresh⟩ := Compressed.exists_decode_encode hw hh hfault s.grid.altitude
    exact ⟨⟨r⟩, by rw [hresult, hr]; rfl, hfresh⟩

/-- Of the legacy layout the stored heights that the default factor has for the heights come
back. -/
lemma reload_legacy (hsize : s.grid.HasLegacySize) (hpos : 0 < s.grid.factor)
    (hfin : s.grid.factor.isFinite = true) : ∃ t, s.reload.result = .ok t ∧
      t.grid.IsFresh s.grid.width s.grid.height s.grid.altitude Height.defaultFactor fun x y =>
        Height.recover (Height.ofStored (s.grid.storedAt x y) s.grid.factor)
          Height.defaultFactor := by
  have hblob : s.toBlob = ⟨.legacy256, Legacy.encode s.grid⟩ := if_pos hsize
  have hresult : s.reload.result = (Legacy.decode s.grid.width s.grid.height s.grid.altitude
      (Legacy.encode s.grid)).result.map Surface.mk := by
    have hcode : BlobTag.legacy256.code ≠ 27 := by decide
    rw [result_reload, hblob, Blob.result_decode]
    exact congrArg (Except.map Surface.mk) (if_neg hcode)
  have hfault : Legacy.fault? (Legacy.encode s.grid) = none := by
    rw [Legacy.fault?, Legacy.length_encode, if_neg (by omega)]
  obtain ⟨r, hr, hfresh⟩ := Legacy.exists_decode hfault s.grid.fits_self s.grid.altitude
  have hshows := hfresh.toShows.congr fun x y hx hy => by
    have hx' : x < legacySize := hsize.1 ▸ hx
    have hy' : y < legacySize := hsize.2 ▸ hy
    rw [Legacy.cell, if_pos ⟨hx', hy'⟩, Legacy.naturalAt_encode s.grid hx' hy',
      Legacy.value_written_of_pos hpos hfin hx hy]
  exact ⟨⟨r⟩, by rw [hresult, hr]; rfl, { hshows with clean := hfresh.clean }⟩

/-! ### Configured surfaces -/

/-- What a usable configuration says about the factor. -/
lemma factor_of_fault? {c : Config} (h : c.fault? = none) :
    0 < c.factor ∧ c.factor.isFinite = true := by
  rw [Config.fault?] at h
  split_ifs at h with _ _ hfactor
  simpa [and_comm] using hfactor

/-- A usable configuration has at least one patch in each direction, so cells that can be counted
have coordinates. -/
lemma sizes_lt_of_fault? {c : Config} (h : c.fault? = none)
    (hcount : c.width * c.height < 2 ^ 32) : c.width < 2 ^ 31 ∧ c.height < 2 ^ 31 := by
  rw [Config.fault?] at h
  split_ifs at h with hempty heven
  rw [patchSize] at heven
  have hwidth : 16 ≤ c.width := by omega
  have hheight : 16 ≤ c.height := by omega
  constructor <;> nlinarith

/-- The surface that a configuration of a size that a region can have lays out. -/
def configured (c : Config) (fits : Fits c.width c.height := by decide) : Surface :=
  ⟨(new c.width c.height c.altitude c.factor fits).fill c.ground⟩

lemma ofConfig_of_fits {c : Config} (fits : Fits c.width c.height) :
    ofConfig c = .ok (configured c fits) := by
  rw [ofConfig, create_of_fits fits]
  rfl

/-- Writing heights to a configured surface keeps what the configuration says. -/
lemma exists_setAll_configured (c : Config) (fits : Fits c.width c.height)
    (writes : List (Point × Float)) :
    ∃ s, (configured c fits).setAll writes = .ok s ∧
      s.grid.Shows c.width c.height c.altitude c.factor s.grid.storedAt := by
  obtain ⟨s, hs, hframe⟩ := exists_setAll (configured c fits) writes
  have hfill : (configured c fits).grid.width = c.width ∧ (configured c fits).grid.height = c.height ∧
      (configured c fits).grid.altitude = c.altitude ∧ (configured c fits).grid.factor = c.factor := by
    rw [configured, fill]
    split_ifs <;> exact ⟨rfl, rfl, rfl, rfl⟩
  have hself := s.grid.shows_self
  rw [hframe.width_eq, hframe.height_eq, hframe.altitude_eq, hframe.factor_eq, hfill.1, hfill.2.1,
    hfill.2.2.1, hfill.2.2.2] at hself
  exact ⟨s, hs, hself⟩

/-- Every cell of a configured surface is at the configured height. -/
lemma shows_configured {c : Config} (h : c.fault? = none) (fits : Fits c.width c.height) :
    (configured c fits).grid.Shows c.width c.height c.altitude c.factor
      fun _ _ => Height.quantize c.ground c.factor := by
  have hfinite : c.ground.isFinite = true := by
    rw [Config.fault?] at h
    split_ifs at h with _ _ _ hground
    simpa using hground
  rw [configured, fill, if_pos hfinite]
  exact ⟨rfl, rfl, rfl, rfl, fun hx hy => Grid.at?_replicate _ hx hy⟩

lemma storedAt_configured {c : Config} (h : c.fault? = none) (fits : Fits c.width c.height)
    {x y : Nat} (hx : x < c.width) (hy : y < c.height) :
    (configured c fits).grid.storedAt x y = Height.quantize c.ground c.factor := by
  rw [storedAt, (shows_configured h fits).stored_eq hx hy, Option.getD_some]

lemma fitsWords_configured {c : Config} (h : c.fault? = none) (fits : Fits c.width c.height)
    (hground : -32768 ≤ Height.quantize c.ground c.factor ∧
      Height.quantize c.ground c.factor ≤ 32767) : (configured c fits).FitsWords := by
  intro x y hx hy
  rw [(shows_configured h fits).width_eq] at hx
  rw [(shows_configured h fits).height_eq] at hy
  rwa [storedAt_configured h fits hx hy]

/-- Off the size of the legacy layout, heights that were stored in 16 bits are the same after loading
if the factor is an integer that a single can hold, or if they are all zero. -/
lemma sameHeights_compressed {k : Int32} (hw : width < 2 ^ 31) (hh : height < 2 ^ 31)
    (hpos : 0 < factor) (hfin : factor.isFinite = true) (hk : 0 < k.toInt)
    (hs : s.grid.Shows width height altitude factor cell)
    (ht : t.grid.Shows width height altitude (Number.singleOfInt32 k)
      fun x y => (cell x y).toInt16.toInt32)
    (hsmall : ∀ x y, x < width → y < height → -32768 ≤ cell x y ∧ cell x y ≤ 32767) :
    SameHeights s t ↔ (factor == Number.singleOfInt32 k) = true ∨
      ∀ x y, x < width → y < height → cell x y = 0 := by
  obtain ⟨p, hp, hplo, hphi⟩ := Number.exists_denotes_of_pos hpos hfin
  obtain ⟨q, hq, hqlo, hqhi⟩ := Height.exists_denotes_singleOfInt32 hk
  have hcell : ∀ x y, x < width → y < height →
      ((Height.ofStored (cell x y) factor ==
        Height.ofStored (cell x y).toInt16.toInt32 (Number.singleOfInt32 k)) = true ↔
      (factor == Number.singleOfInt32 k) = true ∨ cell x y = 0) := by
    intro x y hx hy
    rw [(Compressed.toInt16_toInt32_eq_iff _).mpr (hsmall x y hx hy),
      Height.ofStored_beq_iff hp hq hplo hqlo hphi hqhi]
  rw [sameHeights_iff hw hh hs ht]
  constructor
  · intro h
    refine or_iff_not_imp_left.mpr fun hne x y hx hy => ?_
    exact ((hcell x y hx hy).mp (h x y hx hy)).resolve_left hne
  · rintro (h | h) x y hx hy
    · exact (hcell x y hx hy).mpr (.inl h)
    · exact (hcell x y hx hy).mpr (.inr (h x y hx hy))

/-- A usable configuration of fewer than `2 ^ 32` cells lays out a surface, which can be saved after any
writes that keep its stored heights in 16 bits. Loading the blob fails only where the layout keeps an
integer factor and nothing is left of this one. Otherwise every height is the same as before exactly
when that integer is the factor or all heights are zero; in the legacy layout, when every height is that
of some stored integer with the default factor. -/
theorem reload_ofConfig (c : Config) (hc : c.fault? = none)
    (hcount : c.width * c.height < 2 ^ 32) (writes : List (Point × Float)) :
    ∃ s₀ s, ofConfig c = .ok s₀ ∧ s₀.setAll writes = .ok s ∧
      (s.FitsWords →
        (¬(c.width = 256 ∧ c.height = 256) → Number.truncateSingle c.factor = 0 →
          s.reload.result = .error (.invalidFactor 0)) ∧
        (¬(c.width = 256 ∧ c.height = 256) → Number.truncateSingle c.factor ≠ 0 →
          ∃ t, s.reload.result = .ok t ∧
            (SameHeights s t ↔
              (c.factor == Number.singleOfInt32 (Number.truncateSingle c.factor)) = true ∨
              ∀ x y, x < c.width → y < c.height → s.grid.storedAt x y = 0)) ∧
        (c.width = 256 ∧ c.height = 256 →
          ∃ t, s.reload.result = .ok t ∧
            (SameHeights s t ↔ ∀ x y, x < c.width → y < c.height → ∃ n : Int32,
              (Height.ofStored (s.grid.storedAt x y) c.factor ==
                Height.ofStored n Height.defaultFactor) = true))) := by
  obtain ⟨hpos, hfin⟩ := factor_of_fault? hc
  obtain ⟨hw, hh⟩ := sizes_lt_of_fault? hc hcount
  have fits : Fits c.width c.height := fits_of_lt hw hh hcount
  obtain ⟨s, hs, hshows⟩ := exists_setAll_configured c fits writes
  have hsize : s.grid.HasLegacySize ↔ c.width = 256 ∧ c.height = 256 := by
    rw [HasLegacySize, hshows.width_eq, hshows.height_eq]
    rfl
  have hcompressed := fun hsize => reload_compressed (s := s) hsize
    (hshows.width_eq ▸ hw) (hshows.height_eq ▸ hh) (hshows.factor_eq ▸ hpos)
    (hshows.factor_eq ▸ hfin)
  have hlegacy := fun hsize => reload_legacy (s := s) hsize
    (hshows.factor_eq ▸ hpos) (hshows.factor_eq ▸ hfin)
  simp only [hsize, hshows.width_eq, hshows.height_eq, hshows.altitude_eq, hshows.factor_eq]
    at hcompressed hlegacy
  refine ⟨configured c fits, s, ofConfig_of_fits fits, hs, fun hwords => ?_⟩
  rw [FitsWords, hshows.width_eq, hshows.height_eq] at hwords
  refine ⟨fun hne => (hcompressed hne).1, fun hne hk => ?_, fun heq => ?_⟩
  · obtain ⟨t, ht, hfresh⟩ := (hcompressed hne).2 hk
    refine ⟨t, ht, sameHeights_compressed hw hh hpos hfin ?_ hshows hfresh.toShows hwords⟩
    have hnonneg := Number.zero_le_truncateSingle hpos hfin
    rw [Int32.le_iff_toInt_le] at hnonneg
    have hzero : (0 : Int32).toInt = 0 := rfl
    have hne0 : (Number.truncateSingle c.factor).toInt ≠ 0 := fun h =>
      hk (Int32.toInt_inj.mp (h.trans hzero.symm))
    omega
  · obtain ⟨t, ht, hfresh⟩ := hlegacy heq
    refine ⟨t, ht, (sameHeights_iff hw hh hshows hfresh.toShows).trans ?_⟩
    simp only [Height.recover_beq_iff hpos hfin]

/-- A surface with an integer factor is the same after loading. -/
theorem reload_ofConfig_integer : ∃ s t, ofConfig ⟨16, 16, 4096, 10, 21⟩ = .ok s ∧
    s.reload.result = .ok t ∧ SameHeights s t := by
  have husable : (⟨16, 16, 4096, 10, 21⟩ : Config).fault? = none := by decide +kernel
  obtain ⟨s₀, s, hs₀, hs, hreload⟩ := reload_ofConfig ⟨16, 16, 4096, 10, 21⟩ husable (by decide) []
  obtain rfl : s₀ = s := Except.ok.inj hs
  obtain rfl := Except.ok.inj ((ofConfig_of_fits (by decide)).symm.trans hs₀)
  have hwords := fitsWords_configured husable (by decide) (by decide +kernel)
  obtain ⟨t, ht, hsame⟩ := (hreload hwords).2.1 (by decide) (by decide +kernel)
  exact ⟨_, t, hs₀, ht, hsame.mpr (.inl (by decide +kernel))⟩

/-- Not every configured surface comes back: nothing can be read where the factor is below one, the
heights are others where the factor has a fraction, and so they are in the legacy layout with a factor
that is not the default one. Nor is there a surface for every usable configuration: 65536 by 65536 cells
are one more than can be counted. -/
theorem not_reload_ofConfig :
    ((⟨16, 16, 4096, 0.5, 21⟩ : Config).fault? = none ∧
      ∃ s, ofConfig ⟨16, 16, 4096, 0.5, 21⟩ = .ok s ∧ s.FitsWords ∧
        s.reload.result = .error (.invalidFactor 0)) ∧
    ((⟨16, 16, 4096, 10.5, 21⟩ : Config).fault? = none ∧
      ∃ s, ofConfig ⟨16, 16, 4096, 10.5, 21⟩ = .ok s ∧ s.FitsWords ∧
        ∃ t, s.reload.result = .ok t ∧ ¬SameHeights s t) ∧
    ((⟨256, 256, 4096, 1000, 0.125⟩ : Config).fault? = none ∧
      ∃ s, ofConfig ⟨256, 256, 4096, 1000, 0.125⟩ = .ok s ∧ s.FitsWords ∧
        ∃ t, s.reload.result = .ok t ∧ ¬SameHeights s t) ∧
    ((⟨65536, 65536, 4096, 100, 21⟩ : Config).fault? = none ∧
      ¬∃ s, ofConfig ⟨65536, 65536, 4096, 100, 21⟩ = .ok s) := by
  have husable : (⟨16, 16, 4096, 0.5, 21⟩ : Config).fault? = none ∧
      (⟨16, 16, 4096, 10.5, 21⟩ : Config).fault? = none ∧
      (⟨256, 256, 4096, 1000, 0.125⟩ : Config).fault? = none ∧
      (⟨65536, 65536, 4096, 100, 21⟩ : Config).fault? = none := by decide +kernel
  obtain ⟨hhalf, hfraction, hlegacy, hlarge⟩ := husable
  refine ⟨⟨hhalf, _, ofConfig_of_fits (by decide),
      fitsWords_configured hhalf _ (by decide +kernel), ?_⟩,
    ⟨hfraction, _, ofConfig_of_fits (by decide),
      fitsWords_configured hfraction _ (by decide +kernel), ?_⟩,
    ⟨hlegacy, _, ofConfig_of_fits (by decide),
      fitsWords_configured hlegacy _ (by decide +kernel), ?_⟩, hlarge, ?_⟩
  · exact (reload_compressed (by decide) (by decide) (by decide) (by decide +kernel)
      (by decide +kernel)).1 (by decide +kernel)
  · obtain ⟨t, ht, hfresh⟩ := (reload_compressed (s := configured ⟨16, 16, 4096, 10.5, 21⟩) (by decide)
      (by decide) (by decide) (by decide +kernel) (by decide +kernel)).2 (by decide +kernel)
    refine ⟨t, ht, fun hsame => ?_⟩
    have hcell := (sameHeights_iff (by decide) (by decide) (shows_self _) hfresh.toShows).mp hsame
      0 0 (by decide) (by decide)
    rw [storedAt_configured hfraction _ (by decide) (by decide)] at hcell
    exact absurd hcell (by decide +kernel)
  · obtain ⟨t, ht, hfresh⟩ := reload_legacy (s := configured ⟨256, 256, 4096, 1000, 0.125⟩) (by decide)
      (by decide +kernel) (by decide +kernel)
    refine ⟨t, ht, fun hsame => ?_⟩
    have hcell := (sameHeights_iff (by decide) (by decide) (shows_self _) hfresh.toShows).mp hsame
      0 0 (by decide) (by decide)
    rw [storedAt_configured hlegacy _ (by decide) (by decide)] at hcell
    exact absurd hcell (by decide +kernel)
  · rintro ⟨s, hs⟩
    rw [ofConfig, create, sized_of_not_fits (by decide), error_bind] at hs
    cases hs

end Surface

end Terrain
