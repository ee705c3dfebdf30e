import Terrain.Proofs.Blob.RoundTrip

/-!
# What the legacy layout holds

The layout holds a double for each of its cells, and every one of them is data: it is finite and not
a zero of either sign. A quotient of a stored integer by a factor is neither too small nor too large
for a double, so only a stored zero and the cells outside of the grid need the mark of a zero.
-/

namespace Terrain.Legacy

open HeightGrid Number

variable {g : HeightGrid}

/-- What is written for a cell is finite, not zero, and has the bits it is read from. -/
lemma written_isData (hpos : 0 < g.factor) (hfin : g.factor.isFinite = true) (x y : Nat) :
    (written g x y).isFinite = true ∧ (written g x y == 0) = false ∧
      Float.ofBits (written g x y).toBits = written g x y := by
  rw [written_of_pos hpos hfin]
  split_ifs with hzero
  · exact ⟨by decide +kernel, by decide +kernel, by rw [toBits_zeroMark]; rfl⟩
  · obtain ⟨h, hstands⟩ := Height.exists_stands_ofStored (storedIn g x y) hpos hfin
    refine ⟨hstands.isFinite, ?_, hstands.ofBits_toBits⟩
    rw [← Bool.not_eq_true, Height.ofStored_beq_zero _ hpos hfin]
    exact hzero

/-- The bits that the layout holds for a cell. -/
lemma naturalAt_encode_eq_toBits (g : HeightGrid) {x y : Nat} (hx : x < 256) (hy : y < 256) :
    Bytes.naturalAt 8 (8 * (256 * x + y)) (encode g) = (written g x y).toBits.toNat :=
  (naturalAt_encode g hx hy).trans (Bytes.natural_ofDouble _)

/-- The legacy layout of a grid of any size with a positive finite factor has 524288 bytes, in which
every cell has a double that is finite and not a zero of either sign. Outside of the grid, and where
a zero is stored, it is the smallest positive one; elsewhere it is, bit for bit, the height of the
cell, which is the double nearest to the quotient of the stored integer by the factor. -/
theorem encode_holds_data (g : HeightGrid) (hpos : 0 < g.factor) (hfin : g.factor.isFinite = true) :
    (encode g).length = 524288 ∧ ∀ x y, x < 256 → y < 256 →
      let bits := Bytes.naturalAt 8 (8 * (256 * x + y)) (encode g)
      (Bytes.double bits).isFinite = true ∧ bits ≠ 0 ∧ bits ≠ 2 ^ 63 ∧
      (¬(x < g.width ∧ y < g.height) → bits = 1) ∧
      (x < g.width → y < g.height → ∃ stored height,
        g.stored? x y = some stored ∧ g.height? x y = some height ∧
          bits = (if stored = 0 then 1 else height.toBits.toNat) ∧
          ∃ factor : ℝ, (ofSingle g.factor).Denotes factor ∧
            Stands height (double.round (stored.toInt / factor))) := by
  refine ⟨length_encode g, fun x y hx hy => ?_⟩
  obtain ⟨hfinite, hne, hbits⟩ := written_isData hpos hfin x y
  have hdouble : Bytes.double (written g x y).toBits.toNat = written g x y := by
    rw [← Bytes.natural_ofDouble, Bytes.double_natural_ofDouble hbits]
  -- a zero would be read back as a zero
  have hbits_ne : ∀ n, (Bytes.double n == 0) = true → (written g x y).toBits.toNat ≠ n := by
    rintro n hzero rfl
    rw [hdouble, hne] at hzero
    exact Bool.false_ne_true hzero
  rw [naturalAt_encode_eq_toBits g hx hy]
  refine ⟨hdouble.symm ▸ hfinite, hbits_ne 0 (by decide +kernel), hbits_ne _ (by decide +kernel),
    fun hout => ?_, fun hxg hyg => ?_⟩
  · rw [written_of_pos hpos hfin, storedIn_of_not_lt hout, if_pos rfl, toBits_zeroMark]
    rfl
  · obtain ⟨factor, hfactor, hlo, -⟩ := exists_denotes_of_pos hpos hfin
    refine ⟨g.storedAt x y, _, stored?_eq_storedAt hxg hyg, height?_eq_ofStored hxg hyg, ?_, factor,
      hfactor, Height.stands_quotient (stands_doubleOfInt32 _) hfactor hlo⟩
    rw [written_of_pos hpos hfin, storedIn_of_lt hxg hyg]
    split_ifs
    · rw [toBits_zeroMark]
      rfl
    · rfl

/-- With the smallest factor of all, the smallest stored integer is written as `-2 ^ 180`. -/
theorem encode_holds_data_smallestFactor :
    let g := ofHeights ⟨4096, Float32.ofBits 1, .replicate 16 16 (-2147483648), by decide⟩
    Bytes.naturalAt 8 (8 * (256 * 3 + 2)) (encode g) = 2 ^ 63 + (180 + 1023) * 2 ^ 52 ∧
      Bytes.naturalAt 8 (8 * (256 * 3 + 16)) (encode g) = 1 := by
  intro g
  obtain ⟨-, hcells⟩ := encode_holds_data g (by decide +kernel) (by decide +kernel)
  obtain ⟨-, -, -, -, hin⟩ := hcells 3 2 (by decide) (by decide)
  obtain ⟨-, -, -, hout, -⟩ := hcells 3 16 (by decide) (by decide)
  obtain ⟨stored, height, hstored, hheight, hbits, -⟩ := hin (by decide) (by decide)
  have hstored' : g.stored? 3 2 = some (-2147483648) :=
    Grid.at?_replicate _ (by decide) (by decide)
  have hheight' : g.height? 3 2 = some (Height.ofStored (-2147483648) (Float32.ofBits 1)) :=
    congrArg (Option.map _) hstored'
  rw [hstored', Option.some_inj] at hstored
  rw [hheight', Option.some_inj] at hheight
  refine ⟨?_, hout (by decide)⟩
  rw [hbits, ← hstored, ← hheight]
  decide +kernel

end Terrain.Legacy
