import Terrain.Proofs.Height

/-!
# Every stored integer is recovered

No positive factor is so small or so large that the height of a stored integer, or its product with
the factor, leaves the range of the doubles, and the product is always nearer to the stored integer
than to any other one. So the height says which integer it was made from (`recover_ofStored`).
-/

namespace Terrain.Height

open Number

variable {n : Int32} {factor : Float32}

/-- The height of a stored integer and its product with the factor, as reals. -/
lemma exists_stands_product (n : Int32) (hpos : 0 < factor) (hfin : factor.isFinite = true) :
    ∃ r h : ℝ, (ofSingle factor).Denotes r ∧ h = double.round (n.toInt / r) ∧
      Stands (ofStored n factor) h ∧
      Stands (ofStored n factor * widen factor) (double.round (h * r)) ∧
      |double.round (h * r) - n.toInt| < 1 / 2 := by
  obtain ⟨r, hr, hlo, hhi⟩ := exists_denotes_of_pos hpos hfin
  have hr0 : 0 < r := lt_of_lt_of_le (by positivity) hlo
  have himage : Stands (ofStored n factor) (double.round (n.toInt / r)) :=
    stands_quotient (stands_doubleOfInt32 n) hr hlo
  exact ⟨r, _, hr, rfl, himage, stands_rescaled hr hlo hhi himage, (abs_scaled_sub_lt n hr0 hhi).2⟩

/-- Two stored integers do not share a height. -/
lemma ofStored_beq_ofStored_iff (n m : Int32) (hpos : 0 < factor)
    (hfin : factor.isFinite = true) :
    (ofStored n factor == ofStored m factor) = true ↔ n = m := by
  obtain ⟨r, hr, hlo, hhi⟩ := exists_denotes_of_pos hpos hfin
  have himage (k : Int32) : Stands (ofStored k factor) (double.round (k.toInt / r)) :=
    stands_quotient (stands_doubleOfInt32 k) hr hlo
  rw [(himage n).beq (himage m)]
  constructor
  · intro hsame
    -- the one height is recovered as both integers
    rw [← recover_image n hpos hfin]
    exact recover_of_stands hr hlo hhi (hsame ▸ himage n)
  · rintro rfl
    rfl

/-- The height of a stored integer is recovered as that integer, whichever positive finite single the
factor is. The height is the double nearest to the quotient by the factor, and the double nearest to
the product of the height with the factor is less than a half away from the integer. No other stored
integer has that height. -/
theorem recover_ofStored (n : Int32) (factor : Float32) (hpos : 0 < factor)
    (hfin : factor.isFinite = true) :
    recover (ofStored n factor) factor = n ∧
      (∃ r h : ℝ, (ofSingle factor).Denotes r ∧ h = double.round (n.toInt / r) ∧
        Stands (ofStored n factor) h ∧
        Stands (ofStored n factor * widen factor) (double.round (h * r)) ∧
        |double.round (h * r) - n.toInt| < 1 / 2) ∧
      ∀ m, (ofStored n factor == ofStored m factor) = true ↔ n = m :=
  ⟨recover_image n hpos hfin, exists_stands_product n hpos hfin,
    fun m => ofStored_beq_ofStored_iff n m hpos hfin⟩

/-- The smallest and the largest factor with the ends of the range of the stored integers, and the
height of 0.29, which is not stored as 29 again. -/
theorem recover_ofStored_extremes :
    let smallest := Float32.ofBits 1
    let largest := Float32.ofBits 0x7f7fffff
    recover (ofStored (-2147483648) smallest) smallest = -2147483648 ∧
      recover (ofStored 2147483647 largest) largest = 2147483647 ∧
      recover (ofStored 29 100) 100 = 29 ∧ quantize (ofStored 29 100) 100 = 28 := by
  intro smallest largest
  obtain ⟨hsmallest, -, -⟩ := recover_ofStored (-2147483648) smallest (by decide +kernel)
    (by decide +kernel)
  obtain ⟨hlargest, -, -⟩ := recover_ofStored 2147483647 largest (by decide +kernel)
    (by decide +kernel)
  obtain ⟨hhundredths, -, -⟩ := recover_ofStored 29 100 (by decide +kernel) (by decide +kernel)
  exact ⟨hsmallest, hlargest, hhundredths, by decide +kernel⟩

end Terrain.Height
