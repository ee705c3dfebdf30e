import Terrain.Proofs.Height
import Terrain.Proofs.Number.Single

/-!
# Heights with two factors

Two factors that differ at all differ by more than the roundings of a division, so a stored integer
other than zero has the same height with both only if they are equal. The factor of the legacy layout
is the default one, whatever the factor of the region.
-/

namespace Terrain.Height

open Number

variable {a b : Float32} {p q : ℝ} {n : Int32}

/-- Of two multiples of a power of two the greater one is greater by a part of the smaller one, if
that has 24 bits. -/
lemma multiple_mul_le_of_lt {j k : ℕ} {t : ℤ} (hj : j < 2 ^ 24)
    (h : (j : ℝ) * 2 ^ t < k * 2 ^ t) : (j : ℝ) * 2 ^ t * (1 + 2 ^ (-24 : ℤ)) ≤ k * 2 ^ t := by
  have hpos : (0 : ℝ) < 2 ^ t := by positivity
  have hjk : (j : ℝ) + 1 ≤ k := by
    have hlt : j < k := by exact_mod_cast lt_of_mul_lt_mul_right h hpos.le
    exact_mod_cast hlt
  have hsmall : (j : ℝ) * 2 ^ (-24 : ℤ) ≤ 1 := by
    rw [zpow_neg, ← div_eq_mul_inv, div_le_one (by positivity)]
    exact_mod_cast hj.le
  calc (j : ℝ) * 2 ^ t * (1 + 2 ^ (-24 : ℤ)) = (j + j * 2 ^ (-24 : ℤ)) * 2 ^ t := by ring
    _ ≤ (j + 1) * 2 ^ t := by gcongr
    _ ≤ k * 2 ^ t := by gcongr

/-- A positive single is a mantissa of 24 bits on a grid. -/
lemma exists_eq_mul_zpow (ha : (ofSingle a).Denotes p) (hp : 0 < p) :
    ∃ (m : ℕ) (e : ℤ), m < 2 ^ 24 ∧ p = m * 2 ^ e := by
  obtain ⟨s, m, e, hx, rfl⟩ := ha
  obtain ⟨⟨hm, -, -⟩, -⟩ := canonical_of_ofSingle hx
  refine ⟨m, e, hm, ?_⟩
  rw [← abs_of_pos hp, abs_signed, abs_of_nonneg (by positivity)]

/-- Of two singles the greater one is greater by a part of the smaller one. -/
lemma mul_le_of_lt (ha : (ofSingle a).Denotes p) (hb : (ofSingle b).Denotes q) (hp : 0 < p)
    (h : p < q) : p * (1 + 2 ^ (-24 : ℤ)) ≤ q := by
  obtain ⟨m, e, hm, rfl⟩ := exists_eq_mul_zpow ha hp
  obtain ⟨k, d, hk, rfl⟩ := exists_eq_mul_zpow hb (hp.trans h)
  rcases le_total e d with hle | hle
  · have hmultiple : (k : ℝ) * 2 ^ d = (k * 2 ^ (d - e).toNat : ℕ) * 2 ^ e := by
      exact_mod_cast mul_zpow_eq k hle
    rw [hmultiple] at h ⊢
    exact multiple_mul_le_of_lt hm h
  · have hmultiple : (m : ℝ) * 2 ^ e = (m * 2 ^ (e - d).toNat : ℕ) * 2 ^ d := by
      exact_mod_cast mul_zpow_eq m hle
    rw [hmultiple] at h ⊢
    refine multiple_mul_le_of_lt (lt_trans ?_ hk) h
    exact_mod_cast lt_of_mul_lt_mul_right h (by positivity)

/-- Dividing by factors that differ does not round to the same height. -/
lemma round_quotient_ne (hn : n.toInt ≠ 0) (hp : 0 < p) (hhi : q < 2 ^ (128 : ℤ))
    (h : p * (1 + 2 ^ (-24 : ℤ)) ≤ q) :
    double.round (n.toInt / p) ≠ double.round (n.toInt / q) := by
  have hpq : p < q := lt_of_lt_of_le (lt_mul_of_one_lt_right hp (by norm_num)) h
  have hq : 0 < q := hp.trans hpq
  have hquotient := double.abs_round_sub_le_mul (le_abs_quotient hn hp (hpq.trans hhi))
  have hquotient' := double.abs_round_sub_le_mul (le_abs_quotient hn hq hhi)
  have hpos : 0 < |(n.toInt : ℝ) / q| := abs_pos.mpr (div_ne_zero (by exact_mod_cast hn) hq.ne')
  have hgap : |(n.toInt : ℝ) / q| * (1 + 2 ^ (-24 : ℤ)) ≤ |(n.toInt : ℝ) / p| := by
    rw [abs_div, abs_div, abs_of_pos hp, abs_of_pos hq, div_mul_eq_mul_div,
      div_le_div_iff₀ hq hp, mul_assoc]
    refine mul_le_mul_of_nonneg_left ?_ (abs_nonneg _)
    rwa [mul_comm]
  intro heq
  rw [heq] at hquotient
  have htriangle := abs_sub_abs_le_abs_sub ((n.toInt : ℝ) / p) (double.round (n.toInt / q))
  have htriangle' := abs_sub_abs_le_abs_sub (double.round (n.toInt / q)) ((n.toInt : ℝ) / q)
  rw [abs_sub_comm] at htriangle
  have hunit : (2 : ℝ) ^ (-(double.precision : ℤ)) = 2 ^ (-53 : ℤ) := rfl
  rw [hunit] at hquotient hquotient'
  norm_num at hquotient hquotient' hgap
  linarith

/-- A stored integer has the same height with two factors only if it is zero or they are equal. -/
lemma ofStored_beq_iff (ha : (ofSingle a).Denotes p) (hb : (ofSingle b).Denotes q)
    (hp : 2 ^ (-149 : ℤ) ≤ p) (hq : 2 ^ (-149 : ℤ) ≤ q) (hp' : p < 2 ^ (128 : ℤ))
    (hq' : q < 2 ^ (128 : ℤ)) :
    (ofStored n a == ofStored n b) = true ↔ (a == b) = true ∨ n = 0 := by
  have hstands : Stands (ofStored n a) (double.round (n.toInt / p)) :=
    stands_quotient (stands_doubleOfInt32 n) ha hp
  have hstands' : Stands (ofStored n b) (double.round (n.toInt / q)) :=
    stands_quotient (stands_doubleOfInt32 n) hb hq
  have hp0 : 0 < p := lt_of_lt_of_le (by positivity) hp
  have hq0 : 0 < q := lt_of_lt_of_le (by positivity) hq
  rw [hstands.beq hstands', ofSingle_beq_iff ha hb, ← Int32.toInt_inj]
  constructor
  · intro heq
    refine or_iff_not_imp_right.mpr fun hn => ?_
    rcases lt_trichotomy p q with hlt | hlt | hlt
    · exact absurd heq (round_quotient_ne hn hp0 hq' (mul_le_of_lt ha hb hp0 hlt))
    · exact hlt
    · exact absurd heq.symm (round_quotient_ne hn hq0 hp' (mul_le_of_lt hb ha hq0 hlt))
  · rintro (rfl | hn)
    · rfl
    · rw [hn]
      simp

/-! ### Factors of the layouts -/

/-- A positive integer becomes a positive single. -/
lemma exists_denotes_singleOfInt32 {k : Int32} (hk : 0 < k.toInt) :
    ∃ r : ℝ, (ofSingle (singleOfInt32 k)).Denotes r ∧ 2 ^ (-149 : ℤ) ≤ r ∧ r < 2 ^ (128 : ℤ) := by
  have hmax : (k.toInt.natAbs : ℝ) ≤ 2 ^ (31 : ℤ) := by
    have h := abs_toInt_le k
    rw [Int.abs_eq_natAbs] at h
    exact_mod_cast h
  have hone : (1 : ℝ) ≤ k.toInt.natAbs := by
    have h : 1 ≤ k.toInt.natAbs := by omega
    exact_mod_cast h
  have hpos : (0 : ℝ) < k.toInt.natAbs := by linarith
  have hsingle : singleOfInt32 k = toSingle (.finite false k.toInt.natAbs 0) := by
    have hsign : decide (k.toInt < 0) = false := by simpa using hk.le
    rw [singleOfInt32, hsign]
  have hdenotes := denotes_toSingle false (m := k.toInt.natAbs) (e := 0)
    (by rw [zpow_zero, mul_one]; exact hmax.trans_lt (by norm_num))
  rw [zpow_zero, mul_one, ← hsingle] at hdenotes
  have hround := single.abs_round_sub_le_mul (x := k.toInt.natAbs)
    (by rw [abs_of_pos hpos]; exact (by norm_num [single] : _ ≤ (1 : ℝ)).trans hone)
  have hunit : (2 : ℝ) ^ (-(single.precision : ℤ)) = 2 ^ (-24 : ℤ) := rfl
  rw [hunit, abs_of_pos hpos, abs_le] at hround
  refine ⟨_, hdenotes, ?_, ?_⟩
  · change (2 : ℝ) ^ (-149 : ℤ) ≤ single.round k.toInt.natAbs
    generalize (k.toInt.natAbs : ℝ) = x at hone hround ⊢
    have hhalf : (2 : ℝ) ^ (-149 : ℤ) ≤ 1 / 2 := by norm_num
    refine hhalf.trans ?_
    norm_num at hround ⊢
    linarith
  · change single.round k.toInt.natAbs < 2 ^ (128 : ℤ)
    generalize (k.toInt.natAbs : ℝ) = x at hmax hround ⊢
    have hlarge : (2 : ℝ) ^ (32 : ℤ) < 2 ^ (128 : ℤ) := by norm_num
    norm_num at hround hmax hlarge ⊢
    linarith

lemma recover_ofStored_zero (hpos : 0 < a) (hfin : a.isFinite = true) :
    recover (ofStored 0 a) defaultFactor = 0 := by
  obtain ⟨r, hr, hlo, hhi⟩ := exists_denotes_of_pos hpos hfin
  have himage : Stands (ofStored 0 a) (double.round ((0 : Int32).toInt / r)) :=
    stands_quotient (stands_doubleOfInt32 0) hr hlo
  refine recover_of_stands denotes_defaultFactor (by norm_num) (by norm_num) ?_
  simpa using himage

/-- The stored integer that the default factor gives for a height has the same height if any one
has. -/
lemma recover_beq_iff (hpos : 0 < a) (hfin : a.isFinite = true) :
    (ofStored n a == ofStored (recover (ofStored n a) defaultFactor) defaultFactor) = true ↔
      ∃ k : Int32, (ofStored n a == ofStored k defaultFactor) = true := by
  obtain ⟨r, hr, hlo, hhi⟩ := exists_denotes_of_pos hpos hfin
  have hdefault : (2 : ℝ) ^ (-149 : ℤ) ≤ 100 := by norm_num
  have himage : Stands (ofStored n a) (double.round (n.toInt / r)) :=
    stands_quotient (stands_doubleOfInt32 n) hr hlo
  refine ⟨fun h => ⟨_, h⟩, ?_⟩
  rintro ⟨k, hk⟩
  have himage' : Stands (ofStored k defaultFactor) (double.round (k.toInt / 100)) :=
    stands_quotient (stands_doubleOfInt32 k) denotes_defaultFactor hdefault
  have hsame := (himage.beq himage').mp hk
  rw [recover_of_stands denotes_defaultFactor hdefault (by norm_num) (hsame ▸ himage)]
  exact hk

end Terrain.Height
