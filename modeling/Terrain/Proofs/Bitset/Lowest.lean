import Terrain.Proofs.Bitset

/-!
# The lowest bit of a word

The bits of a word can be found without looking at every place: the lowest one is where the zeros
end, and a subtraction takes it away. What is found until nothing is left is the list of the bits.
-/

namespace Terrain

/-! ### Taking the lowest bit away -/

/-- The zeros below the lowest bit of a natural are a power of two. -/
lemma exists_eq_two_pow_mul_odd {n c : Nat} (hc : n.testBit c = true)
    (hlow : ∀ i < c, n.testBit i = false) : ∃ k, n = 2 ^ c * (2 * k + 1) := by
  have hzeros : n % 2 ^ c = 0 := by
    refine Nat.eq_of_testBit_eq fun i => ?_
    rw [Nat.testBit_mod_two_pow, Nat.zero_testBit, Bool.and_eq_false_imp, decide_eq_true_eq]
    exact hlow i
  rw [Nat.testBit_eq_decide_div_mod_eq, decide_eq_true_eq] at hc
  have hodd : n / 2 ^ c = 2 * (n / 2 ^ c / 2) + 1 := by omega
  exact ⟨n / 2 ^ c / 2, by rw [← hodd, Nat.mul_div_cancel' (Nat.dvd_of_mod_eq_zero hzeros)]⟩

/-- Subtracting one changes the bits up to the lowest one that is set, and no others. -/
lemma testBit_and_pred {n c : Nat} (hc : n.testBit c = true) (hlow : ∀ i < c, n.testBit i = false)
    (j : Nat) : (n &&& (n - 1)).testBit j = (n.testBit j && !decide (j = c)) := by
  obtain ⟨k, hk⟩ := exists_eq_two_pow_mul_odd hc hlow
  have hpos : 0 < 2 ^ c := Nat.two_pow_pos c
  have hpred : n - 1 = 2 ^ c * (2 * k) + (2 ^ c - 1) := by
    rw [hk, Nat.mul_add_one]
    omega
  rw [Nat.testBit_and, hpred, Nat.testBit_two_pow_mul_add _ (Nat.sub_lt hpos Nat.one_pos)]
  rcases lt_trichotomy j c with hj | rfl | hj
  · rw [hlow j hj, Bool.false_and, Bool.false_and]
  · rw [if_neg (lt_irrefl _), Nat.sub_self]
    simp
  · obtain ⟨d, rfl⟩ : ∃ d, j = c + (d + 1) := ⟨j - c - 1, by omega⟩
    have hodd : (2 * k + 1).testBit (d + 1) = (2 * k).testBit (d + 1) := by
      rw [Nat.testBit_succ, Nat.testBit_succ]
      exact congrArg (Nat.testBit · d) (by omega)
    have hbit : n.testBit (c + (d + 1)) = (2 * k).testBit (d + 1) := by
      rw [hk, Nat.testBit_two_pow_mul, Nat.add_sub_cancel_left, hodd,
        decide_eq_true (Nat.le_add_right _ _), Bool.true_and]
    rw [if_neg (not_lt.mpr (Nat.le_add_right _ _)), Nat.add_sub_cancel_left, ← hbit, Bool.and_self,
      decide_eq_false (by omega), Bool.not_false, Bool.and_true]

/-- The place of the lowest bit of a word that is set. -/
def lowest (word : UInt64) : Nat := word.toBitVec.ctz.toNat

variable {word : UInt64} {j : Nat}

lemma toBitVec_ne_zero (h : word ≠ 0) : word.toBitVec ≠ 0 := fun hzero =>
  h (UInt64.toBitVec_inj.mp hzero)

lemma lowest_lt (h : word ≠ 0) : lowest word < wordBits :=
  BitVec.ctz_lt_iff_ne_zero.mpr (toBitVec_ne_zero h)

lemma testBit_lowest (h : word ≠ 0) : word.toNat.testBit (lowest word) = true :=
  BitVec.getLsbD_true_ctz_of_ne_zero (toBitVec_ne_zero h)

lemma testBit_of_lt_lowest (h : j < lowest word) : word.toNat.testBit j = false :=
  BitVec.getLsbD_false_of_lt_ctz h

lemma toNat_sub_one (h : word ≠ 0) : (word - 1).toNat = word.toNat - 1 := by
  refine UInt64.toNat_sub_of_le _ _ (UInt64.le_iff_toNat_le.mpr ?_)
  exact Nat.one_le_iff_ne_zero.mpr fun hzero => h (UInt64.toNat_inj.mp hzero)

/-- A word without its lowest bit has its other bits. -/
lemma wordHas_and_sub_one (h : word ≠ 0) (hj : j < wordBits) :
    wordHas (word &&& (word - 1)) j = (wordHas word j && !decide (j = lowest word)) := by
  rw [wordHas_eq_testBit _ hj, wordHas_eq_testBit _ hj, UInt64.toNat_and, toNat_sub_one h]
  exact testBit_and_pred (testBit_lowest h) (fun _ => testBit_of_lt_lowest) j

/-! ### Until nothing is left -/

/-- The bits of a word, each time the lowest one that is left. -/
def lowestBits (word : UInt64) : List Nat :=
  if h : word = 0 then [] else lowest word :: lowestBits (word &&& (word - 1))
termination_by word.toNat
decreasing_by
  rw [UInt64.toNat_and, toNat_sub_one h]
  have hpos : 0 < word.toNat := Nat.pos_of_ne_zero fun hzero => h (UInt64.toNat_inj.mp hzero)
  exact lt_of_le_of_lt Nat.and_le_right (Nat.sub_lt hpos Nat.one_pos)

lemma lowestBits_eq_wordList (word : UInt64) : lowestBits word = Bitset.wordList word := by
  induction word using lowestBits.induct with
  | case1 => rw [lowestBits, dif_pos rfl, Bitset.wordList, if_pos rfl]
  | case2 word h ih =>
    rw [lowestBits, dif_neg h, ih]
    have hrest : ∀ j, j ∈ Bitset.wordList (word &&& (word - 1)) ↔
        j ∈ Bitset.wordList word ∧ j ≠ lowest word := by
      intro j
      rw [Bitset.mem_wordList, Bitset.mem_wordList, and_assoc]
      refine and_congr_right fun hj => ?_
      rw [wordHas_and_sub_one h hj, Bool.and_eq_true, Bool.not_eq_true', decide_eq_false_iff_not]
    have hmem : lowest word ∈ Bitset.wordList word := by
      rw [Bitset.mem_wordList, wordHas_eq_testBit _ (lowest_lt h)]
      exact ⟨lowest_lt h, testBit_lowest h⟩
    -- both lists are ascending, so it is enough that they have the same members
    refine List.Pairwise.eq_of_mem_iff (r := (· < ·))
      (List.pairwise_cons.mpr ⟨fun j hj => ?_, Bitset.pairwise_wordList _⟩)
      (Bitset.pairwise_wordList word) fun j => ?_
    · obtain ⟨hj, hne⟩ := (hrest j).mp hj
      obtain ⟨hlt, hhas⟩ := Bitset.mem_wordList.mp hj
      rw [wordHas_eq_testBit _ hlt] at hhas
      refine lt_of_le_of_ne (not_lt.mp fun hbelow => ?_) hne.symm
      rw [testBit_of_lt_lowest hbelow] at hhas
      exact Bool.false_ne_true hhas
    · rw [List.mem_cons, hrest]
      constructor
      · rintro (rfl | ⟨hj, -⟩)
        · exact hmem
        · exact hj
      · intro hj
        exact (eq_or_ne j (lowest word)).imp id fun hne => ⟨hj, hne⟩

namespace Bitset

/-- The bits of a set, word by word, each time the lowest one that is left. -/
def peel (s : Bitset) : List Nat :=
  s.words.toList.zipIdx.flatMap fun (word, w) => (lowestBits word).map (w * wordBits + ·)

lemma peel_eq_toList (s : Bitset) : s.peel = s.toList := by
  rw [peel, toList]
  simp only [lowestBits_eq_wordList]

end Bitset

end Terrain
