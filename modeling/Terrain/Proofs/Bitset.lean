import Mathlib.Data.Nat.Bitwise
import Mathlib.Tactic
import Terrain.Bitset

/-!
# Membership in bit sets

What each operation does to a set is said by what it does to `get?`: a bit is set or cleared and no
other bit changes.
-/

namespace Terrain

/-! ### Words -/

lemma toNat_wordBit {i : Nat} (hi : i < wordBits) : (wordBit i).toNat = 2 ^ i := by
  have hi' : i < 64 := hi
  have hmod : (UInt64.ofNat i).toNat % 64 = i := by
    rw [UInt64.toNat_ofNat_of_lt' (lt_trans hi' (by decide)), Nat.mod_eq_of_lt hi']
  have hpow : 2 ^ i < 2 ^ 64 := Nat.pow_lt_pow_right (by decide) hi'
  rw [wordBit, UInt64.toNat_shiftLeft, hmod, Nat.shiftLeft_eq]
  exact (congrArg (· % 2 ^ 64) (Nat.one_mul _)).trans (Nat.mod_eq_of_lt hpow)

/-- Asking for a bit of a word is looking at its digit. -/
lemma wordHas_eq_testBit (word : UInt64) {i : Nat} (hi : i < wordBits) :
    wordHas word i = word.toNat.testBit i := by
  have hand : (word &&& wordBit i).toNat = (word.toNat.testBit i).toNat * 2 ^ i := by
    rw [UInt64.toNat_and, toNat_wordBit hi, Nat.and_two_pow]
  have hzero : word &&& wordBit i = 0 ↔ word.toNat.testBit i = false := by
    rw [← UInt64.toNat_inj, hand]
    cases word.toNat.testBit i <;> simp
  rw [wordHas]
  cases hb : word.toNat.testBit i <;> simp [hzero, hb]

lemma wordHas_or (word : UInt64) {i j : Nat} (hi : i < wordBits) (hj : j < wordBits) :
    wordHas (word ||| wordBit i) j = (wordHas word j || decide (i = j)) := by
  rw [wordHas_eq_testBit _ hj, wordHas_eq_testBit _ hj, UInt64.toNat_or, toNat_wordBit hi,
    Nat.testBit_or, Nat.testBit_two_pow]

lemma wordHas_not (word : UInt64) {j : Nat} (hj : j < wordBits) :
    wordHas (~~~word) j = !wordHas word j := by
  have hnot : (~~~word).toNat = 2 ^ 64 - (word.toNat + 1) := by
    rw [UInt64.toNat_not, UInt64.size]
    omega
  rw [wordHas_eq_testBit _ hj, wordHas_eq_testBit _ hj, hnot,
    Nat.testBit_two_pow_sub_succ word.toNat_lt]
  have hj' : j < 64 := hj
  simp [hj']

lemma wordHas_and_not (word : UInt64) {i j : Nat} (hi : i < wordBits) (hj : j < wordBits) :
    wordHas (word &&& ~~~wordBit i) j = (wordHas word j && !decide (i = j)) := by
  have hnot := wordHas_not (wordBit i) hj
  rw [wordHas_eq_testBit _ hj, wordHas_eq_testBit _ hj, toNat_wordBit hi, Nat.testBit_two_pow]
    at hnot
  rw [wordHas_eq_testBit _ hj, wordHas_eq_testBit _ hj, UInt64.toNat_and, Nat.testBit_and, hnot]

lemma wordHas_zero {j : Nat} (hj : j < wordBits) : wordHas 0 j = false := by
  rw [wordHas_eq_testBit _ hj]
  exact Nat.zero_testBit j

lemma wordHas_wordBelow {n j : Nat} (hn : n < wordBits) (hj : j < wordBits) :
    wordHas (wordBelow n) j = decide (j < n) := by
  have hle : (1 : UInt64) ≤ wordBit n := by
    rw [UInt64.le_iff_toNat_le, toNat_wordBit hn]
    exact Nat.one_le_two_pow
  rw [wordHas_eq_testBit _ hj, wordBelow, UInt64.toNat_sub_of_le _ _ hle, toNat_wordBit hn]
  exact Nat.testBit_two_pow_sub_one n j

namespace Bitset

variable {s : Bitset} {i j : Nat}

/-! ### Sets -/

lemma mod_wordBits_lt (i : Nat) : i % wordBits < wordBits := Nat.mod_lt i (by decide)

lemma div_mod_inj : i / wordBits = j / wordBits ∧ i % wordBits = j % wordBits ↔ i = j := by
  constructor
  · rintro ⟨hdiv, hmod⟩
    rw [← Nat.div_add_mod i wordBits, hdiv, hmod, Nat.div_add_mod]
  · rintro rfl
    exact ⟨rfl, rfl⟩

lemma reaches_of_lt (hi : i < s.length) : s.Reaches i := by
  rw [Reaches, s.size_words, wordCount, wordBits]
  omega

lemma get?_eq_some (hi : i / wordBits < s.words.size) :
    s.get? i = some (wordHas s.words[i / wordBits] (i % wordBits)) := by
  rw [get?, Array.getElem?_eq_getElem hi, Option.map_some]

lemma get?_of_not_reaches (h : ¬s.Reaches i) : s.get? i = none := by
  rw [get?, Array.getElem?_eq_none (Nat.le_of_not_lt h), Option.map_none]

/-- Changing the word of a bit is seen at the bits of that word only. -/
lemma get?_modifyWord (s : Bitset) (i j : Nat) (f : UInt64 → UInt64) :
    (s.modifyWord i f).get? j =
      if i / wordBits = j / wordBits then
        s.words[j / wordBits]?.map fun word => wordHas (f word) (j % wordBits)
      else s.get? j := by
  rw [get?, modifyWord, Array.getElem?_modify]
  split_ifs
  · rw [Option.map_map]
    rfl
  · rfl

lemma get?_insert (s : Bitset) (i j : Nat) :
    (s.insert i).get? j = (s.get? j).map fun b => b || decide (i = j) := by
  rw [insert, get?_modifyWord]
  split_ifs with hword
  · have hij : i % wordBits = j % wordBits ↔ i = j := by
      rw [← div_mod_inj (i := i), and_iff_right hword]
    simp only [get?, Option.map_map, Function.comp_def,
      wordHas_or _ (mod_wordBits_lt i) (mod_wordBits_lt j), hij]
  · have hij : i ≠ j := fun h => hword (by rw [h])
    simp [hij]

lemma get?_erase (s : Bitset) (i j : Nat) :
    (s.erase i).get? j = (s.get? j).map fun b => b && !decide (i = j) := by
  rw [erase, get?_modifyWord]
  split_ifs with hword
  · have hij : i % wordBits = j % wordBits ↔ i = j := by
      rw [← div_mod_inj (i := i), and_iff_right hword]
    simp only [get?, Option.map_map, Function.comp_def,
      wordHas_and_not _ (mod_wordBits_lt i) (mod_wordBits_lt j), hij]
  · have hij : i ≠ j := fun h => hword (by rw [h])
    simp [hij]

lemma get?_insert_iff : (s.insert i).get? j = some true ↔
    s.get? j = some true ∨ (i = j ∧ s.Reaches j) := by
  rw [get?_insert, Option.map_eq_some_iff]
  constructor
  · rintro ⟨b, hb, hor⟩
    rw [Bool.or_eq_true, decide_eq_true_eq] at hor
    rcases hor with rfl | rfl
    · exact Or.inl hb
    · refine Or.inr ⟨rfl, ?_⟩
      by_contra hout
      rw [get?_of_not_reaches hout] at hb
      exact absurd hb (by simp)
  · rintro (h | ⟨rfl, hreach⟩)
    · exact ⟨true, h, rfl⟩
    · exact ⟨_, get?_eq_some hreach, by simp⟩

lemma get?_erase_iff : (s.erase i).get? j = some true ↔ s.get? j = some true ∧ i ≠ j := by
  rw [get?_erase, Option.map_eq_some_iff]
  constructor
  · rintro ⟨b, hb, hand⟩
    rw [Bool.and_eq_true, Bool.not_eq_true', decide_eq_false_iff_not] at hand
    exact ⟨hand.1 ▸ hb, hand.2⟩
  · rintro ⟨h, hne⟩
    exact ⟨true, h, by simp [hne]⟩

/-- Bits may be set in any order. -/
lemma insert_comm (s : Bitset) (i j : Nat) : (s.insert i).insert j = (s.insert j).insert i := by
  have hor (word a b : UInt64) : word ||| a ||| b = word ||| b ||| a :=
    UInt64.toNat_inj.mp (by simp [Nat.or_right_comm])
  simp only [insert, modifyWord, mk.injEq, true_and]
  refine Array.ext_getElem? fun k => ?_
  simp only [Array.getElem?_modify]
  split_ifs
  · rw [Option.map_map, Option.map_map]
    exact congrArg (Option.map · _) (funext fun word => hor word _ _)
  all_goals rfl

variable {length : Nat} {length_lt : length + wordBits < lengthCount}

lemma get?_empty (h : (empty length length_lt).Reaches i) :
    (empty length length_lt).get? i = some false := by
  rw [get?_eq_some h]
  simp only [empty, Array.getElem_replicate, wordHas_zero (mod_wordBits_lt i)]

lemma get?_empty_ne_true (i : Nat) : (empty length length_lt).get? i ≠ some true := by
  by_cases h : (empty length length_lt).Reaches i
  · simp [get?_empty h]
  · simp [get?_of_not_reaches h]

/-- Filling sets the bits below the length and clears the rest of the last word. -/
lemma get?_fill_of_reaches (h : s.fill.Reaches i) : s.fill.get? i = some (decide (i < s.length)) := by
  have hword : i / wordBits < wordCount s.length := h.trans_eq s.fill.size_words
  rw [get?_eq_some h]
  simp only [fill, Array.getElem_ofFn, fullWord]
  split_ifs with hfull
  · have hi : i < s.length := by
      simp only [wordBits] at hfull
      omega
    rw [wordHas_not _ (mod_wordBits_lt i), wordHas_zero (mod_wordBits_lt i), Bool.not_false,
      decide_eq_true hi]
  · have hdigit : i % wordBits < s.length % wordBits ↔ i < s.length := by
      simp only [wordCount, wordBits] at hword hfull ⊢
      omega
    rw [wordHas_wordBelow (mod_wordBits_lt _) (mod_wordBits_lt i), decide_eq_decide.mpr hdigit]

lemma get?_fill (hi : i < s.length) : s.fill.get? i = some true := by
  rw [get?_fill_of_reaches (reaches_of_lt (s := s.fill) hi), decide_eq_true hi]

/-! ### Bits beyond the length -/

/-- No bit at or beyond the length is set. -/
def Within (s : Bitset) : Prop := ∀ i, s.get? i = some true → i < s.length

lemma within_empty : (empty length length_lt).Within :=
  fun i h => absurd h (get?_empty_ne_true i)

lemma within_fill (s : Bitset) : s.fill.Within := by
  intro i h
  by_cases hreach : s.fill.Reaches i
  · rw [get?_fill_of_reaches hreach, Option.some_inj, decide_eq_true_eq] at h
    exact h
  · rw [get?_of_not_reaches hreach] at h
    cases h

lemma Within.insert (h : s.Within) (hi : i < s.length) : (s.insert i).Within := by
  intro j hj
  rcases get?_insert_iff.mp hj with hj | ⟨rfl, -⟩
  · exact h j hj
  · exact hi

lemma Within.erase (h : s.Within) (i : Nat) : (s.erase i).Within :=
  fun j hj => h j (get?_erase_iff.mp hj).1

/-! ### Lists of bits -/

lemma mem_wordList {word : UInt64} {j : Nat} :
    j ∈ wordList word ↔ j < wordBits ∧ wordHas word j = true := by
  rw [wordList]
  split_ifs with hzero
  · refine iff_of_false List.not_mem_nil ?_
    rintro ⟨hj, hhas⟩
    rw [hzero, wordHas_zero hj] at hhas
    exact absurd hhas Bool.false_ne_true
  · rw [List.mem_filter, List.mem_range]

/-- The list of a set holds the bits that are set. -/
lemma mem_toList : i ∈ s.toList ↔ s.get? i = some true := by
  rw [toList, List.mem_flatMap, get?, Option.map_eq_some_iff]
  constructor
  · rintro ⟨⟨word, w⟩, hword, hi⟩
    obtain ⟨j, hj, rfl⟩ := List.mem_map.mp hi
    obtain ⟨hlt, hhas⟩ := mem_wordList.mp hj
    rw [List.mem_zipIdx_iff_getElem?, Array.getElem?_toList] at hword
    refine ⟨word, ?_, ?_⟩
    · rwa [Nat.mul_comm, Nat.mul_add_div (by decide), Nat.div_eq_of_lt hlt, Nat.add_zero]
    · rwa [Nat.mul_add_mod', Nat.mod_eq_of_lt hlt]
  · rintro ⟨word, hword, hhas⟩
    refine ⟨(word, i / wordBits), ?_, ?_⟩
    · rwa [List.mem_zipIdx_iff_getElem?, Array.getElem?_toList]
    · exact List.mem_map.mpr
        ⟨i % wordBits, mem_wordList.mpr ⟨mod_wordBits_lt i, hhas⟩, Nat.div_add_mod' i wordBits⟩

lemma pairwise_wordList (word : UInt64) : (wordList word).Pairwise (· < ·) := by
  rw [wordList]
  split_ifs
  · exact .nil
  · exact List.pairwise_lt_range.filter _

/-- The list of a set is ascending: within a word, and from each word to the next. -/
lemma pairwise_toList (s : Bitset) : s.toList.Pairwise (· < ·) := by
  rw [toList, List.pairwise_flatMap]
  refine ⟨?_, List.pairwise_iff_getElem.mpr ?_⟩
  · rintro ⟨word, w⟩ -
    exact List.pairwise_map.mpr
      ((pairwise_wordList word).imp fun h => Nat.add_lt_add_left h _)
  · intro w w' hw hw' hlt i hi j hj
    simp only [List.getElem_zipIdx, Nat.zero_add, List.mem_map] at hi hj
    obtain ⟨i, hi, rfl⟩ := hi
    obtain ⟨j, -, rfl⟩ := hj
    calc w * wordBits + i < w * wordBits + wordBits := Nat.add_lt_add_left (mem_wordList.mp hi).1 _
      _ = (w + 1) * wordBits := (Nat.succ_mul w wordBits).symm
      _ ≤ w' * wordBits := Nat.mul_le_mul_right _ hlt
      _ ≤ w' * wordBits + j := Nat.le_add_right _ _

/-- The list of a set has as many bits as are counted word by word. -/
lemma length_toList (s : Bitset) : s.toList.length = s.count := by
  have hwords : (s.words.toList.zipIdx.map fun p => (wordList p.1).length) =
      s.words.toList.map fun word => (wordList word).length := by
    conv_rhs => rw [← List.zipIdx_map_fst 0 s.words.toList, List.map_map]
    rfl
  rw [toList, List.length_flatMap, count, ← Array.foldl_toList]
  simp only [List.length_map, hwords]
  rw [List.sum_eq_foldl, List.foldl_map]

lemma toList_empty : (empty length length_lt).toList = [] :=
  List.eq_nil_iff_forall_not_mem.mpr fun i hi => get?_empty_ne_true i (mem_toList.mp hi)

lemma count_empty : (empty length length_lt).count = 0 := by
  rw [← length_toList, toList_empty, List.length_nil]

end Bitset

end Terrain
