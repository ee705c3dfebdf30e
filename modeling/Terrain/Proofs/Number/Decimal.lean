import Terrain.Number.Decimal
import Terrain.Proofs.Number.Conversion
import Terrain.Proofs.Number.Interval

/-!
# Decimals that were written

An integer that was written is read back. A decimal that was written without an exponent is read as
a decimal of the same value, and a decimal is read as the number nearest to its value.
-/

namespace Terrain.Number

/-! ### Digits -/

lemma isDigit_eq (c : Char) : isDigit c = c.isDigit := rfl

/-- A row of decimal digits, not an empty one. -/
def AreDigits (cs : List Char) : Prop := cs ≠ [] ∧ ∀ c ∈ cs, isDigit c = true

lemma areDigits_toDigits (n : ℕ) : AreDigits (Nat.toDigits 10 n) :=
  ⟨Nat.toDigits_ne_nil, fun _ hc => Nat.isDigit_of_mem_toDigits (by decide) (by decide) hc⟩

lemma ofDigits_toDigits (n : ℕ) : ofDigits (Nat.toDigits 10 n) = n := Nat.ofDigitChars_ten_toDigits

lemma ofDigits_append_zeros (cs : List Char) (k : ℕ) :
    ofDigits (cs ++ List.replicate k '0') = ofDigits cs * 10 ^ k := by
  have h : Nat.ofDigitChars 10 (cs ++ List.replicate k '0') 0 = Nat.ofDigitChars 10 cs 0 * 10 ^ k := by
    rw [Nat.ofDigitChars_append, Nat.ofDigitChars_replicate_zero, Nat.mul_comm]
  exact h

lemma ofDigits_zeros_append (cs : List Char) (k : ℕ) :
    ofDigits (List.replicate k '0' ++ cs) = ofDigits cs := by
  have h : Nat.ofDigitChars 10 (List.replicate k '0' ++ cs) 0 = Nat.ofDigitChars 10 cs 0 := by
    rw [Nat.ofDigitChars_append, Nat.ofDigitChars_replicate_zero, Nat.mul_zero]
  exact h

lemma splitSign_of_isDigit {c : Char} (hc : isDigit c = true) (cs : List Char) :
    splitSign (c :: cs) = (false, c :: cs) := by
  rw [splitSign]
  · rintro _ ⟨rfl, -⟩
    exact absurd hc (by decide)
  · rintro _ ⟨rfl, -⟩
    exact absurd hc (by decide)

/-- Digits have no sign, unless one is put in front. -/
lemma AreDigits.splitSign {cs : List Char} (h : AreDigits cs) (negative : Bool) :
    splitSign (if negative then '-' :: cs else cs) = (negative, cs) := by
  cases negative with
  | true => rfl
  | false =>
    obtain ⟨c, cs, rfl⟩ := List.exists_cons_of_ne_nil h.1
    exact splitSign_of_isDigit (h.2 c List.mem_cons_self) cs

/-! ### Integers -/

lemma AreDigits.readSigned? {cs : List Char} (h : AreDigits cs) (value : List Char → ℕ)
    (negative : Bool) :
    readSigned? value (if negative then '-' :: cs else cs) =
      some (Binary.withSign negative (value cs)) := by
  rw [Number.readSigned?, h.splitSign]
  have hempty : cs.isEmpty = false := by simpa using h.1
  have hall : cs.all isDigit = true := List.all_eq_true.mpr h.2
  simp [hempty, hall]

lemma integerText_eq (n : ℤ) : integerText n =
    if (n < 0 : Bool) then '-' :: Nat.toDigits 10 n.natAbs else Nat.toDigits 10 n.natAbs := by
  rw [integerText]
  simp only [decide_eq_true_eq]

lemma readInteger?_integerText (n : ℤ) : readInteger? (integerText n) = some n := by
  rw [readInteger?, integerText_eq, (areDigits_toDigits _).readSigned?, ofDigits_toDigits,
    withSign_natAbs]

/-- Every stored integer is read from its text. -/
lemma readInt32?_integerText (n : Int32) : readInt32? (integerText n.toInt) = some n := by
  have hrange : Int32.minValue.toInt ≤ n.toInt ∧ n.toInt ≤ Int32.maxValue.toInt :=
    ⟨n.minValue_le_toInt, n.toInt_le⟩
  rw [readInt32?, readInteger?_integerText]
  dsimp only
  rw [if_pos hrange, Int32.ofInt_toInt]

lemma mem_integerText {n : ℤ} {c : Char} (h : c ∈ integerText n) : c = '-' ∨ isDigit c = true := by
  rw [integerText_eq] at h
  have hdigits := (areDigits_toDigits n.natAbs).2
  split_ifs at h
  · exact (List.mem_cons.mp h).imp_right (hdigits c)
  · exact Or.inr (hdigits c h)

/-! ### Values -/

namespace Decimal

/-- The real that a decimal writes, without its sign. -/
noncomputable def magnitude (d : Decimal) : ℝ := d.digits * 10 ^ d.exponent

variable {d : Decimal}

lemma magnitude_eq_zero : d.magnitude = 0 ↔ d.digits = 0 := by
  rw [magnitude, mul_eq_zero, or_iff_left (by positivity), Nat.cast_eq_zero]

/-- The power of ten behind the first digit of a decimal is above it, and the one in front is
not. -/
lemma magnitude_bounds (hd : d.digits ≠ 0) :
    (10 : ℝ) ^ (d.exponent + (Nat.toDigits 10 d.digits).length - 1) ≤ d.magnitude ∧
      d.magnitude < 10 ^ (d.exponent + (Nat.toDigits 10 d.digits).length) := by
  have hpos : 0 < (Nat.toDigits 10 d.digits).length := Nat.length_toDigits_pos
  have hhi : d.digits < 10 ^ (Nat.toDigits 10 d.digits).length :=
    (Nat.length_toDigits_le_iff (by decide) hpos).mp le_rfl
  have hlo : 10 ^ ((Nat.toDigits 10 d.digits).length - 1) ≤ d.digits := by
    by_contra hlt
    -- the bound on the length is about at least one digit, so one digit alone is a case of its own
    rcases Nat.eq_zero_or_pos ((Nat.toDigits 10 d.digits).length - 1) with h0 | h0
    · rw [h0] at hlt
      omega
    · have := (Nat.length_toDigits_le_iff (b := 10) (by decide) h0).mpr (not_le.mp hlt)
      omega
  rw [magnitude, add_comm d.exponent]
  constructor
  · rw [add_sub_right_comm, zpow_add₀ (by norm_num)]
    gcongr
    have hcast : ((Nat.toDigits 10 d.digits).length : ℤ) - 1 =
        ((Nat.toDigits 10 d.digits).length - 1 : ℕ) := by omega
    rw [hcast, zpow_natCast]
    exact_mod_cast hlo
  · rw [zpow_add₀ (by norm_num), zpow_natCast]
    gcongr
    exact_mod_cast hhi

/-- A decimal as a quotient of naturals. -/
lemma magnitude_eq_div (d : Decimal) : d.magnitude =
    (d.digits * Nat.pow 10 d.exponent.toNat : ℕ) / (Nat.pow 10 (-d.exponent).toNat : ℕ) := by
  have hpow := pow_toNat (by norm_num : (10 : ℝ) ≠ 0) d.exponent
  change _ = ((d.digits * 10 ^ d.exponent.toNat : ℕ) : ℝ) / (10 ^ (-d.exponent).toNat : ℕ)
  push_cast
  rw [magnitude, hpow, ← mul_assoc, mul_div_cancel_right₀ _ (by positivity)]

/-- A decimal within reach is read as the number nearest to its value. -/
theorem bits_eq_bitsOf (f : Format) (hlo : (10 : ℝ) ^ (-reach) ≤ d.magnitude)
    (hhi : d.magnitude < 10 ^ reach) : d.bits f = f.bitsOf d.magnitude + f.signPart d.negative := by
  have hmagnitude : 0 < d.magnitude := lt_of_lt_of_le (by positivity) hlo
  have hd : d.digits ≠ 0 := fun h => hmagnitude.ne' (magnitude_eq_zero.mpr h)
  obtain ⟨hbelow, habove⟩ := magnitude_bounds hd
  have hleading : ¬reach < d.exponent + (Nat.toDigits 10 d.digits).length := by
    have := (zpow_lt_zpow_iff_right₀ (by norm_num)).mp (hbelow.trans_lt hhi)
    omega
  have hleading' : ¬d.exponent + (Nat.toDigits 10 d.digits).length < -reach := by
    have := (zpow_lt_zpow_iff_right₀ (by norm_num)).mp (hlo.trans_lt habove)
    omega
  rw [bits]
  simp only [if_neg hd, if_neg hleading, if_neg hleading']
  have hnum : 0 < d.digits * Nat.pow 10 d.exponent.toNat :=
    Nat.mul_pos (Nat.pos_of_ne_zero hd) (Nat.pow_pos (by decide))
  have hden : 0 < Nat.pow 10 (-d.exponent).toNat := Nat.pow_pos (by decide)
  rw [Format.ratioBits_eq_bitsOf hnum hden, ← magnitude_eq_div, Format.signPart]

lemma bits_of_digits_eq_zero (f : Format) (hd : d.digits = 0) : d.bits f = f.signPart d.negative := by
  rw [bits]
  simp only [if_pos hd, Nat.zero_add, Format.signPart]

/-! ### Texts -/

/-- How the magnitude of a decimal is written: as an integer, or with a point in front of the
digits of a fraction. -/
inductive Spells (d : Decimal) : List Char → Prop where
  | integer {whole : List Char} : AreDigits whole → (ofDigits whole : ℝ) = d.magnitude →
      Spells d whole
  | fraction {whole fraction : List Char} : AreDigits whole → (∀ c ∈ fraction, isDigit c = true) →
      ofDigits (whole ++ fraction) = d.digits → d.exponent = -fraction.length →
      Spells d (whole ++ '.' :: fraction)

variable {text : List Char}

lemma Spells.mem (h : d.Spells text) {c : Char} (hc : c ∈ text) : c = '.' ∨ isDigit c = true := by
  cases h with
  | integer hwhole _ => exact Or.inr (hwhole.2 c hc)
  | fraction hwhole hfraction _ _ =>
    rcases List.mem_append.mp hc with hc | hc
    · exact Or.inr (hwhole.2 c hc)
    · exact (List.mem_cons.mp hc).imp_right (hfraction c)

/-- The first character of a decimal is a digit. -/
lemma Spells.exists_cons (h : d.Spells text) :
    ∃ c rest, text = c :: rest ∧ isDigit c = true := by
  have hcons {whole : List Char} (hwhole : AreDigits whole) (behind : List Char) :
      ∃ c rest, whole ++ behind = c :: rest ∧ isDigit c = true := by
    obtain ⟨c, whole, rfl⟩ := List.exists_cons_of_ne_nil hwhole.1
    exact ⟨c, whole ++ behind, rfl, hwhole.2 c List.mem_cons_self⟩
  cases h with
  | integer hwhole _ => exact text.append_nil ▸ hcons hwhole []
  | fraction hwhole _ _ _ => exact hcons hwhole _

lemma spells_append_zeros (he : 0 ≤ d.exponent) : d.Spells (Nat.toDigits 10 d.digits ++
    List.replicate (if d.digits = 0 then 0 else d.exponent.toNat) '0') := by
  obtain ⟨hne, hdigits⟩ := areDigits_toDigits d.digits
  refine .integer ⟨List.append_ne_nil_of_left_ne_nil hne _, fun c hc => ?_⟩ ?_
  · rcases List.mem_append.mp hc with hc | hc
    · exact hdigits c hc
    · rw [List.eq_of_mem_replicate hc]
      rfl
  · rw [ofDigits_append_zeros, ofDigits_toDigits, magnitude]
    split_ifs with hd
    · simp [hd]
    · rw [Nat.cast_mul, Nat.cast_pow, ← zpow_natCast, Int.toNat_of_nonneg he, Nat.cast_ofNat]

/-- Enough zeros in front leave a digit before the point. -/
lemma spells_point (he : d.exponent < 0) {padded : List Char}
    (hpadded : padded = List.replicate ((-d.exponent).toNat + 1 - (Nat.toDigits 10 d.digits).length)
      '0' ++ Nat.toDigits 10 d.digits) :
    d.Spells (padded.take (padded.length - (-d.exponent).toNat) ++
      '.' :: padded.drop (padded.length - (-d.exponent).toNat)) := by
  have hlength : (-d.exponent).toNat < padded.length := by
    rw [hpadded, List.length_append, List.length_replicate]
    omega
  have hdigits : ∀ c ∈ padded, isDigit c = true := by
    intro c hc
    rcases List.mem_append.mp (hpadded ▸ hc) with hc | hc
    · rw [List.eq_of_mem_replicate hc]
      rfl
    · exact (areDigits_toDigits d.digits).2 c hc
  refine .fraction ⟨?_, fun c hc => hdigits c (List.mem_of_mem_take hc)⟩
    (fun c hc => hdigits c (List.mem_of_mem_drop hc)) ?_ ?_
  · rw [← List.length_pos_iff, List.length_take]
    omega
  · rw [List.take_append_drop, hpadded, ofDigits_zeros_append, ofDigits_toDigits]
  · rw [List.length_drop]
    omega

/-- A sign stands in front of the magnitude. -/
lemma exists_positional (d : Decimal) : ∃ text, d.Spells text ∧
    d.positional.toList = if d.negative then '-' :: text else text := by
  refine ⟨_, ?_, String.toList_ofList⟩
  dsimp only
  by_cases he : 0 ≤ d.exponent
  · rw [if_pos he]
    exact spells_append_zeros he
  · rw [if_neg he]
    exact spells_point (not_le.mp he) rfl

lemma mem_positional {c : Char} (hc : c ∈ d.positional.toList) :
    c = '-' ∨ c = '.' ∨ isDigit c = true := by
  obtain ⟨text, hspells, htext⟩ := d.exists_positional
  rw [htext] at hc
  split_ifs at hc
  · exact (List.mem_cons.mp hc).imp_right hspells.mem
  · exact Or.inr (hspells.mem hc)

lemma span_isDigit {cs : List Char} (h : ∀ c ∈ cs, isDigit c = true) (rest : List Char)
    (hrest : rest.takeWhile isDigit = []) (hrest' : rest.dropWhile isDigit = rest) :
    (cs ++ rest).span isDigit = (cs, rest) := by
  rw [List.span_eq_takeWhile_dropWhile, List.takeWhile_append_of_pos h, hrest,
    List.dropWhile_append_of_pos h, hrest', List.append_nil]

/-- What is written is read as a decimal of the same magnitude. -/
lemma Spells.exists_readMagnitude? (h : d.Spells text) (negative : Bool) :
    ∃ d', readMagnitude? negative text = some d' ∧ d'.negative = negative ∧
      d'.magnitude = d.magnitude := by
  cases h with
  | integer hwhole hvalue =>
    have hspan : text.span isDigit = (text, []) := by
      simpa using span_isDigit hwhole.2 [] rfl rfl
    have hempty : text.isEmpty = false := by simpa using hwhole.1
    refine ⟨⟨negative, ofDigits text, 0⟩, ?_, rfl, ?_⟩
    · rw [readMagnitude?, hspan]
      simp [hempty, readExponent?]
    · rw [← hvalue, magnitude, zpow_zero, mul_one]
  | @fraction whole fraction hwhole hfraction hdigits hexponent =>
    have hspan : (whole ++ '.' :: fraction).span isDigit = (whole, '.' :: fraction) :=
      span_isDigit hwhole.2 _ rfl rfl
    have hspan' : fraction.span isDigit = (fraction, []) := by
      simpa using span_isDigit hfraction [] rfl rfl
    have hempty : whole.isEmpty = false := by simpa using hwhole.1
    refine ⟨⟨negative, d.digits, d.exponent⟩, ?_, rfl, rfl⟩
    rw [readMagnitude?, hspan]
    simp only [hspan']
    simp [hempty, readExponent?, hdigits, hexponent]

end Decimal

/-! ### Reading a number -/

lemma lowerAscii_of_isDigit {c : Char} (h : isDigit c = true) : lowerAscii c = c := by
  rw [isDigit, Bool.and_eq_true, decide_eq_true_eq, decide_eq_true_eq] at h
  refine if_neg fun hc => ?_
  rw [Bool.and_eq_true, decide_eq_true_eq] at hc
  exact absurd (hc.1.trans h.2) (by decide)

/-- A text that begins with a digit is not one of the words. -/
lemma word_ne {c : Char} (h : isDigit c = true) (rest : List Char) {c' : Char} {word : List Char}
    (hc' : isDigit c' = false) : String.ofList ((c :: rest).map lowerAscii) ≠
      String.ofList (c' :: word) := by
  intro heq
  rw [String.ofList_inj, List.map_cons, List.cons.injEq, lowerAscii_of_isDigit h] at heq
  rw [heq.1, hc'] at h
  contradiction

/-- A written decimal is read as one of the same sign and magnitude. -/
theorem exists_readBits?_positional (f : Format) (d : Decimal) :
    ∃ d' : Decimal, readBits? f d.positional.toList = some (d'.bits f) ∧
      d'.negative = d.negative ∧ d'.magnitude = d.magnitude := by
  obtain ⟨text, hspells, htext⟩ := d.exists_positional
  obtain ⟨d', hread, hnegative, hmagnitude⟩ := hspells.exists_readMagnitude? d.negative
  obtain ⟨c, rest, rfl, hc⟩ := hspells.exists_cons
  have hsign : splitSign d.positional.toList = (d.negative, c :: rest) := by
    rw [htext]
    cases d.negative with
    | true => rfl
    | false => exact splitSign_of_isDigit hc rest
  have hinf : String.ofList ((c :: rest).map lowerAscii) ≠ "inf" := word_ne hc rest (by decide)
  have hinfinity : String.ofList ((c :: rest).map lowerAscii) ≠ "infinity" :=
    word_ne hc rest (by decide)
  have hnan : String.ofList ((c :: rest).map lowerAscii) ≠ "nan" := word_ne hc rest (by decide)
  refine ⟨d', ?_, hnegative, hmagnitude⟩
  rw [readBits?, hsign]
  dsimp only
  rw [if_neg (not_or.mpr ⟨hinf, hinfinity⟩), if_neg hnan, hread, Option.map_some]

end Terrain.Number
