import Terrain.Proofs.Number.Monotone
import Terrain.Proofs.Number.Sum
import Terrain.Proofs.Number.Truncation

/-!
# The limits of numbers

What is not finite stays so when it is widened, and no operation makes something finite of it, so that
a finite result stands for the rounded result of the operation on reals (`Nearest.stands_of_isFinite`).
A number whose integer part is beyond the range of the stored integers is cut to the end of the range
that it lies behind, and so is what became infinite (`Nearest.truncate_eq`).
-/

namespace Terrain.Number

open Float.Model (UnpackedFloat)
open Float.Model.UnpackedFloat

variable {x y : Float} {r : ℝ}

/-! ### What is not finite -/

/-- A single that is not finite does not become finite when it is widened. -/
lemma not_isFinite_widen {x : Float32} (h : x.isFinite = false) : (widen x).isFinite = false := by
  have hfinite : x.toModel.unpack.isFinite = false := h
  rw [widen, ofSingle_eq]
  generalize x.toModel.unpack = u at hfinite
  cases u with
  | notANumber => decide
  | infinity s => cases s <;> decide
  | zero | finite => simp [UnpackedFloat.isFinite] at hfinite

/-- What is packed as something finite is finite. -/
lemma isFinite_of_pack {u : UnpackedFloat} (h : (Float.Model.pack u).unpack.isFinite = true) :
    u.isFinite = true := by
  cases u with
  | notANumber => exact absurd h (by decide)
  | infinity s => cases s <;> exact absurd h (by decide)
  | zero | finite => rfl

lemma isFinite_of_add (h : (x + y).isFinite = true) : x.isFinite = true ∧ y.isFinite = true := by
  have hsum : (add .binary64 x.toModel.unpack y.toModel.unpack).isFinite = true :=
    isFinite_of_pack h
  change x.toModel.unpack.isFinite = true ∧ y.toModel.unpack.isFinite = true
  generalize x.toModel.unpack = u at hsum ⊢
  generalize y.toModel.unpack = v at hsum ⊢
  cases u <;> cases v <;> simp [add, UnpackedFloat.isFinite] at hsum ⊢
  split_ifs at hsum

lemma isFinite_of_sub (h : (x - y).isFinite = true) : x.isFinite = true ∧ y.isFinite = true := by
  have hdiff : (sub .binary64 x.toModel.unpack y.toModel.unpack).isFinite = true :=
    isFinite_of_pack h
  change x.toModel.unpack.isFinite = true ∧ y.toModel.unpack.isFinite = true
  generalize x.toModel.unpack = u at hdiff ⊢
  generalize y.toModel.unpack = v at hdiff ⊢
  cases u <;> cases v <;> simp [sub, UnpackedFloat.isFinite] at hdiff ⊢
  split_ifs at hdiff

lemma isFinite_of_mul (h : (x * y).isFinite = true) : x.isFinite = true ∧ y.isFinite = true := by
  have hprod : (mul .binary64 x.toModel.unpack y.toModel.unpack).isFinite = true :=
    isFinite_of_pack h
  change x.toModel.unpack.isFinite = true ∧ y.toModel.unpack.isFinite = true
  generalize x.toModel.unpack = u at hprod ⊢
  generalize y.toModel.unpack = v at hprod ⊢
  cases u <;> cases v <;> simp [mul, UnpackedFloat.isFinite] at hprod ⊢

lemma isFinite_of_div (h : (x / y).isFinite = true) : x.isFinite = true := by
  have hquot : (div .binary64 x.toModel.unpack y.toModel.unpack).isFinite = true :=
    isFinite_of_pack h
  change x.toModel.unpack.isFinite = true
  generalize x.toModel.unpack = u at hquot ⊢
  generalize y.toModel.unpack = v at hquot ⊢
  cases u <;> cases v <;> simp [div, UnpackedFloat.isFinite] at hquot ⊢

lemma isFinite_of_sqrt (h : x.sqrt.isFinite = true) : x.isFinite = true := by
  have hroot : (sqrt .binary64 x.toModel.unpack).isFinite = true := isFinite_of_pack h
  change x.toModel.unpack.isFinite = true
  generalize x.toModel.unpack = u at hroot ⊢
  cases u with
  | infinity s => cases s <;> simp [sqrt, UnpackedFloat.isFinite] at hroot
  | notANumber => simp [sqrt, UnpackedFloat.isFinite] at hroot
  | zero | finite => rfl

/-- A sum with something that is not finite is not finite. -/
lemma not_isFinite_add (x : Float) {y : Float} (h : y.isFinite = false) :
    (x + y).isFinite = false :=
  Bool.eq_false_of_not_eq_true fun hsum =>
    absurd (isFinite_of_add hsum).2 (by rw [h]; exact Bool.false_ne_true)

/-! ### What is finite -/

lemma exists_stands (h : x.isFinite = true) : ∃ r, Stands x r := by
  have hfinite : x.toModel.unpack.isFinite = true := h
  simp only [Stands, ofDouble_eq]
  generalize x.toModel.unpack = u at hfinite
  cases u with
  | notANumber | infinity => simp [UnpackedFloat.isFinite] at hfinite
  | zero s => exact ⟨0, Format.denotes_zero s⟩
  | finite s m e hm => exact ⟨_, isNegative s, m, e, rfl, rfl⟩

lemma Stands.unique {a b : ℝ} (ha : Stands x a) (hb : Stands x b) : a = b := by
  obtain ⟨s, m, e, hx, rfl⟩ := ha
  obtain ⟨s', m', e', hx', rfl⟩ := hb
  rw [hx] at hx'
  cases hx'
  rfl

/-- A finite number that is nearest to a real stands for the rounded real. -/
lemma Nearest.stands_of_isFinite (h : Nearest x r) (hx : x.isFinite = true) :
    Stands x (double.round r) := by
  obtain ⟨a, s, m, e, heq, -⟩ := exists_stands hx
  rw [Nearest, heq] at h
  cases h with
  | finite h => rwa [Stands, heq]

/-- The real of a double is its own rounding. -/
lemma Stands.round_eq (h : Stands x r) : double.round r = r := by
  have hcanonical := isCanonical_double x
  rw [Stands, ofDouble_eq] at h
  rcases Format.denotes_ofUnpacked_cases h with ⟨s, -, rfl⟩ | ⟨s, m, e, hm, hu, rfl⟩
  · exact double.round_zero
  · rw [hu] at hcanonical
    rw [double.round_signed, double.round_mul_zpow hcanonical.lt hcanonical.le]

/-- A power of two that is not too small is its own rounding. -/
lemma round_two_zpow {k : ℤ} (hk : -1074 ≤ k) : double.round (2 ^ k) = 2 ^ k := by
  simpa using double.round_mul_zpow (m := 1) (by decide) hk

/-- A real up to a power of two is rounded to something up to it. -/
lemma abs_round_le_zpow {k : ℤ} (hk : -1074 ≤ k) (h : |r| ≤ 2 ^ k) : |double.round r| ≤ 2 ^ k := by
  rw [double.abs_round, ← round_two_zpow hk]
  exact double.round_mono h

/-- A real that is rounded to something below a power of two is below it itself. -/
lemma abs_lt_of_abs_round_lt {k : ℤ} (hk : -1074 ≤ k) (h : |double.round r| < 2 ^ k) :
    |r| < 2 ^ k := by
  refine lt_of_not_ge fun hle => h.not_ge ?_
  rw [double.abs_round, ← round_two_zpow hk]
  exact double.round_mono hle

/-- The largest double is below the next power of two. -/
lemma Stands.abs_lt (h : Stands x r) : |r| < 2 ^ (1024 : ℤ) := by
  obtain ⟨s, m, e, hx, rfl⟩ := h
  obtain ⟨⟨hm, he, hfull⟩, hplace, -⟩ :=
    Format.toNat_of_decode (f := double) (S := .binary64) (b := x.toBits.toBitVec) hx
  simp only [Format.place, Format.infinityBits, double] at hm he hfull hplace
  rw [abs_signed, abs_of_nonneg (by positivity)]
  calc (m : ℝ) * 2 ^ e < 2 ^ (53 : ℤ) * 2 ^ e := by
        gcongr
        exact_mod_cast (by omega : m < 2 ^ 53)
    _ = 2 ^ (53 + e) := by rw [zpow_add₀ (by norm_num)]
    _ ≤ 2 ^ (1024 : ℤ) := zpow_le_zpow_right₀ (by norm_num) (by omega)

/-! ### Roots with a bound -/

/-- Nothing is above what is not a number, nor above the positive infinity. -/
lemma not_lt_of_unpack {u : UnpackedFloat} (hx : x.toModel.unpack = u)
    (hu : u = .notANumber ∨ u = .infinity .positive) : ¬x < y := by
  intro h
  have hlt : UnpackedFloat.lt x.toModel.unpack y.toModel.unpack = true := of_decide_eq_true h
  rw [hx] at hlt
  generalize y.toModel.unpack = v at hlt
  rcases hu with rfl | rfl
  · simp [UnpackedFloat.lt, UnpackedFloat.compare] at hlt
  · cases v with
    | infinity s => cases s <;> simp [UnpackedFloat.lt, UnpackedFloat.compare] at hlt
    | notANumber | zero | finite => simp [UnpackedFloat.lt, UnpackedFloat.compare] at hlt

lemma Stands.isFinite_sqrt (h : Stands x r) (h0 : 0 ≤ r) : x.sqrt.isFinite = true := by
  have hlt : r < (2 ^ (1023 : ℤ)) ^ 2 :=
    calc r ≤ |r| := le_abs_self r
      _ < 2 ^ (1024 : ℤ) := h.abs_lt
      _ ≤ (2 ^ (1023 : ℤ)) ^ 2 := by
        rw [← zpow_natCast, ← zpow_mul]
        exact zpow_le_zpow_right₀ (by norm_num) (by norm_num)
  have hsmall : |√r| < 2 ^ (1023 : ℤ) := by
    rw [abs_of_nonneg (Real.sqrt_nonneg r)]
    exact (Real.sqrt_lt' (by positivity)).mpr hlt
  exact ((h.nearest_sqrt h0).stands hsmall).isFinite

lemma unpack_sqrt (x : Float) :
    x.sqrt.toModel.unpack = (Float.Model.pack (sqrt .binary64 x.toModel.unpack)).unpack := rfl

/-- A negative number has no root. -/
lemma Stands.unpack_sqrt_of_neg (h : Stands x r) (hneg : r < 0) :
    x.sqrt.toModel.unpack = .notANumber := by
  rw [Stands, ofDouble_eq] at h
  rcases Format.denotes_ofUnpacked_cases h with ⟨s, -, rfl⟩ | ⟨s, m, e, hm, hu, rfl⟩
  · exact absurd hneg (lt_irrefl 0)
  · cases s with
    | positive =>
      rw [isNegative, signed_false] at hneg
      exact absurd hneg (not_lt.mpr (by positivity))
    | negative =>
      rw [unpack_sqrt, hu, sqrt]
      rfl

/-- The root of what is not finite is not the negative infinity. -/
lemma unpack_sqrt_of_not_isFinite (hx : ¬x.isFinite = true) :
    x.sqrt.toModel.unpack = .notANumber ∨ x.sqrt.toModel.unpack = .infinity .positive := by
  replace hx : ¬x.toModel.unpack.isFinite = true := hx
  rw [unpack_sqrt]
  cases hu : x.toModel.unpack with
  | notANumber => exact .inl rfl
  | infinity s =>
    cases s with
    | positive => exact .inr rfl
    | negative => exact .inl rfl
  | zero | finite => exact absurd rfl (hu ▸ hx)

/-- A root that is below something is finite. -/
lemma isFinite_of_sqrt_lt (h : x.sqrt < y) : x.sqrt.isFinite = true := by
  by_cases hx : x.isFinite = true
  · obtain ⟨a, ha⟩ := exists_stands hx
    rcases le_or_gt 0 a with h0 | hneg
    · exact ha.isFinite_sqrt h0
    · exact absurd h (not_lt_of_unpack (ha.unpack_sqrt_of_neg hneg) (.inl rfl))
  · exact absurd h (not_lt_of_unpack rfl (unpack_sqrt_of_not_isFinite hx))

/-! ### Integer parts of any size -/

namespace Binary

variable {b : Binary} {n : ℤ}

/-- The integer part of a finite number, however large it is. -/
def whole? : Binary → Option ℤ
  | .finite negative m e => some (withSign negative (integerPart m e))
  | _ => none

/-- The number is beyond the largest stored integer. -/
def Overflows : Binary → Prop
  | .nan => False
  | .infinite negative => negative = false
  | .finite negative m e => 2 ^ 31 ≤ withSign negative (integerPart m e)

/-- The number is below the smallest stored integer. -/
def Underflows : Binary → Prop
  | .nan => False
  | .infinite negative => negative = true
  | .finite negative m e => withSign negative (integerPart m e) < -2 ^ 31

/-- The number is beyond one of the ends of the range of the stored integers. -/
def Saturates (b : Binary) : Prop := b.Overflows ∨ b.Underflows

lemma overflows_iff_of_whole? (h : b.whole? = some n) : b.Overflows ↔ 2 ^ 31 ≤ n := by
  cases b with
  | nan => cases h
  | infinite negative => cases h
  | finite negative m e =>
    cases h
    exact Iff.rfl

lemma toInt_toInt32_of_whole? (h : b.whole? = some n) :
    b.toInt32.toInt = max (-2 ^ 31) (min n (2 ^ 31 - 1)) := by
  cases b with
  | nan => cases h
  | infinite negative => cases h
  | finite negative m e =>
    cases h
    exact toInt_ofIntClamp _

lemma toInt_toInt32_of_overflows (h : b.Overflows) : b.toInt32.toInt = 2 ^ 31 - 1 := by
  cases b with
  | nan => cases h
  | infinite negative =>
    cases h
    decide
  | finite negative m e =>
    have hwhole := toInt_toInt32_of_whole? (b := .finite negative m e) rfl
    rw [Overflows] at h
    omega

lemma toInt_toInt32_of_underflows (h : b.Underflows) : b.toInt32.toInt = -2 ^ 31 := by
  cases b with
  | nan => cases h
  | infinite negative =>
    cases h
    decide
  | finite negative m e =>
    have hwhole := toInt_toInt32_of_whole? (b := .finite negative m e) rfl
    rw [Underflows] at h
    omega

end Binary

/-! ### Numbers cut to integers -/

lemma toInt_ofIntClamp_mono {a b : ℤ} (h : a ≤ b) :
    (Int32.ofIntClamp a).toInt ≤ (Int32.ofIntClamp b).toInt := by
  rw [toInt_ofIntClamp, toInt_ofIntClamp]
  omega

/-- The nearest number to a real, cut to an integer. -/
lemma Nearest.truncate_eq (h : Nearest x r) :
    truncate x = Int32.ofIntClamp (towardZero (double.round r)) := by
  rw [Nearest] at h
  rw [truncate]
  generalize ofDouble x = b at h
  cases h with
  | finite h => exact h.toInt32_eq
  | infinite s h =>
    -- the real lies far behind the end of the range, and so does its rounding
    have hexponent : double.minExponent + double.fields + double.precision - 4 = 1023 := by decide
    rw [hexponent] at h
    have hrange : ((2 ^ 31 : ℤ) : ℝ) ≤ 2 ^ (1023 : ℤ) :=
      calc ((2 ^ 31 : ℤ) : ℝ) = 2 ^ (31 : ℤ) := by norm_num
        _ ≤ 2 ^ (1023 : ℤ) := zpow_le_zpow_right₀ (by norm_num) (by norm_num)
    have hround := double.round_mono h
    rw [round_two_zpow (by norm_num), double.round_signed] at hround
    have hsigned := hrange.trans hround
    apply Int32.toInt_inj.mp
    rw [toInt_ofIntClamp]
    cases s with
    | false =>
      have htruncated := towardZero_mono hsigned
      rw [towardZero_intCast, signed_false] at htruncated
      have hmax : (Binary.toInt32 (.infinite false)).toInt = 2 ^ 31 - 1 := by decide
      omega
    | true =>
      rw [signed_true] at hsigned
      have hbelow : double.round r ≤ (-2 ^ 31 : ℤ) := by
        push_cast at hsigned ⊢
        linarith
      have htruncated := towardZero_mono hbelow
      rw [towardZero_intCast] at htruncated
      have hmin : (Binary.toInt32 (.infinite true)).toInt = -2 ^ 31 := by decide
      omega

end Terrain.Number
