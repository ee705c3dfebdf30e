import Mathlib.Tactic
import Terrain.Blob.Bytes

/-!
# Reading back what was written

The bytes of a number give the number back, and a row of numbers of one size is read from the
places that it was written to.
-/

namespace Terrain.Bytes

/-- Bytes that follow do not matter. -/
lemma naturalAt_append {size place : Nat} {bytes : List UInt8} (h : place + size ≤ bytes.length)
    (tail : List UInt8) : naturalAt size place (bytes ++ tail) = naturalAt size place bytes := by
  rw [naturalAt, naturalAt, List.drop_append_of_le_length (by omega),
    List.take_append_of_le_length (by rw [List.length_drop]; omega)]

/-- Bytes that come before do not matter. -/
lemma naturalAt_length_add (size place : Nat) (front bytes : List UInt8) :
    naturalAt size (front.length + place) (front ++ bytes) = naturalAt size place bytes := by
  rw [naturalAt, naturalAt, List.drop_length_add_append]

lemma naturalAt_zero_append (front bytes : List UInt8) :
    naturalAt front.length 0 (front ++ bytes) = natural front := by
  rw [naturalAt, List.drop_zero, List.take_left']
  rfl

lemma natural_cons (b : UInt8) (bytes : List UInt8) :
    natural (b :: bytes) = b.toNat + 256 * natural bytes := rfl

/-- The first bytes of a natural write the natural up to the next power. -/
lemma natural_ofNatural (count n : Nat) : natural (ofNatural count n) = n % 256 ^ count := by
  induction count generalizing n with
  | zero => simp [ofNatural, natural, Nat.mod_one]
  | succ count ih =>
    rw [ofNatural, natural_cons, ih, UInt8.toNat_ofNat', pow_succ' 256, Nat.mod_mul]

lemma natural_ofNatural_of_lt {count n : Nat} (h : n < 256 ^ count) :
    natural (ofNatural count n) = n := by
  rw [natural_ofNatural, Nat.mod_eq_of_lt h]

lemma natural_lt (bytes : List UInt8) : natural bytes < 256 ^ bytes.length := by
  induction bytes with
  | nil => exact Nat.one_pos
  | cons b bytes ih =>
    have hb := b.toNat_lt
    rw [natural_cons, List.length_cons, pow_succ']
    omega

/-- Bytes are written again from the natural that they write. -/
lemma ofNatural_natural (bytes : List UInt8) : ofNatural bytes.length (natural bytes) = bytes := by
  induction bytes with
  | nil => rfl
  | cons b bytes ih =>
    have hfirst : UInt8.ofNat (natural (b :: bytes)) = b := by
      rw [natural_cons]
      refine UInt8.toNat_inj.mp ?_
      rw [UInt8.toNat_ofNat', Nat.add_mul_mod_self_left, Nat.mod_eq_of_lt b.toNat_lt]
    have hrest : natural (b :: bytes) / 256 = natural bytes := by
      have hb := b.toNat_lt
      rw [natural_cons]
      omega
    rw [List.length_cons, ofNatural, hfirst, hrest, ih]

/-! ### Rows of numbers -/

@[simp] lemma length_naturals (size : Nat) (bytes : List UInt8) :
    (naturals size bytes).length = bytes.length / size := by
  simp [naturals]

lemma getElem_naturals (size : Nat) (bytes : List UInt8) {i : Nat}
    (hi : i < (naturals size bytes).length) :
    (naturals size bytes)[i] = naturalAt size (size * i) bytes := by
  simp [naturals, naturalAt]

lemma take_naturals_append {size count : Nat} {bytes : List UInt8}
    (h : count ≤ bytes.length / size) (tail : List UInt8) :
    (naturals size (bytes ++ tail)).take count = (naturals size bytes).take count := by
  have hle : bytes.length / size ≤ (bytes ++ tail).length / size :=
    Nat.div_le_div_right (by simp)
  have hlength : ((naturals size (bytes ++ tail)).take count).length =
      ((naturals size bytes).take count).length := by
    rw [List.length_take, List.length_take, length_naturals, length_naturals,
      min_eq_left (h.trans hle), min_eq_left h]
  refine List.ext_getElem hlength fun i hi hi' => ?_
  have hcount : i + 1 ≤ bytes.length / size := by
    rw [List.length_take, length_naturals, min_eq_left h] at hi'
    omega
  have hend : size * i + size ≤ bytes.length := by
    rw [← Nat.mul_succ]
    exact (Nat.mul_le_mul_left size hcount).trans (Nat.mul_div_le _ _)
  rw [List.getElem_take, List.getElem_take, getElem_naturals, getElem_naturals,
    naturalAt_append hend]

/-- Pieces of one length are found at the multiples of that length. -/
lemma take_drop_flatMap {α β : Type} {f : α → List β} {size : Nat} (hf : ∀ a, (f a).length = size)
    (l : List α) {i : Nat} (hi : i < l.length) :
    ((l.flatMap f).drop (size * i)).take size = f l[i] := by
  induction l generalizing i with
  | nil => exact absurd hi (Nat.not_lt_zero i)
  | cons a l ih =>
    rw [List.flatMap_cons]
    cases i with
    | zero => simp [← hf a]
    | succ i =>
      have hstep : size * (i + 1) = (f a).length + size * i := by rw [hf, Nat.mul_succ, add_comm]
      rw [hstep, List.drop_length_add_append]
      exact ih (Nat.lt_of_succ_lt_succ hi)

lemma length_flatMap_of_length {α β : Type} {f : α → List β} {size : Nat}
    (hf : ∀ a, (f a).length = size) (l : List α) : (l.flatMap f).length = size * l.length := by
  induction l with
  | nil => rfl
  | cons a l ih => rw [List.flatMap_cons, List.length_append, ih, hf, List.length_cons]; ring

/-- Bytes are the row of their pieces of one length. -/
lemma flatMap_pieces {α : Type} (size count : Nat) (l : List α) :
    ((List.range count).flatMap fun i => (l.drop (size * i)).take size) = l.take (size * count) := by
  induction count with
  | zero => simp
  | succ count ih =>
    rw [List.range_succ, List.flatMap_append, ih, List.flatMap_singleton, Nat.mul_succ,
      List.take_add]

/-! ### Numbers of a fixed size -/

@[simp] lemma length_ofInt32 (n : Int32) : (ofInt32 n).length = 4 := length_ofNatural _ _

@[simp] lemma length_ofLowHalf (n : Int32) : (ofLowHalf n).length = 2 := length_ofNatural _ _

@[simp] lemma length_ofDouble (x : Float) : (ofDouble x).length = 8 := length_ofNatural _ _

@[simp] lemma int32_natural_ofInt32 (n : Int32) : int32 (natural (ofInt32 n)) = n := by
  rw [ofInt32, natural_ofNatural_of_lt n.toUInt32.toNat_lt, int32, UInt32.ofNat_toNat]
  rfl

lemma ofInt32_int32_natural {bytes : List UInt8} (h : bytes.length = 4) :
    ofInt32 (int32 (natural bytes)) = bytes := by
  have hlt := natural_lt bytes
  rw [h] at hlt
  have hword : (int32 (natural bytes)).toUInt32 = UInt32.ofNat (natural bytes) := rfl
  rw [ofInt32, hword, UInt32.toNat_ofNat_of_lt' hlt, ← h, ofNatural_natural]

lemma ofNat_natural_ofLowHalf (n : Int32) :
    UInt16.ofNat (natural (ofLowHalf n)) = n.toUInt32.toUInt16 := by
  rw [ofLowHalf, natural_ofNatural]
  exact UInt16.toNat_inj.mp (by simp)

/-- The low half of an integer comes back with its sign. -/
lemma lowHalf_natural_ofLowHalf (n : Int32) :
    lowHalf (natural (ofLowHalf n)) = n.toInt16.toInt32 := by
  have hsign : n.toUInt32.toUInt16.toInt16 = n.toInt16 := by
    apply Int16.toBitVec_inj.mp
    ext i hi
    simp [BitVec.getElem_signExtend, show i < 32 by omega]
  rw [lowHalf, ofNat_natural_ofLowHalf, hsign]

/-- What was read with its sign has nothing beyond its low half. -/
lemma toInt32_toInt16_lowHalf (n : ℕ) : (lowHalf n).toInt16.toInt32 = lowHalf n := by
  rw [lowHalf, Int16.toInt16_toInt32]

/-- The low half of an integer that was read with its sign is what was read. -/
lemma ofLowHalf_lowHalf_natural {bytes : List UInt8} (h : bytes.length = 2) :
    ofLowHalf (lowHalf (natural bytes)) = bytes := by
  have hword (w : UInt16) : w.toInt16.toInt32.toUInt32.toUInt16 = w := by
    apply UInt16.toBitVec_inj.mp
    ext i hi
    simp [BitVec.getElem_signExtend, hi, show i < 32 by omega]
  have hlow : UInt16.ofNat (natural (ofLowHalf (lowHalf (natural bytes)))) =
      UInt16.ofNat (natural bytes) := by
    rw [ofNat_natural_ofLowHalf, lowHalf, hword]
  have hlt := natural_lt bytes
  have hlt' := natural_lt (ofLowHalf (lowHalf (natural bytes)))
  rw [length_ofLowHalf] at hlt'
  rw [h] at hlt
  have hsame := congrArg UInt16.toNat hlow
  rw [UInt16.toNat_ofNat_of_lt' hlt, UInt16.toNat_ofNat_of_lt' hlt'] at hsame
  have hwritten := ofNatural_natural (ofLowHalf (lowHalf (natural bytes)))
  rwa [length_ofLowHalf, hsame, ← h, ofNatural_natural, eq_comm] at hwritten

lemma natural_ofDouble (x : Float) : natural (ofDouble x) = x.toBits.toNat :=
  natural_ofNatural_of_lt x.toBits.toNat_lt

lemma double_natural_ofDouble {x : Float} (hx : Float.ofBits x.toBits = x) :
    double (natural (ofDouble x)) = x := by
  rw [natural_ofDouble, double, UInt64.ofNat_toNat, hx]

@[simp] lemma length_ofSingle (x : Float32) : (ofSingle x).length = 4 := length_ofNatural _ _

lemma single_natural_ofSingle {x : Float32} (hx : Float32.ofBits x.toBits = x) :
    single (natural (ofSingle x)) = x := by
  have hbits : natural (ofSingle x) = x.toBits.toNat := natural_ofNatural_of_lt x.toBits.toNat_lt
  rw [hbits, single, UInt32.ofNat_toNat, hx]

end Terrain.Bytes
