import Mathlib.Tactic
import Terrain.Base64

/-!
# Reading encoded bytes

A reader takes a whole group of symbols at a time: it starts one with no bits that wait and ends it
with none. So the written form of any bytes is read as these bytes.
-/

namespace Terrain.Base64

/-! ### Symbols -/

/-- The byte of the symbol of a number. -/
def symbolByte (n : Nat) : UInt8 := UInt8.ofNat (symbol n).toNat

/-- What is written for a number is one byte, which is not that of the padding, and the number is
read from it. -/
lemma symbol_table : ∀ n < 64, String.utf8EncodeChar (symbol n) = [symbolByte n] ∧
    symbolByte n ≠ padByte ∧ value? (symbolByte n) = some n := by
  decide +kernel

/-- The bytes of a text. -/
def octets (text : List Char) : List UInt8 := text.flatMap String.utf8EncodeChar

/-! ### Texts -/

lemma encodeOnto_eq : ∀ (written : List Char) (bytes : List UInt8),
    encodeOnto written bytes = written.reverse ++ encode bytes
  | written, a :: b :: c :: rest => by
    rw [encode, encodeOnto, encodeOnto, encodeOnto_eq _ rest, encodeOnto_eq _ rest]
    simp
  | written, [a, b] => List.append_assoc ..
  | written, [a] => List.append_assoc ..
  | written, [] => (List.append_nil _).symm

lemma encode_cons (a b c : UInt8) (rest : List UInt8) :
    encode (a :: b :: c :: rest) = group a b c ++ encode rest := by
  rw [encode, encodeOnto, encodeOnto_eq, List.append_nil, List.reverse_reverse]

lemma length_encode : ∀ bytes : List UInt8, (encode bytes).length = 4 * ((bytes.length + 2) / 3)
  | a :: b :: c :: rest => by
    rw [encode_cons, List.length_append, length_encode rest, List.length_cons, List.length_cons,
      List.length_cons]
    change 4 + _ = _
    omega
  | [_, _] | [_] => by simp [encode, encodeOnto, group]
  | [] => rfl

/-- A character of the written form: the symbol of a number, or padding. -/
def IsWritten (c : Char) : Prop := c = padding ∨ ∃ n < 64, c = symbol n

lemma isWritten_of_mem_group {c : Char} {x y z : UInt8} (h : c ∈ group x y z) : IsWritten c := by
  have hx := x.toNat_lt
  have hy := y.toNat_lt
  have hz := z.toNat_lt
  simp only [group, List.mem_cons, List.not_mem_nil, or_false] at h
  obtain h | h | h | h := h
  all_goals exact .inr ⟨_, by omega, h⟩

lemma isWritten_of_mem_encode {c : Char} : ∀ {bytes : List UInt8}, c ∈ encode bytes → IsWritten c
  | x :: y :: z :: rest, h => by
    rw [encode_cons, List.mem_append] at h
    exact h.elim isWritten_of_mem_group isWritten_of_mem_encode
  | [x, y], h => by
    rcases List.mem_append.mp h with h | h
    · exact isWritten_of_mem_group (List.mem_of_mem_take h)
    · exact .inl (List.mem_singleton.mp h)
  | [x], h => by
    rcases List.mem_append.mp h with h | h
    · exact isWritten_of_mem_group (List.mem_of_mem_take h)
    · exact .inl (by simpa using h)

/-- Every character of the written form is one byte. -/
lemma length_octets {text : List Char} (h : ∀ c ∈ text, IsWritten c) :
    (octets text).length = text.length := by
  induction text with
  | nil => rfl
  | cons c text ih =>
    rw [List.forall_mem_cons] at h
    have hone : (String.utf8EncodeChar c).length = 1 := by
      obtain rfl | ⟨n, hn, rfl⟩ := h.1
      · rfl
      · rw [(symbol_table n hn).1]
        rfl
    rw [octets, List.flatMap_cons, List.length_append, hone, ← octets, ih h.2, List.length_cons,
      Nat.add_comm]

/-! ### Groups -/

namespace Reader

/-- A reader between two groups. -/
def between (groups : Nat) (last : UInt8) (bytes : List UInt8) : Reader :=
  ⟨4 * groups, last, 0, 0, 0, 0, bytes⟩

variable {rest : List UInt8} {r : Reader}

/-- Takes a symbol as the reader does when no padding has come before it. -/
def take (r : Reader) (n : Nat) : Reader :=
  { r.push n with offset := r.offset + 1, last := symbolByte n }

lemma foldlM_symbol {n : Nat} (text : List Char) (hn : n < 64) (hr : r.paddings = 0) :
    (octets (symbol n :: text)).foldlM step r = (octets text).foldlM step (r.take n) := by
  obtain ⟨hbyte, hpad, hvalue⟩ := symbol_table n hn
  have hstep : step r (symbolByte n) = .ok (r.take n) := by
    rw [step, if_neg hpad, if_neg (by omega), hvalue]
    rfl
  rw [octets, List.flatMap_cons, hbyte, List.singleton_append, List.foldlM_cons, hstep]
  rfl

/-- The first two symbols of a group give its first byte, and leave four bits of the second. -/
lemma take_take_between (groups : Nat) (last : UInt8) (bytes : List UInt8) (a b : UInt8) :
    ((between groups last bytes).take (a.toNat / 4)).take (a.toNat % 4 * 16 + b.toNat / 16) =
      ⟨4 * groups + 2, symbolByte (a.toNat % 4 * 16 + b.toNat / 16), 0, 0, b.toNat / 16, 4,
        a :: bytes⟩ := by
  have hb := b.toNat_lt
  have hbyte : (a.toNat / 4 * 64 + (a.toNat % 4 * 16 + b.toNat / 16)) / 16 = a.toNat := by omega
  have hrest : (a.toNat / 4 * 64 + (a.toNat % 4 * 16 + b.toNat / 16)) % 16 = b.toNat / 16 := by
    omega
  simp [take, push, between, Nat.shiftRight_eq_div_pow, hbyte, hrest]

lemma take_four (groups : Nat) (last : UInt8) (bytes : List UInt8) (b c : UInt8) :
    take ⟨4 * groups + 2, last, 0, 0, b.toNat / 16, 4, bytes⟩ (b.toNat % 16 * 4 + c.toNat / 64) =
      ⟨4 * groups + 3, symbolByte (b.toNat % 16 * 4 + c.toNat / 64), 0, 0, c.toNat / 64, 2,
        b :: bytes⟩ := by
  have hc := c.toNat_lt
  have hbyte : (b.toNat / 16 * 64 + (b.toNat % 16 * 4 + c.toNat / 64)) / 4 = b.toNat := by omega
  have hrest : (b.toNat / 16 * 64 + (b.toNat % 16 * 4 + c.toNat / 64)) % 4 = c.toNat / 64 := by
    omega
  simp [take, push, Nat.shiftRight_eq_div_pow, hbyte, hrest]

lemma take_two (groups : Nat) (last : UInt8) (bytes : List UInt8) (c : UInt8) :
    take ⟨4 * groups + 3, last, 0, 0, c.toNat / 64, 2, bytes⟩ (c.toNat % 64) =
      between (groups + 1) (symbolByte (c.toNat % 64)) (c :: bytes) := by
  have hbyte : c.toNat / 64 * 64 + c.toNat % 64 = c.toNat := by omega
  simp [take, push, between, hbyte, Nat.mod_one, Nat.mul_add]

lemma foldlM_group (text : List Char) (groups : Nat) (last : UInt8) (bytes : List UInt8)
    (a b c : UInt8) :
    (octets (group a b c ++ text)).foldlM step (between groups last bytes) =
      (octets text).foldlM step
        (between (groups + 1) (symbolByte (c.toNat % 64)) (c :: b :: a :: bytes)) := by
  have ha := a.toNat_lt
  have hb := b.toNat_lt
  have hc := c.toNat_lt
  simp only [group, List.cons_append, List.nil_append]
  rw [foldlM_symbol _ (by omega) rfl, foldlM_symbol _ (by omega) rfl, take_take_between,
    foldlM_symbol _ (by omega) rfl, take_four, foldlM_symbol _ (by omega) rfl, take_two]

lemma octets_padding (text : List Char) : octets (padding :: text) = padByte :: octets text := rfl

/-- Padding behind two symbols or three. -/
lemma step_padByte (h : 2 ≤ r.offset % 4) : step r padByte =
    .ok { r with
      offset := r.offset + 1
      paddings := r.paddings + 1
      firstPadding := if r.paddings = 0 then r.offset else r.firstPadding } := by
  rw [step, if_pos rfl, if_neg (by omega)]

/-- A last group of two bytes. -/
lemma finish_two (groups : Nat) (last : UInt8) (bytes : List UInt8) (a b : UInt8) :
    ((octets ((group a b 0).take 3 ++ [padding])).foldlM step (between groups last bytes) >>=
      finish) = .ok (bytes.reverse ++ [a, b]) := by
  have ha := a.toNat_lt
  have hb := b.toNat_lt
  have hzero : (0 : UInt8).toNat = 0 := rfl
  have hfour := take_four groups (symbolByte (a.toNat % 4 * 16 + b.toNat / 16)) (a :: bytes) b 0
  rw [hzero] at hfour
  simp only [group, List.take_succ_cons, List.take_zero, List.cons_append, List.nil_append, hzero]
  rw [foldlM_symbol _ (by omega) rfl, foldlM_symbol _ (by omega) rfl, take_take_between,
    foldlM_symbol _ (by omega) rfl, hfour, octets_padding, List.foldlM_cons,
    step_padByte (by dsimp only; omega)]
  change finish _ = _
  rw [finish, if_neg (by dsimp only; omega), if_neg (by simp)]
  simp

/-- A last group of one byte. -/
lemma finish_one (groups : Nat) (last : UInt8) (bytes : List UInt8) (a : UInt8) :
    ((octets ((group a 0 0).take 2 ++ [padding, padding])).foldlM step
      (between groups last bytes) >>= finish) = .ok (bytes.reverse ++ [a]) := by
  have ha := a.toNat_lt
  have hzero : (0 : UInt8).toNat = 0 := rfl
  have htwo := take_take_between groups last bytes a 0
  rw [hzero] at htwo
  simp only [group, List.take_succ_cons, List.take_zero, List.cons_append, List.nil_append, hzero]
  rw [foldlM_symbol _ (by omega) rfl, foldlM_symbol _ (by omega) rfl, htwo, octets_padding,
    List.foldlM_cons, step_padByte (by dsimp only; omega)]
  change (octets [padding]).foldlM step _ >>= finish = _
  rw [octets_padding, List.foldlM_cons, step_padByte (by dsimp only; omega)]
  change finish _ = _
  rw [finish, if_neg (by dsimp only; omega), if_neg (by simp)]
  simp

/-- The written form is read from the first group to the last. -/
lemma finish_foldlM : ∀ (groups : Nat) (last : UInt8) (done bytes : List UInt8),
    ((octets (encode bytes)).foldlM step (between groups last done) >>= finish) =
      .ok (done.reverse ++ bytes)
  | groups, last, done, a :: b :: c :: rest => by
    rw [encode_cons, foldlM_group, finish_foldlM]
    simp
  | groups, last, done, [a, b] => finish_two groups last done a b
  | groups, last, done, [a] => finish_one groups last done a
  | groups, last, done, [] => by
    change finish _ = _
    rw [finish, between, if_neg (by dsimp only; omega), if_neg (by simp), List.append_nil]

end Reader

/-- Reading undoes writing. -/
theorem decode_encode (bytes : List UInt8) : decode (octets (encode bytes)) = .ok bytes := by
  have hlength : ¬(octets (encode bytes)).length % 4 = 1 := by
    rw [length_octets fun c hc => isWritten_of_mem_encode hc, length_encode]
    omega
  rw [decode, if_neg hlength]
  exact Reader.finish_foldlM 0 0 [] bytes

end Terrain.Base64
