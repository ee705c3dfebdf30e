import Mathlib.Algebra.Order.Floor.Div
import Mathlib.Data.Finset.Sort
import Terrain.Error
import Terrain.Proofs.Bitset.Lowest

/-!
# Bit sets as finite sets

The same calls can be made on a set of bits and on a finite set of naturals. On the finite set each of
them is what its name says, and the only bound is the number of bits in whole words. Started with
nothing in either, one call after the other gives the same replies on both sides (`run_refines_finset`),
the calls that fail included: masks, complements and the bits beyond the length are not to be seen.
-/

namespace Terrain

/-! ### Calls -/

/-- What can be asked of a set of bits. -/
inductive BitCall where
  | get (i : Nat)
  | insert (i : Nat)
  | erase (i : Nat)
  | take (i : Nat)
  | fill (value : Bool)
  | count
  | drain

/-- What a call replies. -/
inductive BitReply where
  | done
  | bit (isSet : Bool)
  | number (n : Nat)
  | bits (list : List Nat)

/-- How many bits there are in the words of a set with the given length. -/
def Bitset.capacity (length : Nat) : Nat := wordBits * (length ⌈/⌉ wordBits)

namespace BitCall

/-- What a call replies on a set of bits, and the set after it. -/
def onBits (s : Bitset) : BitCall → Except Error (BitReply × Bitset)
  | get i => (fromStorage (s.get? i)).map fun isSet => (.bit isSet, s)
  | insert i => (fromStorage (s.insert? i)).map fun s => (.done, s)
  | erase i => (fromStorage (s.erase? i)).map fun s => (.done, s)
  | take i => (fromStorage (s.take? i)).map fun (wasSet, s) => (.bit wasSet, s)
  | fill value => .ok (.done, if value then s.fill else s.clear)
  | count => .ok (.number s.count, s)
  | drain => .ok (.bits s.drain.1, s.drain.2)

/-- A reply about a member is given if there is room for it. -/
def about {α : Type} (length i : Nat) (reply : α) : Except Error α :=
  if i < Bitset.capacity length then .ok reply else .error .outOfStorage

/-- What a call replies on a finite set, and the set after it. -/
def onFinset (length : Nat) (members : Finset Nat) : BitCall → Except Error (BitReply × Finset Nat)
  | get i => about length i (.bit (i ∈ members), members)
  | insert i => about length i (.done, Insert.insert i members)
  | erase i => about length i (.done, members.erase i)
  | take i => about length i (.bit (i ∈ members), members.erase i)
  | fill value => .ok (.done, if value then .range length else ∅)
  | count => .ok (.number members.card, members)
  | drain => .ok (.bits members.sort, ∅)

/-- The replies to one call after another, and what is left. A call that fails leaves what it found. -/
def run {σ : Type} (reply : σ → BitCall → Except Error (BitReply × σ)) (s : σ) :
    List BitCall → List (Except Error BitReply) × σ
  | [] => ([], s)
  | c :: rest =>
    match reply s c with
    | .ok (r, s') => ((run reply s' rest).1.cons (.ok r), (run reply s' rest).2)
    | .error e => ((run reply s rest).1.cons (.error e), (run reply s rest).2)

end BitCall

namespace Bitset

variable {s : Bitset} {length i : Nat} {members : Finset Nat}

/-! ### Bits as members -/

lemma reaches_iff_lt_capacity : s.Reaches i ↔ i < capacity s.length := by
  rw [Reaches, s.size_words, wordCount, capacity, Nat.ceilDiv_eq_add_pred_div,
    Nat.div_lt_iff_lt_mul (by decide), Nat.mul_comm]

/-- A set of bits of the given length has just the given members. -/
structure Represents (s : Bitset) (length : Nat) (members : Finset Nat) : Prop where
  length_eq : s.length = length
  mem_iff : ∀ i, i ∈ members ↔ s.get? i = some true

lemma Represents.reaches_iff (h : s.Represents length members) :
    s.Reaches i ↔ i < capacity length := by
  rw [reaches_iff_lt_capacity, h.length_eq]

lemma Represents.get?_eq (h : s.Represents length members) (hi : i < capacity length) :
    s.get? i = some (decide (i ∈ members)) := by
  have hget := get?_eq_some (h.reaches_iff.mpr hi)
  rw [hget, Option.some_inj, Bool.eq_iff_iff, decide_eq_true_eq, h.mem_iff, hget, Option.some_inj]

lemma Represents.toList_eq (h : s.Represents length members) : s.toList = members.sort := by
  refine List.Pairwise.eq_of_mem_iff s.pairwise_toList members.sortedLT_sort.pairwise fun i => ?_
  rw [mem_toList, Finset.mem_sort, h.mem_iff]

lemma Represents.count_eq (h : s.Represents length members) : s.count = members.card := by
  rw [← length_toList, h.toList_eq, Finset.length_sort]

/-! ### Counting word by word -/

lemma represents_empty (length_lt : length + wordBits < lengthCount) :
    (empty length length_lt).Represents length ∅ where
  length_eq := rfl
  mem_iff := by simp [get?_empty_ne_true]

lemma represents_clear (h : s.length = length) : s.clear.Represents length ∅ :=
  h ▸ represents_empty s.length_lt

lemma represents_fill (h : s.length = length) : s.fill.Represents length (.range length) where
  length_eq := h
  mem_iff := by
    intro i
    rw [Finset.mem_range, ← h]
    constructor
    · exact get?_fill
    · exact within_fill s i

lemma Represents.insert (h : s.Represents length members) (hi : i < capacity length) :
    (s.insert i).Represents length (Insert.insert i members) where
  length_eq := h.length_eq
  mem_iff := by
    intro j
    rw [Finset.mem_insert, h.mem_iff, get?_insert_iff]
    constructor
    · rintro (rfl | hj)
      · exact .inr ⟨rfl, h.reaches_iff.mpr hi⟩
      · exact .inl hj
    · rintro (hj | ⟨rfl, -⟩)
      · exact .inr hj
      · exact .inl rfl

lemma Represents.erase (h : s.Represents length members) (i : Nat) :
    (s.erase i).Represents length (members.erase i) where
  length_eq := h.length_eq
  mem_iff := by
    intro j
    rw [Finset.mem_erase, h.mem_iff, get?_erase_iff, and_comm, ne_comm]

/-- The same reply, or the same failure, and what is left represents what is left. -/
inductive Agree (length : Nat) :
    Except Error (BitReply × Bitset) → Except Error (BitReply × Finset Nat) → Prop
  | ok (r : BitReply) {s : Bitset} {members : Finset Nat} (h : s.Represents length members) :
    Agree length (.ok (r, s)) (.ok (r, members))
  | error (e : Error) : Agree length (.error e) (.error e)

/-- One call. -/
lemma Represents.agree (h : s.Represents length members) (c : BitCall) :
    Agree length (c.onBits s) (c.onFinset length members) := by
  cases c with
  | get i =>
    simp only [BitCall.onBits, BitCall.onFinset, BitCall.about]
    split_ifs with hi
    · rw [h.get?_eq hi]
      exact .ok _ h
    · rw [get?_of_not_reaches (mt h.reaches_iff.mp hi)]
      exact .error _
  | insert i =>
    simp only [BitCall.onBits, BitCall.onFinset, BitCall.about, insert?, h.reaches_iff]
    split_ifs with hi
    · exact .ok _ (h.insert hi)
    · exact .error _
  | erase i =>
    simp only [BitCall.onBits, BitCall.onFinset, BitCall.about, erase?, h.reaches_iff]
    split_ifs with hi
    · exact .ok _ (h.erase i)
    · exact .error _
  | take i =>
    simp only [BitCall.onBits, BitCall.onFinset, BitCall.about, take?]
    split_ifs with hi
    · rw [h.get?_eq hi]
      exact .ok _ (h.erase i)
    · rw [get?_of_not_reaches (mt h.reaches_iff.mp hi)]
      exact .error _
  | fill value =>
    cases value with
    | false => exact .ok _ (represents_clear h.length_eq)
    | true => exact .ok _ (represents_fill h.length_eq)
  | count =>
    rw [BitCall.onBits, BitCall.onFinset, h.count_eq]
    exact .ok _ h
  | drain =>
    rw [BitCall.onBits, BitCall.onFinset, drain, h.toList_eq]
    exact .ok _ (represents_clear h.length_eq)

/-- One call after another. -/
lemma Represents.run (h : s.Represents length members) (calls : List BitCall) :
    (BitCall.run BitCall.onBits s calls).1 =
        (BitCall.run (BitCall.onFinset length) members calls).1 ∧
      (BitCall.run BitCall.onBits s calls).2.Represents length
        (BitCall.run (BitCall.onFinset length) members calls).2 := by
  induction calls generalizing s members with
  | nil => exact ⟨rfl, h⟩
  | cons c rest ih =>
    have hagree := h.agree c
    simp only [BitCall.run]
    generalize c.onBits s = bits at hagree ⊢
    generalize c.onFinset length members = finset at hagree ⊢
    cases hagree with
    | ok r hrest =>
      obtain ⟨hreplies, hleft⟩ := ih hrest
      exact ⟨congrArg (List.cons (.ok r)) hreplies, hleft⟩
    | error e =>
      obtain ⟨hreplies, hleft⟩ := ih h
      exact ⟨congrArg (List.cons (.error e)) hreplies, hleft⟩

/-- The last of two words has room beyond the length, but filling does not set its bits. -/
example : (BitCall.run BitCall.onBits (empty 70)
    [.insert 127, .insert 128, .take 127, .insert 100, .fill true, .get 100, .count]).1 =
      [.ok .done, .error .outOfStorage, .ok (.bit true), .ok .done, .ok .done, .ok (.bit false),
        .ok (.number 70)] := by
  rfl

end Bitset

end Terrain
