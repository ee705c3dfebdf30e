/-!
# Bit sets over words

A set of bits is held in words of 64 bits. Its length fixes the number of words, and every bit of
those words can be read and written, the bits of the last word beyond the length included; only a
bit past the last word is out of reach. Filling sets exactly the bits below the length.

The number of words is found by a sum of 64 bits, so there is no set of a length that comes within
a word of their limit.
-/

namespace Terrain

def wordBits : Nat := 64

def wordBit (i : Nat) : UInt64 := 1 <<< UInt64.ofNat i

def wordHas (word : UInt64) (i : Nat) : Bool := word &&& wordBit i != 0

/-- The word with exactly the bits below `n` set, for `n` below the word size. -/
def wordBelow (n : Nat) : UInt64 := wordBit n - 1

/-- The number of words that hold so many bits. -/
def wordCount (length : Nat) : Nat := (length + wordBits - 1) / wordBits

/-- How many lengths can be told apart. -/
def Bitset.lengthCount : Nat := 1 <<< 64

/-- A set of bits with room for `length` bits. -/
structure Bitset where
  length : Nat
  words : Array UInt64
  size_words : words.size = wordCount length
  length_lt : length + wordBits < Bitset.lengthCount
  deriving DecidableEq

namespace Bitset

def empty (length : Nat) (length_lt : length + wordBits < lengthCount := by decide) : Bitset :=
  ⟨length, Array.replicate (wordCount length) 0, Array.size_replicate, length_lt⟩

/-- The empty set of a length, if its words can be counted. -/
def empty? (length : Nat) : Option Bitset :=
  if h : length + wordBits < lengthCount then some (empty length h) else none

/-- Whether a bit is set; none when the bit is past the last word. -/
def get? (s : Bitset) (i : Nat) : Option Bool :=
  s.words[i / wordBits]?.map fun word => wordHas word (i % wordBits)

def Reaches (s : Bitset) (i : Nat) : Prop := i / wordBits < s.words.size

instance (s : Bitset) (i : Nat) : Decidable (s.Reaches i) := inferInstanceAs (Decidable (_ < _))

/-- Changes the word of a bit; a bit past the last word changes nothing. -/
def modifyWord (s : Bitset) (i : Nat) (f : UInt64 → UInt64) : Bitset :=
  ⟨s.length, s.words.modify (i / wordBits) f, by rw [Array.size_modify]; exact s.size_words,
    s.length_lt⟩

def insert (s : Bitset) (i : Nat) : Bitset := s.modifyWord i (· ||| wordBit (i % wordBits))

def erase (s : Bitset) (i : Nat) : Bitset := s.modifyWord i (· &&& ~~~wordBit (i % wordBits))

/-- Sets a bit; none when the bit is past the last word. -/
def insert? (s : Bitset) (i : Nat) : Option Bitset :=
  if s.Reaches i then some (s.insert i) else none

/-- Clears a bit; none when the bit is past the last word. -/
def erase? (s : Bitset) (i : Nat) : Option Bitset :=
  if s.Reaches i then some (s.erase i) else none

/-- Clears a bit and tells whether it was set; none when the bit is past the last word. -/
def take? (s : Bitset) (i : Nat) : Option (Bool × Bitset) :=
  (s.get? i).map fun was => (was, s.erase i)

def clear (s : Bitset) : Bitset := empty s.length s.length_lt

/-- The word with the given number when exactly the bits below the length are set. -/
def fullWord (length i : Nat) : UInt64 :=
  if (i + 1) * wordBits ≤ length then ~~~0 else wordBelow (length % wordBits)

/-- Sets exactly the bits below the length. -/
def fill (s : Bitset) : Bitset :=
  ⟨s.length, Array.ofFn (fun i : Fin (wordCount s.length) => fullWord s.length i),
    Array.size_ofFn, s.length_lt⟩

/-- The bits of a word that are set, in ascending order. -/
def wordList (word : UInt64) : List Nat :=
  if word = 0 then [] else (List.range wordBits).filter (wordHas word)

/-- The bits that are set, in ascending order. -/
def toList (s : Bitset) : List Nat :=
  s.words.toList.zipIdx.flatMap fun (word, w) => (wordList word).map (w * wordBits + ·)

def count (s : Bitset) : Nat := s.words.foldl (fun n word => n + (wordList word).length) 0

/-- The bits that are set, in ascending order, and the set without them. -/
def drain (s : Bitset) : List Nat × Bitset := (s.toList, s.clear)

end Bitset

end Terrain
