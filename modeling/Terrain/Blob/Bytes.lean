import Terrain.Number.Convert

/-!
# Numbers as bytes

Every number of a binary layout is written with its least significant byte first. A row of numbers
of one size is read by cutting the bytes into chunks; a last chunk that is short is left out.
-/

namespace Terrain.Bytes

def natural (bytes : List UInt8) : Nat := bytes.foldr (fun b n => b.toNat + 256 * n) 0

/-- The natural that `size` bytes write from a place on. -/
def naturalAt (size place : Nat) (bytes : List UInt8) : Nat :=
  natural ((bytes.drop place).take size)

def ofNatural : Nat → Nat → List UInt8
  | 0, _ => []
  | count + 1, n => UInt8.ofNat n :: ofNatural count (n / 256)

@[simp] theorem length_ofNatural (count n : Nat) : (ofNatural count n).length = count := by
  induction count generalizing n with
  | zero => rfl
  | succ count ih => simp [ofNatural, ih]

/-- The naturals in a row of bytes, each of `size` bytes. -/
def naturals (size : Nat) (bytes : List UInt8) : List Nat :=
  let held := bytes.toArray
  (List.range (held.size / size)).map fun i =>
    natural (held.extract (size * i) (size * i + size)).toList

def ofInt32 (n : Int32) : List UInt8 := ofNatural 4 n.toUInt32.toNat

/-- The 32-bit integer with the given bytes as a natural. -/
def int32 (n : Nat) : Int32 := (UInt32.ofNat n).toInt32

def ofLowHalf (n : Int32) : List UInt8 := ofNatural 2 n.toUInt32.toNat

def lowHalf (n : Nat) : Int32 := (UInt16.ofNat n).toInt16.toInt32

def ofDouble (x : Float) : List UInt8 := ofNatural 8 x.toBits.toNat

def double (n : Nat) : Float := Float.ofBits (UInt64.ofNat n)

def ofSingle (x : Float32) : List UInt8 := ofNatural 4 x.toBits.toNat

def single (n : Nat) : Float32 := Float32.ofBits (UInt32.ofNat n)

end Terrain.Bytes
