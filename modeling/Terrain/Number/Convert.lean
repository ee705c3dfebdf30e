import Terrain.Number.Format

/-!
# Conversions between number formats and integers

Single precision widens without loss and double precision narrows to the nearest single. A number
becomes an integer by dropping its fraction; what lies outside the range of the integers ends at
the nearer end of it, and what is not a number becomes zero.
-/

namespace Terrain.Number

namespace Binary

/-- The integer part of the magnitude `m * 2 ^ e`. -/
def integerPart (m : Nat) (e : Int) : Nat :=
  if 0 ≤ e then m <<< e.toNat else m >>> (-e).toNat

/-- The integer nearest to the magnitude `m * 2 ^ e`, a half going up. -/
def nearestInteger (m : Nat) (e : Int) : Nat :=
  if 0 ≤ e then m <<< e.toNat else (m + 1 <<< ((-e).toNat - 1)) >>> (-e).toNat

def withSign (negative : Bool) (magnitude : Nat) : Int :=
  if negative then -(magnitude : Int) else magnitude

/-- Drops the fraction and clamps to the range of the stored integers. -/
def toInt32 : Binary → Int32
  | .nan => 0
  | .infinite negative => if negative then Int32.minValue else Int32.maxValue
  | .finite negative m e => Int32.ofIntClamp (withSign negative (integerPart m e))

end Binary

/-- What a double stands for. -/
def ofDouble (x : Float) : Binary := double.decode x.toBits.toNat

def ofSingle (x : Float32) : Binary := single.decode x.toBits.toNat

def toDouble (b : Binary) : Float := Float.ofBits (UInt64.ofNat (double.encode b))

def toSingle (b : Binary) : Float32 := Float32.ofBits (UInt32.ofNat (single.encode b))

/-- The double with the value of a single. -/
def widen (x : Float32) : Float := toDouble (ofSingle x)

/-- The single nearest to a double. -/
def narrow (x : Float) : Float32 := toSingle (ofDouble x)

/-- A double without its fraction, as a stored integer. -/
def truncate (x : Float) : Int32 := (ofDouble x).toInt32

/-- A single without its fraction, as a stored integer. -/
def truncateSingle (x : Float32) : Int32 := (ofSingle x).toInt32

/-- The integer nearest to a double, a half going away from zero, as a double. -/
def roundAway (x : Float) : Float :=
  match ofDouble x with
  | .finite negative m e =>
    if 0 ≤ e then x else toDouble (.finite negative (Binary.nearestInteger m e) 0)
  | _ => x

/-- A stored integer as a double, which holds it exactly. -/
def doubleOfInt32 (n : Int32) : Float := toDouble (.finite (n.toInt < 0) n.toInt.natAbs 0)

def singleOfInt32 (n : Int32) : Float32 := toSingle (.finite (n.toInt < 0) n.toInt.natAbs 0)

end Terrain.Number
