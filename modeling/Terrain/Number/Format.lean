/-!
# Binary number formats

A finite number of a binary format is an integer times a power of two. This module reads the bit
pattern of a number into that form and rounds such a product, or a quotient of naturals, to the
nearest number of a format, a tie going to the even neighbour.

The bit patterns of the non-negative numbers of a format are ordered as the numbers are, so a
rounding that carries into the next power of two needs no case of its own.
-/

namespace Terrain.Number

/-- What a bit pattern stands for; a finite number is `mantissa * 2 ^ exponent` with its sign. -/
inductive Binary where
  | nan
  | infinite (negative : Bool)
  | finite (negative : Bool) (mantissa : Nat) (exponent : Int)
  deriving DecidableEq, Repr

/-- A binary interchange format, given by the number of significant bits (the leading one
included) and of exponent bits. The powers of two that its bit patterns are made with are kept
beside: `unit` is the number of fractions, `fields` that of exponent fields, and `minExponent` the
weight of the last bit of the smallest numbers. -/
structure Format where
  precision : Nat
  exponentBits : Nat
  unit : Nat
  fields : Nat
  minExponent : Int
  unit_eq : unit = 1 <<< (precision - 1)
  fields_eq : fields = 1 <<< exponentBits
  minExponent_eq : minExponent = 3 - (1 <<< (exponentBits - 1) : Nat) - precision
  deriving DecidableEq

def single : Format := ⟨24, 8, 8388608, 256, -149, by decide, by decide, by decide⟩

def double : Format := ⟨53, 11, 4503599627370496, 2048, -1074, by decide, by decide, by decide⟩

/-- `m / 2 ^ k` rounded to the nearest natural, a tie going to the even one. -/
def shiftRightEven (m k : Nat) : Nat :=
  let unit := 1 <<< k
  let quotient := m >>> k
  let twice := 2 * (m % unit)
  if unit < twice ∨ (twice = unit ∧ quotient % 2 = 1) then quotient + 1 else quotient

namespace Format

/-- The bit pattern of positive infinity; the last exponent field is that of infinities and of what
is not a number. -/
def infinityBits (f : Format) : Nat := (f.fields - 1) * f.unit

/-- The bit pattern of negative zero, which is the sign bit alone. -/
def signBit (f : Format) : Nat := f.fields * f.unit

/-- Reads a bit pattern. -/
def decode (f : Format) (bits : Nat) : Binary :=
  let fraction := bits % f.unit
  let upper := bits / f.unit
  let field := upper % f.fields
  let negative := upper / f.fields % 2 == 1
  if field + 1 = f.fields then
    if fraction = 0 then .infinite negative else .nan
  else if field = 0 then
    .finite negative fraction f.minExponent
  else
    .finite negative (f.unit + fraction) (f.minExponent + (field - 1 : Nat))

/-- The bit pattern of the number of the format nearest to `mantissa * 2 ^ exponent`. -/
def magnitudeBits (f : Format) (mantissa : Nat) (exponent : Int) : Nat :=
  if mantissa = 0 then 0
  else
    let last := max f.minExponent (exponent + mantissa.log2 + 1 - f.precision)
    let rounded :=
      if last ≤ exponent then mantissa <<< (exponent - last).toNat
      else shiftRightEven mantissa (last - exponent).toNat
    min f.infinityBits ((last - f.minExponent).toNat * f.unit + rounded)

/-- The bit pattern of a number, rounded to the format. -/
def encode (f : Format) : Binary → Nat
  | .nan => f.infinityBits + f.unit / 2
  | .infinite negative => f.infinityBits + if negative then f.signBit else 0
  | .finite negative mantissa exponent =>
    f.magnitudeBits mantissa exponent + if negative then f.signBit else 0

/-- A product that rounds to every format of at most `precision` bits as `num / den` does: the
quotient has three bits more than that, and a remainder shows as a last odd bit. -/
def quotient (precision num den : Nat) : Nat × Int :=
  let shift : Int := precision + 3 + den.log2 - num.log2
  let num := num <<< shift.toNat
  let den := den <<< (-shift).toNat
  (2 * (num / den) + (if num % den = 0 then 0 else 1), -shift - 1)

/-- The bit pattern of the number nearest to the quotient `num / den`. -/
def ratioBits (f : Format) (num den : Nat) : Nat :=
  let (mantissa, exponent) := quotient f.precision num den
  f.magnitudeBits mantissa exponent

end Format

end Terrain.Number
