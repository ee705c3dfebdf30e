import Terrain.Number.Convert

/-!
# Sine, cosine and powers of two

What these functions give is not specified to the last bit, and it differs from one platform to the
other. They are therefore taken from a library that is a parameter of whatever calls them.

One such library rounds every exact value once. Its functions are computed on integers that count
units of `2 ^ -precision`. For the sine and the cosine the angle is reduced by the nearest multiple of
a right angle, and the power series of the remainder is summed. The sign of a cosine is that of the
quadrant the reduction finds, and the series of a remainder of at most half a right angle is positive
for the cosine and has the sign of the remainder for the sine. For a power of two the exponent splits
into its floor, which only moves the binary point, and a fraction, whose power is the exponential
series of the fraction times the logarithm of two.
-/

namespace Terrain.Number

/-- The functions of a mathematics library. -/
structure MathLibrary where
  sineSingle : Float32 → Float32
  cosineSingle : Float32 → Float32
  cosine : Float → Float
  /-- Two to the power of a number. -/
  exp2 : Float → Float

/-! ### Angles -/

namespace Trig

/-- The number of fraction bits of the sums. -/
def precision : Nat := 192

/-- The number of fraction bits of the right angle, enough to reduce every double. -/
def widePrecision : Nat := 1280

/-- The sum of `unit / (n ^ (2 k + 1) * (2 k + 1))` with alternating signs from the given `k` on,
for `terms` terms, where `power` is `unit / n ^ (2 k + 1)`. -/
def arctanSum (n : Nat) : Nat → Nat → Nat → Int
  | 0, _, _ => 0
  | terms + 1, k, power => (power / (2 * k + 1) : Nat) - arctanSum n terms (k + 1) (power / (n * n))

/-- The angle in units of `2 ^ -bits` whose tangent is `1 / n`. -/
def arctanInverse (n bits : Nat) : Int := arctanSum n bits 0 (1 <<< bits / n)

/-- A right angle in units of `2 ^ -widePrecision`, from `π / 4 = 4 arctan (1/5) - arctan (1/239)`
with some bits to spare. -/
def wideRightAngle : Nat :=
  let bits := widePrecision + 16
  (8 * arctanInverse 5 bits - 2 * arctanInverse 239 bits).toNat >>> 16

/-- The power series of the cosine from the term `term` on, which is the one of degree `2 k`. -/
def cosineSum (square : Nat) : Nat → Nat → Nat → Nat
  | 0, _, _ => 0
  | terms + 1, k, term =>
    term - cosineSum square terms (k + 1) ((term * square) >>> precision / ((2 * k + 1) * (2 * k + 2)))

/-- The power series of the sine from the term `term` on, which is the one of degree `2 k + 1`. -/
def sineSum (square : Nat) : Nat → Nat → Nat → Nat
  | 0, _, _ => 0
  | terms + 1, k, term =>
    term - sineSum square terms (k + 1) ((term * square) >>> precision / ((2 * k + 2) * (2 * k + 3)))

/-- How many terms of a series are above the last bit, for half a right angle. -/
def seriesTerms : Nat := 24

/-- The cosine of an angle of at most half a right angle. -/
def smallCosine (angle : Nat) : Nat :=
  cosineSum ((angle * angle) >>> precision) seriesTerms 0 (1 <<< precision)

/-- The sine of an angle of at most half a right angle. -/
def smallSine (angle : Nat) : Nat :=
  sineSum ((angle * angle) >>> precision) seriesTerms 0 angle

/-- An angle as a number of right angles and a remainder of at most half of one. -/
structure Reduced where
  rightAngles : Nat
  negative : Bool
  remainder : Nat

/-- Reduces the angle `mantissa * 2 ^ exponent` by the nearest multiple of a right angle. -/
def reduce (mantissa : Nat) (exponent : Int) : Reduced :=
  let bits := precision + 8 + (exponent + mantissa.log2 + 1).toNat
  let rightAngle := wideRightAngle >>> (widePrecision - bits)
  let angle := Binary.integerPart mantissa (exponent + bits)
  let rightAngles := (angle + rightAngle / 2) / rightAngle
  let multiple := rightAngles * rightAngle
  if angle < multiple then ⟨rightAngles, true, (multiple - angle) >>> (bits - precision)⟩
  else ⟨rightAngles, false, (angle - multiple) >>> (bits - precision)⟩

def ofUnits (negative : Bool) (units : Nat) : Binary := .finite negative units (-(precision : Int))

def Reduced.cosine (r : Reduced) : Binary :=
  match r.rightAngles % 4 with
  | 0 => ofUnits false (smallCosine r.remainder)
  | 1 => ofUnits (!r.negative) (smallSine r.remainder)
  | 2 => ofUnits true (smallCosine r.remainder)
  | _ => ofUnits r.negative (smallSine r.remainder)

def Reduced.sine (r : Reduced) : Binary :=
  match r.rightAngles % 4 with
  | 0 => ofUnits r.negative (smallSine r.remainder)
  | 1 => ofUnits false (smallCosine r.remainder)
  | 2 => ofUnits (!r.negative) (smallSine r.remainder)
  | _ => ofUnits true (smallCosine r.remainder)

def opposite : Binary → Binary
  | .nan => .nan
  | .infinite negative => .infinite (!negative)
  | .finite negative m e => .finite (!negative) m e

/-- The cosine of a number, to be rounded; an infinite angle has none. -/
def cosine : Binary → Binary
  | .finite _ m e => (reduce m e).cosine
  | _ => .nan

/-- The sine of a number, to be rounded; an infinite angle has none. -/
def sine : Binary → Binary
  | .finite negative m e =>
    let s := (reduce m e).sine
    if negative then opposite s else s
  | _ => .nan

end Trig

/-! ### Powers -/

namespace Exp2

/-- The number of fraction bits of the sums. -/
def precision : Nat := 192

/-- The sum of `unit / (3 ^ (2 k + 1) * (2 k + 1))` from the given `k` on, for `terms` terms, where
`power` is `unit / 3 ^ (2 k + 1)`. -/
def artanhSum : Nat → Nat → Nat → Nat
  | 0, _, _ => 0
  | terms + 1, k, power => power / (2 * k + 1) + artanhSum terms (k + 1) (power / 9)

/-- The natural logarithm of two in units of `2 ^ -precision`, which is `2 artanh (1/3)`; the sum
has some bits to spare. -/
def logTwo : Nat := (2 * artanhSum 80 0 (1 <<< (precision + 16) / 3)) >>> 16

/-- The exponential series from the term `term` on, which is the one of degree `k`. -/
def expSum (power : Nat) : Nat → Nat → Nat → Nat
  | 0, _, _ => 0
  | terms + 1, k, term => term + expSum power terms (k + 1) ((term * power) >>> precision / (k + 1))

/-- How many terms of the series are above the last bit. -/
def seriesTerms : Nat := 48

def ofFraction (fraction : Nat) : Nat :=
  expSum ((fraction * logTwo) >>> precision) seriesTerms 0 (1 <<< precision)

/-- Beyond this exponent no power is a finite double other than zero. -/
def maxExponent : Int := 2048

def power : Binary → Binary
  | .nan => .nan
  | .infinite negative => if negative then .finite false 0 0 else .infinite false
  | .finite negative m e =>
    if maxExponent < (1 <<< (e + m.log2).toNat : Nat) then
      if negative then .finite false 0 0 else .infinite false
    else
      let units := Binary.withSign negative (Binary.integerPart m (e + precision))
      let whole := units.fdiv (1 <<< precision : Nat)
      let fraction := (units - whole * (1 <<< precision : Nat)).toNat
      .finite false (ofFraction fraction) (whole - precision)

end Exp2

/-- The library that gives the number nearest to the exact value. -/
def MathLibrary.nearest : MathLibrary where
  sineSingle angle := toSingle (Trig.sine (ofSingle angle))
  cosineSingle angle := toSingle (Trig.cosine (ofSingle angle))
  cosine angle := toDouble (Trig.cosine (ofDouble angle))
  exp2 x := toDouble (Exp2.power (ofDouble x))

end Terrain.Number
