import Terrain.Number.Shortest

/-!
# Reading decimal numbers

A decimal with a fraction and an exponent is rounded once, to the nearest number of the wanted
format. Numbers too large for the format become infinite and numbers too small become zero.
-/

namespace Terrain.Number

/-- Whether a character is a decimal digit; only the ten ASCII digits are. -/
def isDigit (c : Char) : Bool := '0' ≤ c && c ≤ '9'

def digitValue (c : Char) : Nat := c.toNat - 48

def ofDigits (cs : List Char) : Nat := cs.foldl (fun n c => 10 * n + digitValue c) 0

/-- The value of a digit of the given base, at most sixteen; letters may have either case. -/
def digitOf? (base : Nat) (c : Char) : Option Nat :=
  let value :=
    if isDigit c then digitValue c
    else if 'a' ≤ c ∧ c ≤ 'f' then c.toNat - 87
    else if 'A' ≤ c ∧ c ≤ 'F' then c.toNat - 55
    else base
  if value < base then some value else none

/-- The natural that a row of digits of the given base writes; without digits it is zero. -/
def naturalIn? (base : Nat) (digits : List Char) : Option Nat :=
  digits.foldlM (fun n c => (digitOf? base c).map (base * n + ·)) 0

/-- A sign, if the text starts with one, and the rest. -/
def splitSign : List Char → Bool × List Char
  | '-' :: rest => (true, rest)
  | '+' :: rest => (false, rest)
  | rest => (false, rest)

/-- An optional sign and at least one digit, and nothing else; `value` tells what digits write. -/
def readSigned? (value : List Char → Nat) (cs : List Char) : Option Int :=
  let (negative, digits) := splitSign cs
  if digits.isEmpty || !digits.all isDigit then none
  else some (Binary.withSign negative (value digits))

def readInteger? (cs : List Char) : Option Int := readSigned? ofDigits cs

def integerText (n : Int) : List Char :=
  if n < 0 then '-' :: Nat.toDigits 10 n.natAbs else Nat.toDigits 10 n.natAbs

def readInt32? (cs : List Char) : Option Int32 :=
  match readInteger? cs with
  | some n => if Int32.minValue.toInt ≤ n ∧ n ≤ Int32.maxValue.toInt then some (Int32.ofInt n) else none
  | none => none

/-- No decimal beyond this power of ten is a finite number or, below its inverse, other than
zero. -/
def Decimal.reach : Int := 400

/-- The bit pattern of the number of the format nearest to a decimal. -/
def Decimal.bits (f : Format) (d : Decimal) : Nat :=
  let magnitude :=
    if d.digits = 0 then 0
    else
      let leading := d.exponent + (Nat.toDigits 10 d.digits).length
      if Decimal.reach < leading then f.infinityBits
      else if leading < -Decimal.reach then 0
      else f.ratioBits (d.digits * Nat.pow 10 d.exponent.toNat) (Nat.pow 10 (-d.exponent).toNat)
  magnitude + if d.negative then f.signBit else 0

/-- Once the digits of an exponent have reached this number, those behind them do not count. -/
def Decimal.exponentReach : Nat := 65536

/-- The natural that the digits of an exponent write. -/
def exponentOfDigits (cs : List Char) : Nat :=
  cs.foldl (fun n c => if n < Decimal.exponentReach then 10 * n + digitValue c else n) 0

/-- The exponent of a decimal: nothing, or a letter `e` and digits with an optional sign. -/
def readExponent? : List Char → Option Int
  | [] => some 0
  | c :: rest => if c = 'e' ∨ c = 'E' then readSigned? exponentOfDigits rest else none

/-- Digits, perhaps a point among them, and perhaps an exponent; at least one digit stands before
the exponent. -/
def readMagnitude? (negative : Bool) (cs : List Char) : Option Decimal :=
  let (whole, rest) := cs.span isDigit
  let (fraction, rest) :=
    match rest with
    | '.' :: rest => rest.span isDigit
    | rest => ([], rest)
  if whole.isEmpty && fraction.isEmpty then none
  else
    (readExponent? rest).map fun exponent =>
      ⟨negative, ofDigits (whole ++ fraction), exponent - fraction.length⟩

def lowerAscii (c : Char) : Char := if 'A' ≤ c && c ≤ 'Z' then Char.ofNat (c.toNat + 32) else c

/-- The bit pattern of the number that a text writes: a decimal, an infinity or what is not a
number, each with an optional sign; the words are read in any letter case. -/
def readBits? (f : Format) (cs : List Char) : Option Nat :=
  let (negative, rest) := splitSign cs
  let sign := if negative then f.signBit else 0
  let word := String.ofList (rest.map lowerAscii)
  if word = "inf" ∨ word = "infinity" then some (f.infinityBits + sign)
  else if word = "nan" then some (f.encode .nan + sign)
  else (readMagnitude? negative rest).map (Decimal.bits f)

def readSingle? (cs : List Char) : Option Float32 :=
  (readBits? single cs).map fun bits => Float32.ofBits (UInt32.ofNat bits)

def readDouble? (cs : List Char) : Option Float :=
  (readBits? double cs).map fun bits => Float.ofBits (UInt64.ofNat bits)

end Terrain.Number
