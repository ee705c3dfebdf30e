import Terrain.Number.Convert

/-!
# The shortest decimal of a number

A decimal `digits * 10 ^ exponent` reads back as a finite number when it lies in the interval of
the reals that round to the number, whose ends belong to it when the number is even. The grids
`10 ^ exponent` are tried from the coarsest on; on each only the two neighbours of the number can
be in the interval when any point is. The first grid with a hit gives the fewest digits, and of two
hits the nearer is taken, or the one further from zero if both are equally near.
-/

namespace Terrain.Number

/-- A decimal number: its sign, its digits as a natural, and the power of ten of the last one. -/
structure Decimal where
  negative : Bool
  digits : Nat
  exponent : Int
  deriving DecidableEq, Repr

namespace Shortest

/-- The reals that round to a positive number, in units of `2 ^ exponent`: the number itself, the
two ends, and whether the ends belong. -/
structure Interval where
  low : Nat
  value : Nat
  high : Nat
  exponent : Int
  closed : Bool

/-- The interval of `m * 2 ^ e`. The gap below a power of two is half as wide as the one above. -/
def interval (f : Format) (m : Nat) (e : Int) : Interval :=
  let narrow := m = f.unit ∧ f.minExponent < e
  ⟨4 * m - (if narrow then 1 else 2), 4 * m, 4 * m + 2, e - 2, m % 2 == 0⟩

/-- The point of the grid `10 ^ exponent` nearest to the number of the interval, if a point of
the grid lies in the interval. Of two equally near ones it is the upper. -/
def onGrid? (i : Interval) (exponent : Int) : Option Nat :=
  let scale (n : Nat) : Nat := (n <<< i.exponent.toNat) * Nat.pow 10 (-exponent).toNat
  let unit : Nat := (1 <<< (-i.exponent).toNat) * Nat.pow 10 exponent.toNat
  let below := scale i.value / unit
  let inside (c : Nat) : Bool :=
    if i.closed then scale i.low ≤ c * unit ∧ c * unit ≤ scale i.high
    else scale i.low < c * unit ∧ c * unit < scale i.high
  let nearer : Nat := if 2 * scale i.value < (2 * below + 1) * unit then below else below + 1
  if inside nearer then some nearer
  else if inside below then some below
  else if inside (below + 1) then some (below + 1)
  else none

/-- The first hit on the grids from `10 ^ exponent` down. -/
def search (i : Interval) : Nat → Int → Nat × Int
  | 0, exponent => (0, exponent)
  | grids + 1, exponent =>
    match onGrid? i exponent with
    | some digits => (digits, exponent)
    | none => search i grids (exponent - 1)

/-- The shortest decimal of `m * 2 ^ e`. The coarsest grid lies above the number, and on the grid
of the last binary digit the number is a point. -/
def decimal (f : Format) (negative : Bool) (m : Nat) (e : Int) : Decimal :=
  if m = 0 then ⟨negative, 0, 0⟩
  else
    let top : Int := max 0 (e + m.log2 + 1)
    let (digits, exponent) := search (interval f m e) (top + e.natAbs + 1).toNat top
    ⟨negative, digits, exponent⟩

end Shortest

/-- A decimal without an exponent: a point stands only before a fraction, which a digit
precedes. -/
def Decimal.positional (d : Decimal) : String :=
  let digits := Nat.toDigits 10 d.digits
  let magnitude :=
    if 0 ≤ d.exponent then
      digits ++ List.replicate (if d.digits = 0 then 0 else d.exponent.toNat) '0'
    else
      let places := (-d.exponent).toNat
      let padded := List.replicate (places + 1 - digits.length) '0' ++ digits
      padded.take (padded.length - places) ++ '.' :: padded.drop (padded.length - places)
  String.ofList (if d.negative then '-' :: magnitude else magnitude)

/-- The shortest text that reads back as the same single, never with an exponent. -/
def singleText (x : Float32) : String :=
  match ofSingle x with
  | .nan => "NaN"
  | .infinite negative => if negative then "-inf" else "inf"
  | .finite negative m e => (Shortest.decimal single negative m e).positional

end Terrain.Number
