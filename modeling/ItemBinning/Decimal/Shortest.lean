import ItemBinning.Decimal.Binary64

/-!
# Shortest decimals

The decimal text of a double has the fewest digits that read back as the same
double.  Every real number within half a unit of the last place rounds to the
double; the ends of that interval belong to it when the mantissa is even.  For
each count of digits, the only decimals that can lie nearest to the double are
its two neighbours on the grid of that many digits, so the first grid with a
neighbour inside the interval gives the answer.
-/

namespace ItemBinning.Decimal

/-- A decimal number `digits · 10^exponent`. -/
structure ShortDecimal where
  digits : Nat
  exponent : Int
  deriving Repr, DecidableEq

namespace Shortest

/-- The interval of reals that round to a double, with the double itself, all
as numerators over one common denominator. -/
structure Interval where
  low : Nat
  value : Nat
  high : Nat
  denominator : Nat
  closed : Bool

/-- The interval around `mantissa · 2^exponent`.  Below a power of two the gap
to the next double is half as wide as above it. -/
def Interval.around (mantissa : Nat) (exponent : Int) : Interval :=
  let quarter : Int := exponent - 2
  let scale := if 0 ≤ quarter then twoTo quarter.toNat else 1
  let denominator := if 0 ≤ quarter then 1 else twoTo (-quarter).toNat
  let narrow :=
    mantissa = twoTo Binary64.fractionBits ∧ Binary64.leastExponent < exponent
  { low := (4 * mantissa - if narrow then 1 else 2) * scale
    value := 4 * mantissa * scale
    high := (4 * mantissa + 2) * scale
    denominator
    closed := mantissa % 2 = 0 }

def Interval.overPowerOfTen (interval : Interval) (power : Int) : Interval :=
  if 0 ≤ power then
    { interval with denominator := interval.denominator * tenTo power.toNat }
  else
    let factor := tenTo (-power).toNat
    { interval with
      low := interval.low * factor
      value := interval.value * factor
      high := interval.high * factor }

def Interval.holds (interval : Interval) (integer : Nat) : Bool :=
  let scaled := integer * interval.denominator
  if interval.closed then interval.low ≤ scaled && scaled ≤ interval.high
  else interval.low < scaled && scaled < interval.high

/-- The integer nearest to the middle of an interval among the two next to it
that lie in it; of two equally near ones the even one. -/
def Interval.nearest? (interval : Interval) : Option Nat :=
  let below := interval.value / interval.denominator
  let above := below + 1
  if interval.holds below then
    if interval.holds above then
      let down := interval.value - below * interval.denominator
      let up := above * interval.denominator - interval.value
      if down < up then some below
      else if up < down then some above
      else if below % 2 = 0 then some below else some above
    else some below
  else if interval.holds above then some above
  else none

/-- The number of digits before the point: the least power of ten above the
value.  The estimate from the binary exponent is at most one off. -/
def wholeDigits (mantissa : Nat) (exponent : Int) : Int :=
  let interval := Interval.around mantissa exponent
  let estimate : Int := ((mantissa.log2 + exponent) * 30103).fdiv 100000 + 1
  let reaches (power : Int) : Bool :=
    let divided := interval.overPowerOfTen power
    divided.denominator ≤ divided.value
  if reaches estimate then estimate + 1
  else if reaches (estimate - 1) then estimate
  else estimate - 1

/-- The decimal `digits · 10^exponent`.  A neighbour of a single digit may be
ten, which is written as one of the next power. -/
def carried (digits : Nat) (exponent : Int) : ShortDecimal :=
  if digits = 10 then { digits := 1, exponent := exponent + 1 }
  else { digits, exponent }

/-- Digit counts that are tried, in order; seventeen always suffice. -/
def digitCounts : List Nat :=
  [1, 2, 3, 4, 5, 6, 7, 8, 9, 10, 11, 12, 13, 14, 15, 16, 17]

/-- The decimal with the fewest digits that rounds to `mantissa · 2^exponent`,
and of those the nearest. -/
def ofBinary (mantissa : Nat) (exponent : Int) : ShortDecimal :=
  let interval := Interval.around mantissa exponent
  let whole := wholeDigits mantissa exponent
  let found := digitCounts.findSome? fun (count : Nat) =>
    let power := whole - (count : Int)
    (interval.overPowerOfTen power).nearest?.map fun digits =>
      carried digits power
  found.getD { digits := 0, exponent := 0 }

end Shortest

end ItemBinning.Decimal
