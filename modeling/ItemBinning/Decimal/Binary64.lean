/-!
# The exact value of a floating-point number

A finite double is a signed integer times a power of two.  This file reads that
form off the bits and defines the exact operations that need it: cutting off
the fraction, comparing with an integer, and a rank that orders all finite and
infinite doubles.
-/

namespace ItemBinning.Decimal

def twoTo (exponent : Nat) : Nat := Nat.pow 2 exponent

def tenTo (exponent : Nat) : Nat := Nat.pow 10 exponent

/-- A double by its exact value; a finite one is `±mantissa · 2^exponent`. -/
inductive Binary64
  | notANumber
  | infinite (negative : Bool)
  | finite (negative : Bool) (mantissa : Nat) (exponent : Int)
  deriving Repr, DecidableEq

namespace Binary64

def fractionBits : Nat := 52

/-- The exponent of the smallest positive double. -/
def leastExponent : Int := -1074

/-- Read the sign, the mantissa and the exponent off the bits of a double. -/
def ofFloat (number : Float) : Binary64 :=
  let bits := number.toBits.toNat
  let negative := decide (twoTo 63 ≤ bits)
  let field : Nat := bits / twoTo fractionBits % twoTo 11
  let fraction : Nat := bits % twoTo fractionBits
  if field = twoTo 11 - 1 then
    if fraction = 0 then infinite negative else notANumber
  else if field = 0 then finite negative fraction leastExponent
  else
    finite negative (fraction + twoTo fractionBits)
      (leastExponent + (field : Int) - 1)

/-- The value with its fraction cut off, none for infinities and non-numbers. -/
def truncate? : Binary64 → Option Int
  | .finite negative mantissa exponent =>
      let magnitude :=
        if 0 ≤ exponent then mantissa * twoTo exponent.toNat
        else mantissa / twoTo (-exponent).toNat
      some (if negative then -(magnitude : Int) else magnitude)
  | _ => none

/-- Whether the value is an integer. -/
def isWhole : Binary64 → Bool
  | .finite _ mantissa exponent =>
      0 ≤ exponent || mantissa % twoTo (-exponent).toNat == 0
  | _ => false

/-- The exact order of a double and an integer, none for non-numbers. -/
def compareInt? (value : Binary64) (integer : Int) : Option Ordering :=
  match value with
  | .notANumber => none
  | .infinite negative => some (if negative then .lt else .gt)
  | .finite negative mantissa exponent =>
      let signed : Int := if negative then -mantissa else mantissa
      some <|
        if 0 ≤ exponent then compare (signed * twoTo exponent.toNat) integer
        else compare signed (integer * twoTo (-exponent).toNat)

end Binary64

def truncate? (number : Float) : Option Int :=
  (Binary64.ofFloat number).truncate?

/-- An integer that orders doubles: of two finite or infinite doubles the
smaller one has the smaller rank, and both zeros have the same rank. -/
def rank (number : Float) : Int :=
  let bits := number.toBits.toNat
  if twoTo 63 ≤ bits then -((bits - twoTo 63 : Nat) : Int) else bits

def isNotANumber (number : Float) : Bool :=
  Binary64.ofFloat number == .notANumber

/-- The order of two doubles, none if one of them is not a number. -/
def compareFloats? (first other : Float) : Option Ordering :=
  if isNotANumber first || isNotANumber other then none
  else some (compare (rank first) (rank other))

end ItemBinning.Decimal
