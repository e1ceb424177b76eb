import ItemBinning.Decimal.Binary64

/-!
# Remainders of doubles

The remainder of a division rounded down has the sign of the divisor.  Both
numbers are brought to one power of two and divided as integers, which leaves an
exact rest; a rest of the other sign is brought to the sign of the divisor by
adding the divisor once.
-/

namespace ItemBinning.Decimal

/-- The double `integer · 2^exponent`, which has to be exact. -/
def ofBinary (integer : Int) (exponent : Int) : Float :=
  (Float.ofInt integer).scaleB exponent

/-- A finite double as an integer at a power of two that is not above its own. -/
def atExponent (negative : Bool) (mantissa : Nat) (exponent lower : Int) : Int :=
  let scaled := mantissa * twoTo (exponent - lower).toNat
  if negative then -scaled else scaled

/-- The remainder of a division rounded down, none where the divisor is zero. -/
def remainder? (number divisor : Float) : Option Float :=
  match Binary64.ofFloat number, Binary64.ofFloat divisor with
  | _, .finite _ 0 _ => none
  | .finite negative mantissa exponent, .finite below unit power =>
      let lower := min exponent power
      let rest := Int.tmod (atExponent negative mantissa exponent lower)
        (atExponent below unit power lower)
      some (if rest = 0 then if below then -0.0 else 0.0
        else if negative == below then ofBinary rest lower
        else ofBinary rest lower + divisor)
  | .finite negative mantissa _, .infinite below =>
      some (if mantissa = 0 then if below then -0.0 else 0.0
        else if negative == below then number else divisor)
  | _, _ => some (0.0 / 0.0)

end ItemBinning.Decimal
