import ItemBinning.Decimal.Shortest

/-!
# The text of a floating-point number

A double is written with its shortest digits.  When the power of ten of the
first digit lies between -4 and 15 the point stands where it belongs, and a
whole number keeps one zero after the point.  Other numbers are written with
one digit before the point and a signed exponent of at least two digits.
-/

namespace ItemBinning.Decimal

def digitsOf (number : Nat) : List Char :=
  Nat.toDigits 10 number

def integerText (number : Int) : String :=
  match number with
  | .ofNat magnitude => String.ofList (digitsOf magnitude)
  | .negSucc magnitude => String.ofList ('-' :: digitsOf (magnitude + 1))

/-- A run of digits with a point after some of them. -/
def positional (digits : List Char) (beforePoint : Int) : List Char :=
  if beforePoint ≤ 0 then
    '0' :: '.' :: List.replicate (-beforePoint).toNat '0' ++ digits
  else
    let whole := beforePoint.toNat
    if whole < digits.length then digits.take whole ++ '.' :: digits.drop whole
    else digits ++ List.replicate (whole - digits.length) '0' ++ ['.', '0']

/-- One digit before the point and a signed exponent after the digits. -/
def scientific (digits : List Char) (power : Int) : List Char :=
  let mantissa := match digits with
    | [] => []
    | [digit] => [digit]
    | digit :: rest => digit :: '.' :: rest
  let magnitude := digitsOf power.natAbs
  let padded := if magnitude.length < 2 then '0' :: magnitude else magnitude
  mantissa ++ 'e' :: (if power < 0 then '-' else '+') :: padded

/-- The digits of a positive decimal, laid out by the size of its first one. -/
def layOut (decimal : ShortDecimal) : List Char :=
  let digits := digitsOf decimal.digits
  let beforePoint : Int := digits.length + decimal.exponent
  if -4 < beforePoint ∧ beforePoint ≤ 16 then positional digits beforePoint
  else scientific digits (beforePoint - 1)

def floatText (number : Float) : String :=
  match Binary64.ofFloat number with
  | .notANumber => "nan"
  | .infinite negative => if negative then "-inf" else "inf"
  | .finite negative mantissa exponent =>
      let magnitude :=
        if mantissa = 0 then ['0', '.', '0']
        else layOut (Shortest.ofBinary mantissa exponent)
      String.ofList (if negative then '-' :: magnitude else magnitude)

end ItemBinning.Decimal
