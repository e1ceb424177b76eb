import ItemBinning.Decimal.Numeral

/-!
# Quantities

Sizes and durations are written as a number and an optional unit: digits, with
a point and more digits if wanted, then a word, with blanks before, between and
after them.  The number ends where its digits end and the unit where the next
blank stands, so a text splits in one way only.
-/

namespace ItemBinning

open Text

structure Quantity where
  whole : List Char
  fraction : List Char
  unit : List Char
  deriving Repr, DecidableEq

namespace Quantity

/-- Split the digits after a point from what follows; without a point there are
none, and a point with no digit after it is refused. -/
def splitFraction? : List Char → Option (List Char × List Char)
  | '.' :: rest =>
      let digits := rest.takeWhile isDecimalDigit
      if digits.isEmpty then none
      else some (digits, rest.dropWhile isDecimalDigit)
  | rest => some ([], rest)

/-- Split a unit from the blanks around it. -/
def splitUnit? (text : List Char) : Option (List Char) :=
  let started := text.dropWhile isBlank
  if (started.dropWhile (!isBlank ·)).all isBlank then
    some (started.takeWhile (!isBlank ·))
  else none

def read? (text : List Char) : Option Quantity := do
  let started := text.dropWhile isBlank
  let whole := started.takeWhile isDecimalDigit
  if whole.isEmpty then none
  else
    let (fraction, afterNumber) ←
      splitFraction? (started.dropWhile isDecimalDigit)
    let unit ← splitUnit? afterNumber
    some { whole, fraction, unit }

/-- The double nearest to the written number. -/
def number (quantity : Quantity) : Float :=
  Decimal.ofScientific (digitsValue (quantity.whole ++ quantity.fraction))
    (-(quantity.fraction.length : Int))

end Quantity

end ItemBinning
