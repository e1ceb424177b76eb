import ItemBinning.Decimal.DigitLimit
import ItemBinning.Text.Blank
import ItemBinning.Text.DecimalDigit

/-!
# Reading numbers

A numeral is an optional sign and digits, with white space around it.  A single
underscore may stand between two digits.  The host may limit the digits of an
integer, zeros in front of it included.  A decimal numeral may also have a
point, an exponent, or be one of the words for infinity and for no number.
The class of digits is a parameter: environment variables and command-line
arguments take the digits of every script, other readers ASCII digits only.
-/

namespace ItemBinning.Decimal

open ItemBinning.Text

/-- The double nearest to `mantissa · 10^power`, infinity when it is too large. -/
def ofScientific (mantissa : Nat) (power : Int) : Float :=
  Float.ofScientific mantissa (power < 0) power.natAbs

/-- The double nearest to an integer, none when it is too large. -/
def ofInteger? (integer : Int) : Option Float :=
  let nearest := Float.ofInt integer
  if nearest.isInf then none else some nearest

namespace Numeral

def isAsciiDigit (character : Char) : Bool :=
  '0' ≤ character && character ≤ '9'

/-- The longest run of digits at the front, single underscores between them
dropped, and what follows it. -/
def spanDigits (isDigit : Char → Bool) : List Char → List Char × List Char
  | first :: '_' :: second :: rest =>
      if isDigit first && isDigit second then
        let (digits, after) := spanDigits isDigit (second :: rest)
        (first :: digits, after)
      else if isDigit first then ([first], '_' :: second :: rest)
      else ([], first :: '_' :: second :: rest)
  | first :: rest =>
      if isDigit first then
        let (digits, after) := spanDigits isDigit rest
        (first :: digits, after)
      else ([], first :: rest)
  | [] => ([], [])

/-- Take a sign off the front; true is the minus sign. -/
def takeSign : List Char → Bool × List Char
  | '-' :: rest => (true, rest)
  | '+' :: rest => (false, rest)
  | rest => (false, rest)

def withSign (negative : Bool) (magnitude : Nat) : Int :=
  if negative then -(magnitude : Int) else magnitude

/-- Read an integer of no more digits than the host allows. -/
def integer? [Host] (isDigit : Char → Bool) (text : String) : Option Int :=
  let (negative, unsigned) := takeSign (trim isWhiteSpace text.toList)
  let (digits, rest) := spanDigits isDigit unsigned
  if digits.isEmpty || !rest.isEmpty || !Host.allows digits.length then none
  else some (withSign negative (digitsValue digits))

/-- Read an exponent: nothing, or its mark, an optional sign and digits. -/
def exponent? (isDigit : Char → Bool) : List Char → Option Int
  | [] => some 0
  | mark :: rest =>
      let (negative, unsigned) := takeSign rest
      let (digits, after) := spanDigits isDigit unsigned
      if (mark == 'e' || mark == 'E') && !digits.isEmpty && after.isEmpty then
        some (withSign negative (digitsValue digits))
      else none

/-- The words that denote no finite number, in lower case. -/
def word? (text : List Char) : Option Float :=
  let lower := String.ofList (text.map Char.toLower)
  if lower == "inf" || lower == "infinity" then some (1.0 / 0.0)
  else if lower == "nan" then some (0.0 / 0.0)
  else none

def magnitude? (isDigit : Char → Bool) (text : List Char) : Option Float :=
  let (whole, afterWhole) := spanDigits isDigit text
  let (fraction, afterFraction) := match afterWhole with
    | '.' :: rest => spanDigits isDigit rest
    | rest => ([], rest)
  if whole.isEmpty && fraction.isEmpty then word? text
  else
    (exponent? isDigit afterFraction).map fun power =>
      ofScientific (digitsValue (whole ++ fraction)) (power - fraction.length)

/-- Read a decimal numeral without blanks around it. -/
def signedDecimal? (isDigit : Char → Bool) (text : List Char) : Option Float :=
  let (negative, unsigned) := takeSign text
  (magnitude? isDigit unsigned).map fun magnitude =>
    if negative then -magnitude else magnitude

def decimal? (isDigit : Char → Bool) (text : String) : Option Float :=
  signedDecimal? isDigit (trim isWhiteSpace text.toList)

end Numeral

end ItemBinning.Decimal
