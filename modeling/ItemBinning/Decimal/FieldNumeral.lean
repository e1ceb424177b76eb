import ItemBinning.Decimal.Numeral

/-!
# Numbers in typed fields

The text of a typed field is read as a number in a form of its own.  Digits are
ASCII.  Underscores are left out of a text that has none at either end and no
two next to each other.  An integer may have zeros in front and a fraction of
zeros behind; what is left between them is an optional minus sign and digits.
-/

namespace ItemBinning.Decimal.FieldNumeral

open ItemBinning.Text

def hasDoubleUnderscore : List Char → Bool
  | '_' :: '_' :: _ => true
  | _ :: rest => hasDoubleUnderscore rest
  | [] => false

/-- The text without its underscores, if it has some and they stand one by one
inside. -/
def withoutUnderscores? (text : List Char) : Option (List Char) :=
  if text.contains '_' && text.head? != some '_' && text.getLast? != some '_' &&
      !hasDoubleUnderscore text then
    some (text.filter (· != '_'))
  else none

/-- Whether a character begins what counts of an integer. -/
def isLeading (character : Char) : Bool :=
  character == '-' || ('1' ≤ character && character ≤ '9')

/-- What counts of an integer behind its first zero: zeros and underscores are
passed over, and the last of them is kept where nothing else stands before a
point or the end. -/
def behindZeros? (previous : Char) : List Char → Option (List Char)
  | [] => some [previous]
  | first :: rest =>
      if first == '0' || first == '_' then behindZeros? first rest
      else if isLeading first then some (first :: rest)
      else if first == '.' then some (previous :: first :: rest)
      else none

/-- What counts of an integer without a plus sign. -/
def significant? : List Char → Option (List Char)
  | '0' :: rest => behindZeros? '0' rest
  | first :: rest => if isLeading first then some (first :: rest) else none
  | [] => none

/-- Cut a fraction off that consists of zeros only. -/
def withoutZeroFraction (text : List Char) : List Char :=
  match text.span (· != '.') with
  | (whole, _ :: first :: rest) =>
      if (first :: rest).all (· == '0') then whole else text
  | _ => text

/-- Take a plus sign off the front, which no minus sign may follow. -/
def withoutPlus? : List Char → Option (List Char)
  | '+' :: '-' :: _ => none
  | '+' :: rest => some rest
  | rest => some rest

/-- Longer texts are not read as integers. -/
def lengthLimit : Nat := 4300

/-- The digits of a magnitude, with no zero in front of others. -/
def magnitude? (digits : List Char) : Option Nat :=
  match digits with
  | [] => none
  | '0' :: _ :: _ => none
  | _ => if digits.all Numeral.isAsciiDigit then some (digitsValue digits) else none

/-- Read an optional minus sign and digits. -/
def exactInteger? (text : List Char) : Option Int :=
  if lengthLimit < text.length then none
  else
    match text with
    | '-' :: digits => (magnitude? digits).map (Numeral.withSign true)
    | digits => (magnitude? digits).map (Numeral.withSign false)

def integer? (text : String) : Option Int := do
  let unsigned ← withoutPlus? (trim isWhiteSpace text.toList)
  let whole := withoutZeroFraction (← significant? unsigned)
  exactInteger? ((withoutUnderscores? whole).getD whole)

def plainDecimal? (text : List Char) : Option Float :=
  if text.contains '_' then none
  else Numeral.signedDecimal? Numeral.isAsciiDigit text

/-- Read a decimal number, with white space around it or underscores in it but
not both. -/
def decimal? (text : String) : Option Float :=
  (plainDecimal? (trim isWhiteSpace text.toList)).or
    ((withoutUnderscores? text.toList).bind plainDecimal?)

end ItemBinning.Decimal.FieldNumeral
