import ItemBinning.Document.Kind
import ItemBinning.Fault

/-!
# Values of scalars

A scalar of a known kind stands for a value.  The form of a plain scalar agrees
with its kind, but a tag can name a kind that the text does not fit.
-/

namespace ItemBinning.Document

open Decimal Text

def withoutUnderscores (text : String) : List Char :=
  text.toList.filter (· != '_')

def atColons : List Char → List (List Char)
  | [] => [[]]
  | ':' :: rest => [] :: atColons rest
  | character :: rest =>
      match atColons rest with
      | [] => [[character]]
      | part :: parts => (character :: part) :: parts

/-- The value of a digit in a base up to sixteen. -/
def digitIn? (base : Nat) (character : Char) : Option Nat :=
  let value? :=
    if 'a' ≤ character ∧ character ≤ 'f' then
      some (character.toNat - 'a'.toNat + 10)
    else if 'A' ≤ character ∧ character ≤ 'F' then
      some (character.toNat - 'A'.toNat + 10)
    else decimalDigit? character
  value?.filter (· < base)

/-- The letters that may stand in front of the digits in a base, behind a
zero. -/
def baseLetters (base : Nat) : List Char :=
  if base = 2 then ['b', 'B']
  else if base = 8 then ['o', 'O']
  else if base = 16 then ['x', 'X']
  else []

/-- The digits behind the mark of a base, if there is one. -/
def withoutBaseMark (base : Nat) : List Char → List Char
  | '0' :: letter :: digits =>
      if (baseLetters base).contains letter then digits
      else '0' :: letter :: digits
  | digits => digits

variable [Host]

/-- An integer in a base, with its sign and blanks around it.  Only decimal digits
are limited; they are counted before what follows them is looked at. -/
def integerIn (base : Nat) (text : List Char) : Except Fault Int :=
  let (negative, unsigned) := Numeral.takeSign (trim isWhiteSpace text)
  let digits := withoutBaseMark base unsigned
  let counted := (digits.takeWhile fun digit => (digitIn? base digit).isSome).length
  if base = 10 ∧ !Host.allows counted then .error (.unreadableInteger counted)
  else
    match digits.mapM (digitIn? base) with
    | some (first :: rest) =>
        let magnitude := (first :: rest).foldl
          (fun number digit => base * number + digit) 0
        .ok (Numeral.withSign negative magnitude)
    | _ => .error (.invalidInteger base (String.ofList text))

/-- The integer that a text without sign stands for: the base is told by its
beginning, and colons separate the places of a number in base sixty. -/
def unsignedInteger (text : List Char) : Except Fault Int :=
  match text with
  | [] => .error .emptyScalar
  | ['0'] => .ok 0
  | '0' :: 'b' :: digits => integerIn 2 digits
  | '0' :: 'x' :: digits => integerIn 16 digits
  | '0' :: _ => integerIn 8 text
  | _ =>
      if text.contains ':' then do
        let places ← (atColons text).mapM (integerIn 10)
        return places.foldl (fun number place => 60 * number + place) 0
      else integerIn 10 text

def integerOf (text : String) : Except Fault Int := do
  match withoutUnderscores text with
  | [] => .error .emptyScalar
  | written => do
      let (negative, unsigned) := Numeral.takeSign written
      let magnitude ← unsignedInteger unsigned
      return if negative then -magnitude else magnitude

/-- A decimal number with its sign and blanks around it. -/
def decimalIn (text : List Char) : Except Fault Float :=
  let written := String.ofList text
  match Numeral.decimal? isDecimalDigit written with
  | some value => .ok value
  | none => .error (.invalidDecimal written)

/-- Add up the places of a number in base sixty, the lowest one first, each
multiplied by its weight. -/
def sumOfPlaces (sum : Float) (weight : Nat) :
    List Float → Except Fault Float
  | [] => .ok sum
  | place :: rest =>
      match ofInteger? weight with
      | some factor => sumOfPlaces (sum + place * factor) (60 * weight) rest
      | none => .error .overflow

/-- The double that a text without sign stands for. -/
def unsignedDecimal (text : List Char) : Except Fault Float :=
  let word := String.ofList text
  if word == ".inf" then .ok (1.0 / 0.0)
  else if text.contains ':' then do
    let places ← (atColons text).mapM decimalIn
    sumOfPlaces 0.0 1 places.reverse
  else decimalIn text

def decimalOf (text : String) : Except Fault Float :=
  match (withoutUnderscores text).map Char.toLower with
  | [] => .error .emptyScalar
  | written => do
      let (negative, unsigned) := Numeral.takeSign written
      if String.ofList unsigned == ".nan" then return 0.0 / 0.0
      else
        let magnitude ← unsignedDecimal unsigned
        return if negative then -magnitude else magnitude

/-- The words for true, in lower case. -/
def trueWords : List String := ["yes", "true", "on"]

/-- The words for false, in lower case. -/
def falseWords : List String := ["no", "false", "off"]

/-- The truth value that a text stands for. -/
def truthOf (text : String) : Except Fault Bool :=
  let word := text.toLower
  if trueWords.contains word then .ok true
  else if falseWords.contains word then .ok false
  else .error (.unknownWord text)

/-- The value that a text of a kind stands for. -/
def scalarValue (kind : Kind) (text : String) : Except Fault Value :=
  match kind with
  | .nothing => .ok .null
  | .truth => (truthOf text).map .bool
  | .integer => (integerOf text).map .int
  | .decimal => (decimalOf text).map .float
  | .text => .ok (.text text)
  | .list | .map | .merge | .standard | .unknown =>
      .error (.badDocument .values)

end ItemBinning.Document
