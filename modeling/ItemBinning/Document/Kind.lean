import ItemBinning.Decimal.Numeral

/-!
# Kinds of nodes

Every node of a document is of a kind, which says what value it stands for.  A
tag names the kind; without one, a plain scalar is of the kind that its form
suggests: nothing, a truth value, an integer in one of several bases, or a
decimal number.  Any other scalar is a text.
-/

namespace ItemBinning.Document

open Decimal.Numeral (isAsciiDigit takeSign)

/-- What a node stands for. -/
inductive Kind
  | nothing
  | truth
  | integer
  | decimal
  | text
  | list
  | map
  /-- A key under which the entries of other maps are taken over. -/
  | merge
  /-- A key that is a text, though it stands for a default elsewhere. -/
  | standard
  /-- A kind that no value is known for. -/
  | unknown
  deriving Repr, DecidableEq, Inhabited

namespace Kind

/-- What the tags of the known kinds begin with. -/
def tagStart : String := "tag:yaml.org,2002:"

/-- The tags of the known kinds, without their beginning. -/
def tags : List (String × Kind) :=
  [("null", .nothing), ("bool", .truth), ("int", .integer), ("float", .decimal),
   ("str", .text), ("seq", .list), ("map", .map), ("merge", .merge),
   ("value", .standard)]

def ofTag (tag : String) : Kind :=
  ((tags.map fun (name, kind) => (tagStart ++ name, kind)).lookup tag).getD
    .unknown

/-- The scalars for nothing. -/
def nullWords : List String := ["", "~", "null", "Null", "NULL"]

/-- The scalars for a truth value. -/
def truthWords : List String :=
  ["yes", "Yes", "YES", "no", "No", "NO", "true", "True", "TRUE", "false",
   "False", "FALSE", "on", "On", "ON", "off", "Off", "OFF"]

def isPlace (character : Char) : Bool :=
  isAsciiDigit character || character == '_'

/-- Whether a character is one of the first digits of a base, or an
underscore. -/
def isPlaceIn (digits : String) (character : Char) : Bool :=
  digits.toList.contains character || character == '_'

/-- Whether a text has characters, all of a class. -/
def consistsOf (inClass : Char → Bool) (text : List Char) : Bool :=
  !text.isEmpty && text.all inClass

/-- What follows the places of a number in base sixty, each a colon and a number
of one or two digits below sixty; there has to be one at least.  The number
bounds the places. -/
def behindSixties? : Nat → List Char → Option (List Char)
  | 0, _ => none
  | bound + 1, ':' :: rest =>
      let digits := rest.takeWhile isAsciiDigit
      let after := rest.dropWhile isAsciiDigit
      let isSixtieth := match digits with
        | [_] => true
        | [tens, _] => tens ≤ '5'
        | _ => false
      if !isSixtieth then none
      else if after.head? == some ':' then behindSixties? bound after
      else some after
  | _, _ => none

/-- What follows the places of a number in base sixty in a text. -/
def behindPlaces? (text : List Char) : Option (List Char) :=
  behindSixties? text.length text

/-- Whether an unsigned text is an integer. -/
def isInteger (unsigned : List Char) : Bool :=
  match unsigned with
  | ['0'] => true
  | '0' :: 'b' :: digits => consistsOf (isPlaceIn "01") digits
  | '0' :: 'x' :: digits =>
      consistsOf (isPlaceIn "0123456789abcdefABCDEF") digits
  | '0' :: digits => consistsOf (isPlaceIn "01234567") digits
  | first :: _ =>
      let after := unsigned.dropWhile isPlace
      isAsciiDigit first && (after.isEmpty || behindPlaces? after == some [])
  | [] => false

/-- Whether a text is an exponent: nothing, or a mark, a sign and digits. -/
def isExponent : List Char → Bool
  | [] => true
  | mark :: sign :: digits =>
      (mark == 'e' || mark == 'E') && (sign == '+' || sign == '-') &&
        consistsOf isAsciiDigit digits
  | _ => false

/-- Whether an unsigned text that begins with a digit is a number with a
point. -/
def isPointed (unsigned : List Char) : Bool :=
  unsigned.head?.any isAsciiDigit &&
    match unsigned.dropWhile isPlace with
    | '.' :: fraction => isExponent (fraction.dropWhile isPlace)
    | after =>
        match behindPlaces? after with
        | some ('.' :: fraction) => fraction.all isPlace
        | _ => false

/-- Whether a text is a fraction without anything in front of its point. -/
def isFraction : List Char → Bool
  | '.' :: first :: rest =>
      isAsciiDigit first && isExponent (rest.dropWhile isPlace)
  | _ => false

def infinityWords : List String := [".inf", ".Inf", ".INF"]

def noNumberWords : List String := [".nan", ".NaN", ".NAN"]

/-- The kind that the form of a plain scalar suggests. -/
def ofPlain (scalar : String) : Kind :=
  let text := scalar.toList
  let (_, unsigned) := takeSign text
  if nullWords.contains scalar then .nothing
  else if truthWords.contains scalar then .truth
  else if scalar == "<<" then .merge
  else if scalar == "=" then .standard
  else if isInteger unsigned then .integer
  else if isPointed unsigned || isFraction text ||
      infinityWords.contains (String.ofList unsigned) ||
      noNumberWords.contains scalar then .decimal
  else .text

end Kind

end ItemBinning.Document
