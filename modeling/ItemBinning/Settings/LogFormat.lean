import ItemBinning.Settings
import ItemBinning.Text.Alphanumeric

/-!
# The logging section

The logging section is checked before a command runs.  The format has to hold a
named field such as `%(message)s`, and the level has to be a number or the name
of a known level.
-/

namespace ItemBinning.LogFormat

/-- The marks that may stand in front of a width. -/
def flags : List Char := ['#', '0', '+', ' ', '-']

/-- The letters that may end a field, in lower case. -/
def conversions : List Char :=
  ['d', 'i', 'o', 'u', 'x', 'e', 'f', 'g', 'c', 'r', 's', 'a', '%']

/-- The letters outside of ASCII that count as one of these letters. -/
def letterVariants : List (Char × Char) :=
  [('\u017f', 's'), ('\u0131', 'i'), ('\u0130', 'i')]

/-- Whether a character ends a field, in either case. -/
def isConversion (character : Char) : Bool :=
  conversions.contains
    ((letterVariants.lookup character).getD character.toLower)

/-- Drop a width: a star, or digits. -/
def dropWidth : List Char → List Char
  | '*' :: rest => rest
  | rest => rest.dropWhile Text.isDecimalDigit

/-- Drop a precision, if there is one: a point with a star or digits. -/
def dropPrecision : List Char → List Char
  | '.' :: rest =>
      let after := dropWidth rest
      if after.length < rest.length then after else '.' :: rest
  | rest => rest

/-- Whether a named field stands at the front of a format. -/
def startsField : List Char → Bool
  | '%' :: '(' :: rest =>
      match rest.span Text.isNameCharacter with
      | (_ :: _, ')' :: after) =>
          match dropPrecision (dropWidth (after.dropWhile flags.contains)) with
          | letter :: _ => isConversion letter
          | [] => false
      | _ => false
  | _ => false

/-- Whether a format holds a named field. -/
def hasField : List Char → Bool
  | [] => false
  | first :: rest => startsField (first :: rest) || hasField rest

def levels : List String :=
  ["CRITICAL", "FATAL", "ERROR", "WARN", "WARNING", "INFO", "DEBUG", "NOTSET"]

/-- Check a format.  A value that counts as false gives none, so that the default
format is used. -/
def checkFormat (value : Value) : Except Fault Unit :=
  if value.isTruthy then
    match value with
    | .text format =>
        if hasField format.toList then .ok () else .error (.badLogFormat format)
    | _ => .error .wrongType
  else .ok ()

def checkLevel : Value → Except Fault Unit
  | .null => .ok ()
  | .bool _ => .ok ()
  | .number (.int _) => .ok ()
  | .text name =>
      if levels.contains name then .ok () else .error (.unknownLevel name)
  | _ => .error .wrongType

def check (logging : Section) : Except Fault Unit := do
  checkFormat (logging.get "format")
  checkLevel (logging.get "level")

end ItemBinning.LogFormat
