import ItemBinning.Decimal.FieldNumeral
import ItemBinning.Fault
import ItemBinning.Sorted

/-!
# Typed fields

A record is built from named values.  Each field takes a value of its type, or
one that stands for such a value without loss: a whole number without a
fraction, a truth value as zero or one, the text of a number.  When fields hold
anything else the record is refused with the names of all of them.
-/

namespace ItemBinning

/-- Named values, as given for the fields of a record. -/
abbrev Fields := List (String × Value)

/-- A result, or the names of the fields at fault. -/
def Checked (α : Type) : Type := Except (List String) α

namespace Checked

variable {α β : Type}

/-- Apply a checked function; the faults of both sides are kept. -/
def both (function : Checked (α → β)) (argument : Checked α) : Checked β :=
  match function, argument with
  | .ok apply, .ok value => .ok (apply value)
  | .ok _, .error names => .error names
  | .error names, .ok _ => .error names
  | .error first, .error second => .error (first ++ second)

/-- A result with nothing to check. -/
def certain (value : α) : Checked α := .ok value

/-- The checked record, or one fault for all its fields in alphabetical order. -/
def finish (checked : Checked α) : Except Fault α :=
  match checked with
  | .ok value => .ok value
  | .error names => .error (.badFields (sortBy (· < ·) names))

end Checked

namespace TypedField

open Decimal

/-- The integers below this magnitude may be given as doubles. -/
def wholeLimit : Int := 9223372036854775808

/-- The integer that a double without fraction stands for. -/
def wholeOfFloat? (number : Float) : Option Int :=
  let exact := Binary64.ofFloat number
  if exact.isWhole then
    exact.truncate?.filter fun whole => -wholeLimit < whole && whole < wholeLimit
  else none

def integer? : Value → Option Int
  | .bool value => some (if value then 1 else 0)
  | .number (.int value) => some value
  | .number (.float value) => wholeOfFloat? value
  | .text value => FieldNumeral.integer? value
  | _ => none

/-- Read an integer that is not negative. -/
def natural? (value : Value) : Option Int :=
  (integer? value).filter fun number => 0 ≤ number

def float? : Value → Option Float
  | .bool value => some (if value then 1.0 else 0.0)
  | .number (.int value) => ofInteger? value
  | .number (.float value) => some value
  | .text value => FieldNumeral.decimal? value
  | _ => none

def text? : Value → Option String
  | .text value => some value
  | _ => none

def trueWords : List String := ["1", "on", "t", "true", "y", "yes"]

def falseWords : List String := ["0", "off", "f", "false", "n", "no"]

def truth? : Value → Option Bool
  | .bool value => some value
  | .number (.int value) =>
      if value = 1 then some true else if value = 0 then some false else none
  | .number (.float value) =>
      if value == 1.0 then some true
      else if value == 0.0 then some false else none
  | .text value =>
      let lower := value.toLower
      if trueWords.contains lower then some true
      else if falseWords.contains lower then some false else none
  | _ => none

/-- Read a field that may be null. -/
def optional {α : Type} (read : Value → Option α) : Value → Option (Option α)
  | .null => some none
  | value => (read value).map some

/-- A field read from named values, or its default when it is not among them. -/
def withDefault {α : Type} (fields : Fields) (name : String) (absent : α)
    (read : Value → Option α) : Checked α :=
  match fields.lookup name with
  | none => .ok absent
  | some value =>
      match read value with
      | some result => .ok result
      | none => .error [name]

/-- A field that has to be among the named values. -/
def required {α : Type} (fields : Fields) (name : String)
    (read : Value → Option α) : Checked α :=
  match (fields.lookup name).bind read with
  | some result => .ok result
  | none => .error [name]

end TypedField

end ItemBinning
