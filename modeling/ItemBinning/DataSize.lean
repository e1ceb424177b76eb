import ItemBinning.Fault
import ItemBinning.Quantity

/-!
# Data sizes

A data size is a count of bytes, or a quantity whose unit is a binary multiple
of the byte.  The letters of a unit may have either case.  The number of a
written size is read as a double, so only sizes that a double can hold are
exact.
-/

namespace ItemBinning.DataSize

/-- The units with the number of bytes in each. -/
def units : List (String × Nat) :=
  [("B", 1), ("KB", 1024), ("MB", 1048576), ("GB", 1073741824),
   ("TB", 1099511627776)]

/-- The number of bytes in a unit in upper case. -/
def factor? (unit : List Char) : Option Nat :=
  units.lookup (String.ofList unit)

/-- Upper case of a letter, where the kelvin sign counts as a letter K. -/
def foldLetter (letter : Char) : Char :=
  if letter == '\u212A' then 'K' else letter.toUpper

/-- The number of bytes in a written unit; no unit means bytes.  The kelvin
sign passes for a letter K but no unit is listed with it. -/
def unitFactor (value : Value) (unit : List Char) : Except Fault Nat :=
  if unit.isEmpty then .ok 1
  else
    let upper := unit.map Char.toUpper
    match factor? upper with
    | some factor => .ok factor
    | none =>
        if (factor? (unit.map foldLetter)).isSome then
          .error (.unlistedSizeUnit (String.ofList upper))
        else .error (.invalidSize value)

def ofQuantity (value : Value) (quantity : Quantity) : Except Fault Int := do
  let factor ← unitFactor value quantity.unit
  match Decimal.truncate? (quantity.number * Float.ofNat factor) with
  | some bytes => .ok bytes
  | none => .error .overflow

def parse (value : Value) : Except Fault Int :=
  match value with
  | .bool _ => .error (.invalidSize value)
  | .number (.int bytes) =>
      if bytes < 0 then .error (.negativeSize bytes) else .ok bytes
  | _ =>
      match Quantity.read? value.display.toList with
      | some quantity => ofQuantity value quantity
      | none => .error (.invalidSize value)

end ItemBinning.DataSize
