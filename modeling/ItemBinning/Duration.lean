import ItemBinning.Fault
import ItemBinning.Quantity

/-!
# Durations

A duration is a number of seconds, or a quantity whose unit is an ASCII word in
the table of time units, in either case.  No unit means seconds.
-/

namespace ItemBinning.Duration

/-- The time units with the number of seconds in each. -/
def units : List (String × Float) :=
  [("ns", 1e-9), ("nano", 1e-9), ("nanos", 1e-9), ("nanosecond", 1e-9),
   ("nanoseconds", 1e-9),
   ("ms", 1e-3), ("milli", 1e-3), ("millis", 1e-3), ("millisecond", 1e-3),
   ("milliseconds", 1e-3),
   ("s", 1.0), ("sec", 1.0), ("secs", 1.0), ("second", 1.0), ("seconds", 1.0),
   ("m", 60.0), ("min", 60.0), ("mins", 60.0), ("minute", 60.0),
   ("minutes", 60.0),
   ("h", 3600.0), ("hr", 3600.0), ("hrs", 3600.0), ("hour", 3600.0),
   ("hours", 3600.0),
   ("d", 86400.0), ("day", 86400.0), ("days", 86400.0),
   ("w", 604800.0), ("wk", 604800.0), ("wks", 604800.0), ("week", 604800.0),
   ("weeks", 604800.0)]

/-- The number of seconds in a unit, in either case; no unit means seconds. -/
def factor? (unit : List Char) : Option Float :=
  if unit.isEmpty then some 1.0
  else units.lookup (String.ofList (unit.map Char.toLower))

def ofQuantity (value : Value) (quantity : Quantity) : Except Fault Float :=
  if quantity.unit.all Char.isAlpha then
    match factor? quantity.unit with
    | some factor => .ok (quantity.number * factor)
    | none => .error (.unknownTimeUnit value)
  else .error (.invalidDuration value)

def parse (value : Value) : Except Fault Float :=
  match value with
  | .bool _ => .error (.invalidDuration value)
  | .number (.int seconds) =>
      if seconds < 0 then .error (.negativeDuration (.int seconds))
      else
        match Decimal.ofInteger? seconds with
        | some exact => .ok exact
        | none => .error .overflow
  | .number (.float seconds) =>
      if seconds < 0 then .error (.negativeDuration (.float seconds))
      else .ok seconds
  | _ =>
      match Quantity.read? value.display.toList with
      | some quantity => ofQuantity value quantity
      | none => .error (.invalidDuration value)

end ItemBinning.Duration
