import ItemBinning.Decimal.Remainder
import ItemBinning.Hook.Script

/-!
# Ready-made group keys

Items can be grouped by one of their attributes, by their size, by their
identifier, or all together.
-/

namespace ItemBinning

/-- A way to compute the group key of an item. -/
inductive Grouping
  /-- By an attribute that has to be there; some of its values give no usable
  key and some are refused. -/
  | byAttribute (name : String) (unusable refused : List Value)
  | sizeModulo (divisor : Number)
  | constant (key : Value)
  | identifier

namespace Grouping

def noKey : Value := .list []

/-- The remainder of a size, with the sign of the divisor. -/
def remainder? (size divisor : Number) : Option Number :=
  match size, divisor with
  | .int size, .int divisor =>
      if divisor = 0 then none else some (.int (Int.fmod size divisor))
  | size, divisor => do
      return .float (← Decimal.remainder? (← size.toFloat?) (← divisor.toFloat?))

def script (grouping : Grouping) (item : Item) : Script Value :=
  match grouping with
  | .byAttribute name unusable refused =>
      match item.attributes.find? name with
      | none => .fail .hookFailure
      | some value =>
          if value.isAmong unusable then .done noKey
          else if value.isAmong refused then .fail .hookFailure
          else .done value
  | .sizeModulo divisor =>
      match item.size.number?.bind (remainder? · divisor) with
      | some rest => .done (.text rest.text)
      | none => .fail .hookFailure
  | .constant key => .done key
  | .identifier => .done (.text item.id)

end Grouping

end ItemBinning
