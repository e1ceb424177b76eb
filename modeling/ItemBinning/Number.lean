import ItemBinning.Decimal.Numeral

/-!
# Numbers

Sizes, counts, ages and time-outs are given either as integers, which are kept
exactly, or as doubles.  Numbers are compared by their exact values; a double
that is not a number stands in no order to any number.
-/

namespace ItemBinning

/-- An exact integer or a double. -/
inductive Number
  | int (value : Int)
  | float (value : Float)

namespace Number

instance : Inhabited Number := ⟨.int 0⟩

/-- One for true and zero for false. -/
def ofTruth (value : Bool) : Number :=
  .int (if value then 1 else 0)

def text : Number → String
  | .int value => Decimal.integerText value
  | .float value => Decimal.floatText value

/-- Whether a number can be written; every double can. -/
def isWritable [Host] : Number → Bool
  | .int value => Decimal.isWritable value
  | .float _ => true

/-- The nearest double, none for integers that are too large. -/
def toFloat? : Number → Option Float
  | .int value => Decimal.ofInteger? value
  | .float value => some value

/-- The order of two numbers, none if one of them is not a number. -/
def compare? : Number → Number → Option Ordering
  | .int first, .int other => some (compare first other)
  | .float first, .int other =>
      (Decimal.Binary64.ofFloat first).compareInt? other
  | .int first, .float other =>
      ((Decimal.Binary64.ofFloat other).compareInt? first).map Ordering.swap
  | .float first, .float other => Decimal.compareFloats? first other

/-- The sum of two numbers; it is a double unless both are integers, and none
if an integer is too large to be added to a double. -/
def add? : Number → Number → Option Number
  | .int first, .int other => some (.int (first + other))
  | first, other => do
      return .float ((← first.toFloat?) + (← other.toFloat?))

def isZero (number : Number) : Bool :=
  number.compare? (.int 0) == some .eq

/-- Whether a number is at most zero; what is not a number is not. -/
def isAtMostZero (number : Number) : Bool :=
  match number.compare? (.int 0) with
  | some .lt | some .eq => true
  | _ => false

@[simp] theorem compare?_int (first other : Int) :
    compare? (.int first) (.int other) = some (compare first other) :=
  rfl

@[simp] theorem add?_int (first other : Int) :
    add? (.int first) (.int other) = some (.int (first + other)) :=
  rfl

theorem isAtMostZero_int (value : Int) :
    (int value).isAtMostZero = decide (value ≤ 0) := by
  unfold isAtMostZero
  rw [compare?_int, Int.compare_eq_ite_le]
  grind

end Number

end ItemBinning
