import ItemBinning.Decimal.Binary64

/-!
# Moments

The clock shows seconds and stands still until it is moved.  Two moments are the
same if the clock was not moved between them, whatever it shows, or if it shows
the same seconds at both.
-/

namespace ItemBinning

/-- What the clock shows, and how often it was moved before. -/
structure Moment where
  seconds : Float := 1000
  moves : Nat := 0

namespace Moment

instance : Inhabited Moment := ⟨{}⟩

def advance (moment : Moment) (seconds : Float) : Moment where
  seconds := moment.seconds + seconds
  moves := moment.moves + 1

def isSame (first other : Moment) : Bool :=
  first.moves == other.moves ||
    Decimal.compareFloats? first.seconds other.seconds == some .eq

/-- Whether the clock shows less at the first moment than at the other. -/
def isBefore (first other : Moment) : Bool :=
  Decimal.compareFloats? first.seconds other.seconds == some .lt

@[simp] theorem isSame_self (moment : Moment) : moment.isSame moment = true := by
  simp [isSame]

end Moment

end ItemBinning
