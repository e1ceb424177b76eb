import ItemBinning.Item
import ItemBinning.Moment
import ItemBinning.Thresholds

/-!
# Bins

A bin collects the items of one group within the bounds it was created with.
It is full when it reached a maximum or turned down many offers in a row, and
full enough when it is full or reached both minimums.  The bounds are compared
with as they were given, so each of these questions may fail.
-/

namespace ItemBinning

/-- The number of a bin, counted from zero in order of creation. -/
abbrev BinId := Nat

/-- An ordered batch of items with its bounds; the session owns the items. -/
structure Bin where
  session : SessionId := 0
  bounds : Bounds := {}
  group : Value := .null
  created : Moment := {}
  contents : List Item := []
  size : Number := .int 0
  rejections : Nat := 0
  state : BinState := .opened
  reason : Option ReadyReason := none

namespace Bin

instance : Inhabited Bin := ⟨{}⟩

/-- A bin that turned down more offers than this in a row is full. -/
def rejectionLimit : Nat := 5

def entryCount (bin : Bin) : Nat :=
  bin.contents.length

def reachedEntries (bin : Bin) : Except Fault Bool :=
  bin.bounds.maxEntries.limits (Value.int bin.entryCount).isAtLeast

def reachedSize (bin : Bin) : Except Fault Bool :=
  bin.bounds.maxSize.limits (Value.number bin.size).isAtLeast

def sizeWith (bin : Bin) (item : Item) : Except Fault Number :=
  match item.size.number? with
  | none => .error .wrongType
  | some size =>
      match bin.size.add? size with
      | some total => .ok total
      | none => .error .overflow

def overflowsWith (bin : Bin) (item : Item) : Except Fault Bool :=
  bin.bounds.maxSize.limits fun greatest => do
    (Value.number (← bin.sizeWith item)).isAbove greatest

/-- Whether the bounds leave no room for an item. -/
def turnsDown (bin : Bin) (item : Item) : Except Fault Bool := do
  if ← bin.reachedEntries then return true
  else bin.overflowsWith item

def isFull (bin : Bin) : Except Fault Bool := do
  if ← bin.reachedSize then return true
  else if ← bin.reachedEntries then return true
  else return rejectionLimit < bin.rejections

def meetsMinimums (bin : Bin) : Except Fault Bool := do
  if ← (Value.number bin.size).isAtLeast bin.bounds.minSize then
    (Value.int bin.entryCount).isAtLeast bin.bounds.minEntries
  else return false

def isFullEnough (bin : Bin) : Except Fault Bool := do
  if ← bin.isFull then return true
  else bin.meetsMinimums

def age (bin : Bin) (clock : Moment) : Float :=
  clock.seconds - bin.created.seconds

/-- Whether the bin is older than a limit; without a limit it never is. -/
def isOlderThan (bin : Bin) (clock : Moment) (limit : Value) :
    Except Fault Bool :=
  limit.limits (Value.float (bin.age clock)).isAbove

def reject (bin : Bin) : Bin :=
  { bin with rejections := bin.rejections + 1 }

def resetRejections (bin : Bin) : Bin :=
  { bin with rejections := 0 }

def take (bin : Bin) (item : Item) : Bin :=
  { bin with contents := bin.contents ++ [item] }

def moveTo (bin : Bin) (target : BinState) : Except Fault Bin :=
  if bin.state.successors.contains target then
    .ok { bin with state := target }
  else .error (.illegalTransition bin.state target)

/-- The reason for which a bin is ready at a time, if it is.  Unless relaxed,
only a full bin is ready. -/
def readyReason? (bin : Bin) (relaxed : Bool) (clock : Moment)
    (ageLimit : Value) : Except Fault (Option ReadyReason) := do
  if ← bin.isFull then return some .full
  else if !relaxed then return none
  else if ← bin.isFullEnough then return some .threshold
  else if ← bin.isOlderThan clock ageLimit then return some .aged
  else return none

def describe (bin : Bin) : String :=
  "Bin(group_id=" ++ bin.group.quoted ++ ", entries=" ++
    Decimal.integerText bin.entryCount ++ ", size=" ++ bin.size.text ++
    ", state=" ++ bin.state.name ++ ")"

end Bin

/-- Whether the first of two numbered bins was created before the other: at an
earlier moment, or at the same one and with a smaller number. -/
def createdBefore (first other : BinId × Bin) : Bool :=
  if first.2.created.isSame other.2.created then first.1 < other.1
  else first.2.created.isBefore other.2.created

end ItemBinning
