import ItemBinning.Engine.Drain
import ItemBinning.Engine.Intake
import ItemBinning.Engine.Migration

/-!
# Activations

An activation takes items in, moves ready bins to the queue and drains the
queue.  Intake is skipped while open and queued bins together leave no room.
The schedule is asked before each chunk and before migration; an activation
that is no longer scheduled then stops where it is.
-/

namespace ItemBinning.Engine

open Depot

/-- Whether open and queued bins leave room for another bin. -/
def hasCapacity : Act Depot Bool := fun depot =>
  (depot.shelf.hasRoom (depot.shelf.binCount + depot.ready.length), depot)

/-- Take items in, if there is capacity, and answer with the number of items
binned and the unused answers of the schedule. -/
def takeIn (engine : Engine) (answers : List Bool) :
    Act Depot (Nat × List Bool) := do
  if ← hasCapacity then intake engine answers
  else pure (0, answers)

def conclude (activation : Activation) : Act Depot Activation := do
  if activation.isIdle then
    count fun counters => { counters with yields := counters.yields + 1 }
  pure activation

/-- Run one activation; the list holds the answers of its schedule, after whose
end it is not scheduled. -/
def activate (engine : Engine) (answers : List Bool) :
    Act Depot Activation := do
  let (itemsBinned, unused) ← takeIn engine answers
  if unused.headD false then do
    let binsMigrated ← migrateBins
    let activation ← engine.drain { itemsBinned, binsMigrated }
    conclude activation
  else pure { itemsBinned, cancelled := true }

/-- Answers of a schedule that never stops an activation.  Each chunk but the
last takes an item from the source, so this many answers are enough for hooks
that put nothing on the source. -/
def alwaysScheduled (depot : Depot) : List Bool :=
  List.replicate (depot.flow.source.length + 2) true

/-- Run one activation that is never stopped. -/
def activateFully (engine : Engine) : Act Depot Activation := do
  let answers ← Act.read alwaysScheduled
  engine.activate answers

/-- Discard every open bin and every queued bin. -/
def reset : Act Depot Unit := do
  let _ ← Shelf.purge
  let queued ← dequeueAll
  Act.forEach queued discard

end ItemBinning.Engine
