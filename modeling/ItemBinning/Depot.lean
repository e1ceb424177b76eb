import ItemBinning.Bin
import ItemBinning.Flow
import ItemBinning.Item.Creation

/-!
# The depot

The depot is everything that items and bins pass through: the flow of items
with its sessions, the bins in order of creation, the shelf of open bins, the
queue of ready bins, the clock, and the counters.  This file defines what is
done with a single bin and with the queue of ready bins.
-/

namespace ItemBinning

/-- The open bins of each group, the thresholds in force, and how many bins are
open. -/
structure Shelf where
  thresholds : Thresholds := {}
  groups : Table Key (List BinId) := .empty
  binCount : Nat := 0

instance : Inhabited Shelf := ⟨{}⟩

/-- The open bins of a group, in order of creation. -/
def Shelf.binsOf (shelf : Shelf) (group : Key) : List BinId :=
  (shelf.groups.find? group).getD []

/-- Replace the open bins of a group; a group without bins is not kept. -/
def Shelf.setGroup (shelf : Shelf) (group : Key) (bins : List BinId) : Shelf :=
  { shelf with
    groups := if bins.isEmpty then shelf.groups.erase group
      else shelf.groups.put group bins }

/-- All open bins, group by group. -/
def Shelf.bins (shelf : Shelf) : List BinId :=
  shelf.groups.values.flatten

/-- Whether fewer bins are open than may be, or a number of bins in place of
those that are open. -/
def Shelf.hasRoom (shelf : Shelf) (count : Nat := shelf.binCount) :
    Except Fault Bool :=
  (Value.int count).isBelow shelf.thresholds.maxBinCount

/-- Whether as many bins are open as may be. -/
def Shelf.isAtCapacity (shelf : Shelf) : Except Fault Bool :=
  (Value.int shelf.binCount).isAtLeast shelf.thresholds.maxBinCount

/-- What the engine did since it was built. -/
structure Counters where
  itemsBinned : Nat := 0
  groupingFailures : Nat := 0
  unboundItems : Nat := 0
  binsMigrated : Nat := 0
  binsAged : Nat := 0
  binsEvicted : Nat := 0
  binsProcessed : Nat := 0
  binsFailed : Nat := 0
  binsRolledBack : Nat := 0
  yields : Nat := 0
  deriving Repr, DecidableEq, Inhabited

/-- The state that an engine works on.  The bins handed to the processor are
kept in order, bundles and created items are counted to number them, the tallies
belong to the hooks, and so do the moves: the items that hooks brought into
sessions, each with its session. -/
structure Depot where
  flow : Flow := {}
  bins : Slots Bin := {}
  clock : Moment := {}
  shelf : Shelf := {}
  ready : List BinId := []
  counters : Counters := {}
  handled : List BinId := []
  bundles : Nat := 0
  created : Nat := 0
  tallies : Table String Nat := .empty
  moves : List (SessionId × String) := []

namespace Depot

instance : Inhabited Depot := ⟨{}⟩

def bin (depot : Depot) (number : BinId) : Bin :=
  depot.bins.get number

def setBin (depot : Depot) (number : BinId) (bin : Bin) : Depot :=
  { depot with bins := depot.bins.set number bin }

/-- The session that owns the items of a bin. -/
def binSession (depot : Depot) (number : BinId) : Session :=
  depot.flow.session (depot.bin number).session

def onFlow {α : Type} (act : Act Flow α) : Act Depot α :=
  act.within (·.flow) fun depot flow => { depot with flow }

/-- The items that a session holds at a later time and did not hold before. -/
def arrivals (session : SessionId) (before after : Depot) :
    List (SessionId × String) :=
  ((after.flow.session session).ids.filter fun id =>
    !(before.flow.session session).holds id).map fun id => (session, id)

/-- Carry out an act of a hook and note the items that it brought into a
session. -/
def noteArrivals {α : Type} (session : SessionId) (act : Act Depot α) :
    Act Depot α := fun depot =>
  match act depot with
  | (outcome, reached) =>
      (outcome,
        { reached with moves := reached.moves ++ arrivals session depot reached })

def modifyShelf (change : Shelf → Shelf) : Act Depot Unit :=
  Act.modify fun depot => { depot with shelf := change depot.shelf }

/-- An answer of the shelf of open bins, which may be a fault. -/
def askShelf {α : Type} (question : Shelf → Except Fault α) : Act Depot α :=
  fun depot => (question depot.shelf, depot)

def modifyThresholds (change : Thresholds → Thresholds) : Act Depot Unit :=
  modifyShelf fun shelf => { shelf with thresholds := change shelf.thresholds }

def applyPolicy (policy : Policy) : Act Depot Unit :=
  modifyThresholds fun _ => policy.thresholds

def count (change : Counters → Counters) : Act Depot Unit :=
  Act.modify fun depot => { depot with counters := change depot.counters }

/-- Move the clock and answer with the new time. -/
def advance (seconds : Float) : Act Depot Float := fun depot =>
  let clock := depot.clock.advance seconds
  (.ok clock.seconds, { depot with clock })

/-- Create an item from named values.  One without an identifier takes the next
generated one, also if it cannot be created. -/
def createItem (fields : Fields) : Act Depot Item := fun depot =>
  (Item.ofFields fields (Item.generatedId depot.created),
    { depot with
      created := if Item.needsId fields then depot.created + 1
        else depot.created })

/-- Create a bin owned by a session, now. -/
def createBin (session : SessionId) (bounds : Bounds) (group : Value) :
    Act Depot BinId := fun depot =>
  (.ok depot.bins.next,
    { depot with
      bins := depot.bins.push { session, bounds, group, created := depot.clock } })

/-- Let a bin take an item that a session holds into its own session. -/
def takeInto (number : BinId) (item : Item) (source : SessionId) :
    Act Depot Unit := do
  let bin ← Act.read (·.bin number)
  onFlow (Flow.migrate source bin.session [item])
  Act.modify (·.setBin number (bin.take item))
  let size ← Act.ofExcept (bin.sizeWith item)
  Act.modify (·.setBin number { bin.take item with size })

/-- Offer an item that a session holds to a bin.  A bin with room for the item
takes it over into its own session. -/
def offerTo (number : BinId) (item : Item) (source : SessionId) :
    Act Depot Bool := do
  let bin ← Act.read (·.bin number)
  if bin.state = .opened then
    if ← Act.ofExcept (bin.turnsDown item) then do
      Act.modify (·.setBin number bin.reject)
      pure false
    else do
      Act.modify (·.setBin number bin.resetRejections)
      takeInto number item source
      pure true
  else Act.fail (.closedBin bin.state)

def mark (number : BinId) (target : BinState) : Act Depot Unit := do
  let bin ← Act.read (·.bin number)
  let moved ← Act.ofExcept (bin.moveTo target)
  Act.modify (·.setBin number moved)

def markReady (number : BinId) (reason : ReadyReason) : Act Depot Unit := do
  mark number .ready
  Act.modify fun depot =>
    depot.setBin number { depot.bin number with reason := some reason }

def enqueue (numbers : List BinId) : Act Depot Unit :=
  Act.modify fun depot => { depot with ready := depot.ready ++ numbers }

/-- Take the first bin off the queue, if there is one. -/
def dequeue : Act Depot (Option BinId) := fun depot =>
  (.ok depot.ready.head?, { depot with ready := depot.ready.tail })

def dequeueAll : Act Depot (List BinId) := fun depot =>
  (.ok depot.ready, { depot with ready := [] })

/-- Roll back the session of a bin and close the bin. -/
def discard (number : BinId) : Act Depot Unit := do
  let bin ← Act.read (·.bin number)
  onFlow (Flow.rollBack bin.session)
  mark number .rolledBack

end Depot

end ItemBinning
