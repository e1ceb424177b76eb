import ItemBinning.Engine.Activation
import ItemBinning.Engine.Statistics
import ItemBinning.Hook.Grouping
import ItemBinning.Hook.Processor

/-!
# Simulations

A simulation draws a stream of items with random sizes and groups, bundles them
under a policy, and reports what happened.  It runs until the source is empty
and an activation is idle, or until the greatest number of activations is
reached.
-/

namespace ItemBinning

/-- What is simulated. -/
structure Simulation where
  items : Int := 1000
  groups : Int := 4
  minItemSize : Int := 1
  maxItemSize : Int := 4096
  maxActivations : Int := 10000
  seed : Option Int := none
  deriving Repr, DecidableEq, Inhabited

/-- A state of the sequence that sizes and groups are drawn from. -/
structure Dice where
  state : Nat

namespace Dice

/-- The states are the numbers below this one. -/
def range : Nat := 18446744073709551616

def ofSeed (seed : Int) : Dice :=
  ⟨(seed.emod range).toNat⟩

def next (dice : Dice) : Dice :=
  ⟨(dice.state * 6364136223846793005 + 1442695040888963407) % range⟩

/-- Draw a number from a range that includes both ends. -/
def between (dice : Dice) (least greatest : Int) : Except Fault (Int × Dice) :=
  if greatest < least then .error .emptyRange
  else
    let rolled := dice.next
    .ok (least + ((rolled.state >>> 33 : Nat) : Int).emod (greatest - least + 1),
      rolled)

end Dice

namespace Simulation

/-- The attribute that names the group of an item. -/
def groupAttribute : String := "group"

/-- Draw the item that follows a number of others: first its size, then its
group. -/
def drawItem (simulation : Simulation) (drawn : Nat) (dice : Dice) :
    Except Fault (Item × Dice) := do
  let (size, dice) ← dice.between simulation.minItemSize simulation.maxItemSize
  let (group, dice) ← dice.between 0 (simulation.groups - 1)
  if size < 0 then .error (.badFields ["size"])
  else
    .ok ({ id := Item.generatedId drawn
           size := .int size
           attributes := Table.ofList
             [(groupAttribute,
               .text ("group-" ++ Decimal.integerText group))] }, dice)

/-- Draw the items that follow a number of others. -/
def drawItems (simulation : Simulation) (drawn : Nat) (dice : Dice) :
    Nat → Except Fault (List Item)
  | 0 => .ok []
  | wanted + 1 => do
      let (item, dice) ← simulation.drawItem drawn dice
      let rest ← simulation.drawItems (drawn + 1) dice wanted
      .ok (item :: rest)

/-- The engine of a simulation. -/
def engine [Host] (chunkSize : Number) : Engine where
  hooks := {
    groupKey := (Grouping.byAttribute groupAttribute [] []).script
    process := (Processor.bundle "bundle").script }
  chunkSize

/-- Run activations until one is idle and the source is empty, and answer with
their number.  The last argument bounds them. -/
def runEngine (engine : Engine) : Nat → Act Depot Nat
  | 0 => pure 0
  | bound + 1 => do
      let activation ← engine.activateFully
      let exhausted ← Act.read fun depot => depot.flow.source.isEmpty
      if activation.isIdle && exhausted then pure 1
      else do
        let more ← runEngine engine bound
        pure (more + 1)

/-- The depot that a simulation starts with. -/
def depot (items : List Item) (policy : Policy) : Depot where
  flow := { source := items, sinks := Flow.sinksFor [] }
  shelf := { thresholds := policy.thresholds }

def received (depot : Depot) (relationship : String) : Nat :=
  ((depot.flow.sinks.find? relationship).getD []).length

/-- What a simulation reports after a number of activations. -/
def report (activations : Nat) (depot : Depot) : List (String × Nat) :=
  depot.statistics ++
    [("activations", activations),
     ("success_items", received depot successRelationship),
     ("failure_items", received depot failureRelationship),
     ("pending_items", depot.flow.source.length)]

/-- A report, one line for each entry. -/
def reportText (entries : List (String × Nat)) : String :=
  "\x7b\n" ++
    ",\n".intercalate (entries.map fun (name, value) =>
      "  \"" ++ name ++ "\": " ++ Decimal.integerText value) ++
    "\n\x7d\n"

/-- The announcement of a simulation. -/
def announcement (simulation : Simulation) : String :=
  "Simulating " ++ Decimal.integerText simulation.items ++ " items across " ++
    Decimal.integerText simulation.groups ++ " groups...\n\n"

/-- Run a simulation under a policy, and answer with its report. -/
def run [Host] (simulation : Simulation) (items : List Item) (policy : Policy)
    (chunkSize : Number) : Except Fault (List (String × Nat)) :=
  match runEngine (engine chunkSize) simulation.maxActivations.toNat
      (depot items policy) with
  | (.ok activations, reached) => .ok (report activations reached)
  | (.error fault, _) => .error fault

end Simulation

end ItemBinning
