import ItemBinning.Engine.Activation

/-!
# Suspended activations

A processor may wait for leave to go on.  The activation that handed a bin to
it is then suspended: the bin is off the queue and not completed, and the bins
behind it are still queued.  When leave is given, the activation goes on from
there.
-/

namespace ItemBinning.Engine

open Depot

/-- An activation that waits for the processor of a bin, with what the processor
is still going to do. -/
structure Suspended where
  bin : BinId
  activation : Activation
  rest : Script (Option Outcome)

/-- How far an activation came. -/
inductive Progress
  | finished (activation : Activation)
  | suspended (suspension : Suspended)

/-- Hand bins to the processor one after the other, up to the first one that it
waits on. -/
def drainUntil (hooks : Hooks) :
    List BinId → Activation → Act Depot Progress
  | [], activation => pure (.finished activation)
  | bin :: rest, activation => do
      Act.modify fun depot => { depot with ready := rest }
      noteHandled bin
      let left ← fun depot =>
        let (left, reached) := (hooks.process bin).runToPause depot
        (.ok left, reached)
      match left with
      | .pause rest => pure (.suspended { bin, activation, rest })
      | finished => do
          let answer ← Act.attempt finished.run
          let reached ← settle bin answer activation
          drainUntil hooks rest reached

/-- Run one activation that is never stopped, up to the first bin that the
processor waits on. -/
def activateUntil (engine : Engine) : Act Depot Progress := do
  let answers ← Act.read alwaysScheduled
  let (itemsBinned, unused) ← takeIn engine answers
  if unused.headD false then do
    let binsMigrated ← migrateBins
    let queued ← Act.read (·.ready)
    match ← drainUntil engine.hooks queued { itemsBinned, binsMigrated } with
    | .finished activation => do
        let concluded ← conclude activation
        pure (.finished concluded)
    | .suspended suspension => pure (.suspended suspension)
  else pure (.finished { itemsBinned, cancelled := true })

/-- Run one activation that is never stopped; when the processor has leave to go
on, it waits on no bin. -/
def advanceActivation (engine : Engine) (leave : Bool) : Act Depot Progress :=
  if leave then .finished <$> engine.activateFully
  else activateUntil engine

/-- Go on with a suspended activation to its end. -/
def resume (engine : Engine) (suspension : Suspended) :
    Act Depot Activation := do
  let answer ← Act.attempt suspension.rest.run
  let activation ← settle suspension.bin answer suspension.activation
  let finished ← engine.drain activation
  conclude finished

end ItemBinning.Engine
