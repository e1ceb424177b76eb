import ItemBinning.Engine.Basic

/-!
# Draining the queue

Every queued bin is handed to the processor, and its session is completed by
the outcome.  The items of a processed bin are delivered to success with the
attributes of the outcome; after a recoverable fault they are delivered to
failure; after any other fault the session is rolled back.
-/

namespace ItemBinning.Engine

open Depot

def deliver (bin : BinId) (relationship : String) : Act Depot Unit := do
  let held ← Act.read (·.bin bin)
  onFlow (Flow.route held.session held.contents relationship)
  onFlow (Flow.commit held.session)

def annotateAll (bin : BinId) (attributes : Attributes) : Act Depot Unit := do
  let held ← Act.read (·.bin bin)
  Act.forEach held.contents fun item => do
    let _ ← onFlow (Flow.annotate held.session item attributes)
    pure ()

/-- Complete the session of a bin by an outcome.  A processor that claims to
have completed the session must have left nothing in it. -/
def finalise (bin : BinId) (outcome : Option Outcome) : Act Depot Unit := do
  match outcome with
  | none => Act.fail .noOutcome
  | some outcome =>
      if outcome.committed then do
        let held ← Act.read fun depot => (depot.binSession bin).current.size
        if held = 0 then pure () else Act.fail (.unfinishedClaim held)
      else do
        annotateAll bin outcome.attributes
        deliver bin successRelationship

/-- Roll a bin back. -/
def giveUp (bin : BinId) (activation : Activation) : Act Depot Activation := do
  discard bin
  count fun counters =>
    { counters with binsRolledBack := counters.binsRolledBack + 1 }
  pure { activation with binsRolledBack := activation.binsRolledBack + 1 }

/-- Deliver a bin to failure, or roll it back if that cannot be done. -/
def fail (bin : BinId) (activation : Activation) : Act Depot Activation := do
  match ← Act.attempt (deliver bin failureRelationship) with
  | .ok () => do
      mark bin .processed
      count fun counters =>
        { counters with binsFailed := counters.binsFailed + 1 }
      pure { activation with binsFailed := activation.binsFailed + 1 }
  | .error fault =>
      if fault.kind = .session then giveUp bin activation else Act.fail fault

/-- Deliver a processed bin, or roll it back if that cannot be done. -/
def succeed (bin : BinId) (outcome : Option Outcome) (activation : Activation) :
    Act Depot Activation := do
  match ← Act.attempt (finalise bin outcome) with
  | .ok () => do
      mark bin .processed
      count fun counters =>
        { counters with binsProcessed := counters.binsProcessed + 1 }
      pure { activation with binsProcessed := activation.binsProcessed + 1 }
  | .error _ => giveUp bin activation

/-- Complete a bin by what the processor answered. -/
def settle (bin : BinId) (answer : Except Fault (Option Outcome))
    (activation : Activation) : Act Depot Activation :=
  match answer with
  | .ok outcome => succeed bin outcome activation
  | .error .recoverable => fail bin activation
  | .error _ => giveUp bin activation

def noteHandled (bin : BinId) : Act Depot Unit :=
  Act.modify fun depot => { depot with handled := depot.handled ++ [bin] }

/-- Hand a bin to the processor and complete it. -/
def handle (hooks : Hooks) (bin : BinId) (activation : Activation) :
    Act Depot Activation := do
  noteHandled bin
  let answer ← Act.attempt (hooks.process bin).run
  settle bin answer activation

/-- Hand bins to the processor one after the other.  Each is taken off the
queue before it is handled. -/
def drainBins (hooks : Hooks) :
    List BinId → Activation → Act Depot Activation
  | [], activation => pure activation
  | bin :: rest, activation => do
      Act.modify fun depot => { depot with ready := rest }
      let reached ← handle hooks bin activation
      drainBins hooks rest reached

def drain (engine : Engine) (activation : Activation) :
    Act Depot Activation := do
  let queued ← Act.read (·.ready)
  drainBins engine.hooks queued activation

end ItemBinning.Engine
