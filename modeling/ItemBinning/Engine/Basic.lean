import ItemBinning.Hook.Script

/-!
# Engines

An engine is a set of hooks and the greatest number of items that are pulled
from the source at once.  It works in activations; an activation reports what
it did, and one that did nothing is idle.
-/

namespace ItemBinning

/-- The hooks of an engine and the size of its chunks. -/
structure Engine where
  hooks : Hooks
  chunkSize : Number := .int 1000

/-- What a single activation did. -/
structure Activation where
  itemsBinned : Nat := 0
  binsMigrated : Nat := 0
  binsProcessed : Nat := 0
  binsFailed : Nat := 0
  binsRolledBack : Nat := 0
  cancelled : Bool := false
  deriving Repr, DecidableEq, Inhabited

/-- An activation that was carried through and accomplished nothing.  Bins that
were only rolled back do not count. -/
def Activation.isIdle (activation : Activation) : Bool :=
  activation.itemsBinned == 0 && activation.binsMigrated == 0 &&
    activation.binsProcessed == 0 && activation.binsFailed == 0 &&
    !activation.cancelled

namespace Engine

/-- Read a chunk size, which has to be a positive number. -/
def readChunkSize (value : Value) : Except Fault Number :=
  let checked (number : Number) : Except Fault Number :=
    if number.isAtMostZero then .error (.badChunkSize value) else .ok number
  match value with
  | .bool truth => checked (.int (if truth then 1 else 0))
  | .number number => checked number
  | _ => .error .wrongType

end Engine

end ItemBinning
