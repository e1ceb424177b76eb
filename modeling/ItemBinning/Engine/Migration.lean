import ItemBinning.Engine.Basic
import ItemBinning.Shelf.Removal

/-!
# Migration

Migration moves the ready bins from the shelf to the queue.  When no bin is
ready and as many bins are open as may be, the oldest bin is evicted, since
otherwise no further item could be binned.
-/

namespace ItemBinning.Engine

open Depot

/-- Evict the oldest bin if as many are open as may be, and answer with the number
of bins queued. -/
def evictAtCapacity : Act Depot Nat := do
  if ← askShelf Shelf.isAtCapacity then
    match ← Shelf.removeOldest with
    | none => pure 0
    | some oldest => do
        enqueue [oldest]
        count fun counters =>
          { counters with binsEvicted := counters.binsEvicted + 1 }
        pure 1
  else pure 0

/-- The number of bins that are ready because of their age. -/
def agedAmong (depot : Depot) (bins : List BinId) : Nat :=
  bins.countP fun bin => (depot.bin bin).reason == some .aged

/-- Move the ready bins to the queue, and answer with the number queued. -/
def migrateBins : Act Depot Nat := do
  let ready ← Shelf.removeReady true
  enqueue ready
  let aged ← Act.read (agedAmong · ready)
  count fun counters => { counters with binsAged := counters.binsAged + aged }
  let added ← if ready.isEmpty then evictAtCapacity else pure ready.length
  count fun counters =>
    { counters with binsMigrated := counters.binsMigrated + added }
  pure added

end ItemBinning.Engine
