import ItemBinning.Engine.Basic

/-!
# Statistics

The statistics of an engine are its counters, in a fixed order, and how many
bins are open and queued now.
-/

namespace ItemBinning

/-- The counters under their written names. -/
def Counters.named (counters : Counters) : List (String × Nat) :=
  [("items_binned", counters.itemsBinned),
   ("grouping_failures", counters.groupingFailures),
   ("unbound_items", counters.unboundItems),
   ("bins_migrated", counters.binsMigrated),
   ("bins_aged", counters.binsAged),
   ("bins_evicted", counters.binsEvicted),
   ("bins_processed", counters.binsProcessed),
   ("bins_failed", counters.binsFailed),
   ("bins_rolled_back", counters.binsRolledBack),
   ("yields", counters.yields)]

def Depot.statistics (depot : Depot) : List (String × Nat) :=
  depot.counters.named ++
    [("open_bins", depot.shelf.binCount), ("ready_bins", depot.ready.length)]

end ItemBinning
