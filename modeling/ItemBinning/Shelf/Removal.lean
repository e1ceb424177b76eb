import ItemBinning.Depot
import ItemBinning.Sorted

/-!
# Taking bins off the shelf

Ready bins leave the shelf together, oldest first.  A single bin, the oldest
one, can be evicted whether it is ready or not, and all bins can be discarded
at once.
-/

namespace ItemBinning.Shelf

open Depot

/-- The reason for which a bin is ready now, if it is. -/
def readyReason? (relaxed : Bool) (number : BinId) :
    Act Depot (Option ReadyReason) := fun depot =>
  ((depot.bin number).readyReason? relaxed depot.clock
    depot.shelf.thresholds.maxBinAge, depot)

/-- Mark the ready bins of a group; answers with the others and with them. -/
def splitReady (relaxed : Bool) :
    List BinId → Act Depot (List BinId × List BinId)
  | [] => pure ([], [])
  | bin :: rest => do
      match ← readyReason? relaxed bin with
      | none => do
          let (others, ready) ← splitReady relaxed rest
          pure (bin :: others, ready)
      | some reason => do
          markReady bin reason
          let (others, ready) ← splitReady relaxed rest
          pure (others, bin :: ready)

/-- Take the ready bins out of their groups, group by group. -/
def takeReady (relaxed : Bool) :
    List (Key × List BinId) → Act Depot (List BinId)
  | [] => pure []
  | (group, bins) :: rest => do
      let (others, ready) ← splitReady relaxed bins
      modifyShelf (·.setGroup group others)
      let more ← takeReady relaxed rest
      pure (ready ++ more)

/-- Bins sorted by their creation. -/
def byCreation (depot : Depot) (bins : List BinId) : List BinId :=
  sortBy (fun first other =>
    createdBefore (first, depot.bin first) (other, depot.bin other)) bins

/-- Take all ready bins off the shelf, oldest first. -/
def removeReady (relaxed : Bool) : Act Depot (List BinId) := do
  let groups ← Act.read (·.shelf.groups.entries)
  let ready ← takeReady relaxed groups
  modifyShelf fun shelf =>
    { shelf with binCount := shelf.binCount - ready.length }
  Act.read (byCreation · ready)

def oldest? (depot : Depot) (bins : List BinId) : Option BinId :=
  bins.foldl (fun found bin =>
    match found with
    | none => some bin
    | some oldest =>
        if createdBefore (bin, depot.bin bin) (oldest, depot.bin oldest) then
          some bin
        else some oldest) none

/-- Take the oldest bin off the shelf, if there is one. -/
def removeOldest : Act Depot (Option BinId) := do
  match ← Act.read fun depot => oldest? depot depot.shelf.bins with
  | none => pure none
  | some oldest => do
      let group ← Act.read fun depot => (depot.bin oldest).group
      let key := group.key?.getD .nothing
      modifyShelf fun shelf =>
        { shelf.setGroup key ((shelf.binsOf key).erase oldest) with
          binCount := shelf.binCount - 1 }
      markReady oldest .evicted
      pure (some oldest)

/-- Discard every open bin, and answer how many there were. -/
def purge : Act Depot Nat := do
  let bins ← Act.read (·.shelf.bins)
  Act.forEach bins discard
  modifyShelf fun shelf => { shelf with groups := .empty, binCount := 0 }
  pure bins.length

end ItemBinning.Shelf
