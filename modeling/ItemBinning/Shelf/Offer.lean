import ItemBinning.Depot

/-!
# Offering items to the shelf

Items of one group are offered to the group's open bins in order of creation
and go to the first bin that takes them.  When none does, a new bin is opened
if there is room on the shelf.  Items that find no place stay where they were.
-/

namespace ItemBinning.Shelf

open Depot

/-- Offer an item to bins in order until one takes it. -/
def offerToFirst (item : Item) (session : SessionId) :
    List BinId → Act Depot Bool
  | [] => pure false
  | bin :: rest => do
      if ← offerTo bin item session then pure true
      else offerToFirst item session rest

/-- Open a bin for an item; when the item does not fit, the bin is not kept. -/
def openBinFor (group : Value) (key : Key) (item : Item)
    (session : SessionId) : Act Depot Bool := do
  let bounds ← Act.read (·.shelf.thresholds.bounds)
  let owner ← onFlow Flow.openSession
  let bin ← createBin owner bounds group
  if ← offerTo bin item session then do
    modifyShelf fun shelf =>
      { shelf.setGroup key (shelf.binsOf key ++ [bin]) with
        binCount := shelf.binCount + 1 }
    pure true
  else pure false

/-- Find a place for an item, and answer whether it has one. -/
def place (group : Value) (key : Key) (item : Item) (session : SessionId) :
    Act Depot Bool := do
  let bins ← Act.read (·.shelf.binsOf key)
  if ← offerToFirst item session bins then pure true
  else if ← askShelf Shelf.isAtCapacity then pure false
  else openBinFor group key item session

/-- Find places for items in order, and answer with those that have none. -/
def placeAll (group : Value) (key : Key) (session : SessionId) :
    List Item → Act Depot (List Item)
  | [] => pure []
  | item :: rest => do
      let placed ← place group key item session
      let unbound ← placeAll group key session rest
      pure (if placed then unbound else item :: unbound)

/-- Offer items of a group that a session holds, and answer with those that
stay unbound.  Nothing is offered under inconsistent thresholds or to a group
that is no key. -/
def offer (group : Value) (items : List Item) (session : SessionId) :
    Act Depot (List Item) := do
  let issues ← askShelf (·.thresholds.inconsistencies)
  if issues.isEmpty then
    match group.key? with
    | some key => placeAll group key session items
    | none => Act.fail .wrongType
  else Act.fail (.inconsistentPolicy issues)

end ItemBinning.Shelf
