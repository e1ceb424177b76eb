import ItemBinning.Engine.Basic
import ItemBinning.Shelf.Offer

/-!
# Intake

Intake pulls items from the source in chunks, each into a session of its own,
computes their group keys and offers them to the shelf group by group.  Items
that find no place become ready bins of one item each, and items whose hook
failed are delivered to failure.  When anything else goes wrong the rest of the
chunk returns to the source.
-/

namespace ItemBinning.Engine

open Depot

/-- Items of one group under its key, with the value that was first computed for
the group. -/
abbrev Groups := Table Key (Value × List Item)

/-- Preprocess an item and compute its group, which has to be a key. -/
def classify (hooks : Hooks) (session : SessionId) (item : Item) :
    Act Depot (Item × Value × Key) := do
  match ← (hooks.preprocess item session).run with
  | none => Act.fail .wrongType
  | some version => do
      let group ← (hooks.groupKey version).run
      match group.key? with
      | some key => pure (version, group, key)
      | none => Act.fail .wrongType

def addToGroup (groups : Groups) (group : Value) (key : Key) (item : Item) :
    Groups :=
  let (first, items) := (groups.find? key).getD (group, [])
  groups.put key (first, items ++ [item])

/-- Sort items into groups, in order of the groups' first items.  Items that
cannot be classified are routed to failure. -/
def groupItems (hooks : Hooks) (session : SessionId) :
    List Item → Groups → Act Depot Groups
  | [], groups => pure groups
  | item :: rest, groups => do
      match ← Act.attempt (classify hooks session item) with
      | .ok (version, group, key) =>
          groupItems hooks session rest (addToGroup groups group key version)
      | .error _ => do
          onFlow (Flow.route session [item] failureRelationship)
          count fun counters =>
            { counters with groupingFailures := counters.groupingFailures + 1 }
          groupItems hooks session rest groups

/-- Queue an item that found no place as a ready bin of its own. -/
def queueUnbound (group : Value) (session : SessionId) (item : Item) :
    Act Depot Unit := do
  let owner ← onFlow Flow.openSession
  let bin ← createBin owner Bounds.relaxed group
  let _ ← offerTo bin item session
  markReady bin .unbound
  enqueue [bin]

/-- Offer groups of items to the shelf, and answer with the number of items. -/
def offerGroups (session : SessionId) :
    List (Value × List Item) → Act Depot Nat
  | [] => pure 0
  | (group, items) :: rest => do
      let unbound ← Shelf.offer group items session
      Act.forEach unbound (queueUnbound group session)
      count fun counters =>
        { counters with
          itemsBinned := counters.itemsBinned + items.length
          unboundItems := counters.unboundItems + unbound.length }
      let more ← offerGroups session rest
      pure (items.length + more)

/-- Bin the items of a chunk and deliver those that failed. -/
def binItems (hooks : Hooks) (session : SessionId) (items : List Item) :
    Act Depot Nat := do
  let groups ← groupItems hooks session items .empty
  let binned ← offerGroups session groups.values
  onFlow (Flow.commit session)
  pure binned

/-- Bin the items of a chunk; a fault returns what the session still holds. -/
def binChunk (hooks : Hooks) (session : SessionId) (items : List Item) :
    Act Depot Nat := do
  match ← Act.attempt (binItems hooks session items) with
  | .ok binned => pure binned
  | .error fault => do
      onFlow (Flow.rollBack session)
      Act.fail fault

/-- Pull the next chunk into a session of its own. -/
def pullChunk (engine : Engine) : Act Depot (SessionId × List Item) := do
  let session ← onFlow Flow.openSession
  let items ← onFlow (Flow.pullValue session (.number engine.chunkSize))
  pure (session, items)

/-- Bin chunks while the shelf has room, the activation stays scheduled and the
source gives items.  The list holds the answers of the schedule, one for each
chunk; after its end the activation is not scheduled.  Answers with the number
of items binned and the answers that were not used. -/
def intake (engine : Engine) : List Bool → Act Depot (Nat × List Bool)
  | [] => pure (0, [])
  | scheduled :: rest => do
      if ← askShelf (·.hasRoom) then
        if scheduled then do
          let (session, items) ← pullChunk engine
          if items.isEmpty then pure (0, rest)
          else do
            let binned ← binChunk engine.hooks session items
            let (more, unused) ← intake engine rest
            pure (binned + more, unused)
        else pure (0, rest)
      else pure (0, scheduled :: rest)

end ItemBinning.Engine
