import ItemBinning.Table
import ItemBinning.Value

/-!
# Items

An item is the unit that moves between the source, the sessions and the sinks.
The engine reads its size only; attributes and content belong to the hooks.  An
item that enters the source has a size and attributes that were checked, but a
hook may answer a version with any size and any attributes.
-/

namespace ItemBinning

/-- Named values attached to an item. -/
abbrev Attributes := Table String Value

/-- An item with its identifier, which stays the same when attributes change. -/
structure Item where
  id : String
  size : Value := .int 0
  attributes : Attributes := .empty
  content : List UInt8 := []

namespace Item

instance : Inhabited Item := ⟨{ id := "" }⟩

/-- The written identifier of the item created after a number of others. -/
def generatedId (created : Nat) : String :=
  "i" ++ String.ofList (Nat.toDigits 10 (created + 1))

/-- An item that carries a content is as large as the content. -/
def ofContent (id : String) (content : List UInt8)
    (attributes : Attributes := .empty) : Item :=
  { id, size := .int content.length, attributes, content }

/-- A copy with attributes put over the item's own. -/
def withAttributes (item : Item) (attributes : Attributes) : Item :=
  { item with attributes := item.attributes.merge attributes }

end Item

end ItemBinning
