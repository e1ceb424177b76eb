import ItemBinning.Hook.Script

/-!
# Ready-made preprocessors

A preprocessor answers with the version of an item that is to be binned.
-/

namespace ItemBinning

/-- A way to preprocess an item. -/
inductive Preprocessor
  /-- Put attributes on the item in its session. -/
  | annotate (attributes : Attributes)
  /-- Put attributes on a copy that the session does not know of. -/
  | copy (attributes : Attributes)
  /-- Answer a copy of another size. -/
  | resize (size : Value)
  | drop
  | refuse
  | route (relationship : String)
  /-- Answer a new item with the same size and attributes. -/
  | replaceId (id : Value)
  | annotateThenRefuse (attributes : Attributes)
  | handTo (target : SessionId)
  /-- Preprocess the items that have one of some values under an attribute name,
  where null stands for no value, and leave the others as they are. -/
  | onlyFor (name : String) (values : List Value) (inner : Preprocessor)

/-- The values of attributes under text keys. -/
def Attributes.value (attributes : Attributes) : Value :=
  .map (attributes.entries.map fun (name, held) => (.text name, held))

/-- A new item with an identifier and with the size and the attributes of an
item, which are checked again. -/
def Item.withId (item : Item) (id : Value) : Except Fault Item :=
  Item.ofFields [(Item.idField, id), ("size", item.size),
    ("attributes", Attributes.value item.attributes)] item.id

def Preprocessor.script (preprocessor : Preprocessor) (item : Item)
    (session : SessionId) : Script (Option Item) :=
  match preprocessor with
  | .annotate attributes => do
      let updated ← Script.perform (.annotate session item attributes)
      return some updated
  | .copy attributes => .done (some (item.withAttributes attributes))
  | .resize size => .done (some { item with size })
  | .drop => .done none
  | .refuse => .fail .hookFailure
  | .route relationship => do
      let () ← Script.perform (.route session [item] relationship)
      return some item
  | .replaceId id =>
      match item.withId id with
      | .ok other => .done (some other)
      | .error fault => .fail fault
  | .annotateThenRefuse attributes => do
      let _ ← Script.perform (.annotate session item attributes)
      .fail .hookFailure
  | .handTo target => do
      let () ← Script.perform (.migrate session target [item])
      return some item
  | .onlyFor name values inner =>
      if ((item.attributes.find? name).getD .null).isAmong values then
        inner.script item session
      else .done (some item)

end ItemBinning
