import ItemBinning.Item
import ItemBinning.TypedField

/-!
# Creating items

An item is created from named values, which are checked: its size is a whole
number that is not negative, its attributes are texts, and so is its content,
which it holds as bytes.
-/

namespace ItemBinning

def TypedField.attributes? : Value → Option Attributes
  | .map entries =>
      (entries.mapM fun (key, value) => do
        let name ← TypedField.text? key
        let text ← TypedField.text? value
        return (name, Value.text text)).map Table.ofList
  | _ => none

def TypedField.bytes? (value : Value) : Option (List UInt8) :=
  (TypedField.text? value).map fun text => text.toUTF8.toList

/-- The attributes that a map puts on an item, which are not checked. -/
def Attributes.ofMap : Value → Except Fault Attributes
  | .map entries => .ok <| Table.ofList <| entries.filterMap fun (key, value) =>
      (TypedField.text? key).map fun name => (name, value)
  | .list [] => .ok .empty
  | _ => .error .wrongType

namespace Item

/-- The field that names an item. -/
def idField : String := "item_id"

open Checked TypedField in
/-- Build an item from named values; an item that is not given an identifier
takes a generated one. -/
def ofFields (fields : Fields) (generated : String) : Except Fault Item :=
  finish <|
    both (both (both (both
      (certain fun attributes content id (size : Int) =>
        ({ id, size := .int size, attributes, content } : Item))
      (withDefault fields "attributes" Table.empty attributes?))
      (withDefault fields "content" [] bytes?))
      (withDefault fields idField generated text?))
      (withDefault fields "size" 0 natural?)

/-- Whether an item built from named values takes a generated identifier. -/
def needsId (fields : Fields) : Bool :=
  (fields.lookup idField).isNone

/-- The names that no attribute of an item with a content may have. -/
def reservedNames : List String := ["cls", "content"]

/-- Build an item that carries a content, with attributes that are checked. -/
def ofContentFields (id : String) (content : List UInt8) (attributes : Value) :
    Except Fault Item :=
  if reservedNames.any fun name => (attributes.field? name).isSome then
    .error .wrongType
  else
    match attributes, TypedField.attributes? attributes with
    | _, some checked => .ok (ofContent id content checked)
    | .map _, none => .error (.badFields ["attributes"])
    | _, none => .error .wrongType

end Item

end ItemBinning
