import ItemBinning.Number
import ItemBinning.Text.Quoted

/-!
# Values of a configuration

A configuration file decodes to one of these values.  Any value can stand where
a size or an age is expected, and messages show the value as it was given: a
text between quotes, a list in square brackets, a map in braces.
-/

namespace ItemBinning

/-- What a configuration file can hold; the keys of a map are values too. -/
inductive Value
  | null
  | bool (value : Bool)
  | number (value : Number)
  | text (value : String)
  | list (values : List Value)
  | map (entries : List (Value × Value))

/-- What tells values apart that serve as keys: a truth value and a whole double
are the same key as an integer. -/
inductive Key
  | nothing
  | whole (value : Int)
  | double (bits : Nat)
  | named (text : String)
  deriving Repr, DecidableEq

/-- The key that a number is. -/
def Number.key : Number → Key
  | .int value => .whole value
  | .float value =>
      let exact := Decimal.Binary64.ofFloat value
      match exact.truncate? with
      | some whole => if exact.isWhole then .whole whole
          else .double value.toBits.toNat
      | none => .double value.toBits.toNat

/-- How two values stand to each other. -/
inductive Comparison
  /-- One is less than the other, or they are equal. -/
  | ordered (order : Ordering)
  /-- They can be compared but are in no order. -/
  | unordered
  /-- They cannot be compared. -/
  | undefined
  deriving Repr, DecidableEq

namespace Value

instance : Inhabited Value := ⟨.null⟩

abbrev int (value : Int) : Value := .number (.int value)

abbrev float (value : Float) : Value := .number (.float value)

def truthText (value : Bool) : String :=
  if value then "True" else "False"

mutual

/-- A value as it is shown inside a message, texts in quotes. -/
def quoted : Value → String
  | .null => "None"
  | .bool value => truthText value
  | .number value => value.text
  | .text value => Text.quoted value
  | .list values => "[" ++ quotedList values ++ "]"
  | .map entries => "\x7b" ++ quotedEntries entries ++ "\x7d"

def quotedList : List Value → String
  | [] => ""
  | [value] => value.quoted
  | value :: next :: rest => value.quoted ++ ", " ++ quotedList (next :: rest)

def quotedEntries : List (Value × Value) → String
  | [] => ""
  | [(key, value)] => key.quoted ++ ": " ++ value.quoted
  | (key, value) :: next :: rest =>
      key.quoted ++ ": " ++ value.quoted ++ ", " ++ quotedEntries (next :: rest)

end

mutual

/-- Whether a value can be shown: every integer in it can be written. -/
def isWritable [Host] : Value → Bool
  | .null | .bool _ | .text _ => true
  | .number value => value.isWritable
  | .list values => areWritable values
  | .map entries => areEntriesWritable entries

def areWritable [Host] : List Value → Bool
  | [] => true
  | value :: rest => value.isWritable && areWritable rest

def areEntriesWritable [Host] : List (Value × Value) → Bool
  | [] => true
  | (key, value) :: rest =>
      key.isWritable && value.isWritable && areEntriesWritable rest

end

/-- A value as plain text: a text is itself, other values are as in messages. -/
def display : Value → String
  | .text value => value
  | value => value.quoted

/-- Whether a value counts as true: anything does but nothing, false, zero and
what is empty. -/
def isTruthy : Value → Bool
  | .null => false
  | .bool value => value
  | .number value => !value.isZero
  | .text value => !value.isEmpty
  | .list values => !values.isEmpty
  | .map entries => !entries.isEmpty

/-- The key that a value is; lists and maps are none. -/
def key? : Value → Option Key
  | .null => some .nothing
  | .bool value => some (.whole (if value then 1 else 0))
  | .number value => some value.key
  | .text value => some (.named value)
  | .list _ | .map _ => none

/-- The number that a value stands for; a truth value counts as one or zero. -/
def number? : Value → Option Number
  | .bool value => some (.ofTruth value)
  | .number value => some value
  | _ => none

/-- The value under a key, if there is one. -/
def lookupKey (key : Value) (entries : List (Value × Value)) : Option Value :=
  entries.findSome? fun (other, held) =>
    if other.key? = key.key? then some held else none

/-- The value under a text key, none for other values. -/
def field? (value : Value) (name : String) : Option Value :=
  match value with
  | .map entries => lookupKey (.text name) entries
  | _ => none

/-- Put an entry into a map; a key that is present stays where and as it is. -/
def putEntry (entries : List (Value × Value)) (key value : Value) :
    List (Value × Value) :=
  if entries.any fun (other, _) => other.key? = key.key? then
    entries.map fun (other, held) =>
      (other, if other.key? = key.key? then value else held)
  else entries ++ [(key, value)]

mutual

/-- Whether two values are equal: numbers by their exact values, lists element
by element, maps by their entries. -/
def same (first other : Value) : Bool :=
  match first, other with
  | .null, .null => true
  | .text first, .text other => first == other
  | .list first, .list other => sameLists first other
  | .map first, .map other =>
      first.length == other.length && sameEntries first other
  | first, other =>
      match first.number?, other.number? with
      | some left, some right => left.compare? right == some .eq
      | _, _ => false

def sameLists : List Value → List Value → Bool
  | [], [] => true
  | first :: rest, other :: others => first.same other && sameLists rest others
  | _, _ => false

def sameEntries : List (Value × Value) → List (Value × Value) → Bool
  | [], _ => true
  | (key, held) :: rest, others =>
      (match lookupKey key others with
        | some other => held.same other
        | none => false) && sameEntries rest others

end

def isAmong (value : Value) (others : List Value) : Bool :=
  others.any value.same

def compareNumbers (first other : Number) : Comparison :=
  match first.compare? other with
  | some order => .ordered order
  | none => .unordered

mutual

/-- How two values stand to each other: numbers and truth values by their exact
values, texts by their characters, lists by their first elements that differ. -/
def compare (first other : Value) : Comparison :=
  match first, other with
  | .text first, .text other => .ordered (Ord.compare first other)
  | .list first, .list other => compareLists first other
  | first, other =>
      match first.number?, other.number? with
      | some left, some right => compareNumbers left right
      | _, _ => .undefined

def compareLists : List Value → List Value → Comparison
  | [], [] => .ordered .eq
  | [], _ :: _ => .ordered .lt
  | _ :: _, [] => .ordered .gt
  | first :: rest, other :: others =>
      if first.same other then compareLists rest others
      else first.compare other

end

@[simp] theorem compare_int (first other : Int) :
    (int first).compare (int other) = .ordered (Ord.compare first other) := by
  simp [compare, number?, compareNumbers]

end Value

end ItemBinning
