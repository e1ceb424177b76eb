import ItemBinning.Document.Kind
import ItemBinning.Document.Lexer

/-!
# From tokens to nodes

The tokens of a document make a node: a scalar, a list of nodes or a map from
nodes to nodes.  A node can be named, and a reference to the name stands for the
node from there on.  A document is a single node; a node that is left out is a
scalar for nothing.
-/

namespace ItemBinning.Document

inductive Node
  | scalar (kind : Kind) (text : String)
  | list (kind : Kind) (items : List Node)
  | map (kind : Kind) (entries : List (Node × Node))

namespace Node

/-- The node that stands where nothing is written. -/
def empty : Node := .scalar .nothing ""

instance : Inhabited Node := ⟨empty⟩

/-- What is known while the nodes are read: the tokens that are left, the fault
behind them, what the handles of tags stand for, and the named nodes, which are
not known before they are read. -/
structure Reader where
  tokens : List Token
  fault : Option Fault
  handles : List (String × String) := []
  named : List (String × Option Node) := []

instance : Inhabited Reader := ⟨{ tokens := [], fault := none }⟩

def refuse {α : Type} : Act Reader α := Act.fail (.badDocument .nodes)

def peek : Act Reader Token := do
  let reader ← Act.get
  match reader.tokens, reader.fault with
  | token :: _, _ => return token
  | [], some fault => Act.fail fault
  | [], none => refuse

def drop : Act Reader Unit :=
  Act.modify fun reader => { reader with tokens := reader.tokens.tail }

/-- What handles stand for that no directive names. -/
def standardHandles : List (String × String) :=
  [("!", "!"), ("!!", Kind.tagStart)]

/-- The tag that is written with a handle or without. -/
def tagOf (handle : Option String) (suffix : String) : Act Reader String := do
  match handle with
  | none => return suffix
  | some handle =>
      match (← Act.read (·.handles)).lookup handle with
      | some replacement => return replacement ++ suffix
      | none => refuse

def readTag : Act Reader (Option (Option String × String)) := do
  match ← peek with
  | .tag handle suffix => do
      drop
      return some (handle, suffix)
  | _ => return none

def readAnchor : Act Reader (Option String) := do
  match ← peek with
  | .anchor name => do
      drop
      return some name
  | _ => return none

/-- Read the name and the tag in front of a node, in either order. -/
def readProperties : Act Reader (Option String × Option String) := do
  let first ← readAnchor
  let tag ← readTag
  let name ← if first.isNone && tag.isSome then readAnchor else pure first
  match tag with
  | some (handle, suffix) => return (name, some (← tagOf handle suffix))
  | none => return (name, none)

/-- Note that a name stands for a node; it must not stand for another one. -/
def noteName (name : Option String) : Act Reader Unit := do
  match name with
  | none => pure ()
  | some name => do
      if ((← Act.read (·.named)).lookup name).isSome then
        Act.fail (.badDocument .references)
      else
        Act.modify fun reader =>
          { reader with named := (name, none) :: reader.named }

def setName (name : Option String) (node : Node) : Act Reader Unit :=
  match name with
  | none => pure ()
  | some name =>
      Act.modify fun reader =>
        { reader with named := (name, some node) :: reader.named }

/-- The node that a name stands for; a node cannot hold itself. -/
def resolve (name : String) : Act Reader Node := do
  match (← Act.read (·.named)).lookup name with
  | some (some node) => return node
  | some none => Act.fail (.badDocument .values)
  | none => Act.fail (.badDocument .references)

/-- The tag that leaves the kind of a node open. -/
def openTag : String := "!"

/-- The kind of a node with a tag, or its usual kind. -/
def kindOf (tag : Option String) (usual : Kind) : Kind :=
  match tag with
  | none => usual
  | some tag => if tag == openTag then usual else .ofTag tag

def scalarKind (tag : Option String) (text : String) (plain : Bool) : Kind :=
  if plain || tag == some openTag then kindOf tag (.ofPlain text)
  else kindOf tag .text

/-- Where a node stands, which says what it may be: inside brackets; in a block;
or in a block where the dashes of a list need no deeper indentation. -/
inductive Place
  | flow
  | block
  | dashes
  deriving Repr, DecidableEq

/-- Whether a token begins a node at a place. -/
def begins (place : Place) : Token → Bool
  | .scalar _ _ | .flowSequenceStart | .flowMappingStart => true
  | .blockSequenceStart | .blockMappingStart => place != .flow
  | .blockEntry => place == .dashes
  | _ => false

mutual

/-- Read a node.  The first number bounds the depth and the length of what is
read. -/
def read : Nat → Place → Act Reader Node
  | 0, _ => refuse
  | bound + 1, place => do
      match ← peek with
      | .reference name => do
          drop
          resolve name
      | _ => do
          let (name, tag) ← readProperties
          let token ← peek
          if !begins place token && name.isNone && tag.isNone then refuse
          noteName name
          let node ←
            if begins place token then readContent bound tag token
            else pure (.scalar (scalarKind tag "" true) "")
          setName name node
          return node

def readContent : Nat → Option String → Token → Act Reader Node
  | 0, _, _ => refuse
  | bound + 1, tag, token => do
      match token with
      | .scalar text plain => do
          drop
          return .scalar (scalarKind tag text plain) text
      | .flowSequenceStart => do
          drop
          return .list (kindOf tag .list) (← readFlowItems bound true)
      | .flowMappingStart => do
          drop
          return .map (kindOf tag .map) (← readFlowEntries bound true)
      | .blockSequenceStart => do
          drop
          return .list (kindOf tag .list) (← readItems bound true)
      | .blockMappingStart => do
          drop
          return .map (kindOf tag .map) (← readEntries bound)
      | _ => return .list (kindOf tag .list) (← readItems bound false)

/-- Read a node, unless a token follows before which it is left out. -/
def readUnless : Nat → Place → List Token → Act Reader Node
  | 0, _, _ => refuse
  | bound + 1, place, ends => do
      if ends.contains (← peek) then return empty
      else read bound place

/-- Read the value of a key, which may be left out. -/
def readValue : Nat → Place → List Token → Act Reader Node
  | 0, _, _ => refuse
  | bound + 1, place, ends => do
      if (← peek) = .value then do
        drop
        readUnless bound place ends
      else return empty

/-- Read the items of a block; those of a closed block end with it, others end
where no dash follows. -/
def readItems : Nat → Bool → Act Reader (List Node)
  | 0, _ => refuse
  | bound + 1, closed => do
      match ← peek with
      | .blockEntry => do
          drop
          let ends := if closed then [.blockEntry, .blockEnd]
            else [.blockEntry, .key, .value, .blockEnd]
          let item ← readUnless bound .block ends
          return item :: (← readItems bound closed)
      | .blockEnd => do
          if closed then drop
          return []
      | _ => if closed then refuse else return []

/-- Read the entries of a block. -/
def readEntries : Nat → Act Reader (List (Node × Node))
  | 0 => refuse
  | bound + 1 => do
      match ← peek with
      | .key => do
          drop
          let key ← readUnless bound .dashes [.key, .value, .blockEnd]
          let value ← readValue bound .dashes [.key, .value, .blockEnd]
          return (key, value) :: (← readEntries bound)
      | .blockEnd => do
          drop
          return []
      | _ => refuse

/-- Read the items inside brackets; an item may be a map of one entry. -/
def readFlowItems : Nat → Bool → Act Reader (List Node)
  | 0, _ => refuse
  | bound + 1, first => do
      if !first && (← peek) != .flowSequenceEnd then
        if (← peek) = .flowEntry then drop else refuse
      match ← peek with
      | .flowSequenceEnd => do
          drop
          return []
      | .key => do
          drop
          let ends := [.flowEntry, .flowSequenceEnd]
          let key ← readUnless bound .flow (.value :: ends)
          let value ← readValue bound .flow ends
          return .map .map [(key, value)] :: (← readFlowItems bound false)
      | _ => do
          let item ← read bound .flow
          return item :: (← readFlowItems bound false)

/-- Read the entries inside brackets; a value may be left out. -/
def readFlowEntries : Nat → Bool → Act Reader (List (Node × Node))
  | 0, _ => refuse
  | bound + 1, first => do
      if !first && (← peek) != .flowMappingEnd then
        if (← peek) = .flowEntry then drop else refuse
      match ← peek with
      | .flowMappingEnd => do
          drop
          return []
      | .key => do
          drop
          let ends := [.flowEntry, .flowMappingEnd]
          let key ← readUnless bound .flow (.value :: ends)
          let value ← readValue bound .flow ends
          return (key, value) :: (← readFlowEntries bound false)
      | _ => do
          let key ← read bound .flow
          return (key, empty) :: (← readFlowEntries bound false)

end

/-- Take a directive into account.  There may be one version, which has to begin
with a one, and one replacement for each handle. -/
def noteDirective (versioned : Bool) (directive : Directive) :
    Act Reader Bool := do
  match directive with
  | .version major _ => if versioned || major != 1 then refuse else return true
  | .handle handle replacement => do
      if ((← Act.read (·.handles)).lookup handle).isSome then refuse
      else
        Act.modify fun reader =>
          { reader with handles := (handle, replacement) :: reader.handles }
        return versioned
  | .other => return versioned

/-- Read the directives in front of a document.  The number bounds them. -/
def readDirectives : Nat → Bool → Act Reader Unit
  | 0, _ => pure ()
  | bound + 1, versioned => do
      match ← peek with
      | .directive directive => do
          drop
          readDirectives bound (← noteDirective versioned directive)
      | _ => pure ()

/-- Skip the signs for the end of a document.  The number bounds them. -/
def skipDocumentEnds : Nat → Act Reader Unit
  | 0 => pure ()
  | bound + 1 => do
      if (← peek) = .documentEnd then do
        drop
        skipDocumentEnds bound

/-- Read the sign for the start of a document with the directives in front of it,
and answer whether there is one; else no document follows. -/
def readStart (bound : Nat) : Act Reader Bool := do
  skipDocumentEnds bound
  if (← peek) = .streamEnd then return false
  else
    Act.modify fun reader => { reader with handles := [] }
    readDirectives bound false
    Act.modify fun reader =>
      { reader with handles := reader.handles ++ standardHandles }
    if (← peek) = .documentStart then do
      drop
      return true
    else refuse

/-- Whether a token begins a document that is marked. -/
def beginsMarked : Token → Bool
  | .directive _ | .documentStart | .streamEnd => true
  | _ => false

/-- Whether a token follows a document in which nothing is written. -/
def endsDocument : Token → Bool
  | .directive _ | .documentStart | .documentEnd | .streamEnd => true
  | _ => false

/-- Read the first document, if there is one. -/
def readFirst (bound : Nat) : Act Reader (Option Node) := do
  if beginsMarked (← peek) then
    if ← readStart bound then
      if endsDocument (← peek) then return some empty
      else return some (← read bound .block)
    else return none
  else
    Act.modify fun reader => { reader with handles := standardHandles }
    return some (← read bound .block)

/-- Read the only document. -/
def readOnly (bound : Nat) : Act Reader (Option Node) := do
  match ← readFirst bound with
  | none => return none
  | some node => do
      if ← readStart bound then Act.fail (.badDocument .references)
      else return some node

/-- The node of the only document that tokens make, if they make one. -/
def ofTokens (tokens : Tokens) : Except Fault (Option Node) :=
  (readOnly (4 * tokens.tokens.length + 8)
    { tokens := tokens.tokens, fault := tokens.fault }).1

end Node

end ItemBinning.Document
