import ItemBinning.Document.Node
import ItemBinning.Document.Scalar

/-!
# The value of a document

A document of a configuration is text, its characters make tokens, the tokens a
node, and the node a value.  A document is read level by level: where several
parts of it make no value, the part that is least deep is at fault, and of two
parts of one level the one that stands first.
-/

namespace ItemBinning.Document

namespace Node

def kind : Node → Kind
  | .scalar kind _ | .list kind _ | .map kind _ => kind

def withKind (kind : Kind) : Node → Node
  | .scalar _ text => .scalar kind text
  | .list _ items => .list kind items
  | .map _ entries => .map kind entries

mutual

/-- The depth of a node; what it holds is one level deeper. -/
def depth : Node → Nat
  | .scalar _ _ => 1
  | .list _ items => depthOfItems items + 1
  | .map _ entries => depthOfEntries entries + 1

/-- The depth of the deepest item. -/
def depthOfItems : List Node → Nat
  | [] => 0
  | item :: rest => max item.depth (depthOfItems rest)

/-- The depth of the deepest key or value. -/
def depthOfEntries : List (Node × Node) → Nat
  | [] => 0
  | (key, value) :: rest =>
      max (max key.depth value.depth) (depthOfEntries rest)

end

mutual

/-- The text of a scalar.  A map can stand for the text under its standard
key. -/
def text : Node → Except Fault String
  | .scalar _ text => .ok text
  | .map _ entries => standardText entries
  | .list _ _ => .error (.badDocument .values)

/-- The text under the standard key. -/
def standardText : List (Node × Node) → Except Fault String
  | [] => .error (.badDocument .values)
  | (key, value) :: rest =>
      if key.kind = .standard then value.text else standardText rest

end

mutual

/-- The entries that are taken over from maps that other entries hold under merge
keys, and the entries that are not merged.  A standard key is a text here. -/
def mergeEntries : List (Node × Node) →
    Except Fault (List (Node × Node) × List (Node × Node))
  | [] => .ok ([], [])
  | (key, value) :: rest => do
      if key.kind = .merge then
        let taken ← mergedEntries value
        let (others, own) ← mergeEntries rest
        return (taken ++ others, own)
      else
        let (taken, own) ← mergeEntries rest
        let key := if key.kind = .standard then key.withKind .text else key
        return (taken, (key, value) :: own)

/-- The entries of a map or of a list of maps, in which the entries of an earlier
map come later and count. -/
def mergedEntries : Node → Except Fault (List (Node × Node))
  | .map _ entries => do
      let (taken, own) ← mergeEntries entries
      return taken ++ own
  | .list _ items => mergedMaps items
  | .scalar _ _ => .error (.badDocument .values)

/-- The entries of several maps, those of the last map first. -/
def mergedMaps : List Node → Except Fault (List (Node × Node))
  | [] => .ok []
  | .map _ entries :: rest => do
      let (taken, own) ← mergeEntries entries
      return (← mergedMaps rest) ++ taken ++ own
  | _ => .error (.badDocument .values)

end

/-- What a part of a document makes, or its fault and the number of levels below
the part at fault. -/
abbrev Outcome (α : Type) := Except (Nat × Fault) α

namespace Outcome

variable {α β γ : Type}

/-- The outcome of two parts.  Of two faults the one that is less deep counts,
else the first one. -/
def both (make : α → β → γ) : Outcome α → Outcome β → Outcome γ
  | .ok first, .ok second => .ok (make first second)
  | .error fault, .ok _ => .error fault
  | .ok _, .error fault => .error fault
  | .error first, .error second =>
      .error (if first.1 < second.1 then second else first)

/-- The outcomes of all parts. -/
def all (read : α → Outcome β) : List α → Outcome (List β)
  | [] => .ok []
  | part :: rest => both List.cons (read part) (all read rest)

end Outcome

/-- The outcome of something that fails with a number of levels below it. -/
def atLevel {α : Type} (level : Nat) (result : Except Fault α) : Outcome α :=
  result.mapError fun fault => (level, fault)

/-- Read a key, which has to be a key among values. -/
def readKey (read : Node → Outcome Value) (level : Nat) (key : Node) :
    Outcome Value := do
  if key.kind = .list ∨ key.kind = .map then
    .error (level, .badDocument .values)
  else read key

/-- Read a node of which so many levels are left. -/
def readLevel [Host] : Nat → Node → Outcome Value
  | 0, _ => .error (0, .badDocument .values)
  | below + 1, node =>
      match node.kind, node with
      | .list, .list _ items =>
          (Outcome.all (readLevel below) items).map .list
      | .map, .map _ entries => do
          let (taken, own) ← atLevel below (mergeEntries entries)
          let entries ← Outcome.all (fun (key, value) =>
            Outcome.both Prod.mk (readKey (readLevel below) below key)
              (readLevel below value)) (taken ++ own)
          return .map <| entries.foldl (fun entries (key, value) =>
            Value.putEntry entries key value) []
      | .list, _ | .map, _ => .error (below, .badDocument .values)
      | kind, _ =>
          match kind with
          | .merge | .standard | .unknown =>
              .error (below + 1, .badDocument .values)
          | _ => atLevel (below + 1) (node.text >>= scalarValue kind)

/-- The value that a node stands for. -/
def value [Host] (node : Node) : Except Fault Value :=
  (readLevel node.depth node).mapError Prod.snd

end Node

/-- Every line end of one or two characters as a line feed. -/
def withLineFeeds : List Char → List Char
  | [] => []
  | '\r' :: '\n' :: rest => '\n' :: withLineFeeds rest
  | '\r' :: rest => '\n' :: withLineFeeds rest
  | character :: rest => character :: withLineFeeds rest

/-- Whether a document may hold a character. -/
def isAllowed (character : Char) : Bool :=
  let code := character.toNat
  character == '\t' || character == '\n' || character == '\r' ||
    (0x20 ≤ code && code ≤ 0x7E) || code == 0x85 ||
    (0xA0 ≤ code && code != 0xFFFE && code != 0xFFFF)

/-- The value of a document; a document in which nothing is written is
nothing. -/
def value [Host] (document : String) : Except Fault Value := do
  let text := withLineFeeds document.toList
  if text.all isAllowed then
    match ← Node.ofTokens (Tokens.ofText text) with
    | some node => node.value
    | none => return .null
  else .error (.badDocument .characters)

end ItemBinning.Document
