/-!
# Tokens

The characters of a document make tokens: marks of its structure, properties of
nodes and scalars.  Where blocks begin and end is told by indentation and has
tokens of its own.
-/

namespace ItemBinning.Document

/-- What a directive in front of a document says. -/
inductive Directive
  /-- The version of the notation. -/
  | version (major minor : Nat)
  /-- What a handle stands for in tags. -/
  | handle (handle replacement : String)
  /-- Anything else. -/
  | other
  deriving Repr, DecidableEq, Inhabited

/-- A token of a document. -/
inductive Token
  | streamEnd
  | directive (directive : Directive)
  | documentStart
  | documentEnd
  | blockSequenceStart
  | blockMappingStart
  | blockEnd
  | flowSequenceStart
  | flowSequenceEnd
  | flowMappingStart
  | flowMappingEnd
  | blockEntry
  | flowEntry
  | key
  | value
  /-- The name of a node that stands for the node. -/
  | reference (name : String)
  /-- The name that the following node gets. -/
  | anchor (name : String)
  /-- What the following node is, with the handle that is written first. -/
  | tag (handle : Option String) (suffix : String)
  /-- A text; a plain one stands without quotes. -/
  | scalar (text : String) (plain : Bool)
  deriving Repr, DecidableEq, Inhabited

end ItemBinning.Document
