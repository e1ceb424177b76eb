import ItemBinning.Act

/-!
# A place in a document

A document is read character by character.  A cursor holds the characters that
are left and says where they begin: how many characters stand before them, in
which line and in which column.
-/

namespace ItemBinning.Document

/-- A place in a document, with the characters behind it. -/
structure Cursor where
  rest : List Char
  index : Nat := 0
  line : Nat := 0
  column : Nat := 0
  deriving Repr, DecidableEq, Inhabited

/-- The mark that may stand at the front of a document and takes no column. -/
def orderMark : Char := '\ufeff'

def isLineEnd (character : Char) : Bool :=
  character == '\n' || character == '\r' || character == '\u0085' ||
    character == '\u2028' || character == '\u2029'

def isSpacing (character : Char) : Bool :=
  character == ' ' || character == '\t'

/-- Whether a line ends at a place. -/
def endsLine : Option Char → Bool
  | none => true
  | some character => isLineEnd character

/-- Whether a space or the end of a line stands at a place. -/
def endsField : Option Char → Bool
  | some ' ' => true
  | next => endsLine next

/-- Whether a space, a tab or the end of a line stands at a place. -/
def endsWord : Option Char → Bool
  | some '\t' => true
  | next => endsField next

namespace Cursor

def ofText (text : List Char) : Cursor := { rest := text }

/-- The character at the cursor, or one that stands behind it. -/
def peek (cursor : Cursor) (ahead : Nat := 0) : Option Char :=
  cursor.rest[ahead]?

def next (cursor : Cursor) : Cursor :=
  match cursor.rest with
  | [] => cursor
  | character :: rest =>
      let index := cursor.index + 1
      if isLineEnd character then
        { rest, index, line := cursor.line + 1, column := 0 }
      else
        { rest, index, line := cursor.line
          column := if character == orderMark then cursor.column
            else cursor.column + 1 }

def skip (cursor : Cursor) : Nat → Cursor
  | 0 => cursor
  | count + 1 => cursor.next.skip count

/-- The characters at the front that belong to a class, and the place behind
them. -/
def span (cursor : Cursor) (inClass : Char → Bool) : List Char × Cursor :=
  let taken := cursor.rest.takeWhile inClass
  (taken, cursor.skip taken.length)

def skipWhile (cursor : Cursor) (inClass : Char → Bool) : Cursor :=
  (cursor.span inClass).2

/-- The place behind a comment, if one begins here. -/
def skipComment (cursor : Cursor) : Cursor :=
  if cursor.peek == some '#' then cursor.skipWhile (!isLineEnd ·) else cursor

/-- What the end of a line reads as, and the place behind it; two line ends have
a sign of their own. -/
def lineEnd? (cursor : Cursor) : Option (Char × Cursor) :=
  match cursor.rest with
  | '\r' :: '\n' :: _ => some ('\n', cursor.skip 2)
  | character :: _ =>
      if character == '\u2028' || character == '\u2029' then
        some (character, cursor.next)
      else if isLineEnd character then some ('\n', cursor.next)
      else none
  | [] => none

/-- Whether three equal signs that mark a document stand here as a word. -/
def atMark (cursor : Cursor) (sign : Char) : Bool :=
  cursor.rest.take 3 == [sign, sign, sign] && endsWord (cursor.peek 3)

/-- Whether a sign that marks the start or the end of a document stands here. -/
def atDocumentMark (cursor : Cursor) : Bool :=
  cursor.atMark '-' || cursor.atMark '.'

/-- A bound for anything that is done character by character from here on. -/
def bound (cursor : Cursor) : Nat :=
  cursor.rest.length + 1

end Cursor

/-- The fault of characters that make no token. -/
def noToken {α : Type} : Except Fault α := .error (.badDocument .tokens)

/-- Skip what must stand here. -/
def expect (expected : Option Char → Bool) (cursor : Cursor) :
    Except Fault Unit :=
  if expected cursor.peek then .ok () else noToken

end ItemBinning.Document
