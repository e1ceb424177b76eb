import ItemBinning.Document.Cursor

/-!
# Plain texts

A text without quotes ends at a comment, at a colon with a blank behind it, and
inside brackets at their signs.  It may go on in further lines that are indented
deep enough; a single line end inside it reads as a space, and of several line
ends the first one is left out.
-/

namespace ItemBinning.Document.PlainText

/-- The signs that structure a collection in brackets. -/
def flowSigns : List Char := [',', '[', ']', '\x7b', '\x7d']

def stops (inFlow : Bool) (character : Char) (next : Option Char) : Bool :=
  endsWord (some character) ||
    (character == ':' &&
      (endsWord next || (inFlow && next.any flowSigns.contains))) ||
    (inFlow && (character == '?' || flowSigns.contains character))

/-- The number of characters up to where a plain text stops. -/
def length (inFlow : Bool) : List Char → Nat
  | [] => 0
  | character :: rest =>
      if stops inFlow character rest.head? then 0 else length inFlow rest + 1

/-- The line ends and spaces in front of the next line that holds anything; none
where a document mark stands at the start of a line. -/
def skipLines : Nat → Cursor → Option (List Char) × Cursor
  | 0, cursor => (some [], cursor)
  | bound + 1, cursor =>
      if cursor.atDocumentMark then (none, cursor)
      else
        let started := cursor.skipWhile (· == ' ')
        match started.lineEnd? with
        | none => (some [], started)
        | some (ended, next) =>
            let (others, after) := skipLines bound next
            (others.map (ended :: ·), after)

/-- What line ends between two lines of a text read as. -/
def joined (first : Char) (others : List Char) : List Char :=
  if first != '\n' then first :: others
  else if others.isEmpty then [' '] else others

/-- The blanks behind a piece of a plain text, as they read; whether a line ended
among them; and the place behind them. -/
def blanks (cursor : Cursor) : List Char × Bool × Cursor :=
  let (spaces, after) := cursor.span (· == ' ')
  match after.lineEnd? with
  | none => (spaces, false, after)
  | some (first, next) =>
      match skipLines cursor.bound next with
      | (some others, reached) => (joined first others, true, reached)
      | (none, reached) => ([], true, reached)

/-- Read a plain text with what stands in front of its next piece.  Answers with
the text, whether its last line ended, and the place behind it.  The first
number bounds the pieces. -/
def scanFrom (inFlow : Bool) (indent : Int) :
    Nat → List Char → Bool → Cursor → List Char × Bool × Cursor
  | 0, _, ended, cursor => ([], ended, cursor)
  | bound + 1, before, ended, cursor =>
      let size := length inFlow cursor.rest
      if cursor.peek == some '#' || size == 0 then ([], ended, cursor)
      else
        let piece := before ++ cursor.rest.take size
        let (between, lineEnded, after) := blanks (cursor.skip size)
        if between.isEmpty || after.peek == some '#' ||
            (!inFlow && (after.column : Int) ≤ indent) then
          (piece, lineEnded, after)
        else
          let (text, last, reached) :=
            scanFrom inFlow indent bound between lineEnded after
          (piece ++ text, last, reached)

/-- Read a plain text inside or outside of brackets.  The lines after its first
one have to be indented deeper than the block that it stands in. -/
def scan (inFlow : Bool) (indent : Int) (cursor : Cursor) :
    List Char × Bool × Cursor :=
  scanFrom inFlow indent cursor.bound [] false cursor

end ItemBinning.Document.PlainText
