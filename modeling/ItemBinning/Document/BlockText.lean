import ItemBinning.Document.Cursor

/-!
# Block texts

A text in a block of indented lines begins with a sign, which says whether its
line ends are kept or folded into spaces.  Two more signs may follow: whether the
line ends at the end are all kept or all dropped, else one of them is kept; and
how deep the block is indented, else its first line tells.
-/

namespace ItemBinning.Document.BlockText

/-- What happens to the line ends at the end of a block. -/
inductive Chomping
  | clip
  | strip
  | keep
  deriving Repr, DecidableEq

/-- Read the sign for the line ends at the end. -/
def chomping? : Option Char → Option Chomping
  | some '+' => some .keep
  | some '-' => some .strip
  | _ => none

/-- Read the sign for the indentation, a digit; zero is refused. -/
def increment (cursor : Cursor) : Except Fault (Option Nat × Cursor) :=
  match cursor.peek with
  | some digit =>
      if '1' ≤ digit ∧ digit ≤ '9' then
        .ok (some (digit.toNat - '0'.toNat), cursor.next)
      else if digit = '0' then noToken
      else .ok (none, cursor)
  | none => .ok (none, cursor)

/-- Read the signs behind the first one, in either order. -/
def scanSigns (cursor : Cursor) :
    Except Fault ((Chomping × Option Nat) × Cursor) := do
  let (signs, after) ← match chomping? cursor.peek with
    | some chomping => do
        let (indent, after) ← increment cursor.next
        pure ((chomping, indent), after)
    | none => do
        let (indent, after) ← increment cursor
        match indent, chomping? after.peek with
        | some _, some chomping => pure ((chomping, indent), after.next)
        | _, _ => pure ((Chomping.clip, indent), after)
  expect endsField after
  return (signs, after)

/-- Skip the rest of the line of the signs, which may hold a comment only. -/
def skipHeader (cursor : Cursor) : Except Fault Cursor := do
  let after := (cursor.skipWhile (· == ' ')).skipComment
  expect endsLine after
  return (after.lineEnd?.map Prod.snd).getD after

/-- The line ends of the empty lines in front of a block, how deep they and its
first line are indented, and the place behind them. -/
def leadingLines : Nat → Cursor → List Char × Nat × Cursor
  | 0, cursor => ([], 0, cursor)
  | bound + 1, cursor =>
      let started := cursor.skipWhile (· == ' ')
      match started.lineEnd? with
      | none => ([], started.column, started)
      | some (ended, next) =>
          let (others, deepest, after) := leadingLines bound next
          (ended :: others, max started.column deepest, after)

/-- The place behind spaces, up to a column. -/
def skipIndent (indent : Nat) (cursor : Cursor) : Cursor :=
  cursor.skip <|
    min (indent - cursor.column) (cursor.rest.takeWhile (· == ' ')).length

/-- The line ends of the empty lines inside a block, and the place in the next
line that holds anything. -/
def innerLines (indent : Nat) : Nat → Cursor → List Char × Cursor
  | 0, cursor => ([], cursor)
  | bound + 1, cursor =>
      let started := skipIndent indent cursor
      match started.lineEnd? with
      | none => ([], started)
      | some (ended, next) =>
          let (others, after) := innerLines indent bound next
          (ended :: others, after)

/-- What was read of a block: its lines, the line end of the last one, the line
ends behind it, and the place behind them. -/
structure Body where
  text : List Char
  ended : List Char
  others : List Char
  after : Cursor

/-- Whether a line of the block begins here. -/
def atLine (indent : Nat) (cursor : Cursor) : Bool :=
  cursor.column == indent && cursor.peek.isSome

/-- What the line end between two lines reads as.  It is folded between two lines
that do not begin with a blank. -/
def between (folded : Bool) (line next : Cursor) (ended others : List Char) :
    List Char :=
  if folded && ended == ['\n'] && !line.peek.any isSpacing &&
      !next.peek.any isSpacing then
    if others.isEmpty then [' '] else []
  else ended

/-- Read the lines of a block with the line ends in front of them.  The first
number bounds the lines. -/
def scanLines (folded : Bool) (indent : Nat) :
    Nat → List Char → Cursor → Body
  | 0, before, cursor => ⟨[], [], before, cursor⟩
  | bound + 1, before, cursor =>
      if atLine indent cursor then
        let (line, behind) := cursor.span (!isLineEnd ·)
        let (ended, next) := match behind.lineEnd? with
          | some (character, next) => ([character], next)
          | none => ([], behind)
        let (others, reached) := innerLines indent next.bound next
        if atLine indent reached then
          let body := scanLines folded indent bound others reached
          { body with
            text := before ++ line ++
              between folded cursor reached ended others ++ body.text }
        else ⟨before ++ line, ended, others, reached⟩
      else ⟨[], [], before, cursor⟩

def Body.chomped (body : Body) (chomping : Chomping) : List Char :=
  match chomping with
  | .strip => body.text
  | .clip => body.text ++ body.ended
  | .keep => body.text ++ body.ended ++ body.others

/-- Read a block text from its sign on.  It is indented deeper than the block
that it stands in. -/
def scan (folded : Bool) (outer : Int) (cursor : Cursor) :
    Except Fault (List Char × Cursor) := do
  let ((chomping, increment), after) ← scanSigns cursor.next
  let started ← skipHeader after
  let least := max 1 (outer + 1).toNat
  let (indent, before, begun) := match increment with
    | some deeper =>
        let indent := least + deeper - 1
        let (before, begun) := innerLines indent started.bound started
        (indent, before, begun)
    | none =>
        let (before, deepest, begun) := leadingLines started.bound started
        (max least deepest, before, begun)
  let body := scanLines folded indent begun.bound before begun
  return (body.chomped chomping, body.after)

end ItemBinning.Document.BlockText
