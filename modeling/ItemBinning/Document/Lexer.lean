import ItemBinning.Document.BlockText
import ItemBinning.Document.Property

/-!
# From characters to tokens

Blocks are told by indentation.  A key of a map need not be marked in front: what
turns out to be followed by a colon in the same line is a key, and then the token
that marks a key is put in front of it.  Until that is known, the key is pending,
and the tokens from it on cannot be used.
-/

namespace ItemBinning.Document

/-- A key that waits for its colon: where its first token stands among all
tokens, whether it must be a key, and where it begins. -/
structure PendingKey where
  token : Nat
  required : Bool
  index : Nat
  line : Nat
  column : Nat
  deriving Repr, DecidableEq, Inhabited

/-- What is known while a document is read: the place that was reached, the
tokens up to there, the depth of brackets, the indentation of the block that the
place is in and of the blocks around it, whether a key may begin here, and the
pending keys of each depth, the innermost one first. -/
structure Lexer where
  cursor : Cursor
  tokens : Array Token := #[]
  depth : Nat := 0
  indent : Int := -1
  outer : List Int := []
  allowsKey : Bool := true
  pending : List (Nat × PendingKey) := []

namespace Lexer

instance : Inhabited Lexer := ⟨{ cursor := {rest := []} }⟩

/-- Fail because no token begins like this. -/
def refuse {α : Type} : Act Lexer α := Act.fail (.badDocument .tokens)

def emit (token : Token) : Act Lexer Unit :=
  Act.modify fun lexer => { lexer with tokens := lexer.tokens.push token }

def emitAt (place : Nat) (token : Token) : Act Lexer Unit :=
  Act.modify fun lexer =>
    { lexer with
      tokens := lexer.tokens.take place ++ #[token] ++ lexer.tokens.drop place }

def allowKey (allowsKey : Bool) : Act Lexer Unit :=
  Act.modify fun lexer => { lexer with allowsKey }

def skip (count : Nat) : Act Lexer Unit :=
  Act.modify fun lexer => { lexer with cursor := lexer.cursor.skip count }

def inFlow (lexer : Lexer) : Bool :=
  lexer.depth != 0

/-- Read something at the cursor and go on behind it. -/
def scanWith {α : Type} (scan : Cursor → Except Fault (α × Cursor)) :
    Act Lexer α := do
  let cursor ← Act.read (·.cursor)
  let (found, after) ← Act.ofExcept (scan cursor)
  Act.modify fun lexer => { lexer with cursor := after }
  return found

/-- Skip blanks, comments and line ends.  Outside of brackets a key may begin in
a new line.  The number bounds the lines. -/
def skipBlanks : Nat → Act Lexer Unit
  | 0 => pure ()
  | bound + 1 => do
      Act.modify fun lexer =>
        { lexer with cursor := (skipSpaces lexer.cursor).skipComment }
      match ← Act.read (·.cursor.lineEnd?) with
      | none => pure ()
      | some (_, next) => do
          Act.modify fun lexer =>
            { lexer with
              cursor := next
              allowsKey := lexer.allowsKey || !lexer.inFlow }
          skipBlanks bound

/-- Skip what stands in front of the next token. -/
def skipToToken : Act Lexer Unit := do
  Act.modify fun lexer =>
    { lexer with
      cursor := if lexer.cursor.index == 0 && lexer.cursor.peek == some orderMark
        then lexer.cursor.next else lexer.cursor }
  skipBlanks (← Act.read (·.cursor.bound))

/-- A pending key is given up at the end of its line and after this many
characters. -/
def keyLimit : Nat := 1024

/-- Whether a pending key has to be given up. -/
def isStale (cursor : Cursor) (key : PendingKey) : Bool :=
  key.line != cursor.line || key.index + keyLimit < cursor.index

/-- Give up the pending keys whose colon did not come in time; keys that must be
keys are faults. -/
def dropStale : Act Lexer Unit := do
  let lexer ← Act.get
  if lexer.pending.any fun (_, key) =>
      key.required && isStale lexer.cursor key then refuse
  else
    Act.modify fun lexer =>
      { lexer with
        pending := lexer.pending.filter fun (_, key) =>
          !isStale lexer.cursor key }

/-- Give up the pending key of the current depth; one that must be a key is a
fault. -/
def dropPending : Act Lexer Unit := do
  let lexer ← Act.get
  if lexer.pending.any fun (depth, key) =>
      depth == lexer.depth && key.required then refuse
  else
    Act.modify fun lexer =>
      { lexer with
        pending := lexer.pending.filter fun (depth, _) => depth != lexer.depth }

/-- Note that a key may begin here.  Where a block of the same indentation goes
on, it must be one. -/
def notePending : Act Lexer Unit := do
  if ← Act.read (·.allowsKey) then
    dropPending
    Act.modify fun lexer =>
      let key : PendingKey := {
        token := lexer.tokens.size
        required := !lexer.inFlow && lexer.indent == lexer.cursor.column
        index := lexer.cursor.index
        line := lexer.cursor.line
        column := lexer.cursor.column }
      { lexer with pending := (lexer.depth, key) :: lexer.pending }

/-- Leave the blocks that are indented deeper than a column.  The number bounds
the blocks. -/
def leaveBlocks (column : Int) : Nat → Act Lexer Unit
  | 0 => pure ()
  | bound + 1 => do
      let lexer ← Act.get
      if !lexer.inFlow && column < lexer.indent then
        Act.modify fun lexer =>
          { lexer with
            indent := lexer.outer.headD (-1)
            outer := lexer.outer.tail }
        emit .blockEnd
        leaveBlocks column bound

/-- Leave the blocks that are indented deeper than a column. -/
def leaveTo (column : Int) : Act Lexer Unit := do
  leaveBlocks column (← Act.read (·.outer.length))

/-- Enter a block at a column if that is deeper than the current block, and
answer whether it is. -/
def enterBlock (column : Nat) : Act Lexer Bool := do
  let lexer ← Act.get
  if lexer.indent < column then
    Act.modify fun lexer =>
      { lexer with
        indent := column
        outer := lexer.indent :: lexer.outer }
    return true
  else return false

/-- Begin a block at the cursor, outside of brackets, if it is a new one. -/
def beginBlock (start : Token) : Act Lexer Unit := do
  let lexer ← Act.get
  if !lexer.inFlow then
    if lexer.allowsKey then
      if ← enterBlock lexer.cursor.column then emit start
    else refuse

/-- Read what is left of the document as its end. -/
def scanEnd : Act Lexer Unit := do
  leaveTo (-1)
  dropPending
  allowKey false
  Act.modify fun lexer => { lexer with pending := [] }
  emit .streamEnd

def scanDirectiveLine : Act Lexer Unit := do
  leaveTo (-1)
  dropPending
  allowKey false
  emit (← scanWith scanDirective)

def scanDocumentMark (token : Token) : Act Lexer Unit := do
  leaveTo (-1)
  dropPending
  allowKey false
  skip 3
  emit token

def scanOpening (token : Token) : Act Lexer Unit := do
  notePending
  Act.modify fun lexer => { lexer with depth := lexer.depth + 1 }
  allowKey true
  skip 1
  emit token

def scanClosing (token : Token) : Act Lexer Unit := do
  dropPending
  Act.modify fun lexer => { lexer with depth := lexer.depth - 1 }
  allowKey false
  skip 1
  emit token

def scanComma : Act Lexer Unit := do
  allowKey true
  dropPending
  skip 1
  emit .flowEntry

def scanDash : Act Lexer Unit := do
  beginBlock .blockSequenceStart
  allowKey true
  dropPending
  skip 1
  emit .blockEntry

def scanKey : Act Lexer Unit := do
  beginBlock .blockMappingStart
  allowKey !(← Act.read (·.inFlow))
  dropPending
  skip 1
  emit .key

/-- The tokens of a pending key whose colon was found. -/
def confirmKey (key : PendingKey) : Act Lexer Unit := do
  Act.modify fun lexer =>
    { lexer with
      pending := lexer.pending.filter fun (depth, _) => depth != lexer.depth }
  emitAt key.token .key
  if !(← Act.read (·.inFlow)) then
    if ← enterBlock key.column then emitAt key.token .blockMappingStart
  allowKey false

def scanColon : Act Lexer Unit := do
  let lexer ← Act.get
  match lexer.pending.lookup lexer.depth with
  | some key => confirmKey key
  | none => do
      beginBlock .blockMappingStart
      allowKey !lexer.inFlow
      dropPending
  skip 1
  emit .value

/-- Read a property of a node, an alias or a text in quotes, any of which may
begin a key. -/
def scanKeyPart (scan : Cursor → Except Fault (Token × Cursor)) :
    Act Lexer Unit := do
  notePending
  allowKey false
  emit (← scanWith scan)

/-- Read a name into a token. -/
def named (make : String → Token) (cursor : Cursor) :
    Except Fault (Token × Cursor) := do
  let (name, after) ← scanName cursor
  return (make name, after)

/-- A scalar token with its text. -/
def scalarOf (plain : Bool) (scanned : List Char × Cursor) : Token × Cursor :=
  (.scalar (String.ofList scanned.1) plain, scanned.2)

def quoted (quote : Char) (cursor : Cursor) : Except Fault (Token × Cursor) :=
  (QuotedText.scan quote cursor).map (scalarOf false)

def scanBlockText (folded : Bool) : Act Lexer Unit := do
  allowKey true
  dropPending
  let indent ← Act.read (·.indent)
  emit (← scanWith fun cursor =>
    (BlockText.scan folded indent cursor).map (scalarOf false))

def scanPlain : Act Lexer Unit := do
  notePending
  let lexer ← Act.get
  let (text, ended, after) :=
    PlainText.scan lexer.inFlow lexer.indent lexer.cursor
  Act.modify fun lexer => { lexer with cursor := after, allowsKey := ended }
  emit (.scalar (String.ofList text) true)

/-- The signs that begin no plain text. -/
def reservedSigns : List Char := "-?:,[]\x7b\x7d#&*!|>'\"%@`".toList

/-- Whether a plain text begins at the cursor. -/
def beginsPlain (lexer : Lexer) (first : Char) : Bool :=
  (!endsWord (some first) && !reservedSigns.contains first) ||
    (!endsWord (lexer.cursor.peek 1) &&
      (first == '-' || (!lexer.inFlow && (first == '?' || first == ':'))))

def scanToken (first : Char) : Act Lexer Unit := do
  let lexer ← Act.get
  let cursor := lexer.cursor
  let outsideBlank := lexer.inFlow || endsWord (cursor.peek 1)
  if first == '%' && cursor.column == 0 then scanDirectiveLine
  else if cursor.column == 0 && cursor.atMark '-' then
    scanDocumentMark .documentStart
  else if cursor.column == 0 && cursor.atMark '.' then
    scanDocumentMark .documentEnd
  else if first == '[' then scanOpening .flowSequenceStart
  else if first == '\x7b' then scanOpening .flowMappingStart
  else if first == ']' then scanClosing .flowSequenceEnd
  else if first == '\x7d' then scanClosing .flowMappingEnd
  else if first == ',' then scanComma
  else if first == '-' && endsWord (cursor.peek 1) then scanDash
  else if first == '?' && outsideBlank then scanKey
  else if first == ':' && outsideBlank then scanColon
  else if first == '*' then scanKeyPart (named .reference)
  else if first == '&' then scanKeyPart (named .anchor)
  else if first == '!' then scanKeyPart scanTag
  else if (first == '|' || first == '>') && !lexer.inFlow then
    scanBlockText (first == '>')
  else if first == '\'' || first == '"' then scanKeyPart (quoted first)
  else if beginsPlain lexer first then scanPlain
  else refuse

/-- Read the next token with the ends of blocks in front of it, and answer
whether the document goes on. -/
def advance : Act Lexer Bool := do
  dropStale
  skipToToken
  dropStale
  let cursor ← Act.read (·.cursor)
  leaveTo cursor.column
  match cursor.peek with
  | none => do
      scanEnd
      return false
  | some first => do
      scanToken first
      return true

/-- Read all tokens.  The number bounds them. -/
def scanAll : Nat → Act Lexer Unit
  | 0 => pure ()
  | bound + 1 => do
      if ← advance then scanAll bound

/-- The number of tokens in front of the first pending key. -/
def settled (lexer : Lexer) : Nat :=
  lexer.pending.foldl (fun least (_, key) => min least key.token)
    lexer.tokens.size

end Lexer

/-- The tokens of a document, up to the first place that makes none, and the
fault there. -/
structure Tokens where
  tokens : List Token
  fault : Option Fault := none

def Tokens.ofText (text : List Char) : Tokens :=
  let start : Lexer := { cursor := .ofText text }
  match Lexer.scanAll (text.length + 2) start with
  | (.ok (), lexer) => { tokens := lexer.tokens.toList }
  | (.error fault, lexer) =>
      { tokens := (lexer.tokens.take lexer.settled).toList
        fault := some fault }

end ItemBinning.Document
