import ItemBinning.Document.PlainText

/-!
# Quoted texts

A text in single quotes writes a quote twice and has no other escapes; one in
double quotes escapes characters with a backslash.  Both may go on in further
lines; the blanks around a line end are left out, and line ends read as in plain
texts.  A backslash at the end of a line joins it to the next one.
-/

namespace ItemBinning.Document.QuotedText

/-- The characters that one letter after a backslash stands for. -/
def escapes : List (Char × Char) :=
  [('0', '\x00'), ('a', '\x07'), ('b', '\x08'), ('t', '\t'), ('\t', '\t'),
   ('n', '\n'), ('v', '\x0b'), ('f', '\x0c'), ('r', '\r'), ('e', '\x1b'),
   (' ', ' '), ('"', '"'), ('\\', '\\'), ('/', '/'), ('N', '\u0085'),
   ('_', '\u00a0'), ('L', '\u2028'), ('P', '\u2029')]

/-- The number of hexadecimal digits after some letters. -/
def codeWidths : List (Char × Nat) := [('x', 2), ('u', 4), ('U', 8)]

def hexDigit? (character : Char) : Option Nat :=
  let code := character.toNat
  if '0' ≤ character ∧ character ≤ '9' then some (code - '0'.toNat)
  else if 'a' ≤ character ∧ character ≤ 'f' then some (code - 'a'.toNat + 10)
  else if 'A' ≤ character ∧ character ≤ 'F' then some (code - 'A'.toNat + 10)
  else none

def hexValue? (width : Nat) (text : List Char) : Option Nat :=
  if text.length < width then none
  else ((text.take width).mapM hexDigit?).map
    (·.foldl (fun number digit => 16 * number + digit) 0)

/-- The greatest number that can be asked for as a code. -/
def codeLimit : Nat := 2147483647

def characterOf (code : Nat) : Except Fault Char :=
  if codeLimit < code then .error .overflow
  else if 0x10FFFF < code then .error .invalidCharacter
  else .ok (Char.ofNat code)

/-- The code that a surrogate makes with a second one, which is escaped next. -/
def pairedCode? (first : Nat) : List Char → Option Nat
  | '\\' :: 'u' :: digits => do
      let second ← hexValue? 4 digits
      if first / 1024 = 0x36 ∧ second / 1024 = 0x37 then
        return 0x10000 + (first % 1024) * 1024 + second % 1024
      else none
  | _ => none

/-- Read the escape of a code with a number of digits; two surrogates are one
character. -/
def scanCode (width : Nat) (cursor : Cursor) :
    Except Fault (List Char × Cursor) :=
  match hexValue? width cursor.rest with
  | none => noToken
  | some code => do
      let after := cursor.skip width
      match pairedCode? code after.rest with
      | some paired => return ([← characterOf paired], after.skip 6)
      | none => return ([← characterOf code], after)

/-- The line ends of empty lines, and the place behind the blanks of the next
line that holds anything.  A document mark must not stand at the start of a
line. -/
def emptyLines : Nat → Cursor → Except Fault (List Char × Cursor)
  | 0, cursor => .ok ([], cursor)
  | bound + 1, cursor =>
      if cursor.atDocumentMark then noToken
      else
        let started := cursor.skipWhile isSpacing
        match started.lineEnd? with
        | none => .ok ([], started)
        | some (ended, next) => do
            let (others, after) ← emptyLines bound next
            return (ended :: others, after)

/-- Read what follows a backslash. -/
def scanEscape (cursor : Cursor) : Except Fault (List Char × Cursor) :=
  match cursor.peek with
  | none => noToken
  | some mark =>
      match escapes.lookup mark, codeWidths.lookup mark, cursor.lineEnd? with
      | some character, _, _ => .ok ([character], cursor.next)
      | none, some width, _ => scanCode width cursor.next
      | none, none, some (_, next) => emptyLines cursor.bound next
      | none, none, none => noToken

/-- Read the blanks inside a text; line ends among them are joined. -/
def scanBlanks (cursor : Cursor) : Except Fault (List Char × Cursor) :=
  let (spaces, after) := cursor.span isSpacing
  match after.lineEnd? with
  | some (first, next) => do
      let (others, reached) ← emptyLines cursor.bound next
      return (PlainText.joined first others, reached)
  | none => if after.peek.isNone then noToken else .ok (spaces, after)

/-- Read a text from behind its opening quote, up to and with the closing one.
The number bounds the pieces. -/
def scanFrom (quote : Char) : Nat → Cursor → Except Fault (List Char × Cursor)
  | 0, _ => noToken
  | bound + 1, cursor =>
      match cursor.rest with
      | [] => noToken
      | character :: rest =>
          if character == quote then
            if quote == '\'' && rest.head? == some quote then do
              let (text, after) ← scanFrom quote bound (cursor.skip 2)
              return (quote :: text, after)
            else .ok ([], cursor.next)
          else do
            let (piece, next) ←
              if isSpacing character || isLineEnd character then
                scanBlanks cursor
              else if quote == '"' && character == '\\' then
                scanEscape cursor.next
              else .ok ([character], cursor.next)
            let (text, after) ← scanFrom quote bound next
            return (piece ++ text, after)

def scan (quote : Char) (cursor : Cursor) : Except Fault (List Char × Cursor) :=
  scanFrom quote cursor.bound cursor.next

end ItemBinning.Document.QuotedText
