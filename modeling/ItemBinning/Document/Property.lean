import ItemBinning.Document.QuotedText
import ItemBinning.Document.Token

/-!
# Names, tags and directives

A node may be named for later reference and may be tagged with what it is.  The
directives in front of a document say which version of the notation it uses and
what the handles of its tags stand for.
-/

namespace ItemBinning.Document

open Decimal.Numeral (isAsciiDigit)

def isNameSign (character : Char) : Bool :=
  character.isAlphanum || character == '-' || character == '_'

/-- The signs besides letters and digits that may stand in a tag. -/
def tagSigns : List Char :=
  "-;/?:@&=+$,_.!~*'()[]%".toList

def isTagSign (character : Char) : Bool :=
  character.isAlphanum || tagSigns.contains character

/-- The signs that may follow a name without a blank. -/
def nameEnds : List Char := "?:,]\x7d%@`".toList

/-- Whether a name may end here. -/
def endsName (next : Option Char) : Bool :=
  endsWord next || next.any nameEnds.contains

/-- Read a name from behind its sign. -/
def scanName (cursor : Cursor) : Except Fault (String × Cursor) := do
  let (name, after) := cursor.next.span isNameSign
  if name.isEmpty then noToken
  else
    expect endsName after
    return (String.ofList name, after)

/-- The bytes at the front of a text, each written as a percent sign and two
hexadecimal digits, and the number of characters that they take. -/
def escapedBytes : List Char → Except Fault (List UInt8 × Nat)
  | '%' :: first :: second :: rest =>
      match QuotedText.hexValue? 2 [first, second] with
      | some byte => do
          let (others, size) ← escapedBytes rest
          return (UInt8.ofNat byte :: others, size + 3)
      | none => noToken
  | '%' :: _ => noToken
  | _ => .ok ([], 0)

/-- The text that bytes encode. -/
def decoded (bytes : List UInt8) : Except Fault (List Char) :=
  match String.fromUTF8? ⟨bytes.toArray⟩ with
  | some text => .ok text.toList
  | none => noToken

/-- Read the characters of a tag.  The number bounds the pieces. -/
def scanTagText : Nat → Cursor → Except Fault (List Char × Cursor)
  | 0, cursor => .ok ([], cursor)
  | bound + 1, cursor =>
      match cursor.peek with
      | some '%' => do
          let (bytes, size) ← escapedBytes cursor.rest
          let piece ← decoded bytes
          let (text, after) ← scanTagText bound (cursor.skip size)
          return (piece ++ text, after)
      | some character =>
          if isTagSign character then do
            let (text, after) ← scanTagText bound cursor.next
            return (character :: text, after)
          else .ok ([], cursor)
      | none => .ok ([], cursor)

/-- Read a tag without its handle, which must not be empty. -/
def scanSuffix (cursor : Cursor) : Except Fault (String × Cursor) := do
  let (text, after) ← scanTagText cursor.bound cursor
  if after.index == cursor.index then noToken
  else return (String.ofList text, after)

/-- Read a handle: an exclamation mark, or a name between two of them. -/
def scanHandle (cursor : Cursor) : Except Fault (String × Cursor) :=
  if cursor.peek != some '!' then noToken
  else if cursor.peek 1 == some ' ' then .ok ("!", cursor.next)
  else
    let (name, after) := cursor.next.span isNameSign
    if after.peek == some '!' then
      .ok (String.ofList ('!' :: name ++ ['!']), after.next)
    else noToken

/-- Whether a second exclamation mark stands in the word behind the first. -/
def hasHandle (word : List Char) : Bool :=
  (word.takeWhile fun character =>
    character != ' ' && !isLineEnd character).contains '!'

def scanTagBody (cursor : Cursor) : Except Fault (Token × Cursor) :=
  match cursor.peek 1 with
  | some '<' => do
      let (suffix, after) ← scanSuffix (cursor.skip 2)
      if after.peek == some '>' then return (.tag none suffix, after.next)
      else noToken
  | next =>
      if endsWord next then .ok (.tag none "!", cursor.next)
      else do
        let (handle, behind) ←
          if hasHandle cursor.next.rest then scanHandle cursor
          else pure ("!", cursor.next)
        let (suffix, after) ← scanSuffix behind
        return (.tag (some handle) suffix, after)

def scanTag (cursor : Cursor) : Except Fault (Token × Cursor) := do
  let (token, after) ← scanTagBody cursor
  expect endsField after
  return (token, after)

def scanVersionNumber (cursor : Cursor) : Except Fault (Nat × Cursor) :=
  let (digits, after) := cursor.span isAsciiDigit
  if digits.isEmpty then noToken
  else .ok (Text.digitsValue digits, after)

def skipSpaces (cursor : Cursor) : Cursor :=
  cursor.skipWhile (· == ' ')

/-- Read the version that a directive names. -/
def scanVersion (cursor : Cursor) : Except Fault (Directive × Cursor) := do
  let (major, behind) ← scanVersionNumber (skipSpaces cursor)
  expect (· == some '.') behind
  let (minor, after) ← scanVersionNumber behind.next
  expect endsField after
  return (.version major minor, after)

/-- Read the handle that a directive names and what it stands for. -/
def scanReplacement (cursor : Cursor) : Except Fault (Directive × Cursor) := do
  let (handle, behind) ← scanHandle (skipSpaces cursor)
  expect (· == some ' ') behind
  let (replacement, after) ← scanSuffix (skipSpaces behind)
  expect endsField after
  return (.handle handle replacement, after)

/-- Read a directive with its line. -/
def scanDirective (cursor : Cursor) : Except Fault (Token × Cursor) := do
  let (name, behind) := cursor.next.span isNameSign
  if name.isEmpty then noToken
  else
    expect endsField behind
    let (directive, after) ←
      if name == "YAML".toList then scanVersion behind
      else if name == "TAG".toList then scanReplacement behind
      else pure (Directive.other, behind.skipWhile (!isLineEnd ·))
    let ended := (skipSpaces after).skipComment
    expect endsLine ended
    return (.directive directive, (ended.lineEnd?.map Prod.snd).getD ended)

end ItemBinning.Document
