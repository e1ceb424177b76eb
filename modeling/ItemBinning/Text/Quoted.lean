import ItemBinning.Text.Printable

/-!
# Quoted text

Messages show a text between quotes.  Single quotes are used unless the text
holds a single quote and no double quote.  The quote in use and the backslash
are escaped by a backslash, line feed, carriage return and tab have escapes of
their own, and other characters that cannot be printed are shown by their code
in the shortest of three hexadecimal widths.
-/

namespace ItemBinning.Text

/-- A number in lower-case hexadecimal, padded with zeros to a width. -/
def hexadecimal (width code : Nat) : List Char :=
  let digits := Nat.toDigits 16 code
  List.replicate (width - digits.length) '0' ++ digits

/-- The quote that surrounds a text. -/
def quoteFor (text : List Char) : Char :=
  if text.contains '\'' && !text.contains '"' then '"' else '\''

/-- One character as it is shown between quotes. -/
def escaped (quote character : Char) : List Char :=
  if character == quote || character == '\\' then ['\\', character]
  else if character == '\n' then ['\\', 'n']
  else if character == '\r' then ['\\', 'r']
  else if character == '\t' then ['\\', 't']
  else if isPrintable character then [character]
  else
    let code := character.toNat
    if code < 0x100 then '\\' :: 'x' :: hexadecimal 2 code
    else if code < 0x10000 then '\\' :: 'u' :: hexadecimal 4 code
    else '\\' :: 'U' :: hexadecimal 8 code

def quoted (text : String) : String :=
  let characters := text.toList
  let quote := quoteFor characters
  String.ofList (quote :: characters.flatMap (escaped quote) ++ [quote])

end ItemBinning.Text
