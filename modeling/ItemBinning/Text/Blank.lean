/-!
# Blank characters

Blanks may surround every number and unit that a configuration holds.  Two
classes are needed.  White space is the property of that name in the character
database; it is what surrounds the number text of a typed field.  Blanks are
white space together with the four information separators; they are what
surrounds sizes, durations and the values of environment variables.
-/

namespace ItemBinning.Text

/-- The characters with the white-space property. -/
def isWhiteSpace (character : Char) : Bool :=
  let code := character.toNat
  (9 ≤ code && code ≤ 13) || code == 0x20 || code == 0x85 || code == 0xA0 ||
    code == 0x1680 || (0x2000 ≤ code && code ≤ 0x200A) || code == 0x2028 ||
    code == 0x2029 || code == 0x202F || code == 0x205F || code == 0x3000

/-- White space, or one of the four information separators. -/
def isBlank (character : Char) : Bool :=
  let code := character.toNat
  isWhiteSpace character || (0x1C ≤ code && code ≤ 0x1F)

/-- Drop the leading and trailing characters of a class. -/
def trim (inClass : Char → Bool) (text : List Char) : List Char :=
  ((text.dropWhile inClass).reverse.dropWhile inClass).reverse

theorem isBlank_of_isWhiteSpace {character : Char}
    (white : isWhiteSpace character = true) : isBlank character = true := by
  simp [isBlank, white]

end ItemBinning.Text
