import ItemBinning.Quantity
import Mathlib

/-!
# How quantities are written

A quantity is written as digits, a point with more digits if it has a fraction, and a unit,
with blanks before, between and after them.  What is read from a text is a quantity that is
written there.  Where the letters of the unit cannot be mistaken for a part of the number, it
is the only one: the blanks make no difference, and a text is not written for two quantities.
-/

namespace ItemBinning

namespace Text

variable {letter : Char}

/-- A digit or a point. -/
def isNumeric (letter : Char) : Bool :=
  isDecimalDigit letter || letter == '.'

theorem isDecimalDigit_iff : isDecimalDigit letter = true ↔
    ∃ first ∈ decimalZeros, first ≤ letter.toNat ∧ letter.toNat < first + 10 := by
  unfold isDecimalDigit decimalDigit?
  rw [List.findSome?_isSome_iff]
  refine exists_congr fun first => and_congr_right fun _ => ?_
  split
  · rename_i inside
    exact ⟨fun _ => inside, fun _ => rfl⟩
  · rename_i outside
    exact ⟨nofun, fun inside => absurd inside outside⟩

/-- Blanks and plain letters stand between the scripts that have digits. -/
theorem decimalZeros_ranges : ∀ first ∈ decimalZeros, first = 0x30 ∨
    0x660 ≤ first ∧ first ≤ 0x1090 ∨ 0x17e0 ≤ first ∧ first ≤ 0x1c50 ∨ 0xa620 ≤ first := by
  decide

theorem isNumeric_eq_false (before : letter.toNat < 0x2e ∨ 0x39 < letter.toNat)
    (between : letter.toNat < 0x660 ∨ 0x1099 < letter.toNat ∧ letter.toNat < 0x17e0 ∨
      0x1c59 < letter.toNat ∧ letter.toNat < 0xa620) :
    isNumeric letter = false := by
  have digit : isDecimalDigit letter = false := by
    refine Bool.eq_false_iff.2 fun digit => ?_
    obtain ⟨first, member, inside⟩ := isDecimalDigit_iff.1 digit
    have ranges := decimalZeros_ranges first member
    omega
  have point : letter ≠ '.' := by
    rintro rfl
    revert before
    decide
  unfold isNumeric
  rw [digit, beq_eq_false_iff_ne.2 point]
  rfl

theorem isNumeric_eq_false_of_isBlank (blank : isBlank letter = true) :
    isNumeric letter = false := by
  simp only [isBlank, isWhiteSpace, Bool.or_eq_true, Bool.and_eq_true, decide_eq_true_eq,
    beq_iff_eq] at blank
  exact isNumeric_eq_false (by omega) (by omega)

theorem isAlpha_iff : letter.isAlpha = true ↔
    0x41 ≤ letter.toNat ∧ letter.toNat ≤ 0x5a ∨ 0x61 ≤ letter.toNat ∧ letter.toNat ≤ 0x7a := by
  simp only [Char.isAlpha, Char.isUpper, Char.isLower, Bool.or_eq_true, Bool.and_eq_true,
    decide_eq_true_eq, UInt32.le_iff_toNat_le]
  rfl

theorem isNumeric_eq_false_of_isAlpha (alpha : letter.isAlpha = true) :
    isNumeric letter = false := by
  rw [isAlpha_iff] at alpha
  exact isNumeric_eq_false (by omega) (by omega)

theorem isBlank_eq_false_of_isAlpha (alpha : letter.isAlpha = true) :
    isBlank letter = false := by
  rw [isAlpha_iff] at alpha
  refine Bool.eq_false_iff.2 fun blank => ?_
  simp only [isBlank, isWhiteSpace, Bool.or_eq_true, Bool.and_eq_true, decide_eq_true_eq,
    beq_iff_eq] at blank
  omega

end Text

namespace Quantity

open Text

/-- Where a run of a class ends, the text splits. -/
theorem takeWhile_run {inClass : Char → Bool} {run rest : List Char}
    (inside : ∀ letter ∈ run, inClass letter = true)
    (ended : ∀ letter ∈ rest.head?, inClass letter = false) :
    (run ++ rest).takeWhile inClass = run := by
  rw [List.takeWhile_append_of_pos inside]
  cases rest with
  | nil => simp
  | cons first rest => simp [ended first rfl]

theorem dropWhile_run {inClass : Char → Bool} {run rest : List Char}
    (inside : ∀ letter ∈ run, inClass letter = true)
    (ended : ∀ letter ∈ rest.head?, inClass letter = false) :
    (run ++ rest).dropWhile inClass = rest := by
  rw [List.dropWhile_append_of_pos inside]
  cases rest with
  | nil => rfl
  | cons first rest => simp [ended first rfl]

/-- The digits after a point, with the point if there are some. -/
def pointed (fraction : List Char) : List Char :=
  if fraction = [] then [] else '.' :: fraction

/-- The quantity is written in the text, with blanks around its number and its unit. -/
structure Written (quantity : Quantity) (text : List Char) : Prop where
  whole_ne_nil : quantity.whole ≠ []
  whole : ∀ letter ∈ quantity.whole, isDecimalDigit letter = true
  fraction : ∀ letter ∈ quantity.fraction, isDecimalDigit letter = true
  spaced : ∃ before between after, (∀ letter ∈ before ++ between ++ after, isBlank letter = true) ∧
    text = before ++ (quantity.whole ++ (pointed quantity.fraction ++
      (between ++ (quantity.unit ++ after))))

/-- Letters that end a number. -/
def Lettered (unit : List Char) : Prop :=
  ∀ letter ∈ unit, isBlank letter = false ∧ isNumeric letter = false

theorem lettered_of_isAlpha {unit : List Char}
    (alpha : ∀ letter ∈ unit, letter.isAlpha = true) : Lettered unit := fun letter member =>
  ⟨isBlank_eq_false_of_isAlpha (alpha letter member),
    isNumeric_eq_false_of_isAlpha (alpha letter member)⟩

theorem splitFraction?_pointed {fraction rest : List Char}
    (digits : ∀ letter ∈ fraction, isDecimalDigit letter = true)
    (ended : ∀ letter ∈ rest.head?, isNumeric letter = false) :
    splitFraction? (pointed fraction ++ rest) = some (fraction, rest) := by
  have unnumbered : ∀ letter ∈ rest.head?, isDecimalDigit letter = false := fun letter first =>
    (Bool.or_eq_false_iff.1 (ended letter first)).1
  cases fraction with
  | nil =>
      change splitFraction? rest = _
      unfold splitFraction?
      split
      · exact absurd (ended '.' rfl) (by decide)
      · rfl
  | cons digit fraction =>
      change splitFraction? ('.' :: (digit :: fraction ++ rest)) = _
      unfold splitFraction?
      simp only [takeWhile_run digits unnumbered, dropWhile_run digits unnumbered]
      rfl

theorem splitUnit?_spaced {unit between after : List Char} (lettered : Lettered unit)
    (before : ∀ letter ∈ between, isBlank letter = true)
    (behind : ∀ letter ∈ after, isBlank letter = true) :
    splitUnit? (between ++ (unit ++ after)) = some unit := by
  have started : (between ++ (unit ++ after)).dropWhile isBlank =
      if unit = [] then [] else unit ++ after := by
    cases unit with
    | nil => exact List.dropWhile_eq_nil_iff.2 fun letter member =>
        (List.mem_append.1 member).elim (before letter) (behind letter)
    | cons letter unit =>
        refine dropWhile_run before fun first isFirst => ?_
        cases isFirst
        exact (lettered letter List.mem_cons_self).1
  unfold splitUnit?
  dsimp only
  rw [started]
  split
  · rename_i none
    rw [none]
    rfl
  · have inside : ∀ letter ∈ unit, (!isBlank letter) = true := fun letter member => by
      rw [(lettered letter member).1]
      rfl
    have ended : ∀ letter ∈ after.head?, (!isBlank letter) = false := fun letter first => by
      rw [behind letter (List.mem_of_mem_head? first)]
      rfl
    rw [dropWhile_run inside ended, takeWhile_run inside ended, if_pos (List.all_eq_true.2 behind)]

/-- What is written is read, if the unit cannot be mistaken for a part of the number. -/
theorem Written.read {quantity : Quantity} {text : List Char} (written : quantity.Written text)
    (lettered : Lettered quantity.unit) : read? text = some quantity := by
  obtain ⟨before, between, after, blank, rfl⟩ := written.spaced
  simp only [List.forall_mem_append] at blank
  obtain ⟨⟨before', between'⟩, after'⟩ := blank
  have unnumbered : ∀ letter ∈ (between ++ (quantity.unit ++ after)).head?,
      isNumeric letter = false := by
    intro letter first
    have member := List.mem_of_mem_head? first
    simp only [List.mem_append] at member
    obtain member | member | member := member
    · exact isNumeric_eq_false_of_isBlank (between' letter member)
    · exact (lettered letter member).2
    · exact isNumeric_eq_false_of_isBlank (after' letter member)
  have ended : ∀ letter ∈ (pointed quantity.fraction ++
      (between ++ (quantity.unit ++ after))).head?, isDecimalDigit letter = false := by
    intro letter first
    unfold pointed at first
    split at first
    · exact (Bool.or_eq_false_iff.1 (unnumbered letter first)).1
    · cases first
      decide
  have starts : ∀ letter ∈ (quantity.whole ++ (pointed quantity.fraction ++
      (between ++ (quantity.unit ++ after)))).head?, isBlank letter = false := by
    intro letter first
    rw [List.head?_append, Option.or_of_isSome
      (List.isSome_head?.2 written.whole_ne_nil)] at first
    have digit := written.whole letter (List.mem_of_mem_head? first)
    refine Bool.eq_false_iff.2 fun blank => ?_
    have other := isNumeric_eq_false_of_isBlank blank
    unfold isNumeric at other
    rw [digit] at other
    cases other
  unfold read?
  dsimp only
  rw [dropWhile_run before' starts, takeWhile_run written.whole ended,
    dropWhile_run written.whole ended, splitFraction?_pointed written.fraction unnumbered,
    if_neg (by simpa using written.whole_ne_nil)]
  exact congrArg (Option.bind · _) (splitUnit?_spaced lettered between' after')

theorem splitFraction?_eq_some {text fraction rest : List Char}
    (split : splitFraction? text = some (fraction, rest)) :
    text = pointed fraction ++ rest ∧ ∀ letter ∈ fraction, isDecimalDigit letter = true := by
  unfold splitFraction? at split
  split at split
  · rename_i text
    dsimp only at split
    split at split
    · cases split
    · rename_i some
      cases split
      refine ⟨?_, fun letter => List.mem_takeWhile_imp⟩
      unfold pointed
      rw [if_neg (by simpa using some), List.cons_append, List.takeWhile_append_dropWhile]
  · cases split
    exact ⟨rfl, nofun⟩

theorem splitUnit?_eq_some {text unit : List Char} (split : splitUnit? text = some unit) :
    ∃ between after, (∀ letter ∈ between, isBlank letter = true) ∧
      (∀ letter ∈ after, isBlank letter = true) ∧ text = between ++ (unit ++ after) := by
  unfold splitUnit? at split
  dsimp only at split
  split at split
  · rename_i blank
    cases split
    exact ⟨_, _, fun letter => List.mem_takeWhile_imp, List.all_eq_true.1 blank, by
      rw [List.takeWhile_append_dropWhile, List.takeWhile_append_dropWhile]⟩
  · cases split

/-- What is read from a text is written there. -/
theorem written_of_read {quantity : Quantity} {text : List Char}
    (read : read? text = some quantity) : quantity.Written text := by
  unfold read? at read
  dsimp only at read
  split at read
  · cases read
  · rename_i some
    simp only [Option.bind_eq_bind, Option.bind_eq_some_iff, Prod.exists] at read
    obtain ⟨fraction, rest, number, unit, word, same⟩ := read
    cases same
    obtain ⟨behindWhole, digits⟩ := splitFraction?_eq_some number
    obtain ⟨between, after, before', behind', rfl⟩ := splitUnit?_eq_some word
    exact {
      whole_ne_nil := by simpa using some
      whole := fun letter => List.mem_takeWhile_imp
      fraction := digits
      spaced := ⟨text.takeWhile isBlank, between, after, by
        simp only [List.forall_mem_append]
        exact ⟨⟨fun letter => List.mem_takeWhile_imp, before'⟩, behind'⟩, by
        rw [← behindWhole, List.takeWhile_append_dropWhile, List.takeWhile_append_dropWhile]⟩ }

end Quantity

end ItemBinning
