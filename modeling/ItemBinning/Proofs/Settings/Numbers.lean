import ItemBinning.Proofs.Settings.Quantities

/-!
# The number of a quantity

A numeral that consists of digits, and of a point and more digits if there is a fraction, is
read as the double nearest to it, in every script that has digits.  The number of a quantity is
what is read from its digits as they are written.
-/

namespace ItemBinning

namespace Text

/-- A text that neither begins nor ends in a class keeps all its characters. -/
theorem trim_of_outside {inClass : Char → Bool} {text : List Char}
    (outside : ∀ letter ∈ text, inClass letter = false) : trim inClass text = text := by
  have kept : ∀ letters : List Char, (∀ letter ∈ letters, inClass letter = false) →
      letters.dropWhile inClass = letters := by
    intro letters outside
    cases letters with
    | nil => rfl
    | cons first rest => exact List.dropWhile_cons_of_neg (by simp [outside first])
  unfold trim
  rw [kept text outside, kept text.reverse (by simpa using outside), List.reverse_reverse]

theorem isWhiteSpace_eq_false_of_isNumeric {letter : Char} (numeric : isNumeric letter = true) :
    isWhiteSpace letter = false := by
  refine Bool.eq_false_iff.2 fun white => ?_
  cases (isNumeric_eq_false_of_isBlank (isBlank_of_isWhiteSpace white)).symm.trans numeric

end Text

namespace Decimal.Numeral

open Text

variable {isDigit : Char → Bool} {digits rest text : List Char}

/-- Digits without underscores between them are taken off up to the first other character. -/
theorem spanDigits_run (underscore : isDigit '_' = false)
    (inside : ∀ digit ∈ digits, isDigit digit = true)
    (ended : ∀ letter ∈ rest.head?, isDigit letter = false) (plain : '_' ∉ rest.head?) :
    spanDigits isDigit (digits ++ rest) = (digits, rest) := by
  induction digits with
  | nil =>
      cases rest with
      | nil => rfl
      | cons first rest =>
          have other := ended first rfl
          unfold spanDigits
          split <;> simp_all
  | cons digit digits ih =>
      have isFirst := inside digit List.mem_cons_self
      have behind := ih fun digit member => inside digit (List.mem_cons_of_mem _ member)
      have unmarked : '_' ∉ (digits ++ rest).head? := by
        cases digits with
        | nil => exact plain
        | cons next digits =>
            rintro ⟨⟩
            cases underscore.symm.trans (inside '_' (List.mem_cons_of_mem _ List.mem_cons_self))
      rw [List.cons_append, spanDigits.eq_def]
      split
      · rename_i same
        obtain ⟨rfl, marked⟩ := List.cons.inj same
        rw [marked] at unmarked
        exact absurd rfl unmarked
      · rename_i same
        obtain ⟨rfl, rfl⟩ := List.cons.inj same
        rw [if_pos isFirst, behind]
      · rename_i same
        cases same

theorem takeSign_of_isDigit (signs : isDigit '-' = false ∧ isDigit '+' = false)
    (starts : ∀ letter ∈ text.head?, isDigit letter = true) : takeSign text = (false, text) := by
  unfold takeSign
  split
  · cases signs.1.symm.trans (starts '-' rfl)
  · cases signs.2.symm.trans (starts '+' rfl)
  · rfl

/-- A run of digits is read as the integer that they denote, if the host allows so many. -/
theorem integer?_of_digits [Host] (some : digits ≠ [])
    (areDigits : ∀ digit ∈ digits, isDecimalDigit digit = true) :
    integer? isDecimalDigit (String.ofList digits) =
      if Host.allows digits.length then .some (digitsValue digits : Int) else none := by
  have outside : ∀ letter ∈ digits, isWhiteSpace letter = false := fun letter member =>
    isWhiteSpace_eq_false_of_isNumeric (Bool.or_eq_true_iff.2 (.inl (areDigits letter member)))
  have unsigned : takeSign digits = (false, digits) :=
    takeSign_of_isDigit ⟨by decide, by decide⟩ fun letter first =>
      areDigits letter (List.mem_of_mem_head? first)
  have run : spanDigits isDecimalDigit digits = (digits, []) := by
    have run := @spanDigits_run isDecimalDigit digits [] (by decide) areDigits nofun nofun
    rwa [List.append_nil] at run
  unfold integer?
  rw [String.toList_ofList, trim_of_outside outside, unsigned]
  dsimp only
  rw [run, List.isEmpty_eq_false_iff.2 some]
  cases Host.allows digits.length <;> rfl

end Decimal.Numeral

namespace Quantity

open Text Decimal

variable {quantity : Quantity} {text : List Char}

/-- The number of a quantity as it is written. -/
def numberText (quantity : Quantity) : List Char :=
  quantity.whole ++ pointed quantity.fraction

theorem Written.numeric (written : quantity.Written text) :
    ∀ letter ∈ quantity.numberText, isNumeric letter = true := by
  have digit {letter : Char} (isDigit : isDecimalDigit letter = true) :
      isNumeric letter = true := Bool.or_eq_true_iff.2 (.inl isDigit)
  intro letter member
  obtain member | member := List.mem_append.1 member
  · exact digit (written.whole letter member)
  · unfold pointed at member
    split at member
    · cases member
    · obtain rfl | member := List.mem_cons.1 member
      · rfl
      · exact digit (written.fraction letter member)

theorem Written.magnitude?_numberText (written : quantity.Written text) :
    Numeral.magnitude? isDecimalDigit quantity.numberText = some quantity.number := by
  have underscore : isDecimalDigit '_' = false := by decide
  have point : isDecimalDigit '.' = false := by decide
  have whole : Numeral.spanDigits isDecimalDigit quantity.numberText =
      (quantity.whole, pointed quantity.fraction) := by
    refine Numeral.spanDigits_run underscore written.whole ?_ ?_
    · unfold pointed
      split
      · exact nofun
      · rintro _ ⟨⟩
        exact point
    · unfold pointed
      split
      · exact nofun
      · rintro ⟨⟩
  unfold Numeral.magnitude?
  rw [whole]
  cases isFraction : quantity.fraction with
  | nil =>
      unfold number
      rw [isFraction]
      simp [pointed, written.whole_ne_nil, Numeral.exponent?]
  | cons digit digits =>
      have fraction : Numeral.spanDigits isDecimalDigit (digit :: digits) =
          (digit :: digits, []) := by
        have run := @Numeral.spanDigits_run isDecimalDigit quantity.fraction [] underscore
          written.fraction nofun nofun
        rwa [List.append_nil, isFraction] at run
      unfold number
      rw [isFraction]
      simp [pointed, fraction, Numeral.exponent?]

/-- The number of a quantity that is written is what its digits are read as. -/
theorem Written.decimal?_numberText (written : quantity.Written text) :
    Numeral.decimal? isDecimalDigit (String.ofList quantity.numberText) =
      some quantity.number := by
  have outside : ∀ letter ∈ quantity.numberText, isWhiteSpace letter = false := fun letter member =>
    isWhiteSpace_eq_false_of_isNumeric (written.numeric letter member)
  have starts : ∀ letter ∈ quantity.numberText.head?, isDecimalDigit letter = true := by
    intro letter first
    unfold numberText at first
    rw [List.head?_append, Option.or_of_isSome (List.isSome_head?.2 written.whole_ne_nil)] at first
    exact written.whole letter (List.mem_of_mem_head? first)
  unfold Numeral.decimal? Numeral.signedDecimal?
  rw [String.toList_ofList, trim_of_outside outside,
    Numeral.takeSign_of_isDigit (by decide) starts]
  dsimp only
  rw [written.magnitude?_numberText]
  rfl

end Quantity

end ItemBinning
