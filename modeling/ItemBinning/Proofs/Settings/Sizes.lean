import ItemBinning.DataSize
import ItemBinning.Proofs.Decimal.Doubles
import ItemBinning.Proofs.Settings.Quantities

/-!
# Which sizes resolve

A size is never less than zero.  A text that is no quantity, or has an unknown unit, is refused
as a value.  Two kinds of quantities pass for sizes and cannot be resolved: kilobytes written
with the kelvin sign, which no upper case turns into the letter K of the table of units, and
those whose number of bytes is too large for a double.
-/

namespace ItemBinning.DataSize

open Decimal

/-- A letter is the upper or the lower case of its upper case. -/
theorem eq_toUpper_or_eq_toLower (letter : Char) :
    letter = letter.toUpper ∨ letter = letter.toUpper.toLower := by
  by_cases lower : letter.isLower = true
  · right
    rw [Char.toLower_toUpper_eq_toLower,
      Char.toLower_eq_of_not_isUpper (Char.not_isUpper_of_isLower lower)]
  · left
    exact (Char.toUpper_eq_of_not_isLower lower).symm

section Units

theorem lookup_units : ∀ entry ∈ units, units.lookup entry.1 = some entry.2 := by
  decide

theorem isAlpha_of_listed :
    ∀ entry ∈ units, ∀ letter ∈ entry.1.toList, letter.isAlpha = true := by
  simp [units]

theorem kilobytes_of_listed :
    ∀ entry ∈ units, 'K' ∈ entry.1.toList → entry.1.toList = ['K', 'B'] := by
  simp [units]

theorem isPositive_factor :
    ∀ entry ∈ units, isPositive (Float.ofNat entry.2).toModel.unpack = true := by
  decide

variable {unit : List Char} {factor : Nat}

theorem factor?_eq_some_iff : factor? unit = some factor ↔ (String.ofList unit, factor) ∈ units := by
  constructor
  · intro found
    obtain ⟨before, after, whole, _⟩ := List.lookup_eq_some_iff.1 found
    rw [whole]
    exact List.mem_append_right _ List.mem_cons_self
  · exact lookup_units _

/-- A written unit stands for so many bytes: it is listed, in any case, or there is none. -/
def Measures (unit : List Char) (factor : Nat) : Prop :=
  unit = [] ∧ factor = 1 ∨ (String.ofList (unit.map Char.toUpper), factor) ∈ units

theorem Measures.isPositive (measures : Measures unit factor) :
    isPositive (Float.ofNat factor).toModel.unpack = true := by
  obtain ⟨_, rfl⟩ | listed := measures
  · decide
  · exact isPositive_factor (_, factor) listed

theorem Measures.lettered (measures : Measures unit factor) : Quantity.Lettered unit := by
  obtain ⟨rfl, _⟩ | listed := measures
  · exact nofun
  · refine Quantity.lettered_of_isAlpha fun letter member => ?_
    rw [← Char.isAlpha_toUpper_eq_isAlpha]
    refine isAlpha_of_listed _ listed _ ?_
    rw [String.toList_ofList]
    exact List.mem_map_of_mem member

/-- Kilobytes, written with the kelvin sign for the letter K. -/
def Kelvin (unit : List Char) : Prop :=
  unit = ['\u212A', 'B'] ∨ unit = ['\u212A', 'b']

theorem Kelvin.lettered (kelvin : Kelvin unit) : Quantity.Lettered unit := by
  have sign : Text.isBlank '\u212A' = false ∧ Text.isNumeric '\u212A' = false :=
    ⟨rfl, Text.isNumeric_eq_false (.inr (by decide)) (.inr (.inr (by decide)))⟩
  obtain rfl | rfl := kelvin
  · exact List.forall_mem_cons.2 ⟨sign, Quantity.lettered_of_isAlpha (by simp)⟩
  · exact List.forall_mem_cons.2 ⟨sign, Quantity.lettered_of_isAlpha (by simp)⟩

theorem map_foldLetter (plain : '\u212A' ∉ unit) :
    unit.map foldLetter = unit.map Char.toUpper := by
  refine List.map_congr_left fun letter member => if_neg ?_
  rw [beq_iff_eq]
  rintro rfl
  exact plain member

/-- The kelvin sign makes a unit that passes for a listed one and is none just in kilobytes. -/
theorem kelvin_iff : Kelvin unit ↔
    factor? (unit.map Char.toUpper) = none ∧ (factor? (unit.map foldLetter)).isSome = true := by
  constructor
  · rintro (rfl | rfl) <;> exact ⟨rfl, rfl⟩
  · rintro ⟨unlisted, folded⟩
    obtain ⟨factor, listed⟩ := Option.isSome_iff_exists.1 folded
    have sign : '\u212A' ∈ unit := by
      by_contra plain
      rw [map_foldLetter plain, unlisted] at listed
      cases listed
    -- the sign counts as a K, and of the listed units only kilobytes have one, in front
    have name := kilobytes_of_listed _ (factor?_eq_some_iff.1 listed)
      (by rw [String.toList_ofList]; exact List.mem_map.2 ⟨_, sign, rfl⟩)
    rw [String.toList_ofList] at name
    obtain ⟨first, rest, rfl, _, name⟩ := List.map_eq_cons_iff.1 name
    obtain ⟨second, rest, rfl, isB, name⟩ := List.map_eq_cons_iff.1 name
    obtain rfl := List.map_eq_nil_iff.1 name
    unfold foldLetter at isB
    split at isB
    · cases isB
    · rename_i other
      rw [beq_iff_eq] at other
      obtain rfl : '\u212A' = first := by
        simpa [Ne.symm other] using sign
      have cases := eq_toUpper_or_eq_toLower second
      rw [isB] at cases
      obtain rfl | rfl := cases
      · exact .inl rfl
      · exact .inr rfl

end Units

section Resolving

variable {value : Value} {unit : List Char} {quantity : Quantity} {factor : Nat} {fault : Fault}

theorem unitFactor_of_measures (measures : Measures unit factor) :
    unitFactor value unit = .ok factor := by
  obtain ⟨rfl, rfl⟩ | listed := measures
  · rfl
  · have some : unit ≠ [] := by
      rintro rfl
      simp [units] at listed
    unfold unitFactor
    rw [if_neg (mt List.isEmpty_iff.1 some)]
    dsimp only
    rw [factor?_eq_some_iff.2 listed]

theorem unitFactor_of_kelvin (kelvin : Kelvin unit) :
    unitFactor value unit = .error (.unlistedSizeUnit "\u212AB") := by
  obtain rfl | rfl := kelvin <;> rfl

theorem unitFactor_of_unknown (unmeasured : ∀ factor, ¬ Measures unit factor)
    (plain : ¬ Kelvin unit) : unitFactor value unit = .error (.invalidSize value) := by
  have some : unit ≠ [] := by
    rintro rfl
    exact unmeasured 1 (.inl ⟨rfl, rfl⟩)
  have unlisted : factor? (unit.map Char.toUpper) = none :=
    Option.eq_none_iff_forall_ne_some.2 fun factor listed =>
      unmeasured factor (.inr (factor?_eq_some_iff.1 listed))
  have unfolded : ¬ (factor? (unit.map foldLetter)).isSome = true := fun folded =>
    plain (kelvin_iff.2 ⟨unlisted, folded⟩)
  unfold unitFactor
  rw [if_neg (mt List.isEmpty_iff.1 some)]
  dsimp only
  rw [unlisted]
  exact if_neg unfolded

theorem isUnsigned_bytes (measures : Measures quantity.unit factor) :
    IsUnsigned (quantity.number * Float.ofNat factor) :=
  (isUnsigned_ofScientific _ _).mul measures.isPositive

theorem ofQuantity_of_measures (measures : Measures quantity.unit factor) :
    ofQuantity value quantity =
      (truncate? (quantity.number * Float.ofNat factor)).elim (.error .overflow) .ok := by
  unfold ofQuantity
  rw [unitFactor_of_measures measures]
  dsimp only [Bind.bind, Except.bind]
  cases truncate? (quantity.number * Float.ofNat factor) <;> rfl

/-- A quantity that is written as a size and cannot be resolved. -/
inductive Unresolvable (quantity : Quantity) : Fault → Prop
  /-- The unit is kilobytes, written with the kelvin sign. -/
  | unlisted (kelvin : Kelvin quantity.unit) :
      Unresolvable quantity (.unlistedSizeUnit "\u212AB")
  /-- The number of bytes is no finite double. -/
  | tooLarge {factor : Nat} (measures : Measures quantity.unit factor)
      (infinite : (quantity.number * Float.ofNat factor).isInf = true) :
      Unresolvable quantity .overflow

namespace Unresolvable

theorem lettered (unresolvable : Unresolvable quantity fault) :
    Quantity.Lettered quantity.unit := by
  cases unresolvable with
  | unlisted kelvin => exact kelvin.lettered
  | tooLarge measures => exact measures.lettered

theorem kind (unresolvable : Unresolvable quantity fault) :
    fault.kind = .lookup ∨ fault.kind = .overflow := by
  cases unresolvable with
  | unlisted => exact .inl rfl
  | tooLarge => exact .inr rfl

theorem ofQuantity (unresolvable : Unresolvable quantity fault) :
    ofQuantity value quantity = .error fault := by
  cases unresolvable with
  | unlisted kelvin =>
      unfold DataSize.ofQuantity
      rw [unitFactor_of_kelvin kelvin]
      rfl
  | tooLarge measures infinite =>
      rw [ofQuantity_of_measures measures,
        (isUnsigned_bytes measures).truncate?_eq_none_iff.2 infinite]
      rfl

end Unresolvable

/-- A quantity resolves to the whole part of its bytes, or cannot be resolved, or is refused. -/
theorem ofQuantity_cases (value : Value) (quantity : Quantity) :
    (∃ factor bytes, Measures quantity.unit factor ∧
      truncate? (quantity.number * Float.ofNat factor) = some bytes ∧
      ofQuantity value quantity = .ok bytes) ∨
    (∃ fault, Unresolvable quantity fault) ∨
    ofQuantity value quantity = .error (.invalidSize value) := by
  by_cases measured : ∃ factor, Measures quantity.unit factor
  · obtain ⟨factor, measures⟩ := measured
    cases cut : truncate? (quantity.number * Float.ofNat factor) with
    | some bytes =>
        refine .inl ⟨factor, bytes, measures, cut, ?_⟩
        rw [ofQuantity_of_measures measures, cut]
        rfl
    | none =>
        have infinite := (isUnsigned_bytes measures).truncate?_eq_none_iff.1 cut
        exact .inr (.inl ⟨_, .tooLarge measures infinite⟩)
  · by_cases kelvin : Kelvin quantity.unit
    · exact .inr (.inl ⟨_, .unlisted kelvin⟩)
    · unfold ofQuantity
      rw [unitFactor_of_unknown (not_exists.1 measured) kelvin]
      exact .inr (.inr rfl)

theorem ofQuantity_error_iff :
    (ofQuantity value quantity = .error fault ∧ fault.kind ≠ .value) ↔
      Unresolvable quantity fault := by
  constructor
  · rintro ⟨failed, kind⟩
    obtain ⟨_, _, _, _, resolved⟩ | ⟨other, unresolvable⟩ | refused :=
      ofQuantity_cases value quantity
    · cases failed.symm.trans resolved
    · cases failed.symm.trans unresolvable.ofQuantity
      exact unresolvable
    · cases failed.symm.trans refused
      exact absurd rfl kind
  · intro unresolvable
    refine ⟨unresolvable.ofQuantity, fun isValue => ?_⟩
    obtain kind | kind := unresolvable.kind
    · cases isValue.symm.trans kind
    · cases isValue.symm.trans kind

theorem parse_text (text : String) : parse (.text text) =
    (Quantity.read? text.toList).elim (.error (.invalidSize (.text text)))
      (ofQuantity (.text text)) := by
  unfold parse
  dsimp only [Value.display]
  cases Quantity.read? text.toList <;> rfl

/-- A text fails to be read as a size, other than by being refused as a value, just if a
quantity is written there that cannot be resolved. -/
theorem parse_text_error_iff {text : String} :
    (parse (.text text) = .error fault ∧ fault.kind ≠ .value) ↔
      ∃ quantity : Quantity, quantity.Written text.toList ∧ Unresolvable quantity fault := by
  rw [parse_text]
  constructor
  · rintro ⟨failed, kind⟩
    cases read : Quantity.read? text.toList with
    | some quantity =>
        rw [read] at failed
        exact ⟨quantity, Quantity.written_of_read read, ofQuantity_error_iff.1 ⟨failed, kind⟩⟩
    | none =>
        rw [read] at failed
        cases failed
        exact absurd rfl kind
  · rintro ⟨quantity, written, unresolvable⟩
    rw [written.read unresolvable.lettered]
    exact ofQuantity_error_iff.2 unresolvable

theorem ofQuantity_nonneg {bytes : Int} (resolved : ofQuantity value quantity = .ok bytes) :
    0 ≤ bytes := by
  obtain ⟨factor, found, measures, cut, same⟩ | ⟨fault, unresolvable⟩ | refused :=
    ofQuantity_cases value quantity
  · cases same.symm.trans resolved
    exact (isUnsigned_bytes measures).truncate?_nonneg cut
  · cases unresolvable.ofQuantity.symm.trans resolved
  · cases refused.symm.trans resolved

/-- A size is never less than zero. -/
theorem parse_nonneg {bytes : Int} (read : parse value = .ok bytes) : 0 ≤ bytes := by
  unfold parse at read
  split at read
  · cases read
  · split at read
    · cases read
    · cases read
      omega
  · split at read
    · exact ofQuantity_nonneg read
    · cases read

end Resolving

end ItemBinning.DataSize
