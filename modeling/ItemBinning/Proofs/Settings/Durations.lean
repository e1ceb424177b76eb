import ItemBinning.Proofs.Settings.Checking
import ItemBinning.Proofs.Settings.Numbers

/-!
# Which durations are read

A text is read as a duration just if a quantity is spelt there, with a word for its unit or
none, and the word is listed in some case.  At most one quantity is spelt in a text, so blanks
and the case of the unit make no difference.  Any other text is refused as a value: for its
unit if a quantity is spelt there, and for its form if not.
-/

namespace ItemBinning

namespace Quantity

variable {quantity other : Quantity} {text : String}

/-- The quantity is written in the text, and its unit is a word, or there is none. -/
structure Spelt (quantity : Quantity) (text : String) : Prop where
  written : quantity.Written text.toList
  word : ∀ letter ∈ quantity.unit, letter.isAlpha = true

theorem Spelt.read (spelt : quantity.Spelt text) : read? text.toList = some quantity :=
  spelt.written.read (lettered_of_isAlpha spelt.word)

/-- A text spells one quantity at most. -/
theorem Spelt.unique (first : quantity.Spelt text) (second : other.Spelt text) :
    quantity = other :=
  Option.some.inj (first.read.symm.trans second.read)

end Quantity

namespace Duration

open Decimal

section Units

theorem nodup_units : (units.map Prod.fst).Nodup := by
  decide

theorem isAlpha_of_listed :
    ∀ entry ∈ units, ∀ letter ∈ entry.1.toList, letter.isAlpha = true := by
  simp [units]

theorem isPositive_factor : ∀ entry ∈ units, isPositive entry.2.toModel.unpack = true := by
  decide

variable {unit other : List Char} {factor factor' : Float}

/-- A written unit stands for so many seconds: it is listed, in any case, or there is none. -/
def Measures (unit : List Char) (factor : Float) : Prop :=
  unit = [] ∧ factor = 1.0 ∨ (String.ofList (unit.map Char.toLower), factor) ∈ units

theorem factor?_eq_some_iff : factor? unit = some factor ↔ Measures unit factor := by
  unfold factor? Measures
  cases unit with
  | nil =>
      refine ⟨?_, ?_⟩
      · rintro ⟨⟩
        exact .inl ⟨rfl, rfl⟩
      · rintro (⟨_, rfl⟩ | listed)
        · rfl
        · simp [units] at listed
  | cons first rest =>
      rw [if_neg (by simp), Table.lookup_eq_some_iff nodup_units]
      exact ⟨.inr, fun measured => measured.resolve_left (by simp)⟩

theorem Measures.unique (first : Measures unit factor) (second : Measures unit factor') :
    factor = factor' :=
  Option.some.inj ((factor?_eq_some_iff.2 first).symm.trans (factor?_eq_some_iff.2 second))

theorem Measures.isPositive (measures : Measures unit factor) :
    isPositive factor.toModel.unpack = true := by
  obtain ⟨_, rfl⟩ | listed := measures
  · decide
  · exact isPositive_factor (_, factor) listed

theorem Measures.isAlpha (measures : Measures unit factor) :
    ∀ letter ∈ unit, letter.isAlpha = true := by
  obtain ⟨rfl, _⟩ | listed := measures
  · exact nofun
  · intro letter member
    rw [← Char.isAlpha_toLower_eq_isAlpha]
    refine isAlpha_of_listed _ listed _ ?_
    rw [String.toList_ofList]
    exact List.mem_map_of_mem member

/-- The case of a unit makes no difference. -/
theorem Measures.of_case (measures : Measures unit factor)
    (same : unit.map Char.toLower = other.map Char.toLower) : Measures other factor := by
  obtain ⟨rfl, isSeconds⟩ | listed := measures
  · exact .inl ⟨by simpa using same.symm, isSeconds⟩
  · exact .inr (same ▸ listed)

end Units

section Reading

variable {value : Value} {quantity other : Quantity} {factor seconds : Float} {text : String}
  {fault : Fault}

theorem ofQuantity_of_measures (measures : Measures quantity.unit factor) :
    ofQuantity value quantity = .ok (quantity.number * factor) := by
  unfold ofQuantity
  rw [if_pos (List.all_eq_true.2 measures.isAlpha), factor?_eq_some_iff.2 measures]

/-- A text that is refused as a duration. -/
inductive Refused (text : String) : Fault → Prop
  /-- A quantity is spelt there, with a unit that is not listed. -/
  | unlisted {quantity : Quantity} (spelt : quantity.Spelt text)
      (unmeasured : ∀ factor, ¬ Measures quantity.unit factor) :
      Refused text (.unknownTimeUnit (.text text))
  /-- No quantity is spelt there. -/
  | formless (unspelt : ∀ quantity : Quantity, ¬ quantity.Spelt text) :
      Refused text (.invalidDuration (.text text))

theorem Refused.kind (refused : Refused text fault) : fault.kind = .value := by
  cases refused <;> rfl

theorem parse_of_spelt (spelt : quantity.Spelt text) :
    parse (.text text) = ofQuantity (.text text) quantity := by
  rw [parse_text, spelt.read]
  rfl

theorem parse_of_measures (spelt : quantity.Spelt text) (measures : Measures quantity.unit factor) :
    parse (.text text) = .ok (quantity.number * factor) :=
  (parse_of_spelt spelt).trans (ofQuantity_of_measures measures)

theorem Refused.parse (refused : Refused text fault) : parse (.text text) = .error fault := by
  cases refused with
  | @unlisted quantity spelt unmeasured =>
      have absent : factor? quantity.unit = none :=
        Option.eq_none_iff_forall_ne_some.2 fun factor found =>
          unmeasured factor (factor?_eq_some_iff.1 found)
      rw [parse_of_spelt spelt]
      unfold ofQuantity
      rw [if_pos (List.all_eq_true.2 spelt.word), absent]
  | formless unspelt =>
      rw [parse_text]
      cases read : Quantity.read? text.toList with
      | none => rfl
      | some quantity =>
          -- What was read is written there, so its unit would have to be no word.
          refine if_neg fun word => unspelt quantity ⟨Quantity.written_of_read read, ?_⟩
          exact List.all_eq_true.1 word

/-- A text is read as a duration or refused. -/
theorem spelt_or_refused (text : String) :
    (∃ (quantity : Quantity) (factor : Float),
      quantity.Spelt text ∧ Measures quantity.unit factor) ∨ ∃ fault, Refused text fault := by
  by_cases some : ∃ quantity : Quantity, quantity.Spelt text
  · obtain ⟨quantity, spelt⟩ := some
    by_cases measured : ∃ factor, Measures quantity.unit factor
    · obtain ⟨factor, measures⟩ := measured
      exact .inl ⟨quantity, factor, spelt, measures⟩
    · exact .inr ⟨_, .unlisted spelt (not_exists.1 measured)⟩
  · exact .inr ⟨_, .formless (not_exists.1 some)⟩

theorem parse_text_ok_iff : parse (.text text) = .ok seconds ↔
    ∃ (quantity : Quantity) (factor : Float), quantity.Spelt text ∧
      Measures quantity.unit factor ∧ seconds = quantity.number * factor := by
  constructor
  · intro resolved
    obtain ⟨quantity, factor, spelt, measures⟩ | ⟨fault, refused⟩ := spelt_or_refused text
    · cases (parse_of_measures spelt measures).symm.trans resolved
      exact ⟨quantity, factor, spelt, measures, rfl⟩
    · cases refused.parse.symm.trans resolved
  · rintro ⟨quantity, factor, spelt, measures, rfl⟩
    exact parse_of_measures spelt measures

theorem parse_text_error_iff : parse (.text text) = .error fault ↔ Refused text fault := by
  refine ⟨fun failed => ?_, Refused.parse⟩
  obtain ⟨quantity, factor, spelt, measures⟩ | ⟨other, refused⟩ := spelt_or_refused text
  · cases (parse_of_measures spelt measures).symm.trans failed
  · cases refused.parse.symm.trans failed
    exact refused

/-- Two texts that spell the same number, with units that differ in case at most, are read as
the same duration or both refused. -/
theorem parse_text_congr {text' : String} (first : quantity.Spelt text)
    (second : other.Spelt text') (whole : quantity.whole = other.whole)
    (fraction : quantity.fraction = other.fraction)
    (unit : quantity.unit.map Char.toLower = other.unit.map Char.toLower)
    (resolved : parse (.text text) = .ok seconds) : parse (.text text') = .ok seconds := by
  obtain ⟨_, factor, spelt, measures, rfl⟩ := parse_text_ok_iff.1 resolved
  obtain rfl := first.unique spelt
  have same : quantity.number = other.number := by
    unfold Quantity.number
    rw [whole, fraction]
  rw [same]
  exact parse_of_measures second (measures.of_case unit)

end Reading

/-- A text is read as a duration just if a quantity is spelt there whose unit is listed or that
has none: as the number, read from its digits as they are written, times the factor of its unit.
Any other text is refused, as a value.  A text spells one quantity at most, and neither the
blanks nor the case of the unit make a difference. -/
theorem reads_just_spelt_durations (text : String) :
    ((∃ seconds, parse (.text text) = .ok seconds) ↔
      ∃ (quantity : Quantity) (factor : Float), quantity.Spelt text ∧
        Measures quantity.unit factor) ∧
    (∀ (quantity : Quantity) (factor : Float), quantity.Spelt text →
      Measures quantity.unit factor → ∃ number,
        Numeral.decimal? Text.isDecimalDigit (String.ofList quantity.numberText) = some number ∧
          parse (.text text) = .ok (number * factor)) ∧
    (∀ fault, parse (.text text) = .error fault ↔ Refused text fault) ∧
    (∀ fault, parse (.text text) = .error fault → fault.kind = .value) ∧
    (∀ quantity other : Quantity, quantity.Spelt text → other.Spelt text → quantity = other) ∧
    ∀ (text' : String) (quantity other : Quantity) (seconds : Float), quantity.Spelt text →
      other.Spelt text' → quantity.whole = other.whole → quantity.fraction = other.fraction →
      quantity.unit.map Char.toLower = other.unit.map Char.toLower →
        (parse (.text text) = .ok seconds ↔ parse (.text text') = .ok seconds) := by
  refine ⟨⟨?_, ?_⟩, ?_, fun fault => parse_text_error_iff, fun fault failed =>
    (parse_text_error_iff.1 failed).kind, fun quantity other first second => first.unique second,
    ?_⟩
  · rintro ⟨seconds, resolved⟩
    obtain ⟨quantity, factor, spelt, measures, _⟩ := parse_text_ok_iff.1 resolved
    exact ⟨quantity, factor, spelt, measures⟩
  · rintro ⟨quantity, factor, spelt, measures⟩
    exact ⟨_, parse_of_measures spelt measures⟩
  · intro quantity factor spelt measures
    exact ⟨quantity.number, spelt.written.decimal?_numberText, parse_of_measures spelt measures⟩
  · intro text' quantity other seconds first second whole fraction unit
    exact ⟨parse_text_congr first second whole fraction unit,
      parse_text_congr second first whole.symm fraction.symm unit.symm⟩

/-- Two and a half hours, with blanks around them or none, and in any case. -/
theorem reads_spelt_hours :
    parse (.text " 2.5\tHrs\n") = .ok 9000.0 ∧ parse (.text "2.5hrs") = .ok 9000.0 := by
  have first : Quantity.Spelt ⟨['2'], ['5'], ['H', 'r', 's']⟩ " 2.5\tHrs\n" :=
    ⟨Quantity.written_of_read rfl, by simp⟩
  have second : Quantity.Spelt ⟨['2'], ['5'], ['h', 'r', 's']⟩ "2.5hrs" :=
    ⟨Quantity.written_of_read rfl, by simp⟩
  have measures : Measures ['H', 'r', 's'] 3600.0 :=
    .inr (by change ("hrs", 3600.0) ∈ units; simp [units])
  obtain ⟨_, reads, _, _, _, congr⟩ := reads_just_spelt_durations " 2.5\tHrs\n"
  obtain ⟨number, digits, resolved⟩ := reads _ 3600.0 first measures
  obtain rfl := Option.some.inj (first.written.decimal?_numberText.symm.trans digits)
  exact ⟨resolved, (congr _ _ _ 9000.0 first second rfl rfl rfl).1 resolved⟩

end Duration

end ItemBinning
