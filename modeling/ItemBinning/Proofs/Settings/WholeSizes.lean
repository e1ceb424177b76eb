import ItemBinning.Proofs.Decimal.WholeDoubles
import ItemBinning.Proofs.Settings.Checking

/-!
# Whole sizes

The number of a written size is read as a double.  So a whole count of units is read as the
nearest count that a double holds, which is the count itself just if it has at most 53 binary
digits and zeros behind them; beyond the range of doubles the size is too large.  Counts that a
double holds are read the same in every form, and so are compared the same.
-/

namespace ItemBinning

namespace Text

theorem decimalDigit?_of_isDigit {digit : Char} (isDigit : digit.isDigit = true) :
    decimalDigit? digit = some (digit.toNat - '0'.toNat) := by
  have range : 0x30 ≤ digit.toNat ∧ digit.toNat < 0x30 + 10 := by
    simp only [Char.isDigit, Bool.and_eq_true, decide_eq_true_eq, UInt32.le_iff_toNat_le] at isDigit
    change 48 ≤ digit.toNat ∧ digit.toNat ≤ 57 at isDigit
    omega
  unfold decimalDigit? decimalZeros
  rw [List.findSome?_cons, if_pos range]
  rfl

end Text

namespace Decimal

open Text

theorem isDecimalDigit_of_mem_digitsOf {number : Nat} :
    ∀ digit ∈ digitsOf number, isDecimalDigit digit = true := by
  intro digit member
  have isDigit := Nat.isDigit_of_mem_toDigits (by decide) (by decide) member
  unfold isDecimalDigit
  rw [decimalDigit?_of_isDigit isDigit]
  rfl

/-- The text of a number denotes it. -/
theorem digitsValue_digitsOf (number : Nat) : digitsValue (digitsOf number) = number := by
  have same : digitsValue (digitsOf number) = Nat.ofDigitChars 10 (digitsOf number) 0 := by
    refine List.foldl_ext _ _ 0 fun value digit member => ?_
    have isDigit := Nat.isDigit_of_mem_toDigits (by decide) (by decide) member
    unfold digitValue
    rw [decimalDigit?_of_isDigit isDigit]
    rfl
  exact same.trans Nat.ofDigitChars_ten_toDigits

end Decimal

namespace Quantity

open Text Decimal

/-- So many of a unit, written without a point. -/
def counted (count : Nat) (unit : List Char) : Quantity where
  whole := digitsOf count
  fraction := []
  unit := unit

theorem written_counted (count : Nat) (unit : List Char) {between : List Char}
    (blank : ∀ letter ∈ between, isBlank letter = true) :
    (counted count unit).Written (digitsOf count ++ (between ++ unit)) where
  whole_ne_nil := Nat.toDigits_ne_nil
  whole := isDecimalDigit_of_mem_digitsOf
  fraction := nofun
  spaced := ⟨[], between, [], by simpa using blank, by simp [counted, pointed]⟩

theorem number_counted (count : Nat) (unit : List Char) :
    (counted count unit).number = ofScientific count 0 := by
  unfold number counted
  dsimp only
  rw [List.append_nil, digitsValue_digitsOf]
  rfl

end Quantity

namespace DataSize

open Decimal

/-- A whole count of a unit, as it is written. -/
def wholeText (count : Nat) (unit : String) : String :=
  integerText count ++ " " ++ unit

/-- The answer for a number of bytes that a double holds, if it is in the range. -/
def held (bytes : Nat) : Except Fault Int :=
  if bytes < limit then .ok bytes else .error .overflow

theorem held_eq_ok_iff {bytes wanted : Nat} :
    held bytes = .ok (wanted : Int) ↔ bytes = wanted ∧ bytes < limit := by
  unfold held
  split
  · rename_i inRange
    rw [Except.ok.injEq, Int.natCast_inj]
    exact ⟨fun same => ⟨same, inRange⟩, And.left⟩
  · rename_i beyond
    exact ⟨nofun, fun given => absurd given.2 beyond⟩

section Units

variable {unit : List Char} {name : String} {count factor : Nat}

theorem upper_of_listed :
    ∀ entry ∈ units, String.ofList (entry.1.toList.map Char.toUpper) = entry.1 := by
  decide

theorem two_pow_of_listed : ∀ entry ∈ units, ∃ zeros ≤ 40, entry.2 = 2 ^ zeros := by
  intro entry listed
  simp only [units, List.mem_cons, List.not_mem_nil, or_false] at listed
  obtain rfl | rfl | rfl | rfl | rfl := listed
  · exact ⟨0, by decide, rfl⟩
  · exact ⟨10, by decide, rfl⟩
  · exact ⟨20, by decide, rfl⟩
  · exact ⟨30, by decide, rfl⟩
  · exact ⟨40, by decide, rfl⟩

namespace Measures

theorem of_listed (listed : (name, factor) ∈ units) : Measures name.toList factor :=
  .inr ((upper_of_listed _ listed).symm ▸ listed)

theorem two_pow (measures : Measures unit factor) : ∃ zeros ≤ 40, factor = 2 ^ zeros := by
  obtain ⟨_, rfl⟩ | listed := measures
  · exact ⟨0, by decide, rfl⟩
  · exact two_pow_of_listed _ listed

theorem isWhole (measures : Measures unit factor) :
    IsWhole (Float.ofNat factor).toModel.unpack factor := by
  obtain ⟨zeros, few, rfl⟩ := measures.two_pow
  have positive := Nat.two_pow_pos zeros
  have inRange : 2 ^ zeros < limit := Nat.pow_lt_pow_right (by decide) (by unfold mostDigits; omega)
  exact isWhole_ofNat positive.ne' inRange ⟨1, zeros, by decide, (Nat.one_mul _).symm⟩

/-- A unit puts zeros behind the digits of a count. -/
theorem representable_iff (measures : Measures unit factor) :
    Representable (count * factor) ↔ Representable count := by
  obtain ⟨zeros, _, rfl⟩ := measures.two_pow
  exact representable_mul_two_pow_iff

theorem lt_limit (measures : Measures unit factor) (few : count ≤ 2 ^ 53) :
    count * factor < limit := by
  obtain ⟨zeros, le, rfl⟩ := measures.two_pow
  calc count * 2 ^ zeros ≤ 2 ^ 53 * 2 ^ zeros := Nat.mul_le_mul_right _ few
    _ = 2 ^ (53 + zeros) := (pow_add 2 53 zeros).symm
    _ < limit := Nat.pow_lt_pow_right (by decide) (by unfold mostDigits; omega)

end Measures

/-- A whole count of a unit is read as the nearest count that a double holds. -/
theorem parse_counted (measures : Measures unit factor) {text : String} {between : List Char}
    (blank : ∀ letter ∈ between, Text.isBlank letter = true)
    (written : text.toList = digitsOf count ++ (between ++ unit)) :
    parse (.text text) = held (nearest count * factor) := by
  have read : Quantity.read? text.toList = some (.counted count unit) := by
    rw [written]
    exact (Quantity.written_counted count unit blank).read measures.lettered
  have stands := (standsFor_ofScientific count).mul measures.isWhole
  rw [nearest_eq_self_iff.2 (measures.representable_iff.2 (representable_nearest count))] at stands
  have cut : truncate? (ofScientific count 0 * Float.ofNat factor) =
      if nearest count * factor < limit then some ((nearest count * factor : Nat) : Int)
      else none :=
    truncate?_of_standsFor stands
  have measured : Measures (Quantity.counted count unit).unit factor := measures
  rw [parse_text, read]
  change ofQuantity _ _ = _
  rw [ofQuantity_of_measures measured, Quantity.number_counted, cut]
  unfold held
  split <;> rfl

theorem parse_wholeText (listed : (name, factor) ∈ units) (count : Nat) :
    parse (.text (wholeText count name)) = held (nearest count * factor) := by
  have blank : ∀ letter ∈ [' '], Text.isBlank letter = true := List.forall_mem_singleton.2 rfl
  refine parse_counted (.of_listed listed) blank ?_
  unfold wholeText
  rw [String.toList_append, String.toList_append, List.append_assoc]
  exact congrArg (· ++ ([' '] ++ name.toList)) String.toList_ofList

theorem parse_integerText (count : Nat) :
    parse (.text (integerText count)) = held (nearest count) := by
  have noUnit : Measures [] 1 := .inl ⟨rfl, rfl⟩
  have noBlank : ∀ letter ∈ [], Text.isBlank letter = true := nofun
  rw [← Nat.mul_one (nearest count)]
  exact parse_counted noUnit noBlank (String.toList_ofList.trans (List.append_nil _).symm)

theorem parse_int (bytes : Nat) : parse (.int bytes) = .ok (bytes : Int) := by
  unfold parse
  exact if_neg (Int.not_lt.2 (Int.natCast_nonneg bytes))

/-- The nearest count is the count itself just if a double holds it. -/
theorem held_nearest_eq_ok_iff (positive : 0 < factor) :
    held (nearest count * factor) = .ok ((count * factor : Nat) : Int) ↔
      Representable count ∧ count * factor < limit := by
  rw [held_eq_ok_iff, Nat.mul_left_inj positive.ne', nearest_eq_self_iff]
  refine and_congr_right fun representable => ?_
  rw [nearest_eq_self_iff.2 representable]

theorem parse_wholeText_eq_ok_iff (listed : (name, factor) ∈ units) (count : Nat) :
    parse (.text (wholeText count name)) = .ok ((count * factor : Nat) : Int) ↔
      Representable count ∧ count * factor < limit := by
  obtain ⟨zeros, _, rfl⟩ := (Measures.of_listed listed).two_pow
  rw [parse_wholeText listed]
  exact held_nearest_eq_ok_iff (Nat.two_pow_pos zeros)

theorem parse_integerText_eq_ok_iff (bytes : Nat) :
    parse (.text (integerText bytes)) = .ok (bytes : Int) ↔
      Representable bytes ∧ bytes < limit := by
  have exact_iff := @held_nearest_eq_ok_iff bytes 1 Nat.one_pos
  rw [Nat.mul_one, Nat.mul_one] at exact_iff
  rw [parse_integerText]
  exact exact_iff

end Units

end DataSize

namespace SizeSetting

open Decimal DataSize

/-- A whole number of bytes, written in a form in which it is read exactly. -/
inductive Exact : SizeSetting → Nat → Prop
  | number (bytes : Nat) : Exact (.bytes bytes) bytes
  | text {bytes : Nat} (representable : Representable bytes) (inRange : bytes < limit) :
      Exact (.written (integerText bytes)) bytes
  | withUnit {name : String} {count factor : Nat} (listed : (name, factor) ∈ units)
      (representable : Representable count) (inRange : count * factor < limit) :
      Exact (.written (wholeText count name)) (count * factor)

theorem Exact.parse {setting : SizeSetting} {bytes : Nat} (exact : setting.Exact bytes) :
    DataSize.parse setting.value = .ok (bytes : Int) := by
  cases exact with
  | number => exact parse_int bytes
  | text representable inRange =>
      exact (parse_integerText_eq_ok_iff bytes).2 ⟨representable, inRange⟩
  | withUnit listed representable inRange =>
      exact (parse_wholeText_eq_ok_iff listed _).2 ⟨representable, inRange⟩

end SizeSetting

namespace Configuration

/-- The report of a greatest size that is below the least one. -/
def orderProblem (greatest : SizeSetting) : Problem where
  subject := "max_size"
  input := some greatest.value.display
  explanation := "max_size cannot be smaller than min_size"

variable [Host] {config : Configuration} {setting : SizeSetting} {least greatest : Int}
  {reports : List Problem} {report : Problem}

/-- What is reported about a value, if anything is. -/
theorem mem_reports_iff {subject explanation : String} {input : Value} {condition : Prop}
    [Decidable condition]
    (run : reportIf condition (problem subject input explanation) = .ok reports) :
    report ∈ reports ↔
      condition ∧ report = { subject, input := some input.display, explanation } := by
  unfold reportIf problem Value.write at run
  split at run
  · rename_i holds
    split at run <;> cases run
    rw [and_iff_right holds, List.mem_singleton]
  · rename_i fails
    cases run
    exact ⟨nofun, fun both => absurd both.1 fails⟩

theorem mem_sizeOrderProblems_iff (isSet : config.maxSize = some setting)
    (run : config.sizeOrderProblems (some least) (some greatest) = .ok reports) :
    orderProblem setting ∈ reports ↔ greatest < least := by
  unfold sizeOrderProblems at run
  rw [isSet] at run
  exact (mem_reports_iff run).trans (and_iff_left rfl)

theorem subject_of_mem_entryProblems (run : config.entryProblems = .ok reports)
    (member : report ∈ reports) :
    report.subject = "min_entries" ∨ report.subject = "max_entries" := by
  obtain ⟨few, isFew, run⟩ := bind_ok run
  obtain ⟨most, isMost, run⟩ := bind_ok run
  cases run
  obtain member | member := List.mem_append.1 member
  · obtain ⟨_, rfl⟩ := (mem_reports_iff isFew).1 member
    exact .inl rfl
  · unfold maxEntriesProblems at isMost
    split at isMost
    · cases isMost
      cases member
    · obtain ⟨positive, isPositive, isMost⟩ := bind_ok isMost
      obtain ⟨ordered, isOrdered, isMost⟩ := bind_ok isMost
      cases isMost
      obtain member | member := List.mem_append.1 member
      · obtain ⟨_, rfl⟩ := (mem_reports_iff isPositive).1 member
        exact .inr rfl
      · obtain ⟨_, rfl⟩ := (mem_reports_iff isOrdered).1 member
        exact .inr rfl

theorem subject_of_mem_countProblems (run : config.countProblems = .ok reports)
    (member : report ∈ reports) : report.subject = "max_bin_count" := by
  obtain ⟨_, rfl⟩ := (mem_reports_iff run).1 member
  rfl

theorem subject_of_mem_ageProblems (run : config.ageProblems = .ok reports)
    (member : report ∈ reports) : report.subject = "max_bin_age" := by
  unfold ageProblems at run
  split at run
  · cases run
    cases member
  · obtain ⟨⟨age, found⟩, read, run⟩ := bind_ok run
    dsimp only at run
    split at run
    · cases run
      rw [problem_age] at read
      unfold reading at read
      split at read
      · cases read
      · split at read
        · cases read
          exact List.mem_singleton.1 member ▸ rfl
        · cases read
    · obtain ⟨_, rfl⟩ := (mem_reports_iff run).1 member
      rfl

/-- Where both sizes are read and no value is too long to be reported, the greatest size is
reported to be too small just if it is. -/
theorem orderProblem_mem_iff (isSet : config.maxSize = some setting)
    (readLeast : DataSize.parse config.minSize.value = .ok least)
    (readGreatest : DataSize.parse setting.value = .ok greatest) :
    (config.Unreported → config.problems = .error .unwritableInteger) ∧
      (¬ config.Unreported → ∃ problems, config.problems = .ok problems ∧
        (orderProblem setting ∈ problems ↔ greatest < least)) := by
  have leastRead : readSize "min_size" config.minSize = .ok (some least, []) :=
    reading_eq_ok_iff.2 ⟨least, readLeast, rfl⟩
  have greatestRead : readMaxSize config.maxSize = .ok (some greatest, []) := by
    rw [isSet]
    exact reading_eq_ok_iff.2 ⟨greatest, readGreatest, rfl⟩
  have failsFor := failsFor_problems leastRead greatestRead
  refine ⟨fun unreported => (failsFor _).2 ⟨unreported, rfl⟩, fun reported => ?_⟩
  cases found : config.problems with
  | error fault => exact absurd ((failsFor fault).1 found).1 reported
  | ok all =>
      refine ⟨all, rfl, ?_⟩
      obtain ⟨_, read, found⟩ := bind_ok found
      cases leastRead.symm.trans read
      obtain ⟨_, read, found⟩ := bind_ok found
      cases greatestRead.symm.trans read
      obtain ⟨ordered, isOrdered, found⟩ := bind_ok found
      obtain ⟨numbered, isNumbered, found⟩ := bind_ok found
      obtain ⟨counted, isCounted, found⟩ := bind_ok found
      obtain ⟨aged, isAged, found⟩ := bind_ok found
      cases found
      -- every other report is about another setting
      have named : (orderProblem setting).subject = "max_size" := rfl
      have notEntries : orderProblem setting ∉ numbered := fun member => by
        obtain subject | subject := subject_of_mem_entryProblems isNumbered member
        · exact absurd (named.symm.trans subject) (by decide)
        · exact absurd (named.symm.trans subject) (by decide)
      have notCount : orderProblem setting ∉ counted := fun member =>
        absurd (named.symm.trans (subject_of_mem_countProblems isCounted member)) (by decide)
      have notAge : orderProblem setting ∉ aged := fun member =>
        absurd (named.symm.trans (subject_of_mem_ageProblems isAged member)) (by decide)
      simp only [List.mem_append, List.not_mem_nil, notEntries, notCount, notAge, false_or,
        or_false, mem_sizeOrderProblems_iff isSet isOrdered]

/-- Every report can be written where the counts are in range and the greatest size is not too
long. -/
theorem not_unreported (minEntries : 0 < config.minEntries)
    (maxEntries : ∀ most, config.maxEntries = some most → 0 < most ∧ config.minEntries ≤ most)
    (maxBinCount : 0 < config.maxBinCount)
    (maxSize : ∀ most, config.maxSize = some (.bytes most) → ¬ Decimal.TooLong most) :
    ¬ config.Unreported := by
  intro unreported
  cases unreported with
  | maxSize _ isSet _ _ long => exact maxSize _ isSet long
  | minEntries notPositive => omega
  | maxEntries isSet small =>
      have := maxEntries _ isSet
      omega
  | maxBinCount notPositive => omega

end Configuration

namespace DataSize

open Decimal

/-- A whole count of a unit is read as the bytes of the nearest count that a double holds, or is
too large for a double.  It is read exactly just if a double holds it and its bytes are in the
range, as they are up to a count of `2 ^ 53`.  In the same way a text without a unit is read as
the number is, which is always exact.  Sizes in forms in which they are read exactly are compared
as the numbers are, whatever the forms, unless a value is too long to be reported. -/
theorem whole_sizes_exact_iff [Host] {name : String} {factor : Nat}
    (listed : (name, factor) ∈ units) (count : Nat) :
    let withUnit : Value := .text (wholeText count name)
    let plain : Value := .text (integerText count)
    let number : Value := .int count
    (parse withUnit = held (nearest count * factor) ∧
      (parse withUnit = .ok ((count * factor : Nat) : Int) ↔
        Representable count ∧ count * factor < limit) ∧
      (count ≤ 2 ^ 53 → parse withUnit = .ok ((count * factor : Nat) : Int))) ∧
    (parse number = .ok (count : Int) ∧ parse plain = held (nearest count) ∧
      (parse plain = parse number ↔ Representable count ∧ count < limit)) ∧
    ∀ (config : Configuration) (setting : SizeSetting) (least greatest : Nat),
      config.maxSize = some setting → config.minSize.Exact least → setting.Exact greatest →
        (config.Unreported → config.problems = .error .unwritableInteger) ∧
        (¬ config.Unreported → ∃ problems, config.problems = .ok problems ∧
          (Configuration.orderProblem setting ∈ problems ↔ greatest < least)) := by
  intro withUnit plain number
  refine ⟨?_, ?_, fun config setting least greatest isSet minExact maxExact => ?_⟩
  · have measures : Measures name.toList factor := .of_listed listed
    have exact_iff := parse_wholeText_eq_ok_iff listed count
    refine ⟨parse_wholeText listed count, exact_iff, fun few => exact_iff.2 ?_⟩
    exact ⟨representable_of_le few, measures.lt_limit few⟩
  · have same : parse number = .ok (count : Int) := parse_int count
    refine ⟨same, parse_integerText count, ?_⟩
    rw [same]
    exact parse_integerText_eq_ok_iff count
  · have reported := Configuration.orderProblem_mem_iff isSet minExact.parse maxExact.parse
    rwa [Int.ofNat_lt] at reported

/-- The first even number behind `2 ^ 53` is read exactly, also as a count of terabytes, and as a
greatest size it is not below the least one, whichever of the two is a text.  A number of more
digits than the host allows is too small as well, but not reported. -/
theorem whole_sizes_exact_of_even :
    letI : Host := .customary
    let number : SizeSetting := .bytes 9007199254740994
    let text : SizeSetting := .written "9007199254740994"
    let config : Configuration := { minSize := number, maxSize := some text }
    let swapped : Configuration := { minSize := text, maxSize := some number }
    let long (digits : Nat) : Configuration := {
      minSize := .bytes (10 ^ (digits + 1) : Nat), maxSize := some (.bytes (10 ^ digits : Nat)) }
    parse (.text "9007199254740994 TB") = .ok (9007199254740994 * 1099511627776) ∧
      parse text.value = parse number.value ∧
      (∃ problems, config.problems = .ok problems ∧ Configuration.orderProblem text ∉ problems) ∧
      (∃ problems, swapped.problems = .ok problems ∧
        Configuration.orderProblem number ∉ problems) ∧
      ∀ digits, 4300 ≤ digits → (long digits).problems = .error .unwritableInteger := by
  let _ : Host := .customary
  intro number text config swapped long
  have representable : Representable 9007199254740994 := ⟨4503599627370497, 1, by decide, rfl⟩
  have inRange : 9007199254740994 * 1099511627776 < limit := by
    calc 9007199254740994 * 1099511627776 < 2 ^ 100 := by decide
      _ < limit := Nat.pow_lt_pow_right (by decide) (by decide)
  have inRange' : 9007199254740994 < limit := Nat.lt_of_le_of_lt (by decide) inRange
  have number' : number.Exact 9007199254740994 := .number _
  have text' : text.Exact 9007199254740994 := .text representable inRange'
  have listed : ("TB", 1099511627776) ∈ units := by decide
  have short : ¬ TooLong 9007199254740994 := by
    rintro ⟨most, isMost, long⟩
    have many : 100 ≤ most := Option.some.inj isMost ▸ by decide
    refine Nat.not_lt.2 long ?_
    calc 9007199254740994 < 10 ^ 100 := by decide
      _ ≤ 10 ^ most := Nat.pow_le_pow_right (by decide) many
  have below (digits : Nat) : 10 ^ digits < 10 ^ (digits + 1) :=
    Nat.pow_lt_pow_right (by decide) (Nat.lt_succ_self digits)
  have counts (most : Int) : some 1000 = some most → 0 < most ∧ 1 ≤ most := by
    rintro ⟨⟩
    decide
  obtain ⟨⟨_, counted, _⟩, ⟨_, _, agree⟩, compared⟩ := whole_sizes_exact_iff listed 9007199254740994
  refine ⟨?_, ?_, ?_, ?_, fun digits many => ?_⟩
  · exact counted.2 ⟨representable, inRange⟩
  · exact agree.2 ⟨representable, inRange'⟩
  · have noNumber (most : Int) (isSet : some text = some (.bytes most)) : ¬ TooLong most :=
      SizeSetting.noConfusion (Option.some.inj isSet)
    have reported : ¬ config.Unreported :=
      Configuration.not_unreported (by decide) counts (by decide) noNumber
    obtain ⟨problems, found, same⟩ := (compared config text _ _ rfl number' text').2 reported
    exact ⟨problems, found, fun member => Nat.lt_irrefl _ (same.1 member)⟩
  · have shortNumber (most : Int) (isSet : some number = some (.bytes most)) : ¬ TooLong most :=
      SizeSetting.bytes.inj (Option.some.inj isSet) ▸ short
    have reported : ¬ swapped.Unreported :=
      Configuration.not_unreported (by decide) counts (by decide) shortNumber
    obtain ⟨problems, found, same⟩ := (compared swapped number _ _ rfl text' number').2 reported
    exact ⟨problems, found, fun member => Nat.lt_irrefl _ (same.1 member)⟩
  · have tooLong {most : Nat} (isMost : Host.digitLimit = some most) (many : most ≤ digits) :
        TooLong (10 ^ digits : Nat) :=
      ⟨most, isMost, (Int.natAbs_natCast _).symm ▸ Nat.pow_le_pow_right (by decide) many⟩
    exact (compared (long digits) _ _ _ rfl (.number _) (.number _)).1 (.maxSize (parse_int _) rfl
      (Int.natCast_nonneg _) (Int.ofNat_lt.2 (below digits)) (tooLong rfl many))

/-- The number behind `2 ^ 53` is read as `2 ^ 53` from a text, with a unit or without, and as
itself where it is no text.  As a greatest size it is reported to be below itself. -/
theorem odd_size_not_exact :
    letI : Host := .customary
    let number : SizeSetting := .bytes 9007199254740993
    let text : SizeSetting := .written "9007199254740993"
    let mixed : Configuration := { minSize := number, maxSize := some text }
    let plain : Configuration := { minSize := number, maxSize := some number }
    parse (.text "9007199254740993 B") = .ok 9007199254740992 ∧
      parse text.value = .ok 9007199254740992 ∧ parse number.value = .ok 9007199254740993 ∧
      mixed.problems = .ok [Configuration.orderProblem text] ∧ plain.problems = .ok [] := by
  exact ⟨rfl, rfl, rfl, rfl, rfl⟩

end DataSize

end ItemBinning
