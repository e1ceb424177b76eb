import ItemBinning.Proofs.Settings.Readiness
import ItemBinning.Proofs.Settings.Sizes

/-!
# What checking a configuration answers

Checking reports every value of a wrong form and passes any other fault on.  Ages are refused
as values only, so what is passed on comes from sizes: it is the fault of the least size, or
else that of the greatest one, if a quantity is written there that cannot be resolved.  A
report shows the value that it is about; where that is an integer of too many digits, checking
ends with this fault instead.  Any other configuration is answered with its problems, and
resolves just if it has none.
-/

namespace ItemBinning

variable {fault : Fault}

namespace Duration

variable {value : Value} {quantity : Quantity}

theorem parse_text (text : String) : parse (.text text) =
    (Quantity.read? text.toList).elim (.error (.invalidDuration (.text text)))
      (ofQuantity (.text text)) := by
  have shown : (Value.text text).display = text := rfl
  unfold parse
  dsimp only
  rw [shown]
  cases Quantity.read? text.toList <;> rfl

theorem kind_of_ofQuantity_error (failed : ofQuantity value quantity = .error fault) :
    fault.kind = .value := by
  unfold ofQuantity at failed
  split at failed
  · split at failed <;> cases failed
    rfl
  · cases failed
    rfl

/-- An age is refused as a value only. -/
theorem kind_of_parse_error {setting : AgeSetting}
    (failed : parse setting.value = .error fault) : fault.kind = .value := by
  cases setting with
  | seconds number =>
      change (if number < 0 then _ else _) = _ at failed
      split at failed <;> cases failed
      rfl
  | written text =>
      rw [AgeSetting.value, parse_text] at failed
      cases read : Quantity.read? text.toList with
      | some quantity =>
          rw [read] at failed
          exact kind_of_ofQuantity_error failed
      | none =>
          rw [read] at failed
          cases failed
          rfl

end Duration

namespace Configuration

/-- The check fails just for the cause, as an integer is too long to be written. -/
def FailsFor {α : Type} (check : Except Fault α) (cause : Prop) : Prop :=
  ∀ fault, check = .error fault ↔ cause ∧ fault = .unwritableInteger

section FailsFor

variable {α β : Type} {cause further : Prop}

theorem failsFor_ok (answer : α) : FailsFor (.ok answer : Except Fault α) False :=
  fun _ => ⟨nofun, fun failed => failed.1.elim⟩

theorem FailsFor.congr {check : Except Fault α} (fails : FailsFor check cause)
    (same : cause ↔ further) : FailsFor check further :=
  fun fault => (fails fault).trans (and_congr_left' same)

theorem FailsFor.bind {check : Except Fault α} {next : α → Except Fault β}
    (fails : FailsFor check cause)
    (nextFails : ∀ answer, check = .ok answer → FailsFor (next answer) further) :
    FailsFor (check >>= next) (cause ∨ further) := by
  intro fault
  cases run : check with
  | error other =>
      obtain ⟨caused, rfl⟩ := (fails other).1 run
      exact ⟨fun failed => ⟨.inl caused, (Except.error.inj failed).symm⟩,
        fun failed => failed.2 ▸ rfl⟩
  | ok answer =>
      have uncaused : ¬ cause := fun caused => by
        cases run.symm.trans ((fails _).2 ⟨caused, rfl⟩)
      rw [or_iff_right uncaused]
      exact nextFails answer run fault

theorem FailsFor.reportIf {condition : Prop} [Decidable condition]
    {report : Except Fault Problem} (fails : FailsFor report cause) :
    FailsFor (reportIf condition report) (condition ∧ cause) := by
  unfold Configuration.reportIf
  split
  · rename_i holds
    intro fault
    rw [and_iff_right holds, ← fails fault]
    cases report with
    | error other => constructor <;> (rintro ⟨⟩; rfl)
    | ok report => exact ⟨nofun, nofun⟩
  · rename_i fails
    exact (failsFor_ok _).congr ⟨False.elim, fun caused => fails caused.1⟩

end FailsFor

theorem reading_error_iff {α : Type} {parsed : Except Fault α} {report : Except Fault Problem} :
    reading parsed report = .error fault ↔
      (parsed = .error fault ∧ fault.kind ≠ .value) ∨
        (∃ refusal, parsed = .error refusal ∧ refusal.kind = .value) ∧
          report = .error fault := by
  unfold reading
  cases parsed with
  | ok value => exact ⟨nofun, by rintro (⟨⟨⟩, _⟩ | ⟨⟨_, ⟨⟩, _⟩, _⟩)⟩
  | error other =>
      dsimp only
      split
      · rename_i kind
        constructor
        · intro failed
          refine .inr ⟨⟨other, rfl, kind⟩, ?_⟩
          cases report <;> cases failed
          rfl
        · rintro (⟨⟨⟩, different⟩ | ⟨_, rfl⟩)
          · exact absurd kind different
          · rfl
      · rename_i kind
        constructor
        · rintro ⟨⟩
          exact .inl ⟨rfl, kind⟩
        · rintro (⟨⟨⟩, _⟩ | ⟨⟨_, ⟨⟩, isValue⟩, _⟩)
          · rfl
          · exact absurd isValue kind

/-- What reading leaves of a setting is the value of it, if it has one. -/
theorem eq_toOption_of_reading {α : Type} {parsed : Except Fault α}
    {report : Except Fault Problem} {read : Option α} {reports : List Problem}
    (run : reading parsed report = .ok (read, reports)) : read = parsed.toOption := by
  unfold reading at run
  cases parsed with
  | ok value =>
      cases run
      rfl
  | error other =>
      dsimp only at run
      split at run
      · cases report <;> cases run
        rfl
      · cases run

end Configuration

section Limited

variable [Host]

/-- The integer has more digits than the host allows. -/
def Decimal.TooLong (number : Int) : Prop :=
  ∃ limit, Host.digitLimit = some limit ∧ 10 ^ limit ≤ number.natAbs

theorem Decimal.tooLong_iff {number : Int} : TooLong number ↔ isWritable number = false := by
  rw [← Bool.not_eq_true, isWritable_iff, not_forall₂]
  exact exists_congr fun limit => (and_congr_right' Nat.not_lt.symm).trans exists_prop.symm

open Decimal (TooLong)

/-- Reading the size fails, and the failure is not reported: a quantity is written that cannot
be resolved, or the size is below zero and too long for a report. -/
inductive SizeSetting.Escapes : SizeSetting → Fault → Prop
  | unresolvable {text : String} {quantity : Quantity} {fault : Fault}
      (written : quantity.Written text.toList)
      (unresolvable : DataSize.Unresolvable quantity fault) : Escapes (.written text) fault
  | unshown {count : Int} (negative : count < 0) (long : TooLong count) :
      Escapes (.bytes count) .unwritableInteger

namespace Configuration

/-- A value is to be reported that is too long for it. -/
inductive Unreported (config : Configuration) : Prop
  | maxSize {least greatest : Int} (isRead : DataSize.parse config.minSize.value = .ok least)
      (isSet : config.maxSize = some (.bytes greatest)) (notNegative : 0 ≤ greatest)
      (below : greatest < least) (long : TooLong greatest)
  | minEntries (notPositive : config.minEntries ≤ 0) (long : TooLong config.minEntries)
  | maxEntries {greatest : Int} (isSet : config.maxEntries = some greatest)
      (small : greatest ≤ 0 ∨ greatest < config.minEntries) (long : TooLong greatest)
  | maxBinCount (notPositive : config.maxBinCount ≤ 0) (long : TooLong config.maxBinCount)

/-- Checking ends with a fault: that of the least size, or else of the greatest one, or else
there is a value that is too long to be reported. -/
def Escapes (config : Configuration) (fault : Fault) : Prop :=
  config.minSize.Escapes fault ∨ (∀ other, ¬ config.minSize.Escapes other) ∧
    ((∃ setting, config.maxSize = some setting ∧ setting.Escapes fault) ∨
      (∀ setting other, config.maxSize = some setting → ¬ setting.Escapes other) ∧
        config.Unreported ∧ fault = .unwritableInteger)

theorem failsFor_problem (subject explanation : String) (number : Int) :
    FailsFor (problem subject (.int number) explanation) (TooLong number) := by
  intro fault
  have writes : (Value.int number).write =
      if Decimal.isWritable number then .ok (Value.int number).display
      else .error .unwritableInteger :=
    rfl
  rw [Decimal.tooLong_iff]
  unfold problem
  rw [writes]
  cases Decimal.isWritable number with
  | true => exact ⟨nofun, fun failed => nomatch failed.1⟩
  | false =>
      exact ⟨fun failed => ⟨rfl, (Except.error.inj failed).symm⟩, fun failed => failed.2 ▸ rfl⟩

theorem readSize_error_iff {subject : String} {setting : SizeSetting} :
    readSize subject setting = .error fault ↔ setting.Escapes fault := by
  refine reading_error_iff.trans ?_
  cases setting with
  | bytes count =>
      have parses : DataSize.parse (SizeSetting.bytes count).value =
          if count < 0 then .error (.negativeSize count) else .ok count :=
        rfl
      rw [SizeSetting.value, failsFor_problem _ _ count fault]
      rw [SizeSetting.value] at parses
      rw [parses]
      constructor
      · rintro (⟨failed, kind⟩ | ⟨⟨refusal, failed, _⟩, long, rfl⟩)
        · split at failed <;> cases failed
          exact absurd rfl kind
        · split at failed
          · rename_i negative
            exact .unshown negative long
          · cases failed
      · rintro (_ | ⟨negative, long⟩)
        exact .inr ⟨⟨_, if_pos negative, rfl⟩, long, rfl⟩
  | written text =>
      refine (or_iff_left fun failed => nomatch failed.2).trans
        (DataSize.parse_text_error_iff.trans ?_)
      constructor
      · rintro ⟨_, written, unresolvable⟩
        exact .unresolvable written unresolvable
      · rintro (⟨written, unresolvable⟩ | _)
        exact ⟨_, written, unresolvable⟩

theorem readMaxSize_error_iff {limit : Option SizeSetting} :
    readMaxSize limit = .error fault ↔ ∃ setting, limit = some setting ∧ setting.Escapes fault := by
  cases limit with
  | none => exact ⟨nofun, nofun⟩
  | some setting =>
      refine readSize_error_iff.trans ⟨fun escapes => ⟨setting, rfl, escapes⟩, ?_⟩
      rintro ⟨_, ⟨⟩, escapes⟩
      exact escapes

variable {config : Configuration}

theorem eq_bind_of_readMaxSize {limit : Option SizeSetting} {read : Option Int}
    {reports : List Problem} (run : readMaxSize limit = .ok (read, reports)) :
    read = limit.bind fun setting => (DataSize.parse setting.value).toOption := by
  cases limit with
  | none =>
      cases run
      rfl
  | some setting => exact eq_toOption_of_reading run

theorem failsFor_sizeOrderProblems : FailsFor
    (config.sizeOrderProblems (DataSize.parse config.minSize.value).toOption
      (config.maxSize.bind fun setting => (DataSize.parse setting.value).toOption))
    (∃ least greatest, DataSize.parse config.minSize.value = .ok least ∧
      config.maxSize = some (.bytes greatest) ∧ 0 ≤ greatest ∧ greatest < least ∧
        TooLong greatest) := by
  unfold sizeOrderProblems
  cases DataSize.parse config.minSize.value with
  | error _ => exact (failsFor_ok _).congr ⟨False.elim, fun ⟨_, _, isRead, _⟩ => nomatch isRead⟩
  | ok least =>
      cases isSet : config.maxSize with
      | none => exact (failsFor_ok _).congr ⟨False.elim, fun ⟨_, _, _, isSome, _⟩ => nomatch isSome⟩
      | some setting =>
          cases setting with
          | written text =>
              have shown : FailsFor (problem "max_size" (SizeSetting.written text).value
                  "max_size cannot be smaller than min_size") False := failsFor_ok _
              rw [Option.bind_some]
              cases (DataSize.parse (SizeSetting.written text).value).toOption with
              | none =>
                  refine (failsFor_ok _).congr ⟨False.elim, ?_⟩
                  rintro ⟨_, _, _, ⟨⟩, _⟩
              | some greatest =>
                  refine shown.reportIf.congr ⟨fun failed => failed.2.elim, ?_⟩
                  rintro ⟨_, _, _, ⟨⟩, _⟩
          | bytes greatest =>
              by_cases negative : greatest < 0
              · have refused : DataSize.parse (.int greatest) =
                    .error (.negativeSize greatest) :=
                  if_pos negative
                rw [Option.bind_some, SizeSetting.value, refused]
                refine (failsFor_ok _).congr ⟨False.elim, ?_⟩
                rintro ⟨_, _, _, ⟨⟩, notNegative, _⟩
                omega
              · have read : DataSize.parse (.int greatest) = .ok greatest := if_neg negative
                rw [Option.bind_some, SizeSetting.value, read]
                refine (failsFor_problem _ _ greatest).reportIf.congr ⟨fun ⟨below, long⟩ =>
                  ⟨least, greatest, rfl, rfl, Int.not_lt.1 negative, below, long⟩, ?_⟩
                rintro ⟨_, _, ⟨⟩, ⟨⟩, _, below, long⟩
                exact ⟨below, long⟩

theorem failsFor_maxEntriesProblems (minEntries : Int) (limit : Option Int) :
    FailsFor (maxEntriesProblems minEntries limit)
      (∃ greatest, limit = some greatest ∧ (greatest ≤ 0 ∨ greatest < minEntries) ∧
        TooLong greatest) := by
  cases limit with
  | none => exact (failsFor_ok _).congr ⟨False.elim, fun ⟨_, isSome, _⟩ => nomatch isSome⟩
  | some greatest =>
      refine ((failsFor_problem _ _ greatest).reportIf.bind fun _ _ =>
        (failsFor_problem _ _ greatest).reportIf.bind fun _ _ => failsFor_ok _).congr ?_
      simp only [or_false, Option.some.injEq, exists_eq_left', ← or_and_right]

theorem failsFor_entryProblems : FailsFor config.entryProblems
    (config.minEntries ≤ 0 ∧ TooLong config.minEntries ∨
      ∃ greatest, config.maxEntries = some greatest ∧
        (greatest ≤ 0 ∨ greatest < config.minEntries) ∧ TooLong greatest) := by
  refine ((failsFor_problem _ _ config.minEntries).reportIf.bind fun _ _ =>
    (failsFor_maxEntriesProblems _ _).bind fun _ _ => failsFor_ok _).congr ?_
  simp only [or_false]

theorem failsFor_countProblems : FailsFor config.countProblems
    (config.maxBinCount ≤ 0 ∧ TooLong config.maxBinCount) :=
  (failsFor_problem _ _ config.maxBinCount).reportIf

/-- Checking an age answers. -/
theorem ageProblems_ne_error : config.ageProblems ≠ .error fault := by
  intro failed
  unfold ageProblems at failed
  split at failed
  · cases failed
  · obtain failed | ⟨⟨age, reports⟩, _, failed⟩ := bind_error failed
    · obtain ⟨failed, kind⟩ | ⟨_, failed⟩ := reading_error_iff.1 failed
      · exact kind (Duration.kind_of_parse_error failed)
      · rw [problem_age] at failed
        cases failed
    · dsimp only at failed
      split at failed
      · cases failed
      · rw [problem_age] at failed
        unfold reportIf at failed
        split at failed <;> cases failed

theorem failsFor_ageProblems : FailsFor config.ageProblems False :=
  fun _ => ⟨fun failed => absurd failed ageProblems_ne_error, fun failed => failed.1.elim⟩

/-- Unless reading a size fails, checking fails just where a value is too long to be
reported. -/
theorem failsFor_problems {least greatest : Option Int} {reports more : List Problem}
    (readLeast : readSize "min_size" config.minSize = .ok (least, reports))
    (readGreatest : readMaxSize config.maxSize = .ok (greatest, more)) :
    FailsFor config.problems config.Unreported := by
  unfold problems
  rw [readLeast, readGreatest, eq_toOption_of_reading readLeast,
    eq_bind_of_readMaxSize readGreatest]
  refine (failsFor_sizeOrderProblems.bind fun _ _ =>
    failsFor_entryProblems.bind fun _ _ => failsFor_countProblems.bind fun _ _ =>
      failsFor_ageProblems.bind fun _ _ => (failsFor_ok _).bind fun _ _ => failsFor_ok _).congr ?_
  constructor
  · rintro (⟨_, _, isRead, isSet, notNegative, below, long⟩ | (⟨notPositive, long⟩ |
      ⟨_, isSet, small, long⟩) | ⟨notPositive, long⟩ | ⟨⟨⟩⟩ | ⟨⟨⟩⟩ | ⟨⟨⟩⟩)
    · exact .maxSize isRead isSet notNegative below long
    · exact .minEntries notPositive long
    · exact .maxEntries isSet small long
    · exact .maxBinCount notPositive long
  · rintro (⟨isRead, isSet, notNegative, below, long⟩ | ⟨notPositive, long⟩ |
      ⟨isSet, small, long⟩ | ⟨notPositive, long⟩)
    · exact .inl ⟨_, _, isRead, isSet, notNegative, below, long⟩
    · exact .inr (.inl (.inl ⟨notPositive, long⟩))
    · exact .inr (.inl (.inr ⟨_, isSet, small, long⟩))
    · exact .inr (.inr (.inl ⟨notPositive, long⟩))

/-- Checking passes on just the faults of sizes that cannot be resolved, and fails by itself
just where a value is too long to be reported. -/
theorem problems_error_iff : config.problems = .error fault ↔ config.Escapes fault := by
  cases readLeast : readSize "min_size" config.minSize with
  | error other =>
      have escapes := readSize_error_iff.1 readLeast
      have failed : config.problems = .error other := by
        unfold problems
        rw [readLeast]
        rfl
      rw [failed]
      constructor
      · rintro ⟨⟩
        exact .inl escapes
      · rintro (same | ⟨resolved, _⟩)
        · exact congrArg _ (Except.error.inj (readLeast.symm.trans (readSize_error_iff.2 same)))
        · exact absurd escapes (resolved other)
  | ok least =>
      have resolved (other : Fault) : ¬ config.minSize.Escapes other := fun escapes => by
        cases readLeast.symm.trans (readSize_error_iff.2 escapes)
      have known : config.Escapes fault ↔
          (∃ setting, config.maxSize = some setting ∧ setting.Escapes fault) ∨
            (∀ setting other, config.maxSize = some setting → ¬ setting.Escapes other) ∧
              config.Unreported ∧ fault = .unwritableInteger :=
        (or_iff_right (resolved fault)).trans (and_iff_right resolved)
      rw [known, ← readMaxSize_error_iff]
      cases readGreatest : readMaxSize config.maxSize with
      | error other =>
          have failed : config.problems = .error other := by
            unfold problems
            rw [readLeast, readGreatest]
            rfl
          obtain ⟨setting, isSet, escapes⟩ := readMaxSize_error_iff.1 readGreatest
          rw [failed]
          constructor
          · rintro ⟨⟩
            exact .inl rfl
          · rintro (⟨⟨⟩⟩ | ⟨resolved, _⟩)
            · rfl
            · exact absurd escapes (resolved setting other isSet)
      | ok greatest =>
          rw [failsFor_problems readLeast readGreatest fault]
          refine ⟨fun failed => .inr ⟨fun setting other isSet escapes => ?_, failed⟩, ?_⟩
          · cases readGreatest.symm.trans (readMaxSize_error_iff.2 ⟨setting, isSet, escapes⟩)
          · rintro (⟨⟨⟩⟩ | ⟨_, failed⟩)
            exact failed

theorem Escapes.kind (escapes : config.Escapes fault) :
    fault.kind = .lookup ∨ fault.kind = .overflow ∨ fault = .unwritableInteger := by
  have kind {setting : SizeSetting} (escapes : setting.Escapes fault) :
      fault.kind = .lookup ∨ fault.kind = .overflow ∨ fault = .unwritableInteger := by
    cases escapes with
    | unresolvable _ unresolvable => exact or_assoc.1 (.inl unresolvable.kind)
    | unshown => exact .inr (.inr rfl)
  obtain escapes | ⟨_, ⟨_, _, escapes⟩ | ⟨_, _, rfl⟩⟩ := escapes
  · exact kind escapes
  · exact kind escapes
  · exact .inr (.inr rfl)

theorem ofConfiguration_of_error (failed : config.problems = .error fault) :
    Policy.ofConfiguration config = .error fault := by
  unfold Policy.ofConfiguration
  rw [failed]
  rfl

theorem ofConfiguration_of_problems {problems : List Problem} (some : problems ≠ [])
    (found : config.problems = .ok problems) :
    Policy.ofConfiguration config = .error (.invalidConfiguration problems) := by
  unfold Policy.ofConfiguration
  rw [found]
  exact if_neg (mt List.isEmpty_iff.1 some)

/-- Checking a configuration answers with its problems, and the configuration resolves or is
refused for these, unless a quantity is written for a size that cannot be resolved, or a value
is too long to be reported.  Then both end with a fault of looking up, of overflow or of
writing an integer, not of configuring. -/
theorem answered_unless_unresolvable (config : Configuration) :
    (∀ fault, config.Escapes fault →
      config.problems = .error fault ∧ Policy.ofConfiguration config = .error fault ∧
        (fault.kind = .lookup ∨ fault.kind = .overflow ∨ fault = .unwritableInteger)) ∧
    ((∀ fault, ¬ config.Escapes fault) → ∃ problems, config.problems = .ok problems ∧
      (problems = [] → ∃ policy, Policy.ofConfiguration config = .ok policy) ∧
      (problems ≠ [] →
        Policy.ofConfiguration config = .error (.invalidConfiguration problems))) := by
  refine ⟨fun fault escapes => ?_, fun resolved => ?_⟩
  · have failed := problems_error_iff.2 escapes
    exact ⟨failed, ofConfiguration_of_error failed, escapes.kind⟩
  · cases found : config.problems with
    | error fault => exact absurd (problems_error_iff.1 found) (resolved fault)
    | ok problems =>
        refine ⟨problems, rfl, ?_, fun some => ofConfiguration_of_problems some found⟩
        rintro rfl
        obtain ⟨policy, resolves, _⟩ := policy_of_valid found
        exact ⟨policy, resolves⟩

end Configuration

end Limited

namespace Configuration

/-- Checking ends with a fault where a size is written with the kelvin sign, where it has too
many digits for a double, and where an integer has too many digits for a report. -/
theorem sizes_not_reported :
    letI : Host := .customary
    let nines := String.ofList (List.replicate 310 '9')
    let kelvin : Configuration := { minSize := .written "1 \u212AB" }
    let large : Configuration := { minSize := .written nines }
    let long : Configuration := { minSize := .bytes 0, minEntries := -10 ^ 4300 }
    kelvin.problems = .error (.unlistedSizeUnit "\u212AB") ∧
      Policy.ofConfiguration kelvin = .error (.unlistedSizeUnit "\u212AB") ∧
      large.problems = .error .overflow ∧ Policy.ofConfiguration large = .error .overflow ∧
      long.problems = .error .unwritableInteger ∧
      Policy.ofConfiguration long = .error .unwritableInteger := by
  let _ : Host := .customary
  intro nines kelvin large long
  have infinite : large.problems = .error .overflow := by
    let quantity : Quantity := { whole := List.replicate 310 '9', fraction := [], unit := [] }
    have written : quantity.Written nines.toList := {
      whole_ne_nil := by decide
      whole := fun letter member => by
        rw [List.eq_of_mem_replicate member]
        decide
      fraction := nofun
      spaced := ⟨[], [], [], nofun, String.toList_ofList.trans (List.append_nil _).symm⟩ }
    have infinite : (quantity.number * Float.ofNat 1).isInf = true := by decide +kernel
    exact problems_error_iff.2
      (.inl (.unresolvable written (.tooLarge (.inl ⟨rfl, rfl⟩) infinite)))
  have unlisted : kelvin.problems = .error (.unlistedSizeUnit "\u212AB") := by
    unfold kelvin
    rfl
  have unshown : long.problems = .error .unwritableInteger := by
    have tooLong : Decimal.TooLong (-10 ^ 4300) := by
      have ten : Int.natAbs 10 = 10 := rfl
      refine ⟨4300, rfl, ?_⟩
      rw [Int.natAbs_neg, Int.natAbs_pow, ten]
    have notPositive : (-10 ^ 4300 : Int) ≤ 0 := Int.neg_nonpos_of_nonneg (by positivity)
    have readLeast : readSize "min_size" (.bytes 0) = .ok (some 0, []) := rfl
    exact (failsFor_problems readLeast rfl _).2 ⟨.minEntries notPositive tooLong, rfl⟩
  exact ⟨unlisted, ofConfiguration_of_error unlisted, infinite, ofConfiguration_of_error infinite,
    unshown, ofConfiguration_of_error unshown⟩

end Configuration

end ItemBinning
