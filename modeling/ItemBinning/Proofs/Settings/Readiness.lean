import ItemBinning.CommandLine.Answer
import ItemBinning.Engine.Creation
import ItemBinning.Proofs.Shelf.Refusal

/-!
# What a valid configuration is ready for

A configuration without problems resolves to a consistent policy, so no offer is refused
for it.  The chunk size stands in the same section of the settings, but it is no part of
the configuration, and an engine is created from valid settings just if it is positive.
-/

namespace ItemBinning

namespace Policy

variable {policy : Policy}

/-- The thresholds do not contradict each other just if no maximum is below its minimum and an
item and a bin are admitted. -/
theorem inconsistencies_eq_nil_iff : policy.inconsistencies = [] ↔
    (∀ size, policy.maxSize = some size → policy.minSize ≤ size) ∧
    (∀ entries, policy.maxEntries = some entries →
      policy.minEntries ≤ entries ∧ 0 < entries) ∧ 0 < policy.maxBinCount := by
  unfold inconsistencies
  rw [List.append_eq_nil_iff, List.append_eq_nil_iff, and_assoc]
  refine and_congr ?_ (and_congr ?_ ?_)
  · cases policy.maxSize with
    | none => exact ⟨nofun, fun _ => rfl⟩
    | some size =>
        simp only [ite_eq_right_iff, List.cons_ne_nil, imp_false, Option.some.injEq, forall_eq',
          Int.not_lt]
  · cases policy.maxEntries with
    | none => exact ⟨nofun, fun _ => rfl⟩
    | some entries =>
        simp only [List.append_eq_nil_iff, ite_eq_right_iff, List.cons_ne_nil, imp_false,
          Option.some.injEq, forall_eq', Int.not_lt, Int.not_le]
  · simp only [ite_eq_right_iff, List.cons_ne_nil, imp_false, Int.not_le]

/-- No offer is refused for thresholds that do not contradict each other. -/
theorem offer_not_refused (consistent : policy.inconsistencies = []) (depot : Depot)
    (inForce : depot.shelf.thresholds = policy.thresholds) (group : Value) (items : List Item)
    (session : SessionId) (issues : List Inconsistency) :
    (Shelf.offer group items session depot).1 ≠ .error (.inconsistentPolicy issues) := by
  intro refused
  obtain ⟨found, some⟩ := (Shelf.offer_refused_iff group items session depot issues).1 refused
  rw [inForce, policy.inconsistencies_thresholds, consistent] at found
  exact some (Except.ok.inj found).symm

end Policy

namespace Configuration

variable {config : Configuration}

/-- A setting is read without a report just if it has a value. -/
theorem reading_eq_ok_iff {α : Type} {parsed : Except Fault α} {report : Except Fault Problem}
    {read : Option α} :
    reading parsed report = .ok (read, []) ↔ ∃ value, parsed = .ok value ∧ read = some value := by
  unfold reading
  cases parsed with
  | ok value =>
      constructor
      · rintro ⟨⟩
        exact ⟨value, rfl, rfl⟩
      · rintro ⟨_, ⟨⟩, rfl⟩
        rfl
  | error fault =>
      refine ⟨fun run => ?_, nofun⟩
      dsimp only at run
      split at run
      · cases report <;> cases run
      · cases run

/-- Nothing is reported just if the condition does not hold. -/
theorem reportIf_eq_nil_iff {condition : Prop} [Decidable condition]
    {report : Except Fault Problem} : reportIf condition report = .ok [] ↔ ¬ condition := by
  unfold reportIf
  split
  · rename_i holds
    refine ⟨fun run => ?_, fun fails => absurd holds fails⟩
    cases report <;> cases run
  · rename_i fails
    exact ⟨fun _ => fails, fun _ => rfl⟩

/-- Two checks, one after the other, find nothing just if neither does. -/
theorem append_eq_nil_iff {α : Type} {first second : Except Fault (List α)} :
    (do
      let found ← first
      let more ← second
      .ok (found ++ more)) = .ok [] ↔ first = .ok [] ∧ second = .ok [] := by
  constructor
  · intro run
    obtain ⟨found, isFirst, run⟩ := bind_ok run
    obtain ⟨more, isSecond, run⟩ := bind_ok run
    obtain ⟨rfl, rfl⟩ := List.append_eq_nil_iff.1 (Except.ok.inj run)
    exact ⟨isFirst, isSecond⟩
  · rintro ⟨rfl, rfl⟩
    rfl

/-- The settings can be read as thresholds, and these do not contradict each other. -/
structure Sound (config : Configuration) (least : Int) (greatest : Option Int)
    (age : Option Float) : Prop where
  minSize : DataSize.parse config.minSize.value = .ok least
  maxSize : parseOptional (fun setting => DataSize.parse setting.value) config.maxSize =
    .ok greatest
  maxBinAge : parseOptional (fun setting => Duration.parse setting.value) config.maxBinAge =
    .ok age
  sizes : ∀ size, greatest = some size → least ≤ size
  entries : ∀ entries, config.maxEntries = some entries →
    config.minEntries ≤ entries ∧ 0 < entries
  bins : 0 < config.maxBinCount

variable [Host]

theorem readMaxSize_eq_ok_iff {setting : Option SizeSetting} {greatest : Option Int} :
    readMaxSize setting = .ok (greatest, []) ↔
      parseOptional (fun setting => DataSize.parse setting.value) setting = .ok greatest := by
  cases setting with
  | none =>
      constructor
      · rintro ⟨⟩
        rfl
      · rintro ⟨⟩
        rfl
  | some setting =>
      refine reading_eq_ok_iff.trans ?_
      change _ ↔ (DataSize.parse setting.value).map some = _
      cases DataSize.parse setting.value with
      | error fault => exact ⟨nofun, nofun⟩
      | ok size =>
          constructor
          · rintro ⟨_, ⟨⟩, rfl⟩
            rfl
          · rintro ⟨⟩
            exact ⟨size, rfl, rfl⟩

/-- An age can always be shown. -/
theorem problem_age (subject explanation : String) (setting : AgeSetting) :
    problem subject setting.value explanation =
      .ok { subject, input := some setting.value.display, explanation } := by
  cases setting <;> rfl

theorem ageProblems_eq_nil_iff : config.ageProblems = .ok [] ↔
    ∃ age, parseOptional (fun setting => Duration.parse setting.value) config.maxBinAge = .ok age ∧
      ∀ seconds, age = some seconds → ¬ seconds < leastAge := by
  unfold ageProblems
  cases config.maxBinAge with
  | none => exact ⟨fun _ => ⟨none, rfl, nofun⟩, fun _ => rfl⟩
  | some setting =>
      change (reading (Duration.parse setting.value) _ >>= _) = _ ↔
        ∃ age, (Duration.parse setting.value).map some = _ ∧ _
      cases parsed : Duration.parse setting.value with
      | error fault =>
          refine ⟨fun run => ?_, nofun⟩
          obtain ⟨⟨age, reports⟩, read, rest⟩ := bind_ok run
          rw [problem_age] at read
          unfold reading at read
          dsimp only [Except.map] at read
          split at read <;> cases read
          cases rest
      | ok seconds =>
          change reportIf (seconds < leastAge) _ = _ ↔ _
          rw [reportIf_eq_nil_iff]
          constructor
          · intro enough
            refine ⟨some seconds, rfl, ?_⟩
            rintro _ ⟨⟩
            exact enough
          · rintro ⟨_, ⟨⟩, enough⟩
            exact enough seconds rfl

theorem sizeOrderProblems_eq_nil_iff {least : Int} {greatest : Option Int}
    (resolved : parseOptional (fun setting => DataSize.parse setting.value) config.maxSize =
      .ok greatest) :
    config.sizeOrderProblems (some least) greatest = .ok [] ↔
      ∀ size, greatest = some size → least ≤ size := by
  cases greatest with
  | none => exact ⟨nofun, fun _ => rfl⟩
  | some size =>
      unfold sizeOrderProblems
      cases isSet : config.maxSize with
      | none =>
          rw [isSet] at resolved
          cases resolved
      | some setting =>
          simp only [reportIf_eq_nil_iff, Option.some.injEq, forall_eq', Int.not_lt]

theorem maxEntriesProblems_eq_nil_iff {minEntries : Int} {limit : Option Int} :
    maxEntriesProblems minEntries limit = .ok [] ↔
      ∀ entries, limit = some entries → 0 < entries ∧ minEntries ≤ entries := by
  cases limit with
  | none => exact ⟨nofun, fun _ => rfl⟩
  | some entries =>
      refine append_eq_nil_iff.trans ?_
      simp only [reportIf_eq_nil_iff, Option.some.injEq, forall_eq', Int.not_le, Int.not_lt]

theorem entryProblems_eq_nil_iff : config.entryProblems = .ok [] ↔
    0 < config.minEntries ∧ ∀ entries, config.maxEntries = some entries →
      config.minEntries ≤ entries := by
  refine append_eq_nil_iff.trans ?_
  rw [reportIf_eq_nil_iff, maxEntriesProblems_eq_nil_iff, Int.not_le]
  refine and_congr_right fun positive => forall₂_congr fun entries _ => ?_
  exact ⟨And.right, fun atLeast => ⟨Int.lt_of_lt_of_le positive atLeast, atLeast⟩⟩

theorem countProblems_eq_nil_iff : config.countProblems = .ok [] ↔ 0 < config.maxBinCount :=
  reportIf_eq_nil_iff.trans Int.not_le

/-- A configuration without problems is sound. -/
theorem sound_of_valid (valid : config.problems = .ok []) :
    ∃ least greatest age, config.Sound least greatest age := by
  obtain ⟨⟨least, leastProblems⟩, readLeast, valid⟩ := bind_ok valid
  obtain ⟨⟨greatest, greatestProblems⟩, readGreatest, valid⟩ := bind_ok valid
  obtain ⟨ordered, sizes, valid⟩ := bind_ok valid
  obtain ⟨numbered, entries, valid⟩ := bind_ok valid
  obtain ⟨counted, bins, valid⟩ := bind_ok valid
  obtain ⟨aged, readAge, valid⟩ := bind_ok valid
  obtain ⟨found, _, valid⟩ := bind_ok valid
  have none := Except.ok.inj valid
  simp only [List.append_eq_nil_iff] at none
  obtain ⟨⟨⟨⟨⟨⟨rfl, rfl⟩, rfl⟩, rfl⟩, rfl⟩, rfl⟩, -⟩ := none
  obtain ⟨least, minSize, rfl⟩ := reading_eq_ok_iff.1 readLeast
  obtain ⟨age, maxBinAge, _⟩ := ageProblems_eq_nil_iff.1 readAge
  have maxSize := readMaxSize_eq_ok_iff.1 readGreatest
  obtain ⟨positive, entries⟩ := entryProblems_eq_nil_iff.1 entries
  exact ⟨least, greatest, age, {
    minSize, maxSize, maxBinAge
    sizes := (sizeOrderProblems_eq_nil_iff maxSize).1 sizes
    entries := fun most isSet => by
      have := entries most isSet
      omega
    bins := countProblems_eq_nil_iff.1 bins }⟩

/-- A configuration without problems resolves to a consistent policy. -/
theorem policy_of_valid (valid : config.problems = .ok []) :
    ∃ policy, Policy.ofConfiguration config = .ok policy ∧ policy.inconsistencies = [] := by
  obtain ⟨least, greatest, age, sound⟩ := sound_of_valid valid
  refine ⟨{
    minSize := least
    maxSize := greatest
    minEntries := config.minEntries
    maxEntries := config.maxEntries
    maxBinCount := config.maxBinCount
    maxBinAge := age }, ?_, ?_⟩
  · unfold Policy.ofConfiguration
    rw [valid, sound.minSize, sound.maxSize, sound.maxBinAge]
    rfl
  · exact Policy.inconsistencies_eq_nil_iff.2 ⟨sound.sizes, sound.entries, sound.bins⟩

end Configuration

/-- A chunk size is accepted just if it is a positive number. -/
theorem Engine.readChunkSize_iff (value : Value) (size : Number) :
    readChunkSize value = .ok size ↔ value.number? = some size ∧ size.isAtMostZero = false := by
  have checked (number : Number) :
      (if number.isAtMostZero then .error (.badChunkSize value) else .ok number) =
          (.ok size : Except Fault Number) ↔
        some number = some size ∧ size.isAtMostZero = false := by
    constructor
    · intro read
      split at read
      · cases read
      · rename_i positive
        cases read
        exact ⟨rfl, Bool.eq_false_iff.2 positive⟩
    · rintro ⟨⟨⟩, positive⟩
      rw [positive]
      rfl
  cases value with
  | bool truth => exact checked _
  | number number => exact checked number
  | _ => exact ⟨nofun, fun accepted => absurd accepted.1 nofun⟩

/-- An engine is created from the shared settings by their policy and by their chunk size. -/
theorem Engine.parts_of_shared [Host] {store reached : SettingsStore} {number : Nat}
    {policy : Policy}
    (shared : SettingsStore.getShared store = (.ok number, reached))
    (resolved : Policy.ofSection (reached.settings number).binning = .ok policy) :
    parts none none store =
      ((readChunkSize ((reached.settings number).binning.get "chunk_size")).map (policy, ·),
        reached) := by
  have looked : sectionFor none none store = (.ok (reached.settings number).binning, reached) :=
    Act.bind_of_ok shared _
  have answered : (Act.ofExcept (Policy.ofSection (reached.settings number).binning) :
      Act SettingsStore Policy) reached = (.ok policy, reached) :=
    congrArg (·, reached) resolved
  refine (Act.bind_of_ok looked _).trans ((Act.bind_of_ok answered _).trans ?_)
  rw [Option.getD_none]
  cases readChunkSize ((reached.settings number).binning.get "chunk_size") <;> rfl

/-- Settings are loaded of which `validate` says that they are valid.  Then they resolve to a
consistent policy; an engine is created from them just if their chunk size, which is not
looked at before, is a positive number; and no offer under this policy is refused for it. -/
theorem ready_of_valid [Host] {store reached : SettingsStore} {number : Nat}
    {config : Configuration}
    (shared : SettingsStore.getShared store = (.ok number, reached))
    (formed : Configuration.ofSection (reached.settings number).binning = .ok config)
    (valid : config.problems = .ok []) :
    let settings := reached.settings number
    let chunkSize := settings.binning.get "chunk_size"
    CommandLine.validate settings = { output := "Binning configuration is valid\n" } ∧
    ∃ policy, Policy.ofSection settings.binning = .ok policy ∧ policy.inconsistencies = [] ∧
      Engine.parts none none store =
        ((Engine.readChunkSize chunkSize).map (policy, ·), reached) ∧
      (∀ size, Engine.readChunkSize chunkSize = .ok size ↔
        chunkSize.number? = some size ∧ size.isAtMostZero = false) ∧
      ∀ depot : Depot, depot.shelf.thresholds = policy.thresholds →
        ∀ group items session issues,
          (Shelf.offer group items session depot).1 ≠ .error (.inconsistentPolicy issues) := by
  intro settings chunkSize
  obtain ⟨policy, resolved, consistent⟩ := Configuration.policy_of_valid valid
  have ofSection : Policy.ofSection settings.binning = .ok policy := by
    unfold Policy.ofSection
    rw [formed]
    exact resolved
  refine ⟨?_, policy, ofSection, consistent, Engine.parts_of_shared shared ofSection,
    Engine.readChunkSize_iff chunkSize, ?_⟩
  · have checked : (Configuration.ofSection settings.binning >>= (·.problems)) = .ok [] := by
      rw [formed]
      exact valid
    unfold CommandLine.validate
    rw [checked]
  · exact Policy.offer_not_refused consistent

/-- A section that bounds sizes and entries and asks for chunks of a hundred items is valid,
and an engine is created from it. -/
theorem ready_of_valid_sizes :
    letI : Host := .customary
    let binning : Section := {
      name := .binning
      held := Table.ofList [("min_size", .int 10), ("max_size", .int 1048576),
        ("min_entries", .int 2), ("chunk_size", .int 100)] }
    let store : SettingsStore := { loaded := Slots.push {} { binning }, shared := some 0 }
    CommandLine.validate { binning } = { output := "Binning configuration is valid\n" } ∧
      ∃ policy, Policy.ofSection binning = .ok policy ∧ policy.inconsistencies = [] ∧
        Engine.parts none none store = (.ok (policy, .int 100), store) ∧
        ∀ depot : Depot, depot.shelf.thresholds = policy.thresholds →
          ∀ group items session issues,
            (Shelf.offer group items session depot).1 ≠ .error (.inconsistentPolicy issues) := by
  let _ : Host := .customary
  intro binning store
  obtain ⟨isValid, policy, resolved, consistent, parts, _, accepted⟩ :=
    @ready_of_valid .customary store store 0 _ rfl
      (rfl : Configuration.ofSection binning = .ok {
        minSize := .bytes 10, maxSize := some (.bytes 1048576), minEntries := 2 }) rfl
  exact ⟨isValid, policy, resolved, consistent, parts, accepted⟩

/-- Settings whose chunk size is zero are reported to be valid, and no engine can be created
from them. -/
theorem valid_settings_refused :
    letI : Host := .customary
    let binning := (Section.default .binning).set "chunk_size" (.int 0)
    let store : SettingsStore := { loaded := Slots.push {} { binning }, shared := some 0 }
    (Configuration.ofSection binning >>= (·.problems)) = .ok [] ∧
      CommandLine.validate { binning } = { output := "Binning configuration is valid\n" } ∧
      Engine.parts none none store = (.error (.badChunkSize (.int 0)), store) := by
  exact ⟨rfl, rfl, rfl⟩

end ItemBinning
