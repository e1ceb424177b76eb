import ItemBinning.DataSize
import ItemBinning.Duration
import ItemBinning.TypedField

/-!
# Configurations

A configuration holds the thresholds as a user writes them: sizes and ages as
numbers or as texts with a unit.  Checking it reports every problem at once; a
problem shows the value it is about, and a value that the host cannot write is
a fault of the check.  A configuration without problems resolves to a policy.
-/

namespace ItemBinning

/-- A size as a user writes it. -/
inductive SizeSetting
  | bytes (count : Int)
  | written (text : String)
  deriving Repr, DecidableEq, Inhabited

def SizeSetting.value : SizeSetting → Value
  | .bytes count => .int count
  | .written text => .text text

/-- An age as a user writes it. -/
inductive AgeSetting
  | seconds (number : Float)
  | written (text : String)

def AgeSetting.value : AgeSetting → Value
  | .seconds number => .float number
  | .written text => .text text

/-- The thresholds as a user writes them. -/
structure Configuration where
  minSize : SizeSetting := .written "0 B"
  maxSize : Option SizeSetting := none
  minEntries : Int := 1
  maxEntries : Option Int := some 1000
  maxBinCount : Int := 5
  maxBinAge : Option AgeSetting := none

/-- A consumer's own check of a configuration. -/
abbrev ExtraCheck := Configuration → Except Fault (List Problem)

def ExtraCheck.none : ExtraCheck := fun _ => .ok []

namespace TypedField

/-- Read a size setting; a text stays as written. -/
def size? : Value → Option SizeSetting
  | .text value => some (.written value)
  | value => (integer? value).map .bytes

def age? : Value → Option AgeSetting
  | .text value => some (.written value)
  | value => (float? value).map .seconds

end TypedField

namespace Configuration

open Checked TypedField

instance : Inhabited Configuration := ⟨{}⟩

def ofFields (fields : Fields) : Except Fault Configuration :=
  finish <|
    both (both (both (both (both (both
      (certain fun maxBinAge maxBinCount maxEntries maxSize minEntries minSize =>
        ({ minSize, maxSize, minEntries, maxEntries, maxBinCount, maxBinAge } :
          Configuration))
      (withDefault fields "max_bin_age" none (optional age?)))
      (withDefault fields "max_bin_count" 5 integer?))
      (withDefault fields "max_entries" (some 1000) (optional integer?)))
      (withDefault fields "max_size" none (optional size?)))
      (withDefault fields "min_entries" 1 integer?))
      (withDefault fields "min_size" (.written "0 B") size?)

def sizeFormat : String :=
  "must be of format <data size> <data unit> where <data size> is a " ++
    "non-negative number and <data unit> is one of B, KB, MB, GB, TB"

def ageFormat : String :=
  "must be of format <duration> <time unit> where <duration> is a " ++
    "non-negative number and <time unit> is one of nanos, millis, secs, " ++
    "mins, hrs, days, weeks"

/-- Ages below this are refused. -/
def leastAge : Float := 1.0

variable [Host]

/-- A problem with a value, which it shows as text. -/
def problem (subject : String) (input : Value) (explanation : String) :
    Except Fault Problem :=
  input.write.map fun text => { subject, input := some text, explanation }

/-- Read a setting; a value of a wrong form is reported and any other fault is
passed on. -/
def reading {α : Type} (parsed : Except Fault α) (report : Except Fault Problem) :
    Except Fault (Option α × List Problem) :=
  match parsed with
  | .ok value => .ok (some value, [])
  | .error fault =>
      if fault.kind = .value then report.map fun problem => (none, [problem])
      else .error fault

def readSize (subject : String) (setting : SizeSetting) :
    Except Fault (Option Int × List Problem) :=
  reading (DataSize.parse setting.value)
    (problem subject setting.value sizeFormat)

def readMaxSize : Option SizeSetting → Except Fault (Option Int × List Problem)
  | none => .ok (none, [])
  | some setting => readSize "max_size" setting

/-- Report a problem where a condition holds. -/
def reportIf (condition : Prop) [Decidable condition]
    (report : Except Fault Problem) : Except Fault (List Problem) :=
  if condition then report.map ([·]) else .ok []

def sizeOrderProblems (config : Configuration) (least greatest : Option Int) :
    Except Fault (List Problem) :=
  match least, greatest, config.maxSize with
  | some least, some greatest, some setting =>
      reportIf (greatest < least)
        (problem "max_size" setting.value
          "max_size cannot be smaller than min_size")
  | _, _, _ => .ok []

def maxEntriesProblems (minEntries : Int) : Option Int → Except Fault (List Problem)
  | none => .ok []
  | some greatest => do
      let positive ← reportIf (greatest ≤ 0)
        (problem "max_entries" (.int greatest)
          "max_entries cannot be negative or zero")
      let ordered ← reportIf (greatest < minEntries)
        (problem "max_entries" (.int greatest)
          "max_entries cannot be smaller than min_entries")
      .ok (positive ++ ordered)

def entryProblems (config : Configuration) : Except Fault (List Problem) := do
  let least ← reportIf (config.minEntries ≤ 0)
    (problem "min_entries" (.int config.minEntries)
      "min_entries cannot be negative or zero")
  let most ← maxEntriesProblems config.minEntries config.maxEntries
  .ok (least ++ most)

def countProblems (config : Configuration) : Except Fault (List Problem) :=
  reportIf (config.maxBinCount ≤ 0)
    (problem "max_bin_count" (.int config.maxBinCount)
      "max_bin_count cannot be negative or zero")

def ageProblems (config : Configuration) : Except Fault (List Problem) :=
  match config.maxBinAge with
  | none => .ok []
  | some setting => do
      let (age, problems) ← reading (Duration.parse setting.value)
        (problem "max_bin_age" setting.value ageFormat)
      match age with
      | none => .ok problems
      | some seconds =>
          reportIf (seconds < leastAge)
            (problem "max_bin_age" setting.value
              "max_bin_age must be at least 1 second")

/-- Every problem of a configuration, the consumer's own last. -/
def problems (config : Configuration) (extra : ExtraCheck := ExtraCheck.none) :
    Except Fault (List Problem) := do
  let (least, leastProblems) ← readSize "min_size" config.minSize
  let (greatest, greatestProblems) ← readMaxSize config.maxSize
  let ordered ← config.sizeOrderProblems least greatest
  let entries ← config.entryProblems
  let counts ← config.countProblems
  let aged ← config.ageProblems
  let found ← extra config
  .ok (leastProblems ++ greatestProblems ++ ordered ++ entries ++ counts ++
    aged ++ found)

def parseOptional {α β : Type} (parse : α → Except Fault β) :
    Option α → Except Fault (Option β)
  | none => .ok none
  | some setting => (parse setting).map some

end Configuration

namespace Policy

/-- The policy of a configuration without problems. -/
def ofConfiguration [Host] (config : Configuration)
    (extra : ExtraCheck := ExtraCheck.none) : Except Fault Policy := do
  let problems ← config.problems extra
  if problems.isEmpty then
    let minSize ← DataSize.parse config.minSize.value
    let maxSize ← Configuration.parseOptional
      (fun setting => DataSize.parse setting.value) config.maxSize
    let maxBinAge ← Configuration.parseOptional
      (fun setting => Duration.parse setting.value) config.maxBinAge
    .ok {
      minSize
      maxSize
      minEntries := config.minEntries
      maxEntries := config.maxEntries
      maxBinCount := config.maxBinCount
      maxBinAge }
  else .error (.invalidConfiguration problems)

open Checked TypedField in
def ofFields (fields : Fields) : Except Fault Policy :=
  finish <|
    both (both (both (both (both (both
      (certain fun maxBinAge maxBinCount maxEntries maxSize minEntries minSize =>
        ({ minSize, maxSize, minEntries, maxEntries, maxBinCount, maxBinAge } :
          Policy))
      (withDefault fields "max_bin_age" none (optional float?)))
      (withDefault fields "max_bin_count" 5 integer?))
      (withDefault fields "max_entries" (some 1000) (optional integer?)))
      (withDefault fields "max_size" none (optional integer?)))
      (withDefault fields "min_entries" 1 integer?))
      (withDefault fields "min_size" 0 integer?)

end Policy

open Checked TypedField in
def Problem.ofFields (fields : Fields) : Except Fault Problem :=
  finish <|
    both (both (both (both
      (certain fun explanation input subject valid =>
        ({ subject, input, valid, explanation } : Problem))
      (required fields "explanation" text?))
      (withDefault fields "input" none (optional text?)))
      (required fields "subject" text?))
      (withDefault fields "valid" false truth?)

end ItemBinning
