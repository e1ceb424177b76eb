import ItemBinning.CommandLine.Request
import ItemBinning.Settings.LogFormat

/-!
# Answers

A request is answered with a text and an ending: an exit code, or a fault that
no command handles.  What was said before a fault stays said.
-/

namespace ItemBinning.CommandLine

/-- What the program says and how it ends. -/
structure Answer where
  output : String := ""
  ending : Except Fault Nat := .ok 0

namespace Answer

instance : Inhabited Answer := ⟨{}⟩

/-- The answer of a fault before anything was said. -/
def ofFault (fault : Fault) : Answer := { ending := .error fault }

def after (said : String) (answer : Answer) : Answer :=
  { answer with output := said ++ answer.output }

end Answer

variable [Host]

def usage : String :=
  "usage: [-h] [--config FILE] [validate | simulate [OPTION NUMBER ...]]\n"

/-- The exit code of a request that cannot be understood. -/
def misuseCode : Nat := 2

def problemsText (problems : List Problem) : String :=
  String.join (problems.map fun problem => "  - " ++ problem.text ++ "\n")

def validate (settings : Settings) : Answer :=
  match Configuration.ofSection settings.binning >>= (·.problems) with
  | .error fault => .ofFault fault
  | .ok [] => { output := "Binning configuration is valid\n" }
  | .ok problems =>
      { output := problemsText problems, ending := .ok 1 }

def simulateUnder (settings : Settings) (policy : Policy)
    (simulation : Simulation) (seed : Int) : Answer :=
  let prepared : Except Fault (List Item × Number) := do
    let items ← simulation.drawItems 0 (Dice.ofSeed seed) simulation.items.toNat
    let chunkSize ← Engine.readChunkSize (settings.binning.get "chunk_size")
    return (items, chunkSize)
  match prepared with
  | .error fault => .ofFault fault
  | .ok (items, chunkSize) =>
      Answer.after simulation.announcement <|
        match simulation.run items policy chunkSize with
        | .ok entries => { output := Simulation.reportText entries }
        | .error fault => .ofFault fault

def simulate (settings : Settings) (simulation : Simulation) (seed : Int) :
    Answer :=
  match Policy.ofSection settings.binning with
  | .ok policy => simulateUnder settings policy simulation seed
  | .error fault =>
      if fault.kind = .configuration then
        { output := "Error: " ++ fault.message ++ "\n", ending := .ok 1 }
      else .ofFault fault

/-- Carry out a task with the settings of a file and an environment.  The seed
is used where the task names none. -/
def perform (task : Task) (file : Except Fault Value)
    (environment : Table String String) (seed : Int) : Answer :=
  let loaded : Except Fault Settings := do
    let settings ← Settings.ofSources (← file) environment
    LogFormat.check settings.logging
    return settings
  match loaded with
  | .error fault => .ofFault fault
  | .ok settings =>
      match task with
      | .validate => validate settings
      | .simulate simulation =>
          simulate settings simulation (simulation.seed.getD seed)

/-- Answer a request; the file is the one that the request names. -/
def Request.answer (request : Request) (file : Except Fault Value)
    (environment : Table String String) (seed : Int) : Answer :=
  match request with
  | .run _ task => perform task file environment seed
  | .help => { output := usage }
  | .nothing => { output := usage, ending := .ok 1 }
  | .misuse => { ending := .ok misuseCode }

end ItemBinning.CommandLine
