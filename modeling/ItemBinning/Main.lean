import ItemBinning.CommandLine.Answer
import ItemBinning.Document.Reading
import ItemBinning.Settings.VariableFile

/-!
# The program

The program reads its arguments, the environment, the variable file and the
configuration file, and prints the answer.
-/

namespace ItemBinning.CommandLine

/-- The configuration file of a request that names none. -/
def defaultPath : String := "config/config.yaml"

def variablePath : String := ".env"

/-- The text of a file, none if it cannot be read. -/
def readText? (path : String) : IO (Option String) := do
  try
    return some (← IO.FS.readFile path)
  catch _ =>
    return none

/-- The names of all environment variables that override a field. -/
def variableNames : List String :=
  SectionName.all.flatMap fun name =>
    name.declared.map fun (field, _) => Section.variableName name field

/-- The environment, as far as it matters, with the variable file put over it. -/
def readEnvironment : IO (Table String String) := do
  let found ← variableNames.filterMapM fun name => do
    return (← IO.getEnv name).map fun text => (name, text)
  let file := (← readText? variablePath).getD ""
  return VariableFile.applyTo (Table.ofList found) (VariableFile.read file)

variable [Host]

/-- The configuration file that a path names, empty if it cannot be read. -/
def readFile (path : Option String) : IO (Except Fault Value) := do
  let named := (path.filter fun name => !name.isEmpty).getD defaultPath
  return Document.value ((← readText? named).getD "")

def Answer.print (answer : Answer) : IO UInt32 := do
  IO.print answer.output
  match answer.ending with
  | .ok code => return code.toUInt32
  | .error fault => do
      IO.eprintln fault.message
      return 1

def Request.path : Request → Option String
  | .run config _ => config
  | _ => none

def answerArguments (arguments : List String) : IO UInt32 := do
  let request := Request.ofArguments arguments
  let file ← readFile request.path
  let environment ← readEnvironment
  let seed ← IO.monoNanosNow
  (request.answer file environment seed).print

end ItemBinning.CommandLine

/-- The program runs with the limit that hosts have unless it is changed. -/
def main (arguments : List String) : IO UInt32 :=
  let _ : ItemBinning.Host := .customary
  ItemBinning.CommandLine.answerArguments arguments
