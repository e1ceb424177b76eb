import ItemBinning.Simulation

/-!
# Requests

The arguments of a command line are a request: to validate a configuration or
to simulate a stream.  An option may be written in full or as a beginning that
no other option has, and its value follows it, in the same argument after an
equals sign or as the next argument.
-/

namespace ItemBinning.CommandLine

/-- What a command does. -/
inductive Task
  | validate
  | simulate (simulation : Simulation)
  deriving Repr, DecidableEq

/-- What the arguments ask for. -/
inductive Request
  | run (config : Option String) (task : Task)
  | help
  | nothing
  /-- The arguments make no request. -/
  | misuse
  deriving Repr, DecidableEq

/-- What an argument is. -/
inductive Word
  | value
  /-- An option, with the value that is written in the same argument. -/
  | option (name : String) (attached : Option (List Char))
  /-- Two hyphens; everything after them is a value. -/
  | separator
  /-- It looks like an option and is none. -/
  | unknown
  /-- It begins like several options. -/
  | ambiguous
  deriving Repr, DecidableEq

namespace Word

def withoutLineEnd (text : List Char) : List Char :=
  if text.getLast? == some '\n' then text.dropLast else text

/-- Whether characters are a number with a minus sign; a line may end after
it. -/
def isNegativeNumber (text : List Char) : Bool :=
  match withoutLineEnd text with
  | '-' :: rest =>
      let (whole, after) := rest.span Text.isDecimalDigit
      match after with
      | [] => !whole.isEmpty
      | '.' :: fraction =>
          !fraction.isEmpty && fraction.all Text.isDecimalDigit
      | _ => false
  | _ => false

def splitAtEquals (text : List Char) : List Char × Option (List Char) :=
  match text.span (· != '=') with
  | (before, _ :: after) => (before, some after)
  | (before, []) => (before, none)

/-- The options that an argument may mean, each with the value attached.  What
follows the letter of a one-letter option is passed over, since these options
take no value, unless it is an equals sign. -/
def meanings (options : List String) (text : List Char) :
    List (String × Option (List Char)) :=
  match text with
  | '-' :: '-' :: _ =>
      let (beginning, attached) := splitAtEquals text
      if options.contains (String.ofList beginning) then
        [(String.ofList beginning, attached)]
      else
        (options.filter fun full => beginning.isPrefixOf full.toList).map
          fun full => (full, attached)
  | '-' :: letter :: rest =>
      (options.filter fun full => full.toList == ['-', letter]).map
        fun full => (full, if rest.head? == some '=' then some rest else none)
  | _ => []

/-- What an argument is where some options are known. -/
def ofArgument (options : List String) (argument : String) : Word :=
  let text := argument.toList
  match text with
  | '-' :: _ :: _ =>
      match meanings options text with
      | [(full, attached)] => .option full attached
      | _ :: _ :: _ => .ambiguous
      | [] =>
          if isNegativeNumber text || text.contains ' ' then .value
          else .unknown
  | _ => .value

end Word

/-- An argument and what it is. -/
abbrev Argument := String × Word

def classify (options : List String) : List String → List Argument
  | [] => []
  | argument :: rest =>
      if argument == "--" then
        (argument, .separator) :: rest.map fun later => (later, .value)
      else (argument, Word.ofArgument options argument) :: classify options rest

def anyAmbiguous (arguments : List Argument) : Bool :=
  arguments.any fun argument => argument.2 == .ambiguous

def helpOptions : List String := ["-h", "--help"]

/-- The options of a simulation, each with the field that its value is read
into. -/
def simulationOptions : List (String × (Simulation → Int → Simulation)) :=
  [("--items", fun simulation items => { simulation with items }),
   ("--groups", fun simulation groups => { simulation with groups }),
   ("--min-item-size", fun simulation minItemSize =>
      { simulation with minItemSize }),
   ("--max-item-size", fun simulation maxItemSize =>
      { simulation with maxItemSize }),
   ("--max-activations", fun simulation maxActivations =>
      { simulation with maxActivations }),
   ("--seed", fun simulation seed => { simulation with seed := some seed })]

variable [Host]

def setOption (simulation : Simulation) (name value : String) :
    Option Simulation := do
  let change ← simulationOptions.lookup name
  let number ← Decimal.Numeral.integer? Text.isDecimalDigit value
  return change simulation number

/-- Read the arguments of a simulation.  Values that belong to no option and
unknown options make no request, but the other arguments are read before. -/
def readSimulation (simulation : Simulation) (misused : Bool) :
    List Argument → Except Request Simulation
  | [] => if misused then .error .misuse else .ok simulation
  | (_, .option name (some attached)) :: rest =>
      match setOption simulation name (String.ofList attached) with
      | some changed => readSimulation changed misused rest
      | none => .error .misuse
  | (_, .option name none) :: (value, .value) :: rest =>
      if helpOptions.contains name then .error .help
      else
        match setOption simulation name value with
        | some changed => readSimulation changed misused rest
        | none => .error .misuse
  | (_, .option name none) :: _ =>
      .error (if helpOptions.contains name then .help else .misuse)
  | _ :: rest => readSimulation simulation true rest

/-- Read the arguments of a command that takes none but the help options. -/
def readValidation (config : Option String) (misused : Bool) :
    List Argument → Request
  | [] => if misused then .misuse else .run config .validate
  | (_, .option _ none) :: _ => .help
  | (_, .option _ (some _)) :: _ => .misuse
  | _ :: rest => readValidation config true rest

def readCommand (config : Option String) (misused : Bool) (command : String)
    (arguments : List String) : Request :=
  if command == "validate" then
    let words := classify helpOptions arguments
    if anyAmbiguous words then .misuse
    else readValidation config misused words
  else if command == "simulate" then
    let words := classify (helpOptions ++ simulationOptions.map Prod.fst)
      arguments
    if anyAmbiguous words then .misuse
    else
      match readSimulation {} misused words with
      | .ok simulation => .run config (.simulate simulation)
      | .error request => request
  else .misuse

def configOption : String := "--config"

/-- Read the arguments in front of the command, the command and its own
arguments. -/
def readArguments (config : Option String) (misused : Bool) :
    List Argument → Request
  | [] => if misused then .misuse else .nothing
  | (command, .value) :: rest =>
      readCommand config misused command (rest.map Prod.fst)
  | (_, .option name (some attached)) :: rest =>
      if name == configOption then
        readArguments (some (String.ofList attached)) misused rest
      else .misuse
  | (_, .option name none) :: (value, .value) :: rest =>
      if name == configOption then readArguments (some value) misused rest
      else .help
  | (_, .option name none) :: _ =>
      if name == configOption then .misuse else .help
  | (_, .separator) :: _ => .misuse
  | _ :: rest => readArguments config true rest

def Request.ofArguments (arguments : List String) : Request :=
  let words := classify (helpOptions ++ [configOption]) arguments
  if anyAmbiguous words then .misuse else readArguments none false words

end ItemBinning.CommandLine
