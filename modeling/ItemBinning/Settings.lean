import ItemBinning.Act
import ItemBinning.Configuration
import ItemBinning.Table
import ItemBinning.Text.UpperCase

/-!
# Settings

Settings come in three sections with declared fields.  Each field takes its
value from the environment variable named for it if that converts to the type
of the value below, else from the configuration file, else from the defaults.
The values are raw: they are checked where they are used.  A file may also
assign to a few names that every section answers to, and replace all values of
a section at once.
-/

namespace ItemBinning

inductive SectionName
  | binning
  | scheduler
  | logging
  deriving Repr, DecidableEq

namespace SectionName

def text : SectionName → String
  | .binning => "binning"
  | .scheduler => "scheduler"
  | .logging => "logging"

def all : List SectionName := [.binning, .scheduler, .logging]

/-- The declared fields of a section with their defaults. -/
def declared : SectionName → List (String × Value)
  | .binning =>
      [("min_size", .text "0 B"), ("max_size", .null), ("min_entries", .int 1),
       ("max_entries", .int 1000), ("max_bin_count", .int 5),
       ("max_bin_age", .null), ("chunk_size", .int 1000)]
  | .scheduler =>
      [("yield_duration_ms", .int 1000), ("concurrent_tasks", .int 1),
       ("stop_timeout_seconds", .float 5.0)]
  | .logging =>
      [("level", .text "INFO"),
       ("format", .text "%(asctime)s %(levelname)s %(name)s: %(message)s")]

def declares (name : SectionName) (field : String) : Bool :=
  (name.declared.lookup field).isSome

end SectionName

/-- A section of the settings: the values that it holds under names, and whether
it was given values under keys that are no texts. -/
structure Section where
  name : SectionName
  held : Table String Value
  hasOtherKeys : Bool := false

namespace Section

/-- A section with its defaults. -/
def default (name : SectionName) : Section where
  name
  held := Table.ofList name.declared

/-- The value of a field; a declared field that holds none has its default. -/
def get (settings : Section) (field : String) : Value :=
  (settings.held.find? field).getD
    ((settings.name.declared.lookup field).getD .null)

def set (settings : Section) (field : String) (value : Value) : Section :=
  { settings with held := settings.held.put field value }

/-- The name that stands for the type of a section, which cannot be replaced. -/
def typeKey : String := "__class__"

/-- The name that stands for all values of a section at once. -/
def valuesKey : String := "__dict__"

/-- The name that stands for the references to a section, which are not to be
written. -/
def referencesKey : String := "__weakref__"

/-- The names that every section answers to besides its fields. -/
def commonNames : List String :=
  ["__annotations__", "__dataclass_fields__", "__dataclass_params__",
   "__delattr__", "__dir__", "__doc__", "__eq__", "__format__", "__ge__",
   "__getattribute__", "__getstate__", "__gt__", "__hash__", "__init__",
   "__init_subclass__", "__le__", "__lt__", "__match_args__", "__module__",
   "__ne__", "__new__", "__reduce__", "__reduce_ex__", "__repr__",
   "__setattr__", "__sizeof__", "__str__", "__subclasshook__"]

/-- Whether a section answers to a name: it declares the field, holds a value
under the name, or every section does. -/
def answersTo (settings : Section) (name : String) : Bool :=
  settings.name.declares name || settings.held.contains name ||
    commonNames.contains name

/-- The entries of a map that have text keys. -/
def textEntries (entries : List (Value × Value)) : List (String × Value) :=
  entries.filterMap fun (key, value) =>
    match key with
    | .text name => some (name, value)
    | _ => none

/-- Replace all values of a section by the entries of a map. -/
def replaceAll (settings : Section) (entries : List (Value × Value)) : Section :=
  { settings with
    held := Table.ofList (textEntries entries)
    hasOtherKeys := (textEntries entries).length < entries.length }

/-- Assign a value to a name.  Names that the section does not answer to have no
effect, but three reserved names and keys that are no texts cannot be assigned
freely. -/
def assign (key value : Value) : Act Section Unit := do
  match key with
  | .text name =>
      if name = typeKey then Act.fail .wrongType
      else if name = valuesKey then
        match value with
        | .map entries => Act.modify (·.replaceAll entries)
        | _ => Act.fail .wrongType
      else if name = referencesKey then Act.fail .readOnly
      else if ← Act.read (·.answersTo name) then Act.modify (·.set name value)
      else pure ()
  | _ => Act.fail .wrongType

/-- Assign the entries of a map, one after the other. -/
def assignAll (entries : List (Value × Value)) : Act Section Unit :=
  Act.forEach entries fun (key, value) => assign key value

/-- The environment variable of a field. -/
def variableName (name : SectionName) (field : String) : String :=
  "BINFLOW_" ++ Text.upperCase name.text ++ "_" ++ Text.upperCase field

/-- The texts that an environment variable gives for true. -/
def trueTexts : List String := ["1", "true", "yes"]

/-- Convert a text to the type of a value, if it can be converted.  Where the
value is neither a number nor a truth value the text stays as it is. -/
def convert? [Host] (current : Value) (text : String) : Option Value :=
  match current with
  | .bool _ => some (.bool (trueTexts.contains text.toLower))
  | .number (.int _) =>
      (Decimal.Numeral.integer? Text.isDecimalDigit text).map .int
  | .number (.float _) =>
      (Decimal.Numeral.decimal? Text.isDecimalDigit text).map .float
  | _ => some (.text text)

/-- Override a field by its environment variable.  The type of the section and
all its values at once cannot be overridden, and the references to it must not
be. -/
def overrideField [Host] (environment : Table String String) (field : String) :
    Act Section Unit := do
  let settings ← Act.get
  match environment.find? (variableName settings.name field) with
  | none => pure ()
  | some text =>
      if field = typeKey ∨ field = valuesKey then pure ()
      else if field = referencesKey then Act.fail .readOnly
      else
        match convert? (settings.get field) text with
        | some value => Act.modify (·.set field value)
        | none => pure ()

/-- Override every value that a section holds by its environment variable; all
of them have to be held under texts. -/
def override [Host] (environment : Table String String) : Act Section Unit := do
  let settings ← Act.get
  Act.forEach settings.held.keys (overrideField environment)
  if settings.hasOtherKeys then Act.fail .readOnly

end Section

/-- The settings of a program. -/
structure Settings where
  binning : Section := .default .binning
  scheduler : Section := .default .scheduler
  logging : Section := .default .logging

namespace Settings

instance : Inhabited Settings := ⟨{}⟩

def get (settings : Settings) : SectionName → Section
  | .binning => settings.binning
  | .scheduler => settings.scheduler
  | .logging => settings.logging

def set (settings : Settings) (name : SectionName) (values : Section) :
    Settings :=
  match name with
  | .binning => { settings with binning := values }
  | .scheduler => { settings with scheduler := values }
  | .logging => { settings with logging := values }

def onSection {α : Type} (name : SectionName) (act : Act Section α) :
    Act Settings α :=
  act.within (·.get name) fun settings values => settings.set name values

/-- Assign the entries of a map to a section. -/
def assignTo (name : SectionName) (entries : List (Value × Value)) :
    Act Settings Unit :=
  onSection name (Section.assignAll entries)

/-- Lay the sections of a file over the settings; anything else than a map in
the place of a section is passed over. -/
def assignFile (file : Value) : Act Settings Unit :=
  Act.forEach SectionName.all fun name =>
    match file.field? name.text with
    | some (.map entries) => assignTo name entries
    | _ => pure ()

def override [Host] (environment : Table String String) : Act Settings Unit :=
  Act.forEach SectionName.all fun name =>
    onSection name (Section.override environment)

/-- The settings of a file and an environment. -/
def ofSources [Host] (file : Value) (environment : Table String String) :
    Except Fault Settings :=
  let laid : Act Settings Unit := do
    assignFile file
    override environment
  match laid {} with
  | (.ok (), settings) => .ok settings
  | (.error fault, _) => .error fault

end Settings

/-- Build a configuration from a section of the settings. -/
def Configuration.ofSection (binning : Section) : Except Fault Configuration :=
  Configuration.ofFields <|
    ["min_size", "max_size", "min_entries", "max_entries", "max_bin_count",
      "max_bin_age"].map fun field => (field, binning.get field)

/-- Resolve a section of the settings to a policy. -/
def Policy.ofSection [Host] (binning : Section) : Except Fault Policy := do
  Policy.ofConfiguration (← Configuration.ofSection binning)

end ItemBinning
