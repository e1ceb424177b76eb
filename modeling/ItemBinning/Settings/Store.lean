import ItemBinning.Settings
import ItemBinning.Settings.VariableFile
import ItemBinning.Slots

/-!
# The settings in use

Settings are loaded once and then shared.  A forced load replaces the shared
settings; those that were handed out before stay as they are.  Variables of the
environment file are put over the environment by every load and stay there.
-/

namespace ItemBinning

/-- The environment, all settings ever loaded, and which of them are shared. -/
structure SettingsStore where
  environment : Table String String := .empty
  loaded : Slots Settings := {}
  shared : Option Nat := none

namespace SettingsStore

instance : Inhabited SettingsStore := ⟨{}⟩

variable [Host]

/-- Set environment variables, or unset those without a value. -/
def setVariables (store : SettingsStore)
    (assigned : List (String × Option String)) : SettingsStore :=
  { store with
    environment := assigned.foldl (fun environment (name, value) =>
      match value with
      | some text => environment.put name text
      | none => environment.erase name) store.environment }

/-- Load settings from a file and the variables of an environment file, and share
them.  The variables are put over the environment even if the file cannot be
read. -/
def load (file : Except Fault Value) (assigned : VariableFile.Assignments) :
    Act SettingsStore Nat := do
  Act.modify fun store =>
    { store with environment := VariableFile.applyTo store.environment assigned }
  let environment ← Act.read (·.environment)
  let settings ← Act.ofExcept
    (file >>= fun held => Settings.ofSources held environment)
  let number ← Act.read (·.loaded.next)
  Act.modify fun store =>
    { store with loaded := store.loaded.push settings, shared := some number }
  pure number

/-- The number of the shared settings, which are loaded if there are none or a
load is forced. -/
def get (file : Except Fault Value) (assigned : VariableFile.Assignments)
    (forced : Bool := false) : Act SettingsStore Nat := do
  match ← Act.read (·.shared) with
  | some number => if forced then load file assigned else pure number
  | none => load file assigned

def forget : Act SettingsStore Unit :=
  Act.modify fun store => { store with shared := none }

def settings (store : SettingsStore) (number : Nat) : Settings :=
  store.loaded.get number

/-- Assign the entries of a map to a section of settings that were loaded. -/
def assignTo (number : Nat) (name : SectionName)
    (entries : List (Value × Value)) : Act SettingsStore Unit :=
  (Settings.assignTo name entries).within (·.settings number)
    fun store settings =>
      { store with loaded := store.loaded.set number settings }

end SettingsStore

end ItemBinning
