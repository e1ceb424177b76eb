import ItemBinning.Proofs.Flow.PartWay
import ItemBinning.Proofs.Settings.Overrides
import ItemBinning.Settings.Store

/-!
# What is loaded

The sections of a file are assigned one after the other, and then overridden one after the
other.  As no section looks at another one, each comes to what its own entries and variables
make of its defaults, and a load fails only as one section does.
-/

namespace ItemBinning

open VariableFile

/-- The entries that a file gives to a section, none where it has no map in its place. -/
def SectionName.entriesIn (name : SectionName) (file : Value) : List (Value × Value) :=
  match file.field? name.text with
  | some (.map entries) => entries
  | _ => []

namespace Settings

variable {settings after : Settings} {act : SectionName → Act Section Unit}
  {name : SectionName} {names : List SectionName} {file : Value}
  {environment : Table String String} {fault : Fault}

theorem get_set (settings : Settings) (name other : SectionName) (values : Section) :
    (settings.set name values).get other = if other = name then values else settings.get other := by
  cases name <;> cases other <;> rfl

theorem set_get (settings : Settings) (name : SectionName) :
    settings.set name (settings.get name) = settings := by
  cases name <;> rfl

theorem get_default (name : SectionName) : ({} : Settings).get name = .default name := by
  cases name <;> rfl

/-- An act on a section reads this section, and no other one is changed. -/
theorem of_onSection {act : Act Section Unit} {outcome : Except Fault Unit}
    (run : onSection name act settings = (outcome, after)) :
    act (settings.get name) = (outcome, after.get name) ∧
      ∀ other ≠ name, after.get other = settings.get other := by
  change ((act (settings.get name)).1, settings.set name (act (settings.get name)).2) = _ at run
  obtain ⟨rfl, rfl⟩ := Prod.mk.inj run
  rw [get_set, if_pos rfl]
  exact ⟨rfl, fun other apart => by rw [get_set, if_neg apart]⟩

/-- Acts on different sections that answer together answer each on its section as it was. -/
theorem onEach_eq_ok (distinct : names.Nodup)
    (run : Act.forEach names (fun name => onSection name (act name)) settings =
      (.ok (), after)) :
    (∀ name ∈ names, act name (settings.get name) = (.ok (), after.get name)) ∧
      ∀ name ∉ names, after.get name = settings.get name := by
  induction names generalizing settings with
  | nil =>
      cases run
      exact ⟨nofun, fun _ _ => rfl⟩
  | cons first rest ih =>
      obtain ⟨fresh, distinct⟩ := List.nodup_cons.1 distinct
      obtain ⟨_, between, firstRun, run⟩ := Act.bind_eq_ok run
      obtain ⟨answered, others⟩ := of_onSection firstRun
      obtain ⟨later, same⟩ := ih distinct run
      -- What the first act reached is kept by the others, as its section is none of theirs.
      refine ⟨fun name member => ?_, fun name absent => ?_⟩
      · rcases List.mem_cons.1 member with rfl | member
        · rw [same name fresh]
          exact answered
        · rw [← others name fun isFirst => fresh (isFirst ▸ member)]
          exact later name member
      · rw [List.mem_cons, not_or] at absent
        exact (same name absent.2).trans (others name absent.1)

/-- Acts on different sections fail together only as one of them does on its section as it
was. -/
theorem onEach_eq_error (distinct : names.Nodup)
    (run : Act.forEach names (fun name => onSection name (act name)) settings =
      (.error fault, after)) :
    ∃ name reached, act name (settings.get name) = (.error fault, reached) := by
  obtain ⟨before, name, rest, between, rfl, carried, failed⟩ := Act.forEach_eq_error.1 run
  obtain ⟨distinct, _, apart⟩ := List.nodup_append.1 distinct
  -- The acts before the one that failed left its section alone.
  have same := (onEach_eq_ok distinct carried).2 name
    fun member => apart name member name List.mem_cons_self rfl
  refine ⟨name, after.get name, ?_⟩
  rw [← same]
  exact (of_onSection failed).1

/-- A file is laid over the settings section by section. -/
theorem assignFile_eq (file : Value) : assignFile file =
    Act.forEach SectionName.all fun name =>
      onSection name (Section.assignAll (name.entriesIn file)) := by
  have passed (name : SectionName) : (pure () : Act Settings Unit) =
      onSection name (Section.assignAll []) :=
    funext fun settings => congrArg (Except.ok (), ·) (set_get settings name).symm
  unfold assignFile
  congr 1
  funext name
  unfold SectionName.entriesIn
  rcases file.field? name.text with _ | value
  · exact passed name
  · cases value with
    | map entries => rfl
    | _ => exact passed name

theorem nodup_all : SectionName.all.Nodup := by
  decide

theorem mem_all (name : SectionName) : name ∈ SectionName.all := by
  cases name <;> decide

section Sources

variable [Host]

theorem ofSources_run (file : Value) (environment : Table String String) :
    ∃ outcome reached,
      (assignFile file >>= fun _ => override environment) {} = (outcome, reached) ∧
        ofSources file environment = outcome.map fun _ => reached := by
  rcases laid : (assignFile file >>= fun _ => override environment) {} with ⟨outcome, reached⟩
  refine ⟨outcome, reached, rfl, ?_⟩
  unfold ofSources
  dsimp only
  rw [laid]
  cases outcome <;> rfl

/-- The settings of a file and an environment: each section by its own entries. -/
theorem ofSources_eq_ok (sourced : ofSources file environment = .ok settings)
    (name : SectionName) : Section.layered environment (name.entriesIn file) (.default name) =
      (.ok (), settings.get name) := by
  obtain ⟨fault | _, reached, run, same⟩ := ofSources_run file environment
  · cases same.symm.trans sourced
  cases same.symm.trans sourced
  obtain ⟨_, between, assigned, overridden⟩ := Act.bind_eq_ok run
  rw [assignFile_eq] at assigned
  have first := (onEach_eq_ok nodup_all assigned).1 name (mem_all name)
  have second := (onEach_eq_ok nodup_all overridden).1 name (mem_all name)
  rw [get_default] at first
  exact (Act.bind_of_ok first _).trans second

theorem ofSources_eq_error (sourced : ofSources file environment = .error fault) :
    ∃ name reached, Section.layered environment (name.entriesIn file) (.default name) =
      (.error fault, reached) := by
  obtain ⟨other | _, reached, run, same⟩ := ofSources_run file environment
  · cases same.symm.trans sourced
    obtain failed | ⟨_, between, assigned, failed⟩ := Act.bind_eq_error_iff.1 run
    · rw [assignFile_eq] at failed
      obtain ⟨name, left, failed⟩ := onEach_eq_error nodup_all failed
      rw [get_default] at failed
      exact ⟨name, left, Act.bind_of_error failed _⟩
    · rw [assignFile_eq] at assigned
      obtain ⟨name, left, failed⟩ := onEach_eq_error nodup_all failed
      have first := (onEach_eq_ok nodup_all assigned).1 name (mem_all name)
      rw [get_default] at first
      exact ⟨name, left, (Act.bind_of_ok first _).trans failed⟩
  · cases same.symm.trans sourced

end Sources

end Settings

namespace VariableFile

/-- The text of a variable once those of a file are put over the environment: the one last
assigned to it in the file, if there is one. -/
def effective? (environment : Table String String) (assigned : Assignments) (name : String) :
    Option String :=
  ((resolveAll environment assigned).reverse.lookup name).join.or (environment.find? name)

theorem find?_setVariables {entries : List (String × Option String)}
    (distinct : (entries.map Prod.fst).Nodup) (environment : Table String String)
    (name : String) :
    (entries.foldl setVariable environment).find? name =
      (entries.lookup name).join.or (environment.find? name) := by
  induction entries generalizing environment with
  | nil => rfl
  | cons entry rest ih =>
      obtain ⟨first, text⟩ := entry
      rw [List.map_cons, List.nodup_cons] at distinct
      rw [List.foldl_cons, ih distinct.2, List.lookup_cons]
      have set : (setVariable environment (first, text)).find? name =
          if name = first then text.or (environment.find? name) else environment.find? name := by
        cases text with
        | none => simp [setVariable]
        | some text =>
            change (environment.put first text).find? name = _
            rw [Table.find?_put]
            rfl
      rw [set]
      by_cases same : name = first
      · subst same
        simp [Table.lookup_eq_none distinct.1]
      · simp [same, beq_false_of_ne same]

theorem find?_applyTo (environment : Table String String) (assigned : Assignments)
    (name : String) :
    (applyTo environment assigned).find? name = effective? environment assigned name := by
  unfold applyTo effective?
  rw [find?_setVariables (Table.ofList _).keys_nodup, ← Table.find?_ofList]
  rfl

end VariableFile

namespace SettingsStore

variable {file : Value} {assigned : Assignments} {forced : Bool} {store : SettingsStore}
  {settings : Settings} {fault : Fault}

section Loads

variable [Host]

/-- Settings that are asked for are loaded from a file, and come to these. -/
def Loads (file : Value) (assigned : Assignments) (forced : Bool) (store : SettingsStore)
    (settings : Settings) : Prop :=
  ∃ number after, get (.ok file) assigned forced store = (.ok number, after) ∧
    after.settings number = settings

theorem get_of_due (due : forced = true ∨ store.shared = none) (file : Except Fault Value) :
    get file assigned forced store = load file assigned store := by
  unfold get
  rw [Act.read_bind]
  rcases due with rfl | unshared
  · cases store.shared <;> rfl
  · rw [unshared]

theorem load_of_ok (sourced : Settings.ofSources file (applyTo store.environment assigned) =
    .ok settings) :
    ∃ after, load (.ok file) assigned store = (.ok store.loaded.next, after) ∧
      after.settings store.loaded.next = settings := by
  refine ⟨_, Act.bind_of_ok (congrArg (·, _) sourced) _, ?_⟩
  change (store.loaded.push settings).get store.loaded.next = settings
  rw [Slots.get_push, if_pos rfl]

theorem load_of_error (failed : Settings.ofSources file (applyTo store.environment assigned) =
    .error fault) : ∃ after, load (.ok file) assigned store = (.error fault, after) :=
  ⟨_, Act.bind_of_error (congrArg (·, _) failed) _⟩

theorem loads_iff (due : forced = true ∨ store.shared = none) :
    Loads file assigned forced store settings ↔
      Settings.ofSources file (applyTo store.environment assigned) = .ok settings := by
  unfold Loads
  rw [get_of_due due]
  constructor
  · rintro ⟨number, after, run, rfl⟩
    rcases sourced : Settings.ofSources file (applyTo store.environment assigned) with
      fault | loaded
    · obtain ⟨_, failed⟩ := load_of_error sourced
      cases failed.symm.trans run
    · obtain ⟨_, answered, same⟩ := load_of_ok sourced
      cases answered.symm.trans run
      rw [same]
  · intro sourced
    obtain ⟨after, answered, same⟩ := load_of_ok sourced
    exact ⟨_, after, answered, same⟩

theorem sourced_of_fails (due : forced = true ∨ store.shared = none) {after : SettingsStore}
    (run : get (.ok file) assigned forced store = (.error fault, after)) :
    Settings.ofSources file (applyTo store.environment assigned) = .error fault := by
  rw [get_of_due due] at run
  rcases sourced : Settings.ofSources file (applyTo store.environment assigned) with
    other | loaded
  · obtain ⟨_, failed⟩ := load_of_error sourced
    cases failed.symm.trans run
    rfl
  · obtain ⟨_, answered, _⟩ := load_of_ok sourced
    cases answered.symm.trans run

/-- Where no section comes to a fault, the settings are loaded. -/
theorem exists_loads (assigned : Assignments) (store : SettingsStore)
    (due : forced = true ∨ store.shared = none)
    (answers : ∀ name, ∃ after, Section.layered (applyTo store.environment assigned)
      (name.entriesIn file) (.default name) = (.ok (), after)) :
    ∃ settings, Loads file assigned forced store settings := by
  rcases sourced : Settings.ofSources file (applyTo store.environment assigned) with
    fault | settings
  · obtain ⟨name, reached, failed⟩ := Settings.ofSources_eq_error sourced
    obtain ⟨after, answered⟩ := answers name
    cases failed.symm.trans answered
  · exact ⟨settings, (loads_iff due).2 sourced⟩

theorem Loads.field (loads : Loads file assigned true store settings)
    (plain : ∀ name : SectionName, Section.Plain (name.entriesIn file)) (name : SectionName)
    {entry : String × Value} (declared : entry ∈ name.declared) :
    (settings.get name).get entry.1 =
      Section.overlaid ((Section.given? (name.entriesIn file) entry.1).getD entry.2)
        (effective? store.environment assigned (Section.variableName name entry.1)) := by
  obtain ⟨after, run, fields⟩ :=
    (plain name).layered (applyTo store.environment assigned) name
  have sourced := Settings.ofSources_eq_ok ((loads_iff (.inl rfl)).1 loads) name
  cases run.symm.trans sourced
  rw [fields entry declared, find?_applyTo]

end Loads

/-- Where no variable is set, settings are loaded from a file just if the entries of its
sections can be assigned; every declared field then has the value in force under its own name,
or its default.  In a file in which all keys are texts and none of them is reserved, these are
the values that it gives; a load that fails had a key or a value of the wrong type, or a name
that cannot be written. -/
theorem loads_without_variables_iff [Host] (file : Value) (assigned : Assignments) (forced : Bool)
    (store : SettingsStore) (due : forced = true ∨ store.shared = none)
    (unset : ∀ name field, effective? store.environment assigned
      (Section.variableName name field) = none) :
    ((∃ settings, Loads file assigned forced store settings) ↔
      ∀ name : SectionName, Section.Assignable (name.entriesIn file)) ∧
    (∀ settings, Loads file assigned forced store settings →
      ∀ name : SectionName, ∀ entry ∈ name.declared, (settings.get name).get entry.1 =
        (Section.given? (Section.inForce (name.entriesIn file)) entry.1).getD entry.2) ∧
    ((∀ name : SectionName, Section.Plain (name.entriesIn file)) →
      ∃ settings, Loads file assigned forced store settings ∧
        ∀ name : SectionName, ∀ entry ∈ name.declared, (settings.get name).get entry.1 =
          (Section.given? (name.entriesIn file) entry.1).getD entry.2) ∧
    ∀ fault after, get (.ok file) assigned forced store = (.error fault, after) →
      fault = .wrongType ∨ fault = .readOnly := by
  have unset (name : SectionName) (field : String) :
      (applyTo store.environment assigned).find? (Section.variableName name field) = none := by
    rw [find?_applyTo]
    exact unset name field
  have loaded {settings : Settings} (loads : Loads file assigned forced store settings)
      (name : SectionName) :=
    Section.layered_eq_ok (unset name) (Settings.ofSources_eq_ok ((loads_iff due).1 loads) name)
  have loadable (assignable : ∀ name : SectionName, Section.Assignable (name.entriesIn file)) :
      ∃ settings, Loads file assigned forced store settings := by
    refine exists_loads assigned store due fun name => ?_
    rcases run : Section.layered (applyTo store.environment assigned) (name.entriesIn file)
      (.default name) with ⟨fault | _, after⟩
    · exact absurd (assignable name) (Section.layered_eq_error (unset name) run).1
    · exact ⟨after, rfl⟩
  refine ⟨⟨fun ⟨settings, loads⟩ name => (loaded loads name).1, loadable⟩,
    fun settings loads name => (loaded loads name).2, fun plain => ?_, fun fault after run => ?_⟩
  · obtain ⟨settings, loads⟩ := loadable fun name => (plain name).assignable
    refine ⟨settings, loads, fun name => ?_⟩
    rw [← (plain name).inForce]
    exact (loaded loads name).2
  · obtain ⟨name, reached, failed⟩ := Settings.ofSources_eq_error (sourced_of_fails due run)
    exact (Section.layered_eq_error (unset name) failed).2

/-- A name that no section answers to is passed over. -/
theorem loads_without_variables_owner :
    letI : Host := .customary
    let file : Value := .map [(.text "binning",
      .map [(.text "max_entries", .int 20), (.text "owner", .text "depot")])]
    ∃ settings, Loads file [] false {} settings ∧
      settings.binning.get "max_entries" = .int 20 ∧
      settings.binning.get "min_entries" = .int 1 := by
  let _ : Host := .customary
  intro file
  have plain (name : SectionName) : Section.Plain (name.entriesIn file) := by
    cases name
    · exact Section.plain_cons.2 ⟨by decide, Section.plain_cons.2 ⟨by decide, nofun⟩⟩
    · exact nofun
    · exact nofun
  obtain ⟨_, _, given, _⟩ :=
    loads_without_variables_iff file [] false {} (.inr rfl) fun _ _ => rfl
  obtain ⟨settings, loads, fields⟩ := given plain
  exact ⟨settings, loads,
    fields .binning ("max_entries", .int 1000) (SectionName.lookup_declared.1 rfl),
    fields .binning ("min_entries", .int 1) (SectionName.lookup_declared.1 rfl)⟩

/-- Names that are no field make a difference: a load fails for a key that is a number, for the
name of the type and for that of the references, and an entry under the name of all values
changes a field that has no entry. -/
theorem other_names_matter :
    letI : Host := .customary
    let file (key value : Value) : Value := .map [(.text "binning", .map [(key, value)])]
    (get (.ok (file (.int 5) (.int 1))) [] false {}).1 = .error .wrongType ∧
      (get (.ok (file (.text "__class__") .null)) [] false {}).1 = .error .wrongType ∧
      (get (.ok (file (.text "__weakref__") .null)) [] false {}).1 = .error .readOnly ∧
      ∃ settings,
        Loads (file (.text "__dict__") (.map [(.text "min_entries", .int 7)])) [] false {}
          settings ∧
        settings.binning.get "min_entries" = .int 7 :=
  ⟨rfl, rfl, rfl, _, ⟨_, _, rfl, rfl⟩, rfl⟩

/-- A forced load of a file in which all keys are texts and none of them is reserved gives
settings, whatever the variables.  Each declared field comes to what its own variable makes of
its own entry, or of its default, and is the same in every such load that agrees on the two. -/
theorem forced_load_layers_fields [Host] {file : Value}
    (plain : ∀ name : SectionName, Section.Plain (name.entriesIn file))
    (assigned : Assignments) (store : SettingsStore) :
    ∃ settings, Loads file assigned true store settings ∧
      ∀ name : SectionName, ∀ entry ∈ name.declared,
        (settings.get name).get entry.1 =
          Section.overlaid ((Section.given? (name.entriesIn file) entry.1).getD entry.2)
            (effective? store.environment assigned (Section.variableName name entry.1)) ∧
        ∀ file' assigned' store' settings',
          (∀ name : SectionName, Section.Plain (name.entriesIn file')) →
          Loads file' assigned' true store' settings' →
          Section.given? (name.entriesIn file') entry.1 =
            Section.given? (name.entriesIn file) entry.1 →
          effective? store'.environment assigned' (Section.variableName name entry.1) =
            effective? store.environment assigned (Section.variableName name entry.1) →
          (settings'.get name).get entry.1 = (settings.get name).get entry.1 := by
  obtain ⟨settings, loads⟩ := exists_loads assigned store (.inl rfl)
    fun name => ((plain name).layered _ name).imp fun _ => And.left
  refine ⟨settings, loads, fun name entry declared => ⟨?_, ?_⟩⟩
  · exact loads.field plain name declared
  · intro file' assigned' store' settings' plain' loads' sameEntry sameVariable
    rw [loads.field plain name declared, loads'.field plain' name declared, sameEntry,
      sameVariable]

/-- A variable of the file comes before one of the environment, which comes before an entry.  A
text that is no number is passed over, and so is a number of more digits than the host allows. -/
theorem forced_load_of_layers :
    letI : Host := .customary
    let sevens := String.ofList (List.replicate 4301 '7')
    let file : Value := .map [
      (.text "binning", .map [(.text "max_entries", .int 20), (.text "owner", .text "depot")]),
      (.text "scheduler", .map [(.text "concurrent_tasks", .int 2)])]
    let assigned : Assignments := [("BINFLOW_BINNING_MAX_ENTRIES", some "77")]
    let store : SettingsStore := {
      environment := Table.ofList [("BINFLOW_BINNING_MAX_ENTRIES", "50"),
        ("BINFLOW_BINNING_MIN_ENTRIES", sevens), ("BINFLOW_BINNING_MAX_SIZE", "2 KB"),
        ("BINFLOW_SCHEDULER_CONCURRENT_TASKS", "many")] }
    (∀ name : SectionName, Section.Plain (name.entriesIn file)) ∧
      ∃ settings, Loads file assigned true store settings ∧
        settings.binning.get "max_entries" = .int 77 ∧
        settings.binning.get "min_entries" = .int 1 ∧
        settings.binning.get "max_size" = .text "2 KB" ∧
        settings.scheduler.get "concurrent_tasks" = .int 2 := by
  let _ : Host := .customary
  intro sevens file assigned store
  have plain (name : SectionName) : Section.Plain (name.entriesIn file) := by
    cases name
    · exact Section.plain_cons.2 ⟨by decide, Section.plain_cons.2 ⟨by decide, nofun⟩⟩
    · exact Section.plain_cons.2 ⟨by decide, nofun⟩
    · exact nofun
  have passed : Section.overlaid (.int 1) (some sevens) = .int 1 := by
    have many : Host.allows (List.replicate 4301 '7').length = false := by
      rw [List.length_replicate]
      decide
    have converts := @Section.convert?_of_digits _ 1 (List.replicate 4301 '7')
      (List.cons_ne_nil _ _) fun digit member => List.eq_of_mem_replicate member ▸ by decide
    rw [Section.overlaid_some, converts, many]
    rfl
  obtain ⟨settings, loads, fields⟩ := forced_load_layers_fields plain assigned store
  have layers (name : SectionName) {field : String} (text : String) {default value : Value}
      (declared : name.declared.lookup field = some default)
      (isText : effective? store.environment assigned (Section.variableName name field) =
        some text)
      (overlaid : Section.overlaid ((Section.given? (name.entriesIn file) field).getD default)
        (some text) = value) : (settings.get name).get field = value := by
    rw [(fields name (field, default) (SectionName.lookup_declared.1 declared)).1, isText, overlaid]
  unfold file assigned store at layers
  exact ⟨plain, settings, loads, layers .binning "77" rfl rfl rfl,
    layers .binning sevens rfl rfl passed, layers .binning "2 KB" rfl rfl rfl,
    layers .scheduler "many" rfl rfl rfl⟩

end SettingsStore

end ItemBinning
