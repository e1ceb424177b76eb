import ItemBinning.Proofs.Settings.Entries
import ItemBinning.Proofs.Settings.Numbers

/-!
# What variables make of a section

Every value that a section holds is laid under the variable named for it.  Where all of them
are held under names that can be assigned, each field comes to what its own variable makes of
its own value, whichever field comes first, and the other fields are as they were.
-/

namespace ItemBinning.Section

/-- What a variable makes of a value.  A text that does not convert to the type of the value
leaves it as it is. -/
def overlaid [Host] (base : Value) : Option String → Value
  | none => base
  | some text => (convert? base text).getD base

/-- The fields are overlaid by their variables, and all else is as it was. -/
structure Overlays [Host] (environment : Table String String) (fields : List String)
    (settings after : Section) : Prop where
  name : after.name = settings.name
  keys : after.held.keys = settings.held.keys
  hasOtherKeys : after.hasOtherKeys = settings.hasOtherKeys
  get : ∀ field, after.get field =
    if field ∈ fields then
      overlaid (settings.get field) (environment.find? (variableName settings.name field))
    else settings.get field

/-- The section holds all declared fields, and nothing under a name that cannot be assigned. -/
structure Whole (settings : Section) : Prop where
  declared : ∀ entry ∈ settings.name.declared, entry.1 ∈ settings.held.keys
  free : ∀ field ∈ settings.held.keys, field ∉ reservedNames
  texts : settings.hasOtherKeys = false

variable {environment : Table String String} {settings after : Section}
  {entries : List (Value × Value)} {name field : String} {key value : Value}

theorem keys_set_of_mem (held : name ∈ settings.held.keys) :
    (settings.set name value).held.keys = settings.held.keys := by
  change (settings.held.put name value).keys = _
  rw [Table.keys_put, if_pos held]

section Overriding

variable [Host]

theorem overlaid_some (base : Value) (text : String) :
    overlaid base (some text) = (convert? base text).getD base :=
  rfl

/-- A run of digits converts to an integer if the host allows so many. -/
theorem convert?_of_digits {base : Int} {digits : List Char} (some : digits ≠ [])
    (areDigits : ∀ digit ∈ digits, Text.isDecimalDigit digit = true) :
    convert? (.int base) (String.ofList digits) =
      if Host.allows digits.length then .some (.int (Text.digitsValue digits)) else none := by
  change (Decimal.Numeral.integer? Text.isDecimalDigit (String.ofList digits)).map Value.int = _
  rw [Decimal.Numeral.integer?_of_digits some areDigits]
  split <;> rfl

theorem overlays_nothing : Overlays environment [] settings settings :=
  ⟨rfl, rfl, rfl, fun field => by rw [if_neg List.not_mem_nil]⟩

theorem overrideField_of_unset
    (unset : environment.find? (variableName settings.name field) = none) :
    overrideField environment field settings = (.ok (), settings) := by
  unfold overrideField
  refine (Act.bind_of_ok rfl _).trans ?_
  rw [unset]
  rfl

theorem overrideField_of_text {text : String} (free : field ∉ reservedNames)
    (isText : environment.find? (variableName settings.name field) = some text) :
    overrideField environment field settings =
      (.ok (), match convert? (settings.get field) text with
        | some value => settings.set field value
        | none => settings) := by
  have ordinary : ¬ (field = typeKey ∨ field = valuesKey) := by
    rintro (rfl | rfl) <;> exact free (by decide)
  have writable : field ≠ referencesKey := by
    rintro rfl
    exact free (by decide)
  unfold overrideField
  refine (Act.bind_of_ok rfl _).trans ?_
  rw [isText]
  dsimp only
  rw [if_neg ordinary, if_neg writable]
  cases convert? (settings.get field) text <;> rfl

/-- One field is overlaid by its variable. -/
theorem overrideField_apply (environment : Table String String)
    (held : field ∈ settings.held.keys) (free : field ∉ reservedNames) :
    ∃ after, overrideField environment field settings = (.ok (), after) ∧
      Overlays environment [field] settings after := by
  have unchanged (same : overlaid (settings.get field)
      (environment.find? (variableName settings.name field)) = settings.get field) :
      Overlays environment [field] settings settings := by
    refine ⟨rfl, rfl, rfl, fun other => ?_⟩
    split
    · rename_i isField
      rw [List.mem_singleton.1 isField, same]
    · rfl
  rcases isText : environment.find? (variableName settings.name field) with _ | text
  · exact ⟨settings, overrideField_of_unset isText, unchanged (by rw [isText]; rfl)⟩
  refine ⟨_, overrideField_of_text free isText, ?_⟩
  rcases converts : convert? (settings.get field) text with _ | value
  · refine unchanged ?_
    rw [isText, overlaid_some, converts]
    rfl
  · refine ⟨rfl, keys_set_of_mem held, rfl, fun other => ?_⟩
    rw [get_set]
    simp only [List.mem_singleton]
    split
    · rename_i isField
      rw [isField, isText, overlaid_some, converts]
      rfl
    · rfl

/-- Fields that are overlaid one after the other do not stand in each other's way. -/
theorem Overlays.then {between : Section} {fields : List String}
    (first : Overlays environment [field] settings between) (fresh : field ∉ fields)
    (rest : Overlays environment fields between after) :
    Overlays environment (field :: fields) settings after := by
  refine ⟨rest.name.trans first.name, rest.keys.trans first.keys,
    rest.hasOtherKeys.trans first.hasOtherKeys, fun other => ?_⟩
  rw [rest.get, first.get, first.name]
  by_cases isField : other = field
  · subst isField
    simp [fresh]
  · simp [isField]

theorem overrideFields_apply (environment : Table String String) {fields : List String}
    (distinct : fields.Nodup) (held : ∀ field ∈ fields, field ∈ settings.held.keys)
    (free : ∀ field ∈ fields, field ∉ reservedNames) :
    ∃ after, Act.forEach fields (overrideField environment) settings = (.ok (), after) ∧
      Overlays environment fields settings after := by
  induction fields generalizing settings with
  | nil => exact ⟨settings, rfl, overlays_nothing⟩
  | cons field fields ih =>
      rw [List.forall_mem_cons] at held free
      obtain ⟨fresh, distinct⟩ := List.nodup_cons.1 distinct
      obtain ⟨between, run, first⟩ :=
        overrideField_apply environment held.1 free.1
      -- The fields that are left are still held, as overriding one keeps the keys.
      obtain ⟨after, runs, rest⟩ := ih distinct (by rw [first.keys]; exact held.2) free.2
      exact ⟨after, (Act.bind_of_ok run _).trans runs, first.then fresh rest⟩

/-- A whole section is overridden without a fault, field by field. -/
theorem Whole.override_apply (whole : Whole settings) (environment : Table String String) :
    ∃ after, override environment settings = (.ok (), after) ∧
      Overlays environment settings.held.keys settings after := by
  obtain ⟨after, run, overlays⟩ :=
    overrideFields_apply environment settings.held.nodup_keys (fun _ => id) whole.free
  refine ⟨after, ?_, overlays⟩
  change (Act.forEach settings.held.keys (overrideField environment) >>= _) settings = _
  rw [Act.bind_of_ok run, whole.texts]
  rfl

/-- Without variables a section is left as it is, and refused if it was given values under
keys that are no texts. -/
theorem override_of_unset
    (unset : ∀ field, environment.find? (variableName settings.name field) = none) :
    override environment settings =
      (if settings.hasOtherKeys then .error .readOnly else .ok (), settings) := by
  have passed (fields : List String) :
      Act.forEach fields (overrideField environment) settings = (.ok (), settings) := by
    induction fields with
    | nil => rfl
    | cons field fields ih =>
        exact (Act.bind_of_ok (overrideField_of_unset (unset field)) _).trans ih
  change (Act.forEach settings.held.keys (overrideField environment) >>= _) settings = _
  rw [Act.bind_of_ok (passed _)]
  split <;> rfl

end Overriding

section Laying

theorem whole_default (name : SectionName) : Whole (default name) := by
  have keys : (default name).held.keys = name.declared.map Prod.fst := by
    cases name <;> rfl
  refine ⟨fun entry declared => ?_, fun field held => ?_, rfl⟩
  · rw [keys]
    exact List.mem_map_of_mem declared
  · rw [keys] at held
    obtain ⟨entry, declared, rfl⟩ := List.mem_map.1 held
    exact declared_not_reserved name entry declared

theorem Whole.set (whole : Whole settings) (free : name ∉ reservedNames) :
    Whole (settings.set name value) := by
  have held {field : String} : field ∈ (settings.set name value).held.keys ↔
      field ∈ settings.held.keys ∨ field = name := by
    change field ∈ (settings.held.put name value).keys ↔ _
    rw [Table.keys_put]
    split
    · rename_i present
      exact ⟨.inl, fun either => either.elim id fun isName => isName ▸ present⟩
    · simp
  refine ⟨fun entry declared => held.2 (.inl (whole.declared entry declared)),
    fun field isHeld => ?_, whole.texts⟩
  rcases held.1 isHeld with before | rfl
  · exact whole.free field before
  · exact free

/-- Plain entries are all assigned, and leave a whole section whole. -/
theorem Whole.assignAll (whole : Whole settings) (plain : Plain entries) :
    ∃ after, assignAll entries settings = (.ok (), after) ∧ Whole after := by
  induction entries generalizing settings with
  | nil => exact ⟨settings, rfl, whole⟩
  | cons entry rest ih =>
      obtain ⟨fault, refused, _⟩ | ⟨_, isValues, _⟩ | ⟨name, isText, free, assigned⟩ :=
        assign_cases settings entry.1 entry.2
      · exact absurd refused (plain.not_refused List.mem_cons_self)
      · obtain ⟨name, isText, free⟩ := plain entry List.mem_cons_self
        cases isText.symm.trans isValues
        exact absurd (by decide) free
      · have still : Whole (if settings.answersTo name then settings.set name entry.2
            else settings) := by
          split
          · exact whole.set free
          · exact whole
        obtain ⟨after, run, kept⟩ :=
          ih still fun entry member => plain entry (List.mem_cons_of_mem _ member)
        exact ⟨after, (Act.bind_of_ok assigned _).trans run, kept⟩

/-- Entries are assigned to the defaults, and variables are laid over them. -/
def layered [Host] (environment : Table String String) (entries : List (Value × Value)) :
    Act Section Unit := do
  assignAll entries
  override environment

/-- Each field comes to what its variable makes of its entry or default. -/
theorem Plain.layered [Host] (plain : Plain entries) (environment : Table String String)
    (name : SectionName) :
    ∃ after, layered environment entries (default name) = (.ok (), after) ∧
      ∀ entry ∈ name.declared, after.get entry.1 =
        overlaid ((given? entries entry.1).getD entry.2)
          (environment.find? (variableName name entry.1)) := by
  obtain ⟨between, run, whole⟩ := (whole_default name).assignAll plain
  obtain ⟨named, shows, _⟩ := (shows_default name).assignAll run
  rw [plain.foldl_laid, List.nil_append] at shows
  obtain ⟨after, overridden, overlays⟩ := whole.override_apply environment
  refine ⟨after, (Act.bind_of_ok run _).trans overridden, fun entry declared => ?_⟩
  -- The section holds the field, so that its variable is asked for.
  have here : entry ∈ between.name.declared := by
    rw [named]
    exact declared
  rw [overlays.get, if_pos (whole.declared entry here), shows.fields entry here, named]
  rfl

variable {name : SectionName} {fault : Fault}

/-- Without variables each field comes to the entry in force under its name, or its default,
and the entries were assignable. -/
theorem layered_eq_ok [Host] (unset : ∀ field, environment.find? (variableName name field) = none)
    (run : layered environment entries (default name) = (.ok (), after)) :
    Assignable entries ∧ ∀ entry ∈ name.declared,
      after.get entry.1 = (given? (inForce entries) entry.1).getD entry.2 := by
  obtain ⟨_, between, assigned, overridden⟩ := Act.bind_eq_ok run
  obtain ⟨named, shows, accepted⟩ := (shows_default name).assignAll assigned
  have named : between.name = name := named
  rw [override_of_unset (by rw [named]; exact unset)] at overridden
  obtain ⟨outcome, rfl⟩ := Prod.mk.inj overridden
  refine ⟨⟨accepted, shows.texts.1 ?_⟩, fun entry declared => ?_⟩
  · by_contra other
    rw [Bool.not_eq_false] at other
    rw [if_pos other] at outcome
    cases outcome
  · exact shows.fields entry (by rw [named]; exact declared)

/-- Without variables only entries that are not assignable lead to a fault. -/
theorem layered_eq_error [Host]
    (unset : ∀ field, environment.find? (variableName name field) = none)
    (run : layered environment entries (default name) = (.error fault, after)) :
    ¬ Assignable entries ∧ (fault = .wrongType ∨ fault = .readOnly) := by
  obtain failed | ⟨_, between, assigned, overridden⟩ := Act.bind_eq_error_iff.1 run
  · obtain ⟨entry, member, refused⟩ := refused_of_assignAll failed
    refine ⟨fun assignable => assignable.1 entry member fault refused, ?_⟩
    cases refused <;> simp
  · obtain ⟨named, shows, _⟩ := (shows_default name).assignAll assigned
    have named : between.name = name := named
    rw [override_of_unset (by rw [named]; exact unset)] at overridden
    obtain ⟨outcome, rfl⟩ := Prod.mk.inj overridden
    split at outcome
    · rename_i other
      cases outcome
      refine ⟨fun assignable => ?_, .inr rfl⟩
      rw [shows.texts.2 assignable.2] at other
      cases other
    · cases outcome

end Laying

end ItemBinning.Section
