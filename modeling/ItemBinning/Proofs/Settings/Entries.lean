import ItemBinning.Proofs.Contract
import ItemBinning.Proofs.Storage
import ItemBinning.Settings
import Mathlib.Data.List.Induction

/-!
# What assigned entries make of a section

The entries of a map are assigned to a section one after the other.  A declared field has the
last value that was given under its name, and its default if none was.  Other names make no
difference to it, but for one: a map under the name of all values replaces what was given
before.  An entry is refused, and the assignment ends, where its key is no text or its name is
one of those that cannot be assigned.
-/

namespace ItemBinning

/-- Of the entries that a table is made of, the last one under a key counts. -/
theorem Table.find?_ofList {κ α : Type} [DecidableEq κ] (entries : List (κ × α)) (key : κ) :
    (Table.ofList entries).find? key = entries.reverse.lookup key := by
  induction entries using List.reverseRecOn with
  | nil => rfl
  | append_singleton entries entry ih =>
      have put : Table.ofList (entries ++ [entry]) =
          (Table.ofList entries).put entry.1 entry.2 := by
        unfold Table.ofList
        rw [List.foldl_append]
        rfl
      rw [put, Table.find?_put, ih, List.reverse_concat, List.lookup_cons]
      by_cases same : key = entry.1 <;> simp [same, beq_false_of_ne]

namespace SectionName

theorem nodup_declared (name : SectionName) : (name.declared.map Prod.fst).Nodup := by
  cases name <;> decide

theorem lookup_declared {name : SectionName} {field : String} {default : Value} :
    name.declared.lookup field = some default ↔ (field, default) ∈ name.declared :=
  Table.lookup_eq_some_iff name.nodup_declared

theorem declares_of_mem {name : SectionName} {entry : String × Value}
    (declared : entry ∈ name.declared) : name.declares entry.1 = true := by
  unfold declares
  rw [lookup_declared.2 declared]
  rfl

end SectionName

namespace Section

/-- The names that cannot be assigned like others. -/
def reservedNames : List String := [typeKey, valuesKey, referencesKey]

theorem declared_not_reserved (name : SectionName) :
    ∀ entry ∈ name.declared, entry.1 ∉ reservedNames := by
  cases name <;> decide

/-- The value given under a name; of several entries under it the last one counts. -/
def given? (entries : List (Value × Value)) (field : String) : Option Value :=
  (textEntries entries).reverse.lookup field

/-- All keys are texts. -/
def TextKeys (entries : List (Value × Value)) : Prop :=
  ∀ entry ∈ entries, ∃ name, entry.1 = .text name

/-- All keys are texts, and none of them is reserved. -/
def Plain (entries : List (Value × Value)) : Prop :=
  ∀ entry ∈ entries, ∃ name, entry.1 = .text name ∧ name ∉ reservedNames

/-- An entry that cannot be assigned. -/
inductive Refused : Value × Value → Fault → Prop
  | key {key : Value} (value : Value) (other : ∀ name, key ≠ .text name) :
      Refused (key, value) .wrongType
  | type (value : Value) : Refused (.text typeKey, value) .wrongType
  | values {value : Value} (other : ∀ entries, value ≠ .map entries) :
      Refused (.text valuesKey, value) .wrongType
  | references (value : Value) : Refused (.text referencesKey, value) .readOnly

/-- The entries in force after one more: a map under the name of all values stands in place of
those before it. -/
def laid (entries : List (Value × Value)) : Value × Value → List (Value × Value)
  | (.text name, .map replacing) =>
      if name = valuesKey then replacing else entries ++ [(.text name, .map replacing)]
  | entry => entries ++ [entry]

/-- The entries in force once all are assigned. -/
def inForce (entries : List (Value × Value)) : List (Value × Value) :=
  entries.foldl laid []

/-- The entries can be assigned, and those in force have texts for keys. -/
def Assignable (entries : List (Value × Value)) : Prop :=
  (∀ entry ∈ entries, ∀ fault, ¬ Refused entry fault) ∧ TextKeys (inForce entries)

variable {settings after : Section} {entries rest : List (Value × Value)}
  {name field : String} {key value : Value} {fault : Fault}

section Entries

theorem textEntries_concat : textEntries (entries ++ [(.text name, value)]) =
    textEntries entries ++ [(name, value)] := by
  simp [textEntries]

theorem given?_concat : given? (entries ++ [(.text name, value)]) field =
    if field = name then some value else given? entries field := by
  unfold given?
  rw [textEntries_concat, List.reverse_concat, List.lookup_cons]
  by_cases same : field = name <;> simp [same, beq_false_of_ne]

theorem textKeys_concat : TextKeys (entries ++ [(.text name, value)]) ↔ TextKeys entries := by
  unfold TextKeys
  simp [or_imp, forall_and]

theorem textKeys_iff : TextKeys entries ↔ (textEntries entries).length = entries.length := by
  unfold TextKeys textEntries
  rw [List.filterMap_length_eq_length]
  refine forall₂_congr fun entry _ => ?_
  obtain ⟨key, value⟩ := entry
  cases key <;> simp

theorem laid_of_ne (other : name ≠ valuesKey) :
    laid entries (.text name, value) = entries ++ [(.text name, value)] := by
  cases value <;> simp [laid, other]

theorem plain_cons : Plain ((.text name, value) :: entries) ↔
    name ∉ reservedNames ∧ Plain entries := by
  unfold Plain
  simp

theorem Plain.not_refused (plain : Plain entries) {entry : Value × Value}
    (member : entry ∈ entries) : ¬ Refused entry fault := by
  obtain ⟨name, isText, free⟩ := plain entry member
  intro refused
  cases refused with
  | key _ other => exact other name isText
  | type | values | references =>
      cases isText
      exact free (by decide)

theorem Plain.foldl_laid (plain : Plain entries) (before : List (Value × Value)) :
    entries.foldl laid before = before ++ entries := by
  induction entries generalizing before with
  | nil => simp
  | cons entry rest ih =>
      obtain ⟨name, isText, free⟩ := plain entry List.mem_cons_self
      obtain ⟨key, value⟩ := entry
      cases isText
      have other : name ≠ valuesKey := by
        rintro rfl
        exact free (by decide)
      rw [List.foldl_cons, laid_of_ne other,
        ih (fun entry member => plain entry (List.mem_cons_of_mem _ member)), List.append_assoc]
      rfl

theorem Plain.inForce (plain : Plain entries) : inForce entries = entries :=
  plain.foldl_laid []

theorem Plain.assignable (plain : Plain entries) : Assignable entries := by
  refine ⟨fun entry member fault => plain.not_refused member, ?_⟩
  rw [plain.inForce]
  intro entry member
  obtain ⟨name, isText, _⟩ := plain entry member
  exact ⟨name, isText⟩

end Entries

section Assigning

/-- The section shows the entries: each declared field has the value that was given under its
name, or its default. -/
structure Shows (settings : Section) (entries : List (Value × Value)) : Prop where
  fields : ∀ entry ∈ settings.name.declared,
    settings.get entry.1 = (given? entries entry.1).getD entry.2
  texts : settings.hasOtherKeys = false ↔ TextKeys entries

theorem get_of_declared {entry : String × Value} (declared : entry ∈ settings.name.declared) :
    settings.get entry.1 = (settings.held.find? entry.1).getD entry.2 := by
  unfold get
  rw [SectionName.lookup_declared.2 declared]
  rfl

theorem get_set : (settings.set name value).get field =
    if field = name then value else settings.get field := by
  unfold get set
  dsimp only
  rw [Table.find?_put]
  split <;> rfl

theorem shows_default (name : SectionName) : Shows (default name) [] := by
  refine ⟨fun entry declared => ?_, ⟨fun _ => nofun, fun _ => rfl⟩⟩
  have found : (default name).held.find? entry.1 = some entry.2 := by
    refine Table.find?_eq_some_iff.2 ?_
    cases name <;> exact declared
  rw [get_of_declared declared, found]
  rfl

theorem Shows.set (shows : Shows settings entries) :
    Shows (if settings.answersTo name then settings.set name value else settings)
      (entries ++ [(.text name, value)]) := by
  refine ⟨fun entry declared => ?_, ?_⟩
  · have same : (if settings.answersTo name then settings.set name value
        else settings).name = settings.name := by
      split <;> rfl
    rw [same] at declared
    rw [given?_concat]
    by_cases isName : entry.1 = name
    · have answers : settings.answersTo name = true := by
        unfold answersTo
        rw [← isName, SectionName.declares_of_mem declared]
        rfl
      rw [if_pos answers, if_pos isName, get_set, if_pos isName]
      rfl
    · rw [if_neg isName]
      split
      · rw [get_set, if_neg isName]
        exact shows.fields entry declared
      · exact shows.fields entry declared
  · rw [textKeys_concat, ← shows.texts]
    split <;> rfl

theorem shows_replaceAll (settings : Section) (entries : List (Value × Value)) :
    Shows (settings.replaceAll entries) entries := by
  refine ⟨fun entry declared => ?_, ?_⟩
  · rw [get_of_declared declared]
    change ((Table.ofList (textEntries entries)).find? entry.1).getD entry.2 = _
    rw [Table.find?_ofList]
    rfl
  · rw [textKeys_iff]
    have most : (textEntries entries).length ≤ entries.length := List.length_filterMap_le _ _
    change decide ((textEntries entries).length < entries.length) = false ↔ _
    rw [decide_eq_false_iff_not]
    omega

/-- An entry is refused, or replaces all values, or is set where the section answers to its
name. -/
theorem assign_cases (settings : Section) (key value : Value) :
    (∃ fault, Refused (key, value) fault ∧ assign key value settings = (.error fault, settings)) ∨
    (∃ replacing, key = .text valuesKey ∧ value = .map replacing ∧
      assign key value settings = (.ok (), settings.replaceAll replacing)) ∨
    ∃ name, key = .text name ∧ name ∉ reservedNames ∧ assign key value settings =
      (.ok (), if settings.answersTo name then settings.set name value else settings) := by
  cases key with
  | text name =>
      unfold assign
      by_cases isType : name = typeKey
      · subst isType
        exact .inl ⟨_, .type value, rfl⟩
      by_cases isValues : name = valuesKey
      · subst isValues
        cases value with
        | map replacing => exact .inr (.inl ⟨replacing, rfl, rfl, rfl⟩)
        | _ => exact .inl ⟨_, .values nofun, rfl⟩
      by_cases isReferences : name = referencesKey
      · subst isReferences
        exact .inl ⟨_, .references value, rfl⟩
      refine .inr (.inr ⟨name, rfl, by simp [reservedNames, *], ?_⟩)
      dsimp only
      rw [if_neg isType, if_neg isValues, if_neg isReferences, Act.read_bind]
      split <;> rfl
  | _ => exact .inl ⟨_, .key value nofun, rfl⟩

theorem assign_of_refused (refused : Refused (key, value) fault) :
    assign key value settings = (.error fault, settings) := by
  cases refused with
  | type | references => rfl
  | key _ other =>
      cases key with
      | text name => exact absurd rfl (other name)
      | _ => rfl
  | values other =>
      cases value with
      | map replacing => exact absurd rfl (other replacing)
      | _ => rfl

/-- One entry after those that a section shows. -/
theorem Shows.assign (shows : Shows settings entries)
    (run : assign key value settings = (.ok (), after)) :
    after.name = settings.name ∧ Shows after (laid entries (key, value)) := by
  obtain ⟨fault, _, failed⟩ | ⟨replacing, rfl, rfl, replaced⟩ | ⟨name, rfl, free, assigned⟩ :=
    assign_cases settings key value
  · cases failed.symm.trans run
  · cases replaced.symm.trans run
    exact ⟨rfl, shows_replaceAll settings replacing⟩
  · cases assigned.symm.trans run
    have other : name ≠ valuesKey := by
      rintro rfl
      exact free (by decide)
    refine ⟨by split <;> rfl, ?_⟩
    rw [laid_of_ne other]
    exact shows.set

/-- Entries that are all assigned are shown, and none of them is refused. -/
theorem Shows.assignAll (shows : Shows settings entries)
    (run : assignAll rest settings = (.ok (), after)) :
    after.name = settings.name ∧ Shows after (rest.foldl laid entries) ∧
      ∀ entry ∈ rest, ∀ fault, ¬ Refused entry fault := by
  -- The section shows the entries in force so far; a refused one would have ended the run.
  induction rest generalizing settings entries with
  | nil =>
      cases run
      exact ⟨rfl, shows, nofun⟩
  | cons entry rest ih =>
      obtain ⟨_, reached, first, run⟩ := Act.bind_eq_ok run
      obtain ⟨named, shows⟩ := shows.assign first
      obtain ⟨named', shows, accepted⟩ := ih shows run
      refine ⟨named'.trans named, shows, List.forall_mem_cons.2 ⟨fun fault refused => ?_, accepted⟩⟩
      cases (assign_of_refused refused).symm.trans first

/-- An assignment of entries that fails has come to a refused one. -/
theorem refused_of_assignAll (run : assignAll entries settings = (.error fault, after)) :
    ∃ entry ∈ entries, Refused entry fault := by
  induction entries generalizing settings with
  | nil => cases run
  | cons entry rest ih =>
      obtain failed | ⟨_, reached, _, run⟩ := Act.bind_eq_error_iff.1 run
      · obtain ⟨other, refused, refusal⟩ | ⟨_, _, _, replaced⟩ | ⟨_, _, _, assigned⟩ :=
          assign_cases settings entry.1 entry.2
        · cases refusal.symm.trans failed
          exact ⟨entry, List.mem_cons_self, refused⟩
        · cases replaced.symm.trans failed
        · cases assigned.symm.trans failed
      · obtain ⟨entry, member, refused⟩ := ih run
        exact ⟨entry, List.mem_cons_of_mem _ member, refused⟩

end Assigning

end Section

end ItemBinning
