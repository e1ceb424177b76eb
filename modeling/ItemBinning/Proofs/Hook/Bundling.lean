import ItemBinning.Hook.Processor
import ItemBinning.Proofs.Hook.Preparation

/-!
# Tags of a bundle

The bundle processor takes the next number and answers four texts, each under a name of its
own that its label begins: an id made of the number, how many items there are in the bin, how
large they are together, and the group of the bin.  If the group is no text it answers a
text in its place, or it refuses the bin.
-/

namespace ItemBinning

open Decimal (integerText)

theorem Value.eq_text_of_key?_named {value : Value} {name : String}
    (isKey : value.key? = some (.named name)) : value = .text name := by
  cases value with
  | text given =>
      cases isKey
      rfl
  | number number =>
      cases number with
      | int whole => cases isKey
      | float held =>
          simp only [Value.key?, Number.key, Option.some.injEq] at isKey
          split at isKey
          · split at isKey <;> cases isKey
          · cases isKey
  | null | bool | list | map => cases isKey

/-- The text that an item has under a name that a label begins. -/
def Item.tag? (label name : String) (item : Item) : Option String :=
  (item.attributes.find? (label ++ name)).bind TypedField.text?

theorem Item.tag?_withAttributes {attributes : Attributes} {label name text : String}
    (found : attributes.find? (label ++ name) = some (.text text)) (item : Item) :
    (item.withAttributes attributes).tag? label name = some text := by
  unfold tag? withAttributes
  rw [Table.find?_merge, found]
  rfl

namespace Processor

theorem bundleId_injective {first second : Nat} (same : bundleId first = bundleId second) :
    first = second := by
  have spelled (number : Nat) :
      bundleId number = "b" ++ String.ofList (Nat.toDigits 10 (number + 1)) := rfl
  rw [spelled, spelled, String.append_right_inj, String.ofList_inj] at same
  have read := congrArg (Nat.ofDigitChars 10 · 0) same
  simp only [Nat.ofDigitChars_ten_toDigits] at read
  exact Nat.succ.inj read

/-- The texts under the names of a bundle; a group that is a text stands as it is. -/
structure Tags (label id count size : String) (group : Value) (attributes : Attributes) :
    Prop where
  id : attributes.find? (label ++ ".id") = some (.text id)
  count : attributes.find? (label ++ ".count") = some (.text count)
  size : attributes.find? (label ++ ".size") = some (.text size)
  group : ∀ text, group = .text text → attributes.find? (label ++ ".group") = some (.text text)

theorem tags_bundleAttributes (label : String) (number : Nat) (bin : Bin) :
    Tags label (bundleId number) (integerText bin.entryCount) bin.size.text bin.group
      (bundleAttributes label number bin) := by
  constructor
  case group =>
    intro text isText
    have stands : (if bin.group.isTruthy then bin.group else .text "") = .text text := by
      rw [isText]
      by_cases none : text = ""
      · rw [none]
        rfl
      · simp [Value.isTruthy, none]
    simp [bundleAttributes, Table.ofList, Table.find?_put, stands]
  all_goals simp [bundleAttributes, Table.ofList, Table.find?_put]

theorem uses_checkedOutcome (attributes : Attributes) :
    (checkedOutcome attributes).Uses Call.Aside := by
  unfold checkedOutcome
  split <;> trivial

theorem uses_bundle [Host] (label : String) (bin : BinId) :
    ((bundle label).script bin).Uses Call.Aside := by
  intro depot
  refine ⟨trivial, fun outcome => ?_⟩
  cases outcome with
  | ok number =>
      change Script.Uses _ (if _ then _ else _)
      split
      · exact uses_checkedOutcome _
      · trivial
  | error fault => trivial

/-- A bin is tagged with the next number, or it is refused: for a group that is no text, or for
a size of more digits than the host allows. -/
theorem run_bundle [Host] (label : String) (bin : BinId) (depot : Depot) :
    ∃ answer, ((bundle label).script bin).run depot =
        (answer, { depot with bundles := depot.bundles + 1 }) ∧
      (answer = .error (.badFields ["attributes"]) ∨
        ((depot.bin bin).size.isWritable = false ∧ answer = .error .unwritableInteger) ∨
        answer = .ok (some
          { attributes := bundleAttributes label depot.bundles (depot.bin bin) })) := by
  change ∃ answer, Script.run (if (depot.bin bin).size.isWritable then
    checkedOutcome (bundleAttributes label depot.bundles (depot.bin bin))
    else .fail .unwritableInteger) { depot with bundles := depot.bundles + 1 } = _ ∧ _
  split
  · unfold checkedOutcome
    split
    · exact ⟨_, rfl, .inr (.inr rfl)⟩
    · exact ⟨_, rfl, .inl rfl⟩
  · rename_i unwritable
    exact ⟨_, rfl, .inr (.inl ⟨Bool.eq_false_iff.2 unwritable, rfl⟩)⟩

end Processor

end ItemBinning
