import ItemBinning.Slots
import ItemBinning.Table
import Mathlib.Algebra.BigOperators.Group.List.Basic
import Mathlib.Algebra.GroupWithZero.Nat
import Mathlib.Data.List.Nodup
import Mathlib.Tactic.Common

/-!
# What tables and slots hold

A table is determined by what it holds under each key and a sequence of slots by
what stands in each slot.  For both there is a total of a measure over all that
is held: putting one value in place of another changes the total by the
difference of their measures and by nothing else.
-/

namespace ItemBinning

namespace Table

variable {κ α β : Type}

@[simp] theorem keys_mapValues (table : Table κ α) (change : κ → α → β) :
    (table.mapValues change).keys = table.keys := by
  simp [mapValues, keys, List.map_map, Function.comp_def]

theorem nodup_keys (table : Table κ α) : table.keys.Nodup :=
  table.keys_nodup

/-- The sum of a measure over the entries of a table. -/
def total (measure : κ → α → Nat) (table : Table κ α) : Nat :=
  (table.entries.map fun entry => measure entry.1 entry.2).sum

@[simp] theorem total_empty (measure : κ → α → Nat) :
    (empty : Table κ α).total measure = 0 :=
  rfl

theorem total_mapValues (table : Table κ α) (change : κ → α → β)
    (measure : κ → β → Nat) :
    (table.mapValues change).total measure =
      table.total fun key value => measure key (change key value) := by
  simp [mapValues, total, List.map_map, Function.comp_def]

theorem total_add (table : Table κ α) (first second : κ → α → Nat) :
    table.total (fun key value => first key value + second key value) =
      table.total first + table.total second :=
  List.sum_map_add

variable [DecidableEq κ]

theorem lookup_eq_none {entries : List (κ × α)} {key : κ}
    (absent : key ∉ entries.map Prod.fst) : entries.lookup key = none := by
  rw [List.lookup_eq_none_iff]
  intro entry member
  have differs : key ≠ entry.1 := fun same =>
    absent (same ▸ List.mem_map_of_mem member)
  simpa using differs

theorem lookup_eq_some_iff {entries : List (κ × α)}
    (distinct : (entries.map Prod.fst).Nodup) {key : κ} {value : α} :
    entries.lookup key = some value ↔ (key, value) ∈ entries := by
  induction entries with
  | nil => simp
  | cons entry rest ih =>
      obtain ⟨first, held⟩ := entry
      rw [List.map_cons, List.nodup_cons] at distinct
      by_cases same : key = first
      · subst same
        have absent : (key, value) ∉ rest := fun member =>
          distinct.1 (List.mem_map.2 ⟨_, member, rfl⟩)
        simp [absent, eq_comm]
      · rw [List.lookup_cons, beq_false_of_ne same]
        simp [ih distinct.2, same]

theorem find?_eq_some_iff {table : Table κ α} {key : κ} {value : α} :
    table.find? key = some value ↔ (key, value) ∈ table.entries :=
  lookup_eq_some_iff table.keys_nodup

theorem mem_values_iff {table : Table κ α} {value : α} :
    value ∈ table.values ↔ ∃ key, table.find? key = some value := by
  simp [values, find?_eq_some_iff]

theorem mem_keys_iff {table : Table κ α} {key : κ} :
    key ∈ table.keys ↔ ∃ value, table.find? key = some value := by
  simp [keys, find?_eq_some_iff]

theorem mem_keys_of_find? {table : Table κ α} {key : κ} {value : α}
    (found : table.find? key = some value) : key ∈ table.keys :=
  mem_keys_iff.2 ⟨value, found⟩

theorem find?_mapValues (table : Table κ α) (change : κ → α → β) (key : κ) :
    (table.mapValues change).find? key = (table.find? key).map (change key) := by
  simp only [find?, mapValues]
  induction table.entries with
  | nil => rfl
  | cons entry rest ih =>
      obtain ⟨first, held⟩ := entry
      rw [List.map_cons, List.lookup_cons, List.lookup_cons]
      by_cases same : key = first
      · simp [same]
      · simpa [beq_false_of_ne same] using ih

omit [DecidableEq κ] in
theorem mapValues_self (table : Table κ α) : table.mapValues (fun _ value => value) = table := by
  unfold mapValues
  simp

omit [DecidableEq κ] in
theorem mapValues_mapValues {γ : Type} (table : Table κ α) (first : κ → α → β)
    (second : κ → β → γ) :
    (table.mapValues first).mapValues second =
      table.mapValues fun key value => second key (first key value) := by
  unfold mapValues
  simp

/-- Two tables with the same keys in the same order that find the same values
have the same entries. -/
theorem ext_of_keys {table other : Table κ α} (keys : table.keys = other.keys)
    (found : ∀ key ∈ table.keys, table.find? key = other.find? key) :
    table = other := by
  have entries_eq (table : Table κ α) : table.entries =
      table.keys.filterMap fun key => (table.find? key).map fun value => (key, value) := by
    simp only [Table.keys, List.filterMap_map]
    conv_lhs => rw [← List.filterMap_some (l := table.entries)]
    apply List.filterMap_congr
    intro entry member
    simp [Table.find?_eq_some_iff.2 member]
  have same : table.entries = other.entries := by
    rw [entries_eq table, entries_eq other, ← keys]
    apply List.filterMap_congr
    intro key member
    rw [found key member]
  cases table
  cases other
  cases same
  rfl

theorem put_of_find? {table : Table κ α} {key : κ} {value : α}
    (found : table.find? key = some value) : table.put key value = table := by
  refine ext_of_keys (by rw [keys_put, if_pos (mem_keys_of_find? found)]) fun other _ => ?_
  rw [find?_put]
  split
  · rename_i same
    rw [same, found]
  · rfl

private theorem find?_foldl_put {entries : List (κ × α)}
    (distinct : (entries.map Prod.fst).Nodup) (table : Table κ α) (key : κ) :
    (entries.foldl (fun merged entry => merged.put entry.1 entry.2) table).find? key =
      (entries.lookup key).or (table.find? key) := by
  induction entries generalizing table with
  | nil => rfl
  | cons entry rest ih =>
      obtain ⟨first, value⟩ := entry
      rw [List.map_cons, List.nodup_cons] at distinct
      rw [List.foldl_cons, ih distinct.2, find?_put, List.lookup_cons]
      by_cases same : key = first
      · subst same
        rw [lookup_eq_none distinct.1]
        simp
      · simp [same, beq_false_of_ne same]

/-- In merged tables the value of the second one counts, if it has one. -/
theorem find?_merge (table other : Table κ α) (key : κ) :
    (table.merge other).find? key = (other.find? key).or (table.find? key) :=
  find?_foldl_put other.keys_nodup table key

/-- Merging a second time changes nothing. -/
theorem merge_merge_self (table other : Table κ α) :
    (table.merge other).merge other = table.merge other := by
  have again : ∀ entry ∈ other.entries,
      (table.merge other).find? entry.1 = some entry.2 := by
    intro entry member
    rw [find?_merge, find?_eq_some_iff.2 member]
    rfl
  generalize table.merge other = merged at again
  unfold merge
  generalize other.entries = entries at again
  induction entries with
  | nil => rfl
  | cons entry rest ih =>
      rw [List.forall_mem_cons] at again
      rw [List.foldl_cons, put_of_find? again.1]
      exact ih again.2

theorem eq_empty_of_keys {table : Table κ α} (none : table.keys = []) : table = .empty :=
  ext_of_keys none (by simp [none])

private theorem sum_replace (entries : List (κ × α)) (key : κ) (value : α)
    (measure : κ → α → Nat) (distinct : (entries.map Prod.fst).Nodup) :
    ((entries.map fun entry => if entry.1 = key then (key, value) else entry).map
        fun entry => measure entry.1 entry.2).sum +
        (entries.lookup key).elim 0 (measure key) =
      (entries.map fun entry => measure entry.1 entry.2).sum +
        (entries.lookup key).elim 0 fun _ => measure key value := by
  induction entries with
  | nil => rfl
  | cons entry rest ih =>
      obtain ⟨first, held⟩ := entry
      rw [List.map_cons, List.nodup_cons] at distinct
      have rest_eq := ih distinct.2
      by_cases same : first = key
      · subst same
        rw [lookup_eq_none distinct.1] at rest_eq
        simp only [Option.elim_none] at rest_eq
        simp only [List.map_cons, if_true, List.sum_cons, List.lookup_cons,
          BEq.rfl, Option.elim_some]
        omega
      · rw [List.lookup_cons, beq_false_of_ne (Ne.symm same)]
        simp only [List.map_cons, if_neg same, List.sum_cons]
        omega

/-- What a value adds to a total, nothing if there is none. -/
def share (measure : κ → α → Nat) (table : Table κ α) (key : κ) : Nat :=
  (table.find? key).elim 0 (measure key)

theorem total_eq_sum (table : Table κ α) (measure : κ → α → Nat) :
    table.total measure = (table.keys.map (table.share measure)).sum := by
  unfold total keys
  rw [List.map_map]
  congr 1
  refine List.map_congr_left fun entry member => ?_
  have found : table.find? entry.1 = some entry.2 := find?_eq_some_iff.2 member
  rw [Function.comp_apply, share, found]
  rfl

/-- Putting a value changes the total by what it adds and what it replaces. -/
theorem total_put (table : Table κ α) (key : κ) (value : α)
    (measure : κ → α → Nat) :
    (table.put key value).total measure + table.share measure key =
      table.total measure + measure key value := by
  have present := isSome_find? table key
  unfold put total share
  by_cases held : table.contains key = true
  · rw [held, Option.isSome_iff_exists] at present
    obtain ⟨before, found⟩ := present
    have replaced := sum_replace table.entries key value measure table.keys_nodup
    unfold find? at found
    rw [found] at replaced
    rw [dif_pos held, find?, found]
    exact replaced
  · have absent : table.find? key = none := by
      rw [Bool.not_eq_true] at held
      simpa [held] using present
    rw [dif_neg held, absent]
    simp

private theorem sum_filter (entries : List (κ × α)) (key : κ)
    (measure : κ → α → Nat) (distinct : (entries.map Prod.fst).Nodup) :
    ((entries.filter fun entry => !decide (entry.1 = key)).map
        fun entry => measure entry.1 entry.2).sum +
        (entries.lookup key).elim 0 (measure key) =
      (entries.map fun entry => measure entry.1 entry.2).sum := by
  induction entries with
  | nil => rfl
  | cons entry rest ih =>
      obtain ⟨first, held⟩ := entry
      rw [List.map_cons, List.nodup_cons] at distinct
      have rest_eq := ih distinct.2
      by_cases same : first = key
      · subst same
        rw [lookup_eq_none distinct.1] at rest_eq
        simp only [Option.elim_none] at rest_eq
        rw [List.filter_cons_of_neg (by simp)]
        simp only [List.map_cons, List.sum_cons, List.lookup_cons, BEq.rfl,
          Option.elim_some]
        omega
      · rw [List.filter_cons_of_pos (by simp [same]), List.lookup_cons,
          beq_false_of_ne (Ne.symm same)]
        simp only [List.map_cons, List.sum_cons]
        omega

theorem total_erase (table : Table κ α) (key : κ) (measure : κ → α → Nat) :
    (table.erase key).total measure + table.share measure key =
      table.total measure :=
  sum_filter table.entries key measure table.keys_nodup

theorem share_le_total (table : Table κ α) (key : κ) (measure : κ → α → Nat) :
    table.share measure key ≤ table.total measure := by
  have := table.total_erase key measure
  omega

/-- Two keys have their shares of a total side by side. -/
theorem share_add_share_le_total (table : Table κ α) {first second : κ}
    (distinct : second ≠ first) (measure : κ → α → Nat) :
    table.share measure first + table.share measure second ≤
      table.total measure := by
  have whole := table.total_erase first measure
  have rest := (table.erase first).share_le_total second measure
  have kept : (table.erase first).share measure second =
      table.share measure second := by
    simp [share, find?_erase, distinct]
  omega

/-- A total is positive only if some share is. -/
theorem exists_share_of_total_pos {table : Table κ α} {measure : κ → α → Nat}
    (positive : 0 < table.total measure) :
    ∃ key, 0 < table.share measure key := by
  by_contra none
  push Not at none
  refine absurd positive (Nat.not_lt.2 (Nat.le_of_eq ?_))
  apply List.sum_eq_zero
  intro value member
  obtain ⟨⟨key, held⟩, inTable, rfl⟩ := List.mem_map.1 member
  have measured := none key
  rw [share, find?_eq_some_iff.2 inTable] at measured
  simpa using measured

theorem total_ofList_eq_zero {entries : List (κ × α)} {measure : κ → α → Nat}
    (nothing : ∀ entry ∈ entries, measure entry.1 entry.2 = 0) :
    (ofList entries).total measure = 0 := by
  unfold ofList
  refine @List.foldlRecOn _ _ (fun table => table.total measure = 0) entries _ empty
    (total_empty measure) fun table none entry member => ?_
  have put := table.total_put entry.1 entry.2 measure
  rw [none, nothing entry member] at put
  omega

theorem forall_values_ofList {entries : List (κ × α)} {property : α → Prop}
    (holds : ∀ entry ∈ entries, property entry.2) :
    ∀ value ∈ (ofList entries).values, property value := by
  unfold ofList
  refine @List.foldlRecOn _ _ (fun table : Table κ α => ∀ value ∈ table.values, property value)
    entries _ empty (fun _ => nofun) fun table held entry member value inTable => ?_
  obtain ⟨key, found⟩ := mem_values_iff.1 inTable
  rw [find?_put] at found
  split at found
  · cases found
    exact holds entry member
  · exact held value (mem_values_iff.2 ⟨key, found⟩)

end Table

namespace Slots

variable {α : Type} [Inhabited α]

omit [Inhabited α] in
@[simp] theorem next_push (slots : Slots α) (value : α) :
    (slots.push value).next = slots.next + 1 := by
  simp [push, next]

theorem next_set (slots : Slots α) (slot : Nat) (value : α) :
    (slots.set slot value).next = max slots.next (slot + 1) := by
  unfold set next
  split <;> simp <;> omega

theorem next_le_next_set (slots : Slots α) (slot : Nat) (value : α) :
    slots.next ≤ (slots.set slot value).next := by
  rw [next_set]
  exact Nat.le_max_left _ _

theorem next_set_of_lt {slots : Slots α} {slot : Nat} (filled : slot < slots.next)
    (value : α) : (slots.set slot value).next = slots.next := by
  rw [next_set]
  omega

theorem get_of_next_le {slots : Slots α} {slot : Nat} (free : slots.next ≤ slot) :
    slots.get slot = default := by
  unfold get next at *
  rw [Array.getElem?_eq_none free]
  rfl

/-- Slots are known by how many are filled and by what they hold. -/
theorem ext_of_get {slots other : Slots α} (next : slots.next = other.next)
    (get : ∀ slot, slots.get slot = other.get slot) : slots = other := by
  rcases slots with ⟨filled⟩
  rcases other with ⟨filled'⟩
  congr
  apply Array.ext next
  intro slot first second
  have same := get slot
  simp only [Slots.get, Array.getElem?_eq_getElem first,
    Array.getElem?_eq_getElem second, Option.getD_some] at same
  exact same

theorem set_get {slots : Slots α} {slot : Nat} (filled : slot < slots.next) :
    slots.set slot (slots.get slot) = slots := by
  apply ext_of_get (next_set_of_lt filled _)
  intro other
  rw [get_set]
  split
  · rename_i same
    rw [same]
  · rfl

theorem set_set (slots : Slots α) (slot : Nat) (first second : α) :
    (slots.set slot first).set slot second = slots.set slot second := by
  refine ext_of_get ?_ fun other => ?_
  · simp only [next_set]
    omega
  · rw [get_set, get_set, get_set]
    split <;> rfl

/-- The sum of a measure over the filled slots. -/
def total (measure : α → Nat) (slots : Slots α) : Nat :=
  (slots.filled.toList.map measure).sum

omit [Inhabited α] in
theorem total_push (slots : Slots α) (value : α) (measure : α → Nat) :
    (slots.push value).total measure = slots.total measure + measure value := by
  simp [push, total]

omit [Inhabited α] in
private theorem sum_map_set (values : List α) (measure : α → Nat) (value : α)
    {index : Nat} (inBounds : index < values.length) :
    ((values.set index value).map measure).sum + measure values[index] =
      (values.map measure).sum + measure value := by
  induction values generalizing index with
  | nil => simp at inBounds
  | cons first rest ih =>
      cases index with
      | zero => simp only [List.set_cons_zero, List.map_cons, List.sum_cons,
          List.getElem_cons_zero]; omega
      | succ index =>
          have rest_eq := ih (Nat.lt_of_succ_lt_succ inBounds)
          simp only [List.set_cons_succ, List.map_cons, List.sum_cons,
            List.getElem_cons_succ]
          omega

/-- Filling a slot anew changes the total by the difference of two measures. -/
theorem total_set (slots : Slots α) (slot : Nat) (value : α) (measure : α → Nat)
    (nothing : measure default = 0) :
    (slots.set slot value).total measure + measure (slots.get slot) =
      slots.total measure + measure value := by
  by_cases filled : slot < slots.next
  · have inBounds : slot < slots.filled.toList.length := by
      simpa [next] using filled
    have changed := sum_map_set slots.filled.toList measure value inBounds
    unfold set get total
    rw [if_pos filled]
    simpa [filled, next, Array.getElem?_eq_getElem (show slot < slots.filled.size from filled)]
      using changed
  · rw [get_of_next_le (Nat.not_lt.1 filled), nothing]
    unfold set total
    rw [if_neg filled]
    simp [nothing]

theorem measure_le_total (slots : Slots α) (slot : Nat) (measure : α → Nat)
    (nothing : measure default = 0) :
    measure (slots.get slot) ≤ slots.total measure := by
  have := slots.total_set slot default measure nothing
  omega

theorem measure_add_measure_le_total (slots : Slots α) {first second : Nat}
    (distinct : second ≠ first) (measure : α → Nat)
    (nothing : measure default = 0) :
    measure (slots.get first) + measure (slots.get second) ≤
      slots.total measure := by
  have whole := slots.total_set first default measure nothing
  have rest := (slots.set first default).measure_le_total second measure nothing
  rw [get_set_ne slots default distinct] at rest
  omega

/-- A total is positive only if the measure of some slot is. -/
theorem exists_measure_of_total_pos {slots : Slots α} {measure : α → Nat}
    (positive : 0 < slots.total measure) :
    ∃ slot, 0 < measure (slots.get slot) := by
  by_contra none
  push Not at none
  refine absurd positive (Nat.not_lt.2 (Nat.le_of_eq ?_))
  apply List.sum_eq_zero
  intro value member
  obtain ⟨held, inSlots, rfl⟩ := List.mem_map.1 member
  obtain ⟨slot, inBounds, rfl⟩ := List.getElem_of_mem inSlots
  have measured := none slot
  unfold get at measured
  rw [Array.getElem?_eq_getElem (by simpa using inBounds)] at measured
  simpa using measured

/-- A total is the sum over the slots that count for something. -/
theorem total_eq_sum {numbers : List Nat} (distinct : numbers.Nodup) (slots : Slots α)
    (measure : α → Nat) (nothing : measure default = 0)
    (others : ∀ number, number ∉ numbers → measure (slots.get number) = 0) :
    slots.total measure = (numbers.map fun number => measure (slots.get number)).sum := by
  induction numbers generalizing slots with
  | nil =>
      rw [List.map_nil, List.sum_nil]
      by_contra some
      obtain ⟨number, counts⟩ := exists_measure_of_total_pos (Nat.pos_of_ne_zero some)
      exact Nat.ne_of_gt counts (others number List.not_mem_nil)
  | cons first rest ih =>
      rw [List.nodup_cons] at distinct
      have cleared := slots.total_set first default measure nothing
      have later := ih distinct.2 (slots.set first default) (by
        intro number absent
        rw [get_set]
        split
        · exact nothing
        · rename_i differs
          exact others number fun member => absent ((List.mem_cons.1 member).resolve_left differs))
      have same : (rest.map fun number => measure ((slots.set first default).get number)) =
          rest.map fun number => measure (slots.get number) := by
        refine List.map_congr_left fun number member => ?_
        have differs : number ≠ first := by
          rintro rfl
          exact distinct.1 member
        rw [get_set_ne slots default differs]
      rw [List.map_cons, List.sum_cons, ← same, ← later]
      omega

end Slots

end ItemBinning
