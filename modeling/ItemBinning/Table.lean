/-!
# Tables

A table holds at most one value under each key and keeps its keys in the order
in which they were first put.  Putting a value under a key that is present
replaces the value and leaves the key where it is.
-/

namespace ItemBinning

/-- Values under distinct keys, in the order of the keys' arrival. -/
structure Table (κ α : Type) where
  entries : List (κ × α)
  keys_nodup : (entries.map Prod.fst).Nodup
  deriving DecidableEq

namespace Table

variable {κ α β : Type}

def empty : Table κ α := ⟨[], List.Pairwise.nil⟩

instance : Inhabited (Table κ α) := ⟨empty⟩

def keys (table : Table κ α) : List κ :=
  table.entries.map Prod.fst

/-- The values in the order of their keys. -/
def values (table : Table κ α) : List α :=
  table.entries.map Prod.snd

def size (table : Table κ α) : Nat :=
  table.entries.length

def isEmpty (table : Table κ α) : Bool :=
  table.entries.isEmpty

def mapValues (change : κ → α → β) (table : Table κ α) : Table κ β where
  entries := table.entries.map fun entry => (entry.1, change entry.1 entry.2)
  keys_nodup := by
    simpa [List.map_map, Function.comp_def] using table.keys_nodup

private theorem nodup_concat {keys : List κ} {key : κ} (nodup : keys.Nodup)
    (absent : key ∉ keys) : (keys ++ [key]).Nodup := by
  rw [List.nodup_append]
  refine ⟨nodup, by simp, ?_⟩
  intro first inKeys last isLast same
  simp only [List.mem_singleton] at isLast
  subst isLast
  exact absent (same ▸ inKeys)

variable [DecidableEq κ]

/-- The value under a key. -/
def find? (table : Table κ α) (key : κ) : Option α :=
  table.entries.lookup key

def contains (table : Table κ α) (key : κ) : Bool :=
  table.entries.any fun entry => decide (entry.1 = key)

theorem contains_iff_mem_keys {table : Table κ α} {key : κ} :
    table.contains key = true ↔ key ∈ table.keys := by
  simp [contains, keys]

private theorem keys_replace (entries : List (κ × α)) (key : κ) (value : α) :
    (entries.map fun entry =>
        if entry.1 = key then (key, value) else entry).map Prod.fst =
      entries.map Prod.fst := by
  rw [List.map_map]
  apply List.map_congr_left
  intro entry _
  by_cases same : entry.1 = key <;> simp [same]

/-- Put a value under a key. -/
def put (table : Table κ α) (key : κ) (value : α) : Table κ α :=
  if present : table.contains key = true then
    { entries := table.entries.map fun entry =>
        if entry.1 = key then (key, value) else entry
      keys_nodup := by rw [keys_replace]; exact table.keys_nodup }
  else
    { entries := table.entries ++ [(key, value)]
      keys_nodup := by
        rw [List.map_append]
        exact nodup_concat table.keys_nodup
          fun member => present (contains_iff_mem_keys.2 member) }

def erase (table : Table κ α) (key : κ) : Table κ α where
  entries := table.entries.filter fun entry => !decide (entry.1 = key)
  keys_nodup := table.keys_nodup.sublist (List.filter_sublist.map Prod.fst)

/-- Put the second table's values over the first's. -/
def merge (table other : Table κ α) : Table κ α :=
  other.entries.foldl (fun merged entry => merged.put entry.1 entry.2) table

/-- The table with the entries of a list; of repeated keys the last one counts. -/
def ofList (entries : List (κ × α)) : Table κ α :=
  entries.foldl (fun table entry => table.put entry.1 entry.2) empty

/-- A key that is put stays where it is, a new one comes last. -/
theorem keys_put (table : Table κ α) (key : κ) (value : α) :
    (table.put key value).keys =
      if key ∈ table.keys then table.keys else table.keys ++ [key] := by
  unfold put
  by_cases present : table.contains key = true
  · rw [dif_pos present, if_pos (contains_iff_mem_keys.1 present)]
    exact keys_replace table.entries key value
  · rw [dif_neg present,
      if_neg fun member => present (contains_iff_mem_keys.2 member)]
    simp [keys]

/-- Erasing removes one key and keeps the order of the others. -/
theorem keys_erase (table : Table κ α) (key : κ) :
    (table.erase key).keys = table.keys.filter fun other =>
      !decide (other = key) := by
  simp only [erase, keys, List.filter_map]
  rfl

private theorem lookup_cons_if (first : κ) (held : α) (rest : List (κ × α))
    (key : κ) :
    ((first, held) :: rest).lookup key =
      if key = first then some held else rest.lookup key := by
  by_cases same : key = first
  · simp [same]
  · simp [List.lookup_cons, same, beq_false_of_ne same]

private theorem lookup_replace (entries : List (κ × α)) (key other : κ)
    (value : α) :
    (entries.map fun entry =>
        if entry.1 = key then (key, value) else entry).lookup other =
      if other = key then (entries.lookup other).map fun _ => value
      else entries.lookup other := by
  induction entries with
  | nil => simp
  | cons entry rest ih =>
      obtain ⟨first, held⟩ := entry
      rw [List.map_cons]
      by_cases isKey : first = key
      · subst isKey
        rw [if_pos rfl, lookup_cons_if, lookup_cons_if, ih]
        by_cases same : other = first <;> simp [same]
      · rw [if_neg isKey, lookup_cons_if, lookup_cons_if, ih]
        by_cases same : other = first
        · subst same
          simp [isKey]
        · simp [same]

private theorem lookup_filter (entries : List (κ × α)) (key other : κ) :
    (entries.filter fun entry => !decide (entry.1 = key)).lookup other =
      if other = key then none else entries.lookup other := by
  induction entries with
  | nil => simp
  | cons entry rest ih =>
      obtain ⟨first, held⟩ := entry
      by_cases isKey : first = key
      · subst isKey
        rw [List.filter_cons_of_neg (by simp), lookup_cons_if, ih]
        by_cases same : other = first <;> simp [same]
      · rw [List.filter_cons_of_pos (by simp [isKey]), lookup_cons_if,
          lookup_cons_if, ih]
        by_cases same : other = first
        · subst same
          simp [isKey]
        · simp [same]

/-- A key has a value just when it is present. -/
theorem isSome_find? (table : Table κ α) (key : κ) :
    (table.find? key).isSome = table.contains key := by
  unfold find? contains
  induction table.entries with
  | nil => rfl
  | cons entry rest ih =>
      obtain ⟨first, held⟩ := entry
      rw [lookup_cons_if, List.any_cons, ← ih]
      by_cases same : key = first
      · simp [same]
      · simp [same, Ne.symm same]

/-- A key that is put has the value put, and the others keep theirs. -/
theorem find?_put (table : Table κ α) (key other : κ) (value : α) :
    (table.put key value).find? other =
      if other = key then some value else table.find? other := by
  have present := isSome_find? table key
  unfold put
  by_cases held : table.contains key = true
  · rw [dif_pos held]
    simp only [find?, lookup_replace]
    by_cases same : other = key
    · subst same
      rw [held, Option.isSome_iff_exists] at present
      obtain ⟨before, found⟩ := present
      simp only [find?] at found
      simp [found]
    · simp [same]
  · rw [dif_neg held]
    simp only [find?, List.lookup_append]
    by_cases same : other = key
    · subst same
      have absent : table.entries.lookup other = none := by
        rw [Bool.not_eq_true] at held
        simpa [held, find?] using present
      simp [absent]
    · simp [lookup_cons_if, same]

/-- A key that is erased has no value, and the others keep theirs. -/
theorem find?_erase (table : Table κ α) (key other : κ) :
    (table.erase key).find? other =
      if other = key then none else table.find? other :=
  lookup_filter table.entries key other

end Table

end ItemBinning
