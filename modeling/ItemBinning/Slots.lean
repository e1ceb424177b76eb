/-!
# Numbered slots

Sessions and bins are created one after the other and never disappear, so they
are kept in slots numbered from zero.  A slot that was not filled yet holds the
default value.
-/

namespace ItemBinning

/-- Values in slots numbered from zero. -/
structure Slots (α : Type) where
  filled : Array α := #[]
  deriving Repr, DecidableEq

namespace Slots

variable {α : Type} [Inhabited α]

instance : Inhabited (Slots α) := ⟨{}⟩

def next (slots : Slots α) : Nat :=
  slots.filled.size

def get (slots : Slots α) (slot : Nat) : α :=
  slots.filled[slot]?.getD default

/-- Put a value into a slot; free slots below it are filled with the default
value. -/
def set (slots : Slots α) (slot : Nat) (value : α) : Slots α :=
  if slot < slots.next then ⟨slots.filled.setIfInBounds slot value⟩
  else
    ⟨(slots.filled ++ Array.replicate (slot - slots.next) default).push value⟩

def push (slots : Slots α) (value : α) : Slots α :=
  ⟨slots.filled.push value⟩

/-- A slot holds what was last put into it. -/
theorem get_set (slots : Slots α) (slot other : Nat) (value : α) :
    (slots.set slot value).get other =
      if other = slot then value else slots.get other := by
  unfold set get next
  split <;> rename_i below
  · by_cases same : other = slot
    · subst same
      simp [below]
    · simp [same, Ne.symm same]
  · grind

@[simp] theorem get_set_self (slots : Slots α) (slot : Nat) (value : α) :
    (slots.set slot value).get slot = value := by
  simp [get_set]

theorem get_set_ne (slots : Slots α) {slot other : Nat} (value : α)
    (distinct : other ≠ slot) :
    (slots.set slot value).get other = slots.get other := by
  simp [get_set, distinct]

/-- Filling the next slot changes no other slot. -/
theorem get_push (slots : Slots α) (slot : Nat) (value : α) :
    (slots.push value).get slot =
      if slot = slots.next then value else slots.get slot := by
  unfold get push next
  grind

end Slots

end ItemBinning
