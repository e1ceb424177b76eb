import ItemBinning.Decimal.FloatText

/-!
# The limit on digits

The host that runs the program may limit how many decimal digits an integer has that is
written as a text or read from one.  A sign is no digit.  Doubles, and integers written in
other bases, are not limited.
-/

namespace ItemBinning

/-- The settings of the host that matter to the program. -/
class Host where
  /-- The greatest number of digits of an integer that is written or read, if there is one. -/
  digitLimit : Option Nat
  positive : ∀ limit, digitLimit = some limit → 0 < limit

namespace Host

/-- Where no host is named, none sets a limit. -/
instance unlimited : Host where
  digitLimit := none
  positive := nofun

/-- A host with the limit that hosts have unless it is changed. -/
abbrev customary : Host where
  digitLimit := some 4300
  positive := by
    rintro _ ⟨⟩
    decide

/-- Whether an integer may have so many digits. -/
def allows [Host] (digits : Nat) : Bool :=
  digitLimit.all (digits ≤ ·)

end Host

namespace Decimal

variable [Host]

/-- Whether an integer has so few digits that it can be written. -/
def isWritable (number : Int) : Bool :=
  Host.allows (digitsOf number.natAbs).length

theorem isWritable_iff (number : Int) : isWritable number = true ↔
    ∀ limit, Host.digitLimit = some limit → number.natAbs < tenTo limit := by
  unfold isWritable Host.allows digitsOf
  rw [Option.all_eq_true]
  refine forall₂_congr fun limit isLimit => ?_
  rw [decide_eq_true_iff]
  exact Nat.length_toDigits_le_iff (by decide) (Host.positive limit isLimit)

theorem isWritable_of_le {number greater : Int} (writable : isWritable greater = true)
    (le : number.natAbs ≤ greater.natAbs) : isWritable number = true :=
  (isWritable_iff number).2 fun limit isLimit =>
    Nat.lt_of_le_of_lt le ((isWritable_iff greater).1 writable limit isLimit)

end Decimal

end ItemBinning
