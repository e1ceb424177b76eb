import ItemBinning.Decimal.Numeral
import Mathlib

/-!
# What doubles are

A double is computed with by its sign, mantissa and exponent, and its exact value is read off
its bits: both see the same number.  A written number has no minus sign, and neither has what
comes out when it is multiplied with a positive one, so this is never less than zero and has
an integer part unless it is infinite.  Doubles are ordered as numbers are, with no order for
what is not a number.
-/

namespace ItemBinning.Decimal

open Float.Model (UnpackedFloat Format)
open Float.Model.UnpackedFloat

section Bits

variable (bits : UInt64)

theorem toNat_unpackMantissa :
    (@unpackMantissa .binary64 bits.toBitVec).toNat = bits.toNat % twoTo 52 := by
  rw [unpackMantissa_def, BitVec.extractLsb'_toNat, Nat.shiftRight_zero]
  rfl

theorem toNat_unpackExponent :
    (@unpackExponent .binary64 bits.toBitVec).toNat = bits.toNat / twoTo 52 % twoTo 11 := by
  rw [unpackExponent_def, BitVec.extractLsb'_toNat, Nat.shiftRight_eq_div_pow]
  rfl

theorem ofBitVec_unpackSign :
    (Sign.ofBitVec (@unpackSign .binary64 bits.toBitVec) == .negative) =
      decide (twoTo 63 ≤ bits.toNat) := by
  have half : twoTo 63 = 9223372036854775808 := rfl
  have bit : (@unpackSign .binary64 bits.toBitVec).toNat =
      bits.toNat / 9223372036854775808 % 2 := by
    rw [unpackSign_def, BitVec.extractLsb'_toNat, Nat.shiftRight_eq_div_pow]
    rfl
  have bounded := bits.toNat_lt
  unfold Sign.ofBitVec
  rw [half]
  split
  · rename_i clear
    rw [clear] at bit
    have low : ¬ 9223372036854775808 ≤ bits.toNat := by
      change 0 = _ at bit
      omega
    rw [decide_eq_false low]
    rfl
  · rename_i set
    have high : 9223372036854775808 ≤ bits.toNat := by
      refine Nat.le_of_not_lt fun low => set (BitVec.eq_of_toNat_eq ?_)
      rw [bit]
      change _ = 0
      omega
    rw [decide_eq_true high]
    rfl

end Bits

/-- What is computed with, in the form in which exact values are read off. -/
def Binary64.ofUnpacked : UnpackedFloat → Binary64
  | .notANumber => .notANumber
  | .infinity sign => .infinite (sign == .negative)
  | .zero sign => .finite (sign == .negative) 0 leastExponent
  | .finite sign mantissa exponent _ => .finite (sign == .negative) mantissa exponent

/-- The exact value read off the bits of a double is the number that is computed with. -/
theorem Binary64.ofFloat_eq (number : Float) :
    ofFloat number = ofUnpacked number.toModel.unpack := by
  unfold ofFloat Float.toBits Float.Model.unpack
  generalize number.toModel.toBits = bits
  have mantissa := toNat_unpackMantissa bits
  have exponent := toNat_unpackExponent bits
  have sign := ofBitVec_unpackSign bits
  have bias : (Format.binary64.exponentBias : Int) = 1023 := rfl
  have full : @unpackExponent .binary64 bits.toBitVec = -1#_ ↔
      bits.toNat / twoTo 52 % twoTo 11 = twoTo 11 - 1 := by
    rw [← exponent, ← BitVec.toNat_inj]
    rfl
  have least : @unpackExponent .binary64 bits.toBitVec = 0#_ ↔
      bits.toNat / twoTo 52 % twoTo 11 = 0 := by
    rw [← exponent, ← BitVec.toNat_inj]
    rfl
  have blank : @unpackMantissa .binary64 bits.toBitVec = 0#_ ↔ bits.toNat % twoTo 52 = 0 := by
    rw [← mantissa, ← BitVec.toNat_inj]
    rfl
  -- now both sides ask the same of the exponent and the mantissa
  dsimp only
  simp only [fractionBits, ← full, ← least, ← blank]
  unfold UnpackedFloat.unpack
  dsimp only
  by_cases isFull : @unpackExponent .binary64 bits.toBitVec = -1#_
  · rw [if_pos isFull, if_pos isFull]
    by_cases isBlank : @unpackMantissa .binary64 bits.toBitVec = 0#_
    · rw [if_pos isBlank, if_pos isBlank, ← sign]
      rfl
    · rw [if_neg isBlank, if_neg isBlank]
      rfl
  rw [if_neg isFull, if_neg isFull]
  by_cases isLeast : @unpackExponent .binary64 bits.toBitVec = 0#_
  · rw [if_pos isLeast, if_pos isLeast, ← sign, ← mantissa]
    rw [least] at isLeast
    by_cases isBlank : @unpackMantissa .binary64 bits.toBitVec = 0#_
    · rw [dif_pos isBlank, isBlank]
      rfl
    · rw [dif_neg isBlank]
      unfold ofUnpacked leastExponent
      dsimp only
      congr 1
      rw [exponent, isLeast, bias]
      omega
  · rw [if_neg isLeast, if_neg isLeast, ← sign]
    unfold ofUnpacked leastExponent
    dsimp only
    congr 1
    · rw [BitVec.toNat_append, ← Nat.shiftLeft_add_eq_or_of_lt (BitVec.isLt _), mantissa]
      exact Nat.add_comm _ _
    · rw [exponent, bias]
      omega

/-- A number without a minus sign, perhaps infinite. -/
def Unsigned : UnpackedFloat → Prop
  | .notANumber => False
  | .infinity sign | .zero sign | .finite sign .. => sign = .positive

/-- A finite number above zero. -/
def isPositive : UnpackedFloat → Bool
  | .finite .positive .. => true
  | _ => false

theorem unsigned_roundWithAccuracy (format : Format) (mantissa : Nat) (exponent : Int)
    (accuracy : Accuracy) :
    Unsigned (roundWithAccuracy format .positive mantissa exponent accuracy) := by
  unfold roundWithAccuracy
  dsimp only
  split <;> rfl

/-- Multiplying with a positive number, and dividing by one, brings no minus sign in. -/
theorem Unsigned.scaled {first other : UnpackedFloat} (unsigned : Unsigned first)
    (positive : isPositive other = true) (format : Format) :
    Unsigned (mul format first other) ∧ Unsigned (div format first other) := by
  cases other with
  | finite sign mantissa exponent above =>
      cases sign with
      | negative => cases positive
      | positive =>
          cases first with
          | notANumber => exact unsigned.elim
          | infinity | zero =>
              cases unsigned
              exact ⟨rfl, rfl⟩
          | finite =>
              cases unsigned
              exact ⟨unsigned_roundWithAccuracy _ _ _ _, unsigned_roundWithAccuracy _ _ _ _⟩
  | _ => cases positive

theorem unsigned_unpack_packComponents {exponent : BitVec 11} (mantissa : BitVec 52)
    (bounded : exponent ≠ -1#_) :
    Unsigned (unpack .binary64 (packComponents .binary64 .positive exponent mantissa)) := by
  unfold unpack
  simp only [unpackExponent_packComponents, unpackMantissa_packComponents,
    unpackSign_packComponents, Sign.ofBitVec_toBitVec, if_neg bounded]
  split
  · split <;> rfl
  · rfl

/-- Writing a number down as a double brings no minus sign in. -/
theorem Unsigned.unpack_pack {number : UnpackedFloat} (unsigned : Unsigned number) :
    Unsigned (unpack .binary64 (pack .binary64 number)) := by
  cases number with
  | notANumber => exact unsigned.elim
  | infinity | zero =>
      cases unsigned
      rfl
  | finite sign mantissa exponent above =>
      cases unsigned
      unfold pack
      dsimp only
      split
      · rfl
      · rename_i inRange
        split
        · refine unsigned_unpack_packComponents _ fun full => inRange ?_
          have bits := congrArg BitVec.toNat full
          simp only [BitVec.toNat_ofNat, BitVec.neg_one_eq_allOnes, BitVec.toNat_allOnes] at bits
          omega
        · exact unsigned_unpack_packComponents _ (by decide)

theorem unsigned_ofNat (number : Nat) : Unsigned (ofNat .binary64 number) := by
  unfold UnpackedFloat.ofNat ofInt UnpackedFloat.normalize
  split
  · rename_i negative
    rw [Int.compare_eq_lt] at negative
    omega
  · rfl
  · exact unsigned_roundWithAccuracy _ _ _ _

theorem unsigned_ofScientific (mantissa : Nat) (power : Int) :
    Unsigned (UnpackedFloat.ofScientific .binary64 mantissa power) := by
  unfold UnpackedFloat.ofScientific
  split
  · rfl
  split
  · rfl
  split
  · rfl
  split
  · exact (@Unsigned.scaled (.finite .positive ..) _ rfl rfl _).1
  · exact (@Unsigned.scaled (.finite .positive ..) _ rfl rfl _).2

/-- A double without a minus sign. -/
def IsUnsigned (number : Float) : Prop :=
  Unsigned number.toModel.unpack

variable {number first other : Float}

theorem IsUnsigned.mul (unsigned : IsUnsigned first)
    (positive : isPositive other.toModel.unpack = true) : IsUnsigned (first * other) :=
  (unsigned.scaled positive .binary64).1.unpack_pack

theorem IsUnsigned.div (unsigned : IsUnsigned first)
    (positive : isPositive other.toModel.unpack = true) : IsUnsigned (first / other) :=
  (unsigned.scaled positive .binary64).2.unpack_pack

theorem isPositive_powersOfTen : ∀ power : Fin Float.exactlyRepresentablePowersOfTen.size,
    isPositive Float.exactlyRepresentablePowersOfTen[power].toModel.unpack = true := by
  decide

/-- A number that is written without a minus sign is read without one. -/
theorem isUnsigned_ofScientific (mantissa : Nat) (power : Int) :
    IsUnsigned (ofScientific mantissa power) := by
  unfold ofScientific Float.ofScientific
  split
  · rename_i small
    have whole : IsUnsigned mantissa.toUInt64.toFloat := (unsigned_ofNat _).unpack_pack
    have tens := isPositive_powersOfTen ⟨power.natAbs, Nat.lt_of_le_of_lt small.2 (by decide)⟩
    dsimp only
    split
    · exact whole.div tens
    · exact whole.mul tens
  · exact (unsigned_ofScientific _ _).unpack_pack

/-- What has no minus sign has an integer part unless it is infinite. -/
theorem IsUnsigned.truncate?_eq_none_iff (unsigned : IsUnsigned number) :
    truncate? number = none ↔ number.isInf = true := by
  unfold truncate? Float.isInf Float.Model.isInf
  rw [Binary64.ofFloat_eq]
  unfold IsUnsigned at unsigned
  generalize number.toModel.unpack = value at unsigned ⊢
  cases value with
  | notANumber => exact unsigned.elim
  | infinity => exact ⟨fun _ => rfl, fun _ => rfl⟩
  | zero | finite => exact ⟨nofun, nofun⟩

theorem IsUnsigned.truncate?_nonneg (unsigned : IsUnsigned number) {whole : Int}
    (cut : truncate? number = some whole) : 0 ≤ whole := by
  unfold truncate? at cut
  rw [Binary64.ofFloat_eq] at cut
  unfold IsUnsigned at unsigned
  generalize number.toModel.unpack = value at unsigned cut
  cases value with
  | notANumber | infinity => cases cut
  | zero sign | finite sign =>
      cases unsigned
      cases cut
      exact Int.natCast_nonneg _

theorem lt_iff : first < other ↔
    UnpackedFloat.compare first.toModel.unpack other.toModel.unpack = some .lt := by
  change decide (first.toModel < other.toModel) = true ↔ _
  rw [decide_eq_true_iff]
  exact beq_iff_eq

theorem le_iff : first ≤ other ↔
    (UnpackedFloat.compare first.toModel.unpack other.toModel.unpack).any (·.isLE) = true := by
  change decide (first.toModel ≤ other.toModel) = true ↔ _
  rw [decide_eq_true_iff]
  rfl

/-- Comparing the other way round gives the opposite answer, or none again. -/
theorem compare_swap (first other : UnpackedFloat) :
    UnpackedFloat.compare other first =
      (UnpackedFloat.compare first other).map Ordering.swap := by
  cases first with
  | notANumber => cases other <;> rfl
  | infinity sign | zero sign =>
      cases other with
      | notANumber => cases sign <;> rfl
      | infinity other | zero other | finite other => cases sign <;> cases other <;> rfl
  | finite sign mantissa exponent =>
      cases other with
      | notANumber => cases sign <;> rfl
      | infinity other | zero other => cases sign <;> cases other <;> rfl
      | finite other mantissa' exponent' =>
          have exponents : compare exponent' exponent = (compare exponent exponent').swap :=
            Std.OrientedCmp.eq_swap
          have mantissas : compare mantissa' mantissa = (compare mantissa mantissa').swap :=
            Std.OrientedCmp.eq_swap
          cases sign <;> cases other <;>
            simp [UnpackedFloat.compare, exponents, mantissas, Ordering.swap_then]

theorem not_lt_of_le (le : first ≤ other) : ¬ other < first := by
  intro lt
  rw [le_iff, compare_swap, lt_iff.1 lt] at le
  cases le

/-- What is below zero is below every number above zero. -/
theorem lt_of_lt_zero (below : first < 0) (positive : isPositive other.toModel.unpack = true) :
    first < other := by
  rw [lt_iff] at below ⊢
  have zero : (0 : Float).toModel.unpack = .zero .positive := rfl
  rw [zero] at below
  generalize first.toModel.unpack = first at below ⊢
  generalize other.toModel.unpack = other at positive ⊢
  cases other with
  | finite sign =>
      cases sign with
      | negative => cases positive
      | positive =>
          cases first with
          | notANumber | zero => cases below
          | infinity sign | finite sign =>
              cases sign with
              | negative => rfl
              | positive => cases below
  | _ => cases positive

/-- Two doubles are in no order just if one of them is not a number. -/
theorem compare_eq_none_iff (first other : UnpackedFloat) :
    UnpackedFloat.compare first other = none ↔ first = .notANumber ∨ other = .notANumber := by
  fun_cases UnpackedFloat.compare first other <;> simp_all

theorem isNaN_iff_unpack : number.isNaN = true ↔ number.toModel.unpack = .notANumber := by
  unfold Float.isNaN Float.Model.isNaN
  exact isNaN_iff

theorem IsUnsigned.isNaN_eq_false (unsigned : IsUnsigned number) : number.isNaN = false := by
  refine Bool.eq_false_iff.2 fun isNaN => ?_
  unfold IsUnsigned at unsigned
  rw [isNaN_iff_unpack.1 isNaN] at unsigned
  exact unsigned

theorem not_le_of_isNaN (isNaN : other.isNaN = true) : ¬ first ≤ other := by
  rw [le_iff, (compare_eq_none_iff _ _).2 (.inr (isNaN_iff_unpack.1 isNaN))]
  exact nofun

/-- Of two numbers that are ordered, one is at most the other unless it is above it. -/
theorem le_of_not_lt (isNumber : first.isNaN = false) (isNumber' : other.isNaN = false)
    (notBelow : ¬ other < first) : first ≤ other := by
  have ordered : UnpackedFloat.compare first.toModel.unpack other.toModel.unpack ≠ none := by
    rw [Ne, compare_eq_none_iff, ← isNaN_iff_unpack, ← isNaN_iff_unpack, isNumber, isNumber']
    simp
  rw [lt_iff, compare_swap] at notBelow
  rw [le_iff]
  cases isCompared : UnpackedFloat.compare first.toModel.unpack other.toModel.unpack with
  | none => exact absurd isCompared ordered
  | some order =>
      rw [isCompared] at notBelow
      cases order with
      | gt => exact absurd rfl notBelow
      | lt | eq => rfl

theorem compareFloats?_of_isNaN (isNaN : other.isNaN = true) :
    compareFloats? first other = none := by
  have noNumber : isNotANumber other = true := by
    unfold isNotANumber
    rw [Binary64.ofFloat_eq, isNaN_iff_unpack.1 isNaN]
    rfl
  unfold compareFloats?
  rw [noNumber, Bool.or_true, if_pos rfl]

end ItemBinning.Decimal
