import ItemBinning.Proofs.Decimal.Doubles
import ItemBinning.Proofs.Decimal.Rounding

/-!
# Whole numbers as doubles

A double stands for a whole number if it is that number, or infinity where the number is beyond
the range of doubles.  What is read for a whole number, and what comes out when two whole numbers
are multiplied, stands for the nearest number that a double holds.
-/

namespace ItemBinning.Decimal

open Float.Model (UnpackedFloat Format totalExponent)
open Float.Model.UnpackedFloat

variable {mantissa mantissa' whole whole' : Nat} {exponent exponent' : Int}

section Mantissas

/-- A mantissa with its exponent is a whole number. -/
def Denotes (mantissa : Nat) (exponent : Int) (whole : Nat) : Prop :=
  ∃ up down : Nat, exponent = up - down ∧ mantissa * 2 ^ up = whole * 2 ^ down

namespace Denotes

theorem mul (first : Denotes mantissa exponent whole)
    (second : Denotes mantissa' exponent' whole') :
    Denotes (mantissa * mantissa') (exponent + exponent') (whole * whole') := by
  obtain ⟨up, down, rfl, same⟩ := first
  obtain ⟨up', down', rfl, same'⟩ := second
  refine ⟨up + up', down + down', by omega, ?_⟩
  rw [pow_add, pow_add, Nat.mul_mul_mul_comm, same, same', Nat.mul_mul_mul_comm]

theorem length (denotes : Denotes mantissa exponent whole) (nonzero : mantissa ≠ 0) :
    whole ≠ 0 ∧ (mantissa.log2 : Int) + exponent = whole.log2 := by
  obtain ⟨up, down, rfl, same⟩ := denotes
  have some : whole ≠ 0 := by
    rintro rfl
    rw [Nat.zero_mul] at same
    exact Nat.mul_ne_zero nonzero (Nat.two_pow_pos up).ne' same
  have lengths := congrArg Nat.log2 same
  rw [log2_mul_two_pow nonzero, log2_mul_two_pow some] at lengths
  exact ⟨some, by omega⟩

/-- Zeros at the end of a mantissa may go over to the exponent. -/
theorem shifted (denotes : Denotes mantissa exponent whole) {zeros : Nat}
    (divides : 2 ^ zeros ∣ mantissa) : Denotes (mantissa / 2 ^ zeros) (exponent + zeros) whole := by
  obtain ⟨up, down, rfl, same⟩ := denotes
  refine ⟨zeros + up, down, by omega, ?_⟩
  rw [pow_add, ← Nat.mul_assoc, Nat.div_mul_cancel divides, same]

/-- A mantissa that is cut to 53 digits denotes the nearest whole number. -/
theorem rounded (denotes : Denotes mantissa exponent whole) (digits : 52 ≤ mantissa.log2) :
    Denotes (halfEven mantissa (lastUnit mantissa)) (exponent + (mantissa.log2 - 52 : Nat))
      (nearest whole) := by
  have nonzero : mantissa ≠ 0 := by
    rintro rfl
    simp at digits
  obtain ⟨some, lengths⟩ := denotes.length nonzero
  obtain ⟨up, down, rfl, same⟩ := denotes
  refine ⟨mantissa.log2 - 52 + up, down, by omega, ?_⟩
  rw [← halfEven_scaled (Nat.two_pow_pos up), same, pow_add]
  change halfEven _ (lastUnit mantissa * 2 ^ up) * (lastUnit mantissa * 2 ^ up) = _
  obtain short | long := Nat.lt_or_ge whole.log2 52
  · -- there is nothing to cut off
    have kept : nearest whole = whole := nearest_eq_self_iff.2
      ⟨whole, 0, (Nat.log2_lt some).1 (by omega), (Nat.mul_one whole).symm⟩
    rw [kept]
    refine halfEven_mul_of_dvd (Nat.dvd_mul_left_of_dvd ?_ whole)
    unfold lastUnit
    rw [← pow_add]
    exact Nat.pow_dvd_pow 2 (by omega)
  · have sameUnit : lastUnit mantissa * 2 ^ up = lastUnit whole * 2 ^ down := by
      unfold lastUnit
      rw [← pow_add, ← pow_add]
      congr 1
      omega
    rw [sameUnit, halfEven_scaled (Nat.two_pow_pos down), ← Nat.mul_assoc]
    rfl

/-- A whole number has no fraction to cut off. -/
theorem truncated (denotes : Denotes mantissa exponent whole) :
    (if 0 ≤ exponent then mantissa * twoTo exponent.toNat
      else mantissa / twoTo (-exponent).toNat) = whole := by
  obtain ⟨up, down, rfl, same⟩ := denotes
  have power (count : Nat) : twoTo count = 2 ^ count := rfl
  simp only [power]
  split
  · rename_i ahead
    have split : up = ((up : Int) - down).toNat + down := by omega
    refine Nat.eq_of_mul_eq_mul_right (Nat.two_pow_pos down) ?_
    rw [Nat.mul_assoc, ← pow_add, ← split, same]
  · rename_i behind
    have split : down = (-((up : Int) - down)).toNat + up := by omega
    have scaled : mantissa = whole * 2 ^ (-((up : Int) - down)).toNat := by
      refine Nat.eq_of_mul_eq_mul_right (Nat.two_pow_pos up) ?_
      rw [same, Nat.mul_assoc, ← pow_add, ← split]
    rw [scaled, Nat.mul_div_cancel _ (Nat.two_pow_pos _)]

/-- With zeros behind the 53rd digit a mantissa is cut to 53 digits without a rest. -/
theorem normalized (denotes : Denotes mantissa exponent whole) (digits : 52 ≤ mantissa.log2)
    (few : Representable mantissa) :
    (mantissa / lastUnit mantissa).log2 = 52 ∧
      Denotes (mantissa / lastUnit mantissa) (exponent + (mantissa.log2 - 52 : Nat)) whole := by
  have left := Nat.div_mul_cancel (lastUnit_dvd few)
  have some : mantissa / lastUnit mantissa ≠ 0 := by
    intro none
    rw [none, Nat.zero_mul] at left
    rw [← left] at digits
    simp at digits
  have length := congrArg Nat.log2 left
  unfold lastUnit at some length ⊢
  rw [log2_mul_two_pow some] at length
  exact ⟨by omega, denotes.shifted (lastUnit_dvd few)⟩

end Denotes

end Mantissas

section Rounding

/-- After a shift there are the digits left, the last one that went and whether others did. -/
theorem shiftRight_exact (mantissa count : Nat) :
    ExtendedMantissa.ofMantissaAndAccuracy mantissa .exact >>> (count + 1) =
      { mantissa := mantissa / 2 ^ (count + 1)
        roundBit := mantissa / 2 ^ count % 2 != 0
        stickyBit := mantissa % 2 ^ count != 0 } := by
  induction count with
  | zero => simp [HShiftRight.hShiftRight, Nat.repeat, ExtendedMantissa.ofMantissaAndAccuracy,
      ExtendedMantissa.shiftRightOne, Nat.mod_one]
  | succ count ih =>
      have behind : mantissa % 2 ^ (count + 1) =
          mantissa % 2 ^ count + 2 ^ count * (mantissa / 2 ^ count % 2) := by
        rw [pow_succ, Nat.mod_mul]
      have positive := Nat.two_pow_pos count
      change ExtendedMantissa.shiftRightOne
        (ExtendedMantissa.ofMantissaAndAccuracy mantissa .exact >>> (count + 1)) = _
      rw [ih, behind]
      unfold ExtendedMantissa.shiftRightOne
      rw [Nat.div_div_eq_div_mul, ← pow_succ]
      congr 1
      rw [Bool.eq_iff_iff]
      simp
      omega

theorem mantissa_shiftRight (mantissa count : Nat) :
    (ExtendedMantissa.ofMantissaAndAccuracy mantissa .exact >>> count).mantissa =
      mantissa / 2 ^ count := by
  cases count with
  | zero => exact (Nat.div_one mantissa).symm
  | succ count => rw [shiftRight_exact]

/-- What is kept of the digits that went suffices to round to the nearest. -/
theorem roundedMantissa_shiftRight (mantissa count : Nat) :
    (ExtendedMantissa.ofMantissaAndAccuracy mantissa .exact >>> count).roundedMantissa =
      halfEven mantissa (2 ^ count) := by
  cases count with
  | zero =>
      have kept := halfEven_mul_of_dvd (Nat.one_dvd mantissa)
      rw [Nat.mul_one] at kept
      exact kept.symm
  | succ count =>
      have behind : mantissa % 2 ^ (count + 1) =
          mantissa % 2 ^ count + 2 ^ count * (mantissa / 2 ^ count % 2) := by
        rw [pow_succ, Nat.mod_mul]
      have below := Nat.mod_lt mantissa (Nat.two_pow_pos count)
      rw [shiftRight_exact]
      unfold halfEven
      rw [behind, pow_succ]
      generalize mantissa % 2 ^ count = rest at below ⊢
      have stuck : rest ≠ 0 → (rest != 0) = true := bne_iff_ne.2
      -- the digit behind the last one says on which side of the middle the rest is, or next to it
      obtain low | high := Nat.mod_two_eq_zero_or_one (mantissa / 2 ^ count)
      · rw [low, if_pos (by omega)]
        by_cases none : rest = 0
        · rw [none]
          rfl
        · rw [stuck none]
          rfl
      · rw [high, if_neg (by omega)]
        by_cases none : rest = 0
        · rw [none, if_neg (by omega)]
          rfl
        · rw [stuck none, if_pos (by omega)]
          rfl

/-- A mantissa of 53 digits or more is shifted until 53 are left. -/
theorem shiftToTargetExponent_long (digits : 52 ≤ mantissa.log2)
    (inRange : -1022 ≤ mantissa.log2 + exponent) :
    shiftToTargetExponent .binary64 mantissa exponent .exact =
      (ExtendedMantissa.ofMantissaAndAccuracy mantissa .exact >>> (mantissa.log2 - 52),
        exponent + (mantissa.log2 - 52 : Nat)) := by
  have target : Format.binary64.targetExponent (totalExponent mantissa exponent) =
      exponent + (mantissa.log2 - 52 : Nat) := by
    change max ((mantissa.log2 : Int) + 1 + exponent - 53) (-1074) = _
    omega
  unfold shiftToTargetExponent shiftToExponent
  dsimp only
  rw [target, add_sub_cancel_left, Int.toNat_natCast]

/-- A positive number with all 53 digits in its mantissa is this whole number. -/
inductive IsWhole : UnpackedFloat → Nat → Prop
  | intro {mantissa : Nat} {exponent : Int} {whole : Nat} (positive : 0 < mantissa)
      (digits : mantissa.log2 = 52) (denotes : Denotes mantissa exponent whole) :
      IsWhole (.finite .positive mantissa exponent positive) whole

/-- A positive number is rounded to the nearest whole number. -/
theorem isWhole_roundWithAccuracy (denotes : Denotes mantissa exponent whole)
    (digits : 52 ≤ mantissa.log2) :
    IsWhole (roundWithAccuracy .binary64 .positive mantissa exponent .exact) (nearest whole) := by
  have nonzero : mantissa ≠ 0 := by
    rintro rfl
    simp at digits
  have lengths := (denotes.length nonzero).2
  have few := representable_of_le (halfEven_lastUnit_le mantissa)
  have many := le_halfEven_lastUnit digits
  have rounded := denotes.rounded digits
  unfold roundWithAccuracy
  rw [shiftToTargetExponent_long digits (by omega)]
  dsimp only
  rw [roundedMantissa_shiftRight, ← lastUnit]
  generalize halfEven mantissa (lastUnit mantissa) = mantissa' at few many rounded ⊢
  -- the carry of the rounding may have made one digit more, which is a zero
  have digits' : 52 ≤ mantissa'.log2 := (Nat.le_log2 (by omega)).2 many
  obtain ⟨length, normalized⟩ := rounded.normalized digits' few
  have some : mantissa' / lastUnit mantissa' ≠ 0 := by
    intro none
    simp [none] at length
  unfold lastUnit at some length normalized
  rw [shiftToTargetExponent_long digits' (by omega)]
  simp only [mantissa_shiftRight]
  rw [dif_neg some]
  exact .intro (Nat.pos_of_ne_zero some) length normalized

end Rounding

section Doubles

/-- How many binary digits the whole part of a double has at most. -/
def mostDigits : Nat :=
  1024

/-- The first whole number that is beyond the range of doubles. -/
def limit : Nat :=
  2 ^ mostDigits

/-- What a double holds for a whole number: the number, or infinity if it is beyond the range. -/
inductive StandsFor : UnpackedFloat → Nat → Prop
  | zero : StandsFor (.zero .positive) 0
  | whole {number : UnpackedFloat} {whole : Nat} (isWhole : IsWhole number whole)
      (inRange : whole < limit) : StandsFor number whole
  | infinity {whole : Nat} (beyond : limit ≤ whole) : StandsFor (.infinity .positive) whole

theorem lt_limit_iff (some : whole ≠ 0) : whole < limit ↔ whole.log2 < 1024 :=
  (@Nat.log2_lt whole mostDigits some).symm

/-- A mantissa of 53 digits is put down without the first one. -/
theorem unpack_packComponents_normal {bits : BitVec 11} (least : bits ≠ 0#_) (full : bits ≠ -1#_)
    (digits : mantissa.log2 = 52) (positive : 0 < mantissa) :
    unpack .binary64 (packComponents .binary64 .positive bits (BitVec.ofNat 52 mantissa)) =
      .finite .positive mantissa (bits.toNat - 1075) positive := by
  obtain ⟨low, high⟩ := (Nat.log2_eq_iff positive.ne').1 digits
  have first : (1#1 ++ BitVec.ofNat 52 mantissa).toNat = mantissa := by
    rw [BitVec.toNat_append, ← Nat.shiftLeft_add_eq_or_of_lt (BitVec.isLt _), BitVec.toNat_ofNat]
    change 2 ^ 52 + mantissa % 2 ^ 52 = mantissa
    omega
  unfold unpack
  simp only [unpackExponent_packComponents, unpackMantissa_packComponents,
    unpackSign_packComponents, Sign.ofBitVec_toBitVec, if_neg full, if_neg least, first]
  rfl

theorem IsWhole.unpack_pack {number : UnpackedFloat} (isWhole : IsWhole number whole) :
    StandsFor (unpack .binary64 (pack .binary64 number)) whole := by
  obtain @⟨mantissa, exponent, whole, positive, digits, denotes⟩ := isWhole
  obtain ⟨some, lengths⟩ := denotes.length positive.ne'
  unfold pack
  dsimp only
  split
  · rename_i large
    change 2 ^ 11 ≤ (exponent + 1023 + 52).toNat + 1 at large
    refine .infinity (Nat.le_of_not_lt fun inRange => ?_)
    rw [lt_limit_iff some] at inRange
    omega
  · rename_i small
    change ¬ 2 ^ 11 ≤ (exponent + 1023 + 52).toNat + 1 at small
    have bits : ((BitVec.ofNat 11 (exponent + 1023 + 52).toNat).toNat : Int) =
        exponent + 1075 := by
      rw [BitVec.toNat_ofNat]
      omega
    have least : BitVec.ofNat 11 (exponent + 1023 + 52).toNat ≠ 0#_ := by
      intro none
      rw [none] at bits
      change 0 = _ at bits
      omega
    have full : BitVec.ofNat 11 (exponent + 1023 + 52).toNat ≠ -1#_ := by
      intro all
      rw [all] at bits
      change 2047 = _ at bits
      omega
    have kept := unpack_packComponents_normal least full digits positive
    rw [bits, add_sub_cancel_right] at kept
    rw [if_pos (by rw [digits]; rfl)]
    exact kept ▸ .whole (.intro positive digits denotes) ((lt_limit_iff some).2 (by omega))

theorem representable_limit : Representable limit :=
  ⟨1, mostDigits, by decide, by rw [Nat.one_mul, limit]⟩

theorem unpack_pack_zero :
    unpack .binary64 (pack .binary64 (.zero .positive)) = .zero .positive :=
  rfl

theorem unpack_pack_infinity :
    unpack .binary64 (pack .binary64 (.infinity .positive)) = .infinity .positive :=
  rfl

/-- A product is rounded to the nearest whole number. -/
theorem StandsFor.mul {first other : UnpackedFloat} (stands : StandsFor first whole)
    (isWhole : IsWhole other whole') :
    StandsFor (unpack .binary64 (pack .binary64 (UnpackedFloat.mul .binary64 first other)))
      (nearest (whole * whole')) := by
  obtain @⟨mantissa', exponent', whole', positive', digits', denotes'⟩ := isWhole
  cases stands with
  | zero =>
      rw [Nat.zero_mul]
      change StandsFor (unpack .binary64 (pack .binary64 (.zero .positive))) 0
      rw [unpack_pack_zero]
      exact .zero
  | whole isWhole inRange =>
      obtain @⟨mantissa, exponent, whole, positive, digits, denotes⟩ := isWhole
      have many : 52 ≤ (mantissa * mantissa').log2 := by
        rw [← digits, Nat.le_log2 (Nat.mul_pos positive positive').ne']
        exact Nat.le_trans (Nat.log2_self_le positive.ne')
          (Nat.le_mul_of_pos_right mantissa positive')
      exact (isWhole_roundWithAccuracy (denotes.mul denotes') many).unpack_pack
  | infinity beyond =>
      have some := Nat.pos_of_ne_zero (denotes'.length positive'.ne').1
      change StandsFor (unpack .binary64 (pack .binary64 (.infinity .positive))) _
      rw [unpack_pack_infinity]
      refine .infinity ?_
      calc limit = nearest limit := (nearest_eq_self_iff.2 representable_limit).symm
        _ ≤ nearest (whole * whole') :=
            nearest_mono (Nat.le_trans beyond (Nat.le_mul_of_pos_right whole some))

theorem standsFor_ofNat (number : Nat) :
    StandsFor (unpack .binary64 (pack .binary64 (UnpackedFloat.ofNat .binary64 number)))
      (nearest number) := by
  obtain rfl | positive := Nat.eq_zero_or_pos number
  · exact .zero
  have target : Format.binary64.targetExponent (totalExponent number 0) = number.log2 - 52 := by
    change max ((number.log2 : Int) + 1 + 0 - 53) (-1074) = _
    omega
  have room : (0 - ((number.log2 : Int) - 52)).toNat = 52 - number.log2 := by omega
  have denotes : Denotes (number * 2 ^ (52 - number.log2)) (0 - (52 - number.log2 : Nat)) number :=
    ⟨0, 52 - number.log2, rfl, Nat.mul_one _⟩
  have digits : 52 ≤ (number * 2 ^ (52 - number.log2)).log2 := by
    rw [log2_mul_two_pow positive.ne']
    omega
  unfold UnpackedFloat.ofNat ofInt UnpackedFloat.normalize
  rw [Int.compare_eq_gt.2 (by omega)]
  dsimp only
  unfold UnpackedFloat.round decreaseExponent
  rw [Int.toNat_natCast, target]
  dsimp only
  rw [room, Nat.shiftLeft_eq]
  exact (isWhole_roundWithAccuracy denotes digits).unpack_pack

theorem isWhole_one : IsWhole (Float.ofBits 0x3FF0000000000000).toModel.unpack 1 := by
  have positive : 0 < 2 ^ 52 := by decide
  have one : (Float.ofBits 0x3FF0000000000000).toModel.unpack =
      .finite .positive (2 ^ 52) (-52) positive := rfl
  rw [one]
  exact .intro positive Nat.log2_two_pow ⟨0, 52, rfl, rfl⟩

/-- The double read for a whole number stands for the nearest one. -/
theorem standsFor_ofScientific (number : Nat) :
    StandsFor (ofScientific number 0).toModel.unpack (nearest number) := by
  unfold ofScientific Float.ofScientific
  split
  · rename_i small
    have same : number.toUInt64.toNat = number :=
      Nat.mod_eq_of_lt (Nat.lt_trans small.1 (by decide))
    have whole : StandsFor number.toUInt64.toFloat.toModel.unpack
        (nearest number.toUInt64.toNat) := standsFor_ofNat _
    rw [same] at whole
    have product := whole.mul isWhole_one
    rw [Nat.mul_one, nearest_eq_self_iff.2 (representable_nearest number)] at product
    exact product
  · rename_i large
    have many : 2 ^ 53 ≤ number := by
      by_contra few
      exact large ⟨Nat.lt_of_not_le few, by decide⟩
    have denotes : Denotes ((number <<< 53) * 1) (-53 + 0) number :=
      ⟨0, 53, rfl, by rw [Nat.shiftLeft_eq, Nat.mul_one, pow_zero, Nat.mul_one]⟩
    have digits : 52 ≤ ((number <<< 53) * 1).log2 := by
      rw [Nat.mul_one, Nat.shiftLeft_eq, log2_mul_two_pow (by omega)]
      omega
    have product := (isWhole_roundWithAccuracy denotes digits).unpack_pack
    change StandsFor (unpack .binary64 (pack .binary64
      (UnpackedFloat.ofScientific .binary64 number 0))) (nearest number)
    have wide : (2 : Int) ^ Format.binary64.exponentBits = 2048 := rfl
    unfold UnpackedFloat.ofScientific
    rw [wide, dif_neg (by omega), if_neg (by decide), if_neg (by omega), if_pos (Int.le_refl 0)]
    exact product

theorem isWhole_ofNat {number : Nat} (some : number ≠ 0) (inRange : number < limit)
    (representable : Representable number) :
    IsWhole (Float.ofNat number).toModel.unpack number := by
  have stands : StandsFor (Float.ofNat number).toModel.unpack (nearest number) :=
    standsFor_ofScientific number
  rw [nearest_eq_self_iff.2 representable] at stands
  generalize (Float.ofNat number).toModel.unpack = value at stands ⊢
  cases stands with
  | zero => exact absurd rfl some
  | whole isWhole => exact isWhole
  | infinity beyond => exact absurd inRange (Nat.not_lt.2 beyond)

theorem truncate?_of_standsFor {number : Float} (stands : StandsFor number.toModel.unpack whole) :
    truncate? number = if whole < limit then some (whole : Int) else none := by
  unfold truncate?
  rw [Binary64.ofFloat_eq]
  generalize number.toModel.unpack = value at stands
  cases stands with
  | zero =>
      have inRange : 0 < limit := Nat.two_pow_pos mostDigits
      have none : Denotes 0 Binary64.leastExponent 0 :=
        ⟨0, 1074, rfl, by rw [Nat.zero_mul, Nat.zero_mul]⟩
      rw [if_pos inRange]
      exact congrArg (fun whole : Nat => some (whole : Int)) none.truncated
  | infinity beyond =>
      rw [if_neg (Nat.not_lt.2 beyond)]
      rfl
  | whole isWhole inRange =>
      obtain @⟨mantissa, exponent, whole, positive, digits, denotes⟩ := isWhole
      rw [if_pos inRange]
      exact congrArg (fun whole : Nat => some (whole : Int)) denotes.truncated

end Doubles

end ItemBinning.Decimal
