import Mathlib

/-!
# The whole numbers that a double holds

A double keeps 53 binary digits of a number, so of the whole numbers it holds those that have
at most so many and zeros behind them.  Any other is rounded to the nearest of these, to the one
with even digits if two are equally near.  Rounding never turns the order of two numbers round.
-/

namespace ItemBinning.Decimal

section Multiples

variable {number unit scale : Nat}

/-- How often a unit goes into a number, to the nearest; of two equally near counts the even
one. -/
def halfEven (number unit : Nat) : Nat :=
  let below := number / unit
  let rest := number % unit
  if 2 * rest < unit then below
  else if unit < 2 * rest then below + 1
  else below + below % 2

theorem halfEven_cases (number unit : Nat) :
    halfEven number unit = number / unit ∧ 2 * (number % unit) ≤ unit ∨
      halfEven number unit = number / unit + 1 ∧ unit ≤ 2 * (number % unit) := by
  unfold halfEven
  dsimp only
  split
  · exact .inl ⟨rfl, by omega⟩
  · split
    · exact .inr ⟨rfl, by omega⟩
    · obtain even | odd := Nat.mod_two_eq_zero_or_one (number / unit)
      · exact .inl ⟨by rw [even, Nat.add_zero], by omega⟩
      · exact .inr ⟨by rw [odd], by omega⟩

theorem halfEven_bounds (number unit : Nat) :
    number / unit ≤ halfEven number unit ∧ halfEven number unit ≤ number / unit + 1 := by
  obtain ⟨isBelow, _⟩ | ⟨isAbove, _⟩ := halfEven_cases number unit
  · omega
  · omega

theorem halfEven_scaled (positive : 0 < scale) :
    halfEven (number * scale) (unit * scale) = halfEven number unit := by
  have less (first second : Nat) : 2 * (first * scale) < second * scale ↔ 2 * first < second := by
    rw [← Nat.mul_assoc, Nat.mul_lt_mul_right positive]
  have more (first second : Nat) : first * scale < 2 * (second * scale) ↔ first < 2 * second := by
    rw [← Nat.mul_assoc, Nat.mul_lt_mul_right positive]
  unfold halfEven
  simp only [Nat.mul_div_mul_right _ _ positive, Nat.mul_mod_mul_right, less, more]

/-- What a unit divides is kept. -/
theorem halfEven_mul_of_dvd (divides : unit ∣ number) : halfEven number unit * unit = number := by
  obtain ⟨kept, _⟩ | ⟨_, high⟩ := halfEven_cases number unit
  · rw [kept, Nat.div_mul_cancel divides]
  · rw [Nat.mod_eq_zero_of_dvd divides] at high
    obtain rfl : unit = 0 := by omega
    exact (Nat.zero_dvd.1 divides).symm

/-- No multiple of a unit is nearer. -/
theorem dist_halfEven_le (number : Nat) (positive : 0 < unit) (count : Nat) :
    number.dist (halfEven number unit * unit) ≤ number.dist (count * unit) := by
  have parts := Nat.div_add_mod' number unit
  have rest := Nat.mod_lt number positive
  have sides : count * unit ≤ number / unit * unit ∨
      (number / unit + 1) * unit ≤ count * unit := by
    obtain above | below := Nat.lt_or_ge (number / unit) count
    · exact .inr (Nat.mul_le_mul_right unit above)
    · exact .inl (Nat.mul_le_mul_right unit below)
  unfold Nat.dist
  obtain ⟨isBelow, near⟩ | ⟨isAbove, near⟩ := halfEven_cases number unit
  · rw [isBelow]
    rw [Nat.add_one_mul] at sides
    omega
  · rw [isAbove]
    rw [Nat.add_one_mul] at sides ⊢
    omega

end Multiples

theorem log2_mul_two_pow {number : Nat} (nonzero : number ≠ 0) (zeros : Nat) :
    (number * 2 ^ zeros).log2 = number.log2 + zeros := by
  have positive := Nat.two_pow_pos zeros
  refine (Nat.log2_eq_iff (Nat.mul_ne_zero nonzero positive.ne')).2 ⟨?_, ?_⟩
  · rw [pow_add]
    exact Nat.mul_le_mul_right _ (Nat.log2_self_le nonzero)
  · rw [Nat.add_right_comm, pow_add]
    exact Nat.mul_lt_mul_of_pos_right Nat.lt_log2_self positive

/-- The unit of the last digit that is kept of a number. -/
def lastUnit (number : Nat) : Nat :=
  2 ^ (number.log2 - 52)

/-- The whole number that a double holds for a whole number. -/
def nearest (number : Nat) : Nat :=
  halfEven number (lastUnit number) * lastUnit number

/-- At most 53 binary digits and zeros behind them. -/
def Representable (number : Nat) : Prop :=
  ∃ digits zeros, digits < 2 ^ 53 ∧ number = digits * 2 ^ zeros

variable {number other : Nat}

theorem halfEven_lastUnit_le (number : Nat) : halfEven number (lastUnit number) ≤ 2 ^ 53 := by
  have few : number / lastUnit number < 2 ^ 53 := by
    unfold lastUnit
    rw [Nat.div_lt_iff_lt_mul (Nat.two_pow_pos _), ← pow_add]
    refine Nat.lt_of_lt_of_le Nat.lt_log2_self (Nat.pow_le_pow_right (by decide) ?_)
    omega
  exact Nat.le_trans (halfEven_bounds number (lastUnit number)).2 few

theorem le_halfEven_lastUnit (digits : 52 ≤ number.log2) :
    2 ^ 52 ≤ halfEven number (lastUnit number) := by
  have nonzero : number ≠ 0 := by
    rintro rfl
    simp at digits
  have many : 2 ^ 52 ≤ number / lastUnit number := by
    unfold lastUnit
    rw [Nat.le_div_iff_mul_le (Nat.two_pow_pos _), ← pow_add, Nat.add_sub_cancel' digits]
    exact Nat.log2_self_le nonzero
  exact Nat.le_trans many (halfEven_bounds number (lastUnit number)).1

theorem representable_of_le (few : number ≤ 2 ^ 53) : Representable number := by
  obtain digits | rfl := Nat.lt_or_eq_of_le few
  · exact ⟨number, 0, digits, (Nat.mul_one number).symm⟩
  · exact ⟨2 ^ 52, 1, by decide, rfl⟩

theorem representable_mul_two_pow_iff {zeros : Nat} :
    Representable (number * 2 ^ zeros) ↔ Representable number := by
  constructor
  · rintro ⟨digits, behind, few, same⟩
    obtain fewer | more := Nat.lt_or_ge behind zeros
    · refine ⟨number, 0, Nat.lt_of_le_of_lt ?_ few, (Nat.mul_one number).symm⟩
      have isDigits : number * 2 ^ (zeros - behind) = digits := by
        refine Nat.eq_of_mul_eq_mul_right (Nat.two_pow_pos behind) ?_
        rw [← same, Nat.mul_assoc, ← pow_add, Nat.sub_add_cancel fewer.le]
      rw [← isDigits]
      exact Nat.le_mul_of_pos_right number (Nat.two_pow_pos _)
    · refine ⟨digits, behind - zeros, few, Nat.eq_of_mul_eq_mul_right (Nat.two_pow_pos zeros) ?_⟩
      rw [same, Nat.mul_assoc, ← pow_add, Nat.sub_add_cancel more]
  · rintro ⟨digits, behind, few, rfl⟩
    exact ⟨digits, behind + zeros, few, by rw [Nat.mul_assoc, ← pow_add]⟩

theorem representable_nearest (number : Nat) : Representable (nearest number) :=
  representable_mul_two_pow_iff.2 (representable_of_le (halfEven_lastUnit_le number))

/-- The last digit of a number that is held is not behind the last one that is kept. -/
theorem lastUnit_dvd (representable : Representable number) : lastUnit number ∣ number := by
  obtain ⟨digits, zeros, few, rfl⟩ := representable
  obtain rfl | positive := Nat.eq_zero_or_pos digits
  · rw [Nat.zero_mul]
    exact Nat.dvd_zero _
  refine Nat.dvd_mul_left_of_dvd (Nat.pow_dvd_pow 2 ?_) digits
  have length := (Nat.log2_lt positive.ne').2 few
  rw [log2_mul_two_pow positive.ne']
  omega

theorem nearest_eq_self_iff : nearest number = number ↔ Representable number := by
  constructor
  · intro same
    rw [← same]
    exact representable_nearest number
  · exact fun representable => halfEven_mul_of_dvd (lastUnit_dvd representable)

instance : DecidablePred Representable := fun _ => decidable_of_iff _ nearest_eq_self_iff

/-- No whole number that a double holds is nearer. -/
theorem dist_nearest_le (number : Nat) (representable : Representable other) :
    number.dist (nearest number) ≤ number.dist other := by
  obtain ⟨digits, zeros, few, rfl⟩ := representable
  have multiples := dist_halfEven_le number (Nat.two_pow_pos (number.log2 - 52))
  obtain fine | coarse := Nat.lt_or_ge zeros (number.log2 - 52)
  · -- with finer digits it is below the power of two that the number begins with
    have power : 2 ^ 52 * 2 ^ (number.log2 - 52) ≤ number := by
      rw [← pow_add, Nat.add_sub_cancel' (by omega)]
      exact Nat.log2_self_le (by rintro rfl; simp at fine)
    have below : digits * 2 ^ zeros ≤ 2 ^ 52 * 2 ^ (number.log2 - 52) := by
      calc digits * 2 ^ zeros ≤ 2 ^ 53 * 2 ^ zeros := Nat.mul_le_mul_right _ few.le
        _ = 2 ^ 52 * 2 ^ (zeros + 1) := by ring
        _ ≤ 2 ^ 52 * 2 ^ (number.log2 - 52) :=
            Nat.mul_le_mul_left _ (Nat.pow_le_pow_right (by decide) fine)
    have near := multiples (2 ^ 52)
    unfold nearest lastUnit Nat.dist at *
    omega
  · have isMultiple : digits * 2 ^ zeros =
        digits * 2 ^ (zeros - (number.log2 - 52)) * 2 ^ (number.log2 - 52) := by
      rw [Nat.mul_assoc, ← pow_add, Nat.sub_add_cancel coarse]
    rw [isMultiple]
    exact multiples _

/-- Of two numbers the smaller one is not rounded to the greater one. -/
theorem nearest_mono (le : number ≤ other) : nearest number ≤ nearest other := by
  obtain rfl | lt := Nat.eq_or_lt_of_le le
  · exact Nat.le_refl _
  have first := dist_nearest_le number (representable_nearest other)
  have second := dist_nearest_le other (representable_nearest number)
  unfold Nat.dist at first second
  omega

end ItemBinning.Decimal
