import ItemBinning.Proofs.Settings.Acceptance
import ItemBinning.Proofs.Settings.Durations

/-!
# Which age limits are accepted

An accepted age limit is not below the least age.  Written as a text it has no sign, so it is a
number and at least the least age.  Given as a double it may be no number: this is below
nothing, passes wherever no limit does, and no bin is ever older.
-/

namespace ItemBinning

open Decimal

namespace Duration

variable {text : String} {seconds number : Float}

/-- What a text is read as has no minus sign. -/
theorem isUnsigned_of_parse_text (resolved : parse (.text text) = .ok seconds) :
    IsUnsigned seconds := by
  obtain ⟨quantity, factor, _, measures, rfl⟩ := parse_text_ok_iff.1 resolved
  exact (isUnsigned_ofScientific _ _).mul measures.isPositive

theorem parse_seconds (notBelow : ¬ number < 0) :
    parse (AgeSetting.seconds number).value = .ok number :=
  if_neg notBelow

theorem eq_of_parse_seconds (resolved : parse (AgeSetting.seconds number).value = .ok seconds) :
    seconds = number := by
  change (if number < 0 then _ else _) = _ at resolved
  split at resolved <;> cases resolved
  rfl

end Duration

/-- No bin is older than a limit that is no number. -/
theorem Bin.isOlderThan_of_isNaN {limit : Float} (isNaN : limit.isNaN = true) (bin : Bin)
    (clock : Moment) : bin.isOlderThan clock (.float limit) = .ok false := by
  have unordered : (Value.float (bin.age clock)).compare (.float limit) = .unordered := by
    simp [Value.compare, Value.number?, Value.compareNumbers, Number.compare?,
      compareFloats?_of_isNaN isNaN]
  change (Value.float (bin.age clock)).isAbove (.float limit) = .ok false
  unfold Value.isAbove Value.stands
  rw [unordered]

namespace Configuration

variable {config : Configuration} {extra : ExtraCheck} {policy : Policy} {setting : AgeSetting}
  {number : Float}

/-- The age limit of an accepted configuration is what its setting is read as. -/
theorem age_of_accepted [Host] (accepted : Policy.ofConfiguration config extra = .ok policy)
    (limited : config.maxBinAge = some setting) :
    ∃ age, policy.maxBinAge = some age ∧ Duration.parse setting.value = .ok age ∧
      ¬ age < leastAge := by
  obtain ⟨_, resolves, _, enough⟩ := ofConfiguration_eq_ok_iff.1 accepted
  have read := resolves.maxBinAge
  rw [limited] at read
  change (Duration.parse setting.value).map some = _ at read
  cases parsed : Duration.parse setting.value with
  | error fault =>
      rw [parsed] at read
      cases read
  | ok age =>
      rw [parsed] at read
      have isSet := (Except.ok.inj read).symm
      exact ⟨age, isSet, rfl, enough age isSet⟩

/-- A limit that is no number passes wherever no limit does. -/
theorem accepts_notANumber_iff [Host] (isNaN : number.isNaN = true) :
    Policy.ofConfiguration { config with maxBinAge := some (.seconds number) } =
        .ok { policy with maxBinAge := some number } ↔
      Policy.ofConfiguration { config with maxBinAge := none } =
        .ok { policy with maxBinAge := none } := by
  rw [ofConfiguration_eq_ok_iff, ofConfiguration_eq_ok_iff]
  -- It is below nothing, so that neither of the two comparisons refuses it.
  have below (other : Float) : ¬ number < other := by
    rw [lt_iff, (compare_eq_none_iff _ _).2 (.inl (isNaN_iff_unpack.1 isNaN))]
    exact nofun
  constructor
  · rintro ⟨_, resolves, ordered, _⟩
    exact ⟨rfl, { resolves with maxBinAge := rfl }, { ordered with }, nofun⟩
  · rintro ⟨_, resolves, ordered, _⟩
    refine ⟨rfl, { resolves with maxBinAge := ?_ }, { ordered with }, ?_⟩
    · exact congrArg (Except.map some) (Duration.parse_seconds (below 0))
    · rintro _ ⟨⟩
      exact below leastAge

/-- The age limit of an accepted configuration is at least the least age, unless it is given as
a double that is no number.  Such a limit is accepted wherever no limit is, and no bin is ever
older than it. -/
theorem accepted_age_enough_iff [Host] (config : Configuration) :
    (∀ (extra : ExtraCheck) (policy : Policy) (setting : AgeSetting),
      Policy.ofConfiguration config extra = .ok policy → config.maxBinAge = some setting →
        ∃ age, policy.maxBinAge = some age ∧ Duration.parse setting.value = .ok age ∧
          (leastAge ≤ age ↔ ∀ number, setting = .seconds number → number.isNaN = false)) ∧
    ∀ number : Float, number.isNaN = true →
      (∀ policy : Policy,
        Policy.ofConfiguration { config with maxBinAge := some (.seconds number) } =
            .ok { policy with maxBinAge := some number } ↔
          Policy.ofConfiguration { config with maxBinAge := none } =
            .ok { policy with maxBinAge := none }) ∧
      ∀ (bin : Bin) (clock : Moment), bin.isOlderThan clock (.float number) = .ok false := by
  refine ⟨fun extra policy setting accepted limited => ?_, fun number isNaN =>
    ⟨fun policy => accepts_notANumber_iff isNaN, Bin.isOlderThan_of_isNaN isNaN⟩⟩
  obtain ⟨age, isSet, read, enough⟩ := age_of_accepted accepted limited
  refine ⟨age, isSet, read, ?_⟩
  have least : leastAge.isNaN = false := rfl
  cases setting with
  | seconds number =>
      obtain rfl := Duration.eq_of_parse_seconds read
      constructor
      · rintro atLeast _ ⟨⟩
        exact Bool.eq_false_iff.2 fun isNaN => not_le_of_isNaN isNaN atLeast
      · exact fun isNumber => le_of_not_lt least (isNumber age rfl) enough
  | written text =>
      have isNumber := (Duration.isUnsigned_of_parse_text read).isNaN_eq_false
      exact ⟨fun _ => nofun, fun _ => le_of_not_lt least isNumber enough⟩

/-- A limit of two minutes is at least the least age. -/
theorem accepted_age_of_two_minutes :
    letI : Host := .customary
    let config : Configuration := { minSize := .bytes 0, maxBinAge := some (.written "2 mins") }
    Policy.ofConfiguration config = .ok { maxBinAge := some 120.0 } ∧ leastAge ≤ (120.0 : Float) := by
  let _ : Host := .customary
  intro config
  have accepted : Policy.ofConfiguration config = .ok { maxBinAge := some 120.0 } := by
    unfold config
    rfl
  obtain ⟨age, isSet, _, enough⟩ :=
    (accepted_age_enough_iff config).1 ExtraCheck.none _ (.written "2 mins") accepted rfl
  obtain rfl : 120.0 = age := Option.some.inj isSet
  exact ⟨accepted, enough.2 nofun⟩

/-- A limit that is no number is accepted and is not at least the least age. -/
theorem accepted_age_not_enough :
    letI : Host := .customary
    let number : Float := 0.0 / 0.0
    let config : Configuration := { minSize := .bytes 0, maxBinAge := some (.seconds number) }
    let policy : Policy := { maxBinAge := some number }
    Policy.ofConfiguration config = .ok policy ∧ ¬ leastAge ≤ number := by
  let _ : Host := .customary
  intro number config policy
  have isNaN : number.isNaN = true := by
    unfold number
    rfl
  have accepted : Policy.ofConfiguration config = .ok policy := by
    unfold config policy number
    rfl
  exact ⟨accepted, not_le_of_isNaN isNaN⟩

end Configuration

end ItemBinning
