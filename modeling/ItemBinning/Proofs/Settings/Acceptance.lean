import ItemBinning.Proofs.Settings.Readiness
import ItemBinning.Proofs.Settings.Sizes

/-!
# Which configurations are accepted

A configuration is accepted just if it resolves to thresholds that are in order, with an age
that is not below the least one, and the consumer's own check finds nothing.  The thresholds
are then consistent, and written as a configuration they resolve to themselves.
-/

namespace ItemBinning

namespace Policy

/-- The thresholds are in range and none contradicts another. -/
structure Ordered (policy : Policy) : Prop where
  minSize : 0 ≤ policy.minSize
  maxSize : ∀ size, policy.maxSize = some size → policy.minSize ≤ size
  minEntries : 1 ≤ policy.minEntries
  maxEntries : ∀ entries, policy.maxEntries = some entries → policy.minEntries ≤ entries
  maxBinCount : 1 ≤ policy.maxBinCount

theorem Ordered.consistent {policy : Policy} (ordered : policy.Ordered) :
    policy.inconsistencies = [] := by
  refine inconsistencies_eq_nil_iff.2 ⟨ordered.maxSize, fun most isSet => ?_, ordered.maxBinCount⟩
  have entries := ordered.maxEntries most isSet
  exact ⟨entries, Int.lt_of_lt_of_le ordered.minEntries entries⟩

/-- The thresholds of a policy, as a configuration. -/
def written (policy : Policy) : Configuration where
  minSize := .bytes policy.minSize
  maxSize := policy.maxSize.map .bytes
  minEntries := policy.minEntries
  maxEntries := policy.maxEntries
  maxBinCount := policy.maxBinCount
  maxBinAge := policy.maxBinAge.map .seconds

end Policy

namespace Configuration

/-- The settings are read as the thresholds of the policy. -/
structure Resolves (config : Configuration) (policy : Policy) : Prop where
  minSize : DataSize.parse config.minSize.value = .ok policy.minSize
  maxSize : parseOptional (fun setting => DataSize.parse setting.value) config.maxSize =
    .ok policy.maxSize
  maxBinAge : parseOptional (fun setting => Duration.parse setting.value) config.maxBinAge =
    .ok policy.maxBinAge
  minEntries : policy.minEntries = config.minEntries
  maxEntries : policy.maxEntries = config.maxEntries
  maxBinCount : policy.maxBinCount = config.maxBinCount

variable {config : Configuration} {extra : ExtraCheck} {policy : Policy}

theorem parseOptional_map {α β : Type} {parse : α → Except Fault β} {write : β → α}
    {given : Option β} (reads : ∀ value, given = some value → parse (write value) = .ok value) :
    parseOptional parse (given.map write) = .ok given := by
  cases given with
  | none => rfl
  | some value => exact congrArg (Except.map some) (reads value rfl)

/-- Thresholds in order are read back from the configuration that they make. -/
theorem written_resolves (ordered : policy.Ordered)
    (enough : ∀ age, policy.maxBinAge = some age → ¬ age < leastAge) :
    policy.written.Resolves policy := by
  have leastPositive : Decimal.isPositive leastAge.toModel.unpack = true := rfl
  have sizes (size : Int) (isSet : policy.maxSize = some size) :
      DataSize.parse (SizeSetting.bytes size).value = .ok size :=
    if_neg (Int.not_lt.2 (Int.le_trans ordered.minSize (ordered.maxSize size isSet)))
  have ages (age : Float) (isSet : policy.maxBinAge = some age) :
      Duration.parse (AgeSetting.seconds age).value = .ok age :=
    if_neg fun below => enough age isSet (Decimal.lt_of_lt_zero below leastPositive)
  exact {
    minSize := if_neg (Int.not_lt.2 ordered.minSize)
    maxSize := parseOptional_map sizes
    maxBinAge := parseOptional_map ages
    minEntries := rfl
    maxEntries := rfl
    maxBinCount := rfl }

variable [Host]

/-- A configuration has no problems just if its settings are read as thresholds that are in
order, the age is not below the least one, and the consumer's own check finds nothing. -/
theorem problems_eq_nil_iff : config.problems extra = .ok [] ↔
    extra config = .ok [] ∧ ∃ policy, config.Resolves policy ∧ policy.Ordered ∧
      ∀ age, policy.maxBinAge = some age → ¬ age < leastAge := by
  constructor
  · intro valid
    obtain ⟨⟨least, leastProblems⟩, readLeast, valid⟩ := bind_ok valid
    obtain ⟨⟨greatest, greatestProblems⟩, readGreatest, valid⟩ := bind_ok valid
    obtain ⟨ordered, sizes, valid⟩ := bind_ok valid
    obtain ⟨numbered, entries, valid⟩ := bind_ok valid
    obtain ⟨counted, bins, valid⟩ := bind_ok valid
    obtain ⟨aged, readAge, valid⟩ := bind_ok valid
    obtain ⟨found, checked, valid⟩ := bind_ok valid
    have none := Except.ok.inj valid
    simp only [List.append_eq_nil_iff] at none
    obtain ⟨⟨⟨⟨⟨⟨rfl, rfl⟩, rfl⟩, rfl⟩, rfl⟩, rfl⟩, rfl⟩ := none
    obtain ⟨least, minSize, rfl⟩ := reading_eq_ok_iff.1 readLeast
    obtain ⟨age, maxBinAge, enough⟩ := ageProblems_eq_nil_iff.1 readAge
    have maxSize := readMaxSize_eq_ok_iff.1 readGreatest
    obtain ⟨positive, entries⟩ := entryProblems_eq_nil_iff.1 entries
    exact ⟨checked, {
      minSize := least
      maxSize := greatest
      minEntries := config.minEntries
      maxEntries := config.maxEntries
      maxBinCount := config.maxBinCount
      maxBinAge := age }, {
        minSize, maxSize, maxBinAge
        minEntries := rfl
        maxEntries := rfl
        maxBinCount := rfl }, {
        minSize := DataSize.parse_nonneg minSize
        maxSize := (sizeOrderProblems_eq_nil_iff maxSize).1 sizes
        minEntries := positive
        maxEntries := entries
        maxBinCount := countProblems_eq_nil_iff.1 bins }, enough⟩
  · rintro ⟨checked, policy, resolves, ordered, enough⟩
    have readLeast : readSize "min_size" config.minSize = .ok (some policy.minSize, []) :=
      reading_eq_ok_iff.2 ⟨_, resolves.minSize, rfl⟩
    have entries := ordered.maxEntries
    rw [resolves.minEntries, resolves.maxEntries] at entries
    unfold problems
    rw [readLeast, readMaxSize_eq_ok_iff.2 resolves.maxSize,
      entryProblems_eq_nil_iff.2 ⟨resolves.minEntries ▸ ordered.minEntries, entries⟩,
      countProblems_eq_nil_iff.2 (resolves.maxBinCount ▸ ordered.maxBinCount),
      ageProblems_eq_nil_iff.2 ⟨_, resolves.maxBinAge, enough⟩, checked]
    change (config.sizeOrderProblems (some policy.minSize) policy.maxSize >>= _) = _
    rw [(sizeOrderProblems_eq_nil_iff resolves.maxSize).2 ordered.maxSize]
    rfl

theorem ofConfiguration_of_resolves (valid : config.problems extra = .ok [])
    (resolves : config.Resolves policy) : Policy.ofConfiguration config extra = .ok policy := by
  unfold Policy.ofConfiguration
  rw [valid, resolves.minSize, resolves.maxSize, resolves.maxBinAge, ← resolves.minEntries,
    ← resolves.maxEntries, ← resolves.maxBinCount]
  rfl

/-- A configuration is accepted just if it resolves to thresholds that are in order, its age is
not below the least one, and the consumer's own check finds nothing. -/
theorem ofConfiguration_eq_ok_iff : Policy.ofConfiguration config extra = .ok policy ↔
    extra config = .ok [] ∧ config.Resolves policy ∧ policy.Ordered ∧
      ∀ age, policy.maxBinAge = some age → ¬ age < leastAge := by
  constructor
  · intro accepted
    obtain ⟨problems, found, resolved⟩ := bind_ok accepted
    split at resolved
    · rename_i none
      rw [List.isEmpty_iff.1 none] at found
      obtain ⟨checked, other, resolves, ordered⟩ := problems_eq_nil_iff.1 found
      cases (ofConfiguration_of_resolves found resolves).symm.trans accepted
      exact ⟨checked, resolves, ordered⟩
    · cases resolved
  · rintro ⟨checked, resolves, ordered⟩
    exact ofConfiguration_of_resolves (problems_eq_nil_iff.2 ⟨checked, policy, resolves, ordered⟩)
      resolves

/-- Just those configurations are accepted that resolve to thresholds in order, in particular
those with an age of at least the least one.  No offer is refused for the thresholds of an
accepted configuration, and these are accepted again when they are written as a configuration,
for the same policy. -/
theorem accepts_just_ordered (config : Configuration) (extra : ExtraCheck) (policy : Policy) :
    (Policy.ofConfiguration config extra = .ok policy ↔
      extra config = .ok [] ∧ config.Resolves policy ∧ policy.Ordered ∧
        ∀ age, policy.maxBinAge = some age → ¬ age < leastAge) ∧
    (extra config = .ok [] ∧ config.Resolves policy ∧ policy.Ordered ∧
        (∀ age, policy.maxBinAge = some age → leastAge ≤ age) →
      Policy.ofConfiguration config extra = .ok policy) ∧
    (Policy.ofConfiguration config extra = .ok policy →
      policy.inconsistencies = [] ∧
      (∀ depot : Depot, depot.shelf.thresholds = policy.thresholds →
        ∀ group items session issues,
          (Shelf.offer group items session depot).1 ≠ .error (.inconsistentPolicy issues)) ∧
      Policy.ofConfiguration policy.written = .ok policy) := by
  refine ⟨ofConfiguration_eq_ok_iff, ?_, fun accepted => ?_⟩
  · rintro ⟨checked, resolves, ordered, enough⟩
    exact ofConfiguration_eq_ok_iff.2
      ⟨checked, resolves, ordered, fun age isSet => Decimal.not_lt_of_le (enough age isSet)⟩
  · obtain ⟨_, _, ordered, enough⟩ := ofConfiguration_eq_ok_iff.1 accepted
    exact ⟨ordered.consistent, Policy.offer_not_refused ordered.consistent,
      ofConfiguration_eq_ok_iff.2 ⟨rfl, written_resolves ordered enough, ordered, enough⟩⟩

/-- Kilobytes, megabytes and minutes are accepted, and so are the numbers that they stand for. -/
theorem accepted_with_units :
    let config : Configuration := {
      minSize := .written "1 KB"
      maxSize := some (.written "10 MB")
      maxBinAge := some (.written "5 mins") }
    let policy : Policy := {
      minSize := 1024
      maxSize := some 10485760
      maxBinAge := some 300.0 }
    Policy.ofConfiguration config = .ok policy ∧
      Policy.ofConfiguration policy.written = .ok policy := by
  intro config policy
  have accepted : Policy.ofConfiguration config = .ok policy := by
    unfold config policy
    rfl
  exact ⟨accepted, ((accepts_just_ordered config .none policy).2.2 accepted).2.2⟩

end Configuration

end ItemBinning
