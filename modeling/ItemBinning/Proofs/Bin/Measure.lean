import ItemBinning.Bin

/-!
# Measured bins

The thresholds of a policy are whole numbers, a missing maximum and an age limit
excepted, and a threshold that is replaced is replaced by one of the same kind.
Comparisons with such thresholds never fail, so that for a bin with such bounds
there is always an answer to whether it is full, full enough, or too old.
-/

namespace ItemBinning

namespace Value

/-- The value is a whole number. -/
def IsWhole (value : Value) : Prop :=
  ∃ number : Int, value = .int number

/-- The value is a whole number or stands for no limit. -/
def IsWholeLimit (value : Value) : Prop :=
  value = .null ∨ value.IsWhole

/-- The value is a number or stands for no limit. -/
def IsLimit (value : Value) : Prop :=
  value = .null ∨ ∃ number : Number, value = .number number

theorem IsWholeLimit.isLimit {value : Value} (limit : value.IsWholeLimit) :
    value.IsLimit := by
  rcases limit with none | ⟨number, whole⟩
  · exact .inl none
  · exact .inr ⟨.int number, whole⟩

@[simp] theorem isWhole_int (number : Int) : (int number).IsWhole :=
  ⟨number, rfl⟩

@[simp] theorem isWholeLimit_int (number : Int) : (int number).IsWholeLimit :=
  .inr (isWhole_int number)

@[simp] theorem isWholeLimit_null : null.IsWholeLimit :=
  .inl rfl

@[simp] theorem isLimit_null : null.IsLimit :=
  .inl rfl

@[simp] theorem isLimit_number (given : Number) : (number given).IsLimit :=
  .inr ⟨given, rfl⟩

theorem exists_stands (first other : Number) (orders : List Ordering) :
    ∃ holds, (number first).stands (number other) orders = .ok holds := by
  unfold stands compare
  simp only [number?, compareNumbers]
  cases first.compare? other with
  | none => exact ⟨_, rfl⟩
  | some order => exact ⟨_, rfl⟩

theorem IsLimit.exists_limits {limit : Value} (isLimit : limit.IsLimit)
    {test : Value → Except Fault Bool}
    (tests : ∀ given : Number, ∃ holds, test (number given) = .ok holds) :
    ∃ holds, limit.limits test = .ok holds := by
  rcases isLimit with rfl | ⟨given, rfl⟩
  · exact ⟨false, rfl⟩
  · exact tests given

end Value

/-- Every bound is a whole number, or no limit where that is allowed. -/
structure Bounds.Whole (bounds : Bounds) : Prop where
  minSize : bounds.minSize.IsWhole
  maxSize : bounds.maxSize.IsWholeLimit
  minEntries : bounds.minEntries.IsWhole
  maxEntries : bounds.maxEntries.IsWholeLimit

/-- Every threshold is a whole number, or no limit where that is allowed; the
limit of the age may be any number. -/
structure Thresholds.Whole (thresholds : Thresholds) : Prop where
  bounds : thresholds.bounds.Whole
  maxBinCount : thresholds.maxBinCount.IsWhole
  maxBinAge : thresholds.maxBinAge.IsLimit

theorem Bounds.whole_relaxed : Bounds.relaxed.Whole :=
  ⟨⟨0, rfl⟩, .inl rfl, ⟨0, rfl⟩, .inl rfl⟩

theorem Value.isWholeLimit_ofOption (limit : Option Int) :
    (Value.ofOption Value.int limit).IsWholeLimit := by
  cases limit <;> simp [Value.ofOption]

theorem Policy.whole_thresholds (policy : Policy) : policy.thresholds.Whole where
  bounds := ⟨⟨_, rfl⟩, Value.isWholeLimit_ofOption _, ⟨_, rfl⟩,
    Value.isWholeLimit_ofOption _⟩
  maxBinCount := ⟨_, rfl⟩
  maxBinAge := by
    unfold Policy.thresholds
    cases policy.maxBinAge <;> simp [Value.ofOption]

/-- A single threshold and the number that it is set to.  A maximum and the limit of
the age may also be taken away. -/
inductive Setting
  | minSize (least : Int)
  | maxSize (greatest : Option Int)
  | minEntries (least : Int)
  | maxEntries (greatest : Option Int)
  | maxBinCount (greatest : Int)
  | maxBinAge (greatest : Option Number)

def Setting.apply (setting : Setting) (thresholds : Thresholds) : Thresholds :=
  match setting with
  | .minSize least =>
      { thresholds with bounds := { thresholds.bounds with minSize := .int least } }
  | .maxSize greatest =>
      { thresholds with
        bounds := { thresholds.bounds with maxSize := .ofOption .int greatest } }
  | .minEntries least =>
      { thresholds with bounds := { thresholds.bounds with minEntries := .int least } }
  | .maxEntries greatest =>
      { thresholds with
        bounds := { thresholds.bounds with maxEntries := .ofOption .int greatest } }
  | .maxBinCount greatest => { thresholds with maxBinCount := .int greatest }
  | .maxBinAge greatest => { thresholds with maxBinAge := .ofOption .number greatest }

theorem Setting.whole_apply (setting : Setting) {thresholds : Thresholds}
    (whole : thresholds.Whole) : (setting.apply thresholds).Whole := by
  obtain ⟨⟨minSize, maxSize, minEntries, maxEntries⟩, maxBinCount, maxBinAge⟩ := whole
  cases setting with
  | minSize least =>
      exact ⟨⟨⟨least, rfl⟩, maxSize, minEntries, maxEntries⟩, maxBinCount, maxBinAge⟩
  | maxSize greatest =>
      exact ⟨⟨minSize, Value.isWholeLimit_ofOption greatest, minEntries, maxEntries⟩,
        maxBinCount, maxBinAge⟩
  | minEntries least =>
      exact ⟨⟨minSize, maxSize, ⟨least, rfl⟩, maxEntries⟩, maxBinCount, maxBinAge⟩
  | maxEntries greatest =>
      exact ⟨⟨minSize, maxSize, minEntries, Value.isWholeLimit_ofOption greatest⟩,
        maxBinCount, maxBinAge⟩
  | maxBinCount greatest =>
      exact ⟨⟨minSize, maxSize, minEntries, maxEntries⟩, ⟨greatest, rfl⟩, maxBinAge⟩
  | maxBinAge greatest =>
      refine ⟨⟨minSize, maxSize, minEntries, maxEntries⟩, maxBinCount, ?_⟩
      cases greatest with
      | none => exact Value.isLimit_null
      | some number => exact Value.isLimit_number number

/-- The size of the item is a whole number, as that of every item that was
checked when it was created. -/
def Item.HasWholeSize (item : Item) : Prop :=
  item.size.IsWhole

namespace Bin

variable {bin : Bin}

theorem exists_reachedEntries (whole : bin.bounds.Whole) :
    ∃ reached, bin.reachedEntries = .ok reached :=
  whole.maxEntries.isLimit.exists_limits fun given =>
    Value.exists_stands (.int bin.entryCount) given _

theorem exists_reachedSize (whole : bin.bounds.Whole) :
    ∃ reached, bin.reachedSize = .ok reached :=
  whole.maxSize.isLimit.exists_limits fun given =>
    Value.exists_stands bin.size given _

theorem exists_isFull (whole : bin.bounds.Whole) :
    ∃ full, bin.isFull = .ok full := by
  obtain ⟨reachedSize, size⟩ := exists_reachedSize whole
  obtain ⟨reachedEntries, entries⟩ := exists_reachedEntries whole
  unfold isFull
  rw [size, entries]
  cases reachedSize <;> cases reachedEntries <;> exact ⟨_, rfl⟩

theorem exists_meetsMinimums (whole : bin.bounds.Whole) :
    ∃ met, bin.meetsMinimums = .ok met := by
  obtain ⟨leastSize, minSize⟩ := whole.minSize
  obtain ⟨leastEntries, minEntries⟩ := whole.minEntries
  obtain ⟨largeEnough, size⟩ := Value.exists_stands bin.size (.int leastSize) [.gt, .eq]
  obtain ⟨manyEnough, entries⟩ :=
    Value.exists_stands (.int bin.entryCount) (.int leastEntries) [.gt, .eq]
  unfold meetsMinimums Value.isAtLeast
  rw [minSize, minEntries, size, entries]
  cases largeEnough <;> exact ⟨_, rfl⟩

theorem exists_isFullEnough (whole : bin.bounds.Whole) :
    ∃ enough, bin.isFullEnough = .ok enough := by
  obtain ⟨full, isFull⟩ := exists_isFull whole
  obtain ⟨met, meets⟩ := exists_meetsMinimums whole
  unfold isFullEnough
  rw [isFull, meets]
  cases full <;> exact ⟨_, rfl⟩

theorem exists_isOlderThan (bin : Bin) (clock : Moment) {limit : Value}
    (isLimit : limit.IsLimit) : ∃ older, bin.isOlderThan clock limit = .ok older :=
  isLimit.exists_limits fun given =>
    Value.exists_stands (.float (bin.age clock)) given _

/-- With whole bounds it is always known whether, and why, a bin is ready. -/
theorem exists_readyReason? (whole : bin.bounds.Whole) (relaxed : Bool)
    (clock : Moment) {ageLimit : Value} (isLimit : ageLimit.IsLimit) :
    ∃ reason, bin.readyReason? relaxed clock ageLimit = .ok reason := by
  obtain ⟨full, isFull⟩ := exists_isFull whole
  obtain ⟨enough, isFullEnough⟩ := exists_isFullEnough whole
  obtain ⟨older, isOlderThan⟩ := bin.exists_isOlderThan clock isLimit
  unfold readyReason?
  rw [isFull, isFullEnough, isOlderThan]
  cases full <;> cases relaxed <;> cases enough <;> cases older <;> exact ⟨_, rfl⟩

/-- A bin that is ready is ready for a reason of its own. -/
theorem ne_unbound_of_readyReason? {relaxed : Bool} {clock : Moment} {ageLimit : Value}
    {reason : ReadyReason} (known : bin.readyReason? relaxed clock ageLimit = .ok (some reason)) :
    reason ≠ .unbound := by
  rintro rfl
  unfold readyReason? at known
  generalize bin.isFull = full at known
  generalize bin.isFullEnough = enough at known
  generalize bin.isOlderThan clock ageLimit = older at known
  rcases full with _ | _ | _ <;> cases relaxed <;> rcases enough with _ | _ | _ <;>
    rcases older with _ | _ | _ <;> cases known

theorem exists_sizeWith {item : Item} {size : Int} (weighed : bin.size = .int size)
    (whole : item.HasWholeSize) : ∃ total : Int, bin.sizeWith item = .ok (.int total) := by
  obtain ⟨added, isAdded⟩ := whole
  refine ⟨size + added, ?_⟩
  unfold sizeWith
  rw [isAdded, weighed]
  rfl

end Bin

end ItemBinning
