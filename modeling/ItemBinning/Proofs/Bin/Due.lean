import ItemBinning.Proofs.Bin.Measure

/-!
# Bins that are due

A bin is due if it is full, and if the rules are relaxed also if it meets both of its
minimums or is older than a limit.  It is due for the first of these reasons.  A bin with
whole bounds is ready just if it is due, and for the reason for which it is due.
-/

namespace ItemBinning

namespace Number

/-- The number is larger than the other; what is not a number is not. -/
def Exceeds (number other : Number) : Prop :=
  number.compare? other = some .gt

/-- The number is as large as the other or larger. -/
def Reaches (number other : Number) : Prop :=
  number.Exceeds other ∨ number.compare? other = some .eq

theorem reaches_int {first other : Int} :
    (int first).Reaches (int other) ↔ other ≤ first := by
  unfold Reaches Exceeds
  rw [compare?_int, Int.compare_eq_ite_le]
  grind

end Number

namespace Value

theorem stands_number (first other : Number) (orders : List Ordering) :
    (number first).stands (number other) orders =
      .ok ((first.compare? other).any orders.contains) := by
  unfold stands compare
  simp only [number?, compareNumbers]
  cases first.compare? other <;> rfl

theorem isAbove_number_iff (first other : Number) :
    (number first).isAbove (number other) = .ok true ↔ first.Exceeds other := by
  unfold isAbove Number.Exceeds
  rw [stands_number]
  rcases first.compare? other with _ | order
  · simp
  · cases order <;> simp

theorem isAtLeast_number_iff (first other : Number) :
    (number first).isAtLeast (number other) = .ok true ↔ first.Reaches other := by
  unfold isAtLeast Number.Reaches Number.Exceeds
  rw [stands_number]
  rcases first.compare? other with _ | order
  · simp
  · cases order <;> simp

/-- A limit is passed if it is given and the test that it is put to holds. -/
theorem IsLimit.limits_iff {limit : Value} (isLimit : limit.IsLimit)
    (test : Value → Except Fault Bool) :
    limit.limits test = .ok true ↔
      ∃ given : Number, limit = .number given ∧ test (.number given) = .ok true := by
  rcases isLimit with rfl | ⟨given, rfl⟩
  · simp
  · simp [limits]

end Value

namespace Bin

variable {bin : Bin}

/-- The bin reached its greatest size or its greatest number of items, or turned down too many
offers in a row. -/
inductive Full (bin : Bin) : Prop
  | size (most : Number) (isMost : bin.bounds.maxSize = .number most)
      (reached : bin.size.Reaches most)
  | entries (most : Number) (isMost : bin.bounds.maxEntries = .number most)
      (reached : (Number.int bin.entryCount).Reaches most)
  | rejections (beyond : rejectionLimit < bin.rejections)

/-- The bin is as large as it has to be at least, and holds as many items. -/
structure MeetsMinimums (bin : Bin) : Prop where
  size : ∃ least, bin.bounds.minSize = .number least ∧ bin.size.Reaches least
  entries : ∃ least, bin.bounds.minEntries = .number least ∧
    (Number.int bin.entryCount).Reaches least

/-- There is a limit, and more time went by since the bin was created. -/
def OlderThan (bin : Bin) (clock : Moment) (limit : Value) : Prop :=
  ∃ greatest, limit = .number greatest ∧ (Number.float (bin.age clock)).Exceeds greatest

/-- The bin has to leave the shelf. -/
def Due (bin : Bin) (relaxed : Bool) (clock : Moment) (limit : Value) : Prop :=
  bin.Full ∨ relaxed = true ∧ (bin.MeetsMinimums ∨ bin.OlderThan clock limit)

/-- The first reason for which the bin has to leave. -/
inductive DueFor (bin : Bin) (relaxed : Bool) (clock : Moment) (limit : Value) :
    ReadyReason → Prop
  | full (full : bin.Full) : DueFor bin relaxed clock limit .full
  | threshold (isRelaxed : relaxed = true) (notFull : ¬ bin.Full)
      (meets : bin.MeetsMinimums) : DueFor bin relaxed clock limit .threshold
  | aged (isRelaxed : relaxed = true) (notFull : ¬ bin.Full) (below : ¬ bin.MeetsMinimums)
      (older : bin.OlderThan clock limit) : DueFor bin relaxed clock limit .aged

theorem due_iff {relaxed : Bool} {clock : Moment} {limit : Value} :
    bin.Due relaxed clock limit ↔ ∃ reason, bin.DueFor relaxed clock limit reason := by
  constructor
  · intro due
    by_cases full : bin.Full
    · exact ⟨_, .full full⟩
    obtain ⟨isRelaxed, due⟩ := due.resolve_left full
    by_cases meets : bin.MeetsMinimums
    · exact ⟨_, .threshold isRelaxed full meets⟩
    · exact ⟨_, .aged isRelaxed full meets (due.resolve_left meets)⟩
  · rintro ⟨reason, full | ⟨isRelaxed, _, meets⟩ | ⟨isRelaxed, _, _, older⟩⟩
    · exact .inl full
    · exact .inr ⟨isRelaxed, .inl meets⟩
    · exact .inr ⟨isRelaxed, .inr older⟩

/-- A question with a known answer is answered by yes or by no. -/
private theorem answer_cases {question : Except Fault Bool} {holds : Prop}
    (known : ∃ answer, question = .ok answer) (iff : question = .ok true ↔ holds) :
    question = .ok true ∧ holds ∨ question = .ok false ∧ ¬ holds := by
  obtain ⟨answer, rfl⟩ := known
  cases answer with
  | true => exact .inl ⟨rfl, iff.1 rfl⟩
  | false => exact .inr ⟨rfl, fun holds => nomatch iff.2 holds⟩

private theorem reachedSize_cases (whole : bin.bounds.Whole) :
    bin.reachedSize = .ok true ∧
        (∃ most, bin.bounds.maxSize = .number most ∧ bin.size.Reaches most) ∨
      bin.reachedSize = .ok false ∧
        ¬ ∃ most, bin.bounds.maxSize = .number most ∧ bin.size.Reaches most :=
  answer_cases (exists_reachedSize whole) <|
    (whole.maxSize.isLimit.limits_iff _).trans <| exists_congr fun _ =>
      and_congr_right fun _ => Value.isAtLeast_number_iff _ _

private theorem reachedEntries_cases (whole : bin.bounds.Whole) :
    bin.reachedEntries = .ok true ∧ (∃ most, bin.bounds.maxEntries = .number most ∧
        (Number.int bin.entryCount).Reaches most) ∨
      bin.reachedEntries = .ok false ∧ ¬ ∃ most, bin.bounds.maxEntries = .number most ∧
        (Number.int bin.entryCount).Reaches most :=
  answer_cases (exists_reachedEntries whole) <|
    (whole.maxEntries.isLimit.limits_iff _).trans <| exists_congr fun _ =>
      and_congr_right fun _ => Value.isAtLeast_number_iff _ _

theorem isFull_iff (whole : bin.bounds.Whole) : bin.isFull = .ok true ↔ bin.Full := by
  have size := reachedSize_cases whole
  have entries := reachedEntries_cases whole
  unfold isFull
  rcases size with ⟨answer, most, isMost, reached⟩ | ⟨answer, small⟩
  · rw [answer]
    exact ⟨fun _ => .size most isMost reached, fun _ => rfl⟩
  rw [answer]
  rcases entries with ⟨answer, most, isMost, reached⟩ | ⟨answer, few⟩
  · rw [answer]
    exact ⟨fun _ => .entries most isMost reached, fun _ => rfl⟩
  rw [answer]
  constructor
  · exact fun beyond => .rejections (of_decide_eq_true (Except.ok.inj beyond))
  · rintro (⟨most, isMost, reached⟩ | ⟨most, isMost, reached⟩ | beyond)
    · exact absurd ⟨most, isMost, reached⟩ small
    · exact absurd ⟨most, isMost, reached⟩ few
    · exact congrArg Except.ok (decide_eq_true beyond)

theorem meetsMinimums_iff (whole : bin.bounds.Whole) :
    bin.meetsMinimums = .ok true ↔ bin.MeetsMinimums := by
  obtain ⟨leastSize, minSize⟩ := whole.minSize
  obtain ⟨leastEntries, minEntries⟩ := whole.minEntries
  have size := answer_cases (Value.exists_stands bin.size (.int leastSize) [.gt, .eq])
    (Value.isAtLeast_number_iff _ _)
  have entries := Value.isAtLeast_number_iff (.int bin.entryCount) (.int leastEntries)
  unfold meetsMinimums
  rw [minSize, minEntries]
  rcases size with ⟨answer, reached⟩ | ⟨answer, small⟩
  · rw [Value.isAtLeast, answer]
    refine entries.trans ⟨fun enough => ?_, fun meets => ?_⟩
    · exact ⟨⟨_, minSize, reached⟩, ⟨_, minEntries, enough⟩⟩
    · obtain ⟨least, isLeast, enough⟩ := meets.entries
      cases minEntries.symm.trans isLeast
      exact enough
  · rw [Value.isAtLeast, answer]
    refine ⟨nofun, fun meets => ?_⟩
    obtain ⟨least, isLeast, enough⟩ := meets.size
    cases minSize.symm.trans isLeast
    exact absurd enough small

theorem isOlderThan_iff {clock : Moment} {limit : Value} (isLimit : limit.IsLimit) :
    bin.isOlderThan clock limit = .ok true ↔ bin.OlderThan clock limit :=
  (isLimit.limits_iff _).trans <| exists_congr fun _ => and_congr_right fun _ =>
    Value.isAbove_number_iff _ _

variable {relaxed : Bool} {clock : Moment} {limit : Value} {reason other : ReadyReason}

theorem DueFor.unique (first : bin.DueFor relaxed clock limit reason)
    (second : bin.DueFor relaxed clock limit other) : reason = other := by
  cases first <;> cases second <;> first | rfl | contradiction

private theorem readyReason?_cases (whole : bin.bounds.Whole) (isLimit : limit.IsLimit) :
    (∃ reason, bin.readyReason? relaxed clock limit = .ok (some reason) ∧
        bin.DueFor relaxed clock limit reason) ∨
      bin.readyReason? relaxed clock limit = .ok none ∧ ¬ bin.Due relaxed clock limit := by
  unfold readyReason? isFullEnough
  rcases answer_cases (exists_isFull whole) (isFull_iff whole) with
    ⟨answer, full⟩ | ⟨answer, notFull⟩ <;> rw [answer]
  · exact .inl ⟨.full, rfl, .full full⟩
  cases relaxed with
  | false => exact .inr ⟨rfl, not_or.2 ⟨notFull, fun due => nomatch due.1⟩⟩
  | true =>
      rcases answer_cases (exists_meetsMinimums whole) (meetsMinimums_iff whole) with
        ⟨answer, meets⟩ | ⟨answer, below⟩ <;> rw [answer]
      · exact .inl ⟨.threshold, rfl, .threshold rfl notFull meets⟩
      rcases answer_cases (bin.exists_isOlderThan clock isLimit) (isOlderThan_iff isLimit) with
        ⟨answer, older⟩ | ⟨answer, young⟩ <;> rw [answer]
      · exact .inl ⟨.aged, rfl, .aged rfl notFull below older⟩
      · exact .inr ⟨rfl, not_or.2 ⟨notFull, fun due => due.2.elim below young⟩⟩

/-- A bin with whole bounds is ready just for the first reason for which it is due. -/
theorem readyReason?_iff (whole : bin.bounds.Whole) (isLimit : limit.IsLimit) :
    bin.readyReason? relaxed clock limit = .ok (some reason) ↔
      bin.DueFor relaxed clock limit reason := by
  rcases readyReason?_cases whole isLimit with ⟨first, known, due⟩ | ⟨known, notDue⟩ <;> rw [known]
  · refine ⟨?_, fun again => by rw [due.unique again]⟩
    rintro ⟨⟩
    exact due
  · exact ⟨nofun, fun due => absurd (due_iff.2 ⟨reason, due⟩) notDue⟩

theorem readyReason?_none_iff (whole : bin.bounds.Whole) (isLimit : limit.IsLimit) :
    bin.readyReason? relaxed clock limit = .ok none ↔ ¬ bin.Due relaxed clock limit := by
  rcases readyReason?_cases whole isLimit with ⟨first, known, due⟩ | ⟨known, notDue⟩ <;> rw [known]
  · exact ⟨nofun, fun notDue => absurd (due_iff.2 ⟨first, due⟩) notDue⟩
  · exact ⟨fun _ => notDue, fun _ => rfl⟩

end Bin

end ItemBinning
