import ItemBinning.Proofs.Engine.Timekeeping
import ItemBinning.Proofs.Shelf.ReadyBins

/-!
# Eviction only on starvation, and of the oldest

The shelf is starved when as many bins are open as may be and none of them is due: nothing
can be opened then, and nothing leaves of itself.  A migration evicts a bin just then, and
it evicts the one that was created first over all groups, where bins that were created at
the same time stand in the order of their creation.  From any other shelf it takes the bins
that are due.  Nothing else takes bins off the shelf in an activation.
-/

namespace ItemBinning

namespace Depot

/-- As many bins are open as may be, and none of them is due. -/
structure Starved (depot : Depot) : Prop where
  some : depot.shelf.bins ≠ []
  full : ∃ most : Int, depot.shelf.thresholds.maxBinCount = .int most ∧
    most ≤ depot.shelf.bins.length
  waits : ∀ bin ∈ depot.shelf.bins, ¬ depot.IsDue true bin

/-- No open bin of any group was created before this one. -/
structure IsOldest (depot : Depot) (oldest : BinId) : Prop where
  onShelf : oldest ∈ depot.shelf.bins
  first : ∀ bin ∈ depot.shelf.bins, ¬ depot.Older bin oldest
  /-- Its time and number are the least, and those of no other bin. -/
  least : depot.Timed depot.shelf.bins → ∀ bin ∈ depot.shelf.bins, bin ≠ oldest →
    depot.creationKey oldest < depot.creationKey bin

/-- Bins left the shelf in a migration and stand at the end of the queue. -/
inductive Migrated (before : Depot) : List BinId → Depot → Prop
  /-- Exactly the bins that were due left, and none was evicted. -/
  | released (ready : List BinId) (between : Depot) (counters : Counters)
      (fed : ¬ before.Starved) (released : before.Released true ready between)
      (evictions : counters.binsEvicted = before.counters.binsEvicted) :
      Migrated before ready (between.moved ready counters)
  /-- The shelf was starved, and exactly the oldest bin left as one that is evicted. -/
  | evicted (oldest : BinId) (between : Depot) (counters : Counters)
      (starved : before.Starved) (isOldest : before.IsOldest oldest)
      (takenOff : before.TakenOff (fun _ reason => reason = .evicted) [oldest] between)
      (evictions : counters.binsEvicted = before.counters.binsEvicted + 1) :
      Migrated before [oldest] (between.moved [oldest] counters)

section Nothing

variable {why other : BinId → ReadyReason → Prop} {before between after : Depot}
  {left : List BinId} {bin : BinId}

/-- If nothing left, each bin is where it was. -/
theorem TakenOff.bins_iff (takenOff : before.TakenOff why [] after) :
    bin ∈ after.shelf.bins ↔ bin ∈ before.shelf.bins :=
  takenOff.mem_bins_iff.trans (and_iff_left List.not_mem_nil)

theorem TakenOff.bin_eq (takenOff : before.TakenOff why [] after) : after.bin = before.bin :=
  funext fun bin => takenOff.others bin List.not_mem_nil

theorem TakenOff.length_eq (takenOff : before.TakenOff why [] after)
    (arranged : before.Arranged) (rearranged : after.Arranged) :
    after.shelf.bins.length = before.shelf.bins.length := by
  rw [← arranged.binCount, ← rearranged.binCount]
  exact takenOff.binCount

/-- After nothing left, bins leave. -/
theorem TakenOff.nothing_trans (nothing : before.TakenOff why [] between)
    (takenOff : between.TakenOff other left after) : before.TakenOff other left after := by
  constructor
  case once => exact takenOff.once
  case marked => exact nothing.bin_eq ▸ takenOff.marked
  case others => exact nothing.bin_eq ▸ takenOff.others
  case opened => exact takenOff.opened
  case staying =>
    intro group
    rw [takenOff.staying, nothing.staying]
    simp
  case binCount => exact takenOff.binCount.trans nothing.binCount
  case rest => rw [takenOff.rest, nothing.rest]

theorem TakenOff.starved_iff (nothing : before.TakenOff why [] after)
    (arranged : before.Arranged) (rearranged : after.Arranged) :
    after.Starved ↔ before.Starved := by
  have length := nothing.length_eq arranged rearranged
  have empty : after.shelf.bins = [] ↔ before.shelf.bins = [] := by
    rw [← List.length_eq_zero_iff, length, List.length_eq_zero_iff]
  have waits : (∀ bin ∈ after.shelf.bins, ¬ after.IsDue true bin) ↔
      ∀ bin ∈ before.shelf.bins, ¬ before.IsDue true bin := by
    simp only [nothing.bins_iff, nothing.isDue_iff List.not_mem_nil]
  constructor
  · rintro ⟨some, full, waiting⟩
    rw [length, nothing.thresholds] at full
    exact ⟨mt empty.2 some, full, waits.1 waiting⟩
  · rintro ⟨some, full, waiting⟩
    rw [← length, ← nothing.thresholds] at full
    exact ⟨mt empty.1 some, full, waits.2 waiting⟩

theorem IsOldest.of_nothing (isOldest : after.IsOldest bin)
    (nothing : before.TakenOff why [] after) : before.IsOldest bin := by
  have created : after.bin = before.bin := nothing.bin_eq
  constructor
  case onShelf => exact nothing.bins_iff.1 isOldest.onShelf
  case first =>
    intro other member
    have first := isOldest.first other (nothing.bins_iff.2 member)
    unfold Older at first ⊢
    rwa [created] at first
  case least =>
    intro timed other member
    have timedThen : after.Timed after.shelf.bins :=
      fun other member => created ▸ timed other (nothing.bins_iff.1 member)
    have least := isOldest.least timedThen other (nothing.bins_iff.2 member)
    unfold creationKey at least ⊢
    rwa [created] at least

end Nothing

namespace Migrated

variable {before after : Depot} {left : List BinId} {bin : BinId}

theorem mem_bins_iff (migrated : before.Migrated left after) :
    bin ∈ after.shelf.bins ↔ bin ∈ before.shelf.bins ∧ bin ∉ left := by
  cases migrated with
  | released _ _ _ _ released => exact released.mem_bins_iff
  | evicted _ _ _ _ _ takenOff => exact takenOff.mem_bins_iff

/-- Whatever leaves stands behind the bins that were queued. -/
theorem queue (migrated : before.Migrated left after) : after.ready = before.ready ++ left := by
  cases migrated with
  | released _ _ _ _ released => rw [ready_moved, released.rest]
  | evicted _ _ _ _ _ takenOff => rw [ready_moved, takenOff.rest]

/-- The processor gets no bin. -/
theorem handled (migrated : before.Migrated left after) : after.handled = before.handled := by
  cases migrated with
  | released _ _ _ _ released => rw [handled_moved, released.rest]
  | evicted _ _ _ _ _ takenOff => rw [handled_moved, takenOff.rest]

/-- Whatever leaves was due, or is the oldest bin of a starved shelf. -/
theorem justified (migrated : before.Migrated left after) (isLeft : bin ∈ left) :
    before.IsDue true bin ∨ before.Starved ∧ before.IsOldest bin := by
  cases migrated with
  | released _ _ _ _ released => exact .inl ((released.due bin).1 isLeft).2
  | evicted oldest _ _ starved isOldest =>
      rw [List.mem_singleton.1 isLeft]
      exact .inr ⟨starved, isOldest⟩

/-- A bin that leaves as one that is evicted is all that leaves. -/
theorem evicted_iff (migrated : before.Migrated left after) (isLeft : bin ∈ left) :
    (after.bin bin).reason = some .evicted ↔
      before.Starved ∧ before.IsOldest bin ∧ left = [bin] := by
  cases migrated with
  | released _ between _ fed released =>
      obtain ⟨reason, dueFor, marked⟩ := released.marked bin isLeft
      rw [bin_moved, marked]
      refine ⟨fun told => ?_, fun holds => absurd holds.1 fed⟩
      obtain rfl : reason = .evicted := Option.some.inj told
      cases dueFor
  | evicted oldest between _ starved isOldest takenOff =>
      obtain rfl := List.mem_singleton.1 isLeft
      obtain ⟨_, rfl, marked⟩ := takenOff.marked bin isLeft
      rw [bin_moved, marked]
      exact ⟨fun _ => ⟨starved, isOldest, rfl⟩, fun _ => rfl⟩

/-- A bin is evicted just if the shelf was starved. -/
theorem evicts_iff (migrated : before.Migrated left after) :
    (∃ bin ∈ left, (after.bin bin).reason = some .evicted) ↔ before.Starved := by
  constructor
  · rintro ⟨bin, isLeft, told⟩
    exact ((migrated.evicted_iff isLeft).1 told).1
  · intro starved
    cases migrated with
    | released _ _ _ fed => exact absurd starved fed
    | evicted oldest between _ _ _ takenOff =>
        obtain ⟨_, rfl, marked⟩ := takenOff.marked oldest (by simp)
        exact ⟨oldest, by simp, by rw [bin_moved, marked]⟩

end Migrated

end Depot

namespace Engine

open Depot

variable {depot : Depot}

/-- If no bin is due, the oldest one is evicted from a starved shelf and none from another. -/
theorem evictAtCapacity_evicts (orderly : depot.Orderly Dated)
    (waits : ∀ bin ∈ depot.shelf.bins, ¬ depot.IsDue true bin) :
    (evictAtCapacity depot = (.ok 0, depot) ∧ ¬ depot.Starved) ∨
      ∃ oldest between, evictAtCapacity depot = (.ok 1, between.moved [oldest]
          { between.counters with binsEvicted := between.counters.binsEvicted + 1 }) ∧
        depot.Starved ∧ depot.IsOldest oldest ∧
        depot.TakenOff (fun _ reason => reason = .evicted) [oldest] between := by
  obtain ⟨arranged, dated⟩ := orderly
  obtain ⟨most, isMost⟩ := arranged.thresholds.maxBinCount
  have asked : askShelf Shelf.isAtCapacity depot =
      (.ok (decide (most ≤ (depot.shelf.bins.length : Int))), depot) := by
    refine congrArg (·, depot) ?_
    rw [Shelf.isAtCapacity, isMost, Value.isAtLeast_int, arranged.binCount]
  unfold evictAtCapacity
  rw [Act.bind_of_ok asked]
  by_cases full : most ≤ (depot.shelf.bins.length : Int)
  · rw [if_pos (decide_eq_true full)]
    rcases Shelf.removeOldest_removes arranged with
      ⟨none, run⟩ | ⟨oldest, between, run, departed, rearranged, found, told⟩ <;>
        rw [Act.bind_of_ok run]
    · exact .inl ⟨rfl, fun starved => starved.some none⟩
    · obtain ⟨member, first, least⟩ :=
        Shelf.oldest_spec dated (fun bin => arranged.isBin_of_mem_bins) found
      refine .inr ⟨oldest, between, rfl, ?_, ⟨member, first, least⟩, ?_⟩
      · exact ⟨List.ne_nil_of_mem member, ⟨most, isMost, full⟩, waits⟩
      · exact departed.takenOff arranged rearranged
          (List.forall_mem_singleton.2 ⟨.evicted, rfl, told⟩)
  · refine .inl ⟨by rw [if_neg (by simpa using full)]; rfl, fun starved => ?_⟩
    obtain ⟨limit, isLimit, reached⟩ := starved.full
    cases isMost.symm.trans isLimit
    exact full reached

/-- A migration never fails; it takes the bins that are due, or evicts the oldest one. -/
theorem migrateBins_migrates (orderly : depot.Orderly Dated) :
    ∃ left after, migrateBins depot = (.ok left.length, after) ∧ depot.Migrated left after := by
  obtain ⟨ready, between, run, released, ordered⟩ := Shelf.removeReady_releases true orderly
  have same : between.counters = depot.counters := by rw [released.rest]
  cases ready with
  | cons bin rest =>
      refine ⟨bin :: rest, _, migrateBins_of_ready run,
        .released (bin :: rest) between _ ?_ released (congrArg (·.binsEvicted) same)⟩
      have ⟨member, due⟩ := (released.due bin).1 (by simp)
      exact fun starved => starved.waits bin member due
  | nil =>
      have nothing := released.toTakenOff
      have starvedIff := nothing.starved_iff orderly.arranged ordered.arranged
      rw [migrateBins_of_none run]
      rcases evictAtCapacity_evicts ordered fun bin => released.not_due with
        ⟨stays, fed⟩ | ⟨oldest, last, evicts, starved, isOldest, takenOff⟩
      · refine ⟨[], between.moved [] between.counters, ?_, .released [] between _
          (mt starvedIff.2 fed) released (congrArg (·.binsEvicted) same)⟩
        rw [Act.bind_of_ok stays, between.moved_nil]
        rfl
      · refine ⟨[oldest], _, Act.bind_of_ok evicts _, .evicted oldest last _
          (starvedIff.1 starved) (isOldest.of_nothing nothing) (nothing.nothing_trans takenOff) ?_⟩
        have unchanged : last.counters = depot.counters := by rw [takenOff.rest, released.rest]
        exact congrArg (·.binsEvicted + 1) unchanged

section Activation

variable {engine : Engine} {property : Flow → Prop} {mayPut : List Item → Prop}
  (carried : Flow.Carried property) (putKeeps : PutKeeps property mayPut)
  (behave : engine.hooks.Behave mayPut)
include carried putKeeps behave

omit carried putKeeps in
/-- Of what follows the intake only the migration takes bins off the shelf. -/
theorem afterIntake_shelf (itemsBinned : Nat) (sound : depot.Sound property []) :
    ((engine.afterIntake itemsBinned).final depot).shelf.bins =
      (migrateBins.final depot).shelf.bins := by
  obtain ⟨left, between, counters, migrates, _⟩ := migrateBins_spec sound.arranged
  have queued := (migrateBins_sound.final sound).queued.isBin
  unfold Act.final at queued ⊢
  rw [migrates] at queued ⊢
  obtain ⟨moved, isMoved⟩ : ∃ moved, moved = between.moved left counters := ⟨_, rfl⟩
  rw [← isMoved] at migrates queued ⊢
  have drained (activation : Activation) : (engine.drain activation).Meets (· = moved)
      (fun _ => moved.Elapsed) fun _ => moved.Elapsed := by
    apply Act.Meets.of_final
    rintro _ rfl
    exact drain_elapsed behave.process activation queued
  have concluded (activation : Activation) : (conclude activation).Keeps moved.Elapsed := by
    unfold conclude
    split
    · exact (count_elapsed _).bind fun _ => Act.Keeps.pure _
    · exact Act.Keeps.pure _
  have elapsed := ((drained { itemsBinned, binsMigrated := left.length }).bind concluded).final rfl
  unfold afterIntake
  rw [Act.bind_of_ok migrates]
  exact elapsed.bins

/-- After the intake an activation does no more to the shelf than a migration. -/
theorem activate_shelf (answers : List Bool) (sound : depot.Sound property []) :
    let stocked := (takeIn engine answers).final depot
    let after := (engine.activate answers).final depot
    after.shelf.bins = stocked.shelf.bins ∨
      after.shelf.bins = (migrateBins.final stocked).shelf.bins := by
  intro stocked after
  have rules := intakeRules carried putKeeps behave.preprocess behave.groupKey behave.versions
  have soundThen : stocked.Sound property [] := (rules.takeIn answers).final sound
  have isAfter : after = (engine.activate answers depot).2 := rfl
  rw [activate_eq] at isAfter
  rcases run : takeIn engine answers depot with ⟨fault | taken, reached⟩
  · have isStocked : stocked = reached := congrArg Prod.snd run
    rw [Act.bind_of_error run] at isAfter
    exact .inl (by rw [isAfter, isStocked])
  · have isStocked : stocked = reached := congrArg Prod.snd run
    rw [Act.bind_of_ok run] at isAfter
    dsimp only at isAfter
    rw [← isStocked] at isAfter
    split at isAfter
    · exact .inr (isAfter ▸ afterIntake_shelf behave taken.1 soundThen)
    · exact .inl (by rw [isAfter]; rfl)

end Activation

/-- After every run of events, and after every intake from there, a migration takes the bins
that are due, or evicts exactly the oldest bin just if the shelf is starved.  Whatever left
the shelf when the activation ends was due, or is the oldest bin of a starved shelf. -/
theorem evicts_only_oldest_of_starved (engine : Engine)
    (behave : engine.hooks.Behave fun items => ∀ item ∈ items, item.HasWholeSize)
    (source : List Item) (relationships : List String) (clock : Moment) (policy : Policy)
    (events : List Event) (answers : List Bool)
    (whole : ∀ item ∈ source ++ events.flatMap Event.items, item.HasWholeSize) :
    let before := run engine
      (opening { source, sinks := Flow.sinksFor relationships } clock policy) events
    let stocked := (takeIn engine answers).final before
    let after := (engine.activate answers).final before
    (∃ left moved, migrateBins stocked = (.ok left.length, moved) ∧
        stocked.Migrated left moved ∧
        ((∃ bin ∈ left, (moved.bin bin).reason = some .evicted) ↔ stocked.Starved) ∧
        ∀ bin ∈ left, (moved.bin bin).reason = some .evicted →
          left = [bin] ∧ stocked.IsOldest bin) ∧
      before.shelf.bins ⊆ stocked.shelf.bins ∧
      ∀ bin ∈ stocked.shelf.bins, bin ∉ after.shelf.bins →
        stocked.IsDue true bin ∨ stocked.Starved ∧ stocked.IsOldest bin := by
  intro before stocked after
  have putKeeps : PutKeeps (fun _ => True) fun items => ∀ item ∈ items, item.HasWholeSize :=
    ⟨fun _ _ _ _ => trivial, fun _ => id⟩
  have carried := tracked_anything.carried []
  obtain ⟨sound, dated⟩ := run_opening_dated behave source relationships clock policy events whole
  have ⟨soundThen, retains⟩ := (takeIn_dated carried putKeeps behave before.shelf.bins
    answers).final ⟨sound, dated, List.Subset.refl _⟩
  obtain ⟨left, moved, run, migrated⟩ := migrateBins_migrates ⟨soundThen.arranged, retains.dated⟩
  have evicted (bin : BinId) (isLeft : bin ∈ left)
      (told : (moved.bin bin).reason = some .evicted) : left = [bin] ∧ stocked.IsOldest bin :=
    ((migrated.evicted_iff isLeft).1 told).2.symm
  refine ⟨⟨left, moved, run, migrated, migrated.evicts_iff, evicted⟩, retains.shelved,
    fun bin onShelf gone => migrated.justified ?_⟩
  have isMoved : migrateBins.final stocked = moved := congrArg Prod.snd run
  rcases activate_shelf carried putKeeps behave answers sound with same | same
  · exact absurd (same ▸ onShelf) gone
  · by_contra stays
    refine gone ?_
    rw [same, isMoved]
    exact migrated.mem_bins_iff.2 ⟨onShelf, stays⟩

/-- Of two bins that were created at the same time the first is evicted. -/
theorem evicts_first_of_two :
    let source : List Item := [{ id := "a", size := .int 6 }, { id := "b", size := .int 6 }]
    let policy : Policy := { minSize := 10, maxSize := some 10, maxBinCount := 2 }
    let stocked := (takeIn mixed [true]).final
      (opening { source, sinks := Flow.sinksFor [] } {} policy)
    stocked.Starved ∧ stocked.IsOldest 0 ∧
      ∃ moved, migrateBins stocked = (.ok 1, moved) ∧ stocked.Migrated [0] moved := by
  intro source policy stocked
  have whole : ∀ item ∈ source ++ ([] : List Event).flatMap Event.items, item.HasWholeSize := by
    have size : ∀ item ∈ source, item.size = .int 6 := by simp [source]
    exact fun item member => ⟨6, size item (by simpa using member)⟩
  obtain ⟨⟨left, moved, run, migrated, evicts, oldest⟩, _⟩ := evicts_only_oldest_of_starved mixed
    (behave_mixed _) source [] {} policy [] [true] whole
  have run : migrateBins stocked = (.ok left.length, moved) := run
  have isMoved : (migrateBins stocked).2 = moved := congrArg Prod.snd run
  have queued : (migrateBins stocked).2.ready = [0] := by decide +kernel
  have none : stocked.ready = [] := by decide +kernel
  have told : ((migrateBins stocked).2.bin 0).reason = some .evicted := by decide +kernel
  obtain rfl : [0] = left := by
    have queue : moved.ready = stocked.ready ++ left := migrated.queue
    rwa [← isMoved, queued, none] at queue
  rw [isMoved] at told
  exact ⟨evicts.1 ⟨0, by simp, told⟩, (oldest 0 (by simp) told).2, moved, run, migrated⟩

end Engine

end ItemBinning
