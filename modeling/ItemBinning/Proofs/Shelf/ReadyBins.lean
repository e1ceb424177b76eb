import ItemBinning.Proofs.Bin.Due
import ItemBinning.Proofs.Shelf.Seniority

/-!
# The bins that are ready leave

Taking the ready bins off the shelf takes exactly the bins that are due, whatever the
clock shows.  Each of them is marked with the first reason for which it is due, and they
stand in the order of their times and numbers.  The other bins stay open as they are and
where they are, and none of them is due, so that nothing is left to take.
-/

namespace ItemBinning

namespace Depot

/-- The bin on the shelf is due at the present time under the thresholds in force. -/
def IsDue (depot : Depot) (relaxed : Bool) (bin : BinId) : Prop :=
  (depot.bin bin).Due relaxed depot.clock depot.shelf.thresholds.maxBinAge

section Due

variable {depot : Depot} {relaxed : Bool} {bin : BinId}

theorem Arranged.readyFor_iff (arranged : depot.Arranged) (member : bin ∈ depot.shelf.bins)
    (reason : ReadyReason) :
    depot.ReadyFor relaxed bin reason ↔ (depot.bin bin).DueFor relaxed depot.clock
      depot.shelf.thresholds.maxBinAge reason :=
  Bin.readyReason?_iff (arranged.removable member).bounds arranged.thresholds.maxBinAge

theorem Arranged.waits_iff (arranged : depot.Arranged) (member : bin ∈ depot.shelf.bins) :
    depot.Waits relaxed bin ↔ ¬ depot.IsDue relaxed bin :=
  Bin.readyReason?_none_iff (arranged.removable member).bounds arranged.thresholds.maxBinAge

end Due

/-- Bins left the shelf and are ready for reasons, and nothing else happened. -/
structure TakenOff (why : BinId → ReadyReason → Prop) (before : Depot) (left : List BinId)
    (after : Depot) : Prop where
  once : left.Nodup
  /-- Each is ready for its reason, and as it was otherwise. -/
  marked : ∀ bin ∈ left, ∃ reason, why bin reason ∧
    after.bin bin = { before.bin bin with state := .ready, reason := some reason }
  others : ∀ bin ∉ left, after.bin bin = before.bin bin
  opened : ∀ bin ∈ after.shelf.bins, (after.bin bin).state = .opened
  /-- The other bins of each group stand as they stood. -/
  staying : ∀ group, after.shelf.binsOf group =
    (before.shelf.binsOf group).filter (· ∉ left)
  binCount : after.shelf.binCount + left.length = before.shelf.binCount
  /-- Sessions, items and everything else are untouched. -/
  rest : after = { before with
    bins := after.bins
    shelf := { before.shelf with
      groups := after.shelf.groups, binCount := after.shelf.binCount } }

/-- The bins that were due left the shelf. -/
structure Released (relaxed : Bool) (before : Depot) (ready : List BinId) (after : Depot) :
    Prop extends TakenOff (fun bin => (before.bin bin).DueFor relaxed before.clock
      before.shelf.thresholds.maxBinAge) before ready after where
  /-- Exactly the bins that were due left. -/
  due : ∀ bin, bin ∈ ready ↔ bin ∈ before.shelf.bins ∧ before.IsDue relaxed bin
  /-- They stand in the order of their creation over all groups. -/
  ascending : before.Timed ready → ready.Pairwise fun first second =>
    before.creationKey first < before.creationKey second

section TakenOff

variable {why : BinId → ReadyReason → Prop} {before after : Depot} {left : List BinId}
  {relaxed : Bool} {bin : BinId}

theorem Departed.takenOff (departed : before.Departed left after) (arranged : before.Arranged)
    (arrangedAfter : after.Arranged)
    (reasons : ∀ bin ∈ left, ∃ reason, why bin reason ∧ (after.bin bin).reason = some reason) :
    before.TakenOff why left after := by
  constructor
  case once => exact departed.nodup_left arranged
  case marked =>
    intro bin isLeft
    obtain ⟨reason, isReason, told⟩ := reasons bin isLeft
    obtain ⟨mark, _, isMarked⟩ := departed.ready isLeft
    refine ⟨reason, isReason, ?_⟩
    rw [isMarked] at told ⊢
    rw [← told]
  case others => exact fun bin => departed.others
  case opened => exact fun bin => arrangedAfter.opened_of_mem_bins
  case staying => exact departed.binsOf_eq_filter arranged
  case binCount =>
    have whole := departed.whole.length_eq
    rw [List.length_append, ← arranged.binCount, ← arrangedAfter.binCount] at whole
    omega
  case rest =>
    rw [departed.marked.rest]
    have thresholds := departed.thresholds
    dsimp only at thresholds ⊢
    rw [← thresholds]

/-- Bins that left for their reasons, when no other bin was ready, are all that were due. -/
theorem Departed.released {taken : List BinId}
    (departed : before.Departed (Shelf.byCreation after taken) after)
    (orderly : before.Orderly Dated) (arranged : after.Arranged)
    (waits : ∀ bin ∈ after.shelf.bins, before.Waits relaxed bin)
    (justly : before.Justly relaxed (Shelf.byCreation after taken) after) :
    before.Released relaxed (Shelf.byCreation after taken) after := by
  have sorted : (Shelf.byCreation after taken).Perm taken := sortBy_perm _ taken
  have once := departed.nodup_left orderly.arranged
  have onShelf : ∀ bin ∈ Shelf.byCreation after taken, bin ∈ before.shelf.bins :=
    fun bin isReady => departed.mem_bins_iff.2 (.inl isReady)
  have created : ∀ bin, (after.bin bin).created = (before.bin bin).created :=
    fun bin => (departed.matching bin).created
  have reasons : ∀ bin ∈ Shelf.byCreation after taken, ∃ reason,
      (before.bin bin).DueFor relaxed before.clock before.shelf.thresholds.maxBinAge reason ∧
        (after.bin bin).reason = some reason := by
    intro bin isReady
    obtain ⟨reason, readyFor, told⟩ := justly bin isReady
    exact ⟨reason, (orderly.arranged.readyFor_iff (onShelf bin isReady) reason).1 readyFor, told⟩
  refine ⟨departed.takenOff orderly.arranged arranged reasons,
    fun bin => ⟨fun isReady => ?_, fun due => ?_⟩, fun timed => ?_⟩
  · obtain ⟨reason, dueFor, _⟩ := reasons bin isReady
    exact ⟨onShelf bin isReady, Bin.due_iff.2 ⟨reason, dueFor⟩⟩
  · refine (departed.mem_bins_iff.1 due.1).resolve_right fun stays => ?_
    exact (orderly.arranged.waits_iff due.1).1 (waits bin stays) due.2
  · have same : after.creationKey = before.creationKey := by
      funext bin
      unfold creationKey
      rw [created]
    have dated : after.Dated :=
      orderly.kept.of_matching departed.next departed.clock departed.matching
    rw [← same]
    refine Shelf.byCreation_ascends dated (fun bin member => ?_) (sorted.nodup_iff.1 once) ?_
    · rw [departed.next]
      exact orderly.arranged.isBin_of_mem_bins (onShelf bin (sorted.mem_iff.2 member))
    · intro bin member
      rw [created]
      exact timed bin (sorted.mem_iff.2 member)

theorem TakenOff.mem_bins_iff (takenOff : before.TakenOff why left after) :
    bin ∈ after.shelf.bins ↔ bin ∈ before.shelf.bins ∧ bin ∉ left := by
  simp only [Shelf.mem_bins_iff, takenOff.staying, List.mem_filter, decide_eq_true_iff,
    exists_and_right]

theorem TakenOff.clock (takenOff : before.TakenOff why left after) :
    after.clock = before.clock := by
  rw [takenOff.rest]

theorem TakenOff.thresholds (takenOff : before.TakenOff why left after) :
    after.shelf.thresholds = before.shelf.thresholds := by
  rw [takenOff.rest]

/-- A bin that stayed is due just if it was before. -/
theorem TakenOff.isDue_iff (takenOff : before.TakenOff why left after) (stayed : bin ∉ left) :
    after.IsDue relaxed bin ↔ before.IsDue relaxed bin := by
  unfold IsDue
  rw [takenOff.others bin stayed, takenOff.clock, takenOff.thresholds]

/-- None of the bins that stayed is due at the same time. -/
theorem Released.not_due (released : before.Released relaxed left after)
    (member : bin ∈ after.shelf.bins) : ¬ after.IsDue relaxed bin := by
  have ⟨wasThere, stayed⟩ := released.mem_bins_iff.1 member
  rw [released.isDue_iff stayed]
  exact fun due => stayed ((released.due bin).2 ⟨wasThere, due⟩)

end TakenOff

end Depot

namespace Shelf

open Depot

/-- The bins that are due leave an arranged shelf. -/
theorem removeReady_releases (relaxed : Bool) {depot : Depot} (orderly : depot.Orderly Dated) :
    ∃ ready reached, removeReady relaxed depot = (.ok ready, reached) ∧
      depot.Released relaxed ready reached ∧ reached.Orderly Dated := by
  obtain ⟨taken, reached, run, departed, arranged, waits, justly⟩ :=
    removeReady_removes relaxed orderly.arranged
  have dated : reached.Dated :=
    orderly.kept.of_matching departed.next departed.clock departed.matching
  exact ⟨_, reached, run, departed.released orderly arranged waits justly, arranged, dated⟩

/-- After every run of turns, at whatever time, taking the ready bins off the shelf takes
exactly those that are due, and taking them again takes none. -/
theorem removes_exactly_due (flow : Flow) (clock : Moment) (policy : Policy) (turns : List Turn)
    (relaxed : Bool) :
    let depot := Turn.run (opening flow clock policy) turns
    ∃ ready reached, removeReady relaxed depot = (.ok ready, reached) ∧
      depot.Released relaxed ready reached ∧ (removeReady relaxed reached).1 = .ok [] := by
  intro depot
  have orderly := Turn.run_orderly turns (Turn.orderly_opening flow clock policy)
  obtain ⟨ready, reached, run, released, ordered⟩ := removeReady_releases relaxed orderly
  obtain ⟨more, last, again, releasedAgain, _⟩ := removeReady_releases relaxed ordered
  have none : more = [] := by
    refine List.eq_nil_iff_forall_not_mem.2 fun bin isReady => ?_
    obtain ⟨member, due⟩ := (releasedAgain.due bin).1 isReady
    exact released.not_due member due
  exact ⟨ready, reached, run, released, by rw [again, none]⟩

end Shelf

end ItemBinning
