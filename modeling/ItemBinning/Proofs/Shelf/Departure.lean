import ItemBinning.Proofs.Flow.Carried
import ItemBinning.Proofs.Flow.Movement
import ItemBinning.Proofs.Shelf.Arrangement
import ItemBinning.Shelf.Removal

/-!
# Bins that leave the shelf

Bins leave the shelf as ready bins, several at once or a single one, or all of
them are discarded.  On an arranged shelf none of this fails.  The bins that left
and those that stay are together the bins that were there; the bins that stay,
the queue and the flow are as before, and the shelf is arranged again.
-/

namespace ItemBinning

namespace Depot

/-- Some bins were made ready, each for a reason of its own, and nothing else changed. -/
structure Marked (before : Depot) (marked : List BinId) (after : Depot) : Prop where
  rest : after = { before with bins := after.bins }
  next : after.bins.next = before.bins.next
  others : ∀ bin ∉ marked, after.bin bin = before.bin bin
  ready : ∀ bin ∈ marked, ∃ reason, reason ≠ .unbound ∧
    after.bin bin = { before.bin bin with state := .ready, reason := some reason }

theorem Marked.refl (depot : Depot) : depot.Marked [] depot :=
  ⟨rfl, rfl, fun _ _ => rfl, nofun⟩

theorem Marked.trans {first second third : Depot} {marked more : List BinId}
    (markedFirst : first.Marked marked second) (markedSecond : second.Marked more third) :
    first.Marked (marked ++ more) third where
  rest := by
    have rest := markedSecond.rest
    rw [markedFirst.rest] at rest
    exact rest
  next := markedSecond.next.trans markedFirst.next
  others bin absent := by
    rw [List.mem_append, not_or] at absent
    rw [markedSecond.others bin absent.2, markedFirst.others bin absent.1]
  ready bin member := by
    by_cases again : bin ∈ more
    · obtain ⟨reason, bound, isReady⟩ := markedSecond.ready bin again
      refine ⟨reason, bound, ?_⟩
      by_cases already : bin ∈ marked
      · obtain ⟨_, _, wasReady⟩ := markedFirst.ready bin already
        rw [isReady, wasReady]
      · rw [isReady, markedFirst.others bin already]
    · have already := (List.mem_append.1 member).resolve_right again
      obtain ⟨reason, bound, isReady⟩ := markedFirst.ready bin already
      exact ⟨reason, bound, by rw [markedSecond.others bin again, isReady]⟩

theorem Marked.setShelf {before after : Depot} {marked : List BinId}
    (isMarked : before.Marked marked after) (shelf : Shelf) :
    Marked { before with shelf } marked { after with shelf } where
  rest := by
    have rest := congrArg (fun depot : Depot => { depot with shelf }) isMarked.rest
    exact rest
  next := isMarked.next
  others := isMarked.others
  ready := isMarked.ready

theorem markReady_eq {depot : Depot} {number : BinId} (reason : ReadyReason)
    (isOpen : (depot.bin number).state = .opened) :
    markReady number reason depot = (.ok (),
      depot.setBin number
        { depot.bin number with state := .ready, reason := some reason }) := by
  have follows : .ready ∈ (depot.bin number).state.successors := by
    rw [isOpen]
    simp [BinState.successors]
  unfold markReady
  rw [Act.bind_of_ok (mark_eq follows)]
  simp only [Act.modify, bin_setBin_self, setBin_setBin]

theorem marked_setBin {depot : Depot} {number : BinId} (isBin : number < depot.bins.next)
    {reason : ReadyReason} (bound : reason ≠ .unbound) :
    depot.Marked [number] (depot.setBin number
      { depot.bin number with state := .ready, reason := some reason }) where
  rest := rfl
  next := Slots.next_set_of_lt isBin _
  others bin absent := by
    rw [bin_setBin, if_neg (by simpa using absent)]
  ready bin member := by
    rw [List.mem_singleton.1 member, bin_setBin_self]
    exact ⟨reason, bound, rfl⟩

/-- Some bins left the shelf as ready bins, and nothing else changed.  The bins of
each group that stay are in their order, and no group is kept empty. -/
structure Departed (before : Depot) (left : List BinId) (after : Depot) : Prop where
  marked : Marked { before with shelf := after.shelf } left after
  thresholds : after.shelf.thresholds = before.shelf.thresholds
  staying : ∀ group, (after.shelf.binsOf group).Sublist (before.shelf.binsOf group)
  filled : before.shelf.Filled → after.shelf.Filled
  whole : (left ++ after.shelf.bins).Perm before.shelf.bins

namespace Departed

variable {before after : Depot} {left : List BinId}

theorem refl (depot : Depot) : depot.Departed [] depot :=
  ⟨.refl depot, rfl, fun _ => .refl _, id, .refl _⟩

theorem trans {first second third : Depot} {left more : List BinId}
    (departedFirst : first.Departed left second)
    (departedSecond : second.Departed more third) :
    first.Departed (left ++ more) third where
  marked := (departedFirst.marked.setShelf third.shelf).trans departedSecond.marked
  thresholds := departedSecond.thresholds.trans departedFirst.thresholds
  staying group := (departedSecond.staying group).trans (departedFirst.staying group)
  filled := departedSecond.filled ∘ departedFirst.filled
  whole := by
    rw [List.append_assoc]
    exact (departedSecond.whole.append_left left).trans departedFirst.whole

theorem next (departed : before.Departed left after) :
    after.bins.next = before.bins.next :=
  departed.marked.next

theorem flow (departed : before.Departed left after) : after.flow = before.flow := by
  rw [departed.marked.rest]

theorem queue (departed : before.Departed left after) : after.ready = before.ready := by
  rw [departed.marked.rest]

theorem clock (departed : before.Departed left after) : after.clock = before.clock := by
  rw [departed.marked.rest]

theorem moves (departed : before.Departed left after) : after.moves = before.moves := by
  rw [departed.marked.rest]

theorem others (departed : before.Departed left after) {bin : BinId}
    (absent : bin ∉ left) : after.bin bin = before.bin bin :=
  departed.marked.others bin absent

theorem ready (departed : before.Departed left after) {bin : BinId}
    (member : bin ∈ left) : ∃ reason, reason ≠ .unbound ∧
      after.bin bin = { before.bin bin with state := .ready, reason := some reason } :=
  departed.marked.ready bin member

theorem matching (departed : before.Departed left after) (bin : BinId) :
    (after.bin bin).Matches (before.bin bin) := by
  by_cases member : bin ∈ left
  · obtain ⟨_, _, isReady⟩ := departed.ready member
    rw [isReady]
    exact ⟨rfl, rfl, rfl, rfl⟩
  · rw [departed.others member]
    exact .refl _

theorem mem_bins_iff (departed : before.Departed left after) {bin : BinId} :
    bin ∈ before.shelf.bins ↔ bin ∈ left ∨ bin ∈ after.shelf.bins := by
  rw [← departed.whole.mem_iff, List.mem_append]

theorem nodup_left (departed : before.Departed left after) (arranged : before.Arranged) :
    left.Nodup :=
  ((departed.whole.nodup_iff.2 arranged.nodup_bins).sublist
    (List.sublist_append_left _ _))

theorem gone (departed : before.Departed left after) (arranged : before.Arranged)
    {bin : BinId} (member : bin ∈ left) : bin ∉ after.shelf.bins :=
  List.disjoint_of_nodup_append (departed.whole.nodup_iff.2 arranged.nodup_bins) member

/-- The bins of a group that stay are those that did not leave. -/
theorem binsOf_eq_filter (departed : before.Departed left after) (arranged : before.Arranged)
    (group : Key) :
    after.shelf.binsOf group = (before.shelf.binsOf group).filter (· ∉ left) := by
  have distinct := arranged.nodup_binsOf group
  have staying := departed.staying group
  have members : ∀ bin, bin ∈ after.shelf.binsOf group ↔
      bin ∈ (before.shelf.binsOf group).filter (· ∉ left) := by
    intro bin
    rw [List.mem_filter, decide_eq_true_iff]
    constructor
    · intro stays
      refine ⟨staying.subset stays, fun isLeft => ?_⟩
      exact departed.gone arranged isLeft (Shelf.mem_bins_iff.2 ⟨group, stays⟩)
    · rintro ⟨member, stays⟩
      obtain ⟨other, inOther⟩ := Shelf.mem_bins_iff.1
        ((departed.mem_bins_iff.1 (Shelf.mem_bins_iff.2 ⟨group, member⟩)).resolve_left stays)
      exact arranged.group_unique ((departed.staying other).subset inOther) member ▸ inOther
  have same : (after.shelf.binsOf group).Perm ((before.shelf.binsOf group).filter (· ∉ left)) :=
    (List.perm_ext_iff_of_nodup (distinct.sublist staying) (distinct.filter _)).2 members
  have within := staying.filter fun bin => decide (bin ∉ left)
  have stay : ∀ bin ∈ after.shelf.binsOf group, decide (bin ∉ left) = true :=
    fun bin stays => (List.mem_filter.1 ((members bin).1 stays)).2
  rw [List.filter_eq_self.2 stay] at within
  exact within.eq_of_length same.length_eq

theorem arranged (departed : before.Departed left after) (arranged : before.Arranged)
    (counted : after.shelf.binCount + left.length = before.shelf.binCount) :
    after.Arranged where
  registered := arranged.registered.of_matching departed.next
    (Nat.le_of_eq (by rw [departed.flow])) departed.matching
  thresholds := departed.thresholds ▸ arranged.thresholds
  binCount := by
    have whole := departed.whole.length_eq
    rw [List.length_append, ← arranged.binCount] at whole
    omega
  filled := departed.filled arranged.filled
  isBin group bin member := by
    rw [departed.next]
    exact arranged.isBin group bin ((departed.staying group).subset member)
  opened group bin member := by
    have stays : bin ∉ left := fun isLeft =>
      departed.gone arranged isLeft (Shelf.mem_bins_iff.2 ⟨group, member⟩)
    rw [departed.others stays]
    exact arranged.opened group bin ((departed.staying group).subset member)
  filed group bin member := by
    rw [(departed.matching bin).group]
    exact arranged.filed group bin ((departed.staying group).subset member)
  ascending group := (arranged.ascending group).sublist (departed.staying group)

/-- Bins of one group leave when they are made ready and the group is replaced by
the others. -/
theorem of_group {between : Depot} {group : Key} {others : List BinId}
    (marked : before.Marked left between) (binCount : Nat)
    (staying : others.Sublist (before.shelf.binsOf group))
    (whole : (left ++ others).Perm (before.shelf.binsOf group)) :
    before.Departed left { between with
      shelf := { before.shelf.setGroup group others with binCount } } where
  marked := marked.setShelf _
  thresholds := rfl
  staying other := by
    change ((before.shelf.setGroup group others).binsOf other).Sublist _
    rw [Shelf.binsOf_setGroup]
    split
    · rename_i same
      exact same ▸ staying
    · exact .refl _
  filled filled := filled.setGroup group others
  whole := by
    have exchanged := before.shelf.bins_setGroup_perm group others
    change (left ++ (before.shelf.setGroup group others).bins).Perm _
    refine (List.perm_append_right_iff (before.shelf.binsOf group)).1 ?_
    rw [List.append_assoc]
    refine (exchanged.append_left left).trans ?_
    refine List.perm_append_comm_assoc _ _ _ |>.trans ?_
    exact whole.append_left before.shelf.bins

/-- It does not matter in which order the bins are said to have left, nor how many
are counted. -/
theorem recount (departed : before.Departed left after) {sorted : List BinId}
    (perm : sorted.Perm left) (binCount : Nat) :
    before.Departed sorted { after with shelf := { after.shelf with binCount } } where
  marked := by
    have marked := departed.marked.setShelf { after.shelf with binCount }
    refine ⟨marked.rest, marked.next, ?_, ?_⟩
    · exact fun bin absent => marked.others bin (perm.mem_iff.not.1 absent)
    · exact fun bin member => marked.ready bin (perm.mem_iff.1 member)
  thresholds := departed.thresholds
  staying := departed.staying
  filled := departed.filled
  whole := (perm.append_right _).trans departed.whole

end Departed

/-- The bin is not ready now. -/
def Waits (depot : Depot) (relaxed : Bool) (bin : BinId) : Prop :=
  (depot.bin bin).readyReason? relaxed depot.clock
    depot.shelf.thresholds.maxBinAge = .ok none

/-- The bin is ready now, for a reason. -/
def ReadyFor (depot : Depot) (relaxed : Bool) (bin : BinId) (reason : ReadyReason) : Prop :=
  (depot.bin bin).readyReason? relaxed depot.clock
    depot.shelf.thresholds.maxBinAge = .ok (some reason)

/-- The bins were ready, and each is marked with the reason. -/
def Justly (before : Depot) (relaxed : Bool) (marked : List BinId) (after : Depot) : Prop :=
  ∀ bin ∈ marked, ∃ reason, before.ReadyFor relaxed bin reason ∧
    (after.bin bin).reason = some reason

/-- The bin is open and it is known whether it is ready. -/
structure Removable (depot : Depot) (bin : BinId) : Prop where
  isBin : bin < depot.bins.next
  opened : (depot.bin bin).state = .opened
  bounds : (depot.bin bin).bounds.Whole

theorem Arranged.removable {depot : Depot} (arranged : depot.Arranged) {bin : BinId}
    (member : bin ∈ depot.shelf.bins) : depot.Removable bin :=
  ⟨arranged.isBin_of_mem_bins member, arranged.opened_of_mem_bins member,
    arranged.registered.bounds bin (arranged.isBin_of_mem_bins member)⟩

section Others

variable {before between after : Depot} {left more : List BinId} {bin : BinId}

theorem Removable.of_same (removable : before.Removable bin)
    (next : after.bins.next = before.bins.next) (same : after.bin bin = before.bin bin) :
    after.Removable bin := by
  obtain ⟨isBin, opened, bounds⟩ := removable
  refine ⟨next.symm ▸ isBin, ?_, ?_⟩ <;> rw [same]
  exacts [opened, bounds]

/-- A bin that was not made ready itself is asked as before. -/
theorem Marked.asked (marked : before.Marked left after) (relaxed : Bool) (absent : bin ∉ left) :
    (after.bin bin).readyReason? relaxed after.clock after.shelf.thresholds.maxBinAge =
      (before.bin bin).readyReason? relaxed before.clock
        before.shelf.thresholds.maxBinAge := by
  rw [marked.others bin absent, marked.rest]

theorem Departed.asked (departed : before.Departed left after) (relaxed : Bool)
    (absent : bin ∉ left) :
    (after.bin bin).readyReason? relaxed after.clock after.shelf.thresholds.maxBinAge =
      (before.bin bin).readyReason? relaxed before.clock
        before.shelf.thresholds.maxBinAge := by
  rw [departed.others absent, departed.clock, departed.thresholds]

theorem Departed.waits_iff (departed : before.Departed left after) (relaxed : Bool)
    (absent : bin ∉ left) : after.Waits relaxed bin ↔ before.Waits relaxed bin := by
  unfold Waits
  rw [departed.asked relaxed absent]

/-- Bins that are made ready later have their reasons from the start, if they are asked
as at the start, and the earlier ones keep theirs. -/
theorem Justly.append {relaxed : Bool} (first : before.Justly relaxed left between)
    (second : between.Justly relaxed more after)
    (kept : ∀ bin ∈ left, after.bin bin = between.bin bin)
    (asked : ∀ bin ∈ more,
      (between.bin bin).readyReason? relaxed between.clock between.shelf.thresholds.maxBinAge =
        (before.bin bin).readyReason? relaxed before.clock
          before.shelf.thresholds.maxBinAge) :
    before.Justly relaxed (left ++ more) after := by
  intro bin member
  rcases List.mem_append.1 member with isLeft | isMore
  · obtain ⟨reason, isDue, told⟩ := first bin isLeft
    exact ⟨reason, isDue, by rw [kept bin isLeft, told]⟩
  · obtain ⟨reason, isDue, told⟩ := second bin isMore
    exact ⟨reason, (asked bin isMore).symm.trans isDue, told⟩

end Others

end Depot

namespace Shelf

open Depot

/-- Splitting a group makes its ready bins ready and finds out the others. -/
theorem splitReady_spec (relaxed : Bool) (bins : List BinId) {depot : Depot}
    (ageLimit : depot.shelf.thresholds.maxBinAge.IsLimit) (distinct : bins.Nodup)
    (removable : ∀ bin ∈ bins, depot.Removable bin) :
    ∃ others ready reached,
      splitReady relaxed bins depot = (.ok (others, ready), reached) ∧
      depot.Marked ready reached ∧ others.Sublist bins ∧
      (ready ++ others).Perm bins ∧ (∀ bin ∈ others, depot.Waits relaxed bin) ∧
      depot.Justly relaxed ready reached := by
  induction bins generalizing depot with
  | nil => exact ⟨[], [], depot, rfl, .refl depot, .refl [], .refl [], nofun, nofun⟩
  | cons bin rest ih =>
      rw [List.nodup_cons] at distinct
      obtain ⟨isBin, opened, bounds⟩ := removable bin (by simp)
      obtain ⟨reason, known⟩ :=
        (depot.bin bin).exists_readyReason? bounds relaxed depot.clock ageLimit
      have asked : readyReason? relaxed bin depot = (.ok reason, depot) :=
        congrArg (·, depot) known
      cases reason with
      | none =>
          obtain ⟨others, ready, reached, run, marked, sublist, whole, wait, justly⟩ :=
            ih ageLimit distinct.2 fun other member =>
              removable other (List.mem_cons_of_mem _ member)
          refine ⟨bin :: others, ready, reached, ?_, marked, sublist.cons_cons bin, ?_, ?_,
            justly⟩
          · unfold splitReady
            rw [Act.bind_of_ok asked]
            exact Act.bind_of_ok run _
          · exact List.perm_middle.trans (whole.cons bin)
          · exact List.forall_mem_cons.2 ⟨known, wait⟩
      | some reason =>
          have apart : ∀ other ∈ rest, other ∉ [bin] := by
            intro other member same
            exact distinct.1 (List.mem_singleton.1 same ▸ member)
          obtain ⟨between, isBetween⟩ : ∃ between, between = depot.setBin bin
            { depot.bin bin with state := .ready, reason := some reason } := ⟨_, rfl⟩
          have first : depot.Marked [bin] between :=
            isBetween ▸ marked_setBin isBin (Bin.ne_unbound_of_readyReason? known)
          have told : depot.Justly relaxed [bin] between := by
            intro other member
            rw [List.mem_singleton.1 member, isBetween, bin_setBin_self]
            exact ⟨reason, known, rfl⟩
          obtain ⟨others, ready, reached, run, marked, sublist, whole, wait, justly⟩ :=
            @ih between (by rw [isBetween]; exact ageLimit) distinct.2 fun other member =>
              (removable other (List.mem_cons_of_mem _ member)).of_same first.next
                (first.others other (apart other member))
          have fresh : bin ∉ ready := fun again =>
            distinct.1 (whole.subset (List.mem_append_left _ again))
          refine ⟨others, bin :: ready, reached, ?_, first.trans marked, sublist.cons bin,
            whole.cons bin, ?_, ?_⟩
          · unfold splitReady
            rw [Act.bind_of_ok asked]
            dsimp only
            rw [Act.bind_of_ok (markReady_eq reason opened), ← isBetween]
            exact Act.bind_of_ok run _
          · intro other member
            have untouched := first.asked relaxed (apart other (sublist.subset member))
            exact untouched.symm.trans (wait other member)
          · refine told.append justly (fun other member => ?_) fun other member => ?_
            · exact marked.others other (List.mem_singleton.1 member ▸ fresh)
            · have inRest := whole.subset (List.mem_append_left _ member)
              exact first.asked relaxed (apart other inRest)

/-- Taking the ready bins out of their groups leaves the bins that wait. -/
theorem takeReady_spec (relaxed : Bool) (groups : List (Key × List BinId)) {depot : Depot}
    (ageLimit : depot.shelf.thresholds.maxBinAge.IsLimit)
    (distinctKeys : (groups.map Prod.fst).Nodup)
    (distinct : (groups.map Prod.snd).flatten.Nodup)
    (held : ∀ entry ∈ groups, depot.shelf.binsOf entry.1 = entry.2)
    (removable : ∀ entry ∈ groups, ∀ bin ∈ entry.2, depot.Removable bin) :
    ∃ ready reached,
      takeReady relaxed groups depot = (.ok ready, reached) ∧
      depot.Departed ready reached ∧
      reached.shelf.binCount = depot.shelf.binCount ∧
      (∀ bin ∈ ready, ∃ entry ∈ groups, bin ∈ entry.2) ∧
      (∀ entry ∈ groups, ∀ bin ∈ reached.shelf.binsOf entry.1,
        depot.Waits relaxed bin) ∧ depot.Justly relaxed ready reached := by
  induction groups generalizing depot with
  | nil => exact ⟨[], depot, rfl, .refl depot, rfl, nofun, nofun, nofun⟩
  | cons entry rest ih =>
      obtain ⟨group, bins⟩ := entry
      rw [List.map_cons, List.nodup_cons] at distinctKeys
      rw [List.map_cons, List.flatten_cons, List.nodup_append] at distinct
      obtain ⟨distinctBins, distinctRest, apart⟩ := distinct
      have heldFirst : depot.shelf.binsOf group = bins := held (group, bins) (by simp)
      obtain ⟨others, ready, between, run, marked, staying, whole, wait, justly⟩ :=
        splitReady_spec relaxed bins ageLimit distinctBins (removable (group, bins) (by simp))
      have shelf : between.shelf = depot.shelf := by rw [marked.rest]
      have departed : depot.Departed ready
          { between with shelf := between.shelf.setGroup group others } := by
        rw [shelf]
        exact .of_group marked depot.shelf.binCount (heldFirst.symm ▸ staying)
          (heldFirst.symm ▸ whole)
      -- the later groups share no bin with the first, so they are as they were
      have elsewhere : ∀ entry ∈ rest, ∀ bin ∈ entry.2, bin ∉ ready := by
        intro entry member bin inEntry isReady
        refine apart bin (whole.subset (List.mem_append_left _ isReady)) bin ?_ rfl
        exact List.mem_flatten.2 ⟨entry.2, List.mem_map_of_mem member, inEntry⟩
      obtain ⟨more, reached, runRest, departedRest, counted, within, waitRest, justlyRest⟩ :=
        @ih { between with shelf := between.shelf.setGroup group others }
          (departed.thresholds.symm ▸ ageLimit) distinctKeys.2 distinctRest (by
            intro entry member
            have differs : entry.1 ≠ group := by
              intro same
              exact distinctKeys.1 (List.mem_map.2 ⟨entry, member, same⟩)
            dsimp only
            rw [Shelf.binsOf_setGroup, if_neg differs, shelf]
            exact held entry (List.mem_cons_of_mem _ member)) (by
            intro entry member bin inEntry
            exact (removable entry (List.mem_cons_of_mem _ member) bin inEntry).of_same
              departed.next (departed.others (elsewhere entry member bin inEntry)))
      refine ⟨ready ++ more, reached, ?_, departed.trans departedRest, ?_, ?_, ?_, ?_⟩
      · unfold takeReady
        rw [Act.bind_of_ok run]
        exact Act.bind_of_ok runRest _
      · rw [counted, ← shelf]
        rfl
      · intro bin member
        rcases List.mem_append.1 member with isReady | isMore
        · exact ⟨(group, bins), by simp, whole.subset (List.mem_append_left _ isReady)⟩
        · obtain ⟨entry, member, inEntry⟩ := within bin isMore
          exact ⟨entry, List.mem_cons_of_mem _ member, inEntry⟩
      · rintro entry member bin stays
        rcases List.mem_cons.1 member with rfl | member
        · have isOther := (departedRest.staying group).subset stays
          dsimp only at isOther
          rw [Shelf.binsOf_setGroup, if_pos rfl] at isOther
          exact wait bin isOther
        · have inEntry : bin ∈ entry.2 := by
            rw [← held entry (List.mem_cons_of_mem _ member)]
            exact ((departed.trans departedRest).staying entry.1).subset stays
          exact (departed.waits_iff relaxed (elsewhere entry member bin inEntry)).1
            (waitRest entry member bin stays)
      · have told : depot.Justly relaxed ready
          { between with shelf := between.shelf.setGroup group others } := justly
        refine told.append justlyRest (fun bin isReady => ?_) fun bin isMore => ?_
        · refine departedRest.others fun again => ?_
          obtain ⟨entry, inRest, inEntry⟩ := within bin again
          exact elsewhere entry inRest bin inEntry isReady
        · obtain ⟨entry, inRest, inEntry⟩ := within bin isMore
          exact departed.asked relaxed (elsewhere entry inRest bin inEntry)

/-- All ready bins leave an arranged shelf in order of creation and for their reasons, and
those that stay are not ready. -/
theorem removeReady_removes (relaxed : Bool) {depot : Depot} (arranged : depot.Arranged) :
    ∃ taken reached, removeReady relaxed depot = (.ok (byCreation reached taken), reached) ∧
      depot.Departed (byCreation reached taken) reached ∧ reached.Arranged ∧
      (∀ bin ∈ reached.shelf.bins, depot.Waits relaxed bin) ∧
      depot.Justly relaxed (byCreation reached taken) reached := by
  have held : ∀ entry ∈ depot.shelf.groups.entries,
      depot.shelf.binsOf entry.1 = entry.2 := by
    rintro ⟨group, bins⟩ member
    rw [Shelf.binsOf, Table.find?_eq_some_iff.2 member, Option.getD_some]
  obtain ⟨ready, between, run, departed, counted, _, wait, justly⟩ :=
    takeReady_spec relaxed depot.shelf.groups.entries arranged.thresholds.maxBinAge
      depot.shelf.groups.keys_nodup arranged.nodup_bins held (by
        intro entry member bin inEntry
        refine arranged.removable (Shelf.mem_bins_iff.2 ⟨entry.1, ?_⟩)
        rw [held entry member]
        exact inEntry)
  have all : ready.length ≤ depot.shelf.binCount := by
    rw [arranged.binCount, ← departed.whole.length_eq, List.length_append]
    exact Nat.le_add_right _ _
  obtain ⟨reached, isReached⟩ : ∃ reached, reached =
    { between with shelf := { between.shelf with
        binCount := between.shelf.binCount - ready.length } } := ⟨_, rfl⟩
  have sorted : (byCreation reached ready).Perm ready := sortBy_perm _ ready
  have recounted : depot.Departed (byCreation reached ready) reached := by
    have recounted := departed.recount sorted (between.shelf.binCount - ready.length)
    rwa [← isReached] at recounted
  refine ⟨ready, reached, ?_, recounted, ?_, ?_, ?_⟩
  · unfold removeReady
    rw [Act.read_bind,
      Act.bind_of_ok run, isReached]
    rfl
  · apply recounted.arranged arranged
    rw [sorted.length_eq, isReached]
    dsimp only
    omega
  · intro bin member
    have isBin : bin ∈ between.shelf.bins := by
      rw [isReached] at member
      exact member
    obtain ⟨group, inGroup⟩ := Shelf.mem_bins_iff.1 isBin
    obtain ⟨bins, found⟩ := Table.mem_keys_iff.1
      (Shelf.mem_keys_of_mem_binsOf ((departed.staying group).subset inGroup))
    exact wait (group, bins) (Table.find?_eq_some_iff.1 found) bin inGroup
  · intro bin member
    obtain ⟨reason, isDue, told⟩ := justly bin (sorted.mem_iff.1 member)
    exact ⟨reason, isDue, by rw [isReached]; exact told⟩

/-- All ready bins leave an arranged shelf, and those that stay are not ready. -/
theorem removeReady_spec (relaxed : Bool) {depot : Depot} (arranged : depot.Arranged) :
    ∃ ready reached, removeReady relaxed depot = (.ok ready, reached) ∧
      depot.Departed ready reached ∧ reached.Arranged ∧
      ∀ bin ∈ reached.shelf.bins, depot.Waits relaxed bin := by
  obtain ⟨taken, reached, run, departed, rearranged, wait, _⟩ :=
    removeReady_removes relaxed arranged
  exact ⟨_, reached, run, departed, rearranged, wait⟩

private theorem exists_oldest (depot : Depot) (first : BinId) (bins : List BinId) :
    ∃ oldest ∈ first :: bins, oldest? depot (first :: bins) = some oldest := by
  unfold oldest?
  rw [List.foldl_cons]
  dsimp only
  induction bins generalizing first with
  | nil => exact ⟨first, by simp, rfl⟩
  | cons bin rest ih =>
      rw [List.foldl_cons]
      dsimp only
      split
      · obtain ⟨oldest, member, found⟩ := ih bin
        exact ⟨oldest, List.mem_cons_of_mem _ member, found⟩
      · obtain ⟨oldest, member, found⟩ := ih first
        refine ⟨oldest, ?_, found⟩
        rw [List.mem_cons] at member ⊢
        exact member.imp_right (List.mem_cons_of_mem bin)

/-- The oldest bin leaves an arranged shelf as one that is evicted. -/
theorem removeOldest_removes {depot : Depot} (arranged : depot.Arranged) :
    (depot.shelf.bins = [] ∧ removeOldest depot = (.ok none, depot)) ∨
      ∃ oldest reached, removeOldest depot = (.ok (some oldest), reached) ∧
        depot.Departed [oldest] reached ∧ reached.Arranged ∧
        oldest? depot depot.shelf.bins = some oldest ∧
        (reached.bin oldest).reason = some .evicted := by
  rcases bins : depot.shelf.bins with _ | ⟨first, rest⟩
  · refine .inl ⟨rfl, ?_⟩
    unfold removeOldest
    rw [Act.read_bind, bins]
    rfl
  · obtain ⟨oldest, member, found⟩ := exists_oldest depot first rest
    rw [← bins] at member
    obtain ⟨group, inGroup⟩ := Shelf.mem_bins_iff.1 member
    have key : (depot.bin oldest).group.key?.getD .nothing = group := by
      rw [arranged.filed group oldest inGroup, Option.getD_some]
    obtain ⟨isBin, isOpen, _⟩ := arranged.removable member
    have marked : depot.Marked [oldest] (depot.setBin oldest
        { depot.bin oldest with state := .ready, reason := some .evicted }) :=
      marked_setBin isBin nofun
    have departed : depot.Departed [oldest] { depot.setBin oldest
        { depot.bin oldest with state := .ready, reason := some .evicted } with
          shelf := { depot.shelf.setGroup group ((depot.shelf.binsOf group).erase oldest) with
            binCount := depot.shelf.binCount - 1 } } :=
      .of_group marked _ List.erase_sublist (List.perm_cons_erase inGroup).symm
    refine .inr ⟨oldest, _, ?_, departed, departed.arranged arranged ?_, ?_, ?_⟩
    · unfold removeOldest
      rw [Act.read_bind, bins, found]
      dsimp only
      rw [Act.read_bind, key]
      have marked := @markReady_eq { depot with
        shelf := { depot.shelf.setGroup group ((depot.shelf.binsOf group).erase oldest) with
          binCount := depot.shelf.binCount - 1 } } oldest .evicted isOpen
      exact Act.bind_of_ok marked _
    · have one := List.length_pos_of_mem member
      rw [← arranged.binCount] at one
      exact Nat.sub_add_cancel one
    · exact found
    · exact congrArg Bin.reason (bin_setBin_self depot oldest _)

theorem removeOldest_spec {depot : Depot} (arranged : depot.Arranged) :
    (depot.shelf.bins = [] ∧ removeOldest depot = (.ok none, depot)) ∨
      ∃ oldest reached, removeOldest depot = (.ok (some oldest), reached) ∧
        depot.Departed [oldest] reached ∧ reached.Arranged := by
  rcases removeOldest_removes arranged with none | ⟨oldest, reached, run, departed, rearranged, _⟩
  · exact .inl none
  · exact .inr ⟨oldest, reached, run, departed, rearranged⟩

end Shelf

namespace Depot

/-- Some bins were rolled back one after the other, and nothing else changed. -/
structure Discarded (before : Depot) (gone : List BinId) (after : Depot) : Prop where
  rest : after = { before with flow := after.flow, bins := after.bins }
  next : after.bins.next = before.bins.next
  flow : after.flow = gone.foldl
    (fun flow bin => flow.returned (before.bin bin).session) before.flow
  others : ∀ bin ∉ gone, after.bin bin = before.bin bin
  rolledBack : ∀ bin ∈ gone,
    after.bin bin = { before.bin bin with state := .rolledBack }

theorem discard_eq {depot : Depot} {number : BinId}
    (follows : .rolledBack ∈ (depot.bin number).state.successors) :
    discard number depot = (.ok (),
      { depot.setBin number { depot.bin number with state := .rolledBack } with
        flow := depot.flow.returned (depot.bin number).session }) := by
  have marked := @mark_eq { depot with
    flow := depot.flow.returned (depot.bin number).session } number .rolledBack follows
  exact marked

/-- Bins that are open or ready can be discarded. -/
theorem discardAll_spec (bins : List BinId) {depot : Depot} (distinct : bins.Nodup)
    (areBins : ∀ bin ∈ bins, bin < depot.bins.next)
    (follows : ∀ bin ∈ bins, .rolledBack ∈ (depot.bin bin).state.successors) :
    ∃ reached, Act.forEach bins discard depot = (.ok (), reached) ∧
      depot.Discarded bins reached := by
  induction bins generalizing depot with
  | nil => exact ⟨depot, rfl, rfl, rfl, rfl, fun _ _ => rfl, nofun⟩
  | cons bin rest ih =>
      rw [List.nodup_cons] at distinct
      obtain ⟨between, isBetween⟩ : ∃ between, between =
        { depot.setBin bin { depot.bin bin with state := .rolledBack } with
          flow := depot.flow.returned (depot.bin bin).session } := ⟨_, rfl⟩
      have first : discard bin depot = (.ok (), between) := by
        rw [discard_eq (follows bin (by simp)), isBetween]
      have next : between.bins.next = depot.bins.next := by
        rw [isBetween]
        exact Slots.next_set_of_lt (areBins bin (by simp)) _
      have held : ∀ other, between.bin other =
          if other = bin then { depot.bin bin with state := .rolledBack }
          else depot.bin other := by
        rw [isBetween]
        exact fun other => bin_setBin depot bin other _
      have same : ∀ other ∈ rest, between.bin other = depot.bin other := by
        intro other member
        rw [held, if_neg]
        rintro rfl
        exact distinct.1 member
      obtain ⟨reached, run, discarded⟩ := @ih between distinct.2
        (fun other member => next ▸ areBins other (List.mem_cons_of_mem _ member))
        fun other member => same other member ▸ follows other (List.mem_cons_of_mem _ member)
      refine ⟨reached, ?_, ?_, discarded.next.trans next, ?_, ?_, ?_⟩
      · unfold Act.forEach
        rw [Act.bind_of_ok first, run]
      · rw [discarded.rest, isBetween]
        rfl
      · rw [discarded.flow, List.foldl_cons]
        have flow : between.flow = depot.flow.returned (depot.bin bin).session := by
          rw [isBetween]
        rw [flow]
        exact List.foldl_ext _ _ _ fun _ other member => by rw [same other member]
      · intro other absent
        rw [List.mem_cons, not_or] at absent
        rw [discarded.others other absent.2, held, if_neg absent.1]
      · intro other member
        by_cases later : other ∈ rest
        · rw [discarded.rolledBack other later, same other later]
        · have isBin := (List.mem_cons.1 member).resolve_right later
          rw [discarded.others other later, held, if_pos isBin, isBin]

namespace Discarded

variable {before after : Depot} {gone : List BinId}

theorem matching (discarded : before.Discarded gone after) (bin : BinId) :
    (after.bin bin).Matches (before.bin bin) := by
  by_cases member : bin ∈ gone
  · rw [discarded.rolledBack bin member]
    exact ⟨rfl, rfl, rfl, rfl⟩
  · rw [discarded.others bin member]
    exact .refl _

/-- What the operations of a flow carry on outlives that bins are discarded. -/
theorem carried (discarded : before.Discarded gone after) {property : Flow → Prop}
    (carried : Flow.Carried property) (holds : property before.flow) :
    property after.flow := by
  rw [discarded.flow]
  apply List.foldlRecOn gone _ holds
  intro flow kept bin _
  exact carried.returned flow _ kept

theorem sessions (discarded : before.Discarded gone after) :
    before.flow.sessions.next ≤ after.flow.sessions.next :=
  discarded.carried (Flow.carried_sessions before.flow.sessions.next) (Nat.le_refl _)

theorem registered (discarded : before.Discarded gone after)
    (registered : before.Registered) : after.Registered :=
  registered.of_matching discarded.next discarded.sessions discarded.matching

/-- No session holds an item that it did not hold before. -/
theorem gains (discarded : before.Discarded gone after) :
    Flow.Gains [] before.flow after.flow := by
  rw [discarded.flow]
  apply List.foldlRecOn gone _ (Flow.Gains.refl [] before.flow)
  intro flow gains bin _
  exact gains.trans (Flow.gains_returned flow _)

theorem emptied (discarded : before.Discarded gone after) {bin : BinId}
    (isGone : bin ∈ gone) : (after.flow.session (before.bin bin).session).ids = [] := by
  rw [discarded.flow]
  generalize before.flow = flow
  clear discarded
  induction gone generalizing flow with
  | nil => cases isGone
  | cons first rest ih =>
      rw [List.foldl_cons]
      by_cases later : bin ∈ rest
      · exact ih later _
      · have isFirst := (List.mem_cons.1 isGone).resolve_right later
        have kept : Flow.Gains [] (flow.returned (before.bin first).session)
            (rest.foldl (fun flow bin => flow.returned (before.bin bin).session)
              (flow.returned (before.bin first).session)) :=
          List.foldlRecOn rest _ (Flow.Gains.refl [] _) fun flow gains bin _ =>
            gains.trans (Flow.gains_returned flow _)
        apply List.eq_nil_iff_forall_not_mem.2
        intro id held
        have held := kept _ (by simp) id held
        rw [isFirst, Flow.ids_returned] at held
        cases held

theorem trans {first second third : Depot} {more : List BinId}
    (discardedFirst : first.Discarded gone second)
    (discardedSecond : second.Discarded more third) : first.Discarded (gone ++ more) third where
  rest := by
    have rest := discardedSecond.rest
    rw [discardedFirst.rest] at rest
    exact rest
  next := discardedSecond.next.trans discardedFirst.next
  flow := by
    rw [discardedSecond.flow, discardedFirst.flow, List.foldl_append]
    exact List.foldl_ext _ _ _ fun flow bin _ => by rw [(discardedFirst.matching bin).session]
  others bin absent := by
    rw [List.mem_append, not_or] at absent
    rw [discardedSecond.others bin absent.2, discardedFirst.others bin absent.1]
  rolledBack bin member := by
    by_cases later : bin ∈ more
    · rw [discardedSecond.rolledBack bin later]
      by_cases already : bin ∈ gone
      · rw [discardedFirst.rolledBack bin already]
      · rw [discardedFirst.others bin already]
    · have already := (List.mem_append.1 member).resolve_right later
      rw [discardedSecond.others bin later, discardedFirst.rolledBack bin already]

/-- It does not matter which bins are open or queued while some are discarded. -/
theorem setStored (discarded : before.Discarded gone after) (shelf : Shelf)
    (ready : List BinId) :
    Discarded { before with shelf, ready } gone { after with shelf, ready } where
  rest := by
    have rest := congrArg (fun depot : Depot => { depot with shelf, ready }) discarded.rest
    exact rest
  next := discarded.next
  flow := discarded.flow
  others := discarded.others
  rolledBack := discarded.rolledBack

/-- Bins that are stored nowhere disturb nothing when they are discarded. -/
theorem undisturbed (discarded : before.Discarded gone after)
    (apart : ∀ bin ∈ gone, ¬ before.Stored bin) : before.Undisturbed after where
  groups := by rw [discarded.rest]
  binCount := by rw [discarded.rest]
  next := discarded.next
  sessions := discarded.sessions
  matching := discarded.matching
  shelved bin onShelf := by
    rw [discarded.others bin fun isGone => apart bin isGone (.inl onShelf)]
  ready := by rw [discarded.rest]
  queued bin isQueued := by
    rw [discarded.others bin fun isGone => apart bin isGone (.inr isQueued)]

end Discarded

theorem Registered.arranged_emptied {depot : Depot} (registered : depot.Registered)
    (thresholds : depot.shelf.thresholds.Whole) :
    Arranged { depot with shelf := { depot.shelf with groups := .empty, binCount := 0 } } where
  registered := ⟨registered.sessions, registered.apart, registered.bounds⟩
  thresholds := thresholds
  binCount := rfl
  filled := nofun
  isBin := nofun
  opened := nofun
  filed := nofun
  ascending _ := List.Pairwise.nil

end Depot

theorem Shelf.purge_spec {depot : Depot} (arranged : depot.Arranged) :
    ∃ discarded, depot.Discarded depot.shelf.bins discarded ∧
      purge depot = (.ok depot.shelf.bins.length, { discarded with
        shelf := { discarded.shelf with groups := .empty, binCount := 0 } }) := by
  obtain ⟨reached, run, discarded⟩ := Depot.discardAll_spec depot.shelf.bins
    arranged.nodup_bins (fun bin => arranged.isBin_of_mem_bins) (by
      intro bin member
      rw [arranged.opened_of_mem_bins member]
      simp [BinState.successors])
  refine ⟨reached, discarded, ?_⟩
  unfold purge
  rw [Act.read_bind, Act.bind_of_ok run]
  rfl

end ItemBinning
