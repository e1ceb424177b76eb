import Mathlib.Data.List.Sort
import ItemBinning.Proofs.Engine.BinOrder

/-!
# Order after a reset

A reset rolls back the open bins and then the queued ones, each in front of what came back
before.  So the bins come back from the last one to the first, and the items of a group
stand in the order in which they were pulled just if, of any two of its bins, the one that
is rolled back later holds what was pulled first.  The open bins of a group are rolled back
in the order in which they were opened, so when the second was opened because the first
was full, they come back the other way round.
-/

namespace ItemBinning

theorem pairwise_idxOf {α : Type} [DecidableEq α] {log : List α} (distinct : log.Nodup) :
    log.Pairwise fun first second => log.idxOf first < log.idxOf second := by
  rw [List.pairwise_iff_getElem]
  intro first second isFirst isSecond before
  rwa [distinct.idxOf_getElem, distinct.idxOf_getElem]

/-- Elements of a log stand in its order if each stands before the next ones in the log. -/
theorem sublist_iff_pairwise_idxOf {α : Type} [DecidableEq α] {line log : List α}
    (distinct : log.Nodup) :
    line.Sublist log ↔ line ⊆ log ∧
      line.Pairwise fun first second => log.idxOf first < log.idxOf second := by
  constructor
  · exact fun within => ⟨within.subset, (pairwise_idxOf distinct).sublist within⟩
  · rintro ⟨within, ascending⟩
    have once : line.Nodup := ascending.imp fun before => by
      rintro rfl
      exact Nat.lt_irrefl _ before
    have antisymm : Std.Antisymm fun first second : α =>
        log.idxOf first < log.idxOf second :=
      ⟨fun _ _ before after => absurd before (Nat.lt_asymm after)⟩
    exact List.sublist_of_subperm_of_pairwise (List.subperm_of_subset once within) ascending
      (pairwise_idxOf distinct)

/-- Keeping just what stems from chosen elements is keeping these elements. -/
theorem filter_flatMap_chosen {α β : Type} {elements : List α} {parts : α → List β}
    {chosen : α → Bool} {keep : β → Bool}
    (same : ∀ element ∈ elements, ∀ part ∈ parts element, keep part = chosen element) :
    (elements.flatMap parts).filter keep = (elements.filter chosen).flatMap parts := by
  induction elements with
  | nil => rfl
  | cons first rest ih =>
      rw [List.forall_mem_cons] at same
      rw [List.flatMap_cons, List.filter_append, ih same.2]
      cases isChosen : chosen first with
      | true =>
          have all : (parts first).filter keep = parts first :=
            List.filter_eq_self.2 fun part member => (same.1 part member).trans isChosen
          rw [all, List.filter_cons_of_pos isChosen, List.flatMap_cons]
      | false =>
          have none : (parts first).filter keep = [] := by
            rw [List.filter_eq_nil_iff]
            intro part member
            rw [same.1 part member, isChosen]
            exact Bool.false_ne_true
          rw [none, List.filter_cons_of_neg (by rw [isChosen]; exact Bool.false_ne_true)]
          rfl

namespace Flow

/-- Sessions that return their items one after the other put them on the source from the
last session to the first. -/
theorem source_foldl_returned (flow : Flow) {sessions : List SessionId}
    (distinct : sessions.Nodup) :
    (sessions.foldl returned flow).source =
      (sessions.reverse.flatMap fun session => (flow.session session).pulled.values) ++
        flow.source := by
  induction sessions generalizing flow with
  | nil => rfl
  | cons first rest ih =>
      rw [List.nodup_cons] at distinct
      have same : (rest.reverse.flatMap fun session =>
          ((flow.returned first).session session).pulled.values) =
            rest.reverse.flatMap fun session => (flow.session session).pulled.values := by
        refine List.flatMap_congr fun session later => ?_
        rw [session_returned_of_ne flow]
        rintro rfl
        exact distinct.1 (List.mem_reverse.1 later)
      rw [List.foldl_cons, ih (flow.returned first) distinct.2, same, List.reverse_cons,
        List.flatMap_append, List.flatMap_singleton, List.append_assoc]
      rfl

end Flow

namespace Depot

/-- The items that come back when bins are rolled back one after the other. -/
def returns (depot : Depot) (bins : List BinId) : List Item :=
  bins.reverse.flatMap fun bin => (depot.binSession bin).pulled.values

variable {depot after : Depot} {known : List String} {given : List Item} {bins : List BinId}

theorem Discarded.source (discarded : depot.Discarded bins after)
    (distinct : (bins.map fun bin => (depot.bin bin).session).Nodup) :
    after.flow.source = depot.returns bins ++ depot.flow.source := by
  have folded := depot.flow.source_foldl_returned distinct
  rw [List.foldl_map] at folded
  rw [discarded.flow, folded, ← List.map_reverse, List.flatMap_map]
  rfl

theorem Sound.nodup_stored {property : Flow → Prop} {inUse : List SessionId}
    (sound : depot.Sound property inUse) :
    ((depot.shelf.bins ++ depot.ready).map fun bin => (depot.bin bin).session).Nodup := by
  have distinct : (depot.shelf.bins ++ depot.ready).Nodup :=
    List.Nodup.append sound.arranged.nodup_bins sound.queued.distinct
      fun bin onShelf queued => sound.queued.not_mem_bins sound.arranged queued onShelf
  refine distinct.map_on fun first isFirst second isSecond same => ?_
  exact sound.arranged.registered.apart first (sound.isBin (List.mem_append.1 isFirst))
    second (sound.isBin (List.mem_append.1 isSecond)) same

theorem ids_returns (coherent : depot.flow.Coherent known) (bins : List BinId) :
    (depot.returns bins).map Item.id =
      bins.reverse.flatMap fun bin => (depot.binSession bin).ids := by
  unfold returns
  rw [List.map_flatMap]
  exact List.flatMap_congr fun bin _ => (coherent.sessions _).ids_returned

/-- The items of a bin come back with the ids of its contents. -/
theorem Maintained.ids_returns (maintained : depot.Maintained known given)
    (stored : ∀ bin ∈ bins, depot.Stored bin) :
    (depot.returns bins).map Item.id =
      bins.reverse.flatMap fun bin => (depot.bin bin).contents.map Item.id := by
  rw [Depot.ids_returns maintained.tended.sound.flow.coherent]
  exact List.flatMap_congr fun bin member =>
    (maintained.tended.stocked.filled bin (stored bin (List.mem_reverse.1 member))).held

/-- The ids of what bins hold. -/
def contentIds (depot : Depot) (bins : List BinId) : List String :=
  bins.flatMap fun bin => (depot.bin bin).contents.map Item.id

/-- The items on the source at a later time that are among what bins held before. -/
def cameBack (depot after : Depot) (bins : List BinId) : List Item :=
  after.flow.source.filter fun item => item.id ∈ depot.contentIds bins

/-- An id that the session of a bin holds stands in no other bin. -/
theorem Maintained.mem_contentIds_iff (maintained : depot.Maintained known given)
    (stored : ∀ bin ∈ bins, depot.Stored bin) {bin : BinId} (isStored : depot.Stored bin)
    {id : String} (held : id ∈ (depot.binSession bin).ids) :
    id ∈ depot.contentIds bins ↔ bin ∈ bins := by
  have sound := maintained.tended.sound
  have sameIds {bin : BinId} (isStored : depot.Stored bin) :=
    (maintained.tended.stocked.filled bin isStored).held
  refine ⟨fun among => ?_, fun member => List.mem_flatMap.2 ⟨bin, member, ?_⟩⟩
  · obtain ⟨other, isOther, inOther⟩ := List.mem_flatMap.1 among
    rw [← sameIds (stored other isOther)] at inOther
    by_contra absent
    have apart : Flow.Spot.session (depot.bin other).session ≠
        .session (depot.bin bin).session := by
      intro same
      have isBin := sound.arranged.registered.apart other
        (sound.isBin (stored other isOther)) bin (sound.isBin isStored)
        (Flow.Spot.session.inj same)
      exact absent (isBin ▸ isOther)
    exact sound.flow.not_mem_idsAt maintained.distinct apart held inOther
  · rwa [← sameIds isStored]

/-- When all bins are rolled back, what comes back of some of them is what these return. -/
theorem Maintained.cameBack_eq (maintained : depot.Maintained known given)
    (chosen : BinId → Bool) (back : after.flow.source =
      depot.returns (depot.shelf.bins ++ depot.ready) ++ depot.flow.source) :
    let bins := (depot.shelf.bins ++ depot.ready).filter chosen
    depot.cameBack after bins = depot.returns bins := by
  intro bins
  have sound := maintained.tended.sound
  have isStored {bin : BinId} (member : bin ∈ depot.shelf.bins ++ depot.ready) :
      depot.Stored bin := List.mem_append.1 member
  have stored (bin : BinId) (member : bin ∈ bins) : depot.Stored bin :=
    isStored (List.mem_filter.1 member).1
  have untouched : depot.flow.source.filter
      (fun item => decide (item.id ∈ depot.contentIds bins)) = [] := by
    rw [List.filter_eq_nil_iff]
    intro item waits among
    obtain ⟨bin, member, held⟩ := List.mem_flatMap.1 (of_decide_eq_true among)
    rw [← (maintained.tended.stocked.filled bin (stored bin member)).held] at held
    have apart : Flow.Spot.source ≠ .session (depot.bin bin).session := nofun
    exact sound.flow.not_mem_idsAt maintained.distinct apart held
      (List.mem_map_of_mem waits)
  unfold cameBack
  rw [back, List.filter_append, untouched, List.append_nil]
  unfold returns
  rw [← List.filter_reverse]
  refine filter_flatMap_chosen fun bin member item among => ?_
  have member := List.mem_reverse.1 member
  have held : item.id ∈ (depot.binSession bin).ids := by
    have same : (depot.binSession bin).pulled.values.map Item.id = (depot.binSession bin).ids :=
      (sound.flow.coherent.sessions _).ids_returned
    rw [← same]
    exact List.mem_map_of_mem among
  rw [Bool.eq_iff_iff, decide_eq_true_eq,
    maintained.mem_contentIds_iff stored (isStored member) held, List.mem_filter,
    and_iff_right member]

/-- Bins that stand in a line come back in its order just if each of them holds what comes
later in the line than what the bins behind it hold. -/
theorem Maintained.returns_sublist_iff (maintained : depot.Maintained known given)
    (stored : ∀ bin ∈ bins, depot.Stored bin) {line : List String} (once : line.Nodup)
    (lined : depot.Lined fun _ => line) :
    ((depot.returns bins).map Item.id).Sublist line ↔
      bins.Pairwise fun first second =>
        ∀ late ∈ (depot.bin first).contents, ∀ early ∈ (depot.bin second).contents,
          line.idxOf early.id < line.idxOf late.id := by
  have placed (bin : BinId) (member : bin ∈ bins.reverse) :
      ((depot.bin bin).contents.map Item.id).Sublist line :=
    lined.contents (stored bin (List.mem_reverse.1 member))
  rw [maintained.ids_returns stored, sublist_iff_pairwise_idxOf once, List.pairwise_flatMap,
    List.pairwise_reverse]
  simp only [List.forall_mem_map]
  constructor
  · rintro ⟨-, -, apart⟩
    exact apart.imp fun before late isLate early isEarly => before early isEarly late isLate
  · refine fun apart => ⟨fun id among => ?_, fun bin member => ?_, ?_⟩
    · obtain ⟨bin, member, held⟩ := List.mem_flatMap.1 among
      exact (placed bin member).subset held
    · exact ((sublist_iff_pairwise_idxOf once).1 (placed bin member)).2
    · exact apart.imp fun before early isEarly late isLate => before late isLate early isEarly

end Depot

namespace Engine

open Depot

/-- After every run, a reset puts the items of all open and queued bins in front of the
source, from the bin that is rolled back last to the one that is rolled back first.  The
items of a group that came back stand on the source in the order in which they were last
pulled if and only if, of any two of its bins, the one that is rolled back later holds what
was pulled first. -/
theorem order_after_reset (engine : Engine) (prepare : engine.hooks.Prepare)
    (source : List Item) (relationships : List String) (clock : Moment) (policy : Policy)
    (events : List Event)
    (distinct : ((source ++ events.flatMap Event.items).map Item.id).Nodup)
    (whole : ∀ item ∈ source ++ events.flatMap Event.items, item.HasWholeSize) :
    let start := opening { source, sinks := Flow.sinksFor relationships } clock policy
    let depot := run engine start events
    let line := (engine.runNotes engine.nextIds start events).dedup
    let stored (key : Key) := (depot.shelf.bins ++ depot.ready).filter fun bin =>
      (depot.bin bin).group.key? = some key
    let back (key : Key) := depot.cameBack (reset.final depot) (stored key)
    (reset.final depot).flow.source =
        depot.returns (depot.shelf.bins ++ depot.ready) ++ depot.flow.source ∧
      ∀ key, back key = depot.returns (stored key) ∧
        (((back key).map Item.id).Sublist line ↔
          (stored key).Pairwise fun first second =>
            ∀ late ∈ (depot.bin first).contents, ∀ early ∈ (depot.bin second).contents,
              line.idxOf early.id < line.idxOf late.id) := by
  intro start depot line stored back
  obtain ⟨maintained, lined⟩ :=
    run_lined prepare relationships clock policy events distinct whole
  have sound := maintained.tended.sound
  have returned : (reset.final depot).flow.source =
      depot.returns (depot.shelf.bins ++ depot.ready) ++ depot.flow.source := by
    obtain ⟨reached, run, discarded⟩ := reset_spec sound.arranged sound.queued
    unfold Act.final
    rw [run]
    exact discarded.source sound.nodup_stored
  refine ⟨returned, fun key => ?_⟩
  have isBack : back key = depot.returns (stored key) :=
    maintained.cameBack_eq _ returned
  refine ⟨isBack, isBack ▸ ?_⟩
  refine maintained.returns_sublist_iff (fun bin member => ?_) (List.nodup_dedup _) lined
  exact List.mem_append.1 (List.mem_filter.1 member).1

/-- A group with one bin comes back in its order, and one with two open bins does not. -/
theorem order_after_reset_of_three :
    let engine : Engine := { hooks := {
      groupKey := fun item => .done (.text (if item.id = "b" then "h" else "g"))
      process := fun _ => .done (some {}) } }
    let source : List Item :=
      [{ id := "a", size := .int 3 }, { id := "b", size := .int 1 }, { id := "c", size := .int 3 },
        { id := "d", size := .int 1 }]
    let policy : Policy := { minSize := 5, maxSize := some 5 }
    let start := opening { source, sinks := Flow.sinksFor [] } {} policy
    let events : List Event := [.activate [true, true, true]]
    let depot := run engine start events
    let line := (engine.runNotes engine.nextIds start events).dedup
    let stored (key : Key) := (depot.shelf.bins ++ depot.ready).filter fun bin =>
      (depot.bin bin).group.key? = some key
    let back (key : Key) := depot.cameBack (reset.final depot) (stored key)
    engine.hooks.Prepare ∧ line = ["a", "b", "c", "d"] ∧
      ((reset.final depot).flow.source.map Item.id) = ["b", "c", "a", "d"] ∧
      ((back (.named "h")).map Item.id).Sublist line ∧
      (back (.named "g")).map Item.id = ["c", "a", "d"] ∧
      ¬ ((back (.named "g")).map Item.id).Sublist line := by
  intro engine source policy start events depot line stored back
  have prepare : engine.hooks.Prepare :=
    .of_same (fun _ _ => rfl) (fun _ => trivial) fun _ => trivial
  have whole : ∀ item ∈ source ++ events.flatMap Event.items, item.HasWholeSize := by
    simp only [source, events, Event.items, List.flatMap_cons, List.flatMap_nil,
      List.append_nil, List.forall_mem_cons]
    exact ⟨⟨3, rfl⟩, ⟨1, rfl⟩, ⟨3, rfl⟩, ⟨1, rfl⟩, List.forall_mem_nil _⟩
  obtain ⟨returned, ordered⟩ := order_after_reset engine prepare source [] {} policy events
    (by decide +kernel) whole
  have inOrder (key : Key) : back key = depot.returns (stored key) ∧
      (((back key).map Item.id).Sublist line ↔ (stored key).Pairwise fun first second =>
        ∀ late ∈ (depot.bin first).contents, ∀ early ∈ (depot.bin second).contents,
          line.idxOf early.id < line.idxOf late.id) := ordered key
  have log : line = ["a", "b", "c", "d"] := by decide +kernel
  have alone : stored (.named "h") = [2] := by decide +kernel
  have two : stored (.named "g") = [0, 1] := by decide +kernel
  refine ⟨prepare, log, ?_, (inOrder (.named "h")).2.2 ?_, ?_, fun sorted => ?_⟩
  · rw [returned]
    decide +kernel
  · rw [alone]
    exact List.pairwise_singleton _ _
  · rw [(inOrder (.named "g")).1, two]
    decide +kernel
  · have reversed : ¬ ∀ late ∈ (depot.bin 0).contents, ∀ early ∈ (depot.bin 1).contents,
        line.idxOf early.id < line.idxOf late.id := by decide +kernel
    have apart := (inOrder (.named "g")).2.1 sorted
    rw [two] at apart
    exact reversed (List.pairwise_pair.1 apart)

/-- Two items of one group are in two open bins, in the order in which they were pulled, and
come back in the other order. -/
theorem reset_reverses_bins :
    let engine : Engine := { hooks := {
      groupKey := fun _ => .done (.text "g")
      process := fun _ => .done (some {}) } }
    let source : List Item := [{ id := "a", size := .int 3 }, { id := "b", size := .int 3 }]
    let policy : Policy := { minSize := 5, maxSize := some 5 }
    let start := opening { source, sinks := Flow.sinksFor [] } {} policy
    let events : List Event := [.activate [true, true, true]]
    let depot := run engine start events
    engine.runNotes engine.nextIds start events = ["a", "b"] ∧
      (depot.shelf.bins.map fun bin =>
        ((depot.bin bin).group.key?, (depot.bin bin).contents.map Item.id)) =
          [(some (.named "g"), ["a"]), (some (.named "g"), ["b"])] ∧
      (reset.final depot).flow.source.map Item.id = ["b", "a"] := by
  decide +kernel

end Engine

end ItemBinning
