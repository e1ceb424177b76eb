import ItemBinning.Proofs.Engine.Deliveries
import ItemBinning.Proofs.Engine.Eviction
import ItemBinning.Proofs.Engine.Strays
import ItemBinning.Proofs.Engine.Whereabouts

/-!
# The order of processing

An activation feeds its queue from two sides: the intake queues the items that find no place,
and the migration queues what leaves the shelf.  Both queue behind what waits, so an
activation that is carried through hands the processor the bins that were queued before it,
then the strays of its chunks, and then the ready bins or the evicted one, each of them once.
-/

namespace ItemBinning.Engine

open Depot

variable {start before after : Depot} {property : Flow → Prop} {engine : Engine}
  {mayPut : List Item → Prop}

/-- A queue that was drained was handed to the processor bin by bin, in its order. -/
theorem bins_drainHandings {queue : List BinId} {activation last : Activation}
    (drains : drainBins engine.hooks queue activation before = (.ok last, after)) :
    (drainHandings engine.hooks queue activation before).map Handing.bin = queue := by
  induction queue generalizing activation before with
  | nil => rfl
  | cons bin rest ih =>
      unfold drainBins at drains
      obtain ⟨_, taken, ⟨⟩, serves⟩ := Act.bind_eq_ok drains
      obtain ⟨noted, reached, handles, follows⟩ := Act.bind_eq_ok serves
      unfold drainHandings
      rw [handles]
      exact congrArg (bin :: ·) (ih follows)

/-- An activation that was carried through took items in, moved bins to the queue and drained
it. -/
theorem activate_parts {answers : List Bool} {activation : Activation}
    (run : engine.activate answers before = (.ok activation, after))
    (carriedThrough : activation.cancelled = false) :
    ∃ taken stocked migrated moved drained counters,
      takeIn engine answers before = (.ok taken, stocked) ∧ taken.2.headD false = true ∧
      migrateBins stocked = (.ok migrated, moved) ∧
      (engine.drain { itemsBinned := taken.1, binsMigrated := migrated } moved) =
        (.ok activation, drained) ∧ after = { drained with counters } := by
  rw [activate_eq] at run
  obtain ⟨taken, stocked, takes, run⟩ := Act.bind_eq_ok run
  dsimp only at run
  split at run
  case isTrue scheduled =>
    obtain ⟨migrated, moved, migrates, run⟩ := Act.bind_eq_ok run
    obtain ⟨last, drained, drains, run⟩ := Act.bind_eq_ok run
    obtain ⟨counters, concludes⟩ := conclude_eq last drained
    rw [concludes] at run
    cases run
    exact ⟨taken, stocked, migrated, moved, drained, counters, takes, scheduled, migrates,
      drains, rfl⟩
  case isFalse =>
    cases run
    cases carriedThrough

section Activation

variable (carried : Flow.Carried property) (putKeeps : PutKeeps property mayPut)
  (behave : engine.hooks.Behave mayPut)
  (unmarked : ∀ bin, (engine.hooks.process bin).Uses (Call.Permitted mayPut none))
include carried putKeeps behave unmarked

/-- An activation that is carried through hands its queue to the processor: what waited, the
strays of its chunks, and what left the shelf. -/
theorem activate_handles {answers : List Bool} {activation : Activation}
    (alive : Alive property [] start before) (dated : before.Dated)
    (run : engine.activate answers before = (.ok activation, after))
    (carriedThrough : activation.cancelled = false) :
    ∃ taken stocked unbound strays left moved,
      takeIn engine answers before = (.ok taken, stocked) ∧
      (∀ chunk ∈ engine.chunks answers before, chunk.2.map Finding.item = chunk.1) ∧
      unbound.Sublist ((engine.chunks answers before).flatMap fun chunk =>
        groupwise (loads chunk.2)) ∧
      before.Strayed unbound strays stocked ∧
      migrateBins stocked = (.ok left.length, moved) ∧ stocked.Migrated left moved ∧
      (engine.handings answers before).map Handing.bin = before.ready ++ strays ++ left ∧
      after.handled = before.handled ++ (before.ready ++ strays ++ left) ∧
      after.handled.Nodup := by
  obtain ⟨taken, stocked, _, moved, drained, counters, takes, scheduled, migrates, drains,
    isAfter⟩ := activate_parts run carriedThrough
  obtain ⟨found, unbound, strays, within, strayed⟩ :=
    takeIn_strays carried putKeeps behave answers alive.1 takes
  have rules := @intakeRules_alive start _ _ _ carried putKeeps behave
  have aliveStocked := (rules.takeIn answers).of_ok alive takes
  have retains := ((takeIn_dated carried putKeeps behave [] answers).of_ok
    ⟨alive.1, dated, List.nil_subset _⟩ takes).2
  obtain ⟨left, reached, leaves, migrated⟩ :=
    migrateBins_migrates ⟨aliveStocked.1.arranged, retains.dated⟩
  obtain ⟨rfl, rfl⟩ : _ = left.length ∧ moved = reached := by
    simpa using migrates.symm.trans leaves
  have aliveMoved := migrateBins_alive.of_ok aliveStocked migrates
  obtain ⟨last, ended, drainsAll, aliveEnded, handled⟩ := drainBins_alive carried putKeeps behave
    unmarked moved.ready { itemsBinned := taken.1, binsMigrated := left.length } aliveMoved rfl
  obtain ⟨rfl, rfl⟩ : activation = last ∧ drained = ended := by
    simpa using drains.symm.trans drainsAll
  have sameHandled : after.handled = drained.handled := by rw [isAfter]
  have handed : (engine.handings answers before).map Handing.bin = moved.ready := by
    unfold handings laterHandings
    rw [takes]
    dsimp only
    rw [if_pos scheduled, migrates]
    exact bins_drainHandings drains
  refine ⟨taken, stocked, unbound, strays, left, moved, takes, found, within, strayed, migrates,
    migrated, ?_, ?_, sameHandled ▸ aliveEnded.2.once⟩
  · rw [handed, migrated.queue, strayed.queue]
  · rw [sameHandled, handled, migrated.handled, migrated.queue, strayed.handled, strayed.queue]

end Activation

/-- From whatever state a run reaches, an activation that is carried through hands bins to the
processor once each, in this order: the bins that were queued before it; the bins of the items
that found no place, chunk by chunk, the groups of a chunk as they first appear in it, and
their items as they were pulled; and the bins that left the shelf, which were due, oldest
first, or were the oldest one of a starved shelf. -/
theorem processes_in_order (engine : Engine)
    (behave : engine.hooks.Behave fun items => ∀ item ∈ items, item.HasWholeSize)
    (unmarked : ∀ bin, (engine.hooks.process bin).Uses
      (Call.Permitted (fun items => ∀ item ∈ items, item.HasWholeSize) none))
    (source : List Item) (relationships : List String) (clock : Moment) (policy : Policy)
    (events : List Event) (answers : List Bool)
    (whole : ∀ item ∈ source ++ events.flatMap Event.items, item.HasWholeSize) :
    let before := run engine
      (opening { source, sinks := Flow.sinksFor relationships } clock policy) events
    let stocked := (takeIn engine answers).final before
    let chunks := engine.chunks answers before
    ∀ activation after, engine.activate answers before = (.ok activation, after) →
      activation.cancelled = false →
      ∃ (unbound : List Item) (strays left : List BinId) (moved : Depot),
        (engine.handings answers before).map Handing.bin = before.ready ++ strays ++ left ∧
        after.handled = before.handled ++ (before.ready ++ strays ++ left) ∧
        after.handled.Nodup ∧
        (∀ bin, bin ∈ strays ↔
          before.bins.next ≤ bin ∧ (stocked.bin bin).reason = some .unbound) ∧
        strays.map (fun bin => (stocked.bin bin).contents) = unbound.map (fun item => [item]) ∧
        unbound.Sublist (chunks.flatMap fun chunk => groupwise (loads chunk.2)) ∧
        (∀ chunk ∈ chunks, chunk.2.map Finding.item = chunk.1) ∧
        migrateBins stocked = (.ok left.length, moved) ∧ stocked.Migrated left moved := by
  intro before stocked chunks activation after activates carriedThrough
  have putKeeps : PutKeeps (fun _ => True) fun items => ∀ item ∈ items, item.HasWholeSize :=
    ⟨fun _ _ _ _ => trivial, fun _ => id⟩
  have dated := (run_opening_dated behave source relationships clock policy events whole).2
  have alive := run_opening_alive behave unmarked source relationships clock policy events whole
  obtain ⟨_, reached, unbound, strays, left, moved, takes, found, within, strayed, migrates,
    migrated, handed, handled, once⟩ := activate_handles (tracked_anything.carried []) putKeeps
    behave unmarked alive dated activates carriedThrough
  have isStocked : stocked = reached := congrArg Prod.snd takes
  rw [isStocked]
  exact ⟨unbound, strays, left, moved, handed, handled, once, fun _ => strayed.mem_iff,
    strayed.contents, within, found, migrates, migrated⟩

/-- One bin is left in the queue by an activation that was stopped; in the next one two groups
have strays, and the oldest bin is evicted. -/
theorem processes_waiting_strays_and_evicted :
    let keyOf (item : Item) : Except Fault Value :=
      .ok (.text (if item.id ∈ ["u", "w", "q"] then "h" else if item.id = "r" then "k" else "g"))
    let engine : Engine := { hooks := .keyedBy keyOf fun _ => .fail .recoverable }
    let source : List Item := [{ id := "x", size := .int 9 }, { id := "p", size := .int 1 }]
    let events : List Event := [.activate [true],
      .put [{ id := "u", size := .int 9 }, { id := "v", size := .int 9 },
        { id := "w", size := .int 9 }, { id := "q", size := .int 1 },
        { id := "r", size := .int 1 }]]
    let before := run engine (opening { source, sinks := Flow.sinksFor [] } {}
      { minEntries := 3, maxSize := some 4, maxBinCount := 3 }) events
    let stocked := (takeIn engine [true, true]).final before
    let after := (engine.activate [true, true]).final before
    before.ready = [2] ∧ after.handled = [2] ++ [6, 7, 9] ++ [1] ∧
      (engine.handings [true, true] before).map Handing.bin = [2] ++ [6, 7, 9] ++ [1] ∧
      (∀ bin, bin ∈ [6, 7, 9] ↔
        before.bins.next ≤ bin ∧ (stocked.bin bin).reason = some .unbound) ∧
      ∃ moved, stocked.Migrated [1] moved := by
  intro keyOf engine source events before stocked after
  have whole : ∀ item ∈ source ++ events.flatMap Event.items, item.HasWholeSize := by
    simp only [source, events, Event.items, List.flatMap_cons, List.flatMap_nil,
      List.nil_append, List.append_nil, List.cons_append, List.forall_mem_cons]
    exact ⟨⟨9, rfl⟩, ⟨1, rfl⟩, ⟨9, rfl⟩, ⟨9, rfl⟩, ⟨9, rfl⟩, ⟨1, rfl⟩, ⟨1, rfl⟩,
      List.forall_mem_nil _⟩
  have ended : ((engine.activate [true, true]) before).1.toOption.map Activation.cancelled =
      some false := by decide +kernel
  rcases run : engine.activate [true, true] before with ⟨fault | activation, reached⟩
  · rw [run] at ended
    cases ended
  rw [run] at ended
  obtain ⟨unbound, strays, left, moved, handed, handled, _, isStray, _, _, _, migrates, migrated⟩ :=
    processes_in_order engine (behave_keyedBy keyOf fun _ => trivial) (fun _ => trivial) source []
      {} { minEntries := 3, maxSize := some 4, maxBinCount := 3 } events [true, true] whole
      activation reached run (Option.some.inj ended)
  have isAfter : after = reached := congrArg Prod.snd run
  have waits : before.ready = [2] := by decide +kernel
  have none : before.handled = [] := by decide +kernel
  have all : after.handled = [2] ++ [6, 7, 9] ++ [1] := by decide +kernel
  have stock : stocked.ready = [2, 6, 7, 9] := by decide +kernel
  have queue : (migrateBins stocked).2.ready = [2, 6, 7, 9] ++ [1] := by decide +kernel
  have migrates : migrateBins stocked = (.ok left.length, moved) := migrates
  obtain rfl : [1] = left := by
    have queued : moved.ready = stocked.ready ++ left := migrated.queue
    rw [migrates] at queue
    rw [queue, stock] at queued
    exact List.append_cancel_left queued
  obtain rfl : [6, 7, 9] = strays := by
    have order : reached.handled = before.handled ++ (before.ready ++ strays ++ [1]) := handled
    rw [← isAfter, all, none, List.nil_append, waits] at order
    exact List.append_cancel_left (List.append_cancel_right order)
  exact ⟨waits, all, waits ▸ handed, isStray, moved, migrated⟩

end ItemBinning.Engine
