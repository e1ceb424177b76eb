import ItemBinning.Proofs.Engine.Deliveries
import ItemBinning.Proofs.Engine.ResetOrder

/-!
# What a reset leaves behind

After every run of events a reset answers.  No bin is open or queued any more, those that
were are rolled back, and what their sessions held stands in front of the source, in the
versions that were put there.  Nothing is left for a second reset to do.
-/

namespace ItemBinning

namespace Depot

/-- All open and queued bins were rolled back, and the items their sessions held, each the
version that was given, stand before those that waited. -/
structure Restarted (given : List Item) (before after : Depot) : Prop where
  shelf : after.shelf = { before.shelf with groups := .empty, binCount := 0 }
  ready : after.ready = []
  source : ∃ back, after.flow.source = back ++ before.flow.source ∧ (∀ item ∈ back, item ∈ given) ∧
    back.map Item.id =
      (before.shelf.bins ++ before.ready).reverse.flatMap fun bin => (before.binSession bin).ids
  sinks : after.flow.sinks = before.flow.sinks
  rolledBack : ∀ bin ∈ before.shelf.bins ++ before.ready,
    after.bin bin = { before.bin bin with state := .rolledBack }
  others : ∀ bin ∉ before.shelf.bins ++ before.ready, after.bin bin = before.bin bin
  released : ∀ bin ∈ before.shelf.bins ++ before.ready, (after.binSession bin).ids = []

variable {known : List String} {given : List Item} {before after depot : Depot}
  {gone bins : List BinId}

theorem Discarded.sinks (discarded : before.Discarded gone after) :
    after.flow.sinks = before.flow.sinks := by
  rw [discarded.flow]
  generalize before.flow = flow
  clear discarded
  induction gone generalizing flow with
  | nil => rfl
  | cons bin rest ih => exact ih (flow.returned _)

theorem returns_upstream {property : Item → Prop} (upstream : depot.flow.Upstream property) :
    ∀ item ∈ depot.returns bins, property item := by
  intro item member
  obtain ⟨bin, _, isPulled⟩ := List.mem_flatMap.1 member
  obtain ⟨id, found⟩ := Table.mem_values_iff.1 isPulled
  exact upstream.pulled _ id item found

/-- What a session of a bin held is on the source again as it was given. -/
theorem Restarted.mem_source (restarted : before.Restarted given after)
    (distinct : (given.map Item.id).Nodup) {item : Item} (isGiven : item ∈ given) {bin : BinId}
    (stored : bin ∈ before.shelf.bins ++ before.ready)
    (held : item.id ∈ (before.binSession bin).ids) : item ∈ after.flow.source := by
  obtain ⟨back, source, areGiven, ids⟩ := restarted.source
  have returned : item.id ∈ back.map Item.id :=
    ids ▸ List.mem_flatMap.2 ⟨bin, List.mem_reverse.2 stored, held⟩
  obtain ⟨other, member, same⟩ := List.mem_map.1 returned
  have equal : other = item :=
    List.inj_on_of_nodup_map distinct (areGiven other member) isGiven same
  exact source ▸ List.mem_append_left _ (equal ▸ member)

end Depot

namespace Engine

open Depot

variable {known : List String} {given : List Item} {depot : Depot}

theorem reset_restarts
    (sound : depot.Sound (fun flow => flow.Coherent known ∧ flow.Upstream (· ∈ given)) []) :
    ∃ after, reset depot = (.ok (), after) ∧ depot.Restarted given after := by
  obtain ⟨coherent, upstream⟩ := sound.flow
  obtain ⟨after, run, discarded⟩ := reset_spec sound.arranged sound.queued
  refine ⟨after, run, ?_⟩
  have shelf : after.shelf = depot.emptied.shelf := by rw [discarded.rest]
  exact {
    shelf
    ready := by rw [discarded.rest]; rfl
    source := ⟨depot.returns (depot.shelf.bins ++ depot.ready),
      discarded.source sound.nodup_stored, returns_upstream upstream,
      ids_returns coherent _⟩
    sinks := discarded.sinks
    rolledBack := discarded.rolledBack
    others := discarded.others
    released := fun bin stored => by
      unfold binSession
      rw [discarded.rolledBack bin stored]
      exact discarded.emptied stored }

/-- Where no bin is open or queued, a reset does nothing. -/
theorem reset_of_nothing_stored (groups : depot.shelf.groups = .empty)
    (binCount : depot.shelf.binCount = 0) (ready : depot.ready = []) :
    reset depot = (.ok (), depot) := by
  obtain ⟨flow, bins, clock, ⟨thresholds, _, _⟩, _, _⟩ := depot
  cases groups
  cases binCount
  cases ready
  rfl

/-- After every run of events the items that wait, and those held as they were pulled, are
among the versions that were given. -/
theorem upstream_after_run (engine : Engine) (behave : engine.hooks.Behave fun _ => False)
    (source : List Item) (relationships : List String) (clock : Moment) (policy : Policy)
    (events : List Event)
    (whole : ∀ item ∈ source ++ events.flatMap Event.items, item.HasWholeSize) :
    (run engine (opening { source, sinks := Flow.sinksFor relationships } clock policy)
      events).Sound (fun flow => flow.Coherent (Flow.sinksFor relationships).keys ∧
        flow.Upstream (· ∈ source ++ events.flatMap Event.items)) [] := by
  have begun : (opening { source, sinks := Flow.sinksFor relationships } clock policy).Sound
      (fun flow => flow.Coherent (Flow.sinksFor relationships).keys ∧
        flow.Upstream (· ∈ source)) [] := by
    refine sound_opening clock policy ⟨Flow.coherent_start _ _, fun _ => id, nofun⟩ ?_
      fun _ => rfl
    exact ⟨fun item member => whole item (List.mem_append_left _ member), nofun, nofun⟩
  exact run_sound (tracked_upstream _) (fun _ => putKeeps_nothing _) behave events
    (fun item member => whole item (List.mem_append_right _ member)) begun

/-- After every run of events on a source whose ids are distinct, a reset answers.  It
leaves no bin open or queued, puts what they held back as it was given, each item once and
in front of those that wait, and a second reset changes nothing. -/
theorem restarted_by_reset (engine : Engine) (behave : engine.hooks.Behave fun _ => False)
    (source : List Item) (relationships : List String) (clock : Moment) (policy : Policy)
    (events : List Event)
    (distinct : ((source ++ events.flatMap Event.items).map Item.id).Nodup)
    (whole : ∀ item ∈ source ++ events.flatMap Event.items, item.HasWholeSize) :
    let given := source ++ events.flatMap Event.items
    let depot := run engine
      (opening { source, sinks := Flow.sinksFor relationships } clock policy) events
    ∃ after, reset depot = (.ok (), after) ∧ depot.Restarted given after ∧
      (∀ item ∈ given, ∀ bin ∈ depot.shelf.bins ++ depot.ready,
        item.id ∈ (depot.binSession bin).ids → item ∈ after.flow.source) ∧
      (after.flow.source.map Item.id).Nodup ∧ reset after = (.ok (), after) := by
  intro given depot
  have sound := upstream_after_run engine behave source relationships clock policy events whole
  obtain ⟨after, run, restarted⟩ := reset_restarts sound
  have accounted := accounted_after_run engine behave source relationships clock policy events
    distinct whole
  have kept := ((reset_sound (Flow.carried_accounted distinct)).final accounted).flow
  rw [Act.final, run] at kept
  refine ⟨after, run, restarted, fun item isGiven bin stored held => ?_,
    kept.nodup_source distinct, ?_⟩
  · exact restarted.mem_source distinct isGiven stored held
  · exact reset_of_nothing_stored (by rw [restarted.shelf]) (by rw [restarted.shelf])
      restarted.ready

/-- An activation stopped at a bin that its processor had completed itself, so that another
ready bin stayed queued.  Its items come back without the attribute that the hooks gave them,
as does the item of the open bin. -/
theorem restarted_with_queued_bin :
    let engine : Engine := {
      hooks := {
        preprocess := (Preprocessor.annotate (Table.ofList [("kind", .text "T")])).script
        groupKey := (Grouping.byAttribute "group" [] []).script
        process := fun bin => .call (.mark bin .processed) fun _ => .done (some {}) } }
    let source := [grouped "a" "g", grouped "b" "g", grouped "c" "h", grouped "d" "h",
      grouped "e" "i"]
    let events : List Event := [.activate [true, true, true], .put [{ id := "f" }]]
    let given := source ++ events.flatMap Event.items
    let depot := run engine (opening { source, sinks := Flow.sinksFor [] } {} { minEntries := 2 })
      events
    depot.shelf.bins = [2] ∧ depot.ready = [1] ∧
      ((depot.binSession 1).items.map fun item => (item.id, item.attributes.keys)) =
        [("c", ["group", "kind"]), ("d", ["group", "kind"])] ∧
      ∃ after, reset depot = (.ok (), after) ∧ depot.Restarted given after ∧
        (∀ item ∈ given, ∀ bin ∈ depot.shelf.bins ++ depot.ready,
          item.id ∈ (depot.binSession bin).ids → item ∈ after.flow.source) ∧
        (after.flow.source.map Item.id).Nodup ∧ reset after = (.ok (), after) := by
  intro engine source events given depot
  have quiet : Hooks.Prepare { engine.hooks with process := fun _ => .done none } :=
    .of_annotate (fun _ _ => rfl) (fun item =>
      Grouping.uses_script _ (.byAttribute "group" [] []) item) fun _ => trivial
  have behave : engine.hooks.Behave fun _ => False :=
    { quiet.behave with process := fun _ => ⟨rfl, fun _ => trivial⟩ }
  have whole : ∀ item ∈ given, item.HasWholeSize := by
    simp only [given, source, events, Event.items, List.flatMap_cons, List.flatMap_nil,
      List.append_nil, List.nil_append, List.cons_append, List.forall_mem_cons]
    exact ⟨⟨1, rfl⟩, ⟨1, rfl⟩, ⟨1, rfl⟩, ⟨1, rfl⟩, ⟨1, rfl⟩, ⟨0, rfl⟩, List.forall_mem_nil _⟩
  exact ⟨by decide +kernel, by decide +kernel, by decide +kernel,
    restarted_by_reset engine behave source [] {} { minEntries := 2 } events (by decide +kernel)
      whole⟩

end Engine

end ItemBinning
