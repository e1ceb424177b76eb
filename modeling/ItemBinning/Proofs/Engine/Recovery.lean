import ItemBinning.Proofs.Engine.Chunks
import ItemBinning.Proofs.Engine.Conservation
import ItemBinning.Proofs.Engine.Landing
import ItemBinning.Proofs.Hook.Adornment

/-!
# Recovery from faults of an intake

When the intake fails while it handles a chunk, the chunks before it were binned, and
what is left of the chunk returns to the front of the source: the items that were not
stowed, in their order and in the versions that were pulled.  The others are in bins,
and no sink received any of them.
-/

namespace ItemBinning

namespace Depot

variable {known : List String} {property : Flow → Prop} {session : SessionId}
  {start before after depot : Depot} {load : Load} {bin : BinId} {chunk : List Item}

theorem AtWork.adorned (atWork : before.AtWork property session)
    (adorned : before.Adorned after) (sound : after.Sound property [session]) :
    after.AtWork property session :=
  atWork.undisturbed adorned.undisturbed sound

/-- Since a start items were adorned at most, and all of them are accounted for. -/
structure Prepared (property : Flow → Prop) (session : SessionId) (start depot : Depot) :
    Prop where
  adorned : start.Adorned depot
  sound : depot.Sound property [session]

theorem Prepared.atWork (prepared : Prepared property session start depot)
    (atWork : start.AtWork property session) : depot.AtWork property session :=
  atWork.adorned prepared.adorned prepared.sound

section Prepared

variable {α : Type} {act : Act Depot α} {script : Script α}

theorem keeps_prepared (adorns : act.Keeps start.Adorned)
    (sounds : act.Keeps (Sound property [session])) :
    act.Keeps (Prepared property session start) :=
  Act.Keeps.of_final fun _ prepared =>
    ⟨adorns.final prepared.adorned, sounds.final prepared.sound⟩

theorem script_prepared (carried : Flow.Carried property) (uses : script.Uses Call.Gentle) :
    script.run.Keeps (Prepared property session start) :=
  keeps_prepared (uses.keeps fun _ gentle => gentle.perform)
    ((uses.mono fun _ gentle => gentle.permitted _ none).keeps_sound
      carried (Engine.putKeeps_nothing _))

theorem route_prepared (carried : Flow.Carried property) (items : List Item)
    (relationship : String) :
    (onFlow (Flow.route session items relationship)).Keeps
      (Prepared property session start) :=
  keeps_prepared (Adorned.onFlow fun _ => Flow.route_adorns session items relationship)
    (onFlow_sound carried (·.route session items relationship)
      fun start => Flow.route_gains start session items relationship)

theorem count_prepared (change : Counters → Counters) :
    (count change).Keeps (Prepared property session start) :=
  keeps_prepared (count_adorns change) (count_sound change)

end Prepared

/-- Since a start items were adorned and then some were stowed. -/
structure Engaged (property : Flow → Prop) (session : SessionId) (start depot : Depot) :
    Prop where
  atWork : depot.AtWork property session
  course : ∃ sorted cargo, start.Adorned sorted ∧
    Hauled property session cargo sorted depot

theorem Landed.drawn (landed : before.Landed load bin)
    (drawn : before.Drawn session chunk after)
    (sound : before.Sound property []) : after.Landed load bin := by
  refine landed.of_same (by rw [drawn.shelf]) drawn.ready (drawn.bin bin ▸ .refl _) ?_
  have apart : (before.bin bin).session ≠ session := by
    intro same
    have isOpened := sound.arranged.registered.sessions bin (sound.isBin landed.stored)
    rw [same, drawn.fresh] at isOpened
    exact Nat.lt_irrefl _ isOpened
  unfold binSession
  rw [drawn.bin, drawn.others _ apart]
  exact List.Subset.refl _

theorem Landed.adorned (landed : before.Landed load bin) (adorned : before.Adorned after) :
    after.Landed load bin := by
  refine landed.of_same (by rw [adorned.shelf]) adorned.ready (adorned.bin bin ▸ .refl _) ?_
  unfold binSession
  rw [adorned.bin, adorned.flow.ids]
  exact List.Subset.refl _

/-- What a chunk leaves behind that is given up: a part of it is back at the front of
the source, in the order and the versions pulled, the other items are in bins, and
whatever was in bins before is there still. -/
structure Recovered (chunk : List Item) (before after : Depot) : Prop where
  sinks : after.flow.sinks = before.flow.sinks
  source : ∃ returned rest, before.flow.source = chunk ++ rest ∧
    after.flow.source = returned ++ rest ∧ returned.Sublist chunk ∧
    ∀ item ∈ chunk, item ∈ returned ↔
      ¬ ∃ load bin, load.2.id = item.id ∧ after.Landed load bin
  landed : ∀ load bin, before.Landed load bin → after.Landed load bin

/-- An item in a bin does not wait on the source. -/
theorem Landed.not_waiting {ids : List String} (landed : depot.Landed load bin)
    (accounted : depot.flow.Accounted known ids) (distinct : ids.Nodup) :
    load.2.id ∉ depot.flow.source.map Item.id := by
  intro waits
  have both := depot.flow.count_idsAt_add_le_account
    (show Flow.Spot.session (depot.bin bin).session ≠ .source from nofun) load.2.id
  have waiting : 0 < (depot.flow.idsAt .source).count load.2.id := List.count_pos_iff.2 waits
  have held : 0 < (depot.flow.idsAt (.session (depot.bin bin).session)).count load.2.id :=
    List.count_pos_iff.2 landed.held
  have once := List.nodup_iff_count_le_one.1 distinct load.2.id
  rw [← accounted.accounts] at once
  omega

theorem Engaged.recovered {ids : List String} (distinct : ids.Nodup)
    (drawn : before.Drawn session chunk start)
    (sound : before.Sound (Flow.Accounted known ids) [])
    (engaged : Engaged (Flow.Accounted known ids) session start depot) :
    Recovered chunk before { depot with flow := depot.flow.returned session } := by
  obtain ⟨sorted, cargo, adorned, hauled⟩ := engaged.course
  have loose := engaged.atWork.loose
  obtain ⟨given, isGiven⟩ : ∃ given, given = cargo.map fun load => load.2.id := ⟨_, rfl⟩
  have pulled : (depot.flow.session session).pulled.values =
      chunk.filter fun item => decide (item.id ∉ given) := by
    unfold Table.values
    rw [hauled.giver, Session.pulled_releaseAll, adorned.flow.pulled, drawn.pulled,
      ← isGiven, List.filter_map, List.map_map]
    exact List.map_id _
  have source : depot.flow.source = start.flow.source :=
    hauled.source.trans adorned.flow.source
  have returned : (depot.flow.returned session).source =
      (chunk.filter fun item => decide (item.id ∉ given)) ++ start.flow.source := by
    rw [← pulled, ← source]
    rfl
  have landed (load : Load) (bin : BinId) (landed : depot.Landed load bin) :=
    landed.apart loose fun other differs => depot.flow.session_returned_of_ne differs
  refine ⟨?_, ⟨_, _, drawn.source, returned, List.filter_sublist, ?_⟩, ?_⟩
  · exact hauled.sinks.trans (adorned.flow.sinks.trans drawn.sinks)
  · intro item member
    constructor
    · rintro back ⟨load, bin, same, inBin⟩
      have accounted : (depot.flow.returned session).Accounted known ids :=
        (Flow.carried_accounted distinct).returned _ _ engaged.atWork.sound.flow
      refine inBin.not_waiting accounted distinct ?_
      rw [same]
      change item.id ∈ (depot.flow.returned session).source.map Item.id
      rw [returned]
      exact List.mem_map_of_mem (List.mem_append_left _ back)
    · intro nowhere
      refine List.mem_filter.2 ⟨member, decide_eq_true fun stowed => nowhere ?_⟩
      rw [isGiven] at stowed
      obtain ⟨load, inCargo, same⟩ := List.mem_map.1 stowed
      obtain ⟨bin, inBin⟩ := hauled.landed load inCargo
      exact ⟨load, bin, same, landed load bin inBin⟩
  · intro load bin inBin
    exact landed load bin (hauled.landed_before ((inBin.drawn drawn sound).adorned adorned))

end Depot

namespace Engine

open Depot

variable {known : List String} {property : Flow → Prop} {session : SessionId} {engine : Engine}
  {mayPut : List Item → Prop}

/-- Sorting a chunk with hooks that leave items where they are only adorns. -/
theorem sortItems_adorns (carried : Flow.Carried property)
    (behave : engine.hooks.Behave fun _ => False)
    (gentle : engine.hooks.Gentle) {start : Depot} (atWork : start.AtWork property session)
    {items : List Item} (apart : (items.map Item.id).Nodup)
    (whole : ∀ item ∈ items, item.HasWholeSize) :
    (sortItems engine.hooks session items).Meets (· = start)
      (fun findings sorted => Prepared property session start sorted ∧
        ∀ finding ∈ findings, finding.Right Item.HasWholeSize)
      fun _ => Prepared property session start := by
  have classified (item : Item) (member : item ∈ items) :
      (classify engine.hooks session item).Meets (Prepared property session start)
        (fun placed depot => Prepared property session start depot ∧
          placed.2.1.key? = some placed.2.2 ∧ placed.1.HasWholeSize)
        fun _ => Prepared property session start := by
    have preprocessed : (engine.hooks.preprocess item session).run.Keeps
        (Prepared property session start) :=
      script_prepared carried (gentle.preprocess item session)
    refine classify_meets (Act.Meets.of_runs ?_ ?_) fun version _ => ?_
    · intro depot version reached prepared run
      refine ⟨preprocessed.of_ok prepared run, ?_⟩
      rintro given rfl
      exact behave.versions item session depot given reached prepared.sound.whole
        (whole item member) run
    · intro depot fault reached prepared run
      exact preprocessed.of_error prepared run
    · exact script_prepared carried (gentle.groupKey version)
  have sorts := sortItems_meets (fun _ => Prepared property session start)
    (fun _ => Item.HasWholeSize) (fun _ => Prepared property session start) [] items apart
    (fun _ item member _ => classified item member)
    (fun _ item _ => route_prepared carried [item] _) fun _ => count_prepared
  refine sorts.weaken ?_ ?_ fun _ _ => id
  · rintro _ rfl
    exact ⟨.refl _, atWork.sound⟩
  · exact fun findings depot holds => ⟨holds.1, holds.2.2⟩

/-- What is left of a chunk that fails returns. -/
theorem takeChunk_recovers {ids : List String} (distinct : ids.Nodup)
    (behave : engine.hooks.Behave fun _ => False)
    (adorn : engine.hooks.Adorn) {before reached : Depot} {fault : Fault}
    (sound : before.Sound (Flow.Accounted known ids) [])
    (failed : takeChunk engine before = (.error fault, reached)) :
    Recovered (engine.nextChunk before) before reached := by
  have chunked := takeChunk_chunked engine before
  rw [failed] at chunked
  cases chunked with
  | unpulled _ _ run opened =>
      have none : engine.nextChunk before = [] := by
        unfold nextChunk
        rw [run]
      rw [none, opened]
      refine ⟨rfl, ⟨[], before.flow.source, rfl, rfl, .slnil, nofun⟩, fun load bin landed => ?_⟩
      refine landed.of_same rfl rfl (.refl _) ?_
      unfold binSession Depot.bin
      dsimp only
      rw [Flow.session_push]
      exact List.Subset.refl _
  | failed session items pulled stopped _ run drawn bins =>
      rw [nextChunk_eq run]
      obtain ⟨atWork, whole⟩ :=
        pullChunk_atWork (Flow.carried_accounted distinct) sound run drawn
      have sorts := sortItems_adorns (Flow.carried_accounted distinct) behave adorn.gentle
        atWork drawn.distinct whole
      have binning : Binning (Flow.Accounted known ids) engine.hooks session items pulled
          (binItems engine.hooks session items pulled) :=
        binItems_binning (Flow.carried_accounted distinct) fun findings sorted run =>
          ⟨(sorts.of_ok rfl run).1.atWork atWork, (sorts.of_ok rfl run).2⟩
      rw [bins] at binning
      refine Engaged.recovered distinct drawn sound ?_
      cases binning with
      | unsorted _ _ run =>
          have prepared := sorts.of_error rfl run
          exact ⟨prepared.atWork atWork, _, [], prepared.adorned,
            .still (prepared.atWork atWork) (.refl _)⟩
      | stopped _ _ findings sorted run stopped =>
          obtain ⟨_, moved, _⟩ := stopped
          obtain ⟨cargo, hauled, _⟩ := moved.hauled
          exact ⟨moved.atWork, sorted, cargo, (sorts.of_ok rfl run).1.adorned, hauled⟩
      | unrouted _ _ findings sorted run moved =>
          obtain ⟨cargo, hauled, _⟩ := moved.hauled
          exact ⟨moved.atWork, sorted, cargo, (sorts.of_ok rfl run).1.adorned, hauled⟩

/-- An activation that fails while it handles a chunk has binned all chunks before it,
and what is left of this one returns to the front of the source. -/
theorem recovered_after_failure (engine : Engine)
    (behave : engine.hooks.Behave fun _ => False) (adorn : engine.hooks.Adorn)
    (source : List Item) (relationships : List String) (clock : Moment) (policy : Policy)
    (events : List Event) (answers : List Bool)
    (distinct : ((source ++ events.flatMap Event.items).map Item.id).Nodup)
    (whole : ∀ item ∈ source ++ events.flatMap Event.items, item.HasWholeSize) :
    let start := opening { source, sinks := Flow.sinksFor relationships } clock policy
    let depot := run engine start events
    ∀ fault reached, takeIn engine answers depot = (.error fault, reached) →
      engine.activate answers depot = (.error fault, reached) ∧
      ∃ earlier later binned before, answers = earlier ++ true :: later ∧
        takeIn engine earlier depot = (.ok (binned, []), before) ∧
        Recovered (engine.nextChunk before) before reached := by
  intro start depot fault reached failed
  have sound := accounted_after_run engine behave source relationships clock policy events
    distinct whole
  refine ⟨Act.bind_of_error failed _, ?_⟩
  obtain ⟨earlier, later, binned, before, answer, isSchedule, began, stops⟩ :=
    takeIn_failed sound.arranged.thresholds failed
  have between := ((accountedRules distinct behave).takeIn earlier).of_ok sound began
  rcases stops with ⟨refused, _⟩ | ⟨rfl, stops⟩
  · obtain ⟨room, isRoom⟩ := exists_hasRoom between.arranged.thresholds before.shelf.binCount
    rw [isRoom] at refused
    cases refused
  · exact ⟨earlier, later, binned, before, isSchedule, began,
      takeChunk_recovers distinct behave adorn between stops⟩

/-- A hook replaces one item by another that no session holds. -/
def straying : Engine where
  hooks :=
    { preprocess := fun item _ => .done (some (if item.id = "b" then { id := "x" } else item))
      groupKey := fun _ => .done .null
      process := fun _ => .fail .recoverable }
  chunkSize := .int 1

theorem recovered_from_stray :
    let source : List Item := [{ id := "a" }, { id := "b" }, { id := "c" }]
    let start := opening { source, sinks := Flow.sinksFor [] } {} {}
    ∃ fault reached, straying.activate [true, true, true] start = (.error fault, reached) ∧
      ∃ earlier later binned before, [true, true, true] = earlier ++ true :: later ∧
        takeIn straying earlier start = (.ok (binned, []), before) ∧
        Recovered (straying.nextChunk before) before reached := by
  intro source start
  have behave : straying.hooks.Behave fun _ => False := by
    refine ⟨fun _ _ => trivial, fun _ => trivial, fun _ => trivial, ?_⟩
    rintro item session depot version reached _ whole ⟨⟩
    split
    · exact ⟨0, rfl⟩
    · exact whole
  have adorn : straying.hooks.Adorn := ⟨fun _ _ => trivial, fun _ => trivial⟩
  have whole : ∀ item ∈ source ++ [].flatMap Event.items, item.HasWholeSize := by
    simp only [source, List.flatMap_nil, List.append_nil, List.forall_mem_cons]
    exact ⟨⟨0, rfl⟩, ⟨0, rfl⟩, ⟨0, rfl⟩, nofun⟩
  have fails : (takeIn straying [true, true, true] start).1.isOk = false := by decide +kernel
  rcases run : takeIn straying [true, true, true] start with ⟨fault | answer, reached⟩
  · exact ⟨fault, reached, recovered_after_failure straying behave adorn source [] {} {} []
      [true, true, true] (by decide) whole fault reached run⟩
  · rw [run] at fails
    cases fails

end Engine

end ItemBinning
