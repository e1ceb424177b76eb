import Mathlib.Data.List.Dedup
import ItemBinning.Proofs.Engine.Annals
import ItemBinning.Proofs.Engine.PullOrder

/-!
# Order inside a bin

The ids that are pulled in the course of a run make a log, in which an id that was pulled
again stands once more.  Where only the last of equal ids count, the contents of every bin
stand in the order of the log, however many chunks and activations filled it.  A bin that
is completed adds all its items to a sink in this order, one after the other, or none, and
what a sink received stays in front of what it receives later.
-/

namespace ItemBinning

/-- Elements that stand in the order of their last places in a log do so with a chunk behind
them, if none of them is in the chunk. -/
theorem sublist_dedup_append {α : Type} [DecidableEq α] {line log chunk : List α}
    (within : line.Sublist log.dedup) (apart : ∀ element ∈ line, element ∉ chunk)
    (distinct : chunk.Nodup) : (line ++ chunk).Sublist (log ++ chunk).dedup := by
  induction log generalizing line with
  | nil =>
      rw [List.dedup_nil, List.sublist_nil] at within
      rw [within, List.nil_append, distinct.dedup]
  | cons first rest ih =>
      have longer : (rest ++ chunk).dedup.Sublist (first :: rest ++ chunk).dedup := by
        rw [List.cons_append]
        by_cases again : first ∈ rest ++ chunk
        · rw [List.dedup_cons_of_mem again]
        · rw [List.dedup_cons_of_notMem again]
          exact List.sublist_cons_self _ _
      by_cases again : first ∈ rest
      · rw [List.dedup_cons_of_mem again] at within
        exact (ih within apart).trans longer
      rw [List.dedup_cons_of_notMem again] at within
      cases within with
      | cons _ within => exact (ih within apart).trans longer
      | cons_cons _ within =>
          rw [List.forall_mem_cons] at apart
          have fresh : first ∉ rest ++ chunk := List.not_mem_append again apart.1
          rw [List.cons_append, List.cons_append, List.dedup_cons_of_notMem fresh]
          exact (ih within apart.2).cons_cons first

theorem Session.Coherent.ids_items {known : List String} {session : Session}
    (coherent : session.Coherent known) : session.items.map Item.id = session.ids := by
  unfold Session.items Session.ids Table.values Table.keys
  rw [List.map_map]
  refine List.map_congr_left fun entry member => ?_
  exact coherent.currentId (Table.find?_eq_some_iff.2 member)

/-- A verdict sends a relationship all items of a bin in their order, or none. -/
theorem Verdict.ids_sends (verdict : Verdict) (relationship : String) (items : List Item) :
    verdict.sends relationship items = [] ∨
      (verdict.sends relationship items).map Item.id = items.map Item.id := by
  cases verdict with
  | processed attributes =>
      simp only [sends]
      split
      · exact .inr (by rw [List.map_map]; rfl)
      · exact .inl rfl
  | failed =>
      simp only [sends]
      split
      · exact .inr rfl
      · exact .inl rfl
  | rolledBack => exact .inl rfl

namespace Depot

variable {bin : BinId} {sent : String → List Item} {before after : Depot}

theorem Shipped.delivered (shipped : before.Shipped bin sent after) (relationship : String) :
    after.delivered relationship = before.delivered relationship ∨
      after.delivered relationship = before.delivered relationship ++ sent relationship := by
  unfold Depot.delivered
  rw [shipped.sinks, Table.find?_mapValues]
  cases before.flow.sinks.find? relationship with
  | none => exact .inl rfl
  | some received => exact .inr rfl

theorem Ships.delivered {verdict : Verdict} (ships : before.Ships bin verdict after)
    (relationship : String) :
    after.delivered relationship = before.delivered relationship ∨
      after.delivered relationship = before.delivered relationship ++
        verdict.sends relationship (before.binSession bin).items := by
  rcases ships with quiet | shipped
  · left
    simpa using quiet.delivered relationship
  · exact shipped.delivered relationship

theorem Lined.contents {depot : Depot} {front : List String}
    (lined : depot.Lined fun _ => front) (stored : depot.Stored bin) :
    ((depot.bin bin).contents.map Item.id).Sublist front :=
  (lined bin stored).elim fun _ placed => placed.2

theorem delivered_of_extends (grown : after.flow.Extends before.flow.sinks)
    (relationship : String) :
    ∃ more, after.delivered relationship = before.delivered relationship ++ more := by
  unfold Depot.delivered
  cases found : before.flow.sinks.find? relationship with
  | none => exact ⟨_, (List.nil_append _).symm⟩
  | some received =>
      obtain ⟨more, isMore⟩ := grown relationship received found
      exact ⟨more, by rw [isMore]; rfl⟩

end Depot

namespace Engine

open Depot

section Order

variable {engine : Engine} {known : List String} {given : List Item} {depot : Depot}
  {bin : BinId}

/-- The ids of the items that are pulled next. -/
def nextIds (engine : Engine) (depot : Depot) : List String :=
  (engine.nextChunk depot).map Item.id

theorem nodup_nextIds (engine : Engine) (depot : Depot) : (engine.nextIds depot).Nodup := by
  unfold nextIds
  rcases nextChunk_cases engine depot with none | ⟨_, _, _, drawn⟩
  · rw [none]
    exact List.nodup_nil
  · exact drawn.distinct

theorem nextIds_sublist (engine : Engine) (depot : Depot) :
    (engine.nextIds depot).Sublist (depot.flow.source.map Item.id) := by
  unfold nextIds
  rcases nextChunk_cases engine depot with none | ⟨_, _, _, drawn⟩
  · rw [none]
    exact List.nil_sublist _
  · rw [drawn.source, List.map_append]
    exact List.sublist_append_left _ _

/-- What stands elsewhere than on the source is not pulled next. -/
theorem not_mem_nextIds_of_idsAt (maintained : depot.Maintained known given) {spot : Flow.Spot}
    (apart : .source ≠ spot) {id : String} (stands : id ∈ depot.flow.idsAt spot) :
    id ∉ engine.nextIds depot := by
  have absent := maintained.tended.sound.flow.not_mem_idsAt maintained.distinct apart stands
  exact fun next => absent ((nextIds_sublist engine depot).subset next)

/-- What a bin holds is not pulled again. -/
theorem not_mem_nextIds (maintained : depot.Maintained known given)
    (stored : depot.Stored bin) :
    ∀ id ∈ (depot.bin bin).contents.map Item.id, id ∉ engine.nextIds depot := by
  intro id among
  rw [← (maintained.tended.stocked.filled bin stored).held] at among
  have inSession : id ∈ depot.flow.idsAt (.session (depot.bin bin).session) := among
  exact not_mem_nextIds_of_idsAt maintained (show Flow.Spot.source ≠ .session _ from nofun)
    inSession

/-- In the course of a run the bins stay in the line of what was pulled, where only the last
of equal ids count. -/
theorem lined_keeping (prepare : engine.hooks.Prepare) :
    Keeping engine known engine.nextIds fun pulls depot => depot.Lined fun _ => pulls.dedup := by
  refine .of_intact prepare (fun given pulls depot maintained lined => ?_) ?_
  · -- nothing that is pulled is in a bin, so the bins are in line with the rest of the log
    have front : depot.Lined fun _ =>
        pulls.dedup.filter fun id => decide (id ∉ engine.nextIds depot) := by
      intro bin stored
      obtain ⟨key, isKey, within⟩ := lined bin stored
      refine ⟨key, isKey, ?_⟩
      have stays := within.filter fun id => decide (id ∉ engine.nextIds depot)
      rwa [List.filter_eq_self.2 fun id among =>
        decide_eq_true (not_mem_nextIds maintained stored id among)] at stays
    refine (takeChunk_lines (Flow.carried_accounted maintained.distinct) prepare
      maintained.tended.sound front).mono fun _ => ?_
    exact sublist_dedup_append List.filter_sublist
      (fun id among => of_decide_eq_true (List.mem_filter.1 among).2)
      (nodup_nextIds engine depot)
  · intro given pulls before after maintained intact lined
    exact lined.intact maintained.tended.sound intact

/-- In the course of a run the sinks lose nothing. -/
theorem extends_keeping {α : Type} {note : Depot → List α} (prepare : engine.hooks.Prepare)
    (past : Table String (List Item)) :
    Keeping engine known note fun _ depot => depot.flow.Extends past := by
  have carried := Flow.carried_extends past
  have sounds {given : List Item} {depot : Depot} (maintained : depot.Maintained known given)
      (grown : depot.flow.Extends past) : depot.Sound (Flow.Extends past) [] :=
    maintained.tended.sound.of_flow grown
  constructor
  · intro given _ depot maintained grown
    have rules := intakeRules carried (putKeeps_nothing _) prepare.behave.preprocess
      prepare.behave.groupKey prepare.behave.versions
    exact (rules.takeChunk.final (sounds maintained grown)).flow
  · intro given _ depot maintained grown
    have migrates : migrateBins.Keeps (Sound (Flow.Extends past) []) := migrateBins_sound
    exact (migrates.final (sounds maintained grown)).flow
  · intro given _ depot bin rest activation maintained grown isQueue
    exact (handle_intact prepare carried (sounds maintained grown) isQueue activation).1.flow
  · intro given _ depot counters _ grown
    exact grown
  · intro given _ depot event maintained grown outside
    cases event with
    | activate answers => exact absurd rfl (outside answers)
    | reset => exact ((reset_sound carried).final (sounds maintained grown)).flow
    | put | advance | applyPolicy | set => exact grown

/-- A bin in hand whose session holds its contents is completed by adding them to a sink, or
without adding anything. -/
theorem completed_adds (prepare : engine.hooks.Prepare)
    (coherent : (depot.binSession bin).Coherent known)
    (held : (depot.binSession bin).ids = (depot.bin bin).contents.map Item.id)
    (relationship : String) :
    ∃ block, ((handedOver bin depot).completed engine.hooks).delivered relationship =
        depot.delivered relationship ++ block ∧
      (block = [] ∨ block.map Item.id = (depot.bin bin).contents.map Item.id) := by
  have ships := handle_ships (prepare.process bin) (by rw [held]; exact List.Subset.refl _) {}
  rw [final_handle] at ships
  rcases ships.delivered relationship with same | added
  · exact ⟨[], by rw [same, List.append_nil], .inl rfl⟩
  · refine ⟨_, added, ?_⟩
    rw [← held, ← coherent.ids_items]
    exact Verdict.ids_sends _ relationship _

/-- The ids that are pulled in a run, and then in one more intake. -/
def pulls (engine : Engine) (start : Depot) (events : List Event) (answers : List Bool) :
    List String :=
  engine.runNotes engine.nextIds start events ++
    engine.takeInNotes engine.nextIds answers (run engine start events)

section Run

variable (prepare : engine.hooks.Prepare) (relationships : List String) (clock : Moment)
  (policy : Policy)
include prepare

theorem run_lined {source : List Item} (events : List Event)
    (distinct : ((source ++ events.flatMap Event.items).map Item.id).Nodup)
    (whole : ∀ item ∈ source ++ events.flatMap Event.items, item.HasWholeSize) :
    let start := opening { source, sinks := Flow.sinksFor relationships } clock policy
    (run engine start events).Maintained (Flow.sinksFor relationships).keys
        (source ++ events.flatMap Event.items) ∧
      (run engine start events).Lined fun _ =>
        (engine.runNotes engine.nextIds start events).dedup := by
  intro start
  rw [List.forall_mem_append] at whole
  have distinctSource : (source.map Item.id).Nodup := by
    rw [List.map_append] at distinct
    exact distinct.of_append_left
  have linedStart : start.Lined fun _ => ([] : List String).dedup := by
    rintro bin (⟨⟨⟩⟩ | ⟨⟨⟩⟩)
  exact run_keeping prepare (lined_keeping prepare) events
    (maintained_opening relationships clock policy distinctSource whole.1) distinct whole.2
    linedStart

/-- What a sink holds when a bin is completed it still holds after the rest of the activation
and all later events. -/
theorem run_extends {given : List Item} {before : Depot} (answers : List Bool)
    (later : List Event) (maintained : before.Maintained known given)
    (distinct : ((given ++ later.flatMap Event.items).map Item.id).Nodup)
    (whole : ∀ item ∈ later.flatMap Event.items, item.HasWholeSize) {completed : Depot}
    (leads : LeadsTo engine known completed ((engine.activate answers).final before)) :
    (run engine ((engine.activate answers).final before) later).flow.Extends
      completed.flow.sinks := by
  have keeping : Keeping engine known (fun _ => ([] : List Unit)) fun _ depot =>
    depot.flow.Extends completed.flow.sinks := extends_keeping prepare _
  have activated : ((engine.activate answers).final before).flow.Extends completed.flow.sinks :=
    leads _ keeping (Flow.extends_refl _)
  have maintainedThen := (activate_maintains prepare answers).final maintained
  exact (@run_keeping Unit engine known _ _ _ [] _ prepare keeping later maintainedThen distinct
    whole activated).2

end Run

/-- At every moment of a run, between the chunks of an activation and whenever a bin is handed
to the processor, the contents of the bins that are open, queued or in hand stand in the
order in which their ids were last pulled.  The completion of the bin in hand adds its items
to a sink in this order as one block, or adds nothing to it, and at the end of every longer
run the sink still holds what it held then. -/
theorem order_after_run (engine : Engine) (prepare : engine.hooks.Prepare) (source : List Item)
    (relationships : List String) (clock : Moment) (policy : Policy) (events : List Event)
    (answers : List Bool) (later : List Event)
    (distinct : ((source ++ (events ++ later).flatMap Event.items).map Item.id).Nodup)
    (whole : ∀ item ∈ source ++ (events ++ later).flatMap Event.items, item.HasWholeSize) :
    let start := opening { source, sinks := Flow.sinksFor relationships } clock policy
    let before := run engine start events
    let between := (takeIn engine answers).final before
    let ended := run engine start (events ++ .activate answers :: later)
    let line := (engine.pulls start events answers).dedup
    (∀ bin, between.Stored bin → ((between.bin bin).contents.map Item.id).Sublist line) ∧
    ∀ handing ∈ engine.handings answers before,
      (∀ bin, handing.bin = bin ∨ handing.depot.Stored bin →
        ((handing.depot.bin bin).contents.map Item.id).Sublist line) ∧
      ∀ relationship, ∃ block more,
        (handing.completed engine.hooks).delivered relationship =
          handing.depot.delivered relationship ++ block ∧
        (block = [] ∨
          block.map Item.id = (handing.depot.bin handing.bin).contents.map Item.id) ∧
        ended.delivered relationship =
          (handing.completed engine.hooks).delivered relationship ++ more := by
  intro start before between ended line
  rw [List.flatMap_append, ← List.append_assoc] at distinct whole
  have distinctEvents : ((source ++ events.flatMap Event.items).map Item.id).Nodup := by
    rw [List.map_append] at distinct
    exact distinct.of_append_left
  rw [List.forall_mem_append] at whole
  obtain ⟨maintained, lined⟩ :=
    run_lined prepare relationships clock policy events distinctEvents whole.1
  have taken : between.Lined fun _ => line :=
    (takeIn_keeping prepare (lined_keeping prepare) answers maintained lined).2
  refine ⟨fun bin stored => taken.contents stored, fun handing isHanding => ?_⟩
  obtain ⟨depot, rest, isMaintained, linedThen, isQueue, isHanding, leads⟩ :=
    activate_handed prepare (lined_keeping prepare) answers maintained lined handing isHanding
  replace linedThen : depot.Lined fun _ => line := linedThen
  rw [isHanding] at leads ⊢
  obtain ⟨bin, _⟩ := handing
  have stored : depot.Stored bin := .inr (isQueue ▸ List.mem_cons_self)
  refine ⟨fun other => ?_, fun relationship => ?_⟩
  · -- the bin in hand was queued until it was handed over
    rintro (rfl | onShelf | queued)
    · exact linedThen.contents stored
    · exact linedThen.contents (.inl onShelf)
    · exact linedThen.contents (.inr (isQueue ▸ List.mem_cons_of_mem _ queued))
  · have coherent := isMaintained.tended.sound.flow.coherent.sessions (depot.bin bin).session
    have held := (isMaintained.tended.stocked.filled bin stored).held
    obtain ⟨block, adds, isBlock⟩ := @completed_adds engine _ { depot with ready := rest } bin
      prepare coherent held relationship
    have grown := run_extends prepare answers later maintained distinct whole.2 leads
    obtain ⟨more, grows⟩ := delivered_of_extends grown relationship
    have isEnd : ended = run engine ((engine.activate answers).final before) later :=
      List.foldl_append
    exact ⟨block, more, adds, isBlock, isEnd ▸ grows⟩

/-- A bin of two chunks is rolled back, and one that is filled in two activations with what
came back is delivered to success in the order in which it was pulled the second time. -/
theorem order_after_rollback :
    let engine : Engine := { chunkSize := .int 2, hooks := {
      groupKey := fun _ => .done (.text "g")
      process := fun bin => if bin = 0 then .fail .hookFailure else .done (some {}) } }
    let source : List Item := [{ id := "a" }, { id := "b" }, { id := "c" }]
    let policy : Policy := { minEntries := 3 }
    let events : List Event := [.activate [true, true, true, true], .activate [true]]
    let start := opening { source, sinks := Flow.sinksFor [] } {} policy
    let before := run engine start events
    let ended := run engine start (events ++ [.activate [true, true, true], .reset])
    engine.hooks.Prepare ∧
      engine.pulls start events [true, true, true] = ["a", "b", "c", "a", "b", "c"] ∧
      (engine.handings [true, true, true] before).length = 1 ∧
      ∀ handing ∈ engine.handings [true, true, true] before,
        ((handing.depot.bin handing.bin).contents.map Item.id).Sublist ["a", "b", "c"] ∧
        ∃ block more, ended.delivered successRelationship =
            handing.depot.delivered successRelationship ++ block ++ more ∧
          (block = [] ∨
            block.map Item.id = (handing.depot.bin handing.bin).contents.map Item.id) := by
  intro engine source policy events start before ended
  have prepare : engine.hooks.Prepare := by
    refine .of_same (fun _ _ => rfl) (fun _ => trivial) fun bin => ?_
    simp only [engine]
    split <;> trivial
  have whole : ∀ item ∈ source ++ (events ++ [Event.reset]).flatMap Event.items,
      item.HasWholeSize := by
    simp only [source, events, Event.items, List.cons_append, List.flatMap_cons,
      List.flatMap_nil, List.nil_append, List.append_nil, List.forall_mem_cons]
    exact ⟨⟨0, rfl⟩, ⟨0, rfl⟩, ⟨0, rfl⟩, List.forall_mem_nil _⟩
  have isLog : engine.pulls start events [true, true, true] = ["a", "b", "c", "a", "b", "c"] := by
    decide +kernel
  have ordered := order_after_run engine prepare source [] {} policy events
    [true, true, true] [.reset] (by decide +kernel) whole
  refine ⟨prepare, isLog, by decide +kernel, fun handing isHanding => ?_⟩
  obtain ⟨inOrder, delivers⟩ := ordered.2 handing isHanding
  obtain ⟨block, more, adds, isBlock, grows⟩ := delivers successRelationship
  refine ⟨?_, block, more, by rw [← adds]; exact grows, isBlock⟩
  have within := inOrder handing.bin (.inl rfl)
  rw [isLog] at within
  exact within

end Order

end Engine

end ItemBinning
