import ItemBinning.Proofs.Engine.Recovery
import ItemBinning.Proofs.Flow.Delivery

/-!
# Isolation of items that fail

Under consistent thresholds, hooks that mind only the item they are applied to cannot
spoil the intake of other items.  The items that fail are delivered to failure in the
order in which they were pulled, every other item ends in a bin of its group, and the
intake itself does not fail.
-/

namespace ItemBinning

namespace Depot

variable {known : List String} {property : Flow → Prop} {session : SessionId}
  {start depot : Depot} {failed : List Item}

/-- Since a start items were adorned at most, and those that failed were routed. -/
structure Gathered (property : Flow → Prop) (session : SessionId) (start : Depot)
    (failed : List Item) (depot : Depot) : Prop
    extends Prepared property session start depot where
  routed : ∀ item ∈ failed, depot.flow.Routed session item.id failureRelationship

theorem script_gathered {α : Type} {script : Script α}
    (cohering : Flow.Cohering known property) {id : String} (uses : script.Uses (Call.Heeds id))
    (fresh : id ∉ failed.map Item.id) :
    script.run.Keeps (Gathered property session start failed) := by
  apply Act.Keeps.of_final
  intro depot gathered
  refine ⟨(script_prepared cohering.carried (uses.mono fun _ heeds => heeds.gentle)).final
    gathered.toPrepared, fun item member => ?_⟩
  have apart : id ≠ item.id := by
    rintro rfl
    exact fresh (List.mem_map_of_mem member)
  exact (uses.keeps fun _ heeds => heeds.perform_routed apart).final
    (gathered.routed item member)

/-- An item that is held can be routed, if the failure relationship is known. -/
theorem route_gathered (cohering : Flow.Cohering known property)
    (isOpened : session < start.flow.sessions.next) {item : Item}
    (held : item.id ∈ (start.flow.session session).ids) :
    (onFlow (Flow.route session [item] failureRelationship)).Meets
      (Gathered property session start failed)
      (fun _ => Gathered property session start (failed ++ [item]))
      fun _ _ => failureRelationship ∉ known := by
  intro depot gathered
  have prepared := (route_prepared cohering.carried [item] failureRelationship).final
    gathered.toPrepared
  have sinks : depot.flow.sinks.keys = known :=
    (cohering.coherent _ gathered.sound.flow).sinks
  by_cases isKnown : failureRelationship ∈ known
  · have isHeld : ∀ other ∈ [item], other.id ∈ (depot.flow.session session).ids := by
      intro other member
      rw [List.mem_singleton.1 member, gathered.adorned.flow.ids]
      exact held
    have run := Flow.route_eq (sinks ▸ isKnown)
      (Nat.lt_of_lt_of_le isOpened gathered.adorned.flow.sessions) isHeld
    unfold Act.final at prepared
    rw [onFlow_eq run] at prepared ⊢
    refine ⟨prepared, fun other member => ?_⟩
    unfold Flow.Routed
    rw [Flow.session_setSession_self, Session.find?_routed]
    split
    · rfl
    · rename_i apart
      rcases List.mem_append.1 member with earlier | now
      · exact gathered.routed other earlier
      · rw [List.mem_singleton.1 now] at apart
        exact absurd (by simp) apart
  · rw [onFlow_eq (Flow.route_of_unknown (sinks ▸ isKnown) [item])]
    exact isKnown

end Depot

namespace Engine

open Depot

variable {known : List String} {property : Flow → Prop} {session : SessionId} {engine : Engine}

/-- The version has the id of the item and a whole size. -/
def IsVersion (item version : Item) : Prop :=
  version.id = item.id ∧ version.HasWholeSize

theorem sortItems_gathers (cohering : Flow.Cohering known property)
    (keepSizes : engine.hooks.KeepSizes) (heed : engine.hooks.Heed) {start : Depot}
    (atWork : start.AtWork property session) {items : List Item}
    (held : (start.flow.session session).ids = items.map Item.id)
    (whole : ∀ item ∈ items, item.HasWholeSize) :
    (sortItems engine.hooks session items).Meets (· = start)
      (fun findings sorted =>
        Gathered property session start (failures findings) sorted ∧
          findings.map Finding.item = items ∧
          ∀ finding ∈ findings, finding.Right (IsVersion finding.item))
      fun _ _ => failureRelationship ∉ known := by
  have classified (failed : List Item) (item : Item) (member : item ∈ items)
      (fresh : item.id ∉ failed.map Item.id) :
      (classify engine.hooks session item).Meets (Gathered property session start failed)
        (fun placed depot => Gathered property session start failed depot ∧
          placed.2.1.key? = some placed.2.2 ∧ IsVersion item placed.1)
        fun _ => Gathered property session start failed := by
    have preprocessed : (engine.hooks.preprocess item session).run.Keeps
        (Gathered property session start failed) :=
      script_gathered cohering (heed.preprocess item session) fresh
    refine classify_meets (Act.Meets.of_runs ?_ ?_) fun version isVersion => ?_
    · intro depot version reached gathered run
      refine ⟨preprocessed.of_ok gathered run, ?_⟩
      rintro given rfl
      exact ⟨heed.versions item session depot given reached run,
        keepSizes item session depot given reached gathered.sound.whole
          (whole item member) run⟩
    · intro depot fault reached gathered run
      exact preprocessed.of_error gathered run
    · exact script_gathered cohering (heed.groupKey version) (isVersion.1 ▸ fresh)
  have apart : (items.map Item.id).Nodup := held ▸ Session.nodup_ids _
  have sorts := sortItems_meets (Gathered property session start) IsVersion
    (fun _ _ => failureRelationship ∉ known) [] items apart classified
    (fun failed item member => route_gathered cohering atWork.loose.isOpened
      (held ▸ List.mem_map_of_mem member))
    fun failed change => Act.Meets.modify fun depot gathered =>
      ⟨(count_prepared change).final gathered.toPrepared, gathered.routed⟩
  refine sorts.weaken ?_ (fun _ _ => id) fun _ _ => id
  rintro _ rfl
  exact ⟨⟨.refl _, atWork.sound⟩, nofun⟩

section Findings

variable {findings : List Finding}

theorem Finding.Right.id_eq {finding : Finding} (right : finding.Right (IsVersion finding.item))
    {load : Load} (isLoad : finding.load? = some load) : load.2.id = finding.item.id :=
  (right.of_load? isLoad).1

/-- The items that failed are those of which no version was given a group. -/
theorem failures_eq (rights : ∀ finding ∈ findings, finding.Right (IsVersion finding.item))
    (apart : ((findings.map Finding.item).map Item.id).Nodup) :
    failures findings = (findings.map Finding.item).filter fun item =>
      decide (item.id ∉ (loads findings).map fun load => load.2.id) := by
  unfold failures
  rw [List.filter_map]
  congr 1
  apply List.filter_congr
  intro finding member
  rw [Function.comp, decide_eq_decide]
  constructor
  · intro failed given
    obtain ⟨load, isLoad, same⟩ := List.mem_map.1 given
    obtain ⟨other, among, isGiven⟩ := mem_loads_iff.1 isLoad
    have sameItem : other.item.id = finding.item.id :=
      ((rights other among).id_eq isGiven).symm.trans same
    rw [List.map_map] at apart
    rw [List.inj_on_of_nodup_map apart among member sameItem, failed] at isGiven
    cases isGiven
  · intro none
    by_contra given
    obtain ⟨load, isLoad⟩ := Option.ne_none_iff_exists'.1 given
    exact none (List.mem_map.2 ⟨load, mem_loads_iff.2 ⟨finding, member, isLoad⟩,
      (rights finding member).id_eq isLoad⟩)

theorem ids_loads_sublist
    (rights : ∀ finding ∈ findings, finding.Right (IsVersion finding.item)) :
    ((loads findings).map fun load => load.2.id).Sublist
      ((findings.map Finding.item).map Item.id) := by
  induction findings with
  | nil => exact .slnil
  | cons finding rest ih =>
      rw [List.forall_mem_cons] at rights
      unfold loads
      cases isLoad : finding.load? with
      | none =>
          rw [List.filterMap_cons_none isLoad]
          exact (ih rights.2).cons _
      | some load =>
          rw [List.filterMap_cons_some isLoad, List.map_cons, rights.1.id_eq isLoad]
          exact (ih rights.2).cons_cons _

theorem length_loads (findings : List Finding) : (loads findings).length =
    (findings.filter fun finding => decide ¬ finding.Failed).length := by
  induction findings with
  | nil => rfl
  | cons finding rest ih =>
      unfold loads at ih ⊢
      cases isLoad : finding.load? with
      | none =>
          have failed : finding.Failed := isLoad
          rw [List.filterMap_cons_none isLoad, List.filter_cons_of_neg (by simp [failed]), ih]
      | some load =>
          have given : ¬ finding.Failed := by
            unfold Finding.Failed
            rw [isLoad]
            exact nofun
          rw [List.filterMap_cons_some isLoad, List.filter_cons_of_pos (by simp [given]),
            List.length_cons, List.length_cons, ih]

end Findings

end Engine

/-- The current versions of the held items resemble those that were pulled, in order. -/
theorem Session.Coherent.resembling {known : List String} {session : Session}
    (coherent : session.Coherent known) :
    List.Forall₂ Item.Resembles session.items session.pulled.values := by
  have keys : session.pulled.entries.map Prod.fst = session.current.entries.map Prod.fst :=
    coherent.keys
  have same : session.pulled.entries.length = session.current.entries.length := by
    simpa using congrArg List.length keys
  unfold Session.items Table.values
  rw [List.forall₂_iff_get]
  refine ⟨by simp [same], fun index inCurrent inPulled => ?_⟩
  simp only [List.get_eq_getElem, List.getElem_map]
  rw [List.length_map] at inCurrent inPulled
  have sameKey : session.pulled.entries[index].1 = session.current.entries[index].1 := by
    have := congrArg (·[index]?) keys
    simpa [inCurrent, inPulled] using this
  refine coherent.versions session.current.entries[index].1 _ _
    (Table.find?_eq_some_iff.2 (List.getElem_mem inCurrent))
    (Table.find?_eq_some_iff.2 ?_)
  rw [← sameKey]
  exact List.getElem_mem inPulled

namespace Depot

variable {known : List String} {property : Flow → Prop} {session : SessionId}
  {start sorted depot : Depot} {findings : List Finding} {items : List Item}

open Engine

/-- When all versions that were given a group are stowed, the session is left with the
items that failed, all of them routed to failure. -/
theorem Moved.remaining (cohering : Flow.Cohering known property)
    (gathered : Gathered property session start (failures findings) sorted)
    (pulled : (start.flow.session session).pulled.entries =
      (findings.map Finding.item).map fun item => (item.id, item))
    (held : (start.flow.session session).ids = (findings.map Finding.item).map Item.id)
    (rights : ∀ finding ∈ findings, finding.Right (IsVersion finding.item))
    (moved : Moved property session sorted (loads findings) depot) :
    (depot.flow.session session).pulled.values = failures findings ∧
      ∀ id ∈ (depot.flow.session session).ids,
        depot.flow.Routed session id failureRelationship := by
  obtain ⟨given, perm, giver⟩ := moved.giver
  have apart : ((findings.map Finding.item).map Item.id).Nodup := held ▸ Session.nodup_ids _
  have left : failures findings =
      (findings.map Finding.item).filter fun item => decide (item.id ∉ given) := by
    rw [failures_eq rights apart]
    simp only [perm.mem_iff]
  have values : (depot.flow.session session).pulled.values = failures findings := by
    unfold Table.values
    rw [giver, Session.pulled_releaseAll, gathered.adorned.flow.pulled, pulled, left,
      List.filter_map, List.map_map]
    exact List.map_id _
  refine ⟨values, fun id member => ?_⟩
  have coherent := cohering.coherent _ moved.atWork.sound.flow
  rw [← (coherent.sessions session).ids_returned, values] at member
  obtain ⟨item, failed, rfl⟩ := List.mem_map.1 member
  unfold Flow.Routed
  rw [giver, Session.destination_releaseAll, if_neg]
  · exact gathered.routed item failed
  · rw [left] at failed
    exact of_decide_eq_true (List.mem_filter.1 failed).2

/-- While loads of different items that were all held are stowed, the next one is held. -/
theorem Moved.holds_next {loads all : List Load}
    (moved : Moved property session sorted loads depot) {next : Load}
    (within : (next :: loads).Subperm all) (apart : (all.map fun load => load.2.id).Nodup)
    (held : ∀ load ∈ all, load.2.id ∈ (sorted.flow.session session).ids) :
    next.2.id ∈ (depot.flow.session session).ids := by
  obtain ⟨given, perm, giver⟩ := moved.giver
  have fresh : next.2.id ∉ given := by
    obtain ⟨chosen, isChosen, sublist⟩ := within
    have distinct : ((next :: loads).map fun load => load.2.id).Nodup :=
      (isChosen.map _).nodup_iff.1 (apart.sublist (sublist.map _))
    rw [List.map_cons, List.nodup_cons] at distinct
    exact fun taken => distinct.1 (perm.subset taken)
  rw [giver, Session.ids_releaseAll]
  exact List.mem_filter.2 ⟨held next (within.subset List.mem_cons_self), decide_eq_true fresh⟩

/-- Of the items with some findings, which were at the front of the source, those that
failed are delivered to failure in their order, and the others are in bins.  Nothing else
went to a sink, and whatever was in bins before is there still. -/
structure Isolated (findings : List Finding) (before after : Depot) : Prop where
  source : before.flow.source = findings.map Finding.item ++ after.flow.source
  sinks : ∃ delivered, List.Forall₂ Item.Resembles delivered (failures findings) ∧
    after.flow.sinks = before.flow.sinks.mapValues fun relationship received =>
      received ++ if relationship = failureRelationship then delivered else []
  rights : ∀ finding ∈ findings, finding.Right (IsVersion finding.item)
  landed : ∀ load ∈ loads findings, ∃ bin, after.Landed load bin
  stays : ∀ load bin, before.Landed load bin → after.Landed load bin

namespace Isolated

variable {first second third before after : Depot} {later : List Finding}

theorem nothing (source : before.flow.source = after.flow.source)
    (sinks : after.flow.sinks = before.flow.sinks)
    (stays : ∀ load bin, before.Landed load bin → after.Landed load bin) :
    Isolated [] before after where
  source := source
  sinks := by
    refine ⟨[], .nil, ?_⟩
    simp only [ite_self, List.append_nil, Table.mapValues_self]
    exact sinks
  rights := nofun
  landed := nofun
  stays := stays

theorem trans (isolatedFirst : Isolated findings first second)
    (isolatedSecond : Isolated later second third) :
    Isolated (findings ++ later) first third where
  source := by
    rw [isolatedFirst.source, isolatedSecond.source, List.map_append, List.append_assoc]
  sinks := by
    obtain ⟨delivered, resemble, sinksFirst⟩ := isolatedFirst.sinks
    obtain ⟨more, resembleMore, sinksSecond⟩ := isolatedSecond.sinks
    refine ⟨delivered ++ more, ?_, ?_⟩
    · unfold failures
      rw [List.filter_append, List.map_append]
      exact List.rel_append resemble resembleMore
    · rw [sinksSecond, sinksFirst, Table.mapValues_mapValues]
      congr 1
      funext relationship received
      split
      · rw [List.append_assoc]
      · rw [List.append_nil]
  rights finding member :=
    (List.mem_append.1 member).elim (isolatedFirst.rights finding)
      (isolatedSecond.rights finding)
  landed load member := by
    unfold loads at member
    rw [List.filterMap_append] at member
    rcases List.mem_append.1 member with early | late
    · obtain ⟨bin, landed⟩ := isolatedFirst.landed load early
      exact ⟨bin, isolatedSecond.stays load bin landed⟩
    · exact isolatedSecond.landed load late
  stays load bin landed := isolatedSecond.stays load bin (isolatedFirst.stays load bin landed)

end Isolated

/-- A chunk whose versions are all stowed is isolated when the rest of it is delivered. -/
theorem Moved.isolated (cohering : Flow.Cohering known property) {before : Depot}
    (sound : before.Sound property [])
    (drawn : before.Drawn session (findings.map Finding.item) start)
    (gathered : Gathered property session start (failures findings) sorted)
    (rights : ∀ finding ∈ findings, finding.Right (IsVersion finding.item))
    (moved : Moved property session sorted (loads findings) depot) :
    Isolated findings before { depot with flow := depot.flow.delivered session } := by
  obtain ⟨pulled, routed⟩ :=
    Moved.remaining cohering gathered drawn.pulled drawn.ids rights moved
  obtain ⟨cargo, hauled, perm⟩ := moved.hauled
  have loose := moved.atWork.loose
  have others (other : SessionId) (differs : other ≠ session) :
      (depot.flow.delivered session).session other = depot.flow.session other :=
    depot.flow.session_delivered_of_ne differs
  constructor
  case source =>
    rw [drawn.source, ← gathered.adorned.flow.source, ← hauled.source]
    rfl
  case sinks =>
    refine ⟨(depot.flow.session session).items, ?_, ?_⟩
    · rw [← pulled]
      have coherent := cohering.coherent _ moved.atWork.sound.flow
      exact (coherent.sessions session).resembling
    · dsimp only
      rw [Flow.sinks_delivered_of_all routed, hauled.sinks, gathered.adorned.flow.sinks,
        drawn.sinks]
  case rights => exact rights
  case landed =>
    intro load member
    obtain ⟨bin, landed⟩ := moved.landed load member
    exact ⟨bin, landed.apart loose others⟩
  case stays =>
    intro load bin landed
    have landed := hauled.landed_before ((landed.drawn drawn sound).adorned gathered.adorned)
    exact landed.apart loose others

end Depot

namespace Engine

open Depot

variable {known ids : List String} {property : Flow → Prop} {session : SessionId}
  {engine : Engine}

section Binning

variable (cohering : Flow.Cohering known property) (keepSizes : engine.hooks.KeepSizes)
  (heed : engine.hooks.Heed)
include cohering keepSizes heed

theorem binItems_atWork {start : Depot} {items : List Item}
    (atWork : start.AtWork property session)
    (held : (start.flow.session session).ids = items.map Item.id)
    (whole : ∀ item ∈ items, item.HasWholeSize) :
    Binning property engine.hooks session items start
      (binItems engine.hooks session items start) := by
  have sorts := sortItems_gathers cohering keepSizes heed atWork held whole
  refine binItems_binning cohering.carried fun findings sorted run => ?_
  obtain ⟨gathered, _, rights⟩ := sorts.of_ok rfl run
  exact ⟨gathered.atWork atWork, fun finding member =>
    (rights finding member).mono fun _ => And.right⟩

/-- Of a chunk that was binned all versions that were given a group are stowed, and the rest
is delivered. -/
theorem binItems_stows {start reached : Depot} {items : List Item} {binned : Nat}
    (atWork : start.AtWork property session)
    (held : (start.flow.session session).ids = items.map Item.id)
    (whole : ∀ item ∈ items, item.HasWholeSize)
    (bins : binItems engine.hooks session items start = (.ok binned, reached)) :
    ∃ findings sorted stowed, sortItems engine.hooks session items start =
        (.ok findings, sorted) ∧
      binned = (loads findings).length ∧
      reached = { stowed with flow := stowed.flow.delivered session } ∧
      findings.map Finding.item = items ∧
      Gathered property session start (failures findings) sorted ∧
      (∀ finding ∈ findings, finding.Right (IsVersion finding.item)) ∧
      Moved property session sorted (loads findings) stowed := by
  have binning := binItems_atWork cohering keepSizes heed atWork held whole
  rw [bins] at binning
  cases binning with
  | binned stowed findings sorted run moved complete =>
      have sorts := sortItems_gathers cohering keepSizes heed atWork held whole
      obtain ⟨gathered, isItems, rights⟩ := sorts.of_ok rfl run
      exact ⟨findings, sorted, stowed, run, rfl, rfl, isItems, gathered, rights, moved⟩

/-- Binning a chunk does not fail: all versions that were given a group are stowed, and the
rest of the chunk is delivered. -/
theorem binItems_moves (isKnown : failureRelationship ∈ known) {before start : Depot}
    {items : List Item} (drawn : before.Drawn session items start)
    (atWork : start.AtWork property session) (whole : ∀ item ∈ items, item.HasWholeSize)
    (consistent : before.shelf.thresholds.inconsistencies = .ok []) :
    ∃ findings sorted stowed, sortItems engine.hooks session items start =
        (.ok findings, sorted) ∧
      binItems engine.hooks session items start = (.ok (loads findings).length,
        { stowed with flow := stowed.flow.delivered session }) ∧
      findings.map Finding.item = items ∧
      Gathered property session start (failures findings) sorted ∧
      (∀ finding ∈ findings, finding.Right (IsVersion finding.item)) ∧
      Moved property session sorted (loads findings) stowed := by
  have sorts := sortItems_gathers cohering keepSizes heed atWork drawn.ids whole
  have binning := binItems_atWork cohering keepSizes heed atWork drawn.ids whole
  generalize binItems engine.hooks session items start = result at binning
  cases binning with
  | unsorted fault reached run => exact absurd isKnown (sorts.of_error rfl run)
  | stopped fault reached findings middle run stopped =>
      exfalso
      obtain ⟨gathered, rfl, rights⟩ := sorts.of_ok rfl run
      have shelf : middle.shelf = before.shelf := gathered.adorned.shelf.trans drawn.shelf
      obtain ⟨stowed, moved, _, inconsistent | ⟨next, within, absent⟩⟩ := stopped
      · exact inconsistent (shelf ▸ consistent)
      · refine absent (moved.holds_next within ?_ fun load member => ?_)
        · exact drawn.distinct.sublist (ids_loads_sublist rights)
        · rw [gathered.adorned.flow.ids, drawn.ids]
          exact (ids_loads_sublist rights).subset (List.mem_map_of_mem member)
  | unrouted fault reached findings middle run moved unrouted =>
      obtain ⟨gathered, rfl, rights⟩ := sorts.of_ok rfl run
      have remaining := Moved.remaining cohering gathered drawn.pulled drawn.ids rights moved
      exact absurd (Session.unrouted_of_all remaining.2) unrouted
  | binned stowed findings middle run moved complete =>
      obtain ⟨gathered, isItems, rights⟩ := sorts.of_ok rfl run
      exact ⟨findings, middle, stowed, run, rfl, isItems, gathered, rights, moved⟩

end Binning

/-- Binning a chunk does not fail, and isolates the items that do. -/
theorem binItems_isolates (cohering : Flow.Cohering known property)
    (behave : engine.hooks.Behave fun _ => False) (mind : engine.hooks.Mind)
    (isKnown : failureRelationship ∈ known) {before start : Depot} {items : List Item}
    (drawn : before.Drawn session items start) (sound : before.Sound property [])
    (atWork : start.AtWork property session) (whole : ∀ item ∈ items, item.HasWholeSize)
    (consistent : before.shelf.thresholds.inconsistencies = .ok []) :
    ∃ findings sorted reached, sortItems engine.hooks session items start =
        (.ok findings, sorted) ∧
      binItems engine.hooks session items start = (.ok (loads findings).length, reached) ∧
      Isolated findings before reached ∧
      reached.shelf.thresholds = before.shelf.thresholds := by
  obtain ⟨findings, sorted, stowed, sorts, bins, rfl, gathered, rights, moved⟩ :=
    binItems_moves cohering behave.versions mind.heed isKnown drawn atWork whole consistent
  refine ⟨findings, sorted, _, sorts, bins,
    Moved.isolated cohering sound drawn gathered rights moved, ?_⟩
  change stowed.shelf.thresholds = _
  rw [moved.thresholds, gathered.adorned.shelf, drawn.shelf]

/-- What is known of a depot between the chunks of an intake. -/
structure Between (known ids : List String) (depot : Depot) : Prop where
  sound : depot.Sound (Flow.Accounted known ids) []
  consistent : depot.shelf.thresholds.inconsistencies = .ok []

/-- A chunk that is taken in isolates the items that fail. -/
theorem takeChunk_isolates (distinct : ids.Nodup)
    (behave : engine.hooks.Behave fun _ => False) (mind : engine.hooks.Mind)
    (isKnown : failureRelationship ∈ known) {size : Int}
    (isSize : engine.chunkSize = .int size) {before : Depot}
    (between : Between known ids before) :
    (∃ reached, takeChunk engine before = (.ok none, reached) ∧ Between known ids reached ∧
        Isolated [] before reached) ∨
      ∃ reached, takeChunk engine before =
          (.ok (some (loads (engine.nextFindings before)).length), reached) ∧
        Between known ids reached ∧ Isolated (engine.nextFindings before) before reached := by
  obtain ⟨sound, consistent⟩ := between
  have cohering := (@Flow.single_accounted known ids distinct).toCohering
  have kept := (accountedRules distinct behave).takeChunk.final sound
  obtain ⟨_, _, draws⟩ := pullChunk_draws isSize (sound.flow.nodup_source distinct)
  have chunked := takeChunk_chunked engine before
  unfold Act.final at kept
  generalize takeChunk engine before = result at chunked kept
  cases chunked with
  | unpulled fault reached run =>
      rw [draws] at run
      cases run
  | exhausted session reached drawn =>
      refine .inl ⟨reached, rfl, ⟨kept, drawn.shelf ▸ consistent⟩, ?_⟩
      exact .nothing drawn.source drawn.sinks fun load bin landed => landed.drawn drawn sound
  | failed session items pulled stopped fault run drawn bins =>
      obtain ⟨atWork, whole⟩ := pullChunk_atWork cohering.carried sound run drawn
      obtain ⟨_, _, _, _, binned, _⟩ := binItems_isolates cohering behave mind isKnown drawn
        sound atWork whole consistent
      rw [bins] at binned
      cases binned
  | binned session items pulled reached count run drawn bins =>
      obtain ⟨atWork, whole⟩ := pullChunk_atWork cohering.carried sound run drawn
      obtain ⟨findings, sorted, last, sorts, binned, isolated, thresholds⟩ :=
        binItems_isolates cohering behave mind isKnown drawn sound atWork whole consistent
      rw [bins] at binned
      cases binned
      rw [nextFindings_eq run sorts]
      exact .inr ⟨reached, rfl, ⟨kept, thresholds ▸ consistent⟩, isolated⟩

/-- The findings on all items that an intake pulls, in the order in which they are
pulled. -/
def intakeFindings (engine : Engine) : List Bool → Depot → List Finding
  | [], _ => []
  | scheduled :: rest, depot =>
      match depot.shelf.hasRoom, scheduled, takeChunk engine depot with
      | .ok true, true, (.ok (some _), reached) =>
          engine.nextFindings depot ++ intakeFindings engine rest reached
      | _, _, _ => []

theorem intake_isolates_chunks (distinct : ids.Nodup)
    (behave : engine.hooks.Behave fun _ => False) (mind : engine.hooks.Mind)
    (isKnown : failureRelationship ∈ known) {size : Int}
    (isSize : engine.chunkSize = .int size) (answers : List Bool) {before : Depot}
    (between : Between known ids before) :
    ∃ unused reached, intake engine answers before =
        (.ok ((loads (engine.intakeFindings answers before)).length, unused), reached) ∧
      Between known ids reached ∧
      Isolated (engine.intakeFindings answers before) before reached := by
  induction answers generalizing before with
  | nil => exact ⟨[], before, rfl, between, .nothing rfl rfl fun _ _ => id⟩
  | cons scheduled rest ih =>
      have taken := takeChunk_isolates distinct behave mind isKnown isSize between
      have ended {unused : List Bool} {reached : Depot}
          (run : intake engine (scheduled :: rest) before = (.ok (0, unused), reached))
          (none : engine.intakeFindings (scheduled :: rest) before = [])
          (between : Between known ids reached) (isolated : Isolated [] before reached) :
          ∃ unused reached, intake engine (scheduled :: rest) before =
              (.ok ((loads (engine.intakeFindings (scheduled :: rest) before)).length, unused),
                reached) ∧ Between known ids reached ∧
            Isolated (engine.intakeFindings (scheduled :: rest) before) before reached :=
        ⟨unused, reached, none ▸ run, between, none ▸ isolated⟩
      have still : Isolated [] before before := .nothing rfl rfl fun _ _ => id
      rcases intake_answered engine scheduled before with
        ⟨fault, room, run⟩ | ⟨room, run⟩ | ⟨rfl, run⟩ | ⟨fault, reached, _, takes, run⟩ |
          ⟨reached, rfl, takes, run⟩ | ⟨binned, reached, room, rfl, takes, run⟩
      · obtain ⟨answer, isAnswer⟩ :=
          exists_hasRoom between.sound.arranged.thresholds before.shelf.binCount
        rw [isAnswer] at room
        cases room
      · refine ended (run rest) ?_ between still
        simp only [intakeFindings, room]
      · refine ended (run rest) ?_ between still
        unfold intakeFindings
        split
        · contradiction
        · rfl
      · rcases taken with ⟨_, taken, _⟩ | ⟨_, taken, _⟩ <;>
          rw [takes] at taken <;> cases taken
      · rcases taken with ⟨_, taken, between, isolated⟩ | ⟨_, taken, _⟩ <;>
          rw [takes] at taken <;> cases taken
        refine ended (run rest) ?_ between isolated
        unfold intakeFindings
        rw [takes]
        split
        · rename_i same
          cases same
        · rfl
      · rcases taken with ⟨_, taken, _⟩ | ⟨_, taken, between, isolated⟩ <;>
          rw [takes] at taken <;> cases taken
        have both : engine.intakeFindings (true :: rest) before =
            engine.nextFindings before ++ engine.intakeFindings rest reached := by
          simp only [intakeFindings, room, takes]
        obtain ⟨unused, last, later, betweenLast, isolatedLast⟩ := ih between
        refine ⟨unused, last, ?_, betweenLast, both ▸ isolated.trans isolatedLast⟩
        rw [run, Act.bind_of_ok later, both]
        unfold loads
        rw [List.filterMap_append, List.length_append]
        rfl

/-- Under consistent thresholds an intake never fails, whatever hooks that mind their items
do.  The items that failed go to failure in the order in which they were pulled, and each
of the others is in one bin of its group. -/
theorem intake_isolates_failures (engine : Engine)
    (behave : engine.hooks.Behave fun _ => False) (mind : engine.hooks.Mind) (size : Int)
    (isSize : engine.chunkSize = .int size) (source : List Item) (relationships : List String)
    (isKnown : failureRelationship ∈ (Flow.sinksFor relationships).keys) (clock : Moment)
    (policy : Policy) (events : List Event) (answers : List Bool)
    (distinct : ((source ++ events.flatMap Event.items).map Item.id).Nodup)
    (whole : ∀ item ∈ source ++ events.flatMap Event.items, item.HasWholeSize) :
    let start := opening { source, sinks := Flow.sinksFor relationships } clock policy
    let depot := run engine start events
    let findings := engine.intakeFindings answers depot
    depot.shelf.thresholds.inconsistencies = .ok [] →
    ∃ binned unused reached delivered,
      intake engine answers depot = (.ok (binned, unused), reached) ∧
      depot.flow.source = findings.map Finding.item ++ reached.flow.source ∧
      List.Forall₂ Item.Resembles delivered (failures findings) ∧
      reached.flow.sinks = (depot.flow.sinks.mapValues fun relationship received =>
        received ++ if relationship = failureRelationship then delivered else []) ∧
      (∀ finding ∈ findings, ∀ version group key,
        finding.outcome = .ok (version, group, key) →
          group.key? = some key ∧ version.id = finding.item.id ∧
          ∃ bin, reached.Landed (key, version) bin ∧
            ∀ other, reached.Stored other →
              version.id ∈ (reached.binSession other).ids → other = bin) ∧
      binned = (findings.filter fun finding => decide ¬ finding.Failed).length := by
  intro start depot findings consistent
  have sound := accounted_after_run engine behave source relationships clock policy events
    distinct whole
  obtain ⟨unused, reached, run, between, isolated⟩ := intake_isolates_chunks distinct behave
    mind isKnown isSize answers ⟨sound, consistent⟩
  obtain ⟨delivered, resemble, sinks⟩ := isolated.sinks
  refine ⟨_, unused, reached, delivered, run, isolated.source, resemble, sinks, ?_,
    length_loads findings⟩
  intro finding member version group key outcome
  obtain ⟨isKey, isVersion⟩ := isolated.rights finding member version group key outcome
  refine ⟨isKey, isVersion.1, ?_⟩
  obtain ⟨bin, landed⟩ := isolated.landed (key, version) (mem_loads_iff.2 ⟨finding, member, by
    unfold Finding.load?
    rw [outcome]⟩)
  exact ⟨bin, landed, fun other stored held =>
    landed.only between.sound distinct stored held⟩

/-- One item fails after the hook routed it, and another one is given a group that is no
key. -/
def choosy : Engine where
  hooks :=
    { preprocess := fun item session =>
        if item.id = "b" then
          .call (.route session [item] successRelationship) fun _ => .fail .hookFailure
        else .done (some item)
      groupKey := fun item => .done (if item.id = "c" then .list [] else .null)
      process := fun _ => .fail .recoverable }
  chunkSize := .int 2

theorem behave_choosy (mayPut : List Item → Prop) : choosy.hooks.Behave mayPut where
  preprocess item session := by
    dsimp only [choosy]
    split
    · exact ⟨trivial, fun _ => trivial⟩
    · trivial
  groupKey _ := trivial
  process _ := trivial
  versions item session depot version reached _ whole run := by
    dsimp only [choosy] at run
    split at run <;> cases run
    exact whole

theorem mind_choosy : choosy.hooks.Mind where
  preprocess item session := by
    dsimp only [choosy]
    split
    · exact ⟨by simp [Call.Minds], fun _ => trivial⟩
    · trivial
  groupKey _ := trivial
  versions item session depot version reached run := by
    dsimp only [choosy] at run
    split at run <;> cases run
    rfl

theorem intake_isolates_choosy :
    let source : List Item := [{ id := "a" }, { id := "b" }, { id := "c" }, { id := "d" }]
    let depot := opening { source, sinks := Flow.sinksFor [] } {} {}
    let findings := choosy.intakeFindings [true, true, true] depot
    (failures findings).map Item.id = ["b", "c"] ∧
    ∃ binned unused reached delivered,
      intake choosy [true, true, true] depot = (.ok (binned, unused), reached) ∧
      depot.flow.source = findings.map Finding.item ++ reached.flow.source ∧
      List.Forall₂ Item.Resembles delivered (failures findings) ∧
      reached.flow.sinks = (depot.flow.sinks.mapValues fun relationship received =>
        received ++ if relationship = failureRelationship then delivered else []) ∧
      (∀ finding ∈ findings, ∀ version group key,
        finding.outcome = .ok (version, group, key) →
          group.key? = some key ∧ version.id = finding.item.id ∧
          ∃ bin, reached.Landed (key, version) bin ∧
            ∀ other, reached.Stored other →
              version.id ∈ (reached.binSession other).ids → other = bin) ∧
      binned = (findings.filter fun finding => decide ¬ finding.Failed).length := by
  intro source depot findings
  have whole : ∀ item ∈ source ++ [].flatMap Event.items, item.HasWholeSize := by
    simp only [source, List.flatMap_nil, List.append_nil, List.forall_mem_cons]
    exact ⟨⟨0, rfl⟩, ⟨0, rfl⟩, ⟨0, rfl⟩, ⟨0, rfl⟩, nofun⟩
  exact ⟨by decide +kernel, intake_isolates_failures choosy (behave_choosy _) mind_choosy 2
    rfl source [] (by decide) {} {} [] [true, true, true] (by decide) whole rfl⟩

end Engine

end ItemBinning
