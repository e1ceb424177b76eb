import ItemBinning.Proofs.Engine.Endurance
import ItemBinning.Proofs.Engine.Isolation
import ItemBinning.Proofs.Hook.Preparation

/-!
# The two versions of an item

The version that a hook answered for an item goes into the contents of a bin, and the
version that the session of the chunk held then goes into the session of the same bin.  Of
the two, only the second one is ever delivered.  So for every version that the session of a
bin holds there is one among the contents that the hook answered together with it, as long
as hooks prepare only the items that they are given.
-/

namespace ItemBinning

open Depot

namespace Engine

/-- The hooks gave the item no group. -/
def Excludes (hooks : Hooks) (item : Item) : Prop :=
  ∃ session start fault reached,
    classify hooks session item start = (.error fault, reached)

variable {hooks : Hooks} {session : SessionId} {start next sorted : Depot}

/-- The session holds a version of the item that was derived from it with another one. -/
def Current (hooks : Hooks) (session : SessionId) (item version : Item) (depot : Depot) : Prop :=
  version.id = item.id ∧
    ∃ current, (depot.flow.session session).current.find? item.id = some current ∧
      hooks.Derives item version current

/-- An item that its session holds as it was pulled gets both versions when it is
classified. -/
theorem classify_derives (prepare : hooks.Prepare) {item : Item}
    (held : (start.flow.session session).current.find? item.id = some item) :
    (classify hooks session item).Meets (· = start)
      (fun placed depot =>
        start.Dressed session item.id depot ∧ Current hooks session item placed.1 depot)
      fun _ => start.Dressed session item.id := by
  have prepared : (hooks.preprocess item session).run.Meets (· = start)
      (fun answer depot => start.Dressed session item.id depot ∧
        ∀ version, answer = some version → Current hooks session item version depot)
      fun _ => start.Dressed session item.id := by
    have dresses := (prepare.preprocess item session).dressed start
    refine Act.Meets.of_runs ?_ ?_
    · rintro _ answer reached rfl run
      rw [run] at dresses
      refine ⟨dresses, ?_⟩
      rintro version rfl
      have isHeld : item.id ∈ (reached.flow.session session).ids := by
        rw [dresses.adorned.flow.ids]
        exact Session.mem_ids_iff.2 ⟨item, held⟩
      obtain ⟨current, found⟩ := Session.mem_ids_iff.1 isHeld
      exact ⟨prepare.versions item session _ version reached held run, current, found,
        session, _, reached, run, held, found⟩
    · rintro _ fault reached rfl run
      rw [run] at dresses
      exact dresses
  refine prepared.bind fun answer => ?_
  cases answer with
  | none => exact Act.Meets.fail fun _ => And.left
  | some version =>
      have keyed : (hooks.groupKey version).run.Keeps fun depot =>
          start.Dressed session item.id depot ∧ Current hooks session item version depot := by
        apply Act.Keeps.of_final
        intro depot holds
        have dresses : depot.Dressed session item.id _ :=
          ((prepare.groupKey version).mono fun _ => Call.Dresses.of_aside).dressed depot
        refine ⟨holds.1.trans dresses, ?_⟩
        rw [(prepare.groupKey version).stands depot]
        exact holds.2
      have keyed := Act.Meets.weaken keyed
        (fun depot (holds : start.Dressed session item.id depot ∧ ∀ given,
          some version = some given → Current hooks session item given depot) =>
            And.intro holds.1 (holds.2 version rfl)) (fun _ _ => id) fun _ _ => And.left
      refine keyed.bind fun group => ?_
      rcases group.key? with _ | key
      · exact Act.Meets.fail fun _ => And.left
      · exact Act.Meets.pure fun _ => id

/-- What sorting one item comes to: if it was given a group it is there in both versions, and
if not, it is excluded and routed to failure. -/
structure Found (hooks : Hooks) (session : SessionId) (start : Depot) (finding : Finding)
    (next : Depot) : Prop where
  dressed : start.Dressed session finding.item.id next
  derived : ∀ load, finding.load? = some load →
    Current hooks session finding.item load.2 next
  excluded : finding.Failed → Excludes hooks finding.item ∧
    next.flow.Routed session finding.item.id failureRelationship

/-- What sorting a chunk comes to, item by item. -/
structure SortedOut (hooks : Hooks) (session : SessionId) (start : Depot)
    (findings : List Finding) (sorted : Depot) : Prop where
  beside : start.Beside session sorted
  elsewhere : ∀ id ∉ findings.map (·.item.id),
    (sorted.flow.session session).AgreesOn id (start.flow.session session)
  derived : ∀ finding ∈ findings, ∀ load, finding.load? = some load →
    Current hooks session finding.item load.2 sorted
  excluded : ∀ finding ∈ findings, finding.Failed →
    Excludes hooks finding.item ∧
      sorted.flow.Routed session finding.item.id failureRelationship

theorem SortedOut.cons {finding : Finding} {findings : List Finding}
    (found : Found hooks session start finding next)
    (fresh : finding.item.id ∉ findings.map (·.item.id))
    (later : SortedOut hooks session next findings sorted) :
    SortedOut hooks session start (finding :: findings) sorted where
  beside := found.dressed.beside.trans later.beside
  elsewhere id absent := by
    rw [List.map_cons, List.mem_cons, not_or] at absent
    have ⟨current, destination⟩ := later.elsewhere id absent.2
    have ⟨before, routed⟩ := found.dressed.flow.elsewhere id absent.1
    exact ⟨current.trans before, destination.trans routed⟩
  derived := by
    refine List.forall_mem_cons.2 ⟨fun load isLoad => ?_, later.derived⟩
    obtain ⟨own, current, isCurrent, derives⟩ := found.derived load isLoad
    exact ⟨own, current, (later.elsewhere _ fresh).1.trans isCurrent, derives⟩
  excluded := by
    refine List.forall_mem_cons.2 ⟨fun failed => ?_, later.excluded⟩
    obtain ⟨excludes, routed⟩ := found.excluded failed
    exact ⟨excludes, (later.elsewhere _ fresh).2.trans routed⟩

/-- An item that could not be classified is routed to failure, and no other item is
touched. -/
theorem route_sets (start : Depot) (item : Item) :
    (onFlow (Flow.route session [item] failureRelationship)).Meets
      (start.Dressed session item.id)
      (fun _ depot => start.Dressed session item.id depot ∧
        depot.flow.Routed session item.id failureRelationship)
      fun _ => start.Dressed session item.id := by
  have own : ∀ other ∈ [item], other.id = item.id := fun other member => by
    rw [List.mem_singleton.1 member]
  have dresses : (onFlow (Flow.route session [item] failureRelationship)).Keeps
      (start.Dressed session item.id) :=
    Dressed.route own failureRelationship
  exact (dresses.and (route_routes [item] failureRelationship)).weaken (fun _ => id)
    (fun _ _ holds => ⟨holds.1, holds.2 item List.mem_cons_self⟩) fun _ _ => And.left

theorem sortItem_finds (prepare : hooks.Prepare) {item : Item}
    (held : (start.flow.session session).current.find? item.id = some item) :
    (sortItem hooks session item).Meets (· = start)
      (fun finding next => finding.item = item ∧ Found hooks session start finding next)
      fun _ next => start.Beside session next := by
  have excludes : (classify hooks session item).Meets (· = start) (fun _ _ => True)
      fun _ _ => Excludes hooks item :=
    Act.Meets.of_runs (fun _ _ _ _ _ => trivial) fun _ _ _ _ run => ⟨_, _, _, _, run⟩
  have classified := (classify_derives prepare held).and excludes
  have routed : (onFlow (Flow.route session [item] failureRelationship)).Meets
      (fun depot => start.Dressed session item.id depot ∧ Excludes hooks item)
      (fun _ depot => (start.Dressed session item.id depot ∧
        depot.flow.Routed session item.id failureRelationship) ∧ Excludes hooks item)
      fun _ => start.Beside session :=
    Act.Meets.knowing fun excludes => (route_sets start item).weaken (fun _ => id)
      (fun _ _ set => ⟨set, excludes⟩) fun _ _ => Dressed.beside
  refine sortItem_meets (classified.weaken (fun _ => id) ?_ fun _ _ => id) (fun _ => routed)
    fun fault => Act.Meets.modify ?_
  · rintro placed depot ⟨⟨dressed, current⟩, _⟩
    refine ⟨rfl, dressed, ?_, nofun⟩
    rintro _ ⟨⟩
    exact current
  · rintro depot ⟨⟨dressed, routed⟩, excludes⟩
    have kept := (Dressed.count fun counters =>
      { counters with groupingFailures := counters.groupingFailures + 1 }).final dressed
    exact ⟨rfl, kept, nofun, fun _ => ⟨excludes, routed⟩⟩

theorem sortItems_sortsOut (prepare : hooks.Prepare) {items : List Item}
    (apart : (items.map Item.id).Nodup)
    (held : ∀ item ∈ items, (start.flow.session session).current.find? item.id = some item) :
    (sortItems hooks session items).Meets (· = start)
      (fun findings sorted => findings.map Finding.item = items ∧
        SortedOut hooks session start findings sorted)
      fun _ sorted => start.Beside session sorted := by
  induction items generalizing start with
  | nil =>
      refine Act.Meets.pure ?_
      rintro _ rfl
      exact ⟨rfl, .refl _, fun _ _ => ⟨rfl, rfl⟩, nofun, nofun⟩
  | cons item rest ih =>
      rw [List.map_cons, List.nodup_cons] at apart
      rw [List.forall_mem_cons] at held
      rw [sortItems_cons]
      refine (sortItem_finds prepare held.1).bind fun finding => ?_
      rintro next ⟨rfl, found⟩
      -- the items behind are held as they were, since only the first one was touched
      have heldNext : ∀ other ∈ rest,
          (next.flow.session session).current.find? other.id = some other := by
        intro other member
        rw [← held.2 other member]
        refine (found.dressed.flow.elsewhere other.id ?_).1
        exact fun same => apart.1 (same ▸ List.mem_map_of_mem member)
      have later := (ih apart.2 heldNext).weaken (fun _ => id) (fun _ _ => id)
        fun _ _ beside => found.dressed.beside.trans beside
      refine (later.bind fun findings => Act.Meets.pure ?_) next rfl
      rintro depot ⟨items, sortedOut⟩
      refine ⟨by rw [List.map_cons, items], sortedOut.cons found ?_⟩
      rw [← items, List.map_map] at apart
      exact apart.1

end Engine

namespace Depot

variable {property : Flow → Prop} {inUse : List SessionId} {session : SessionId}
  {pairs : Item → Item → Prop} {first second third before after : Depot}

/-- The bins were left intact, and so were the versions that their sessions hold. -/
structure Unaltered (before after : Depot) : Prop extends before.Intact after where
  versions : ∀ bin, after.Stored bin →
    (after.binSession bin).current = (before.binSession bin).current

/-- Bins that are left intact are unaltered if their sessions stay as they are. -/
theorem Intact.unaltered (intact : before.Intact after) (sound : before.Sound property inUse)
    (same : ∀ other, before.Owned other →
      after.flow.session other = before.flow.session other) : before.Unaltered after where
  toIntact := intact
  versions bin stored := by
    have wasStored := intact.stored bin stored
    unfold binSession
    rw [(intact.matching bin (sound.isBin wasStored)).session, same _ ⟨bin, wasStored, rfl⟩]

/-- What happens in a session that belongs to no bin leaves the bins unaltered. -/
theorem AtWork.unaltered {flow : Flow} (atWork : before.AtWork property session)
    (intact : before.Intact { before with flow })
    (others : ∀ other, other ≠ session → flow.session other = before.flow.session other) :
    before.Unaltered { before with flow } := by
  refine intact.unaltered atWork.sound fun other owned => others other ?_
  rintro rfl
  exact atWork.loose.notOwned owned

/-- For every version that the session of the bin holds, there is one of the same item among
the contents that goes with it. -/
def Paired (pairs : Item → Item → Prop) (depot : Depot) (bin : BinId) : Prop :=
  ∀ id current, (depot.binSession bin).current.find? id = some current →
    ∃ version ∈ (depot.bin bin).contents, version.id = id ∧ pairs version current

/-- All bins that are open or queued hold versions in pairs. -/
def Matched (pairs : Item → Item → Prop) (depot : Depot) : Prop :=
  ∀ bin, depot.Stored bin → depot.Paired pairs bin

theorem Matched.unaltered (matched : before.Matched pairs) (unaltered : before.Unaltered after) :
    after.Matched pairs := by
  intro bin stored id current found
  rw [unaltered.versions bin stored] at found
  rw [unaltered.contents bin stored]
  exact matched bin (unaltered.stored bin stored) id current found

/-- An item that is stowed makes a pair with the version that goes over. -/
theorem Stowed.matched {key : Key} {item : Item} {number : BinId}
    (atWork : before.AtWork property session)
    (stowed : before.Stowed session key item number after)
    (pair : ∀ current, (before.flow.session session).current.find? item.id = some current →
      pairs item current)
    (matched : before.Matched pairs) : after.Matched pairs := by
  intro bin stored id current found
  by_cases same : bin = number
  · subst same
    obtain ⟨given, isGiven⟩ := Session.mem_ids_iff.1 stowed.held
    rw [stowed.passed given isGiven, Table.find?_put] at found
    rw [stowed.contents]
    split at found
    · rename_i isItem
      cases found
      exact ⟨item, by simp, isItem.symm, pair current isGiven⟩
    · have wasHeld : id ∈ (before.flow.session (after.bin bin).session).ids :=
        Session.mem_ids_iff.2 ⟨current, found⟩
      rcases stowed.joined_or_new with ⟨joined, matching⟩ | ⟨_, unused⟩
      · rw [matching.session] at found
        obtain ⟨version, member, isPair⟩ := matched bin joined id current found
        exact ⟨version, List.mem_append_left _ member, isPair⟩
      · rw [unused] at wasHeld
        cases wasHeld
  · have old := ((stowed.stored_iff bin).1 stored).resolve_right same
    rw [stowed.binSession_of_ne atWork old same] at found
    rw [(stowed.others bin (atWork.sound.isBin old) same).contents]
    exact matched bin old id current found

theorem Hauled.matched {cargo : List Load}
    (hauled : Hauled property session cargo before after)
    (pair : ∀ load ∈ cargo, ∀ current,
      (before.flow.session session).current.find? load.2.id = some current →
        pairs load.2 current)
    (matched : before.Matched pairs) : after.Matched pairs := by
  induction hauled with
  | still atWork still =>
      exact matched.unaltered ((still.intact atWork.sound).unaltered atWork.sound
        fun other _ => still.session other)
  | stowed atWork stowed => exact stowed.matched atWork (pair _ (List.mem_singleton.2 rfl)) matched
  | trans hauledFirst _ first second =>
      rw [List.forall_mem_append] at pair
      refine second (fun load late current found => ?_) (first pair.1 matched)
      -- what the session still holds it held before, and in the same version
      rw [hauledFirst.giver, Table.find?_eq_some_iff, Session.current_releaseAll,
        List.mem_filter] at found
      exact pair.2 load late current (Table.find?_eq_some_iff.2 found.1)

/-- What the sinks received is what is expected of them. -/
def Received (expected : String → Item → Prop) (depot : Depot) : Prop :=
  ∀ relationship received, depot.flow.sinks.find? relationship = some received →
    ∀ item ∈ received, expected relationship item

theorem Received.of_sinks {expected : String → Item → Prop} (received : before.Received expected)
    (sinks : after.flow.sinks = before.flow.sinks) : after.Received expected := by
  unfold Received
  rw [sinks]
  exact received

/-- A session that holds items for one relationship only sends them there. -/
theorem Received.delivered {expected : String → Item → Prop}
    (received : before.Received expected) {relationship : String}
    (all : ∀ id ∈ (before.flow.session session).ids,
      before.flow.Routed session id relationship)
    (items : ∀ item ∈ (before.flow.session session).items, expected relationship item) :
    Received expected { before with flow := before.flow.delivered session } := by
  intro other sent found item member
  dsimp only at found
  rw [Flow.sinks_delivered_of_all all, Table.find?_mapValues] at found
  obtain ⟨early, isEarly, rfl⟩ := Option.map_eq_some_iff.1 found
  rcases List.mem_append.1 member with old | new
  · exact received other early isEarly item old
  · split at new
    · rename_i same
      exact same ▸ items item new
    · cases new

end Depot

/-- The hooks gave one of the items a version while the session held another one. -/
def Hooks.Pairs (hooks : Hooks) (originals : Item → Prop) (version current : Item) : Prop :=
  ∃ item, originals item ∧ hooks.Derives item version current

namespace Engine

variable {known : List String} {property : Flow → Prop} {engine : Engine} {hooks : Hooks}
  {originals : Item → Prop} {expected : String → Item → Prop} {session : SessionId}
  {start sorted depot : Depot} {findings : List Finding} {items : List Item}

/-- Bins hold versions in pairs, and what was delivered was expected. -/
structure Consigned (hooks : Hooks) (originals : Item → Prop) (expected : String → Item → Prop)
    (depot : Depot) : Prop where
  matched : depot.Matched (hooks.Pairs originals)
  received : depot.Received expected

theorem Consigned.unaltered {before after : Depot}
    (consigned : Consigned hooks originals expected before)
    (unaltered : before.Unaltered after) (sinks : after.flow.sinks = before.flow.sinks) :
    Consigned hooks originals expected after :=
  ⟨consigned.matched.unaltered unaltered, consigned.received.of_sinks sinks⟩

theorem Consigned.drawn {before after : Depot} (sound : before.Sound property [])
    (consigned : Consigned hooks originals expected before)
    (drawn : before.Drawn session items after) : Consigned hooks originals expected after :=
  consigned.unaltered ((drawn.intact sound).unaltered sound fun _ => drawn.session_of_owned sound)
    drawn.sinks

/-- A chunk was sorted: the versions that were given a group make pairs with those that the
session holds, and the items that were given none were excluded. -/
structure Ranged (property : Flow → Prop) (hooks : Hooks) (originals : Item → Prop)
    (session : SessionId) (start : Depot) (findings : List Finding) (sorted : Depot) : Prop
    extends Gathered property session start (failures findings) sorted where
  rights : ∀ finding ∈ findings, finding.Right (IsVersion finding.item)
  pair : ∀ load ∈ loads findings, ∀ current,
    (sorted.flow.session session).current.find? load.2.id = some current →
      hooks.Pairs originals load.2 current
  excluded : ∀ item ∈ failures findings, originals item ∧ Excludes hooks item

theorem SortedOut.ranged (sortedOut : SortedOut hooks session start findings sorted)
    (prepared : Prepared property session start sorted)
    (rights : ∀ finding ∈ findings, finding.Right Item.HasWholeSize)
    (isOriginal : ∀ finding ∈ findings, originals finding.item) :
    Ranged property hooks originals session start findings sorted where
  toPrepared := prepared
  routed item failed := by
    obtain ⟨finding, isFailed, rfl⟩ := List.mem_map.1 failed
    obtain ⟨member, hasFailed⟩ := List.mem_filter.1 isFailed
    exact (sortedOut.excluded finding member (of_decide_eq_true hasFailed)).2
  rights finding member version group key outcome := by
    obtain ⟨isKey, whole⟩ := rights finding member version group key outcome
    have current := sortedOut.derived finding member (key, version) (by
      unfold Finding.load?
      rw [outcome])
    exact ⟨isKey, current.1, whole⟩
  pair load isLoad current found := by
    obtain ⟨finding, member, given⟩ := mem_loads_iff.1 isLoad
    obtain ⟨own, other, isOther, derives⟩ := sortedOut.derived finding member load given
    rw [own, isOther] at found
    cases found
    exact ⟨finding.item, isOriginal finding member, derives⟩
  excluded item failed := by
    obtain ⟨finding, isFailed, rfl⟩ := List.mem_map.1 failed
    obtain ⟨member, hasFailed⟩ := List.mem_filter.1 isFailed
    exact ⟨isOriginal finding member,
      (sortedOut.excluded finding member (of_decide_eq_true hasFailed)).1⟩

/-- Whatever was stowed of a chunk, bins hold versions in pairs. -/
theorem Ranged.consigned {loads : List Load}
    (ranged : Ranged property hooks originals session start findings sorted)
    (moved : Moved property session sorted loads depot) (among : loads ⊆ Engine.loads findings)
    (consigned : Consigned hooks originals expected sorted) :
    Consigned hooks originals expected depot := by
  obtain ⟨cargo, hauled, perm⟩ := moved.hauled
  exact ⟨hauled.matched (fun load member => ranged.pair load (among (perm.subset member)))
    consigned.matched, consigned.received.of_sinks hauled.sinks⟩

/-- What is left of a chunk when the rest was stowed are items that were excluded. -/
theorem Ranged.delivered (cohering : Flow.Cohering known property) {before : Depot}
    (drawn : before.Drawn session (findings.map Finding.item) start)
    (ranged : Ranged property hooks originals session start findings sorted)
    (excluded : ∀ original item, originals original → Excludes hooks original →
      item.Resembles original → expected failureRelationship item)
    (moved : Moved property session sorted (loads findings) depot)
    (received : depot.Received expected) :
    Received expected { depot with flow := depot.flow.delivered session } := by
  obtain ⟨pulled, routed⟩ :=
    Moved.remaining cohering ranged.toGathered drawn.pulled drawn.ids ranged.rights moved
  apply received.delivered routed
  intro item member
  have coherent := (cohering.coherent _ moved.atWork.sound.flow).sessions session
  obtain ⟨id, found⟩ := Table.mem_values_iff.1 member
  obtain ⟨current, original, isCurrent, isPulled, resembles⟩ :=
    coherent.both (Session.mem_ids_iff.2 ⟨item, found⟩)
  rw [found] at isCurrent
  cases isCurrent
  have failed : original ∈ failures findings := by
    rw [← pulled]
    exact Table.mem_values_iff.2 ⟨id, isPulled⟩
  obtain ⟨isOriginal, excludes⟩ := ranged.excluded original failed
  exact excluded original item isOriginal excludes resembles

section Chunk

variable (cohering : Flow.Cohering known property) (prepare : engine.hooks.Prepare)
  (upstream : ∀ flow, property flow → flow.Upstream originals)
  (excluded : ∀ original item, originals original → Excludes engine.hooks original →
    item.Resembles original → expected failureRelationship item)
include cohering prepare upstream

/-- A chunk that was pulled is sorted into versions in pairs and items that are excluded. -/
theorem sortItems_ranges {before : Depot} (sound : before.Sound property [])
    (consigned : Consigned engine.hooks originals expected before)
    (run : pullChunk engine before = (.ok (session, items), start))
    (drawn : before.Drawn session items start) :
    (sortItems engine.hooks session items).Meets (· = start)
      (fun findings sorted => findings.map Finding.item = items ∧
        sorted.AtWork property session ∧
        Ranged property engine.hooks originals session start findings sorted ∧
        Consigned engine.hooks originals expected sorted)
      fun _ sorted => sorted.AtWork property session ∧
        Consigned engine.hooks originals expected sorted := by
  obtain ⟨atWork, whole⟩ := pullChunk_atWork cohering.carried sound run drawn
  have isOriginal : ∀ item ∈ items, originals item := by
    intro item member
    apply (upstream _ sound.flow).waiting
    rw [drawn.source]
    exact List.mem_append_left _ member
  have prepares {sorted : Depot} (beside : start.Beside session sorted)
      (prepared : Prepared property session start sorted) :
      sorted.AtWork property session ∧ Consigned engine.hooks originals expected sorted := by
    refine ⟨prepared.atWork atWork, (consigned.drawn sound drawn).unaltered
      (prepared.adorned.intact.unaltered atWork.sound fun other owned => ?_)
      prepared.adorned.flow.sinks⟩
    apply beside.others
    rintro rfl
    exact atWork.loose.notOwned owned
  have sorts := (sortItems_adorns cohering.carried prepare.behave prepare.gentle atWork
    drawn.distinct whole).and (sortItems_sortsOut prepare drawn.distinct drawn.held)
  refine sorts.weaken (fun _ => id) ?_ fun _ _ failed => prepares failed.2 failed.1
  rintro findings sorted ⟨⟨prepared, rights⟩, rfl, sortedOut⟩
  obtain ⟨works, consigned⟩ := prepares sortedOut.beside prepared
  refine ⟨rfl, works, sortedOut.ranged prepared rights fun finding member => ?_, consigned⟩
  exact isOriginal _ (List.mem_map_of_mem member)

include excluded

/-- Binning a chunk that was pulled stows versions in pairs, also if it stops halfway. -/
theorem binItems_consigns {before : Depot} (sound : before.Sound property [])
    (consigned : Consigned engine.hooks originals expected before)
    (run : pullChunk engine before = (.ok (session, items), start))
    (drawn : before.Drawn session items start) :
    (binItems engine.hooks session items).Meets (· = start)
      (fun _ => Consigned engine.hooks originals expected)
      fun _ depot => depot.AtWork property session ∧
        Consigned engine.hooks originals expected depot := by
  have sorting := sortItems_ranges cohering prepare upstream sound consigned run drawn
  have binning : Binning property engine.hooks session items start
      (binItems engine.hooks session items start) := by
    apply binItems_binning cohering.carried
    intro findings sorted sorts
    obtain ⟨_, atWork, ranged, _⟩ := sorting.of_ok rfl sorts
    exact ⟨atWork, fun finding member => (ranged.rights finding member).mono fun _ => And.right⟩
  rintro _ rfl
  generalize binItems engine.hooks session items _ = result at binning
  cases binning with
  | unsorted _ _ sorts => exact sorting.of_error rfl sorts
  | stopped _ _ findings sorted sorts isStopped =>
      obtain ⟨_, _, ranged, consigned⟩ := sorting.of_ok rfl sorts
      obtain ⟨loads, moved, among, _⟩ := isStopped
      exact ⟨moved.atWork, ranged.consigned moved among.subset consigned⟩
  | unrouted _ _ findings sorted sorts moved =>
      obtain ⟨_, _, ranged, consigned⟩ := sorting.of_ok rfl sorts
      exact ⟨moved.atWork, ranged.consigned moved (List.Subset.refl _) consigned⟩
  | binned stowed findings sorted sorts moved complete =>
      obtain ⟨rfl, _, ranged, consigned⟩ := sorting.of_ok rfl sorts
      have stows := ranged.consigned moved (List.Subset.refl _) consigned
      have intact := delivered_intact moved.atWork.loose.notOwned complete
      have unaltered := moved.atWork.unaltered intact fun _ differs =>
        stowed.flow.session_delivered_of_ne differs
      exact ⟨stows.matched.unaltered unaltered,
        ranged.delivered cohering drawn excluded moved stows.received⟩

theorem takeChunk_consigns :
    (takeChunk engine).Keeps fun depot =>
      depot.Sound property [] ∧ Consigned engine.hooks originals expected depot := by
  have behave := prepare.behave
  have rules := intakeRules cohering.carried (putKeeps_nothing _) behave.preprocess
    behave.groupKey behave.versions
  apply Act.Keeps.of_final
  rintro before ⟨sound, consigned⟩
  refine ⟨rules.takeChunk.final sound, ?_⟩
  have binning {session : SessionId} {items : List Item} {pulled : Depot}
      (run : pullChunk engine before = (.ok (session, items), pulled))
      (drawn : before.Drawn session items pulled) :=
    binItems_consigns cohering prepare upstream excluded sound consigned run drawn
  have chunked := takeChunk_chunked engine before
  generalize takeChunk engine before = result at chunked
  cases chunked with
  | unpulled fault reached _ opened =>
      rw [opened]
      exact consigned.unaltered ((opened_intact before).unaltered sound
        fun other _ => before.flow.session_push other) rfl
  | exhausted session reached drawn => exact consigned.drawn sound drawn
  | failed session items pulled stopped fault run drawn bins =>
      obtain ⟨atWork, consigned⟩ := (binning run drawn).of_error rfl bins
      exact consigned.unaltered (atWork.unaltered (returned_intact atWork.loose.notOwned)
        fun _ differs => stopped.flow.session_returned_of_ne differs) rfl
  | binned session items pulled reached count run drawn bins =>
      exact (binning run drawn).of_ok rfl bins

/-- An intake bins versions in pairs, and delivers excluded items only. -/
theorem takeIn_consigns (answers : List Bool) :
    (takeIn engine answers).Keeps fun depot =>
      depot.Sound property [] ∧ Consigned engine.hooks originals expected depot := by
  refine (Act.Keeps.look _).bind fun capacity => ?_
  split
  · exact intake_keeps (takeChunk_consigns cohering prepare upstream excluded) answers
  · exact Act.Keeps.pure _

end Chunk

end Engine

end ItemBinning
