import ItemBinning.Proofs.Engine.Bookkeeping
import ItemBinning.Proofs.Engine.ChunkBoundaries
import ItemBinning.Proofs.Engine.Endurance
import ItemBinning.Proofs.Engine.Upkeep
import ItemBinning.Proofs.Engine.Versions

/-!
# In what order bins are filled

A chunk is offered group by group, and the items of a group in the order in which they
were pulled.  Each goes to the end of a bin of its group, or into a new bin.  So when
the contents of the bins stand in one line, and none of the items of a chunk is among
them, they stand in the line with the chunk behind it once the chunk is binned, however
the items are spread over bins, and also if binning stops halfway.
-/

namespace ItemBinning

namespace Depot

variable {property : Flow → Prop} {inUse : List SessionId} {session : SessionId}
  {line longer : Key → List String} {loads more : List Load} {key : Key} {item : Item}
  {items : List Item} {before after : Depot}

/-- The bins that are open or queued hold items in the order of the line of their group. -/
def Lined (line : Key → List String) (depot : Depot) : Prop :=
  ∀ bin, depot.Stored bin → ∃ key, (depot.bin bin).group.key? = some key ∧
    ((depot.bin bin).contents.map Item.id).Sublist (line key)

/-- The lines of the groups with the items of some loads behind them. -/
def behind (line : Key → List String) (loads : List Load) (key : Key) : List String :=
  line key ++ (ofKey key loads).map Item.id

theorem behind_append : behind line (loads ++ more) = behind (behind line loads) more := by
  funext key
  unfold behind
  rw [ofKey_append, List.map_append, List.append_assoc]

theorem sublist_behind (line : Key → List String) (loads : List Load) (key : Key) :
    (line key).Sublist (behind line loads key) :=
  List.sublist_append_left _ _

theorem mem_behind (member : item ∈ items) :
    item.id ∈ behind line (items.map fun item => (key, item)) key := by
  unfold behind
  rw [ofKey_map, if_pos rfl]
  exact List.mem_append_right _ (List.mem_map_of_mem member)

theorem Lined.mono (lined : before.Lined line) (within : ∀ key, (line key).Sublist (longer key)) :
    before.Lined longer := by
  intro bin stored
  obtain ⟨key, isKey, sublist⟩ := lined bin stored
  exact ⟨key, isKey, sublist.trans (within key)⟩

theorem Lined.of_same {bin other : Bin} (matching : other.Matches bin)
    (contents : other.contents = bin.contents)
    (lined : ∃ key, bin.group.key? = some key ∧
      (bin.contents.map Item.id).Sublist (line key)) :
    ∃ key, other.group.key? = some key ∧ (other.contents.map Item.id).Sublist (line key) := by
  rw [matching.group, contents]
  exact lined

theorem Lined.intact (lined : before.Lined line) (sound : before.Sound property inUse)
    (intact : before.Intact after) : after.Lined line := by
  intro bin stored
  have old := intact.stored bin stored
  exact Lined.of_same (intact.matching bin (sound.isBin old)) (intact.contents bin stored)
    (lined bin old)

/-- An item that is stowed stands behind all that its bin held. -/
theorem Lined.stowed {number : BinId} (lined : before.Lined line)
    (sound : before.Sound property inUse)
    (stowed : before.Stowed session key item number after) :
    after.Lined (behind line [(key, item)]) := by
  intro bin stored
  by_cases same : bin = number
  · subst same
    refine ⟨key, stowed.keyed, ?_⟩
    unfold behind
    have isLoad : ofKey key [(key, item)] = [item] := (ofKey_map key key [item]).trans (if_pos rfl)
    rw [stowed.contents, List.map_append, isLoad]
    refine List.Sublist.append ?_ (List.Sublist.refl _)
    -- the bin held items of its group, or it is new and held none
    rcases stowed.joined_or_new with ⟨old, matching⟩ | ⟨none, _⟩
    · obtain ⟨other, isOther, sublist⟩ := lined bin old
      have keyed := stowed.keyed
      rw [matching.group, isOther] at keyed
      cases keyed
      exact sublist
    · rw [none]
      exact List.nil_sublist _
  · have old := ((stowed.stored_iff bin).1 stored).resolve_right same
    have alike := stowed.others bin (sound.isBin old) same
    obtain ⟨other, isOther, sublist⟩ := Lined.of_same alike.matching alike.contents (lined bin old)
    exact ⟨other, isOther, sublist.trans (sublist_behind line _ other)⟩

/-- An item that is queued in a bin of its own may stand anywhere in its line. -/
theorem Lined.queued (lined : before.Lined line) (sound : before.Sound property inUse)
    (queued : QueuedOne key item before after) (among : item.id ∈ line key) :
    after.Lined line := by
  obtain ⟨shelf, others, number, ready, contents, isKey⟩ := queued
  have isOld {bin : BinId} (old : before.Stored bin) : ∃ key,
      (after.bin bin).group.key? = some key ∧
        ((after.bin bin).contents.map Item.id).Sublist (line key) := by
    rw [others bin (sound.isBin old)]
    exact lined bin old
  rintro bin (onShelf | inQueue)
  · exact isOld (.inl (shelf ▸ onShelf))
  · rw [ready, List.mem_append, List.mem_singleton] at inQueue
    rcases inQueue with old | rfl
    · exact isOld (.inr old)
    · refine ⟨key, isKey, ?_⟩
      rw [contents]
      exact List.singleton_sublist.2 among

/-- The engine is at work on a chunk, and the bins are lined up. -/
structure Lining (property : Flow → Prop) (session : SessionId) (line : Key → List String)
    (depot : Depot) : Prop where
  atWork : depot.AtWork property session
  lined : depot.Lined line

theorem Lining.mono (lining : Lining property session line before)
    (within : ∀ key, (line key).Sublist (longer key)) : Lining property session longer before :=
  ⟨lining.atWork, lining.lined.mono within⟩

theorem Lining.still (lining : Lining property session line before) (still : before.Still after)
    (sound : after.Sound property [session]) : Lining property session line after where
  atWork := ⟨sound, lining.atWork.loose.still lining.atWork.sound.arranged
    lining.atWork.sound.queued still⟩
  lined := lining.lined.intact lining.atWork.sound (still.intact lining.atWork.sound)

end Depot

open Depot

variable {property : Flow → Prop} {session : SessionId} {line : Key → List String} {group : Value}
  {key : Key} {item : Item} {items : List Item}

namespace Shelf

theorem place_lines (carried : Flow.Carried property) (isKey : group.key? = some key)
    (whole : item.HasWholeSize) :
    (place group key item session).Meets (Lining property session line)
      (fun _ => Lining property session (behind line [(key, item)]))
      fun _ => Lining property session (behind line [(key, item)]) := by
  apply Act.Meets.of_final
  intro depot lining
  have sound := (place_sound carried isKey whole session).final lining.atWork.sound
  have placing := place_placing isKey lining.atWork.sound carried lining.atWork.loose whole
  unfold Act.final at sound
  generalize place group key item session depot = result at sound placing
  cases placing with
  | unplaced still => exact (lining.still still sound).mono (sublist_behind line _)
  | absent still _ => exact (lining.still still sound).mono (sublist_behind line _)
  | stowed stowed =>
      exact ⟨⟨sound, lining.atWork.loose_stowed stowed⟩,
        lining.lined.stowed lining.atWork.sound stowed⟩

/-- The items of a group are lined up in the order in which they are offered, whether they
find a place or not. -/
theorem placeAll_lines (carried : Flow.Carried property) (isKey : group.key? = some key)
    (whole : ∀ item ∈ items, item.HasWholeSize) :
    (placeAll group key session items).Meets (Lining property session line)
      (fun unbound depot => unbound ⊆ items ∧
        Lining property session (behind line (items.map fun item => (key, item))) depot)
      fun _ => Lining property session (behind line (items.map fun item => (key, item))) := by
  induction items generalizing line with
  | nil =>
      refine Act.Meets.pure fun depot lining => ⟨List.Subset.refl _, ?_⟩
      exact lining.mono (sublist_behind line _)
  | cons item rest ih =>
      rw [List.forall_mem_cons] at whole
      have all : behind line ((item :: rest).map fun item => (key, item)) =
          behind (behind line [(key, item)]) (rest.map fun item => (key, item)) := by
        rw [List.map_cons, ← List.singleton_append, behind_append]
      rw [all]
      have first := (@place_lines property session line group key item carried isKey
        whole.1).failing fun _ _ lining =>
          lining.mono (sublist_behind _ (rest.map fun item => (key, item)))
      refine first.bind fun placed => (ih whole.2).bind fun unbound => Act.Meets.pure ?_
      rintro depot ⟨within, lining⟩
      refine ⟨?_, lining⟩
      split
      · exact List.subset_cons_of_subset item within
      · exact List.cons_subset_cons item within

theorem offer_lines (carried : Flow.Carried property) (isKey : group.key? = some key)
    (whole : ∀ item ∈ items, item.HasWholeSize) :
    (offer group items session).Meets (Lining property session line)
      (fun unbound depot => unbound ⊆ items ∧
        Lining property session (behind line (items.map fun item => (key, item))) depot)
      fun _ => Lining property session (behind line (items.map fun item => (key, item))) := by
  have stops {depot : Depot} (lining : Lining property session line depot) :
      Lining property session (behind line (items.map fun item => (key, item))) depot :=
    lining.mono (sublist_behind line _)
  have asked : (askShelf (·.thresholds.inconsistencies)).Meets (Lining property session line)
      (fun _ => Lining property session line)
      fun _ => Lining property session (behind line (items.map fun item => (key, item))) :=
    Act.Meets.look (fun _ _ lining _ => lining) fun _ _ lining _ => stops lining
  refine asked.bind fun issues => ?_
  split
  · rw [isKey]
    exact placeAll_lines carried isKey whole
  · exact Act.Meets.fail fun _ => stops

end Shelf

namespace Engine

theorem queueUnbound_lines (carried : Flow.Carried property) (isKey : group.key? = some key)
    (whole : item.HasWholeSize) (among : item.id ∈ line key) :
    (queueUnbound group session item).Keeps (Lining property session line) := by
  apply Act.Keeps.of_final
  intro depot lining
  have sound := (queueUnbound_sound carried group session whole).final lining.atWork.sound
  unfold Act.final at sound
  rcases queueUnbound_stowing isKey lining.atWork.sound carried lining.atWork.loose whole with
    ⟨fault, reached, run, still, _⟩ | ⟨number, reached, run, stowed⟩
  · rw [run] at sound ⊢
    exact lining.still still sound
  · have queued := (queueUnbound_queues isKey whole).of_ok rfl run
    rw [run] at sound ⊢
    exact ⟨⟨sound, lining.atWork.loose_stowed stowed⟩,
      lining.lined.queued lining.atWork.sound queued among⟩

theorem offerGroup_lines (carried : Flow.Carried property) (isKey : group.key? = some key)
    (whole : ∀ item ∈ items, item.HasWholeSize) :
    (offerGroup session group items).Meets (Lining property session line)
      (fun _ => Lining property session (behind line (items.map fun item => (key, item))))
      fun _ => Lining property session (behind line (items.map fun item => (key, item))) := by
  refine (Shelf.offer_lines carried isKey whole).bind fun unbound => ?_
  rintro depot ⟨within, lining⟩
  have queues : (Act.forEach unbound (queueUnbound group session)).Keeps
      (Lining property session (behind line (items.map fun item => (key, item)))) :=
    Act.Keeps.forEach fun item member =>
      queueUnbound_lines carried isKey (whole item (within member)) (mem_behind (within member))
  refine Act.Meets.bind queues (fun _ => Act.Meets.modify fun reached lining => ?_) depot lining
  exact lining.still ⟨rfl, rfl, fun _ => rfl, Nat.le_refl _, rfl, rfl, Nat.le_refl _,
      fun _ _ => .refl _⟩ (lining.atWork.sound.of_same rfl rfl rfl rfl rfl)

/-- Offering groups lines their items up, each in the line of its group, also if it stops. -/
theorem offerGroups_lines (carried : Flow.Carried property) {groups : List (Value × List Item)}
    (keyed : Keyed groups) :
    (offerGroups session groups).Meets (Lining property session line)
      (fun _ => Lining property session (behind line (loadsOf groups)))
      fun _ => Lining property session (behind line (loadsOf groups)) := by
  induction groups generalizing line with
  | nil => exact Act.Meets.pure fun depot lining => lining.mono (sublist_behind line _)
  | cons entry rest ih =>
      obtain ⟨group, items⟩ := entry
      obtain ⟨⟨⟨key, isKey⟩, whole⟩, keyed⟩ := List.forall_mem_cons.1 keyed
      have all : behind line (loadsOf ((group, items) :: rest)) =
          behind (behind line (items.map fun item => (key, item))) (loadsOf rest) := by
        unfold loadsOf
        rw [List.flatMap_cons, isKey]
        exact behind_append
      rw [offerGroups_cons, all]
      have first := (@offerGroup_lines property session line group key items carried isKey
        whole).failing fun _ _ lining => lining.mono (sublist_behind _ (loadsOf rest))
      exact first.bind fun _ => (ih keyed).bind fun _ => Act.Meets.pure fun _ => id

variable {engine : Engine} {findings : List Finding} {front : List String}
  {before pulled depot : Depot}

/-- The line of each group, once the groups of a chunk are offered, is within the line of the
chunk. -/
theorem behind_collect (rights : ∀ finding ∈ findings, finding.Right (IsVersion finding.item))
    (key : Key) :
    (behind (fun _ => front) (loadsOf (findings.foldl collect .empty).values) key).Sublist
      (front ++ (findings.map Finding.item).map Item.id) := by
  obtain ⟨labelled, _⟩ := loadsOf_collect findings rights (show Labelled .empty from nofun)
  have items : ofKey key (loadsOf (findings.foldl collect .empty).values) =
      ofKey key (loads findings) := by
    rw [ofKey_loadsOf labelled, itemsOf_collect]
    rfl
  have within : (ofKey key (loads findings)).Sublist ((loads findings).map Prod.snd) := by
    unfold ofKey
    induction loads findings with
    | nil => exact .slnil
    | cons load rest ih =>
        rw [List.filterMap_cons, List.map_cons]
        split
        · exact ih.cons _
        · rename_i isSome
          split at isSome <;> cases isSome
          exact ih.cons_cons _
  unfold behind
  rw [items]
  refine (List.Sublist.refl front).append ((within.map Item.id).trans ?_)
  rw [List.map_map]
  exact ids_loads_sublist rights

section Chunk

variable (carried : Flow.Carried property) (prepare : engine.hooks.Prepare)
include carried prepare

/-- Sorting a chunk gives versions of its items only, and prepares nothing but the session that
it was pulled into. -/
theorem sortItems_versions (drawn : before.Drawn session items pulled)
    (whole : ∀ item ∈ items, item.HasWholeSize) (atWork : pulled.AtWork property session) :
    (sortItems engine.hooks session items).Meets (· = pulled)
      (fun findings sorted => (findings.map Finding.item = items ∧
        ∀ finding ∈ findings, finding.Right (IsVersion finding.item)) ∧
        Prepared property session pulled sorted)
      fun _ => Prepared property session pulled := by
  have sorts := (sortItems_adorns carried prepare.behave prepare.gentle atWork
    drawn.distinct whole).and (sortItems_sortsOut prepare drawn.distinct drawn.held)
  refine sorts.weaken (fun _ => id) ?_ fun _ _ => And.left
  rintro findings sorted ⟨⟨prepared, rights⟩, isChunk, sortedOut⟩
  refine ⟨⟨isChunk, fun finding member version group key outcome => ?_⟩, prepared⟩
  obtain ⟨isKey, wholeVersion⟩ := rights finding member version group key outcome
  have current := sortedOut.derived finding member (key, version) (by
    unfold Finding.load?
    rw [outcome])
  exact ⟨isKey, current.1, wholeVersion⟩

/-- Sorting a chunk leaves the bins lined up. -/
theorem sortItems_lines (drawn : before.Drawn session items pulled)
    (whole : ∀ item ∈ items, item.HasWholeSize) (lining : Lining property session line pulled) :
    (sortItems engine.hooks session items).Meets (· = pulled)
      (fun findings sorted => (findings.map Finding.item = items ∧
        ∀ finding ∈ findings, finding.Right (IsVersion finding.item)) ∧
        Lining property session line sorted)
      fun _ => Lining property session line := by
  have stays {sorted : Depot} (prepared : Prepared property session pulled sorted) :
      Lining property session line sorted :=
    ⟨prepared.atWork lining.atWork, lining.lined.intact lining.atWork.sound prepared.adorned.intact⟩
  exact (sortItems_versions carried prepare drawn whole lining.atWork).weaken (fun _ => id)
    (fun _ _ sorts => ⟨sorts.1, stays sorts.2⟩) fun _ _ => stays

/-- What the next chunk is loaded with are versions of different items that are pulled. -/
theorem ids_nextLoads_sublist (sound : before.Sound property []) :
    ((loads (engine.nextFindings before)).map fun load => load.2.id).Sublist
      ((engine.nextChunk before).map Item.id) := by
  unfold nextFindings nextChunk
  rcases pullChunk_cases engine before with ⟨fault, run⟩ | ⟨session, items, pulled, run, drawn⟩
  · rw [run]
    exact .slnil
  · rw [run]
    dsimp only
    obtain ⟨atWork, whole⟩ := pullChunk_atWork carried sound run drawn
    have versions := sortItems_versions carried prepare drawn whole atWork
    rcases sorts : sortItems engine.hooks session items pulled with ⟨fault | findings, sorted⟩
    · exact List.nil_sublist _
    · obtain ⟨⟨rfl, rights⟩, _⟩ := versions.of_ok rfl sorts
      exact ids_loads_sublist rights

/-- Binning a chunk leaves the bins in one line with the chunk, also if it stops halfway. -/
theorem binItems_lines (drawn : before.Drawn session items pulled)
    (whole : ∀ item ∈ items, item.HasWholeSize)
    (lining : Lining property session (fun _ => front) pulled) :
    (binItems engine.hooks session items).Meets (· = pulled)
      (fun _ => Lined fun _ => front ++ items.map Item.id)
      fun _ => Lining property session fun _ => front ++ items.map Item.id := by
  rw [binItems_eq]
  have sorts := (sortItems_lines carried prepare drawn whole lining).failing fun _ _ lining =>
    lining.mono fun _ => List.sublist_append_left front (items.map Item.id)
  refine sorts.bind fun findings => ?_
  rintro sorted ⟨⟨rfl, rights⟩, lining⟩
  obtain ⟨keyed, _⟩ := collect_findings findings rights fun _ _ isVersion => isVersion.2
  have offers := (@offerGroups_lines property session _ carried _ keyed).weaken (fun _ => id)
    (fun _ depot (lining : Lining property session
        (behind (fun _ => front) (loadsOf (findings.foldl collect .empty).values)) depot) =>
      lining.mono (behind_collect rights))
    fun _ _ lining => lining.mono (behind_collect rights)
  have commits (binned : Nat) : (do
      onFlow (Flow.commit session)
      pure binned : Act Depot Nat).Meets
      (Lining property session fun _ => front ++ (findings.map Finding.item).map Item.id)
      (fun _ => Lined fun _ => front ++ (findings.map Finding.item).map Item.id)
      fun _ => Lining property session fun _ =>
        front ++ (findings.map Finding.item).map Item.id := by
    intro stowed lining
    have lined := lining.lined.intact lining.atWork.sound
      (commit_intact lining.atWork.loose.notOwned)
    rcases Flow.commit_cases session stowed.flow with ⟨_, run⟩ | ⟨_, run⟩
    · rw [Act.bind_of_error (onFlow_eq run)]
      exact lining
    · rw [onFlow_eq run] at lined
      rw [Act.bind_of_ok (onFlow_eq run)]
      exact lined
  exact (offers.bind commits) sorted lining

/-- Taking a chunk of which no item is in a bin leaves the bins in one line with the chunk. -/
theorem takeChunk_lines (sound : before.Sound property [])
    (lined : before.Lined fun _ => front) :
    Lined (fun _ => front ++ (engine.nextChunk before).map Item.id)
      ((takeChunk engine).final before) := by
  have longer {depot : Depot} (intact : before.Intact depot) :
      depot.Lined fun _ => front ++ (engine.nextChunk before).map Item.id :=
    (lined.intact sound intact).mono fun _ => List.sublist_append_left _ _
  have binning {session : SessionId} {items : List Item} {pulled : Depot}
      (run : pullChunk engine before = (.ok (session, items), pulled))
      (drawn : before.Drawn session items pulled) :
      (binItems engine.hooks session items).Meets (· = pulled)
        (fun _ => Lined fun _ => front ++ (engine.nextChunk before).map Item.id)
        fun _ => Lining property session fun _ =>
          front ++ (engine.nextChunk before).map Item.id := by
    obtain ⟨atWork, whole⟩ := pullChunk_atWork carried sound run drawn
    rw [nextChunk_eq run]
    exact binItems_lines carried prepare drawn whole
      ⟨atWork, lined.intact sound (drawn.intact sound)⟩
  have chunked := takeChunk_chunked engine before
  unfold Act.final
  generalize takeChunk engine before = result at chunked
  cases chunked with
  | unpulled fault reached _ opened =>
      rw [opened]
      exact longer (opened_intact before)
  | exhausted session reached drawn => exact longer (drawn.intact sound)
  | failed session items pulled stopped fault run drawn bins =>
      have lining := (binning run drawn).of_error rfl bins
      exact lining.lined.intact lining.atWork.sound
        (returned_intact lining.atWork.loose.notOwned)
  | binned session items pulled reached count run drawn bins =>
      exact (binning run drawn).of_ok rfl bins

end Chunk

end Engine

end ItemBinning
