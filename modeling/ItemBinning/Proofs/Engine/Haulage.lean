import ItemBinning.Proofs.Engine.IntakeRules
import ItemBinning.Proofs.Engine.Stowage

/-!
# Stowing groups of items

Offering groups of items and queueing what finds no place stows one item after the
other.  So whatever the single steps keep holds when all items are stowed, and also
when an offer stops halfway: some of the items are stowed then, and either the
thresholds are inconsistent or the session does not hold the next item.
-/

namespace ItemBinning

namespace Depot

/-- An item and the key of the group that it is in. -/
abbrev Load := Key × Item

variable {property : Flow → Prop} {session : SessionId}

/-- The engine works on the items of a session that belongs to no bin. -/
structure AtWork (property : Flow → Prop) (session : SessionId) (depot : Depot) : Prop where
  sound : depot.Sound property [session]
  loose : depot.Loose session

/-- Some items were stowed one after the other. -/
inductive Hauled (property : Flow → Prop) (session : SessionId) :
    List Load → Depot → Depot → Prop
  | still {before after : Depot} (atWork : before.AtWork property session)
      (still : before.Still after) : Hauled property session [] before after
  | stowed {before after : Depot} {key : Key} {item : Item} {number : BinId}
      (atWork : before.AtWork property session)
      (stowed : before.Stowed session key item number after) :
      Hauled property session [(key, item)] before after
  | trans {first second third : Depot} {cargo more : List Load}
      (hauledFirst : Hauled property session cargo first second)
      (hauledSecond : Hauled property session more second third) :
      Hauled property session (cargo ++ more) first third

namespace Stowed

variable {before after : Depot} {key : Key} {item : Item} {number : BinId}

theorem thresholds (stowed : before.Stowed session key item number after) :
    after.shelf.thresholds = before.shelf.thresholds := by
  rcases stowed.place with joined | filed | enqueued
  · rw [joined.shelf]
  · rw [filed.shelf]
    rfl
  · rw [enqueued.shelf]

theorem stored_iff (stowed : before.Stowed session key item number after) (bin : BinId) :
    after.Stored bin ↔ before.Stored bin ∨ bin = number := by
  unfold Depot.Stored
  rcases stowed.place with joined | filed | enqueued
  · rw [joined.shelf, joined.ready]
    refine ⟨.inl, ?_⟩
    rintro (stored | rfl)
    · exact stored
    · exact .inl (Shelf.mem_bins_iff.2 ⟨key, joined.among⟩)
  · have onShelf : bin ∈ after.shelf.bins ↔ bin ∈ before.shelf.bins ∨ bin = number := by
      rw [filed.shelf]
      exact Shelf.mem_bins_file
    rw [onShelf, filed.ready]
    exact or_right_comm
  · rw [enqueued.shelf, enqueued.ready, List.mem_append, List.mem_singleton, or_assoc]

theorem matching (stowed : before.Stowed session key item number after) {bin : BinId}
    (isBin : bin < before.bins.next) : (after.bin bin).Matches (before.bin bin) := by
  by_cases same : bin = number
  · subst same
    rcases stowed.place with joined | filed | enqueued
    · exact joined.matching
    · exact absurd isBin (Nat.not_lt.2 filed.fresh)
    · exact absurd isBin (Nat.not_lt.2 enqueued.fresh)
  · exact (stowed.others bin isBin same).matching

/-- No other bin has the session of the bin that the item went into. -/
theorem owner_injective (stowed : before.Stowed session key item number after)
    (arranged : before.Arranged) {bin : BinId} (isBin : bin < before.bins.next)
    (same : (after.bin bin).session = (after.bin number).session) : bin = number := by
  have isNew : ∀ {bounds}, Fresh bounds number before after → False := by
    intro bounds fresh
    have old := arranged.registered.sessions bin isBin
    have new := fresh.session
    rw [← same, (stowed.matching isBin).session] at new
    exact Nat.not_lt.2 new old
  rcases stowed.place with joined | filed | enqueued
  · have old := arranged.isBin key number joined.among
    rw [(stowed.matching isBin).session, (stowed.matching old).session] at same
    exact arranged.registered.apart bin isBin number old same
  · exact (isNew filed.toFresh).elim
  · exact (isNew enqueued.toFresh).elim

end Stowed

theorem Sound.isBin {property : Flow → Prop} {inUse : List SessionId} {depot : Depot}
    (sound : depot.Sound property inUse) {bin : BinId} (stored : depot.Stored bin) :
    bin < depot.bins.next :=
  stored.elim sound.arranged.isBin_of_mem_bins (sound.queued.isBin bin)

/-- A bin that the item did not go into has the session that it had. -/
theorem Stowed.binSession_of_ne {before after : Depot} {key : Key} {item : Item}
    {number bin : BinId} (atWork : before.AtWork property session)
    (stowed : before.Stowed session key item number after) (stored : before.Stored bin)
    (differs : bin ≠ number) : after.binSession bin = before.binSession bin := by
  have isBin := atWork.sound.isBin stored
  have owner := (stowed.matching isBin).session
  have notGiver : (before.bin bin).session ≠ session :=
    fun isGiver => atWork.loose.notOwned ⟨bin, stored, isGiver⟩
  have notTaker : (before.bin bin).session ≠ (after.bin number).session := by
    rw [← owner]
    exact fun isTaker =>
      differs (stowed.owner_injective atWork.sound.arranged isBin isTaker)
  unfold binSession
  rw [owner, stowed.bystanders _ notGiver notTaker]

theorem AtWork.undisturbed {before after : Depot} (atWork : before.AtWork property session)
    (undisturbed : before.Undisturbed after)
    (sound : after.Sound property [session]) :
    after.AtWork property session where
  sound := sound
  loose := ⟨Nat.lt_of_lt_of_le atWork.loose.isOpened undisturbed.sessions,
    fun owned => atWork.loose.notOwned ((undisturbed.owned session).1 owned)⟩

theorem AtWork.loose_stowed {before after : Depot} (atWork : before.AtWork property session)
    {key : Key} {item : Item} {number : BinId}
    (stowed : before.Stowed session key item number after) : after.Loose session where
  isOpened := Nat.lt_of_lt_of_le atWork.loose.isOpened stowed.sessions
  notOwned := by
    rintro ⟨bin, stored, same⟩
    rcases (stowed.stored_iff bin).1 stored with old | rfl
    · refine atWork.loose.notOwned ⟨bin, old, ?_⟩
      rw [← same, (stowed.matching (atWork.sound.isBin old)).session]
    · exact stowed.apart same

theorem Hauled.thresholds {before after : Depot} {cargo : List Load}
    (hauled : Hauled property session cargo before after) :
    after.shelf.thresholds = before.shelf.thresholds := by
  induction hauled with
  | still _ still => rw [still.shelf]
  | stowed _ stowed => exact stowed.thresholds
  | trans _ _ first second => exact second.trans first

/-- The engine is at work, and since a start it stowed certain loads in some order. -/
structure Moved (property : Flow → Prop) (session : SessionId) (start : Depot)
    (loads : List Load) (depot : Depot) : Prop where
  atWork : depot.AtWork property session
  hauled : ∃ cargo, Hauled property session cargo start depot ∧ cargo.Perm loads

/-- The engine stopped before it stowed all loads: the thresholds are inconsistent, or
the session does not hold the item of a further load. -/
def Stopped (property : Flow → Prop) (session : SessionId) (start : Depot)
    (all : List Load) (depot : Depot) : Prop :=
  ∃ loads, Moved property session start loads depot ∧ loads.Subperm all ∧
    (start.shelf.thresholds.inconsistencies ≠ .ok [] ∨
      ∃ next : Load, (next :: loads).Subperm all ∧
        next.2.id ∉ (depot.flow.session session).ids)

variable {start depot : Depot} {loads : List Load}

theorem Moved.refl (atWork : start.AtWork property session) :
    Moved property session start [] start :=
  ⟨atWork, [], .still atWork (.refl start), .refl []⟩

theorem Moved.still {after : Depot} (moved : Moved property session start loads depot)
    (still : depot.Still after) (sound : after.Sound property [session]) :
    Moved property session start loads after := by
  obtain ⟨cargo, hauled, perm⟩ := moved.hauled
  refine ⟨⟨sound, moved.atWork.loose.still moved.atWork.sound.arranged
    moved.atWork.sound.queued still⟩, cargo ++ [], hauled.trans (.still moved.atWork still), ?_⟩
  rw [List.append_nil]
  exact perm

theorem Moved.stowed {after : Depot} (moved : Moved property session start loads depot)
    {key : Key} {item : Item} {number : BinId}
    (stowed : depot.Stowed session key item number after)
    (sound : after.Sound property [session]) :
    Moved property session start (loads ++ [(key, item)]) after := by
  obtain ⟨cargo, hauled, perm⟩ := moved.hauled
  exact ⟨⟨sound, moved.atWork.loose_stowed stowed⟩, cargo ++ [(key, item)],
    hauled.trans (.stowed moved.atWork stowed), perm.append_right _⟩

theorem Moved.perm (moved : Moved property session start loads depot)
    {others : List Load} (perm : loads.Perm others) :
    Moved property session start others depot := by
  obtain ⟨cargo, hauled, isCargo⟩ := moved.hauled
  exact ⟨moved.atWork, cargo, hauled, isCargo.trans perm⟩

theorem Moved.thresholds (moved : Moved property session start loads depot) :
    depot.shelf.thresholds = start.shelf.thresholds := by
  obtain ⟨_, hauled, _⟩ := moved.hauled
  exact hauled.thresholds

theorem Stopped.mono {all more : List Load} (within : all.Subperm more)
    (stopped : Stopped property session start all depot) :
    Stopped property session start more depot := by
  obtain ⟨loads, moved, some, inconsistent | ⟨next, further, absent⟩⟩ := stopped
  · exact ⟨loads, moved, some.trans within, .inl inconsistent⟩
  · exact ⟨loads, moved, some.trans within, .inr ⟨next, further.trans within, absent⟩⟩

private theorem next_subperm (next : Load) (loads more : List Load) :
    (next :: loads).Subperm (loads ++ next :: more) :=
  ((List.sublist_append_left loads more).cons_cons next).subperm.trans
    List.perm_middle.symm.subperm

theorem Moved.stopped (moved : Moved property session start loads depot) {next : Load}
    (absent : next.2.id ∉ (depot.flow.session session).ids) {all : List Load}
    (within : (next :: loads).Subperm all) : Stopped property session start all depot :=
  ⟨loads, moved, (List.sublist_cons_self next loads).subperm.trans within,
    .inr ⟨next, within, absent⟩⟩

end Depot

open Depot

variable {property : Flow → Prop} {session : SessionId} {start : Depot} {loads : List Load}
  {group : Value} {key : Key}

namespace Shelf

theorem place_moves (carried : Flow.Carried property) (isKey : group.key? = some key)
    {item : Item} (whole : item.HasWholeSize) :
    (place group key item session).Meets (Moved property session start loads)
      (fun placed => Moved property session start
        (if placed then loads ++ [(key, item)] else loads))
      fun _ depot => Moved property session start loads depot ∧
        item.id ∉ (depot.flow.session session).ids := by
  intro depot moved
  have sound : (place group key item session depot).2.Sound
      property [session] :=
    (place_sound carried isKey whole session).final
      moved.atWork.sound
  have placing := place_placing isKey moved.atWork.sound carried moved.atWork.loose whole
  generalize place group key item session depot = run at sound placing
  cases placing with
  | unplaced still => exact moved.still still sound
  | absent still absent => exact ⟨moved.still still sound, still.session session ▸ absent⟩
  | stowed stowed => exact moved.stowed stowed sound

theorem placeAll_moves (carried : Flow.Carried property) (isKey : group.key? = some key)
    (items : List Item) (whole : ∀ item ∈ items, item.HasWholeSize) :
    (placeAll group key session items).Meets (Moved property session start loads)
      (fun unbound depot => ∃ placed, (unbound ++ placed).Perm items ∧
        Moved property session start (loads ++ placed.map fun item => (key, item)) depot)
      fun _ => Stopped property session start
        (loads ++ items.map fun item => (key, item)) := by
  induction items generalizing loads with
  | nil =>
      refine Act.Meets.pure fun depot moved => ⟨[], .refl [], ?_⟩
      rw [List.map_nil, List.append_nil]
      exact moved
  | cons item rest ih =>
      have wholeRest : ∀ other ∈ rest, other.HasWholeSize :=
        fun other later => whole other (List.mem_cons_of_mem _ later)
      have within := next_subperm (key, item) loads (rest.map fun item => (key, item))
      have first := (@place_moves property session start loads _ _ carried isKey item
        (whole item (by simp))).weaken (fun _ => id) (fun _ _ => id) fun _ depot holds =>
          holds.1.stopped holds.2 within
      refine first.bind fun placed => ?_
      cases placed with
      | false =>
          have later := @ih loads wholeRest
          refine (later.weaken (fun _ => id) (fun _ _ => id) fun _ _ stopped =>
            stopped.mono ?_).bind fun unbound => Act.Meets.pure ?_
          · exact (((List.sublist_cons_self item rest).map _).append_left _).subperm
          · rintro depot ⟨placed, perm, moved⟩
            exact ⟨placed, perm.cons item, moved⟩
      | true =>
          have later := @ih (loads ++ [(key, item)]) wholeRest
          refine (later.weaken (fun _ => id) (fun _ _ => id) fun _ _ stopped =>
            stopped.mono ?_).bind fun unbound => Act.Meets.pure ?_
          · rw [List.append_assoc]
            exact List.Subperm.refl _
          · rintro depot ⟨placed, perm, moved⟩
            rw [List.append_assoc] at moved
            exact ⟨item :: placed, List.perm_middle.trans (perm.cons item), moved⟩

theorem offer_moves (carried : Flow.Carried property) (isKey : group.key? = some key)
    (items : List Item) (whole : ∀ item ∈ items, item.HasWholeSize) :
    (offer group items session).Meets (Moved property session start loads)
      (fun unbound depot => ∃ placed, (unbound ++ placed).Perm items ∧
        Moved property session start (loads ++ placed.map fun item => (key, item)) depot)
      fun _ => Stopped property session start
        (loads ++ items.map fun item => (key, item)) := by
  have stops : ∀ depot, Moved property session start loads depot →
      depot.shelf.thresholds.inconsistencies ≠ .ok [] →
        Stopped property session start (loads ++ items.map fun item => (key, item))
          depot := by
    intro depot moved inconsistent
    rw [moved.thresholds] at inconsistent
    exact ⟨loads, moved, (List.sublist_append_left _ _).subperm, .inl inconsistent⟩
  have asked : (askShelf (·.thresholds.inconsistencies)).Meets
      (Moved property session start loads)
      (fun issues depot => Moved property session start loads depot ∧
        depot.shelf.thresholds.inconsistencies = .ok issues)
      fun _ => Stopped property session start
        (loads ++ items.map fun item => (key, item)) := by
    apply Act.Meets.look
    · intro depot issues moved answer
      exact ⟨moved, answer⟩
    · intro depot fault moved answer
      refine stops depot moved fun consistent => ?_
      have answer : depot.shelf.thresholds.inconsistencies = .error fault := answer
      rw [consistent] at answer
      cases answer
  refine asked.bind fun issues => ?_
  split
  · rw [isKey]
    exact (placeAll_moves carried isKey items whole).weaken (fun _ => And.left)
      (fun _ _ => id) fun _ _ => id
  · rename_i some
    refine Act.Meets.fail fun depot holds => stops depot holds.1 ?_
    rw [holds.2]
    rintro ⟨⟩
    exact some rfl

end Shelf

namespace Engine

theorem queueUnbound_moves (carried : Flow.Carried property) (isKey : group.key? = some key)
    {item : Item} (whole : item.HasWholeSize) :
    (queueUnbound group session item).Meets (Moved property session start loads)
      (fun _ => Moved property session start (loads ++ [(key, item)]))
      fun _ depot => Moved property session start loads depot ∧
        item.id ∉ (depot.flow.session session).ids := by
  intro depot moved
  have sound : (queueUnbound group session item depot).2.Sound
      property [session] :=
    (queueUnbound_sound carried group session whole).final
      moved.atWork.sound
  rcases queueUnbound_stowing isKey moved.atWork.sound carried moved.atWork.loose whole with
    ⟨fault, reached, run, still, absent⟩ | ⟨number, reached, run, stowed⟩ <;>
    rw [run] at sound ⊢
  · exact ⟨moved.still still sound, still.session session ▸ absent⟩
  · exact moved.stowed stowed sound

theorem queueAll_moves (carried : Flow.Carried property) (isKey : group.key? = some key)
    (items : List Item) (whole : ∀ item ∈ items, item.HasWholeSize) :
    (Act.forEach items (queueUnbound group session)).Meets
      (Moved property session start loads)
      (fun _ => Moved property session start
        (loads ++ items.map fun item => (key, item)))
      fun _ => Stopped property session start
        (loads ++ items.map fun item => (key, item)) := by
  induction items generalizing loads with
  | nil =>
      refine Act.Meets.pure fun depot moved => ?_
      rw [List.map_nil, List.append_nil]
      exact moved
  | cons item rest ih =>
      have within := next_subperm (key, item) loads (rest.map fun item => (key, item))
      have first := (@queueUnbound_moves property session start loads _ _ carried isKey
        item (whole item (by simp))).weaken (fun _ => id) (fun _ _ => id)
          fun _ depot holds => holds.1.stopped holds.2 within
      have later := @ih (loads ++ [(key, item)])
        fun other later => whole other (List.mem_cons_of_mem _ later)
      rw [List.append_assoc] at later
      exact first.bind fun _ => later

/-- The loads that groups of items are. -/
def loadsOf (groups : List (Value × List Item)) : List Load :=
  groups.flatMap fun entry => entry.2.map fun item => (entry.1.key?.getD .nothing, item)

/-- Every group is one of a key, and its items have whole sizes. -/
def Keyed (groups : List (Value × List Item)) : Prop :=
  ∀ entry ∈ groups, (∃ key, entry.1.key? = some key) ∧ ∀ item ∈ entry.2, item.HasWholeSize

/-- Offering groups stows all of their items, or stops. -/
theorem offerGroups_moves (carried : Flow.Carried property)
    (groups : List (Value × List Item)) (keyed : Keyed groups) :
    (offerGroups session groups).Meets (Moved property session start loads)
      (fun binned depot => binned = (loadsOf groups).length ∧
        Moved property session start (loads ++ loadsOf groups) depot)
      fun _ => Stopped property session start (loads ++ loadsOf groups) := by
  induction groups generalizing loads with
  | nil =>
      refine Act.Meets.pure fun depot moved => ⟨rfl, ?_⟩
      rw [loadsOf, List.flatMap_nil, List.append_nil]
      exact moved
  | cons entry rest ih =>
      obtain ⟨group, items⟩ := entry
      obtain ⟨⟨key, isKey⟩, whole⟩ := keyed (group, items) (by simp)
      have all : loadsOf ((group, items) :: rest) =
          (items.map fun item => (key, item)) ++ loadsOf rest := by
        rw [loadsOf, List.flatMap_cons, isKey]
        rfl
      have within : (loads ++ items.map fun item => (key, item)).Subperm
          (loads ++ loadsOf ((group, items) :: rest)) := by
        rw [all, ← List.append_assoc]
        exact (List.sublist_append_left _ _).subperm
      have offered := (@Shelf.offer_moves property session start loads _ _ carried isKey
        items whole).weaken (fun _ => id) (fun _ _ => id) fun _ _ => Stopped.mono within
      refine offered.bind fun unbound => ?_
      intro depot holds
      obtain ⟨placed, perm, moved⟩ := holds
      have found : ((loads ++ placed.map fun item => (key, item)) ++
          unbound.map fun item => (key, item)).Perm
            (loads ++ items.map fun item => (key, item)) := by
        rw [List.append_assoc, ← List.map_append]
        exact ((List.perm_append_comm.trans perm).map _).append_left loads
      have queued := (@queueAll_moves property session start
        (loads ++ placed.map fun item => (key, item)) _ _ carried isKey unbound
        fun item member => whole item (perm.subset (List.mem_append_left _ member))).weaken
          (fun _ => id) (fun _ _ moved => moved.perm found)
          fun _ _ stopped => stopped.mono (found.subperm.trans within)
      have counted : (count fun counters =>
          { counters with
            itemsBinned := counters.itemsBinned + items.length
            unboundItems := counters.unboundItems + unbound.length }).Meets
          (Moved property session start (loads ++ items.map fun item => (key, item)))
          (fun _ => Moved property session start
            (loads ++ items.map fun item => (key, item)))
          fun _ => Stopped property session start
            (loads ++ loadsOf ((group, items) :: rest)) := by
        apply Act.Meets.modify
        intro depot moved
        exact moved.still ⟨rfl, rfl, fun _ => rfl, Nat.le_refl _, rfl, rfl, Nat.le_refl _,
          fun _ _ => .refl _⟩ (moved.atWork.sound.of_same rfl rfl rfl rfl rfl)
      have later := @ih (loads ++ items.map fun item => (key, item))
        fun entry member => keyed entry (List.mem_cons_of_mem _ member)
      rw [List.append_assoc, ← all] at later
      refine (queued.bind fun _ => counted.bind fun _ => later.bind fun more =>
        Act.Meets.pure ?_) depot moved
      rintro depot ⟨rfl, moved⟩
      refine ⟨?_, moved⟩
      rw [all, List.length_append, List.length_map]

end Engine

end ItemBinning
