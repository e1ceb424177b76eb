import ItemBinning.Proofs.Bin.Packing
import ItemBinning.Proofs.Engine.Haulage

/-!
# Dealing items out to groups

While there is room on the shelf, offering items to a group packs the bins of that group
and leaves the bins of other groups and the queue as they are, and queueing an item that
found no place leaves all open bins as they are.  So what becomes of a group depends on
the items that are offered to it and their order only, and offers to different groups
may be made in any order.
-/

namespace ItemBinning

namespace Depot

/-- The open bins of a group in order, as far as offers to them matter. -/
def plainBins (depot : Depot) (key : Key) : List Bin :=
  (depot.shelf.binsOf key).map fun bin => (depot.bin bin).plain

/-- The items in the queued bins of a group, in order. -/
def loners (depot : Depot) (key : Key) : List Item :=
  depot.ready.flatMap fun bin =>
    if (depot.bin bin).group.key? = some key then (depot.bin bin).contents else []

/-- What the items of a group are packed into. -/
def packing (depot : Depot) (key : Key) : Packing where
  bins := depot.plainBins key
  unbound := depot.loners key

/-- Some more bins may be opened. -/
def RoomFor (depot : Depot) (count : Nat) : Prop :=
  ∃ most : Int, depot.shelf.thresholds.maxBinCount = .int most ∧
    depot.shelf.binCount + count ≤ most

theorem RoomFor.mono {before after : Depot} {count fewer : Nat} (room : before.RoomFor count)
    (thresholds : after.shelf.thresholds = before.shelf.thresholds)
    (binCount : after.shelf.binCount + fewer ≤ before.shelf.binCount + count) :
    after.RoomFor fewer := by
  obtain ⟨most, isMost, within⟩ := room
  exact ⟨most, thresholds ▸ isMost, by omega⟩

theorem RoomFor.isAtCapacity {depot : Depot} (room : depot.RoomFor 1) :
    depot.shelf.isAtCapacity = .ok false := by
  obtain ⟨most, isMost, within⟩ := room
  rw [Shelf.isAtCapacity, isMost, Value.isAtLeast_int]
  exact congrArg Except.ok (decide_eq_false (by omega))

/-- Queued bins and what is in them stay. -/
structure QueueRests (before after : Depot) : Prop where
  ready : after.ready = before.ready
  bins : ∀ bin ∈ before.ready, after.bin bin = before.bin bin

theorem QueueRests.trans {first second third : Depot} (restsFirst : first.QueueRests second)
    (restsSecond : second.QueueRests third) : first.QueueRests third where
  ready := restsSecond.ready.trans restsFirst.ready
  bins bin member :=
    (restsSecond.bins bin (restsFirst.ready.symm ▸ member)).trans (restsFirst.bins bin member)

theorem QueueRests.loners {before after : Depot} (rests : before.QueueRests after) (key : Key) :
    after.loners key = before.loners key := by
  unfold Depot.loners
  rw [rests.ready]
  exact List.flatMap_congr fun bin member => by rw [rests.bins bin member]

theorem plainBins_congr {before after : Depot} {key : Key}
    (binsOf : after.shelf.binsOf key = before.shelf.binsOf key)
    (bins : ∀ bin ∈ before.shelf.binsOf key, after.bin bin = before.bin bin) :
    after.plainBins key = before.plainBins key := by
  unfold plainBins
  rw [binsOf]
  exact List.map_congr_left fun bin member => congrArg Bin.plain (bins bin member)

/-- An item was offered to a bin. -/
structure Tried (number : BinId) (item : Item) (before : Depot) (taken : Bool)
    (after : Depot) : Prop where
  offered : (before.bin number).offered item = (after.bin number, taken)
  others : ∀ bin ≠ number, after.bin bin = before.bin bin
  shelf : after.shelf = before.shelf
  ready : after.ready = before.ready

/-- An item was offered to bins in order until one of them took it. -/
structure Fitted (bins : List BinId) (item : Item) (before : Depot) (found : Bool)
    (after : Depot) : Prop where
  fitted : fitFirst item (bins.map before.bin) = (bins.map after.bin, found)
  others : ∀ bin ∉ bins, after.bin bin = before.bin bin
  shelf : after.shelf = before.shelf
  ready : after.ready = before.ready

/-- Nothing changed but the bins of a group, to which a bin was added at most. -/
structure Confined (key : Key) (before after : Depot) : Prop where
  binsOf : ∀ other ≠ key, after.shelf.binsOf other = before.shelf.binsOf other
  others : ∀ bin < before.bins.next, bin ∉ before.shelf.binsOf key →
    after.bin bin = before.bin bin
  ready : after.ready = before.ready
  thresholds : after.shelf.thresholds = before.shelf.thresholds
  binCount : after.shelf.binCount ≤ before.shelf.binCount + 1

namespace Confined

variable {key : Key} {before after : Depot}

theorem plainBins (confined : Confined key before after) (arranged : before.Arranged)
    {other : Key} (apart : other ≠ key) : after.plainBins other = before.plainBins other := by
  refine plainBins_congr (confined.binsOf other apart) fun bin member => ?_
  refine confined.others bin (arranged.isBin other bin member) fun among => apart ?_
  exact arranged.group_unique member among

theorem queueRests {property : Flow → Prop} {inUse : List SessionId}
    (confined : Confined key before after) (sound : before.Sound property inUse) :
    before.QueueRests after where
  ready := confined.ready
  bins bin member := by
    refine confined.others bin (sound.queued.isBin bin member) fun among => ?_
    refine sound.queued.not_mem_bins sound.arranged member ?_
    exact Shelf.mem_bins_iff.2 ⟨key, among⟩

end Confined

/-- An item was put into a new bin of a group, or does not fit into one. -/
structure Opened (key : Key) (item : Item) (before : Depot) (opened : Bool) (after : Depot) :
    Prop extends Confined key before after where
  fits : (Bin.offered { bounds := before.shelf.thresholds.bounds } item).2 = opened
  packs : after.plainBins key = if opened then
      before.plainBins key ++ [(Bin.offered { bounds := before.shelf.thresholds.bounds } item).1]
    else before.plainBins key

/-- An item was placed in a group, or has no place there. -/
structure Assigned (key : Key) (item : Item) (before : Depot) (placed : Bool)
    (after : Depot) : Prop extends Confined key before after where
  stowed : Packing.stow before.shelf.thresholds.bounds item (before.plainBins key) =
    (after.plainBins key, placed)

theorem offerTo_tries {depot : Depot} {item : Item} {source : SessionId} (number : BinId) :
    (offerTo number item source).Meets (· = depot) (Tried number item depot)
      fun _ _ => True := by
  rintro start rfl
  have outcome := offerTo_outcome number item source start
  have others (bin : Bin) (flow : Flow) (other : BinId) (apart : other ≠ number) :
      Depot.bin { start.setBin number bin with flow } other = start.bin other := by
    change (start.setBin number bin).bin other = _
    rw [bin_setBin, if_neg apart]
  rcases run : offerTo number item source start with ⟨answer, reached⟩
  rw [run] at outcome
  cases outcome with
  | refused | kept | unweighed => trivial
  | turnedDown isOpen noRoom =>
      refine ⟨?_, others _ start.flow, rfl, rfl⟩
      rw [bin_setBin_self, Bin.offered_of_turnsDown noRoom]
  | taken size flow isOpen room migrated weighed =>
      refine ⟨?_, others _ flow, rfl, rfl⟩
      change _ = ((start.setBin number _).bin number, true)
      rw [bin_setBin_self, Bin.offered_of_room room weighed]

end Depot

namespace Shelf

open Depot

variable {depot : Depot} {item : Item} {source : SessionId} {group : Value} {key : Key}

/-- An item goes to the first bin that takes it. -/
theorem offerToFirst_fits (bins : List BinId) (distinct : bins.Nodup) :
    (offerToFirst item source bins).Meets (· = depot) (Fitted bins item depot)
      fun _ _ => True := by
  induction bins generalizing depot with
  | nil =>
      refine Act.Meets.pure fun reached isReached => ?_
      rw [isReached]
      exact ⟨rfl, fun _ _ => rfl, rfl, rfl⟩
  | cons bin rest ih =>
      obtain ⟨fresh, distinctRest⟩ := List.nodup_cons.1 distinct
      refine (offerTo_tries bin).bind fun taken => ?_
      rintro between ⟨offered, others, shelf, ready⟩
      have waiting : rest.map between.bin = rest.map depot.bin := by
        refine List.map_congr_left fun other member => others other ?_
        rintro rfl
        exact fresh member
      cases taken with
      | true =>
          refine ⟨?_, fun other absent => others other ?_, shelf, ready⟩
          · rw [List.map_cons, List.map_cons, fitFirst, offered, waiting]
            rfl
          · exact List.ne_of_not_mem_cons absent
      | false =>
          refine (@ih between distinctRest).weaken (fun _ => id) (fun found reached holds => ?_)
            (fun _ _ => id) between rfl
          obtain ⟨fitted, othersRest, shelfRest, readyRest⟩ := holds
          refine ⟨?_, fun other absent => ?_, shelfRest.trans shelf, readyRest.trans ready⟩
          · rw [waiting] at fitted
            rw [List.map_cons, List.map_cons, fitFirst, offered, fitted, othersRest bin fresh]
            rfl
          · rw [List.mem_cons, not_or] at absent
            rw [othersRest other absent.2, others other absent.1]

/-- A bin is opened for an item that fits into a new one. -/
theorem openBinFor_opens (arranged : depot.Arranged) :
    (openBinFor group key item source).Meets (· = depot) (Opened key item depot)
      fun _ _ => True := by
  rintro start rfl
  rw [openBinFor_apply]
  obtain ⟨bounds, isBounds⟩ : ∃ bounds, bounds = start.shelf.thresholds.bounds := ⟨_, rfl⟩
  rw [← isBounds]
  refine (offerTo_tries start.bins.next).bind (fun taken => ?_) _ rfl
  rintro reached ⟨offered, others, shelf, ready⟩
  have old (bin : BinId) (isBin : bin < start.bins.next) : reached.bin bin = start.bin bin := by
    rw [others bin (Nat.ne_of_lt isBin), bin_withBin_of_lt _ _ _ isBin]
  have isNew : Bin.offered { bounds } item = ((reached.bin start.bins.next).plain, taken) := by
    have plain := Bin.offered_plain ((start.withBin bounds group).bin start.bins.next) item
    rw [offered, bin_withBin_next] at plain
    exact plain
  have before : start.plainBins key = (start.shelf.binsOf key).map fun bin =>
      (reached.bin bin).plain :=
    List.map_congr_left fun bin member => congrArg Bin.plain
      (old bin (arranged.isBin key bin member)).symm
  have shelf : reached.shelf = start.shelf := shelf
  cases taken with
  | false =>
      refine ⟨⟨fun _ _ => by rw [shelf], fun bin isBin _ => old bin isBin, ready,
        by rw [shelf], by rw [shelf]; omega⟩, ?_, ?_⟩
      · rw [← isBounds, isNew]
      · rw [before, plainBins, shelf]
        rfl
  | true =>
      have binsOf (other : Key) : (reached.shelf.setGroup key
          (reached.shelf.binsOf key ++ [start.bins.next])).binsOf other =
            if other = key then start.shelf.binsOf key ++ [start.bins.next]
            else start.shelf.binsOf other := by
        rw [shelf]
        exact Shelf.binsOf_setGroup _ _ _ _
      refine ⟨⟨fun other apart => ?_, fun bin isBin _ => old bin isBin, ready, ?_, ?_⟩, ?_, ?_⟩
      · exact (binsOf other).trans (if_neg apart)
      · change reached.shelf.thresholds = start.shelf.thresholds
        rw [shelf]
      · change reached.shelf.binCount + 1 ≤ start.shelf.binCount + 1
        rw [shelf]
      · rw [← isBounds, isNew]
      · rw [← isBounds, isNew, before]
        change ((reached.shelf.setGroup key _).binsOf key).map
          (fun bin => (reached.bin bin).plain) = _
        rw [binsOf, if_pos rfl, List.map_append]
        rfl

/-- While there is room for a bin, an item is packed into a bin of its group. -/
theorem place_places (arranged : depot.Arranged) (room : depot.RoomFor 1) :
    (place group key item source).Meets (· = depot) (Assigned key item depot)
      fun _ _ => True := by
  rintro start rfl
  unfold place
  rw [Act.read_bind]
  refine ((offerToFirst_fits (start.shelf.binsOf key) (arranged.nodup_binsOf key)).keeping
    (offerToFirst_steady item source _ (arranged.isBin key)) (.refl start)).bind
      (fun found => ?_) _ rfl
  rintro between ⟨⟨fitted, others, shelf, ready⟩, steady⟩
  have confined : Confined key start between :=
    ⟨fun _ _ => by rw [shelf], fun bin _ absent => others bin absent, ready,
      by rw [shelf], by rw [shelf]; omega⟩
  have packed : between.plainBins key = (fitFirst item (start.plainBins key)).1 ∧
      (fitFirst item (start.plainBins key)).2 = found := by
    have plain := fitFirst_plain item ((start.shelf.binsOf key).map start.bin)
    rw [fitted, List.map_map, List.map_map] at plain
    unfold Depot.plainBins
    rw [shelf]
    exact ⟨congrArg Prod.fst plain.symm, congrArg Prod.snd plain⟩
  cases found with
  | true =>
      refine ⟨confined, ?_⟩
      rw [Packing.stow_of_found packed.2]
      exact Prod.ext packed.1.symm packed.2
  | false =>
      have full : askShelf Shelf.isAtCapacity between = (.ok false, between) := by
        have full := room.isAtCapacity
        rw [← shelf] at full
        exact congrArg (·, between) full
      have arrangedThen : between.Arranged :=
        arranged.rests steady.undisturbed.toShelfRests (shelf ▸ arranged.thresholds)
      rw [if_neg (by simp), Act.bind_of_ok full, if_neg (by simp)]
      refine (openBinFor_opens arrangedThen).weaken (fun _ => id) (fun opened reached holds => ?_)
        (fun _ _ => id) between rfl
      obtain ⟨later, fits, packs⟩ := holds
      rw [shelf] at fits packs
      refine ⟨⟨fun other apart => ?_, fun bin isBin absent => ?_, later.ready.trans ready,
        ?_, ?_⟩, ?_⟩
      · rw [later.binsOf other apart, shelf]
      · rw [later.others bin (steady.next ▸ isBin) (shelf ▸ absent), others bin absent]
      · rw [later.thresholds, shelf]
      · exact shelf ▸ later.binCount
      · rw [Packing.stow_of_not_found packed.2, fits, packs, packed.1]

end Shelf

namespace Depot

/-- Items were packed into the bins of a group, and some of them have no place there. -/
structure AssignedAll (key : Key) (items : List Item) (before : Depot) (unbound : List Item)
    (after : Depot) : Prop where
  packs : Packing.addAll before.shelf.thresholds.bounds { bins := before.plainBins key } items =
    { bins := after.plainBins key, unbound }
  elsewhere : ∀ other ≠ key, after.plainBins other = before.plainBins other
  queue : before.QueueRests after
  thresholds : after.shelf.thresholds = before.shelf.thresholds
  binCount : after.shelf.binCount ≤ before.shelf.binCount + items.length

variable {property : Flow → Prop} {inUse : List SessionId} {key : Key} {item : Item}
  {before between after : Depot} {placed : Bool} {rest unbound : List Item}

/-- An item is packed, and then the others are. -/
theorem Assigned.cons (placing : Assigned key item before placed between)
    (sound : before.Sound property inUse) (later : AssignedAll key rest between unbound after) :
    AssignedAll key (item :: rest) before (if placed then unbound else item :: unbound) after where
  packs := by
    have packs := later.packs
    rw [placing.thresholds] at packs
    rw [Packing.addAll_cons, Packing.add, placing.stowed, Packing.addAll_unbound, packs]
    cases placed <;> rfl
  elsewhere other apart :=
    (later.elsewhere other apart).trans (placing.plainBins sound.arranged apart)
  queue := (placing.queueRests sound).trans later.queue
  thresholds := later.thresholds.trans placing.thresholds
  binCount := by
    have first := placing.binCount
    have others := later.binCount
    rw [List.length_cons]
    omega

end Depot

namespace Shelf

open Depot

variable {property : Flow → Prop} {inUse : List SessionId} {depot : Depot}
  {source : SessionId} {group : Value} {key : Key}

/-- While there is room for as many bins, items are packed into the bins of their group. -/
theorem placeAll_packs (carried : Flow.Carried property) (isKey : group.key? = some key)
    (items : List Item) (whole : ∀ item ∈ items, item.HasWholeSize)
    (sound : depot.Sound property inUse) (room : depot.RoomFor items.length) :
    (placeAll group key source items).Meets (· = depot) (AssignedAll key items depot)
      fun _ _ => True := by
  induction items generalizing depot with
  | nil =>
      refine Act.Meets.pure fun reached isReached => ?_
      rw [isReached]
      exact ⟨rfl, fun _ _ => rfl, ⟨rfl, fun _ _ => rfl⟩, rfl, Nat.le_refl _⟩
  | cons item rest ih =>
      rw [List.length_cons] at room
      have wholeRest := fun other member => whole other (List.mem_cons_of_mem item member)
      have placing : (place group key item source).Meets (· = depot) (Assigned key item depot)
          fun _ _ => True :=
        place_places sound.arranged (room.mono rfl (by omega))
      refine (placing.keeping (place_sound carried isKey (whole item (by simp)) source)
        sound).bind fun placed => ?_
      rintro between ⟨placed, soundThen⟩
      have roomThen : between.RoomFor rest.length :=
        room.mono placed.thresholds (by have := placed.binCount; omega)
      refine (ih wholeRest soundThen roomThen).bind (fun unbound => Act.Meets.pure ?_) between rfl
      exact fun reached later => placed.cons sound later

theorem offer_assigns (carried : Flow.Carried property) (isKey : group.key? = some key)
    (items : List Item) (whole : ∀ item ∈ items, item.HasWholeSize)
    (sound : depot.Sound property inUse) (room : depot.RoomFor items.length) :
    (offer group items source).Meets (· = depot) (AssignedAll key items depot)
      fun _ _ => True := by
  refine Act.Meets.bind (Act.Meets.look (fun _ _ same _ => same) fun _ _ _ _ => trivial)
    fun issues => ?_
  split
  · rw [isKey]
    exact placeAll_packs carried isKey items whole sound room
  · exact Act.Meets.fail fun _ _ => trivial

end Shelf

namespace Depot

/-- Every queued bin is one of a key. -/
def QueueKeyed (depot : Depot) : Prop :=
  ∀ bin ∈ depot.ready, ∃ key, (depot.bin bin).group.key? = some key

/-- An item was queued in a bin of its own. -/
structure QueuedOne (key : Key) (item : Item) (before after : Depot) : Prop where
  shelf : after.shelf = before.shelf
  others : ∀ bin < before.bins.next, after.bin bin = before.bin bin
  queue : ∃ bin, after.ready = before.ready ++ [bin] ∧
    (after.bin bin).contents = [item] ∧ (after.bin bin).group.key? = some key

/-- Items of a group were queued in bins of their own. -/
structure QueuedAll (key : Key) (items : List Item) (before after : Depot) : Prop where
  shelf : after.shelf = before.shelf
  plainBins : ∀ other, after.plainBins other = before.plainBins other
  loners : ∀ other, after.loners other =
    before.loners other ++ if other = key then items else []
  keyed : before.QueueKeyed → after.QueueKeyed

variable {property : Flow → Prop} {inUse : List SessionId} {key : Key} {item : Item}
  {items more : List Item} {before between after : Depot}

theorem QueuedAll.refl (key : Key) (depot : Depot) : QueuedAll key [] depot depot where
  shelf := rfl
  plainBins _ := rfl
  loners other := by
    rw [ite_self, List.append_nil]
  keyed := id

theorem QueuedAll.trans (first : QueuedAll key items before between)
    (second : QueuedAll key more between after) :
    QueuedAll key (items ++ more) before after where
  shelf := second.shelf.trans first.shelf
  plainBins other := (second.plainBins other).trans (first.plainBins other)
  loners other := by
    rw [second.loners, first.loners, List.append_assoc]
    split <;> rfl
  keyed := second.keyed ∘ first.keyed

theorem QueuedOne.all (queued : QueuedOne key item before after)
    (sound : before.Sound property inUse) : QueuedAll key [item] before after := by
  obtain ⟨shelf, others, bin, ready, contents, isKey⟩ := queued
  constructor
  case shelf => exact shelf
  case plainBins =>
    intro other
    refine plainBins_congr (by rw [shelf]) fun bin member => others bin ?_
    exact sound.arranged.isBin other bin member
  case loners =>
    intro other
    have before : (before.ready.flatMap fun bin =>
        if (after.bin bin).group.key? = some other then (after.bin bin).contents else []) =
          before.loners other :=
      List.flatMap_congr fun bin member => by rw [others bin (sound.queued.isBin bin member)]
    unfold Depot.loners at before ⊢
    rw [ready, List.flatMap_append, before, List.flatMap_singleton, isKey, contents]
    simp only [Option.some.injEq, eq_comm]
  case keyed =>
    intro keyed other member
    rw [ready, List.mem_append, List.mem_singleton] at member
    rcases member with old | rfl
    · rw [others other (sound.queued.isBin other old)]
      exact keyed other old
    · exact ⟨key, isKey⟩

end Depot

namespace Engine

open Depot

variable {property : Flow → Prop} {inUse : List SessionId} {depot : Depot}
  {session : SessionId} {group : Value} {key : Key}

theorem queueUnbound_queues (isKey : group.key? = some key) {item : Item}
    (whole : item.HasWholeSize) :
    (queueUnbound group session item).Meets (· = depot) (fun _ => QueuedOne key item depot)
      fun _ _ => True := by
  rintro start rfl
  rw [queueUnbound_apply]
  have isBin := lt_next_withBin start Bounds.relaxed group
  refine ((offerTo_tries start.bins.next).keeping (offerTo_steady isBin item session)
    (.refl _)).bind (fun taken => ?_) _ rfl
  rintro reached ⟨⟨offered, others, shelf, ready⟩, steady⟩
  -- a bin with relaxed bounds takes every item
  have contents : (reached.bin start.bins.next).contents = [item] := by
    obtain ⟨fresh, isFresh⟩ : ∃ fresh, fresh =
        (start.withBin Bounds.relaxed group).bin start.bins.next := ⟨_, rfl⟩
    rw [bin_withBin_next] at isFresh
    obtain ⟨size, isSize⟩ := Bin.exists_sizeWith (isFresh ▸ rfl : fresh.size = .int 0) whole
    have room := Bin.turnsDown_relaxed (isFresh ▸ rfl : fresh.bounds = Bounds.relaxed) item
    rw [bin_withBin_next, ← isFresh, Bin.offered_of_room room isSize] at offered
    rw [isFresh] at offered
    exact (congrArg (fun result => result.1.contents) offered).symm
  obtain ⟨queued, isQueued⟩ : ∃ queued, queued = { reached.setBin start.bins.next
      { reached.bin start.bins.next with state := .ready, reason := some .unbound } with
        ready := reached.ready ++ [start.bins.next] } := ⟨_, rfl⟩
  have inQueue : queued.bin start.bins.next =
      { reached.bin start.bins.next with state := .ready, reason := some .unbound } := by
    rw [isQueued]
    exact bin_setBin_self reached _ _
  have enqueued : enqueue [start.bins.next] (reached.setBin start.bins.next
      { reached.bin start.bins.next with state := .ready, reason := some .unbound }) =
        (.ok (), queued) := by
    rw [isQueued]
    rfl
  rw [Act.bind_of_ok (markReady_eq .unbound steady.opened_withBin), enqueued]
  refine ⟨?_, fun bin isBin => ?_, start.bins.next, ?_, ?_, ?_⟩
  · rw [isQueued]
    exact shelf
  · have apart := Nat.ne_of_lt isBin
    rw [isQueued]
    change (reached.setBin start.bins.next _).bin bin = _
    rw [bin_setBin, if_neg apart, others bin apart, bin_withBin_of_lt _ _ _ isBin]
  · rw [isQueued]
    exact congrArg (· ++ [start.bins.next]) ready
  · rw [inQueue, contents]
  · rw [inQueue]
    exact steady.group_withBin ▸ isKey

theorem queueAll_queues (carried : Flow.Carried property) (isKey : group.key? = some key)
    (items : List Item) (whole : ∀ item ∈ items, item.HasWholeSize)
    (sound : depot.Sound property inUse) :
    (Act.forEach items (queueUnbound group session)).Meets (· = depot)
      (fun _ => QueuedAll key items depot) fun _ _ => True := by
  induction items generalizing depot with
  | nil =>
      refine Act.Meets.pure fun reached isReached => ?_
      rw [isReached]
      exact .refl key depot
  | cons item rest ih =>
      have isWhole := List.forall_mem_cons.1 whole
      refine ((queueUnbound_queues isKey isWhole.1).keeping
        (queueUnbound_sound carried group session isWhole.1) sound).bind fun _ => ?_
      rintro between ⟨queued, soundThen⟩
      refine (ih isWhole.2 soundThen).weaken (fun _ => id) (fun _ reached later => ?_)
        (fun _ _ => id) between rfl
      exact (queued.all sound).trans later

end Engine

namespace Depot

/-- The items of a group among some loads. -/
def ofKey (key : Key) (loads : List Load) : List Item :=
  loads.filterMap fun load => if load.1 = key then some load.2 else none

@[simp] theorem ofKey_append (key : Key) (loads more : List Load) :
    ofKey key (loads ++ more) = ofKey key loads ++ ofKey key more :=
  List.filterMap_append

theorem ofKey_map (key other : Key) (items : List Item) :
    ofKey key (items.map fun item => (other, item)) = if other = key then items else [] := by
  unfold ofKey
  rw [List.filterMap_map]
  split
  · rename_i same
    simp only [Function.comp_def, same, if_true, List.filterMap_some]
  · rename_i apart
    exact List.filterMap_eq_nil_iff.2 fun _ _ => if_neg apart

/-- Loads were dealt out to their groups. -/
structure Dealt (loads : List Load) (before after : Depot) : Prop where
  packing : ∀ key, after.packing key =
    (before.packing key).addAll before.shelf.thresholds.bounds (ofKey key loads)
  thresholds : after.shelf.thresholds = before.shelf.thresholds
  binCount : after.shelf.binCount ≤ before.shelf.binCount + loads.length
  keyed : before.QueueKeyed → after.QueueKeyed

namespace Dealt

variable {loads more : List Load} {before between after : Depot}

theorem of_same (bins : after.bins = before.bins) (shelf : after.shelf = before.shelf)
    (ready : after.ready = before.ready) : Dealt [] before after := by
  have same (bin : BinId) : after.bin bin = before.bin bin := congrArg (Slots.get · bin) bins
  refine ⟨fun key => ?_, by rw [shelf], by rw [shelf]; omega, fun keyed bin member => ?_⟩
  · unfold Depot.packing plainBins loners
    simp only [same, shelf, ready]
    rfl
  · rw [same]
    exact keyed bin (ready ▸ member)

theorem trans (first : Dealt loads before between) (second : Dealt more between after) :
    Dealt (loads ++ more) before after where
  packing key := by
    rw [second.packing, first.packing, first.thresholds, ofKey_append, Packing.addAll_append]
  thresholds := second.thresholds.trans first.thresholds
  binCount := by
    have one := first.binCount
    have other := second.binCount
    rw [List.length_append]
    omega
  keyed := second.keyed ∘ first.keyed

theorem same (dealt : Dealt loads before between) (bins : after.bins = between.bins)
    (shelf : after.shelf = between.shelf) (ready : after.ready = between.ready) :
    Dealt loads before after := by
  have both := dealt.trans (.of_same bins shelf ready)
  rwa [List.append_nil] at both

end Dealt

/-- What finds no place in its group is queued. -/
theorem AssignedAll.dealt {key : Key} {items unbound : List Item} {before between after : Depot}
    (assigned : AssignedAll key items before unbound between)
    (queued : QueuedAll key unbound between after) :
    Dealt (items.map fun item => (key, item)) before after where
  packing other := by
    have bins := queued.plainBins other
    have unbound := queued.loners other
    rw [assigned.queue.loners] at unbound
    unfold Depot.packing
    rw [bins, unbound, ofKey_map, Packing.addAll_unbound]
    by_cases same : other = key
    · subst same
      rw [if_pos rfl, if_pos rfl, assigned.packs]
    · rw [if_neg same, if_neg (Ne.symm same), assigned.elsewhere other same]
      rfl
  thresholds := (congrArg Shelf.thresholds queued.shelf).trans assigned.thresholds
  binCount := by
    rw [queued.shelf, List.length_map]
    exact assigned.binCount
  keyed keyed := queued.keyed fun bin member => by
    rw [assigned.queue.ready] at member
    rw [assigned.queue.bins bin member]
    exact keyed bin member

end Depot

namespace Engine

open Depot

variable {property : Flow → Prop} {inUse : List SessionId} {depot : Depot}
  {session : SessionId}

/-- Offering groups deals their items out. -/
theorem offerGroups_deals (carried : Flow.Carried property)
    (groups : List (Value × List Item)) (keyed : Keyed groups)
    (sound : depot.Sound property inUse) (room : depot.RoomFor (loadsOf groups).length) :
    (offerGroups session groups).Meets (· = depot) (fun _ => Dealt (loadsOf groups) depot)
      fun _ _ => True := by
  induction groups generalizing depot with
  | nil =>
      refine Act.Meets.pure fun reached isReached => ?_
      rw [isReached]
      exact .of_same rfl rfl rfl
  | cons entry rest ih =>
      obtain ⟨group, items⟩ := entry
      obtain ⟨⟨key, isKey⟩, whole⟩ := keyed (group, items) (by simp)
      have all : loadsOf ((group, items) :: rest) =
          (items.map fun item => (key, item)) ++ loadsOf rest := by
        rw [loadsOf, List.flatMap_cons, isKey]
        rfl
      rw [all, List.length_append, List.length_map] at room
      have within := Shelf.offer_unbound group items session
      refine (((Shelf.offer_assigns carried isKey items whole sound
        (room.mono rfl (by omega))).keeping (Shelf.offer_sound carried group items session whole)
          sound).and (within.weaken (fun _ _ => trivial) (fun _ _ => id) fun _ _ => id)
        |>.weaken (fun _ => id) (fun _ _ => id) fun _ _ _ => trivial).bind fun unbound => ?_
      rintro between ⟨⟨assigned, soundThen⟩, among⟩
      have wholeUnbound := fun item member => whole item (among.subset member)
      refine ((queueAll_queues carried isKey unbound wholeUnbound soundThen).keeping
        (Act.Keeps.forEach fun item member =>
          queueUnbound_sound carried group session (wholeUnbound item member))
        soundThen).bind (fun _ => ?_) between rfl
      rintro reached ⟨queued, soundQueued⟩
      have counted (change : Counters → Counters) : (count change).Meets (· = reached)
          (fun _ counted => Dealt (items.map fun item => (key, item)) depot counted ∧
            counted.Sound property inUse) fun _ _ => True := by
        refine Act.Meets.modify ?_
        rintro _ rfl
        exact ⟨(assigned.dealt queued).same rfl rfl rfl,
          soundQueued.of_same rfl rfl rfl rfl rfl⟩
      refine (counted _).bind (fun _ => ?_) reached rfl
      rintro counted ⟨dealt, soundCounted⟩
      have roomThen : counted.RoomFor (loadsOf rest).length :=
        room.mono dealt.thresholds (by
          have := dealt.binCount
          rw [List.length_map] at this
          omega)
      refine (ih (fun entry member => keyed entry (List.mem_cons_of_mem _ member)) soundCounted
        roomThen).bind (fun _ => Act.Meets.pure fun _ later => ?_) counted rfl
      rw [all]
      exact dealt.trans later

end Engine

end ItemBinning
