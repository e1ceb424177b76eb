import ItemBinning.Proofs.Flow.Passage
import ItemBinning.Proofs.Shelf.Refusal
import ItemBinning.Proofs.Shelf.Seniority

/-!
# Which bin takes an item

An item goes to the first bin of its group whose bounds admit it, and the bins before that
one count that they turned it down.  If there is none, a bin with the bounds in force is
opened for it, unless too many bins are open or the item is larger than any bin may be.
Under consistent thresholds a new bin admits every item that is not too large, so these
are the only reasons for which an item stays unbound, and no offer fails.
-/

namespace ItemBinning

namespace Bin

/-- The bin may hold another item, and is not too large with this one. -/
structure Admits (bin : Bin) (item : Item) : Prop where
  entries : ∀ most : Int, bin.bounds.maxEntries = .int most → (bin.entryCount : Int) < most
  size : ∀ most size added : Int, bin.bounds.maxSize = .int most → bin.size = .int size →
    item.size = .int added → size + added ≤ most

variable {bin : Bin} {item : Item} {size : Int}

theorem not_admits_of_leavesNoRoom (noRoom : bin.LeavesNoRoom item) : ¬ bin.Admits item := by
  intro admits
  rcases noRoom with ⟨most, isMost, reached⟩ | ⟨most, size, added, isMost, isSize, isAdded, exceeds⟩
  · exact absurd (admits.entries most isMost) (Int.not_lt.2 reached)
  · exact absurd (admits.size most size added isMost isSize isAdded) (Int.not_le.2 exceeds)

theorem sizeWith_eq {added : Int} (weighed : bin.size = .int size)
    (isAdded : item.size = .int added) :
    bin.sizeWith item = .ok (.int (size + added)) := by
  unfold sizeWith
  rw [isAdded, weighed]
  rfl

theorem admits_of_room (room : bin.turnsDown item = .ok false) :
    bin.Admits item := by
  obtain ⟨fewer, smaller⟩ := room_of_turnsDown room
  constructor
  · intro most isMost
    unfold reachedEntries at fewer
    rw [isMost, Value.limits_int, Value.isAtLeast_int] at fewer
    exact Int.not_le.1 (of_decide_eq_false (Except.ok.inj fewer))
  · intro most given added isMost isGiven isAdded
    unfold overflowsWith at smaller
    rw [isMost, Value.limits_int, sizeWith_eq isGiven isAdded] at smaller
    have within : (Value.int (given + added)).isAbove (.int most) = .ok false := smaller
    rw [Value.isAbove_int] at within
    exact Int.not_lt.1 (of_decide_eq_false (Except.ok.inj within))

/-- A bin with whole bounds turns an item of whole size down just if it does not admit it. -/
theorem turnsDown_cases (bounds : bin.bounds.Whole) (weighed : bin.size = .int size)
    (whole : item.HasWholeSize) :
    bin.turnsDown item = .ok true ∧ ¬ bin.Admits item ∨
      bin.turnsDown item = .ok false ∧ bin.Admits item := by
  obtain ⟨answer, known⟩ := exists_turnsDown bounds weighed whole
  cases answer with
  | true =>
      have noRoom := leavesNoRoom_of_turnsDown bounds weighed whole known
      exact .inl ⟨known, not_admits_of_leavesNoRoom noRoom⟩
  | false => exact .inr ⟨known, admits_of_room known⟩

end Bin

/-- The item alone is not larger than a bin may be. -/
def Bounds.Fit (bounds : Bounds) (item : Item) : Prop :=
  ∀ most size : Int, bounds.maxSize = .int most → item.size = .int size → size ≤ most

/-- Consistent thresholds let a bin hold an item. -/
theorem Thresholds.pos_of_consistent {thresholds : Thresholds} {most : Int}
    (consistent : thresholds.inconsistencies = .ok [])
    (isMost : thresholds.bounds.maxEntries = .int most) : 0 < most := by
  obtain ⟨sizes, _, consistent⟩ := bind_ok consistent
  obtain ⟨entries, _, consistent⟩ := bind_ok consistent
  obtain ⟨noEntries, tested, consistent⟩ := bind_ok consistent
  obtain ⟨noBins, _, consistent⟩ := bind_ok consistent
  have none : sizes ++ entries ++ noEntries ++ noBins = [] := Except.ok.inj consistent
  simp only [List.append_eq_nil_iff] at none
  rw [isMost, Value.limits_int, Value.isAtMost_int, none.1.2] at tested
  by_contra below
  rw [decide_eq_true (Int.not_lt.1 below)] at tested
  cases tested

/-- A new bin admits just the items that are not too large for its bounds. -/
theorem Bin.admits_new_iff {thresholds : Thresholds} {bin : Bin} {item : Item}
    (consistent : thresholds.inconsistencies = .ok []) (bounds : bin.bounds = thresholds.bounds)
    (empty : bin.contents = []) (weightless : bin.size = .int 0) :
    bin.Admits item ↔ thresholds.bounds.Fit item := by
  constructor
  · intro admits most size isMost isSize
    have within := admits.size most 0 size (bounds ▸ isMost) weightless isSize
    omega
  · intro fits
    constructor
    · intro most isMost
      rw [bounds] at isMost
      rw [entryCount, empty]
      exact Thresholds.pos_of_consistent consistent isMost
    · intro most size added isMost isSize isAdded
      rw [weightless] at isSize
      cases isSize
      rw [Int.zero_add]
      exact fits most added (bounds ▸ isMost) isAdded

namespace Depot

variable {depot before between after : Depot} {item : Item} {session : SessionId}
  {bin : BinId} {bins : List BinId}

/-- It is known whether the bin admits an item. -/
structure Offerable (depot : Depot) (bin : BinId) : Prop extends depot.Removable bin where
  weighed : ∃ size : Int, (depot.bin bin).size = .int size

/-- The bins did not admit an item and count that they turned it down; nothing else happened. -/
structure Declines (item : Item) (bins : List BinId) (before after : Depot) : Prop where
  full : ∀ bin ∈ bins, ¬ (before.bin bin).Admits item
  rejecting : ∀ bin ∈ bins, after.bin bin = (before.bin bin).reject
  others : ∀ bin ∉ bins, after.bin bin = before.bin bin
  next : after.bins.next = before.bins.next
  rest : after = { before with bins := after.bins }

/-- A bin admitted an item and took it into its session; nothing else happened. -/
structure Takes (session : SessionId) (item : Item) (bin : BinId) (before after : Depot) :
    Prop where
  admits : (before.bin bin).Admits item
  taker : ∃ size, (before.bin bin).sizeWith item = .ok size ∧
    after.bin bin = { (before.bin bin).resetRejections.take item with size }
  passes : Flow.Passes item.id session (before.bin bin).session before.flow after.flow
  others : ∀ other ≠ bin, after.bin other = before.bin other
  next : after.bins.next = before.bins.next
  rest : after = { before with bins := after.bins, flow := after.flow }

theorem Declines.refl (item : Item) (depot : Depot) : Declines item [] depot depot :=
  ⟨nofun, nofun, fun _ _ => rfl, rfl, rfl⟩

/-- An offer of a held item to an open bin is taken just if the bin admits the item. -/
theorem offerTo_admission (offerable : depot.Offerable bin) (whole : item.HasWholeSize)
    (held : item.id ∈ (depot.flow.session session).ids) :
    (∃ after, offerTo bin item session depot = (.ok true, after) ∧
        Takes session item bin depot after) ∨
      ∃ after, offerTo bin item session depot = (.ok false, after) ∧
        Declines item [bin] depot after := by
  obtain ⟨⟨isBin, opened, bounds⟩, size, weighed⟩ := offerable
  have decision := Bin.turnsDown_cases bounds weighed whole
  obtain ⟨flow, migrated, passes⟩ := Flow.migrate_passes session (depot.bin bin).session held
  obtain ⟨total, isTotal⟩ := Bin.exists_sizeWith weighed whole
  have outcome := offerTo_outcome bin item session depot
  rcases run : offerTo bin item session depot with ⟨answer, reached⟩
  rw [run] at outcome
  cases outcome with
  | refused fault reason =>
      rcases reason with closed | failed
      · exact absurd opened closed
      · rcases decision with ⟨known, _⟩ | ⟨known, _⟩ <;> rw [known] at failed <;> cases failed
  | turnedDown _ noRoom =>
      have full : ¬ (depot.bin bin).Admits item := by
        rcases decision with ⟨_, full⟩ | ⟨known, _⟩
        · exact full
        · rw [known] at noRoom
          cases noRoom
      refine .inr ⟨_, rfl, ?_⟩
      constructor
      case full => exact List.forall_mem_singleton.2 full
      case rejecting => exact List.forall_mem_singleton.2 (bin_setBin_self depot bin _)
      case others =>
        intro other absent
        rw [bin_setBin, if_neg (by simpa using absent)]
      case next => exact Slots.next_set_of_lt isBin _
      case rest => rfl
  | kept _ _ _ _ failed =>
      rw [migrated] at failed
      cases failed
  | unweighed _ _ _ _ _ failed =>
      rw [isTotal] at failed
      cases failed
  | taken size flow _ room same isSize =>
      rw [migrated] at same
      cases same
      refine .inl ⟨_, rfl, ?_⟩
      constructor
      case admits => exact Bin.admits_of_room room
      case taker => exact ⟨size, isSize, bin_setBin_self depot bin _⟩
      case passes => exact passes
      case others =>
        intro other differs
        change (depot.setBin bin _).bin other = _
        rw [bin_setBin, if_neg differs]
      case next => exact Slots.next_set_of_lt isBin _
      case rest => rfl

/-- A bin declines, and then others do. -/
theorem Declines.cons (fresh : bin ∉ bins) (first : Declines item [bin] before between)
    (others : Declines item bins between after) : Declines item (bin :: bins) before after where
  full := by
    refine List.forall_mem_cons.2 ⟨first.full bin (by simp), fun other member => ?_⟩
    have apart : other ∉ [bin] := fun same => fresh (List.mem_singleton.1 same ▸ member)
    exact first.others other apart ▸ others.full other member
  rejecting := by
    refine List.forall_mem_cons.2 ⟨?_, fun other member => ?_⟩
    · rw [others.others bin fresh, first.rejecting bin (by simp)]
    · have apart : other ∉ [bin] := fun same => fresh (List.mem_singleton.1 same ▸ member)
      rw [others.rejecting other member, first.others other apart]
  others other absent := by
    rw [List.mem_cons, not_or] at absent
    rw [others.others other absent.2, first.others other (by simpa using absent.1)]
  next := others.next.trans first.next
  rest := by
    rw [others.rest, first.rest]

theorem Declines.offerable (declines : Declines item bins before between) {other : BinId}
    (absent : other ∉ bins) (offerable : before.Offerable other) : between.Offerable other := by
  obtain ⟨⟨isBin, opened, bounds⟩, weighed⟩ := offerable
  rw [← declines.others other absent] at opened bounds weighed
  exact ⟨⟨declines.next ▸ isBin, opened, bounds⟩, weighed⟩

/-- Put a bin at the end of a group. -/
def filed (depot : Depot) (key : Key) (bin : BinId) : Depot :=
  { depot with
    shelf := { depot.shelf.setGroup key (depot.shelf.binsOf key ++ [bin]) with
      binCount := depot.shelf.binCount + 1 } }

/-- Fewer bins are open than may be. -/
def BelowLimit (depot : Depot) : Prop :=
  ∃ most : Int, depot.shelf.thresholds.maxBinCount = .int most ∧
    (depot.shelf.binCount : Int) < most

/-- Sessions and bins may have been created, and nothing else happened. -/
structure Aside (before after : Depot) : Prop where
  bins : ∀ bin < before.bins.next, after.bin bin = before.bin bin
  next : before.bins.next ≤ after.bins.next
  unmoved : before.flow.Unmoved after.flow
  rest : after = { before with bins := after.bins, flow := after.flow }

/-- What becomes of an item that is offered to a group, and the depot with it. -/
inductive Housed (group : Value) (key : Key) (session : SessionId) (item : Item)
    (before : Depot) : Option BinId → Depot → Prop
  /-- The first bin of the group that admits the item takes it. -/
  | joined (earlier : List BinId) (bin : BinId) (later : List BinId) (between after : Depot)
      (inGroup : before.shelf.binsOf key = earlier ++ bin :: later)
      (declines : Declines item earlier before between)
      (takes : Takes session item bin between after) :
      Housed group key session item before (some bin) after
  /-- No bin of the group admits the item, and a new bin at the end of the group takes it. -/
  | opened (between after : Depot)
      (declines : Declines item (before.shelf.binsOf key) before between)
      (below : before.BelowLimit) (fits : before.shelf.thresholds.bounds.Fit item)
      (takes : Takes session item before.bins.next
        (between.withBin before.shelf.thresholds.bounds group) after) :
      Housed group key session item before (some before.bins.next)
        (after.filed key before.bins.next)
  /-- No bin of the group admits the item, and none may be opened that does. -/
  | unbound (between after : Depot)
      (declines : Declines item (before.shelf.binsOf key) before between)
      (noPlace : before.BelowLimit → ¬ before.shelf.thresholds.bounds.Fit item)
      (aside : between.Aside after) : Housed group key session item before none after

theorem Aside.refl (depot : Depot) : depot.Aside depot :=
  ⟨fun _ _ => rfl, Nat.le_refl _, .refl depot.flow, rfl⟩

end Depot

namespace Shelf

open Depot

variable {depot : Depot} {item : Item} {session : SessionId} {group : Value} {key : Key}

/-- An item goes to the first of some bins that admits it. -/
theorem offerToFirst_admission (bins : List BinId) (distinct : bins.Nodup)
    (offerable : ∀ bin ∈ bins, depot.Offerable bin) (whole : item.HasWholeSize)
    (held : item.id ∈ (depot.flow.session session).ids) :
    (∃ earlier bin later between after, bins = earlier ++ bin :: later ∧
        offerToFirst item session bins depot = (.ok true, after) ∧
        Declines item earlier depot between ∧ Takes session item bin between after) ∨
      ∃ after, offerToFirst item session bins depot = (.ok false, after) ∧
        Declines item bins depot after := by
  induction bins generalizing depot with
  | nil => exact .inr ⟨depot, rfl, .refl item depot⟩
  | cons bin rest ih =>
      obtain ⟨fresh, distinctRest⟩ := List.nodup_cons.1 distinct
      obtain ⟨isOfferable, areOfferable⟩ := List.forall_mem_cons.1 offerable
      rcases offerTo_admission isOfferable whole held with
        ⟨after, run, takes⟩ | ⟨between, run, declines⟩
      · refine .inl ⟨[], bin, rest, depot, after, rfl, ?_, .refl item depot, takes⟩
        exact Act.bind_of_ok run _
      have apart : ∀ other ∈ rest, other ∉ [bin] :=
        fun other member same => fresh (List.mem_singleton.1 same ▸ member)
      have flow : between.flow = depot.flow := by rw [declines.rest]
      have step : offerToFirst item session (bin :: rest) depot =
          offerToFirst item session rest between := Act.bind_of_ok run _
      rw [step]
      rcases ih distinctRest (fun other member =>
          declines.offerable (apart other member) (areOfferable other member))
          (flow.symm ▸ held) with
        ⟨earlier, taker, later, last, after, isRest, runRest, declinesRest, takes⟩ |
          ⟨after, runRest, declinesRest⟩
      · refine .inl ⟨bin :: earlier, taker, later, last, after, by rw [isRest]; rfl, runRest, ?_,
          takes⟩
        refine declines.cons (fun member => fresh ?_) declinesRest
        rw [isRest]
        exact List.mem_append_left _ member
      · exact .inr ⟨after, runRest, declines.cons fresh declinesRest⟩

/-- A bin is opened for an item that is not too large, and for no other. -/
theorem openBinFor_admission (whole : depot.shelf.thresholds.bounds.Whole)
    (natural : item.HasNaturalSize)
    (held : item.id ∈ (depot.flow.session session).ids)
    (consistent : depot.shelf.thresholds.inconsistencies = .ok []) :
    (∃ after, openBinFor group key item session depot =
        (.ok true, after.filed key depot.bins.next) ∧
        depot.shelf.thresholds.bounds.Fit item ∧
        Takes session item depot.bins.next
          (depot.withBin depot.shelf.thresholds.bounds group) after) ∨
      ∃ after, openBinFor group key item session depot = (.ok false, after) ∧
        ¬ depot.shelf.thresholds.bounds.Fit item ∧ depot.Aside after := by
  obtain ⟨bounds, isBounds⟩ : ∃ bounds, bounds = depot.shelf.thresholds.bounds := ⟨_, rfl⟩
  rw [openBinFor_apply, ← isBounds]
  have isNew := bin_withBin_next depot bounds group
  have admits : ((depot.withBin bounds group).bin depot.bins.next).Admits item ↔
      bounds.Fit item := by
    rw [isBounds]
    rw [isBounds] at isNew
    exact Bin.admits_new_iff consistent (by rw [isNew]) (by rw [isNew]) (by rw [isNew])
  have offerable : (depot.withBin bounds group).Offerable depot.bins.next :=
    ⟨⟨lt_next_withBin depot bounds group, by rw [isNew],
      by rw [isNew]; exact isBounds ▸ whole⟩, 0, by rw [isNew]⟩
  have unmoved : depot.flow.Unmoved (depot.withBin bounds group).flow :=
    Flow.unmoved_push depot.flow
  rcases offerTo_admission offerable natural.whole ((unmoved.session session).symm ▸ held) with
    ⟨after, run, takes⟩ | ⟨after, run, declines⟩
  · refine .inl ⟨after, ?_, admits.1 takes.admits, takes⟩
    rw [Act.bind_of_ok run]
    rfl
  · have flow : after.flow = (depot.withBin bounds group).flow := by rw [declines.rest]
    refine .inr ⟨after, ?_, fun fits => declines.full _ (by simp) (admits.2 fits), ?_⟩
    · rw [Act.bind_of_ok run]
      rfl
    constructor
    case bins =>
      intro bin isBin
      have apart : bin ∉ [depot.bins.next] := by simpa using Nat.ne_of_lt isBin
      rw [declines.others bin apart, bin_withBin_of_lt _ _ _ isBin]
    case next =>
      rw [declines.next, next_withBin]
      exact Nat.le_succ _
    case unmoved => exact flow ▸ unmoved
    case rest =>
      rw [declines.rest]
      rfl

/-- Under consistent thresholds it is decided for every held item what becomes of it. -/
theorem place_admission (arranged : depot.Arranged) (weighed : depot.Weighed)
    (natural : item.HasNaturalSize) (held : item.id ∈ (depot.flow.session session).ids)
    (consistent : depot.shelf.thresholds.inconsistencies = .ok []) :
    ∃ fate after, place group key item session depot = (.ok fate.isSome, after) ∧
      Housed group key session item depot fate after := by
  have offerable : ∀ bin ∈ depot.shelf.binsOf key, depot.Offerable bin := fun bin member =>
    ⟨arranged.removable (Shelf.mem_bins_iff.2 ⟨key, member⟩),
      weighed bin (arranged.isBin key bin member)⟩
  unfold place
  rw [Act.read_bind]
  rcases offerToFirst_admission (depot.shelf.binsOf key) (arranged.nodup_binsOf key) offerable
      natural.whole held with
    ⟨earlier, bin, later, between, after, inGroup, run, declines, takes⟩ | ⟨between, run, declines⟩
  · refine ⟨some bin, after, ?_, .joined earlier bin later between after inGroup declines takes⟩
    rw [Act.bind_of_ok run]
    rfl
  have shelf : between.shelf = depot.shelf := by rw [declines.rest]
  have flow : between.flow = depot.flow := by rw [declines.rest]
  obtain ⟨most, isMost⟩ := arranged.thresholds.maxBinCount
  rw [Act.bind_of_ok run, if_neg (by simp)]
  by_cases reached : most ≤ depot.shelf.binCount
  · have full : askShelf Shelf.isAtCapacity between = (.ok true, between) := by
      refine congrArg (·, between) ?_
      rw [shelf, isAtCapacity, isMost, Value.isAtLeast_int, decide_eq_true reached]
    refine ⟨none, between, ?_, .unbound between between declines ?_ (.refl between)⟩
    · rw [Act.bind_of_ok full]
      rfl
    · rintro ⟨limit, isLimit, below⟩ _
      cases isMost.symm.trans isLimit
      exact absurd reached (Int.not_le.2 below)
  have room : askShelf Shelf.isAtCapacity between = (.ok false, between) := by
    refine congrArg (·, between) ?_
    rw [shelf, isAtCapacity, isMost, Value.isAtLeast_int, decide_eq_false reached]
  rw [Act.bind_of_ok room, if_neg (by simp)]
  rcases @openBinFor_admission between item session group key (shelf ▸ arranged.thresholds.bounds)
      natural (flow ▸ held) (shelf ▸ consistent) with
    ⟨after, run, fits, takes⟩ | ⟨after, run, large, aside⟩
  · rw [declines.next, shelf] at takes
    rw [shelf] at fits
    refine ⟨some depot.bins.next, after.filed key depot.bins.next, declines.next ▸ run, ?_⟩
    exact .opened between after declines ⟨most, isMost, Int.not_le.1 reached⟩ fits takes
  · rw [shelf] at large
    exact ⟨none, after, run, .unbound between after declines (fun _ => large) aside⟩

end Shelf

end ItemBinning
