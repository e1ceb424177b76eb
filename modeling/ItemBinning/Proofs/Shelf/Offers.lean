import ItemBinning.Proofs.Shelf.Admission

/-!
# What an offer does

An offer decides for one item after the other what becomes of it.  Nothing changes for an
item while it is decided about another, a bin keeps what it took, and the bins of other
groups and the sessions of other bins are left alone.  So an item that found a place is
in the session of its bin when the offer is over, and one that found none is where it was.
-/

namespace ItemBinning

/-- The other bin is the same one at a later time, its contents beginning with those it had. -/
structure Bin.Extends (before after : Bin) : Prop extends after.Matches before where
  contents : before.contents <+: after.contents

theorem Bin.Extends.refl (bin : Bin) : bin.Extends bin :=
  ⟨.refl bin, List.prefix_refl _⟩

theorem Bin.Extends.trans {first second third : Bin} (extendsFirst : first.Extends second)
    (extendsSecond : second.Extends third) : first.Extends third :=
  ⟨extendsSecond.toMatches.trans extendsFirst.toMatches,
    extendsFirst.contents.trans extendsSecond.contents⟩

namespace Depot

variable {group : Value} {key : Key} {session : SessionId} {item : Item} {bin : BinId}
  {bins : List BinId} {fate : Option BinId} {before between after : Depot}

theorem Declines.extends (declines : Declines item bins before after) (bin : BinId) :
    (before.bin bin).Extends (after.bin bin) := by
  by_cases member : bin ∈ bins
  · rw [declines.rejecting bin member]
    exact ⟨⟨rfl, rfl, rfl, rfl⟩, List.prefix_refl _⟩
  · rw [declines.others bin member]
    exact .refl _

theorem Declines.unmoved (declines : Declines item bins before after) :
    before.flow.Unmoved after.flow := by
  rw [declines.rest]
  exact .refl _

theorem Declines.unmoved_withBin (declines : Declines item bins before after) (bounds : Bounds)
    (group : Value) : before.flow.Unmoved (after.withBin bounds group).flow :=
  declines.unmoved.trans (Flow.unmoved_push after.flow)

theorem Takes.extends (takes : Takes session item bin before after) (other : BinId) :
    (before.bin other).Extends (after.bin other) := by
  by_cases same : other = bin
  · obtain ⟨size, _, taker⟩ := takes.taker
    rw [same, taker]
    exact ⟨⟨rfl, rfl, rfl, rfl⟩, List.prefix_append _ _⟩
  · rw [takes.others other same]
    exact .refl _

theorem Takes.mem_contents (takes : Takes session item bin before after) :
    item ∈ (after.bin bin).contents := by
  obtain ⟨size, _, taker⟩ := takes.taker
  rw [taker]
  exact List.mem_append_right _ (List.mem_singleton_self item)

@[simp] theorem binsOf_filed (depot : Depot) (key other : Key) (bin : BinId) :
    (depot.filed key bin).shelf.binsOf other =
      if other = key then depot.shelf.binsOf key ++ [bin] else depot.shelf.binsOf other :=
  Shelf.binsOf_setGroup _ _ _ _

/-- Bins of a group were filled and others put behind them, and items passed from a session
to theirs; nothing else happened. -/
structure Grows (key : Key) (session : SessionId) (before after : Depot) : Prop where
  next : before.bins.next ≤ after.bins.next
  group : ∃ added, after.shelf.binsOf key = before.shelf.binsOf key ++ added ∧
    ∀ bin ∈ added, before.bins.next ≤ bin
  filling : ∀ bin < before.bins.next, (before.bin bin).Extends (after.bin bin)
  /-- The bins of other groups are left alone. -/
  elsewhere : ∀ other ≠ key, after.shelf.binsOf other = before.shelf.binsOf other
  others : ∀ bin < before.bins.next, bin ∉ before.shelf.binsOf key →
    after.bin bin = before.bin bin
  /-- Sessions that own no bin of the group are left alone. -/
  sessions : ∀ number ≠ session,
    (∀ bin ∈ after.shelf.binsOf key, (after.bin bin).session ≠ number) →
      after.flow.session number = before.flow.session number
  source : after.flow.source = before.flow.source
  sinks : after.flow.sinks = before.flow.sinks
  rest : after = { before with
    bins := after.bins
    flow := after.flow
    shelf := { before.shelf with
      groups := after.shelf.groups, binCount := after.shelf.binCount } }

namespace Grows

theorem refl (key : Key) (session : SessionId) (depot : Depot) : Grows key session depot depot where
  next := Nat.le_refl _
  group := ⟨[], (List.append_nil _).symm, nofun⟩
  filling _ _ := .refl _
  elsewhere _ _ := rfl
  others _ _ _ := rfl
  sessions _ _ _ := rfl
  source := rfl
  sinks := rfl
  rest := rfl

theorem trans (first : Grows key session before between)
    (areBins : ∀ bin ∈ between.shelf.binsOf key, bin < between.bins.next)
    (second : Grows key session between after) : Grows key session before after where
  next := Nat.le_trans first.next second.next
  group := by
    obtain ⟨added, isAdded, areNew⟩ := first.group
    obtain ⟨more, areMore, areNewer⟩ := second.group
    refine ⟨added ++ more, by rw [areMore, isAdded, List.append_assoc], ?_⟩
    refine List.forall_mem_append.2 ⟨areNew, fun bin member => ?_⟩
    exact Nat.le_trans first.next (areNewer bin member)
  filling bin isBin :=
    (first.filling bin isBin).trans (second.filling bin (Nat.lt_of_lt_of_le isBin first.next))
  elsewhere other apart := (second.elsewhere other apart).trans (first.elsewhere other apart)
  others bin isBin absent := by
    obtain ⟨added, isAdded, areNew⟩ := first.group
    rw [second.others bin (Nat.lt_of_lt_of_le isBin first.next), first.others bin isBin absent]
    rw [isAdded, List.mem_append, not_or]
    exact ⟨absent, fun isNew => Nat.not_lt.2 (areNew bin isNew) isBin⟩
  sessions number differs owners := by
    obtain ⟨more, areMore, _⟩ := second.group
    rw [second.sessions number differs owners]
    refine first.sessions number differs fun bin member same => ?_
    refine owners bin (areMore ▸ List.mem_append_left _ member) ?_
    rw [(second.filling bin (areBins bin member)).session, same]
  source := second.source.trans first.source
  sinks := second.sinks.trans first.sinks
  rest := by
    rw [second.rest, first.rest]

theorem thresholds (grows : Grows key session before after) :
    after.shelf.thresholds = before.shelf.thresholds := by
  rw [grows.rest]

end Grows

theorem Declines.grows (declines : Declines item bins before after)
    (within : bins ⊆ before.shelf.binsOf key) : Grows key session before after := by
  have shelf : after.shelf = before.shelf := by rw [declines.rest]
  have flow : after.flow = before.flow := by rw [declines.rest]
  constructor
  case next => exact Nat.le_of_eq declines.next.symm
  case group => exact ⟨[], by rw [shelf, List.append_nil], nofun⟩
  case filling => exact fun bin _ => declines.extends bin
  case elsewhere => exact fun _ _ => by rw [shelf]
  case others => exact fun bin _ absent => declines.others bin fun member => absent (within member)
  case sessions => exact fun _ _ _ => by rw [flow]
  case source => rw [flow]
  case sinks => rw [flow]
  case rest => rw [declines.rest]

theorem Takes.grows (takes : Takes session item bin before after)
    (member : bin ∈ before.shelf.binsOf key) : Grows key session before after := by
  have shelf : after.shelf = before.shelf := by rw [takes.rest]
  constructor
  case next => exact Nat.le_of_eq takes.next.symm
  case group => exact ⟨[], by rw [shelf, List.append_nil], nofun⟩
  case filling => exact fun other _ => takes.extends other
  case elsewhere => exact fun _ _ => by rw [shelf]
  case others => exact fun other _ absent => takes.others other fun same => absent (same ▸ member)
  case sessions =>
    intro number differs owners
    refine takes.passes.others number differs fun same => ?_
    exact owners bin (shelf ▸ member) ((takes.extends bin).session.trans same.symm)
  case source => exact takes.passes.source
  case sinks => exact takes.passes.sinks
  case rest => rw [takes.rest]

theorem Aside.grows (aside : before.Aside after) : Grows key session before after := by
  have shelf : after.shelf = before.shelf := by rw [aside.rest]
  constructor
  case next => exact aside.next
  case group => exact ⟨[], by rw [shelf, List.append_nil], nofun⟩
  case filling => exact fun bin isBin => aside.bins bin isBin ▸ .refl _
  case elsewhere => exact fun _ _ => by rw [shelf]
  case others => exact fun bin isBin _ => aside.bins bin isBin
  case sessions => exact fun number _ _ => aside.unmoved.session number
  case source => exact aside.unmoved.source
  case sinks => exact aside.unmoved.sinks
  case rest => rw [aside.rest]

/-- A bin that was just created takes an item and is put at the end of the group. -/
theorem Takes.grows_filed {bounds : Bounds}
    (takes : Takes session item before.bins.next (before.withBin bounds group) after) :
    Grows key session before (after.filed key before.bins.next) := by
  have shelf : after.shelf = before.shelf := by rw [takes.rest, Depot.withBin]
  have isNew := bin_withBin_next before bounds group
  have passes := (Flow.unmoved_push before.flow).passes takes.passes
  rw [isNew] at passes
  have old (bin : BinId) (isBin : bin < before.bins.next) : after.bin bin = before.bin bin := by
    rw [takes.others bin (Nat.ne_of_lt isBin), bin_withBin_of_lt _ _ _ isBin]
  constructor
  case next =>
    change before.bins.next ≤ after.bins.next
    rw [takes.next, next_withBin]
    exact Nat.le_succ _
  case group =>
    refine ⟨[before.bins.next], ?_, List.forall_mem_singleton.2 (Nat.le_refl _)⟩
    rw [binsOf_filed, if_pos rfl, shelf]
  case filling =>
    intro bin isBin
    change (before.bin bin).Extends (after.bin bin)
    exact old bin isBin ▸ .refl _
  case elsewhere =>
    intro other apart
    rw [binsOf_filed, if_neg apart, shelf]
  case others => exact fun bin isBin _ => old bin isBin
  case sessions =>
    intro number differs owners
    refine passes.others number differs fun same => ?_
    have isOwner := owners before.bins.next (by simp)
    refine isOwner ?_
    change (after.bin before.bins.next).session = number
    rw [(takes.extends before.bins.next).session, isNew, same]
  case source => exact passes.source
  case sinks => exact passes.sinks
  case rest =>
    have rest : after = { before with bins := after.bins, flow := after.flow } := takes.rest
    generalize after.bins = bins, after.flow = flow at rest
    rw [rest]
    rfl

/-- Whatever becomes of an item, the group grows at most. -/
theorem Housed.grows (arranged : before.Arranged)
    (placed : Housed group key session item before fate after) :
    Grows key session before after := by
  have areBins {between : Depot} {bins : List BinId}
      (declines : Declines item bins before between) :
      ∀ bin ∈ between.shelf.binsOf key, bin < between.bins.next := by
    rw [declines.rest, declines.next]
    exact arranged.isBin key
  cases placed with
  | joined earlier bin later between _ inGroup declines takes =>
      have shelf : between.shelf = before.shelf := by rw [declines.rest]
      refine (declines.grows (by simp [inGroup])).trans (areBins declines) (takes.grows ?_)
      simp [shelf, inGroup]
  | opened between reached declines below fits takes =>
      rw [← declines.next] at takes ⊢
      exact (declines.grows (List.Subset.refl _)).trans (areBins declines) takes.grows_filed
  | unbound between _ declines noPlace aside =>
      exact (declines.grows (List.Subset.refl _)).trans (areBins declines) aside.grows

/-- An item is in a bin of the group, and in the session of the bin as the session that it was
offered from held it before. -/
structure Berthed (key : Key) (session : SessionId) (item : Item) (bin : BinId)
    (before after : Depot) : Prop where
  inGroup : bin ∈ after.shelf.binsOf key
  inBin : item ∈ (after.bin bin).contents
  held : ∃ current, (before.flow.session session).current.find? item.id = some current ∧
    (after.flow.session (after.bin bin).session).current.find? item.id = some current
  gone : (after.bin bin).session ≠ session → item.id ∉ (after.flow.session session).ids

theorem Takes.berthed (takes : Takes session item bin before after)
    (inGroup : bin ∈ after.shelf.binsOf key) : Berthed key session item bin before after := by
  have owner : (after.bin bin).session = (before.bin bin).session := (takes.extends bin).session
  exact ⟨inGroup, takes.mem_contents, owner ▸ takes.passes.held, owner ▸ takes.passes.gone⟩

/-- What an item's sessions hold of it before does not depend on what was done elsewhere. -/
theorem Berthed.since (berthed : Berthed key session item bin between after)
    (same : (between.flow.session session).entry item.id =
      (before.flow.session session).entry item.id) : Berthed key session item bin before after where
  inGroup := berthed.inGroup
  inBin := berthed.inBin
  held := by
    obtain ⟨current, found, isHeld⟩ := berthed.held
    have same : (between.flow.session session).current.find? item.id =
        (before.flow.session session).current.find? item.id := congrArg Prod.fst same
    exact ⟨current, same ▸ found, isHeld⟩
  gone := berthed.gone

/-- An item stays where it is while the group grows. -/
theorem Berthed.later (berthed : Berthed key session item bin before between)
    (isBin : bin < between.bins.next) (grows : Grows key session between after)
    (same : ∀ number, (after.flow.session number).entry item.id =
      (between.flow.session number).entry item.id) : Berthed key session item bin before after := by
  obtain ⟨inGroup, inBin, ⟨current, found, isHeld⟩, gone⟩ := berthed
  obtain ⟨added, isAdded, _⟩ := grows.group
  have extended := grows.filling bin isBin
  constructor
  case inGroup => exact isAdded ▸ List.mem_append_left _ inGroup
  case inBin => exact extended.contents.subset inBin
  case held =>
    refine ⟨current, found, ?_⟩
    have kept : (after.flow.session (between.bin bin).session).current.find? item.id =
        (between.flow.session (between.bin bin).session).current.find? item.id :=
      congrArg Prod.fst (same _)
    rw [extended.session, kept]
    exact isHeld
  case gone =>
    rw [extended.session, Session.mem_ids_of_entry (same session)]
    exact gone

namespace Housed

theorem unmoved (placed : Housed group key session item before none after) :
    before.flow.Unmoved after.flow := by
  cases placed with
  | unbound between _ declines _ aside => exact declines.unmoved.trans aside.unmoved

theorem berthed (placed : Housed group key session item before (some bin) after) :
    Berthed key session item bin before after := by
  cases placed with
  | joined earlier _ later between _ inGroup declines takes =>
      have shelf : after.shelf = before.shelf := by rw [takes.rest, declines.rest]
      exact (takes.berthed (by simp [shelf, inGroup])).since (by rw [declines.unmoved.session])
  | opened between reached declines _ _ takes =>
      have passes := (declines.unmoved_withBin _ group).passes takes.passes
      have owner := (takes.extends before.bins.next).session
      constructor
      case inGroup => simp
      case inBin => exact takes.mem_contents
      case held =>
        obtain ⟨current, found, isHeld⟩ := passes.held
        exact ⟨current, found, (congrArg (fun number =>
          (reached.flow.session number).current.find? item.id) owner).trans isHeld⟩
      case gone => exact fun differs => passes.gone (owner ▸ differs)

/-- Nothing changes for the other items. -/
theorem entries (placed : Housed group key session item before fate after)
    (number : SessionId) {id : String} (differs : id ≠ item.id) :
    (after.flow.session number).entry id = (before.flow.session number).entry id := by
  cases placed with
  | joined earlier bin later between _ inGroup declines takes =>
      exact (declines.unmoved.passes takes.passes).entries number id differs
  | opened between reached declines _ _ takes =>
      exact ((declines.unmoved_withBin _ group).passes takes.passes).entries number id differs
  | unbound between _ declines _ aside =>
      rw [aside.unmoved.session, declines.unmoved.session]

end Housed

/-- What becomes of items that are offered to a group one after the other. -/
inductive HousedAll (group : Value) (key : Key) (session : SessionId) :
    Depot → List (Item × Option BinId) → Depot → Prop
  | none (depot : Depot) : HousedAll group key session depot [] depot
  | next {before between after : Depot} {item : Item} {fate : Option BinId}
      {fates : List (Item × Option BinId)} (arranged : before.Arranged)
      (first : Housed group key session item before fate between)
      (others : HousedAll group key session between fates after) :
      HousedAll group key session before ((item, fate) :: fates) after

/-- The items that found no place, in order. -/
def unplaced (fates : List (Item × Option BinId)) : List Item :=
  (fates.filter fun fate => fate.2.isNone).map Prod.fst

/-- Items found their places, and those that found none are where they were. -/
structure Disposed (key : Key) (session : SessionId) (before : Depot)
    (fates : List (Item × Option BinId)) (after : Depot) : Prop
    extends Grows key session before after where
  moved : ∀ item bin, (item, some bin) ∈ fates → Berthed key session item bin before after
  kept : ∀ item, (item, none) ∈ fates → ∀ number,
    (after.flow.session number).entry item.id = (before.flow.session number).entry item.id
  entries : ∀ id ∉ fates.map fun fate => fate.1.id, ∀ number,
    (after.flow.session number).entry id = (before.flow.session number).entry id

theorem Disposed.refl (key : Key) (session : SessionId) (depot : Depot) :
    Disposed key session depot [] depot :=
  ⟨.refl key session depot, nofun, nofun, fun _ _ _ => rfl⟩

/-- An item finds its place, and then others do. -/
theorem Disposed.cons {fates : List (Item × Option BinId)} (arranged : before.Arranged)
    (placed : Housed group key session item before fate between)
    (areBins : ∀ bin ∈ between.shelf.binsOf key, bin < between.bins.next)
    (fresh : item.id ∉ fates.map fun fate => fate.1.id)
    (disposed : Disposed key session between fates after) :
    Disposed key session before ((item, fate) :: fates) after where
  toGrows := (placed.grows arranged).trans areBins disposed.toGrows
  moved other bin member := by
    rcases List.mem_cons.1 member with same | member
    · cases same
      have berthed := placed.berthed
      exact berthed.later (areBins bin berthed.inGroup) disposed.toGrows (disposed.entries _ fresh)
    · have differs : other.id ≠ item.id := fun same =>
        fresh (same ▸ List.mem_map_of_mem (f := fun fate => fate.1.id) member)
      exact (disposed.moved other bin member).since (placed.entries session differs)
  kept other member number := by
    rcases List.mem_cons.1 member with same | member
    · cases same
      rw [disposed.entries _ fresh, placed.unmoved.session]
    · have differs : other.id ≠ item.id := fun same =>
        fresh (same ▸ List.mem_map_of_mem (f := fun fate => fate.1.id) member)
      rw [disposed.kept other member, placed.entries number differs]
  entries id absent number := by
    rw [List.map_cons, List.mem_cons, not_or] at absent
    rw [disposed.entries id absent.2, placed.entries number absent.1]

end Depot

namespace Shelf

open Depot

variable {depot : Depot} {session : SessionId} {group : Value} {key : Key}

theorem placeAll_settles (isKey : group.key? = some key) (items : List Item)
    (natural : ∀ item ∈ items, item.HasNaturalSize) (distinct : (items.map Item.id).Nodup)
    (held : ∀ item ∈ items, item.id ∈ (depot.flow.session session).ids)
    (arranged : depot.Arranged) (firstFit : depot.FirstFit)
    (consistent : depot.shelf.thresholds.inconsistencies = .ok []) :
    ∃ fates reached, placeAll group key session items depot = (.ok (unplaced fates), reached) ∧
      fates.map Prod.fst = items ∧ HousedAll group key session depot fates reached ∧
      Disposed key session depot fates reached := by
  induction items generalizing depot with
  | nil => exact ⟨[], depot, rfl, rfl, .none depot, .refl key session depot⟩
  | cons item rest ih =>
      obtain ⟨isNatural, areNatural⟩ := List.forall_mem_cons.1 natural
      obtain ⟨isHeld, areHeld⟩ := List.forall_mem_cons.1 held
      obtain ⟨fresh, distinctRest⟩ := List.nodup_cons.1 distinct
      obtain ⟨fate, between, run, placed⟩ := @place_admission depot item session group key
        arranged firstFit.weighed isNatural isHeld consistent
      have kept : ((place group key item session).final depot).Arranged ∧
          ((place group key item session).final depot).FirstFit :=
        (place_firstFit isKey isNatural).final ⟨arranged, firstFit⟩
      rw [Act.final, run] at kept
      have stillHeld : ∀ other ∈ rest, other.id ∈ (between.flow.session session).ids := by
        intro other member
        have differs : other.id ≠ item.id := fun same =>
          fresh (same ▸ List.mem_map_of_mem member)
        rw [Session.mem_ids_of_entry (placed.entries session differs)]
        exact areHeld other member
      obtain ⟨fates, reached, runRest, areItems, placedRest, disposed⟩ :=
        ih areNatural distinctRest stillHeld kept.1 kept.2
          ((placed.grows arranged).thresholds ▸ consistent)
      have unknown : item.id ∉ fates.map fun fate => fate.1.id := by
        rw [← areItems, List.map_map] at fresh
        exact fresh
      refine ⟨(item, fate) :: fates, reached, ?_, by rw [List.map_cons, areItems],
        .next arranged placed placedRest, .cons arranged placed (kept.1.isBin key) unknown disposed⟩
      unfold placeAll
      rw [Act.bind_of_ok run, Act.bind_of_ok runRest]
      cases fate <;> rfl

/-- After every run of turns and under consistent thresholds, an offer of items that a session
holds decides for each of them in turn what becomes of it, and answers with those that
found no place. -/
theorem offers_first_fit (flow : Flow) (clock : Moment) (policy : Policy) (turns : List Turn)
    (natural : ∀ turn ∈ turns, turn.Natural) (isKey : group.key? = some key) (items : List Item)
    (areNatural : ∀ item ∈ items, item.HasNaturalSize) (distinct : (items.map Item.id).Nodup)
    (session : SessionId) :
    let depot := Turn.run (opening flow clock policy) turns
    depot.shelf.thresholds.inconsistencies = .ok [] →
    (∀ item ∈ items, item.id ∈ (depot.flow.session session).ids) →
    ∃ fates reached, offer group items session depot = (.ok (unplaced fates), reached) ∧
      fates.map Prod.fst = items ∧ HousedAll group key session depot fates reached ∧
      Disposed key session depot fates reached := by
  intro depot consistent held
  have start := Turn.orderly_opening flow clock policy
  have orderly := Turn.run_orderly turns start
  have firstFit : depot.FirstFit :=
    Turn.run_firstFit natural start ⟨nofun, fun _ => List.Pairwise.nil⟩
  have asked : askShelf (·.thresholds.inconsistencies) depot = (.ok [], depot) :=
    congrArg (·, depot) consistent
  obtain ⟨fates, reached, run, areItems, placed, disposed⟩ :=
    placeAll_settles isKey items areNatural distinct held orderly.arranged firstFit consistent
  refine ⟨fates, reached, ?_, areItems, placed, disposed⟩
  rw [offer, Act.bind_of_ok asked, isKey]
  exact run

/-- Of three items the second joins the bin that is opened for the first, and the third finds
no place where one bin may be open. -/
theorem offers_first_fit_of_three :
    let items : List Item := [{ id := "a", size := .int 6 }, { id := "b", size := .int 4 },
      { id := "c", size := .int 5 }]
    let turns : List Turn := [.work (.elsewhere .openSession trivial trivial),
      .work (.elsewhere (.pull 0 3) trivial trivial)]
    let depot := Turn.run
      (opening { source := items } {} { maxSize := some 10, maxBinCount := 1 }) turns
    (∀ turn ∈ turns, turn.Natural) ∧ (∀ item ∈ items, item.HasNaturalSize) ∧
      depot.shelf.thresholds.inconsistencies = .ok [] ∧
      (∀ item ∈ items, item.id ∈ (depot.flow.session 0).ids) ∧
      ∃ fates reached, offer (.text "g") items 0 depot = (.ok (unplaced fates), reached) ∧
        (unplaced fates).map Item.id = ["c"] ∧ reached.shelf.binsOf (.named "g") = [0] ∧
        HousedAll (.text "g") (.named "g") 0 depot fates reached ∧
        Disposed (.named "g") 0 depot fates reached := by
  intro items turns depot
  have natural : ∀ turn ∈ turns, turn.Natural := by simp [turns, Turn.Natural, Step.Natural]
  have areNatural : ∀ item ∈ items, item.HasNaturalSize := by
    simp only [items, List.forall_mem_cons]
    exact ⟨⟨6, rfl⟩, ⟨4, rfl⟩, ⟨5, rfl⟩, List.forall_mem_nil _⟩
  have consistent : depot.shelf.thresholds.inconsistencies = .ok [] := rfl
  have held : ∀ item ∈ items, item.id ∈ (depot.flow.session 0).ids := by decide +kernel
  obtain ⟨fates, reached, run, areItems, placed, disposed⟩ := offers_first_fit
    { source := items } {} { maxSize := some 10, maxBinCount := 1 } turns natural
    (show (Value.text "g").key? = some (.named "g") from rfl) items areNatural
    (by decide) 0 consistent held
  have answer : ((offer (.text "g") items 0 depot).1.toOption.map (·.map Item.id)) =
      some ["c"] := by decide +kernel
  have bins : (offer (.text "g") items 0 depot).2.shelf.binsOf (.named "g") = [0] := by
    decide +kernel
  have run : offer (.text "g") items 0 depot = (.ok (unplaced fates), reached) := run
  rw [run] at answer bins
  exact ⟨natural, areNatural, consistent, held, fates, reached, run, Option.some.inj answer, bins,
    placed, disposed⟩

end Shelf

end ItemBinning
