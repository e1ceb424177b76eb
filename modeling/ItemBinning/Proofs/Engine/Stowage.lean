import ItemBinning.Proofs.Bin.Room
import ItemBinning.Proofs.Engine.IntakeCustody
import ItemBinning.Proofs.Engine.Migration
import ItemBinning.Proofs.Flow.Handover

/-!
# Stowing single items

While sizes are whole and no session holds what another one does, an item that a session
holds can be stowed in one of three ways: it joins an open bin of its group, a bin is filed
for it, or a bin of its own is queued.  In each case the item goes over into the session and
to the end of the contents of one bin, which is within its bounds then, and everything else
stays as it was.  An offer that stows nothing moves nothing, and one that fails does so
because the session does not hold the item.
-/

namespace ItemBinning

/-- The bins agree in everything but how often they turned items down. -/
def Bin.Alike (bin other : Bin) : Prop :=
  bin.resetRejections = other.resetRejections

namespace Bin.Alike

variable {first second third : Bin}

theorem refl (bin : Bin) : bin.Alike bin :=
  rfl

theorem trans (alikeFirst : first.Alike second) (alikeSecond : second.Alike third) :
    first.Alike third :=
  Eq.trans alikeFirst alikeSecond

theorem contents (alike : first.Alike second) : first.contents = second.contents := by
  have same := congrArg Bin.contents alike
  exact same

theorem size (alike : first.Alike second) : first.size = second.size := by
  have same := congrArg Bin.size alike
  exact same

theorem reason (alike : first.Alike second) : first.reason = second.reason := by
  have same := congrArg Bin.reason alike
  exact same

theorem matching (alike : first.Alike second) : first.Matches second := by
  have session := congrArg Bin.session alike
  have bounds := congrArg Bin.bounds alike
  have group := congrArg Bin.group alike
  have created := congrArg Bin.created alike
  exact ⟨session, bounds, group, created⟩

end Bin.Alike

theorem Bin.sizeWith_congr {bin other : Bin} (same : bin.size = other.size) (item : Item) :
    bin.sizeWith item = other.sizeWith item := by
  unfold sizeWith
  rw [same]

namespace Depot

/-- No item moved, and the bins that there were stand where they stood. -/
structure Still (before after : Depot) : Prop where
  source : after.flow.source = before.flow.source
  sinks : after.flow.sinks = before.flow.sinks
  session : ∀ session, after.flow.session session = before.flow.session session
  sessions : before.flow.sessions.next ≤ after.flow.sessions.next
  shelf : after.shelf = before.shelf
  ready : after.ready = before.ready
  next : before.bins.next ≤ after.bins.next
  alike : ∀ bin < before.bins.next, (after.bin bin).Alike (before.bin bin)

/-- An item went from a session into a bin and its session, and nothing else moved. -/
structure Lodged (session : SessionId) (item : Item) (number : BinId)
    (before after : Depot) : Prop where
  held : item.id ∈ (before.flow.session session).ids
  apart : (after.bin number).session ≠ session
  giver : after.flow.session session = (before.flow.session session).release item.id
  taker : (after.binSession number).ids =
    if item.id ∈ (before.flow.session (after.bin number).session).ids then
      (before.flow.session (after.bin number).session).ids
    else (before.flow.session (after.bin number).session).ids ++ [item.id]
  passed : ∀ current, (before.flow.session session).current.find? item.id = some current →
    (after.binSession number).current =
      (before.flow.session (after.bin number).session).current.put item.id current
  bystanders : ∀ other, other ≠ session → other ≠ (after.bin number).session →
    after.flow.session other = before.flow.session other
  source : after.flow.source = before.flow.source
  sinks : after.flow.sinks = before.flow.sinks
  sessions : before.flow.sessions.next ≤ after.flow.sessions.next
  next : before.bins.next ≤ after.bins.next
  isBin : number < after.bins.next
  others : ∀ bin < before.bins.next, bin ≠ number →
    (after.bin bin).Alike (before.bin bin)
  contents : (after.bin number).contents = (before.bin number).contents ++ [item]
  weighed : (before.bin number).sizeWith item = .ok (after.bin number).size
  fits : (after.bin number).WithinBounds

/-- The bin stands among the open bins of a group, where it stood before. -/
structure Joined (key : Key) (number : BinId) (before after : Depot) : Prop where
  among : number ∈ before.shelf.binsOf key
  matching : (after.bin number).Matches (before.bin number)
  shelf : after.shelf = before.shelf
  ready : after.ready = before.ready

/-- The bin and its session are new. -/
structure Fresh (bounds : Bounds) (number : BinId) (before after : Depot) : Prop where
  fresh : before.bins.next ≤ number
  bounds : (after.bin number).bounds = bounds
  session : before.flow.sessions.next ≤ (after.bin number).session

/-- The bin is new and stands at the end of its group, under the bounds in force. -/
structure Filed (key : Key) (number : BinId) (before after : Depot) : Prop
    extends Fresh before.shelf.thresholds.bounds number before after where
  shelf : after.shelf =
    { before.shelf.setGroup key (before.shelf.binsOf key ++ [number]) with
      binCount := before.shelf.binCount + 1 }
  ready : after.ready = before.ready

/-- The bin is new and stands at the end of the queue. -/
structure Enqueued (number : BinId) (before after : Depot) : Prop
    extends Fresh Bounds.relaxed number before after where
  shelf : after.shelf = before.shelf
  ready : after.ready = before.ready ++ [number]
  reason : (after.bin number).reason = some .unbound

/-- An item went into a bin of a key that is open or queued now. -/
structure Stowed (session : SessionId) (key : Key) (item : Item) (number : BinId)
    (before after : Depot) : Prop extends Lodged session item number before after where
  place : Joined key number before after ∨ Filed key number before after ∨
    Enqueued number before after
  keyed : (after.bin number).group.key? = some key

/-- What becomes of an item for which a place is sought. -/
inductive Placing (session : SessionId) (key : Key) (item : Item) (before : Depot) :
    Except Fault Bool × Depot → Prop
  | unplaced {reached : Depot} (still : before.Still reached) :
      Placing session key item before (.ok false, reached)
  | absent {fault : Fault} {reached : Depot} (still : before.Still reached)
      (absent : item.id ∉ (before.flow.session session).ids) :
      Placing session key item before (.error fault, reached)
  | stowed {number : BinId} {reached : Depot}
      (stowed : before.Stowed session key item number reached) :
      Placing session key item before (.ok true, reached)

/-- What becomes of an item that is offered to a bin. -/
inductive Taking (session : SessionId) (item : Item) (number : BinId) (before : Depot) :
    Except Fault Bool × Depot → Prop
  | turnedDown {reached : Depot} (still : before.Still reached)
      (noRoom : (before.bin number).turnsDown item = .ok true) :
      Taking session item number before (.ok false, reached)
  | absent {fault : Fault} {reached : Depot} (still : before.Still reached)
      (absent : item.id ∉ (before.flow.session session).ids) :
      Taking session item number before (.error fault, reached)
  | taken {reached : Depot} (lodged : before.Lodged session item number reached) :
      Taking session item number before (.ok true, reached)

namespace Still

variable {first second third before after : Depot}

theorem refl (depot : Depot) : depot.Still depot :=
  ⟨rfl, rfl, fun _ => rfl, Nat.le_refl _, rfl, rfl, Nat.le_refl _, fun _ _ => .refl _⟩

theorem trans (stillFirst : first.Still second) (stillSecond : second.Still third) :
    first.Still third where
  source := stillSecond.source.trans stillFirst.source
  sinks := stillSecond.sinks.trans stillFirst.sinks
  session session := (stillSecond.session session).trans (stillFirst.session session)
  sessions := Nat.le_trans stillFirst.sessions stillSecond.sessions
  shelf := stillSecond.shelf.trans stillFirst.shelf
  ready := stillSecond.ready.trans stillFirst.ready
  next := Nat.le_trans stillFirst.next stillSecond.next
  alike bin isBin :=
    (stillSecond.alike bin (Nat.lt_of_lt_of_le isBin stillFirst.next)).trans
      (stillFirst.alike bin isBin)

theorem setBin (depot : Depot) {number : BinId} {bin : Bin}
    (alike : bin.Alike (depot.bin number)) : depot.Still (depot.setBin number bin) where
  source := rfl
  sinks := rfl
  session _ := rfl
  sessions := Nat.le_refl _
  shelf := rfl
  ready := rfl
  next := Slots.next_le_next_set _ _ _
  alike other _ := by
    rw [bin_setBin]
    split
    · rename_i same
      exact same ▸ alike
    · exact .refl _

theorem withBin (depot : Depot) (bounds : Bounds) (group : Value) :
    depot.Still (depot.withBin bounds group) where
  source := rfl
  sinks := rfl
  session := Flow.session_push depot.flow
  sessions := by
    rw [sessions_withBin]
    omega
  shelf := rfl
  ready := rfl
  next := by
    rw [next_withBin]
    omega
  alike bin isBin := by
    rw [bin_withBin_of_lt _ _ _ isBin]
    exact .refl _

theorem stored (still : before.Still after) (bin : BinId) :
    after.Stored bin ↔ before.Stored bin := by
  unfold Depot.Stored
  rw [still.shelf, still.ready]

/-- What an item does after nothing moved, it does from the start. -/
theorem lodged (still : first.Still second) {session : SessionId} {item : Item}
    {number : BinId} (lodged : second.Lodged session item number third)
    (contents : (second.bin number).contents = (first.bin number).contents)
    (size : (second.bin number).size = (first.bin number).size) :
    first.Lodged session item number third where
  held := still.session session ▸ lodged.held
  apart := lodged.apart
  giver := by rw [lodged.giver, still.session]
  taker := by rw [lodged.taker, still.session]
  passed current found := by
    rw [lodged.passed current (still.session session ▸ found), still.session]
  bystanders other notGiver notTaker := by
    rw [lodged.bystanders other notGiver notTaker, still.session]
  source := lodged.source.trans still.source
  sinks := lodged.sinks.trans still.sinks
  sessions := Nat.le_trans still.sessions lodged.sessions
  next := Nat.le_trans still.next lodged.next
  isBin := lodged.isBin
  others bin isBin differs :=
    (lodged.others bin (Nat.lt_of_lt_of_le isBin still.next) differs).trans
      (still.alike bin isBin)
  contents := by rw [lodged.contents, contents]
  weighed := by rw [← lodged.weighed, Bin.sizeWith_congr size]
  fits := lodged.fits

theorem fresh (still : first.Still second) {bounds : Bounds} {number : BinId}
    (fresh : Fresh bounds number second third) : Fresh bounds number first third where
  fresh := Nat.le_trans still.next fresh.fresh
  bounds := fresh.bounds
  session := Nat.le_trans still.sessions fresh.session

theorem stowed (arranged : first.Arranged) (still : first.Still second)
    {session : SessionId} {key : Key} {item : Item} {number : BinId}
    (stowed : second.Stowed session key item number third) :
    first.Stowed session key item number third := by
  -- a bin that is not new has the contents it had, and a new one begins without any
  have isNew : second.bins.next ≤ number → first.Lodged session item number third := by
    intro isNew
    have none (depot : Depot) (free : depot.bins.next ≤ number) :
        depot.bin number = default :=
      Slots.get_of_next_le free
    have same : second.bin number = first.bin number := by
      rw [none second isNew, none first (Nat.le_trans still.next isNew)]
    exact still.lodged stowed.toLodged (by rw [same]) (by rw [same])
  rcases stowed.place with joined | filed | enqueued
  · have among : number ∈ first.shelf.binsOf key := still.shelf ▸ joined.among
    have alike := still.alike number (arranged.isBin key number among)
    exact ⟨still.lodged stowed.toLodged alike.contents alike.size,
      .inl ⟨among, joined.matching.trans alike.matching, joined.shelf.trans still.shelf,
        joined.ready.trans still.ready⟩, stowed.keyed⟩
  · have again : Filed key number first third :=
      ⟨still.shelf ▸ still.fresh filed.toFresh, still.shelf ▸ filed.shelf,
        filed.ready.trans still.ready⟩
    exact ⟨isNew filed.fresh, .inr (.inl again), stowed.keyed⟩
  · exact ⟨isNew enqueued.fresh, .inr (.inr ⟨still.fresh enqueued.toFresh,
      enqueued.shelf.trans still.shelf, still.ready ▸ enqueued.ready, enqueued.reason⟩),
      stowed.keyed⟩

end Still

theorem Lodged.mem_taker {before after : Depot} {session : SessionId} {item : Item}
    {number : BinId} (lodged : before.Lodged session item number after) {id : String} :
    id ∈ (after.binSession number).ids ↔
      id ∈ (before.flow.session (after.bin number).session).ids ∨ id = item.id := by
  rw [lodged.taker]
  split
  · rename_i held
    refine ⟨.inl, ?_⟩
    rintro (old | rfl)
    · exact old
    · exact held
  · rw [List.mem_append, List.mem_singleton]

/-- The bin may change its state and its reason after it took the item. -/
theorem Lodged.marked {before after marked : Depot} {session : SessionId} {item : Item}
    {number : BinId} (lodged : before.Lodged session item number after)
    (flow : marked.flow = after.flow) (next : marked.bins.next = after.bins.next)
    (others : ∀ bin, bin ≠ number → marked.bin bin = after.bin bin)
    {state : BinState} {reason : Option ReadyReason}
    (isMarked : marked.bin number = { after.bin number with state, reason }) :
    before.Lodged session item number marked where
  held := lodged.held
  apart := by rw [isMarked]; exact lodged.apart
  giver := by rw [flow, lodged.giver]
  taker := by
    unfold binSession
    rw [isMarked, flow]
    exact lodged.taker
  passed := by
    unfold binSession
    rw [isMarked, flow]
    exact lodged.passed
  bystanders := by
    rw [isMarked, flow]
    exact lodged.bystanders
  source := by rw [flow, lodged.source]
  sinks := by rw [flow, lodged.sinks]
  sessions := flow ▸ lodged.sessions
  next := next ▸ lodged.next
  isBin := next ▸ lodged.isBin
  others bin isBin differs := by
    rw [others bin differs]
    exact lodged.others bin isBin differs
  contents := by rw [isMarked]; exact lodged.contents
  weighed := by rw [isMarked]; exact lodged.weighed
  fits := by
    rw [isMarked]
    exact ⟨lodged.fits.entries, lodged.fits.size⟩

theorem Placing.after {before between : Depot} (arranged : before.Arranged)
    (still : before.Still between) {session : SessionId} {key : Key} {item : Item}
    {run : Except Fault Bool × Depot} (placing : between.Placing session key item run) :
    before.Placing session key item run := by
  cases placing with
  | unplaced later => exact .unplaced (still.trans later)
  | absent later absent => exact .absent (still.trans later) (still.session session ▸ absent)
  | stowed stowed => exact .stowed (still.stowed arranged stowed)

section Offers

variable {property : Flow → Prop} {inUse : List SessionId} {depot : Depot}
  {session : SessionId} {key : Key} {item : Item}

/-- The session was opened, and neither an open nor a queued bin owns it. -/
structure Loose (session : SessionId) (depot : Depot) : Prop where
  isOpened : session < depot.flow.sessions.next
  notOwned : ¬ depot.Owned session

theorem Loose.still {after : Depot} (loose : depot.Loose session)
    (arranged : depot.Arranged) (queued : depot.Queued) (still : depot.Still after) :
    after.Loose session where
  isOpened := Nat.lt_of_lt_of_le loose.isOpened still.sessions
  notOwned := by
    rintro ⟨bin, stored, same⟩
    have stored := (still.stored bin).1 stored
    have isBin : bin < depot.bins.next :=
      stored.elim arranged.isBin_of_mem_bins (queued.isBin bin)
    exact loose.notOwned ⟨bin, stored, (still.alike bin isBin).matching.session ▸ same⟩

/-- What it looks like when an open bin has taken an item over. -/
theorem lodged_handed {number : BinId} (isBin : number < depot.bins.next)
    (apart : (depot.bin number).session ≠ session) {current : Item}
    (found : (depot.flow.session session).current.find? item.id = some current)
    (room : (depot.bin number).turnsDown item = .ok false) {size : Int}
    (weighed : (depot.bin number).sizeWith item = .ok (.int size)) :
    depot.Lodged session item number
      { depot.setBin number
          { (depot.bin number).resetRejections.take item with size := .int size } with
        flow := depot.flow.handed session (depot.bin number).session item.id current } := by
  have held : item.id ∈ (depot.flow.session session).ids :=
    Session.mem_ids_iff.2 ⟨current, found⟩
  obtain ⟨after, isAfter⟩ : ∃ after, after = { depot.setBin number
      { (depot.bin number).resetRejections.take item with size := .int size } with
        flow := depot.flow.handed session (depot.bin number).session item.id current } :=
    ⟨_, rfl⟩
  have bins : after.bins = (depot.setBin number
      { (depot.bin number).resetRejections.take item with size := .int size }).bins := by
    rw [isAfter]
  have flow : after.flow =
      depot.flow.handed session (depot.bin number).session item.id current := by
    rw [isAfter]
  have inBin : after.bin number =
      { (depot.bin number).resetRejections.take item with size := .int size } := by
    unfold Depot.bin
    rw [bins]
    exact bin_setBin_self depot number _
  have owner : (after.bin number).session = (depot.bin number).session := by
    rw [inBin]
    rfl
  have next : after.bins.next = depot.bins.next := by
    rw [bins]
    exact Slots.next_set_of_lt isBin _
  rw [← isAfter]
  constructor
  case held => exact held
  case apart => rw [owner]; exact apart
  case giver => rw [flow, Flow.session_handed_source apart.symm]
  case taker =>
    unfold binSession
    rw [owner, flow, Flow.ids_handed_target apart.symm]
  case passed =>
    intro given isGiven
    rw [found] at isGiven
    cases isGiven
    unfold binSession
    rw [owner, flow, Flow.current_handed_target apart.symm]
  case bystanders =>
    intro other notGiver notTaker
    rw [owner] at notTaker
    rw [flow, Flow.session_handed_of_ne notGiver notTaker]
  case source => rw [flow]; rfl
  case sinks => rw [flow]; rfl
  case sessions =>
    rw [flow]
    exact (Flow.carried_sessions depot.flow.sessions.next).handed depot.flow session _
      item.id current (Nat.le_refl _) apart.symm found
  case next => exact Nat.le_of_eq next.symm
  case isBin => rw [next]; exact isBin
  case others =>
    intro bin _ differs
    have same : after.bin bin = depot.bin bin := by
      unfold Depot.bin
      rw [bins]
      exact Slots.get_set_ne _ _ differs
    rw [same]
    exact .refl _
  case contents => rw [inBin]; rfl
  case weighed => rw [inBin, weighed]
  case fits =>
    rw [inBin]
    exact Bin.withinBounds_of_room room weighed rfl rfl rfl

theorem offerTo_taking (sound : depot.Sound property inUse)
    {number : BinId} (isBin : number < depot.bins.next)
    (opened : (depot.bin number).state = .opened)
    (apart : (depot.bin number).session ≠ session) (whole : item.HasWholeSize) :
    depot.Taking session item number (offerTo number item session depot) := by
  obtain ⟨size, isSize⟩ := sound.weighed number
  obtain ⟨total, isTotal⟩ := Bin.exists_sizeWith isSize whole
  have outcome := offerTo_outcome number item session depot
  generalize offerTo number item session depot = run at outcome
  cases outcome with
  | refused fault reason =>
      obtain ⟨answer, isAnswer⟩ := Bin.exists_turnsDown
        (sound.arranged.registered.bounds number isBin) isSize whole
      rw [isAnswer] at reason
      rcases reason with closed | failed
      · exact absurd opened closed
      · cases failed
  | turnedDown _ noRoom => exact .turnedDown (.setBin depot rfl) noRoom
  | kept fault flow _ _ migrated =>
      rcases Flow.migrate_one_cases apart.symm item depot.flow with
        ⟨absent, run⟩ | ⟨_, _, run⟩
      · rw [migrated] at run
        cases run
        exact .absent (.setBin depot rfl) absent
      · rw [migrated] at run
        cases run
  | unweighed fault flow _ _ _ weighed =>
      rw [isTotal] at weighed
      cases weighed
  | taken size flow _ room migrated weighed =>
      rw [isTotal] at weighed
      cases weighed
      rcases Flow.migrate_one_cases apart.symm item depot.flow with
        ⟨_, run⟩ | ⟨current, found, run⟩
      · rw [migrated] at run
        cases run
      · rw [migrated] at run
        cases run
        exact .taken (lodged_handed isBin apart found room isTotal)

theorem Steady.fresh_withBin {bounds : Bounds} {group : Value} {reached : Depot}
    (steady : (depot.withBin bounds group).Steady reached) :
    Fresh bounds depot.bins.next depot reached where
  fresh := Nat.le_refl _
  bounds := by rw [(steady.matching _).bounds, bin_withBin_next]
  session := Nat.le_of_eq (by rw [(steady.matching _).session, bin_withBin_next])

theorem Steady.group_withBin {bounds : Bounds} {group : Value} {reached : Depot}
    (steady : (depot.withBin bounds group).Steady reached) :
    (reached.bin depot.bins.next).group = group := by
  rw [(steady.matching _).group, bin_withBin_next]

/-- An item is offered to a bin that was created for it. -/
theorem offerTo_fresh_taking (sound : depot.Sound property inUse)
    (carried : Flow.Carried property) (loose : depot.Loose session) {bounds : Bounds}
    (wholeBounds : bounds.Whole) (group : Value) (whole : item.HasWholeSize)
    {answer : Except Fault Bool} {reached : Depot}
    (run : offerTo depot.bins.next item session (depot.withBin bounds group) =
      (answer, reached)) :
    (answer = .ok false ∧ depot.Still reached ∧ bounds ≠ Bounds.relaxed) ∨
      ((∃ fault, answer = .error fault) ∧ depot.Still reached ∧
        item.id ∉ (depot.flow.session session).ids) ∨
      (answer = .ok true ∧ depot.Lodged session item depot.bins.next reached ∧
        (depot.withBin bounds group).Steady reached) := by
  have created : depot.Still (depot.withBin bounds group) := .withBin depot bounds group
  have none : depot.bin depot.bins.next = default := Slots.get_of_next_le (Nat.le_refl _)
  have isBin := lt_next_withBin depot bounds group
  have steady : (depot.withBin bounds group).Steady reached := by
    have steady := Act.Meets.final (offerTo_steady isBin item session) (.refl _)
    rwa [run] at steady
  have taking := offerTo_taking
    (sound.withBin carried wholeBounds group) isBin
    (by rw [bin_withBin_next])
    (by
      rw [bin_withBin_next]
      exact Nat.ne_of_gt loose.isOpened) whole
  rw [run] at taking
  cases taking with
  | turnedDown still noRoom =>
      refine .inl ⟨rfl, created.trans still, ?_⟩
      rintro rfl
      rw [bin_withBin_next, Bin.turnsDown_relaxed rfl] at noRoom
      cases noRoom
  | absent still absent =>
      exact .inr (.inl ⟨⟨_, rfl⟩, created.trans still, created.session session ▸ absent⟩)
  | taken lodged =>
      refine .inr (.inr ⟨rfl, created.lodged lodged ?_ ?_, steady⟩) <;>
        rw [bin_withBin_next, none] <;> rfl

end Offers

end Depot

namespace Shelf

open Depot

variable {property : Flow → Prop} {inUse : List SessionId} {depot : Depot}
  {session : SessionId} {key : Key} {item : Item}

theorem offerToFirst_placing (bins : List BinId)
    (sound : depot.Sound property inUse) (carried : Flow.Carried property)
    (loose : depot.Loose session) (among : ∀ bin ∈ bins, bin ∈ depot.shelf.binsOf key)
    (whole : item.HasWholeSize) :
    depot.Placing session key item (offerToFirst item session bins depot) := by
  induction bins generalizing depot with
  | nil => exact .unplaced (.refl depot)
  | cons bin rest ih =>
      have inGroup := among bin (by simp)
      have onShelf : bin ∈ depot.shelf.bins := Shelf.mem_bins_iff.2 ⟨key, inGroup⟩
      have isBin := sound.arranged.isBin key bin inGroup
      have apart : (depot.bin bin).session ≠ session :=
        fun same => loose.notOwned ⟨bin, .inl onShelf, same⟩
      have taking := offerTo_taking sound isBin
        (sound.arranged.opened key bin inGroup) apart whole
      have steady : depot.Steady (offerTo bin item session depot).2 :=
        Act.Meets.final (offerTo_steady isBin item session) (.refl depot)
      have offered := offerTo_sound carried sound isBin
        (.inr ⟨bin, .inl onShelf, rfl⟩) whole session
      unfold offerToFirst
      rcases run : offerTo bin item session depot with ⟨answer, reached⟩
      rw [run] at taking steady offered
      cases taking with
      | turnedDown still _ =>
          rw [Act.bind_of_ok run]
          refine Placing.after sound.arranged still (ih offered
            (loose.still sound.arranged sound.queued still) fun other later => ?_)
          rw [still.shelf]
          exact among other (List.mem_cons_of_mem _ later)
      | absent still absent =>
          rw [Act.bind_of_error run]
          exact .absent still absent
      | taken lodged =>
          rw [Act.bind_of_ok run]
          refine .stowed ⟨lodged, .inl ⟨inGroup, steady.matching bin, steady.shelf,
            steady.ready⟩, ?_⟩
          rw [(steady.matching bin).group]
          exact sound.arranged.filed key bin inGroup

theorem openBinFor_placing {group : Value} (isKey : group.key? = some key)
    (sound : depot.Sound property inUse) (carried : Flow.Carried property)
    (loose : depot.Loose session) (whole : item.HasWholeSize) :
    depot.Placing session key item (openBinFor group key item session depot) := by
  have wholeBounds := sound.arranged.thresholds.bounds
  rw [openBinFor_apply]
  rcases run : offerTo depot.bins.next item session
    (depot.withBin depot.shelf.thresholds.bounds group) with ⟨answer, reached⟩
  rcases offerTo_fresh_taking sound carried loose wholeBounds group whole run with
    ⟨rfl, still, _⟩ | ⟨⟨fault, rfl⟩, still, absent⟩ | ⟨rfl, lodged, steady⟩
  · rw [Act.bind_of_ok run]
    exact .unplaced still
  · rw [Act.bind_of_error run]
    exact .absent still absent
  · rw [Act.bind_of_ok run]
    obtain ⟨filed, isFiled⟩ : ∃ filed, filed = { reached with
        shelf := { reached.shelf.setGroup key
            (reached.shelf.binsOf key ++ [depot.bins.next]) with
          binCount := reached.shelf.binCount + 1 } } := ⟨_, rfl⟩
    have same : filed.bin depot.bins.next = reached.bin depot.bins.next := by
      rw [isFiled]
      rfl
    have ended : (do
        modifyShelf fun shelf =>
          { shelf.setGroup key (shelf.binsOf key ++ [depot.bins.next]) with
            binCount := shelf.binCount + 1 }
        pure true : Act Depot Bool) reached = (.ok true, filed) := by
      rw [isFiled]
      rfl
    rw [if_pos rfl, ended]
    have fresh := steady.fresh_withBin
    refine .stowed ⟨lodged.marked ?_ ?_ ?_ same, .inr (.inl ⟨⟨fresh.fresh, ?_, ?_⟩, ?_, ?_⟩),
      ?_⟩
    · rw [isFiled]
    · rw [isFiled]
    · intro bin _
      rw [isFiled]
      rfl
    · rw [same]
      exact fresh.bounds
    · rw [same]
      exact fresh.session
    · rw [isFiled]
      dsimp only
      rw [steady.shelf]
      rfl
    · rw [isFiled]
      exact steady.ready
    · rw [same, steady.group_withBin]
      exact isKey

theorem place_placing {group : Value} (isKey : group.key? = some key)
    (sound : depot.Sound property inUse) (carried : Flow.Carried property)
    (loose : depot.Loose session) (whole : item.HasWholeSize) :
    depot.Placing session key item (place group key item session depot) := by
  have offered := offerToFirst_placing (depot.shelf.binsOf key) sound carried loose
    (fun _ => id) whole
  have kept := Act.Meets.final (@offerToFirst_sound _ inUse
    carried _ whole session (depot.shelf.binsOf key) depot
    sound.arranged fun bin member => mem_bins_iff.2 ⟨key, member⟩)
    ⟨Steady.refl depot, sound⟩
  unfold place
  rw [Act.read_bind]
  rcases run : offerToFirst item session (depot.shelf.binsOf key) depot
    with ⟨answer, reached⟩
  rw [run] at offered kept
  cases offered with
  | absent still absent =>
      rw [Act.bind_of_error run]
      exact .absent still absent
  | stowed stowed =>
      rw [Act.bind_of_ok run]
      exact .stowed stowed
  | unplaced still =>
      rw [Act.bind_of_ok run]
      obtain ⟨full, isFull⟩ := Engine.exists_isAtCapacity kept.2.arranged.thresholds
      have asked : askShelf Shelf.isAtCapacity reached = (.ok full, reached) :=
        congrArg (·, reached) isFull
      rw [if_neg (by simp), Act.bind_of_ok asked]
      cases full with
      | true => exact .unplaced still
      | false =>
          have loose := loose.still sound.arranged sound.queued still
          exact .after sound.arranged still
            (openBinFor_placing isKey kept.2 carried loose whole)

end Shelf

namespace Engine

open Depot

variable {property : Flow → Prop} {inUse : List SessionId} {depot : Depot}
  {session : SessionId} {key : Key} {item : Item}

/-- An item that is held is queued in a bin of its own. -/
theorem queueUnbound_stowing {group : Value} (isKey : group.key? = some key)
    (sound : depot.Sound property inUse) (carried : Flow.Carried property)
    (loose : depot.Loose session) (whole : item.HasWholeSize) :
    (∃ fault reached, queueUnbound group session item depot = (.error fault, reached) ∧
        depot.Still reached ∧ item.id ∉ (depot.flow.session session).ids) ∨
      ∃ number reached, queueUnbound group session item depot = (.ok (), reached) ∧
        depot.Stowed session key item number reached := by
  rw [queueUnbound_apply]
  rcases run : offerTo depot.bins.next item session (depot.withBin Bounds.relaxed group)
    with ⟨answer, reached⟩
  rcases offerTo_fresh_taking sound carried loose Bounds.whole_relaxed group whole run with
    ⟨_, _, notRelaxed⟩ | ⟨⟨fault, rfl⟩, still, absent⟩ | ⟨rfl, lodged, steady⟩
  · exact absurd rfl notRelaxed
  · exact .inl ⟨fault, reached, Act.bind_of_error run _, still, absent⟩
  · have isBin := steady.isBin_withBin
    have fresh := steady.fresh_withBin
    obtain ⟨queued, isQueued⟩ : ∃ queued, queued = { reached.setBin depot.bins.next
        { reached.bin depot.bins.next with state := .ready, reason := some .unbound } with
          ready := reached.ready ++ [depot.bins.next] } := ⟨_, rfl⟩
    have bins : queued.bins = (reached.setBin depot.bins.next
        { reached.bin depot.bins.next with
          state := .ready, reason := some .unbound }).bins := by
      rw [isQueued]
    have marked : queued.bin depot.bins.next = { reached.bin depot.bins.next with
        state := .ready, reason := some .unbound } := by
      unfold Depot.bin
      rw [bins]
      exact bin_setBin_self reached _ _
    refine .inr ⟨depot.bins.next, queued, ?_, lodged.marked ?_ ?_ ?_ marked,
      .inr (.inr ⟨⟨fresh.fresh, ?_, ?_⟩, ?_, ?_, ?_⟩), ?_⟩
    · rw [Act.bind_of_ok run, Act.bind_of_ok (markReady_eq .unbound steady.opened_withBin),
        isQueued]
      rfl
    · rw [isQueued]
      rfl
    · rw [bins]
      exact Slots.next_set_of_lt isBin _
    · intro bin differs
      unfold Depot.bin
      rw [bins]
      exact Slots.get_set_ne _ _ differs
    · rw [marked]
      exact fresh.bounds
    · rw [marked]
      exact fresh.session
    · rw [isQueued]
      exact steady.shelf
    · rw [isQueued]
      exact congrArg (· ++ [depot.bins.next]) steady.ready
    · rw [marked]
    · rw [marked]
      exact steady.group_withBin ▸ isKey

end Engine

end ItemBinning
