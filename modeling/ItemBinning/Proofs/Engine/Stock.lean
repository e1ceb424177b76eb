import ItemBinning.Proofs.Engine.Chunks

/-!
# What is in the bins

A bin that is well filled holds in its session just its contents, in their order; its
size is the sum of theirs, they fit into its bounds, and each of them was given its group.
Whatever leaves the bins and their sessions intact leaves them well filled, and stowing an
item into a well filled or a new bin does too.
-/

namespace ItemBinning

namespace Depot

/-- The bins that there were keep what they were created with. -/
structure Lasting (before after : Depot) : Prop where
  next : before.bins.next ≤ after.bins.next
  matching : ∀ bin < before.bins.next, (after.bin bin).Matches (before.bin bin)

/-- What is open or queued now was so before, with the same contents in its session, and
no other bin was queued because its item found no place. -/
structure Intact (before after : Depot) : Prop extends Lasting before after where
  sessions : before.flow.sessions.next ≤ after.flow.sessions.next
  shelved : after.shelf.bins ⊆ before.shelf.bins
  stored : ∀ bin, after.Stored bin → before.Stored bin
  contents : ∀ bin, after.Stored bin → (after.bin bin).contents = (before.bin bin).contents
  size : ∀ bin, after.Stored bin → (after.bin bin).size = (before.bin bin).size
  held : ∀ bin, after.Stored bin → (after.binSession bin).ids = (before.binSession bin).ids
  unbound : ∀ bin ∈ after.ready, (after.bin bin).reason = some .unbound →
    bin ∈ before.ready ∧ (before.bin bin).reason = some .unbound

/-- The items in the bin are those in its session, fit into it, and were given its group. -/
structure WellFilled (given : Key → Item → Prop) (depot : Depot) (bin : BinId) : Prop where
  weighs : (depot.bin bin).Weighs
  within : (depot.bin bin).WithinBounds
  held : (depot.binSession bin).ids = (depot.bin bin).contents.map Item.id
  grouped : ∃ key, (depot.bin bin).group.key? = some key ∧
    ∀ item ∈ (depot.bin bin).contents, given key item

/-- What is expected of bins: that they last since some time, own no session that was
opened in advance, began with certain bounds, and hold what was given. -/
structure Terms where
  origin : Depot
  aside : SessionId
  begun : BinId → Bounds → Prop
  given : Key → Item → Prop

/-- Bins may begin with any bounds and hold anything. -/
def Terms.lenient (origin : Depot) (aside : SessionId) : Terms where
  origin
  aside
  begun _ _ := True
  given _ _ := True

/-- All bins that are open or queued are well filled, and those that are queued because
their item found no place hold nothing else. -/
structure Stocked (terms : Terms) (depot : Depot) : Prop where
  lasting : terms.origin.Lasting depot
  opened : terms.aside ≤ depot.flow.sessions.next
  isBin : ∀ bin, depot.Stored bin → bin < depot.bins.next
  apart : ∀ bin, depot.Stored bin → terms.aside ≤ (depot.bin bin).session
  begun : ∀ bin ∈ depot.shelf.bins, terms.begun bin (depot.bin bin).bounds
  filled : ∀ bin, depot.Stored bin → WellFilled terms.given depot bin
  single : ∀ bin ∈ depot.ready, (depot.bin bin).reason = some .unbound →
    (depot.bin bin).entryCount = 1

namespace Lasting

theorem refl (depot : Depot) : depot.Lasting depot :=
  ⟨Nat.le_refl _, fun _ _ => .refl _⟩

theorem trans {first second third : Depot} (lastingFirst : first.Lasting second)
    (lastingSecond : second.Lasting third) : first.Lasting third where
  next := Nat.le_trans lastingFirst.next lastingSecond.next
  matching bin isBin :=
    (lastingSecond.matching bin (Nat.lt_of_lt_of_le isBin lastingFirst.next)).trans
      (lastingFirst.matching bin isBin)

end Lasting

namespace Intact

variable {first second third before after : Depot}

theorem refl (depot : Depot) : depot.Intact depot :=
  ⟨.refl depot, Nat.le_refl _, fun _ => id, fun _ => id, fun _ _ => rfl, fun _ _ => rfl,
    fun _ _ => rfl, fun _ queued unbound => ⟨queued, unbound⟩⟩

theorem trans (intactFirst : first.Intact second) (intactSecond : second.Intact third) :
    first.Intact third where
  toLasting := intactFirst.toLasting.trans intactSecond.toLasting
  sessions := Nat.le_trans intactFirst.sessions intactSecond.sessions
  shelved _ onShelf := intactFirst.shelved (intactSecond.shelved onShelf)
  stored bin stored := intactFirst.stored bin (intactSecond.stored bin stored)
  contents bin stored := by
    rw [intactSecond.contents bin stored,
      intactFirst.contents bin (intactSecond.stored bin stored)]
  size bin stored := by
    rw [intactSecond.size bin stored, intactFirst.size bin (intactSecond.stored bin stored)]
  held bin stored := by
    rw [intactSecond.held bin stored, intactFirst.held bin (intactSecond.stored bin stored)]
  unbound bin queued unbound :=
    have ⟨queued, unbound⟩ := intactSecond.unbound bin queued unbound
    intactFirst.unbound bin queued unbound

/-- Bins that stay as they are stay intact if the ids in their sessions do. -/
theorem of_same (bins : after.bins = before.bins)
    (sessions : before.flow.sessions.next ≤ after.flow.sessions.next)
    (shelved : after.shelf.bins ⊆ before.shelf.bins) (queued : after.ready ⊆ before.ready)
    (held : ∀ session, before.Owned session →
      (after.flow.session session).ids = (before.flow.session session).ids) :
    before.Intact after := by
  have same (bin : BinId) : after.bin bin = before.bin bin := by
    unfold Depot.bin
    rw [bins]
  have stored (bin : BinId) (stored : after.Stored bin) : before.Stored bin :=
    stored.imp (shelved ·) (queued ·)
  constructor
  case toLasting => exact ⟨Nat.le_of_eq (by rw [bins]), fun bin _ => same bin ▸ .refl _⟩
  case sessions => exact sessions
  case shelved => exact shelved
  case stored => exact stored
  case contents => exact fun bin _ => by rw [same]
  case size => exact fun bin _ => by rw [same]
  case held =>
    intro bin isStored
    unfold binSession
    rw [same]
    exact held _ ⟨bin, stored bin isStored, rfl⟩
  case unbound => exact fun bin isQueued unbound => ⟨queued isQueued, same bin ▸ unbound⟩

/-- A bin that is neither open nor queued may change in all but what it was created with. -/
theorem setBin (depot : Depot) {number : BinId} (notStored : ¬ depot.Stored number)
    {bin : Bin} (matching : bin.Matches (depot.bin number)) :
    depot.Intact (depot.setBin number bin) := by
  have same (other : BinId) (stored : depot.Stored other) :
      (depot.setBin number bin).bin other = depot.bin other := by
    rw [bin_setBin, if_neg]
    rintro rfl
    exact notStored stored
  constructor
  case toLasting =>
    constructor
    · exact Slots.next_le_next_set _ _ _
    · intro other _
      rw [bin_setBin]
      split
      · rename_i isNumber
        exact isNumber ▸ matching
      · exact .refl _
  case sessions => exact Nat.le_refl _
  case shelved => exact fun _ => id
  case stored => exact fun _ => id
  case contents => exact fun other stored => by rw [same other stored]
  case size => exact fun other stored => by rw [same other stored]
  case held =>
    intro other stored
    unfold binSession
    rw [same other stored]
    rfl
  case unbound => exact fun other queued unbound => ⟨queued, same other (.inr queued) ▸ unbound⟩

/-- Nothing that is open or queued has to be intact if nothing is. -/
theorem of_emptied (lasting : before.Lasting after)
    (sessions : before.flow.sessions.next ≤ after.flow.sessions.next)
    (shelved : after.shelf.bins = []) (queued : after.ready = []) : before.Intact after := by
  have none (bin : BinId) : ¬ after.Stored bin := by
    simp [Stored, shelved, queued]
  constructor
  case toLasting => exact lasting
  case sessions => exact sessions
  case shelved => simp [shelved]
  case stored => exact fun bin stored => absurd stored (none bin)
  case contents => exact fun bin stored => absurd stored (none bin)
  case size => exact fun bin stored => absurd stored (none bin)
  case held => exact fun bin stored => absurd stored (none bin)
  case unbound => simp [queued]

/-- What a session does that no bin owns leaves the bins intact. -/
theorem of_flow {session : SessionId} (notOwned : ¬ before.Owned session) {flow : Flow}
    (sessions : before.flow.sessions.next ≤ flow.sessions.next)
    (others : ∀ other, other ≠ session → flow.session other = before.flow.session other) :
    before.Intact { before with flow } := by
  refine of_same rfl sessions (fun _ => id) (fun _ => id) fun other owned => ?_
  have differs : other ≠ session := by
    rintro rfl
    exact notOwned owned
  exact congrArg Session.ids (others other differs)

end Intact

section Stocked

variable {terms : Terms} {before after : Depot} {property : Flow → Prop}
  {session : SessionId}

/-- Nothing is expected where nothing is open or queued. -/
theorem Stocked.of_empty (lasting : terms.origin.Lasting before)
    (opened : terms.aside ≤ before.flow.sessions.next)
    (shelved : before.shelf.bins = []) (queued : before.ready = []) :
    before.Stocked terms := by
  have none (bin : BinId) : ¬ before.Stored bin := by
    simp [Stored, shelved, queued]
  constructor
  case lasting => exact lasting
  case opened => exact opened
  case isBin => exact fun bin stored => absurd stored (none bin)
  case apart => exact fun bin stored => absurd stored (none bin)
  case begun => simp [shelved]
  case filled => exact fun bin stored => absurd stored (none bin)
  case single => simp [queued]

theorem WellFilled.of_same {given : Key → Item → Prop} {bin : BinId}
    (filled : WellFilled given before bin)
    (matching : (after.bin bin).Matches (before.bin bin))
    (contents : (after.bin bin).contents = (before.bin bin).contents)
    (size : (after.bin bin).size = (before.bin bin).size)
    (held : (after.binSession bin).ids = (before.binSession bin).ids) :
    WellFilled given after bin where
  weighs := filled.weighs.of_same contents size
  within := by
    constructor
    · unfold Bin.entryCount
      rw [matching.bounds, contents]
      exact filled.within.entries
    · rw [matching.bounds, size]
      exact filled.within.size
  held := by rw [held, contents, filled.held]
  grouped := by
    rw [matching.group, contents]
    exact filled.grouped

theorem Stocked.intact (stocked : before.Stocked terms)
    (intact : before.Intact after) : after.Stocked terms := by
  have matching (bin : BinId) (stored : after.Stored bin) :
      (after.bin bin).Matches (before.bin bin) :=
    intact.matching bin (stocked.isBin bin (intact.stored bin stored))
  constructor
  case lasting => exact stocked.lasting.trans intact.toLasting
  case opened => exact Nat.le_trans stocked.opened intact.sessions
  case isBin =>
    intro bin stored
    exact Nat.lt_of_lt_of_le (stocked.isBin bin (intact.stored bin stored)) intact.next
  case apart =>
    intro bin stored
    rw [(matching bin stored).session]
    exact stocked.apart bin (intact.stored bin stored)
  case begun =>
    intro bin onShelf
    rw [(matching bin (.inl onShelf)).bounds]
    exact stocked.begun bin (intact.shelved onShelf)
  case filled =>
    intro bin stored
    exact (stocked.filled bin (intact.stored bin stored)).of_same (matching bin stored)
      (intact.contents bin stored) (intact.size bin stored) (intact.held bin stored)
  case single =>
    intro bin queued unbound
    obtain ⟨wasQueued, wasUnbound⟩ := intact.unbound bin queued unbound
    unfold Bin.entryCount
    rw [intact.contents bin (.inr queued)]
    exact stocked.single bin wasQueued wasUnbound

theorem Still.intact (sound : before.Sound property [session])
    (still : before.Still after) : before.Intact after := by
  have alike (bin : BinId) (stored : after.Stored bin) :
      (after.bin bin).Alike (before.bin bin) :=
    still.alike bin (sound.isBin ((still.stored bin).1 stored))
  constructor
  case toLasting => exact ⟨still.next, fun bin isBin => (still.alike bin isBin).matching⟩
  case sessions => exact still.sessions
  case shelved => rw [still.shelf]; exact List.Subset.refl _
  case stored => exact fun bin => (still.stored bin).1
  case contents => exact fun bin stored => (alike bin stored).contents
  case size => exact fun bin stored => (alike bin stored).size
  case held =>
    intro bin stored
    unfold binSession
    rw [(alike bin stored).matching.session, still.session]
  case unbound =>
    intro bin queued unbound
    rw [(alike bin (.inr queued)).reason] at unbound
    exact ⟨still.ready ▸ queued, unbound⟩

/-- A chunk is pulled into a session that no bin owns, so the sessions of the bins stay. -/
theorem Drawn.session_of_owned {chunk : List Item} {inUse : List SessionId}
    {property : Flow → Prop} (sound : before.Sound property inUse)
    (drawn : before.Drawn session chunk after) {other : SessionId} (owned : before.Owned other) :
    after.flow.session other = before.flow.session other := by
  apply drawn.others
  rintro rfl
  obtain ⟨bin, stored, same⟩ := owned
  have isOpened := sound.arranged.registered.sessions bin (sound.isBin stored)
  rw [same, drawn.fresh] at isOpened
  exact Nat.lt_irrefl _ isOpened

theorem Drawn.intact {chunk : List Item} {inUse : List SessionId} {property : Flow → Prop}
    (sound : before.Sound property inUse) (drawn : before.Drawn session chunk after) :
    before.Intact after := by
  refine .of_same (by rw [drawn.rest]) (Nat.le_of_lt drawn.sessions)
    (by rw [drawn.shelf]; exact List.Subset.refl _)
    (by rw [drawn.ready]; exact List.Subset.refl _) fun other owned => ?_
  rw [drawn.session_of_owned sound owned]

/-- The bin that the item went into is new and was empty, or was open before. -/
theorem Stowed.wellFilled {known : List String} (single : Flow.Single known property)
    {key : Key} {item : Item} {number : BinId} (atWork : before.AtWork property session)
    (stowed : before.Stowed session key item number after) (stocked : before.Stocked terms)
    (isGiven : terms.given key item) (whole : item.HasWholeSize) :
    WellFilled terms.given after number := by
  obtain ⟨weighs, held, isGrouped⟩ : (before.bin number).Weighs ∧
      (before.flow.session (after.bin number).session).ids =
        (before.bin number).contents.map Item.id ∧
      ∀ other ∈ (before.bin number).contents, terms.given key other := by
    have isNew {bounds : Bounds} (fresh : Fresh bounds number before after) :
        (before.bin number).Weighs ∧
          (before.flow.session (after.bin number).session).ids =
            (before.bin number).contents.map Item.id ∧
          ∀ other ∈ (before.bin number).contents, terms.given key other := by
      have empty : before.bin number = {} := Slots.get_of_next_le fresh.fresh
      have unused : before.flow.session (after.bin number).session = {} :=
        Slots.get_of_next_le fresh.session
      rw [empty, unused]
      exact ⟨⟨[], rfl, rfl⟩, rfl, nofun⟩
    rcases stowed.place with joined | filed | enqueued
    · have stored : before.Stored number :=
        .inl (Shelf.mem_bins_iff.2 ⟨key, joined.among⟩)
      have filled := stocked.filled number stored
      obtain ⟨other, isOther, grouped⟩ := filled.grouped
      have keyed := stowed.keyed
      rw [joined.matching.group, isOther] at keyed
      cases keyed
      rw [joined.matching.session]
      exact ⟨filled.weighs, filled.held, grouped⟩
    · exact isNew filed.toFresh
    · exact isNew enqueued.toFresh
  constructor
  case weighs => exact weighs.take whole stowed.weighed stowed.contents rfl
  case within => exact stowed.fits
  case held =>
    have absent := single.held _ _ _ _ atWork.sound.flow stowed.held stowed.apart
    rw [stowed.taker, if_neg absent, stowed.contents, held, List.map_append]
    rfl
  case grouped =>
    refine ⟨key, stowed.keyed, ?_⟩
    rw [stowed.contents]
    simp only [List.mem_append, List.mem_singleton]
    rintro other (old | rfl)
    · exact isGrouped other old
    · exact isGiven

section Stowed

variable {key : Key} {item : Item} {number : BinId}

theorem Stowed.lasting (stowed : before.Stowed session key item number after) :
    before.Lasting after :=
  ⟨stowed.next, fun _ isBin => stowed.matching isBin⟩

/-- A bin that is open or queued now was so before, or it is new and so is its session. -/
theorem Stowed.stored_before (stowed : before.Stowed session key item number after)
    {bin : BinId} (stored : after.Stored bin) :
    before.Stored bin ∨
      bin = number ∧ before.flow.sessions.next ≤ (after.bin number).session := by
  rcases (stowed.stored_iff bin).1 stored with old | rfl
  · exact .inl old
  · rcases stowed.place with joined | filed | enqueued
    · exact .inl (.inl (Shelf.mem_bins_iff.2 ⟨key, joined.among⟩))
    · exact .inr ⟨rfl, filed.session⟩
    · exact .inr ⟨rfl, enqueued.session⟩

/-- A bin that is open now was so before, or it is new and begins with the bounds in
force. -/
theorem Stowed.shelved_before (stowed : before.Stowed session key item number after)
    {bin : BinId} (onShelf : bin ∈ after.shelf.bins) :
    bin ∈ before.shelf.bins ∨ bin = number ∧ before.bins.next ≤ number ∧
      (after.bin number).bounds = before.shelf.thresholds.bounds := by
  rcases stowed.place with joined | filed | enqueued
  · exact .inl (joined.shelf ▸ onShelf)
  · rw [filed.shelf] at onShelf
    rcases Shelf.mem_bins_file.1 onShelf with old | isNumber
    · exact .inl old
    · exact .inr ⟨isNumber, filed.fresh, filed.bounds⟩
  · exact .inl (enqueued.shelf ▸ onShelf)

/-- A bin that is queued now was so before, or it is new and holds the item only. -/
theorem Stowed.queued_before (sound : before.Sound property [session])
    (stowed : before.Stowed session key item number after) {bin : BinId}
    (queued : bin ∈ after.ready) :
    bin ∈ before.ready ∧ bin ≠ number ∨ bin = number ∧ (after.bin number).contents = [item] := by
  have isOld (old : bin ∈ before.ready) (isNew : before.bins.next ≤ number) : bin ≠ number := by
    rintro rfl
    exact Nat.not_lt.2 isNew (sound.queued.isBin bin old)
  rcases stowed.place with joined | filed | enqueued
  · have old : bin ∈ before.ready := joined.ready ▸ queued
    refine .inl ⟨old, ?_⟩
    rintro rfl
    exact sound.queued.not_mem_bins sound.arranged old
      (Shelf.mem_bins_iff.2 ⟨key, joined.among⟩)
  · have old : bin ∈ before.ready := filed.ready ▸ queued
    exact .inl ⟨old, isOld old filed.fresh⟩
  · rw [enqueued.ready, List.mem_append, List.mem_singleton] at queued
    rcases queued with old | isNumber
    · exact .inl ⟨old, isOld old enqueued.fresh⟩
    · have empty : before.bin number = {} := Slots.get_of_next_le enqueued.fresh
      refine .inr ⟨isNumber, ?_⟩
      rw [stowed.contents, empty]
      rfl

theorem Stowed.stocked {known : List String} (single : Flow.Single known property)
    (atWork : before.AtWork property session)
    (stowed : before.Stowed session key item number after) (stocked : before.Stocked terms)
    (isGiven : terms.given key item) (whole : item.HasWholeSize)
    (begins : before.bins.next ≤ number →
      terms.begun number before.shelf.thresholds.bounds) : after.Stocked terms := by
  have matching {bin : BinId} (stored : before.Stored bin) :
      (after.bin bin).Matches (before.bin bin) :=
    stowed.matching (stocked.isBin bin stored)
  constructor
  case lasting => exact stocked.lasting.trans stowed.lasting
  case opened => exact Nat.le_trans stocked.opened stowed.sessions
  case isBin =>
    intro bin stored
    rcases stowed.stored_before stored with old | ⟨rfl, _⟩
    · exact Nat.lt_of_lt_of_le (stocked.isBin bin old) stowed.next
    · exact stowed.isBin
  case apart =>
    intro bin stored
    rcases stowed.stored_before stored with old | ⟨rfl, isNew⟩
    · rw [(matching old).session]
      exact stocked.apart bin old
    · exact Nat.le_trans stocked.opened isNew
  case begun =>
    intro bin onShelf
    rcases stowed.shelved_before onShelf with old | ⟨rfl, isNew, bounds⟩
    · rw [(matching (.inl old)).bounds]
      exact stocked.begun bin old
    · rw [bounds]
      exact begins isNew
  case filled =>
    intro bin stored
    by_cases same : bin = number
    · rw [same]
      exact Stowed.wellFilled single atWork stowed stocked isGiven whole
    · have old := ((stowed.stored_iff bin).1 stored).resolve_right same
      have alike := stowed.others bin (stocked.isBin bin old) same
      exact (stocked.filled bin old).of_same alike.matching alike.contents alike.size
        (by rw [stowed.binSession_of_ne atWork old same])
  case single =>
    intro bin queued unbound
    unfold Bin.entryCount
    rcases stowed.queued_before atWork.sound queued with ⟨old, differs⟩ | ⟨rfl, contents⟩
    · have alike := stowed.others bin (stocked.isBin bin (.inr old)) differs
      rw [alike.contents]
      exact stocked.single bin old (alike.reason ▸ unbound)
    · rw [contents]
      rfl

end Stowed

theorem Hauled.next {cargo : List Load}
    (hauled : Hauled property session cargo before after) :
    before.bins.next ≤ after.bins.next := by
  induction hauled with
  | still _ still => exact still.next
  | stowed _ stowed => exact stowed.next
  | trans _ _ first second => exact Nat.le_trans first second

/-- Stowing items that were given their keys fills the bins well, if the bins that are
opened for them begin with the bounds in force. -/
theorem Hauled.stocked {known : List String} (single : Flow.Single known property)
    {cargo : List Load}
    (hauled : Hauled property session cargo before after)
    (stocked : before.Stocked terms)
    (gives : ∀ load ∈ cargo, terms.given load.1 load.2 ∧ load.2.HasWholeSize)
    (begins : ∀ bin, before.bins.next ≤ bin → bin < after.bins.next →
      terms.begun bin before.shelf.thresholds.bounds) :
    after.Stocked terms := by
  induction hauled with
  | still atWork still => exact stocked.intact (still.intact atWork.sound)
  | @stowed before after key item number atWork stowed =>
      obtain ⟨isGiven, whole⟩ := gives (key, item) (by simp)
      exact Stowed.stocked single atWork stowed stocked isGiven whole
        fun isNew => begins number isNew stowed.isBin
  | trans hauledFirst hauledSecond first second =>
      simp only [List.mem_append] at gives
      refine second (first stocked (fun load early => gives load (.inl early)) ?_)
        (fun load late => gives load (.inr late)) ?_
      · intro bin isNew isBin
        exact begins bin isNew (Nat.lt_of_lt_of_le isBin hauledSecond.next)
      · intro bin isNew isBin
        rw [hauledFirst.thresholds]
        exact begins bin (Nat.le_trans hauledFirst.next isNew) isBin

theorem Discarded.lasting {gone : List BinId} (discarded : before.Discarded gone after) :
    before.Lasting after :=
  ⟨Nat.le_of_eq discarded.next.symm, fun bin _ => discarded.matching bin⟩

section Departed

variable {left : List BinId} (departed : before.Departed left after) {counters : Counters}
  {bin : BinId}
include departed

theorem Departed.cargo (bin : BinId) :
    (after.bin bin).contents = (before.bin bin).contents ∧
      (after.bin bin).size = (before.bin bin).size := by
  by_cases isLeft : bin ∈ left
  · obtain ⟨_, _, isReady⟩ := departed.ready isLeft
    simp [isReady]
  · simp [departed.others isLeft]

theorem Departed.stored_before (stored : (after.moved left counters).Stored bin) :
    before.Stored bin := by
  rcases stored with onShelf | queued
  · exact .inl (departed.mem_bins_iff.2 (.inr onShelf))
  · rw [ready_moved, departed.queue, List.mem_append] at queued
    rcases queued with old | isLeft
    · exact .inr old
    · exact .inl (departed.mem_bins_iff.2 (.inl isLeft))

/-- Bins that move to the queue do so because they are ready or too many, and not because
an item found no place. -/
theorem Departed.unbound_before (queued : bin ∈ (after.moved left counters).ready)
    (unbound : (after.bin bin).reason = some .unbound) :
    bin ∈ before.ready ∧ (before.bin bin).reason = some .unbound := by
  have notLeft : bin ∉ left := by
    intro isLeft
    obtain ⟨reason, bound, isReady⟩ := departed.ready isLeft
    rw [isReady] at unbound
    exact bound (Option.some.inj unbound)
  rw [ready_moved, departed.queue, List.mem_append] at queued
  rw [departed.others notLeft] at unbound
  exact ⟨queued.resolve_right notLeft, unbound⟩

theorem Departed.intact (counters : Counters) :
    before.Intact (after.moved left counters) := by
  constructor
  case toLasting => exact ⟨Nat.le_of_eq departed.next.symm, fun bin _ => departed.matching bin⟩
  case sessions => exact Nat.le_of_eq (by rw [flow_moved, departed.flow])
  case shelved => exact fun bin onShelf => departed.mem_bins_iff.2 (.inr onShelf)
  case stored => exact fun bin => departed.stored_before
  case contents => exact fun bin _ => (departed.cargo bin).1
  case size => exact fun bin _ => (departed.cargo bin).2
  case held =>
    intro bin _
    unfold binSession
    rw [bin_moved, (departed.matching bin).session, flow_moved, departed.flow]
  case unbound => exact fun bin => departed.unbound_before

end Departed

end Stocked

end Depot

end ItemBinning
