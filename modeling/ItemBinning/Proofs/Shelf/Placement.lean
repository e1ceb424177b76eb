import ItemBinning.Proofs.Flow.Carried
import ItemBinning.Proofs.Shelf.Arrangement
import ItemBinning.Shelf.Offer

/-!
# Finding places for items

An offer to a bin fails, is turned down, or puts the item into the bin; in no
case does it disturb the shelf.  Offering items to a group opens bins only while
there is room, and files each of them with a session of its own under the group
it was opened for, so an offer that answers and one that fails halfway both leave
the shelf arranged.
-/

namespace ItemBinning

namespace Depot

/-- What an offer of an item to a bin can come to. -/
inductive Offered (depot : Depot) (number : BinId) (item : Item)
    (source : SessionId) : Except Fault Bool × Depot → Prop
  /-- The bin is closed or cannot tell whether it has room. -/
  | refused (fault : Fault)
      (reason : (depot.bin number).state ≠ .opened ∨
        (depot.bin number).turnsDown item = .error fault) :
      Offered depot number item source (.error fault, depot)
  /-- The bin has no room. -/
  | turnedDown (isOpen : (depot.bin number).state = .opened)
      (noRoom : (depot.bin number).turnsDown item = .ok true) :
      Offered depot number item source
        (.ok false, depot.setBin number (depot.bin number).reject)
  /-- The item is not handed over. -/
  | kept (fault : Fault) (flow : Flow) (isOpen : (depot.bin number).state = .opened)
      (room : (depot.bin number).turnsDown item = .ok false)
      (migrated : Flow.migrate source (depot.bin number).session [item] depot.flow =
        (.error fault, flow)) :
      Offered depot number item source (.error fault,
        { depot.setBin number (depot.bin number).resetRejections with flow })
  /-- The item is in the bin, which cannot tell how large it is now. -/
  | unweighed (fault : Fault) (flow : Flow)
      (isOpen : (depot.bin number).state = .opened)
      (room : (depot.bin number).turnsDown item = .ok false)
      (migrated : Flow.migrate source (depot.bin number).session [item] depot.flow =
        (.ok (), flow))
      (weighed : (depot.bin number).sizeWith item = .error fault) :
      Offered depot number item source (.error fault,
        { depot.setBin number ((depot.bin number).resetRejections.take item)
          with flow })
  /-- The item is in the bin. -/
  | taken (size : Number) (flow : Flow)
      (isOpen : (depot.bin number).state = .opened)
      (room : (depot.bin number).turnsDown item = .ok false)
      (migrated : Flow.migrate source (depot.bin number).session [item] depot.flow =
        (.ok (), flow))
      (weighed : (depot.bin number).sizeWith item = .ok size) :
      Offered depot number item source (.ok true,
        { depot.setBin number
            { (depot.bin number).resetRejections.take item with size } with flow })

private theorem takeInto_apply (number : BinId) (item : Item) (source : SessionId)
    (depot : Depot) :
    takeInto number item source depot =
      match Flow.migrate source (depot.bin number).session [item] depot.flow with
      | (.error fault, flow) => (.error fault, { depot with flow })
      | (.ok (), flow) =>
          match (depot.bin number).sizeWith item with
          | .error fault => (.error fault,
              { depot.setBin number ((depot.bin number).take item) with flow })
          | .ok size => (.ok (),
              { depot.setBin number { (depot.bin number).take item with size }
                with flow }) := by
  rcases migrated : Flow.migrate source (depot.bin number).session [item] depot.flow
    with ⟨fault | ⟨⟩, flow⟩
  · simp only [takeInto, Act.bind_apply, Act.read, onFlow, Act.within, migrated]
  · simp only [takeInto, Act.bind_apply, Act.read, onFlow, Act.within, migrated,
      Act.modify, Act.ofExcept]
    cases (depot.bin number).sizeWith item with
    | error fault => rfl
    | ok size =>
        have twice := setBin_setBin { depot with flow } number
          ((depot.bin number).take item) { (depot.bin number).take item with size }
        exact congrArg (Prod.mk _) twice

theorem offerTo_outcome (number : BinId) (item : Item) (source : SessionId)
    (depot : Depot) :
    depot.Offered number item source (offerTo number item source depot) := by
  unfold offerTo
  rw [Act.read_bind]
  by_cases isOpen : (depot.bin number).state = .opened
  · rw [if_pos isOpen]
    rcases room : (depot.bin number).turnsDown item with fault | answer
    · exact .refused fault (.inr room)
    cases answer with
    | true => exact .turnedDown isOpen room
    | false =>
        change depot.Offered number item source ((takeInto number item source >>= fun _ =>
          pure true) (depot.setBin number (depot.bin number).resetRejections))
        have placed := takeInto_apply number item source
          (depot.setBin number (depot.bin number).resetRejections)
        rw [bin_setBin_self] at placed
        simp only [setBin_setBin] at placed
        rcases migrated : Flow.migrate source (depot.bin number).session [item]
          depot.flow with ⟨fault | ⟨⟩, flow⟩ <;>
          erw [migrated] at placed
        · rw [Act.bind_of_error placed]
          exact .kept fault flow isOpen room migrated
        · change _ = match (depot.bin number).sizeWith item with
            | .error fault => _
            | .ok size => _ at placed
          rcases weighed : (depot.bin number).sizeWith item with fault | size <;>
            rw [weighed] at placed
          · rw [Act.bind_of_error placed]
            exact .unweighed fault flow isOpen room migrated weighed
          · rw [Act.bind_of_ok placed]
            exact .taken size flow isOpen room migrated weighed
  · rw [if_neg isOpen]
    exact .refused _ (.inl isOpen)

/-- Nothing changed but the flow and what is in the bins. -/
structure Steady (before after : Depot) : Prop where
  shelf : after.shelf = before.shelf
  ready : after.ready = before.ready
  clock : after.clock = before.clock
  moves : after.moves = before.moves
  next : after.bins.next = before.bins.next
  sessions : before.flow.sessions.next ≤ after.flow.sessions.next
  matching : ∀ bin, (after.bin bin).Matches (before.bin bin)
  states : ∀ bin, (after.bin bin).state = (before.bin bin).state

namespace Steady

theorem refl (depot : Depot) : depot.Steady depot :=
  ⟨rfl, rfl, rfl, rfl, rfl, Nat.le_refl _, fun _ => .refl _, fun _ => rfl⟩

variable {first second third before after : Depot}

theorem trans (steadyFirst : first.Steady second) (steadySecond : second.Steady third) :
    first.Steady third where
  shelf := steadySecond.shelf.trans steadyFirst.shelf
  ready := steadySecond.ready.trans steadyFirst.ready
  clock := steadySecond.clock.trans steadyFirst.clock
  moves := steadySecond.moves.trans steadyFirst.moves
  next := steadySecond.next.trans steadyFirst.next
  sessions := Nat.le_trans steadyFirst.sessions steadySecond.sessions
  matching bin := (steadySecond.matching bin).trans (steadyFirst.matching bin)
  states bin := (steadySecond.states bin).trans (steadyFirst.states bin)

theorem undisturbed (steady : before.Steady after) : before.Undisturbed after where
  groups := by rw [steady.shelf]
  binCount := by rw [steady.shelf]
  next := steady.next
  sessions := steady.sessions
  matching := steady.matching
  shelved bin _ := steady.states bin
  ready := steady.ready
  queued bin _ := steady.states bin

/-- A bin may change in what is in it, and the flow may change with it. -/
theorem setBin (depot : Depot) {number : BinId} (isBin : number < depot.bins.next)
    (bin : Bin) (matching : bin.Matches (depot.bin number))
    (state : bin.state = (depot.bin number).state) {flow : Flow}
    (sessions : depot.flow.sessions.next ≤ flow.sessions.next) :
    depot.Steady { depot.setBin number bin with flow } where
  shelf := rfl
  ready := rfl
  clock := rfl
  moves := rfl
  next := Slots.next_set_of_lt isBin bin
  sessions := sessions
  matching other := by
    change ((depot.setBin number bin).bin other).Matches _
    rw [bin_setBin]
    split
    · rename_i same
      exact same ▸ matching
    · exact .refl _
  states other := by
    change ((depot.setBin number bin).bin other).state = _
    rw [bin_setBin]
    split
    · rename_i same
      exact same ▸ state
    · rfl

end Steady

theorem offerTo_steady {start : Depot} {number : BinId} (isBin : number < start.bins.next)
    (item : Item) (source : SessionId) :
    (offerTo number item source).Keeps (start.Steady ·) := by
  refine Act.Keeps.of_final fun depot steady => steady.trans ?_
  have isBin : number < depot.bins.next := steady.next ▸ isBin
  have sessions : ∀ {outcome flow}, Flow.migrate source (depot.bin number).session [item]
      depot.flow = (outcome, flow) → depot.flow.sessions.next ≤ flow.sessions.next := by
    intro outcome flow migrated
    have grown := ((Flow.carried_sessions depot.flow.sessions.next).migrate source
      (depot.bin number).session [item]).final (Nat.le_refl _)
    rwa [Act.final, migrated] at grown
  have outcome := offerTo_outcome number item source depot
  rcases run : offerTo number item source depot with ⟨answer, reached⟩
  rw [run] at outcome
  cases outcome with
  | refused => exact .refl depot
  | turnedDown =>
      exact .setBin depot isBin (depot.bin number).reject ⟨rfl, rfl, rfl, rfl⟩ rfl
        (Nat.le_refl _)
  | kept _ _ _ _ migrated =>
      exact .setBin depot isBin (depot.bin number).resetRejections ⟨rfl, rfl, rfl, rfl⟩ rfl
        (sessions migrated)
  | unweighed _ _ _ _ migrated =>
      exact .setBin depot isBin ((depot.bin number).resetRejections.take item)
        ⟨rfl, rfl, rfl, rfl⟩ rfl (sessions migrated)
  | taken size _ _ _ migrated =>
      exact .setBin depot isBin { (depot.bin number).resetRejections.take item with size }
        ⟨rfl, rfl, rfl, rfl⟩ rfl (sessions migrated)

/-- The depot with a session and a bin that it owns. -/
def withBin (depot : Depot) (bounds : Bounds) (group : Value) : Depot :=
  { depot with
    flow := { depot.flow with sessions := depot.flow.sessions.push {} }
    bins := depot.bins.push {
      session := depot.flow.sessions.next, bounds, group, created := depot.clock } }

section WithBin

variable (depot : Depot) (bounds : Bounds) (group : Value)

@[simp] theorem next_withBin :
    (depot.withBin bounds group).bins.next = depot.bins.next + 1 :=
  Slots.next_push _ _

@[simp] theorem sessions_withBin :
    (depot.withBin bounds group).flow.sessions.next = depot.flow.sessions.next + 1 :=
  Slots.next_push _ _

theorem bin_withBin (bin : BinId) :
    (depot.withBin bounds group).bin bin = if bin = depot.bins.next then
      { session := depot.flow.sessions.next, bounds, group, created := depot.clock }
      else depot.bin bin :=
  Slots.get_push _ _ _

@[simp] theorem bin_withBin_next :
    (depot.withBin bounds group).bin depot.bins.next = {
      session := depot.flow.sessions.next, bounds, group, created := depot.clock } := by
  rw [bin_withBin, if_pos rfl]

theorem bin_withBin_of_lt {bin : BinId} (isBin : bin < depot.bins.next) :
    (depot.withBin bounds group).bin bin = depot.bin bin := by
  rw [bin_withBin, if_neg (Nat.ne_of_lt isBin)]

theorem lt_next_withBin : depot.bins.next < (depot.withBin bounds group).bins.next := by
  rw [next_withBin]
  exact Nat.lt_succ_self _

variable {depot bounds group} {reached : Depot}

theorem Steady.isBin_withBin (steady : (depot.withBin bounds group).Steady reached) :
    depot.bins.next < reached.bins.next :=
  steady.next ▸ lt_next_withBin depot bounds group

theorem Steady.opened_withBin (steady : (depot.withBin bounds group).Steady reached) :
    (reached.bin depot.bins.next).state = .opened := by
  rw [steady.states, bin_withBin_next]

end WithBin

theorem Registered.withBin {depot : Depot} (registered : depot.Registered)
    {bounds : Bounds} (whole : bounds.Whole) (group : Value) :
    (depot.withBin bounds group).Registered := by
  have cases : ∀ bin < (depot.withBin bounds group).bins.next,
      bin < depot.bins.next ∨ bin = depot.bins.next := by
    intro bin isBin
    rw [next_withBin] at isBin
    omega
  refine ⟨fun bin isBin => ?_, fun first isFirst second isSecond same => ?_,
    fun bin isBin => ?_⟩
  · rw [sessions_withBin]
    rcases cases bin isBin with old | rfl
    · rw [bin_withBin_of_lt _ _ _ old]
      exact Nat.lt_succ_of_lt (registered.sessions bin old)
    · rw [bin_withBin_next]
      exact Nat.lt_succ_self _
  · rcases cases first isFirst with oldFirst | rfl <;>
      rcases cases second isSecond with oldSecond | rfl
    · rw [bin_withBin_of_lt _ _ _ oldFirst, bin_withBin_of_lt _ _ _ oldSecond] at same
      exact registered.apart first oldFirst second oldSecond same
    · rw [bin_withBin_of_lt _ _ _ oldFirst, bin_withBin_next] at same
      exact absurd same (Nat.ne_of_lt (registered.sessions first oldFirst))
    · rw [bin_withBin_of_lt _ _ _ oldSecond, bin_withBin_next] at same
      exact absurd same.symm (Nat.ne_of_lt (registered.sessions second oldSecond))
    · rfl
  · rcases cases bin isBin with old | rfl
    · rw [bin_withBin_of_lt _ _ _ old]
      exact registered.bounds bin old
    · rw [bin_withBin_next]
      exact whole

namespace Arranged

variable {depot : Depot}

theorem withBin (arranged : depot.Arranged) {bounds : Bounds} (whole : bounds.Whole)
    (group : Value) : (depot.withBin bounds group).Arranged where
  registered := arranged.registered.withBin whole group
  thresholds := arranged.thresholds
  binCount := arranged.binCount
  filled := arranged.filled
  isBin key bin member := by
    rw [next_withBin]
    exact Nat.lt_succ_of_lt (arranged.isBin key bin member)
  opened key bin member := by
    rw [bin_withBin_of_lt _ _ _ (arranged.isBin key bin member)]
    exact arranged.opened key bin member
  filed key bin member := by
    rw [bin_withBin_of_lt _ _ _ (arranged.isBin key bin member)]
    exact arranged.filed key bin member
  ascending := arranged.ascending

/-- An open bin may be put at the end of its group if it was created after the
bins there. -/
theorem file (arranged : depot.Arranged) {key : Key} {bin : BinId}
    (isBin : bin < depot.bins.next) (opened : (depot.bin bin).state = .opened)
    (filed : (depot.bin bin).group.key? = some key)
    (last : ∀ other ∈ depot.shelf.binsOf key, other < bin) :
    Arranged { depot with
      shelf := { depot.shelf.setGroup key (depot.shelf.binsOf key ++ [bin]) with
        binCount := depot.shelf.binCount + 1 } } := by
  have binsOf : ∀ group, (depot.shelf.setGroup key
      (depot.shelf.binsOf key ++ [bin])).binsOf group =
        if group = key then depot.shelf.binsOf key ++ [bin]
        else depot.shelf.binsOf group :=
    fun group => Shelf.binsOf_setGroup _ _ _ _
  have cases : ∀ group, ∀ other ∈ (depot.shelf.setGroup key
      (depot.shelf.binsOf key ++ [bin])).binsOf group,
        other ∈ depot.shelf.binsOf group ∨ group = key ∧ other = bin := by
    intro group other member
    rw [binsOf] at member
    split at member
    · rename_i same
      subst same
      simpa using member
    · exact .inl member
  refine ⟨⟨arranged.registered.sessions, arranged.registered.apart,
    arranged.registered.bounds⟩, arranged.thresholds, ?_,
    arranged.filled.setGroup key _, ?_, ?_, ?_, ?_⟩
  · have counted := (depot.shelf.bins_setGroup_perm key
      (depot.shelf.binsOf key ++ [bin])).length_eq
    have before := arranged.binCount
    simp only [List.length_append, List.length_singleton] at counted
    change depot.shelf.binCount + 1 =
      (depot.shelf.setGroup key (depot.shelf.binsOf key ++ [bin])).bins.length
    omega
  · intro group other member
    rcases cases group other member with old | ⟨_, rfl⟩
    · exact arranged.isBin group other old
    · exact isBin
  · intro group other member
    rcases cases group other member with old | ⟨_, rfl⟩
    · exact arranged.opened group other old
    · exact opened
  · intro group other member
    rcases cases group other member with old | ⟨rfl, rfl⟩
    · exact arranged.filed group other old
    · exact filed
  · intro group
    change ((depot.shelf.setGroup key _).binsOf group).Pairwise (· < ·)
    rw [binsOf]
    split
    · refine List.pairwise_append.2 ⟨arranged.ascending key, List.pairwise_singleton _ _, ?_⟩
      intro other member added isAdded
      rw [List.mem_singleton.1 isAdded]
      exact last other member
    · exact arranged.ascending group

end Arranged

/-- Nothing that happens in the course of an offer destroys the property: that the
flow and what is in the bins changes, that a bin is created, and that it is filed
while there is room. -/
structure OffersKeep (kept : Depot → Prop) : Prop where
  steady : ∀ before after, kept before → before.Steady after → kept after
  created : ∀ depot bounds group, kept depot → kept (depot.withBin bounds group)
  filed : ∀ depot key bin, kept depot → depot.shelf.isAtCapacity = .ok false →
    kept { depot with
      shelf := { depot.shelf.setGroup key (depot.shelf.binsOf key ++ [bin]) with
        binCount := depot.shelf.binCount + 1 } }

/-- The shelf is arranged, and the depot has a further property. -/
structure Orderly (kept : Depot → Prop) (depot : Depot) : Prop where
  arranged : depot.Arranged
  kept : kept depot

variable {kept : Depot → Prop}

theorem Orderly.steady (keep : OffersKeep kept) {before after : Depot}
    (orderly : before.Orderly kept) (steady : before.Steady after) :
    after.Orderly kept where
  arranged := orderly.arranged.rests steady.undisturbed.toShelfRests
    (steady.shelf ▸ orderly.arranged.thresholds)
  kept := keep.steady before after orderly.kept steady

theorem Orderly.withBin (keep : OffersKeep kept) {depot : Depot}
    (orderly : depot.Orderly kept) {bounds : Bounds} (whole : bounds.Whole)
    (group : Value) : (depot.withBin bounds group).Orderly kept :=
  ⟨orderly.arranged.withBin whole group, keep.created depot bounds group orderly.kept⟩

end Depot

namespace Shelf

open Depot

theorem offerToFirst_steady {start : Depot} (item : Item) (source : SessionId)
    (bins : List BinId) (areBins : ∀ bin ∈ bins, bin < start.bins.next) :
    (offerToFirst item source bins).Keeps (start.Steady ·) := by
  induction bins with
  | nil => exact Act.Keeps.pure false
  | cons bin rest ih =>
      refine (offerTo_steady (areBins bin (by simp)) item source).bind fun taken => ?_
      split
      · exact Act.Keeps.pure true
      · exact ih fun other member => areBins other (List.mem_cons_of_mem _ member)

variable {kept : Depot → Prop} {group : Value} {key : Key}

/-- Opening a bin for an item: the bin is offered the item, and is filed if it
takes it. -/
theorem openBinFor_apply (group : Value) (key : Key) (item : Item) (source : SessionId)
    (depot : Depot) :
    openBinFor group key item source depot =
      (do
        if ← offerTo depot.bins.next item source then do
          modifyShelf fun shelf =>
            { shelf.setGroup key (shelf.binsOf key ++ [depot.bins.next]) with
              binCount := shelf.binCount + 1 }
          pure true
        else pure false : Act Depot Bool)
        (depot.withBin depot.shelf.thresholds.bounds group) :=
  rfl

theorem openBinFor_orderly (isKey : group.key? = some key) (keep : OffersKeep kept)
    (item : Item) (source : SessionId) {depot : Depot} (orderly : depot.Orderly kept)
    (room : depot.shelf.isAtCapacity = .ok false) :
    (openBinFor group key item source depot).2.Orderly kept := by
  rw [openBinFor_apply]
  have created := orderly.withBin keep orderly.arranged.thresholds.bounds group
  have offered := (offerTo_steady (lt_next_withBin depot _ group) item source).weaken
    (fun _ => id) (fun _ _ => id)
    fun _ _ steady => created.steady keep steady
  refine Act.Meets.final (offered.bind fun taken => ?_) (Steady.refl _)
  split
  · refine Act.Meets.bind (Act.Meets.modify fun reached steady => ?_) fun _ =>
      Act.Keeps.pure true
    have reachedOrderly := created.steady keep steady
    have shelf : reached.shelf = depot.shelf := steady.shelf
    refine ⟨reachedOrderly.arranged.file steady.isBin_withBin steady.opened_withBin ?_ ?_,
      keep.filed _ _ _ reachedOrderly.kept (shelf ▸ room)⟩
    · rw [(steady.matching _).group, bin_withBin_next]
      exact isKey
    · intro other member
      exact orderly.arranged.isBin key other (shelf ▸ member)
  · exact Act.Meets.pure fun _ steady => created.steady keep steady

/-- Finding a place for an item leaves the shelf in order. -/
theorem place_orderly (isKey : group.key? = some key) (keep : OffersKeep kept)
    (item : Item) (source : SessionId) :
    (place group key item source).Keeps (Orderly kept) := by
  apply Act.Keeps.of_final
  intro depot orderly
  have offered := (offerToFirst_steady item source (depot.shelf.binsOf key)
    (orderly.arranged.isBin key)).weaken (fun _ => id) (fun _ _ => orderly.steady keep)
    fun _ _ => orderly.steady keep
  have look : (askShelf Shelf.isAtCapacity).Meets (Orderly kept)
      (fun full reached => reached.Orderly kept ∧ reached.shelf.isAtCapacity = .ok full)
      fun _ => Orderly kept :=
    Act.Meets.look (fun _ _ holds answer => ⟨holds, answer⟩) fun _ _ holds _ => holds
  refine Act.Meets.final (offered.bind fun taken => ?_) (Steady.refl depot)
  split
  · exact Act.Keeps.pure true
  · apply look.bind
    intro full
    split
    · exact Act.Meets.pure fun _ => And.left
    · rename_i hasRoom
      apply Act.Meets.of_final
      intro reached holds
      exact openBinFor_orderly isKey keep item source holds.1
        (by rw [holds.2, Bool.not_eq_true] at *; exact congrArg _ hasRoom)

theorem placeAll_keeps {source : SessionId} {items : List Item}
    (places : ∀ item ∈ items, (place group key item source).Keeps kept) :
    (placeAll group key source items).Keeps kept := by
  induction items with
  | nil => exact Act.Keeps.pure []
  | cons item rest ih =>
      refine (places item (by simp)).bind fun _ => ?_
      exact (ih fun other later => places other (List.mem_cons_of_mem _ later)).bind fun _ =>
        Act.Keeps.pure _

/-- An offer keeps what finding a place keeps for each of the items, also if it fails. -/
theorem offer_keeps {source : SessionId} {items : List Item}
    (places : ∀ key, group.key? = some key → ∀ item ∈ items,
      (place group key item source).Keeps kept) : (offer group items source).Keeps kept := by
  refine (Act.Keeps.look _).bind fun issues => ?_
  split
  · split
    · rename_i key isKey
      exact placeAll_keeps (places key isKey)
    · exact Act.Keeps.fail _
  · exact Act.Keeps.fail _

/-- An offer of items leaves the shelf in order. -/
theorem offer_orderly (keep : OffersKeep kept) (group : Value) (items : List Item)
    (source : SessionId) : (offer group items source).Keeps (Orderly kept) :=
  offer_keeps fun _ isKey item _ => place_orderly isKey keep item source

/-- The items that find no place are some of those that were offered, in the same order. -/
theorem placeAll_unbound (group : Value) (key : Key) (source : SessionId)
    (items : List Item) :
    (placeAll group key source items).Meets (fun _ => True)
      (fun unbound _ => unbound.Sublist items) fun _ _ => True := by
  induction items with
  | nil => exact Act.Meets.pure fun _ _ => List.Sublist.refl []
  | cons item rest ih =>
      refine Act.Meets.anything.bind fun placed => ih.bind fun unbound => Act.Meets.pure ?_
      intro _ within
      split
      · exact within.cons item
      · exact within.cons_cons item

theorem offer_unbound (group : Value) (items : List Item) (source : SessionId) :
    (offer group items source).Meets (fun _ => True)
      (fun unbound _ => unbound.Sublist items) fun _ _ => True := by
  apply Act.Meets.anything.bind
  intro issues
  split
  · split
    · exact placeAll_unbound group _ source items
    · exact Act.Meets.fail fun _ _ => trivial
  · exact Act.Meets.fail fun _ _ => trivial

end Shelf

end ItemBinning
