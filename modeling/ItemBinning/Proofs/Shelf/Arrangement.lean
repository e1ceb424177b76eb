import ItemBinning.Depot
import ItemBinning.Proofs.Bin.Measure
import ItemBinning.Proofs.Flow.Operations

/-!
# The arrangement of the shelf

The shelf is arranged if it counts its bins rightly, keeps no empty group, files
open bins only, each under its own group and after the bins that were created
before it, and if no two bins share a session.  What leaves the bins of the shelf
and of the queue alone leaves the shelf arranged, and so does opening a bin with
a session of its own and putting it at the end of its group.
-/

namespace ItemBinning

namespace Shelf

theorem binsOf_setGroup (shelf : Shelf) (group other : Key) (bins : List BinId) :
    (shelf.setGroup group bins).binsOf other =
      if other = group then bins else shelf.binsOf other := by
  unfold setGroup binsOf
  by_cases none : bins = []
  · subst none
    simp only [List.isEmpty_nil, if_true, Table.find?_erase]
    split <;> rfl
  · rw [if_neg (by simpa using none), Table.find?_put]
    split <;> rfl

theorem mem_keys_of_mem_binsOf {shelf : Shelf} {group : Key} {bin : BinId}
    (member : bin ∈ shelf.binsOf group) : group ∈ shelf.groups.keys := by
  unfold binsOf at member
  cases found : shelf.groups.find? group with
  | none => simp [found] at member
  | some bins => exact Table.mem_keys_of_find? found

theorem mem_bins_iff {shelf : Shelf} {bin : BinId} :
    bin ∈ shelf.bins ↔ ∃ group, bin ∈ shelf.binsOf group := by
  simp only [bins, List.mem_flatten, Table.mem_values_iff, binsOf]
  constructor
  · rintro ⟨bins, ⟨group, found⟩, member⟩
    exact ⟨group, by rwa [found]⟩
  · rintro ⟨group, member⟩
    cases found : shelf.groups.find? group with
    | none => simp [found] at member
    | some bins =>
        rw [found] at member
        exact ⟨bins, ⟨group, found⟩, member⟩

private theorem count_bins (shelf : Shelf) (bin : BinId) :
    shelf.bins.count bin = shelf.groups.total fun _ bins => bins.count bin := by
  simp [bins, Table.values, Table.total, List.count_flatten, List.map_map,
    Function.comp_def]

private theorem share_groups (shelf : Shelf) (group : Key) (bin : BinId) :
    shelf.groups.share (fun _ bins => bins.count bin) group =
      (shelf.binsOf group).count bin := by
  unfold Table.share binsOf
  cases shelf.groups.find? group <;> rfl

theorem bins_setGroup_perm (shelf : Shelf) (group : Key) (bins : List BinId) :
    ((shelf.setGroup group bins).bins ++ shelf.binsOf group).Perm
      (shelf.bins ++ bins) := by
  apply List.perm_iff_count.2
  intro bin
  rw [List.count_append, List.count_append, count_bins, count_bins, ← share_groups]
  unfold setGroup
  by_cases none : bins = []
  · subst none
    simpa using shelf.groups.total_erase group fun _ bins => bins.count bin
  · rw [if_neg (by simpa using none)]
    exact shelf.groups.total_put group bins fun _ bins => bins.count bin

theorem mem_bins_file {shelf : Shelf} {group : Key} {added bin : BinId} :
    bin ∈ (shelf.setGroup group (shelf.binsOf group ++ [added])).bins ↔
      bin ∈ shelf.bins ∨ bin = added := by
  have exchanged := (shelf.bins_setGroup_perm group (shelf.binsOf group ++ [added])).count_eq bin
  simp only [List.count_append] at exchanged
  rw [← List.count_pos_iff, ← List.count_pos_iff, ← List.mem_singleton, ← List.count_pos_iff]
  omega

/-- No group is kept without bins. -/
def Filled (shelf : Shelf) : Prop :=
  ∀ group ∈ shelf.groups.keys, shelf.binsOf group ≠ []

theorem Filled.setGroup {shelf : Shelf} (filled : shelf.Filled) (group : Key)
    (bins : List BinId) : (shelf.setGroup group bins).Filled := by
  intro other member
  rw [binsOf_setGroup]
  split
  · rename_i same
    subst same
    rintro rfl
    simp [Shelf.setGroup, Table.keys_erase] at member
  · rename_i differs
    apply filled other
    unfold Shelf.setGroup at member
    dsimp only at member
    split at member
    · rw [Table.keys_erase] at member
      exact List.mem_of_mem_filter member
    · rw [Table.keys_put] at member
      split at member
      · exact member
      · simpa [differs] using member

end Shelf

/-- The two bins agree in what a bin keeps from its creation on. -/
structure Bin.Matches (bin other : Bin) : Prop where
  session : bin.session = other.session
  bounds : bin.bounds = other.bounds
  group : bin.group = other.group
  created : bin.created = other.created

theorem Bin.Matches.refl (bin : Bin) : bin.Matches bin :=
  ⟨rfl, rfl, rfl, rfl⟩

theorem Bin.Matches.trans {first second third : Bin}
    (matchesFirst : first.Matches second) (matchesSecond : second.Matches third) :
    first.Matches third :=
  ⟨matchesFirst.session.trans matchesSecond.session,
    matchesFirst.bounds.trans matchesSecond.bounds,
    matchesFirst.group.trans matchesSecond.group,
    matchesFirst.created.trans matchesSecond.created⟩

namespace Depot

@[simp] theorem bin_setBin_self (depot : Depot) (number : BinId) (bin : Bin) :
    (depot.setBin number bin).bin number = bin :=
  Slots.get_set_self _ _ _

theorem bin_setBin (depot : Depot) (number other : BinId) (bin : Bin) :
    (depot.setBin number bin).bin other =
      if other = number then bin else depot.bin other :=
  Slots.get_set _ _ _ _

@[simp] theorem setBin_setBin (depot : Depot) (number : BinId) (first second : Bin) :
    (depot.setBin number first).setBin number second = depot.setBin number second := by
  unfold setBin
  dsimp only
  rw [Slots.set_set]

theorem onFlow_eq {α : Type} {act : Act Flow α} {depot : Depot} {outcome : Except Fault α}
    {flow : Flow} (run : act depot.flow = (outcome, flow)) :
    onFlow act depot = (outcome, { depot with flow }) := by
  simp only [onFlow, Act.within, run]

/-- A contract of an operation of a flow, as one of the depot. -/
theorem onFlow_meets {α : Type} {act : Act Flow α} {asked : Flow → Prop}
    {answered : α → Flow → Prop} {failed : Fault → Flow → Prop}
    (contract : act.Meets asked answered failed) :
    (onFlow act).Meets (fun depot => asked depot.flow)
      (fun answer depot => answered answer depot.flow)
      fun fault depot => failed fault depot.flow := by
  intro depot holds
  have suits := contract depot.flow holds
  rcases run : act depot.flow with ⟨fault | answer, flow⟩ <;>
    simp only [onFlow, Act.within, run] at suits ⊢ <;> exact suits

theorem mark_eq {depot : Depot} {number : BinId} {target : BinState}
    (follows : target ∈ (depot.bin number).state.successors) :
    mark number target depot =
      (.ok (), depot.setBin number { depot.bin number with state := target }) := by
  have moved : (depot.bin number).moveTo target =
      .ok { depot.bin number with state := target } := by
    rw [Bin.moveTo, if_pos (List.contains_iff_mem.2 follows)]
  simp only [mark, Act.bind_apply, Act.read, Act.ofExcept, moved, Act.modify]

theorem mark_error {depot : Depot} {number : BinId} {target : BinState}
    (follows : target ∉ (depot.bin number).state.successors) :
    mark number target depot =
      (.error (.illegalTransition (depot.bin number).state target), depot) := by
  have moved : (depot.bin number).moveTo target =
      .error (.illegalTransition (depot.bin number).state target) := by
    rw [Bin.moveTo, if_neg fun among => follows (List.contains_iff_mem.1 among)]
  simp only [mark, Act.bind_apply, Act.read, Act.ofExcept, moved]

/-- The bin is open on the shelf or queued. -/
def Stored (depot : Depot) (bin : BinId) : Prop :=
  bin ∈ depot.shelf.bins ∨ bin ∈ depot.ready

/-- The shelf holds the same bins in the same state, no bin changed what it keeps
from its creation on, and no bin was created. -/
structure ShelfRests (before after : Depot) : Prop where
  groups : after.shelf.groups = before.shelf.groups
  binCount : after.shelf.binCount = before.shelf.binCount
  next : after.bins.next = before.bins.next
  sessions : before.flow.sessions.next ≤ after.flow.sessions.next
  matching : ∀ bin, (after.bin bin).Matches (before.bin bin)
  shelved : ∀ bin ∈ before.shelf.bins, (after.bin bin).state = (before.bin bin).state

/-- The shelf rests, and so does the queue. -/
structure Undisturbed (before after : Depot) : Prop extends ShelfRests before after where
  ready : after.ready = before.ready
  queued : ∀ bin ∈ before.ready, (after.bin bin).state = (before.bin bin).state

namespace ShelfRests

variable {first second third before after : Depot}

theorem refl (depot : Depot) : depot.ShelfRests depot :=
  ⟨rfl, rfl, rfl, Nat.le_refl _, fun _ => .refl _, fun _ _ => rfl⟩

theorem bins (rests : before.ShelfRests after) : after.shelf.bins = before.shelf.bins := by
  unfold Shelf.bins
  rw [rests.groups]

theorem binsOf (rests : before.ShelfRests after) (group : Key) :
    after.shelf.binsOf group = before.shelf.binsOf group := by
  unfold Shelf.binsOf
  rw [rests.groups]

theorem trans (restsFirst : first.ShelfRests second)
    (restsSecond : second.ShelfRests third) : first.ShelfRests third where
  groups := restsSecond.groups.trans restsFirst.groups
  binCount := restsSecond.binCount.trans restsFirst.binCount
  next := restsSecond.next.trans restsFirst.next
  sessions := Nat.le_trans restsFirst.sessions restsSecond.sessions
  matching bin := (restsSecond.matching bin).trans (restsFirst.matching bin)
  shelved bin member :=
    (restsSecond.shelved bin (restsFirst.bins.symm ▸ member)).trans
      (restsFirst.shelved bin member)

theorem setBin (depot : Depot) {number : BinId} (isBin : number < depot.bins.next)
    (absent : number ∉ depot.shelf.bins) {bin : Bin}
    (matching : bin.Matches (depot.bin number)) :
    depot.ShelfRests (depot.setBin number bin) where
  groups := rfl
  binCount := rfl
  next := Slots.next_set_of_lt isBin bin
  sessions := Nat.le_refl _
  matching other := by
    rw [bin_setBin]
    split
    · rename_i same
      exact same ▸ matching
    · exact .refl _
  shelved other member := by
    rw [bin_setBin, if_neg]
    rintro rfl
    exact absent member

/-- Everything else may change, as long as no session is lost. -/
theorem of_same (bins : after.bins = before.bins)
    (groups : after.shelf.groups = before.shelf.groups)
    (binCount : after.shelf.binCount = before.shelf.binCount)
    (sessions : before.flow.sessions.next ≤ after.flow.sessions.next) :
    before.ShelfRests after := by
  have same : ∀ bin, after.bin bin = before.bin bin := by
    intro bin
    unfold Depot.bin
    rw [bins]
  exact ⟨groups, binCount, by rw [bins], sessions, fun bin => same bin ▸ .refl _,
    fun bin _ => by rw [same]⟩

end ShelfRests

namespace Undisturbed

theorem refl (depot : Depot) : depot.Undisturbed depot :=
  ⟨.refl depot, rfl, fun _ _ => rfl⟩

variable {first second third before after : Depot}

theorem stored (undisturbed : before.Undisturbed after) (bin : BinId) :
    after.Stored bin ↔ before.Stored bin := by
  unfold Stored
  rw [undisturbed.bins, undisturbed.ready]

theorem trans (undisturbedFirst : first.Undisturbed second)
    (undisturbedSecond : second.Undisturbed third) : first.Undisturbed third where
  toShelfRests := undisturbedFirst.toShelfRests.trans undisturbedSecond.toShelfRests
  ready := undisturbedSecond.ready.trans undisturbedFirst.ready
  queued bin member :=
    (undisturbedSecond.queued bin (undisturbedFirst.ready.symm ▸ member)).trans
      (undisturbedFirst.queued bin member)

theorem setBin (depot : Depot) {number : BinId} (isBin : number < depot.bins.next)
    (notStored : ¬ depot.Stored number) {bin : Bin}
    (matching : bin.Matches (depot.bin number)) :
    depot.Undisturbed (depot.setBin number bin) where
  toShelfRests := .setBin depot isBin (fun member => notStored (.inl member)) matching
  ready := rfl
  queued other member := by
    rw [bin_setBin, if_neg]
    rintro rfl
    exact notStored (.inr member)

theorem of_same (bins : after.bins = before.bins)
    (groups : after.shelf.groups = before.shelf.groups)
    (binCount : after.shelf.binCount = before.shelf.binCount)
    (ready : after.ready = before.ready)
    (sessions : before.flow.sessions.next ≤ after.flow.sessions.next) :
    before.Undisturbed after where
  toShelfRests := .of_same bins groups binCount sessions
  ready := ready
  queued bin _ := by
    unfold Depot.bin
    rw [bins]

end Undisturbed

/-- The bins of the depot have sessions of their own and whole bounds. -/
structure Registered (depot : Depot) : Prop where
  sessions : ∀ bin < depot.bins.next,
    (depot.bin bin).session < depot.flow.sessions.next
  apart : ∀ first < depot.bins.next, ∀ second < depot.bins.next,
    (depot.bin first).session = (depot.bin second).session → first = second
  bounds : ∀ bin < depot.bins.next, (depot.bin bin).bounds.Whole

/-- The shelf counts its bins rightly, keeps no empty group, and files open bins
under their groups in the order of their creation. -/
structure Arranged (depot : Depot) : Prop where
  registered : depot.Registered
  thresholds : depot.shelf.thresholds.Whole
  binCount : depot.shelf.binCount = depot.shelf.bins.length
  filled : depot.shelf.Filled
  isBin : ∀ group, ∀ bin ∈ depot.shelf.binsOf group, bin < depot.bins.next
  opened : ∀ group, ∀ bin ∈ depot.shelf.binsOf group,
    (depot.bin bin).state = .opened
  filed : ∀ group, ∀ bin ∈ depot.shelf.binsOf group,
    (depot.bin bin).group.key? = some group
  ascending : ∀ group, (depot.shelf.binsOf group).Pairwise (· < ·)

theorem Registered.of_matching {before after : Depot} (registered : before.Registered)
    (next : after.bins.next = before.bins.next)
    (sessions : before.flow.sessions.next ≤ after.flow.sessions.next)
    (matching : ∀ bin, (after.bin bin).Matches (before.bin bin)) : after.Registered where
  sessions bin isBin := by
    rw [(matching bin).session]
    exact Nat.lt_of_lt_of_le (registered.sessions bin (next ▸ isBin)) sessions
  apart first isFirst second isSecond same := by
    rw [(matching first).session, (matching second).session] at same
    exact registered.apart first (next ▸ isFirst) second (next ▸ isSecond) same
  bounds bin isBin := by
    rw [(matching bin).bounds]
    exact registered.bounds bin (next ▸ isBin)

namespace Arranged

variable {depot before after : Depot}

theorem rests (arranged : before.Arranged) (rests : before.ShelfRests after)
    (thresholds : after.shelf.thresholds.Whole) : after.Arranged where
  registered := arranged.registered.of_matching rests.next rests.sessions rests.matching
  thresholds := thresholds
  binCount := by rw [rests.binCount, rests.bins, arranged.binCount]
  filled group member := by
    rw [rests.binsOf]
    exact arranged.filled group (rests.groups ▸ member)
  isBin group bin member := by
    rw [rests.next]
    exact arranged.isBin group bin (rests.binsOf group ▸ member)
  opened group bin member := by
    rw [rests.binsOf] at member
    rw [rests.shelved bin (Shelf.mem_bins_iff.2 ⟨group, member⟩)]
    exact arranged.opened group bin member
  filed group bin member := by
    rw [(rests.matching bin).group]
    exact arranged.filed group bin (rests.binsOf group ▸ member)
  ascending group := by
    rw [rests.binsOf]
    exact arranged.ascending group

/-- The queue, the clock and what sessions hold do not matter to the shelf. -/
theorem of_same (arranged : before.Arranged) (bins : after.bins = before.bins)
    (shelf : after.shelf = before.shelf)
    (sessions : before.flow.sessions.next ≤ after.flow.sessions.next) : after.Arranged := by
  have groups : after.shelf.groups = before.shelf.groups := by rw [shelf]
  have binCount : after.shelf.binCount = before.shelf.binCount := by rw [shelf]
  apply arranged.rests (.of_same bins groups binCount sessions)
  rw [shelf]
  exact arranged.thresholds

theorem group_unique (arranged : depot.Arranged) {bin : BinId} {first second : Key}
    (inFirst : bin ∈ depot.shelf.binsOf first)
    (inSecond : bin ∈ depot.shelf.binsOf second) : first = second :=
  Option.some.inj ((arranged.filed first bin inFirst).symm.trans
    (arranged.filed second bin inSecond))

theorem nodup_binsOf (arranged : depot.Arranged) (group : Key) :
    (depot.shelf.binsOf group).Nodup :=
  (arranged.ascending group).imp fun before => Nat.ne_of_lt before

theorem nodup_bins (arranged : depot.Arranged) : depot.shelf.bins.Nodup := by
  have within : ∀ group bins, depot.shelf.groups.find? group = some bins →
      depot.shelf.binsOf group = bins := by
    intro group bins found
    rw [Shelf.binsOf, found, Option.getD_some]
  refine List.nodup_flatten.2 ⟨?_, ?_⟩
  · intro bins member
    obtain ⟨group, found⟩ := Table.mem_values_iff.1 member
    exact within group bins found ▸ arranged.nodup_binsOf group
  · apply List.pairwise_map.2
    refine (List.pairwise_map.1 depot.shelf.groups.keys_nodup).imp_of_mem ?_
    rintro ⟨first, firstBins⟩ ⟨second, secondBins⟩ firstMember secondMember distinct
    have firstBins_eq := within first firstBins (Table.find?_eq_some_iff.2 firstMember)
    have secondBins_eq := within second secondBins (Table.find?_eq_some_iff.2 secondMember)
    refine List.disjoint_left.2 fun bin inFirst inSecond => distinct ?_
    have inFirst : bin ∈ depot.shelf.binsOf first := firstBins_eq ▸ inFirst
    have inSecond : bin ∈ depot.shelf.binsOf second := secondBins_eq ▸ inSecond
    exact arranged.group_unique inFirst inSecond

theorem isBin_of_mem_bins (arranged : depot.Arranged) {bin : BinId}
    (member : bin ∈ depot.shelf.bins) : bin < depot.bins.next := by
  obtain ⟨group, inGroup⟩ := Shelf.mem_bins_iff.1 member
  exact arranged.isBin group bin inGroup

theorem opened_of_mem_bins (arranged : depot.Arranged) {bin : BinId}
    (member : bin ∈ depot.shelf.bins) : (depot.bin bin).state = .opened := by
  obtain ⟨group, inGroup⟩ := Shelf.mem_bins_iff.1 member
  exact arranged.opened group bin inGroup

end Arranged

/-- A depot with no bins and an empty shelf under the thresholds of a policy. -/
def opening (flow : Flow) (clock : Moment) (policy : Policy) : Depot :=
  { flow, clock, shelf := { thresholds := policy.thresholds } }

theorem arranged_opening (flow : Flow) (clock : Moment) (policy : Policy) :
    (opening flow clock policy).Arranged where
  registered := ⟨nofun, nofun, nofun⟩
  thresholds := policy.whole_thresholds
  binCount := rfl
  filled := nofun
  isBin := nofun
  opened := nofun
  filed := nofun
  ascending _ := List.Pairwise.nil

end Depot

end ItemBinning
