import ItemBinning.Proofs.Bin.Due
import ItemBinning.Proofs.Shelf.FirstFit
import Mathlib.Data.List.Induction

/-!
# How long a bin stays full

A bin is full for its size, for the number of its items, or because it turned down many
offers in a row.  Its contents and its size only grow while it is offered items, so a
bin that reached a maximum stays full, and one that reached both minimums stays full
enough.  The offers that it turned down are forgotten as soon as one passes the bounds,
whether or not the item is handed over then, and this is the only way in which a bin
ceases to be full.
-/

namespace ItemBinning

namespace Bin

/-- The bin is as large as it may be, or holds as many items as it may. -/
inductive AtMaximum (bin : Bin) : Prop
  | size {most size : Int} (isMost : bin.bounds.maxSize = .int most)
      (isSize : bin.size = .int size) (atLeast : most ≤ size) : AtMaximum bin
  | entries {most : Int} (isMost : bin.bounds.maxEntries = .int most)
      (atLeast : most ≤ bin.contents.length) : AtMaximum bin

/-- The bin is as large as it has to be, and holds as many items as it has to. -/
structure AtMinimums (bin : Bin) : Prop where
  size : ∃ least size : Int, bin.bounds.minSize = .int least ∧ bin.size = .int size ∧
    least ≤ size
  entries : ∃ least : Int, bin.bounds.minEntries = .int least ∧ least ≤ bin.contents.length

section Measures

variable {bin before after : Bin} {size : Int}

/-- A bin with whole bounds is full at a maximum, and when it turned down too many offers. -/
theorem full_iff_atMaximum (whole : bin.bounds.Whole) (isSize : bin.size = .int size) :
    bin.isFull = .ok true ↔ bin.AtMaximum ∨ 5 < bin.rejections := by
  rw [isFull_iff whole]
  constructor
  · rintro (⟨most, isMost, reached⟩ | ⟨most, isMost, reached⟩ | beyond)
    · obtain none | ⟨greatest, isGreatest⟩ := whole.maxSize
      · cases none.symm.trans isMost
      · cases isGreatest.symm.trans isMost
        rw [isSize, Number.reaches_int] at reached
        exact .inl (.size isGreatest isSize reached)
    · obtain none | ⟨greatest, isGreatest⟩ := whole.maxEntries
      · cases none.symm.trans isMost
      · cases isGreatest.symm.trans isMost
        exact .inl (.entries isGreatest (Number.reaches_int.1 reached))
    · exact .inr beyond
  · rintro ((⟨isMost, isHeld, atLeast⟩ | ⟨isMost, atLeast⟩) | beyond)
    · refine .size _ isMost ?_
      rw [isHeld, Number.reaches_int]
      exact atLeast
    · exact .entries _ isMost (Number.reaches_int.2 atLeast)
    · exact .rejections beyond

theorem meetsMinimums_iff_atMinimums (whole : bin.bounds.Whole)
    (isSize : bin.size = .int size) : bin.meetsMinimums = .ok true ↔ bin.AtMinimums := by
  rw [meetsMinimums_iff whole]
  obtain ⟨leastSize, minSize⟩ := whole.minSize
  obtain ⟨leastEntries, minEntries⟩ := whole.minEntries
  constructor
  · rintro ⟨⟨_, isLeast, large⟩, ⟨_, isFewest, many⟩⟩
    cases minSize.symm.trans isLeast
    cases minEntries.symm.trans isFewest
    rw [isSize, Number.reaches_int] at large
    exact ⟨⟨_, _, minSize, isSize, large⟩, ⟨_, minEntries, Number.reaches_int.1 many⟩⟩
  · rintro ⟨⟨_, _, isLeast, isHeld, large⟩, ⟨_, isFewest, many⟩⟩
    refine ⟨⟨_, isLeast, ?_⟩, ⟨_, isFewest, Number.reaches_int.2 many⟩⟩
    rw [isHeld, Number.reaches_int]
    exact large

/-- A bin is full enough when it is full, and when it is at both minimums. -/
theorem fullEnough_iff_atMinimums (whole : bin.bounds.Whole) (isSize : bin.size = .int size) :
    bin.isFullEnough = .ok true ↔ bin.isFull = .ok true ∨ bin.AtMinimums := by
  rw [← meetsMinimums_iff_atMinimums whole isSize]
  obtain ⟨full, isFull⟩ := exists_isFull whole
  unfold isFullEnough
  rw [isFull]
  cases full <;> simp [bind, Except.bind, pure, Except.pure]

/-- A bin at a maximum is at it later on too. -/
theorem Fills.atMaximum (fills : before.Fills after) (reached : before.AtMaximum) :
    after.AtMaximum := by
  cases reached with
  | size isMost isSize atLeast =>
      obtain ⟨larger, isLarger, le⟩ := fills.size _ isSize
      exact .size (fills.bounds ▸ isMost) isLarger (Int.le_trans atLeast le)
  | entries isMost atLeast =>
      have longer := fills.contents.length_le
      exact .entries (fills.bounds ▸ isMost) (by omega)

theorem Fills.atMinimums (fills : before.Fills after) (reached : before.AtMinimums) :
    after.AtMinimums := by
  obtain ⟨least, size, minSize, isSize, large⟩ := reached.size
  obtain ⟨fewest, minEntries, many⟩ := reached.entries
  obtain ⟨larger, isLarger, le⟩ := fills.size size isSize
  have longer := fills.contents.length_le
  exact ⟨⟨least, larger, fills.bounds ▸ minSize, isLarger, Int.le_trans large le⟩,
    ⟨fewest, fills.bounds ▸ minEntries, by omega⟩⟩

/-- An item that a bin does not turn down has room in it. -/
theorem not_leavesNoRoom_of_room {item : Item} (room : bin.turnsDown item = .ok false) :
    ¬ bin.LeavesNoRoom item := by
  obtain ⟨fewer, smaller⟩ := room_of_turnsDown room
  rintro (⟨most, isMost, reached⟩ | ⟨most, size, added, isMost, isSize, isAdded, exceeds⟩)
  · unfold reachedEntries at fewer
    rw [isMost, Value.limits_int, Value.isAtLeast_int] at fewer
    exact absurd reached (of_decide_eq_false (Except.ok.inj fewer))
  · have total : bin.sizeWith item = .ok (.int (size + added)) := by
      unfold sizeWith
      rw [isAdded, isSize]
      rfl
    unfold overflowsWith at smaller
    rw [isMost, Value.limits_int, total] at smaller
    have within : (Value.int (size + added)).isAbove (.int most) = .ok false := smaller
    rw [Value.isAbove_int] at within
    exact absurd exceeds (of_decide_eq_false (Except.ok.inj within))

end Measures

/-- The bin is open, its bounds are whole numbers, and its size is that of its contents. -/
structure Serves (bin : Bin) : Prop where
  opened : bin.state = .opened
  bounds : bin.bounds.Whole
  weighs : bin.Weighs

/-- What an open bin answers to an offer of an item, and what it is then. -/
inductive Hears (bin : Bin) (item : Item) : Except Fault Bool → Bin → Prop
  | turnedDown : Hears bin item (.ok false) bin.reject
  | passed (answer : Except Fault Bool) (later : Bin) (room : ¬ bin.LeavesNoRoom item)
      (answered : answer ≠ .ok false) (fills : bin.Fills later) (weighs : later.Weighs)
      (state : later.state = bin.state) (forgotten : later.rejections = 0) :
      Hears bin item answer later

section Hearing

variable {bin later : Bin} {item : Item} {answer : Except Fault Bool}

theorem Serves.size (serves : bin.Serves) : ∃ size : Int, bin.size = .int size := by
  obtain ⟨sizes, _, isSum⟩ := serves.weighs
  exact ⟨_, isSum⟩

theorem Hears.fills (hears : bin.Hears item answer later) : bin.Fills later := by
  cases hears with
  | turnedDown => exact .of_same rfl rfl rfl
  | passed _ _ _ _ fills => exact fills

theorem Hears.serves (hears : bin.Hears item answer later) (serves : bin.Serves) :
    later.Serves := by
  cases hears with
  | turnedDown => exact ⟨serves.opened, serves.bounds, serves.weighs.of_same rfl rfl⟩
  | passed _ _ _ _ fills weighs state =>
      exact ⟨state.trans serves.opened, fills.bounds ▸ serves.bounds, weighs⟩

end Hearing

end Bin

/-- An offer that does not find the bin without room makes it forget the earlier ones. -/
theorem Depot.Offered.hears {depot : Depot} {number : BinId} {item : Item}
    {source : SessionId} {result : Except Fault Bool × Depot}
    (offered : depot.Offered number item source result) (serves : (depot.bin number).Serves)
    (natural : item.HasNaturalSize) :
    (depot.bin number).Hears item result.1 (result.2.bin number) := by
  have fills := offered.fills natural number
  obtain ⟨size, isSize⟩ := serves.size
  cases offered with
  | refused fault reason =>
      obtain ⟨answer, answered⟩ := Bin.exists_turnsDown serves.bounds isSize natural.whole
      rcases reason with isClosed | unknown
      · exact absurd serves.opened isClosed
      · exact nomatch answered.symm.trans unknown
  | turnedDown =>
      rw [bin_setBin_self]
      exact .turnedDown
  | kept fault flow _ room =>
      have isLeft : Depot.bin { depot.setBin number (depot.bin number).resetRejections
          with flow } number = (depot.bin number).resetRejections := bin_setBin_self ..
      rw [isLeft] at fills ⊢
      exact .passed _ _ (Bin.not_leavesNoRoom_of_room room) nofun fills
        (serves.weighs.of_same rfl rfl) rfl rfl
  | unweighed _ _ _ _ _ unknown =>
      obtain ⟨total, isTotal⟩ := Bin.exists_sizeWith isSize natural.whole
      exact nomatch isTotal.symm.trans unknown
  | taken size flow _ room _ weighed =>
      have isLeft : Depot.bin { depot.setBin number
          { (depot.bin number).resetRejections.take item with size } with flow } number =
            { (depot.bin number).resetRejections.take item with size } := bin_setBin_self ..
      rw [isLeft] at fills ⊢
      exact .passed _ _ (Bin.not_leavesNoRoom_of_room room) nofun fills
        (serves.weighs.take natural.whole weighed rfl rfl) rfl rfl

namespace Bin

/-- An item of a session is offered to a bin that stands under a number in a depot. -/
structure Offer where
  depot : Depot
  number : BinId
  item : Item
  source : SessionId

namespace Offer

def perform (offer : Offer) (bin : Bin) : Except Fault Bool × Depot :=
  Depot.offerTo offer.number offer.item offer.source (offer.depot.setBin offer.number bin)

def answer (offer : Offer) (bin : Bin) : Except Fault Bool :=
  (offer.perform bin).1

/-- The bin after the offer. -/
def leaves (offer : Offer) (bin : Bin) : Bin :=
  (offer.perform bin).2.bin offer.number

end Offer

/-- The bin after offers that were made to it one after the other. -/
def afterOffers (bin : Bin) (offers : List Offer) : Bin :=
  offers.foldl (fun bin offer => offer.leaves bin) bin

/-- The bin turns all offers down. -/
def TurnsAllDown (bin : Bin) : List Offer → Prop
  | [] => True
  | offer :: rest => offer.answer bin = .ok false ∧ (offer.leaves bin).TurnsAllDown rest

/-- One of the offers is of an item that the bin has room for when it is offered, and the bin
does not turn it down, whether or not the item is handed over then. -/
def LetsOnePass (bin : Bin) (offers : List Offer) : Prop :=
  ∃ former offer latter, offers = former ++ offer :: latter ∧
    ¬ (bin.afterOffers former).LeavesNoRoom offer.item ∧
    offer.answer (bin.afterOffers former) ≠ .ok false

/-- The offers end with a run of more than five that the bin turns down. -/
def EndsRejecting (bin : Bin) (offers : List Offer) : Prop :=
  ∃ former run, offers = former ++ run ∧ 5 < run.length ∧
    (bin.afterOffers former).TurnsAllDown run

section Offers

variable {bin : Bin} {offer : Offer} {offers : List Offer}

theorem afterOffers_append (bin : Bin) (former latter : List Offer) :
    bin.afterOffers (former ++ latter) = (bin.afterOffers former).afterOffers latter :=
  List.foldl_append

theorem Serves.hears (serves : bin.Serves) (natural : offer.item.HasNaturalSize) :
    bin.Hears offer.item (offer.answer bin) (offer.leaves bin) := by
  have isBin : (offer.depot.setBin offer.number bin).bin offer.number = bin :=
    Depot.bin_setBin_self ..
  have outcome := Depot.offerTo_outcome offer.number offer.item offer.source
    (offer.depot.setBin offer.number bin)
  have hears := outcome.hears (isBin.symm ▸ serves) natural
  rwa [isBin] at hears

theorem Serves.leaves (serves : bin.Serves) (natural : offer.item.HasNaturalSize) :
    (offer.leaves bin).Serves :=
  (serves.hears natural).serves serves

/-- A bin that is offered items stays open, and only fills. -/
theorem Serves.afterOffers (serves : bin.Serves)
    (natural : ∀ offer ∈ offers, offer.item.HasNaturalSize) :
    (bin.afterOffers offers).Serves ∧ bin.Fills (bin.afterOffers offers) := by
  induction offers generalizing bin with
  | nil => exact ⟨serves, .refl bin⟩
  | cons offer rest ih =>
      rw [List.forall_mem_cons] at natural
      obtain ⟨later, fills⟩ := ih (serves.leaves natural.1) natural.2
      exact ⟨later, (serves.hears natural.1).fills.trans fills⟩

theorem Serves.leaves_of_turnedDown (serves : bin.Serves)
    (natural : offer.item.HasNaturalSize) (turnedDown : offer.answer bin = .ok false) :
    offer.leaves bin = bin.reject := by
  have hears := serves.hears natural
  rw [turnedDown] at hears
  generalize offer.leaves bin = later at hears
  cases hears with
  | turnedDown => rfl
  | passed _ _ _ answered => exact absurd rfl answered

theorem LetsOnePass.cons (passes : (offer.leaves bin).LetsOnePass offers) :
    bin.LetsOnePass (offer :: offers) := by
  obtain ⟨former, passing, latter, rfl, room, answered⟩ := passes
  exact ⟨offer :: former, passing, latter, rfl, room, answered⟩

/-- Offers are all turned down, or one of them passes the bounds. -/
theorem Serves.turnsAllDown_or (serves : bin.Serves)
    (natural : ∀ offer ∈ offers, offer.item.HasNaturalSize) :
    bin.TurnsAllDown offers ∨ bin.LetsOnePass offers := by
  induction offers generalizing bin with
  | nil => exact .inl trivial
  | cons offer rest ih =>
      rw [List.forall_mem_cons] at natural
      have later := ih (serves.leaves natural.1) natural.2
      have hears := serves.hears natural.1
      generalize isAnswer : offer.answer bin = answer at hears
      generalize offer.leaves bin = left at hears
      cases hears with
      | turnedDown => exact later.imp (fun rest => ⟨isAnswer, rest⟩) LetsOnePass.cons
      | passed _ _ room answered =>
          exact .inr ⟨[], offer, rest, rfl, room, isAnswer ▸ answered⟩

/-- A bin counts the offers that it turns down. -/
theorem Serves.rejections_of_turnsAllDown (serves : bin.Serves)
    (natural : ∀ offer ∈ offers, offer.item.HasNaturalSize)
    (turnsDown : bin.TurnsAllDown offers) :
    (bin.afterOffers offers).rejections = bin.rejections + offers.length := by
  induction offers generalizing bin with
  | nil => rfl
  | cons offer rest ih =>
      rw [List.forall_mem_cons] at natural
      have later := ih (serves.leaves natural.1) natural.2 turnsDown.2
      rw [serves.leaves_of_turnedDown natural.1 turnsDown.1] at later
      change ((offer.leaves bin).afterOffers rest).rejections = _
      rw [serves.leaves_of_turnedDown natural.1 turnsDown.1, later, List.length_cons]
      change bin.rejections + 1 + rest.length = _
      omega

theorem turnsAllDown_concat (former : List Offer) :
    bin.TurnsAllDown (former ++ [offer]) ↔
      bin.TurnsAllDown former ∧ offer.answer (bin.afterOffers former) = .ok false := by
  induction former generalizing bin with
  | nil => exact ⟨fun all => ⟨trivial, all.1⟩, fun both => ⟨both.2, trivial⟩⟩
  | cons first rest ih =>
      change _ ∧ (first.leaves bin).TurnsAllDown (rest ++ [offer]) ↔ _
      rw [ih, ← and_assoc]
      rfl

/-- The rejections of a bin that began with none are the last offers made to it. -/
theorem Serves.run_of_rejections (serves : bin.Serves) (fresh : bin.rejections = 0)
    (natural : ∀ offer ∈ offers, offer.item.HasNaturalSize) :
    ∃ former run, offers = former ++ run ∧
      run.length = (bin.afterOffers offers).rejections ∧
      (bin.afterOffers former).TurnsAllDown run := by
  induction offers using List.reverseRecOn with
  | nil => exact ⟨[], [], rfl, fresh.symm, trivial⟩
  | append_singleton past offer ih =>
      have naturalPast : ∀ other ∈ past, other.item.HasNaturalSize :=
        fun other isPast => natural other (List.mem_append_left _ isPast)
      have naturalLast : offer.item.HasNaturalSize := natural offer (by simp)
      have servesLast := (serves.afterOffers naturalPast).1
      have hears := servesLast.hears naturalLast
      rw [afterOffers_append]
      change ∃ former, ∃ run : List Offer, _ ∧
        run.length = (offer.leaves (bin.afterOffers past)).rejections ∧ _
      generalize answered : offer.answer (bin.afterOffers past) = answer at hears
      generalize offer.leaves (bin.afterOffers past) = left at hears ⊢
      cases hears with
      | turnedDown =>
          obtain ⟨former, run, rfl, length, turnsDown⟩ := ih naturalPast
          rw [afterOffers_append] at answered
          refine ⟨former, run ++ [offer], List.append_assoc .., ?_,
            (turnsAllDown_concat run).2 ⟨turnsDown, answered⟩⟩
          rw [List.length_append, length]
          rfl
      | passed _ _ _ _ _ _ _ forgotten =>
          exact ⟨past ++ [offer], [], (List.append_nil _).symm, forgotten.symm, trivial⟩

/-- A bin that was full for the offers it turned down turned the last ones down. -/
theorem Serves.endsRejecting (serves : bin.Serves) (fresh : bin.rejections = 0)
    (natural : ∀ offer ∈ offers, offer.item.HasNaturalSize)
    (beyond : 5 < (bin.afterOffers offers).rejections) : bin.EndsRejecting offers := by
  obtain ⟨former, run, split, length, turnsDown⟩ := serves.run_of_rejections fresh natural
  exact ⟨former, run, split, length ▸ beyond, turnsDown⟩

theorem Serves.isFull_iff (serves : bin.Serves) :
    bin.isFull = .ok true ↔ bin.AtMaximum ∨ 5 < bin.rejections := by
  obtain ⟨size, isSize⟩ := serves.size
  exact full_iff_atMaximum serves.bounds isSize

/-- A bin that began with no rejections is full at a maximum, and after a run of them. -/
theorem Serves.isFull_iff_endsRejecting (serves : bin.Serves) (fresh : bin.rejections = 0)
    (natural : ∀ offer ∈ offers, offer.item.HasNaturalSize) :
    (bin.afterOffers offers).isFull = .ok true ↔
      (bin.afterOffers offers).AtMaximum ∨ bin.EndsRejecting offers := by
  rw [(serves.afterOffers natural).1.isFull_iff]
  refine or_congr_right ⟨serves.endsRejecting fresh natural, ?_⟩
  rintro ⟨former, run, rfl, beyond, turnsDown⟩
  obtain ⟨naturalFormer, naturalRun⟩ := List.forall_mem_append.1 natural
  rw [afterOffers_append,
    (serves.afterOffers naturalFormer).1.rejections_of_turnsAllDown naturalRun turnsDown]
  omega

theorem Serves.isFullEnough_iff (serves : bin.Serves) :
    bin.isFullEnough = .ok true ↔ bin.isFull = .ok true ∨ bin.AtMinimums := by
  obtain ⟨size, isSize⟩ := serves.size
  exact fullEnough_iff_atMinimums serves.bounds isSize

theorem Serves.isFull_afterOffers (serves : bin.Serves)
    (natural : ∀ offer ∈ offers, offer.item.HasNaturalSize) (reached : bin.AtMaximum) :
    (bin.afterOffers offers).isFull = .ok true := by
  obtain ⟨later, fills⟩ := serves.afterOffers natural
  exact later.isFull_iff.2 (.inl (fills.atMaximum reached))

theorem Serves.isFullEnough_afterOffers (serves : bin.Serves)
    (natural : ∀ offer ∈ offers, offer.item.HasNaturalSize) (reached : bin.AtMinimums) :
    (bin.afterOffers offers).isFullEnough = .ok true := by
  obtain ⟨later, fills⟩ := serves.afterOffers natural
  exact later.isFullEnough_iff.2 (.inr (fills.atMinimums reached))

theorem Serves.isFull_of_turnsAllDown (serves : bin.Serves)
    (natural : ∀ offer ∈ offers, offer.item.HasNaturalSize)
    (turnsDown : bin.TurnsAllDown offers) (beyond : 5 < bin.rejections + offers.length) :
    (bin.afterOffers offers).isFull = .ok true := by
  rw [← serves.rejections_of_turnsAllDown natural turnsDown] at beyond
  exact (serves.afterOffers natural).1.isFull_iff.2 (.inr beyond)

/-- A bin ceases to be full only when it was full for the offers it turned down, and one
passes. -/
theorem Serves.isFull_lost (serves : bin.Serves)
    (natural : ∀ offer ∈ offers, offer.item.HasNaturalSize) (wasFull : bin.isFull = .ok true)
    (lost : (bin.afterOffers offers).isFull ≠ .ok true) :
    ¬ bin.AtMaximum ∧ 5 < bin.rejections ∧ bin.LetsOnePass offers := by
  have below := mt (serves.isFull_afterOffers natural) lost
  have beyond := (serves.isFull_iff.1 wasFull).resolve_left below
  refine ⟨below, beyond, (serves.turnsAllDown_or natural).resolve_left fun allDown => lost ?_⟩
  exact serves.isFull_of_turnsAllDown natural allDown (Nat.lt_add_right _ beyond)

theorem Serves.isFullEnough_lost (serves : bin.Serves)
    (natural : ∀ offer ∈ offers, offer.item.HasNaturalSize)
    (wasEnough : bin.isFullEnough = .ok true)
    (lost : (bin.afterOffers offers).isFullEnough ≠ .ok true) :
    ¬ bin.AtMinimums ∧ bin.isFull = .ok true ∧ (bin.afterOffers offers).isFull ≠ .ok true := by
  have below := mt (serves.isFullEnough_afterOffers natural) lost
  refine ⟨below, (serves.isFullEnough_iff.1 wasEnough).resolve_right below, fun full => ?_⟩
  exact lost ((serves.afterOffers natural).1.isFullEnough_iff.2 (.inl full))

end Offers

/-- What holds of the fullness of a bin between two times, the second after more offers. -/
structure Endures (bin : Bin) (past later : List Offer) : Prop where
  opened : (bin.afterOffers (past ++ later)).state = .opened
  /-- The size of the bin is that of its contents together. -/
  weighs : (bin.afterOffers (past ++ later)).Weighs
  /-- A bin is full at a maximum, and when it turned down more than five offers in a row. -/
  isFull_iff : (bin.afterOffers past).isFull = .ok true ↔
    (bin.afterOffers past).AtMaximum ∨ bin.EndsRejecting past
  isFullEnough_iff : (bin.afterOffers past).isFullEnough = .ok true ↔
    (bin.afterOffers past).isFull = .ok true ∨ (bin.afterOffers past).AtMinimums
  /-- A bin that reached a maximum stays full. -/
  full : (bin.afterOffers past).AtMaximum → (bin.afterOffers (past ++ later)).isFull = .ok true
  /-- A bin that reached both minimums stays full enough. -/
  enough : (bin.afterOffers past).AtMinimums →
    (bin.afterOffers (past ++ later)).isFullEnough = .ok true
  /-- A bin that is full no more was full only for the offers it turned down, before one
  passed. -/
  fullLost : (bin.afterOffers past).isFull = .ok true →
    (bin.afterOffers (past ++ later)).isFull ≠ .ok true →
    ¬ (bin.afterOffers past).AtMaximum ∧ bin.EndsRejecting past ∧
      (bin.afterOffers past).LetsOnePass later
  /-- So was a bin that is full enough no more. -/
  enoughLost : (bin.afterOffers past).isFullEnough = .ok true →
    (bin.afterOffers (past ++ later)).isFullEnough ≠ .ok true →
    ¬ (bin.afterOffers past).AtMaximum ∧ ¬ (bin.afterOffers past).AtMinimums ∧
      bin.EndsRejecting past ∧ (bin.afterOffers past).LetsOnePass later
  /-- A bin that turned down more than five offers in a row is full. -/
  rejecting : (bin.afterOffers past).TurnsAllDown later → 5 < later.length →
    (bin.afterOffers (past ++ later)).isFull = .ok true

theorem serves_created {bounds : Bounds} (whole : bounds.Whole) (session : SessionId)
    (group : Value) (created : Moment) :
    Serves { session, bounds, group, created } :=
  ⟨rfl, whole, [], rfl, rfl⟩

/-- However a bin is offered items after it was created, its fullness endures, that for
rejections excepted. -/
theorem fullness_endures {bounds : Bounds} (whole : bounds.Whole) (session : SessionId)
    (group : Value) (created : Moment) {past later : List Offer}
    (natural : ∀ offer ∈ past ++ later, offer.item.HasNaturalSize) :
    Endures { session, bounds, group, created } past later := by
  obtain ⟨naturalPast, naturalLater⟩ := List.forall_mem_append.1 natural
  generalize isNew : ({ session, bounds, group, created } : Bin) = bin
  have serves : bin.Serves := isNew ▸ serves_created whole session group created
  have fresh : bin.rejections = 0 := by rw [← isNew]
  have between := (serves.afterOffers naturalPast).1
  constructor
  case opened => exact (serves.afterOffers natural).1.opened
  case weighs => exact (serves.afterOffers natural).1.weighs
  case isFull_iff => exact serves.isFull_iff_endsRejecting fresh naturalPast
  case isFullEnough_iff => exact between.isFullEnough_iff
  all_goals rw [afterOffers_append]
  case full => exact between.isFull_afterOffers naturalLater
  case enough => exact between.isFullEnough_afterOffers naturalLater
  case fullLost =>
    intro wasFull lost
    obtain ⟨below, beyond, passes⟩ := between.isFull_lost naturalLater wasFull lost
    exact ⟨below, serves.endsRejecting fresh naturalPast beyond, passes⟩
  case enoughLost =>
    intro wasEnough lost
    obtain ⟨unmet, wasFull, fullLost⟩ :=
      between.isFullEnough_lost naturalLater wasEnough lost
    obtain ⟨below, beyond, passes⟩ := between.isFull_lost naturalLater wasFull fullLost
    exact ⟨below, unmet, serves.endsRejecting fresh naturalPast beyond, passes⟩
  case rejecting =>
    exact fun turnsDown beyond => between.isFull_of_turnsAllDown naturalLater turnsDown
      (Nat.lt_add_left _ beyond)

/-- An offer of an item that no session holds. -/
def strayOffer (id : String) (size : Int) : Offer where
  depot := default
  number := 0
  item := { id, size := .int size }
  source := 1

/-- An offer of an item that its session holds. -/
def heldOffer (id : String) (size : Int) : Offer :=
  let item : Item := { id, size := .int size }
  { strayOffer id size with
    depot := { (default : Depot) with
      flow := (default : Flow).setSession 1 ((default : Session).receivePulled [item]) } }

theorem natural_of_sizes {offers : List Offer} (sizes : List Nat)
    (are : offers.map (·.item.size) = sizes.map fun size => .int (size : Int)) :
    ∀ offer ∈ offers, offer.item.HasNaturalSize := by
  intro offer isOffer
  have isSize : offer.item.size ∈ offers.map (·.item.size) := List.mem_map_of_mem isOffer
  rw [are] at isSize
  obtain ⟨size, _, same⟩ := List.mem_map.1 isSize
  exact ⟨size, same.symm⟩

/-- A bin that turned down six items too large for it is full, until it is offered a small
one, although nobody hands that over.  The same bin stays full at either of its maximums,
and full enough at its minimums. -/
theorem fullness_of_histories :
    let bin : Bin := { bounds :=
      { minSize := .int 3, maxSize := .int 5, minEntries := .int 2, maxEntries := .int 3 } }
    let tooLarge := List.replicate 6 (strayOffer "b" 10)
    let small := [strayOffer "a" 1]
    let largest := [heldOffer "c" 5]
    let fullest := [heldOffer "c" 0, heldOffer "d" 1, heldOffer "e" 0]
    let enough := [heldOffer "c" 1, heldOffer "d" 2]
    (bin.TurnsAllDown tooLarge ∧ Endures bin [] tooLarge) ∧
    ((bin.afterOffers tooLarge).isFull = .ok true ∧
      (bin.afterOffers (tooLarge ++ small)).isFullEnough = .ok false ∧
      Endures bin tooLarge small) ∧
    ((bin.afterOffers largest).AtMaximum ∧ Endures bin largest (heldOffer "d" 0 :: small)) ∧
    ((bin.afterOffers fullest).AtMaximum ∧ Endures bin fullest small) ∧
    (bin.afterOffers enough).AtMinimums ∧ (bin.afterOffers enough).isFull = .ok false ∧
      Endures bin enough small := by
  have whole : Bounds.Whole
      { minSize := .int 3, maxSize := .int 5, minEntries := .int 2, maxEntries := .int 3 } :=
    ⟨⟨3, rfl⟩, .inr ⟨5, rfl⟩, ⟨2, rfl⟩, .inr ⟨3, rfl⟩⟩
  refine ⟨⟨?_, ?_⟩, ⟨rfl, rfl, ?_⟩, ⟨?_, ?_⟩, ⟨?_, ?_⟩, ?_, rfl, ?_⟩
  · exact ⟨rfl, rfl, rfl, rfl, rfl, rfl, trivial⟩
  · exact fullness_endures whole 0 .null {} (natural_of_sizes [10, 10, 10, 10, 10, 10] rfl)
  · exact fullness_endures whole 0 .null {} (natural_of_sizes [10, 10, 10, 10, 10, 10, 1] rfl)
  · exact .size rfl rfl (Int.le_refl 5)
  · exact fullness_endures whole 0 .null {} (natural_of_sizes [5, 0, 1] rfl)
  · exact .entries rfl (Int.le_refl 3)
  · exact fullness_endures whole 0 .null {} (natural_of_sizes [0, 1, 0, 1] rfl)
  · exact ⟨⟨3, 3, rfl, rfl, Int.le_refl 3⟩, ⟨2, rfl, Int.le_refl 2⟩⟩
  · exact fullness_endures whole 0 .null {} (natural_of_sizes [1, 2, 1] rfl)

end Bin

end ItemBinning
