import ItemBinning.Proofs.Flow.Handover
import ItemBinning.Proofs.Shelf.Fullness
import ItemBinning.Proofs.Shelf.Refusal

/-!
# Offers that fail

An offer fails when the bin is closed, and when the bin has room for an item that is not
handed over because its session does not hold it.  The items and sessions are then as they
were, and so is what the bin holds.  But a bin forgets the offers that it turned down
before the item is handed over, so an offer that fails for want of the item ends the
fullness of a bin that was full for these offers only.
-/

namespace ItemBinning

/-- There is no limit, or it is a number that the other number does not reach. -/
def Number.StaysBelow (number : Number) (limit : Value) : Prop :=
  limit = .null ∨ ∃ most, limit.number? = some most ∧ ¬ number.Reaches most

theorem Number.staysBelow_iff {number : Number} {limit : Value} :
    number.StaysBelow limit ↔ limit.limits (Value.number number).isAtLeast = .ok false := by
  have compared {limit : Value} {most : Number} (given : limit ≠ .null)
      (isMost : limit.number? = some most)
      (tests : limit.limits (Value.number number).isAtLeast =
        (Value.number number).isAtLeast (.number most)) :
      number.StaysBelow limit ↔ limit.limits (Value.number number).isAtLeast = .ok false := by
    obtain ⟨answer, answered⟩ := Value.exists_stands number most [.gt, .eq]
    have reaches := Value.isAtLeast_number_iff number most
    change (Value.number number).isAtLeast (.number most) = .ok answer at answered
    unfold StaysBelow
    rw [or_iff_right given, isMost, tests, answered]
    rw [answered] at reaches
    simp only [Option.some.injEq, exists_eq_left', ← reaches]
    cases answer <;> simp
  cases limit with
  | null => exact ⟨fun _ => rfl, fun _ => .inl rfl⟩
  | number most => exact compared (by rintro ⟨⟩) rfl rfl
  | bool truth =>
      refine compared (by rintro ⟨⟩) rfl ?_
      unfold Value.limits Value.isAtLeast Value.stands Value.compare
      rfl
  | text | list | map =>
      refine ⟨fun below => ?_, fun answered => ?_⟩
      · obtain none | ⟨_, isMost, _⟩ := below
        · cases none
        · cases isMost
      · unfold Value.limits Value.isAtLeast Value.stands Value.compare at answered
        cases answered

namespace Bin

/-- The bin is full for no other reason than that it turned down more than five offers in a
row: it is smaller than it may be, and holds fewer items. -/
structure FullByRejections (bin : Bin) : Prop where
  size : bin.size.StaysBelow bin.bounds.maxSize
  entries : (Number.int bin.contents.length).StaysBelow bin.bounds.maxEntries
  rejections : 5 < bin.rejections

variable {bin : Bin}

theorem FullByRejections.reachedSize (byRejections : bin.FullByRejections) :
    bin.reachedSize = .ok false :=
  Number.staysBelow_iff.1 byRejections.size

theorem FullByRejections.reachedEntries (byRejections : bin.FullByRejections) :
    bin.reachedEntries = .ok false :=
  Number.staysBelow_iff.1 byRejections.entries

theorem FullByRejections.isFull (byRejections : bin.FullByRejections) :
    bin.isFull = .ok true := by
  unfold Bin.isFull
  rw [byRejections.reachedSize, byRejections.reachedEntries]
  exact congrArg Except.ok (decide_eq_true byRejections.rejections)

/-- A bin that was full for the offers it turned down is not when it forgot them. -/
theorem FullByRejections.isFull_resetRejections (byRejections : bin.FullByRejections) :
    bin.resetRejections.isFull = .ok false := by
  have small : bin.resetRejections.reachedSize = .ok false := byRejections.reachedSize
  have few : bin.resetRejections.reachedEntries = .ok false := byRejections.reachedEntries
  unfold Bin.isFull
  rw [small, few]
  rfl

theorem isFull_resetRejections_iff :
    bin.resetRejections.isFull = bin.isFull ↔ ¬ bin.FullByRejections := by
  refine ⟨fun same byRejections => ?_, fun otherwise => ?_⟩
  · rw [byRejections.isFull, byRejections.isFull_resetRejections] at same
    cases same
  · have sizeAgain : bin.resetRejections.reachedSize = bin.reachedSize := rfl
    have entriesAgain : bin.resetRejections.reachedEntries = bin.reachedEntries := rfl
    unfold isFull
    rw [sizeAgain, entriesAgain]
    rcases size : bin.reachedSize with _ | _ | _
    case ok.false =>
      rcases entries : bin.reachedEntries with _ | _ | _
      case ok.false =>
        have within : ¬ rejectionLimit < bin.rejections := fun beyond =>
          otherwise ⟨Number.staysBelow_iff.2 size, Number.staysBelow_iff.2 entries, beyond⟩
        exact congrArg Except.ok (decide_eq_false within).symm
      all_goals rfl
    all_goals rfl

theorem isFullEnough_resetRejections_iff :
    bin.resetRejections.isFullEnough = bin.isFullEnough ↔
      ¬ (bin.FullByRejections ∧ bin.meetsMinimums ≠ .ok true) := by
  by_cases byRejections : bin.FullByRejections
  · have meetsAgain : bin.resetRejections.meetsMinimums = bin.meetsMinimums := rfl
    unfold isFullEnough
    rw [byRejections.isFull, byRejections.isFull_resetRejections, meetsAgain, not_and,
      not_not]
    exact ⟨fun same _ => same, fun kept => kept byRejections⟩
  · refine ⟨fun _ lost => byRejections lost.1, fun _ => ?_⟩
    unfold isFullEnough
    rw [isFull_resetRejections_iff.2 byRejections]
    rfl

end Bin

namespace Depot

/-- Why an offer fails, and where it leads: a closed bin is left alone, and a bin with room
for an item that its session does not hold forgets the offers it turned down. -/
inductive OfferFails (depot : Depot) (number : BinId) (item : Item) (source : SessionId) :
    Fault → Depot → Prop
  | closed (isClosed : (depot.bin number).state ≠ .opened) :
      OfferFails depot number item source (.closedBin (depot.bin number).state) depot
  | unheld (isOpen : (depot.bin number).state = .opened)
      (room : (depot.bin number).turnsDown item = .ok false)
      (apart : source ≠ (depot.bin number).session)
      (absent : item.id ∉ (depot.flow.session source).ids) :
      OfferFails depot number item source (.notHeld item.id source)
        (depot.setBin number (depot.bin number).resetRejections)

/-- An offer that failed left alone the items, the sessions, the other bins and what the
bin holds.  Whether the bin is full is answered as before, unless it was open and full for
the offers it turned down only. -/
structure LeftAlone (number : BinId) (before after : Depot) : Prop where
  flow : after.flow = before.flow
  others : ∀ other, other ≠ number → after.bin other = before.bin other
  contents : (after.bin number).contents = (before.bin number).contents
  size : (after.bin number).size = (before.bin number).size
  state : (after.bin number).state = (before.bin number).state
  isFull : (after.bin number).isFull = (before.bin number).isFull ↔
    ¬ ((before.bin number).state = .opened ∧ (before.bin number).FullByRejections)
  isFullEnough : (after.bin number).isFullEnough = (before.bin number).isFullEnough ↔
    ¬ ((before.bin number).state = .opened ∧ (before.bin number).FullByRejections ∧
      (before.bin number).meetsMinimums ≠ .ok true)

section Offers

variable {depot reached : Depot} {number : BinId} {item : Item} {source : SessionId}
  {fault : Fault}

theorem OfferFails.leftAlone (fails : depot.OfferFails number item source fault reached) :
    depot.LeftAlone number reached := by
  cases fails with
  | closed isClosed =>
      exact {
        flow := rfl
        others := fun _ _ => rfl
        contents := rfl
        size := rfl
        state := rfl
        isFull := ⟨fun _ lost => isClosed lost.1, fun _ => rfl⟩
        isFullEnough := ⟨fun _ lost => isClosed lost.1, fun _ => rfl⟩ }
  | unheld isOpen =>
      have isLeft := bin_setBin_self depot number (depot.bin number).resetRejections
      constructor
      case flow => rfl
      case others =>
        intro other differs
        rw [bin_setBin, if_neg differs]
      case isFull =>
        rw [isLeft, Bin.isFull_resetRejections_iff, and_iff_right isOpen]
      case isFullEnough =>
        rw [isLeft, Bin.isFullEnough_resetRejections_iff, and_iff_right isOpen]
      all_goals
        rw [isLeft]
        rfl

theorem offerTo_closed (isClosed : (depot.bin number).state ≠ .opened) :
    offerTo number item source depot =
      (.error (.closedBin (depot.bin number).state), depot) := by
  unfold offerTo
  rw [Act.read_bind, if_neg isClosed]
  rfl

theorem offerTo_unheld (isOpen : (depot.bin number).state = .opened)
    (room : (depot.bin number).turnsDown item = .ok false)
    (apart : source ≠ (depot.bin number).session)
    (absent : item.id ∉ (depot.flow.session source).ids) :
    offerTo number item source depot = (.error (.notHeld item.id source),
      depot.setBin number (depot.bin number).resetRejections) := by
  have stops : Flow.migrate source (depot.bin number).session [item] depot.flow =
      (.error (.notHeld item.id source), depot.flow) := by
    rcases Flow.migrate_one_cases apart item depot.flow with ⟨_, failed⟩ | ⟨current, found, _⟩
    · exact failed
    · exact absurd (Session.mem_ids_iff.2 ⟨current, found⟩) absent
  have outcome := offerTo_outcome number item source depot
  generalize offerTo number item source depot = result at outcome
  cases outcome with
  | refused _ reason =>
      rcases reason with isClosed | unknown
      · exact absurd isOpen isClosed
      · exact nomatch room.symm.trans unknown
  | turnedDown _ noRoom => exact nomatch room.symm.trans noRoom
  | kept _ _ _ _ migrated =>
      cases stops.symm.trans migrated
      rfl
  | unweighed _ _ _ _ migrated => cases stops.symm.trans migrated
  | taken _ _ _ _ migrated => cases stops.symm.trans migrated

theorem offerTo_of_fails (fails : depot.OfferFails number item source fault reached) :
    offerTo number item source depot = (.error fault, reached) := by
  cases fails with
  | closed isClosed => exact offerTo_closed isClosed
  | unheld isOpen room apart absent => exact offerTo_unheld isOpen room apart absent

theorem OfferFails.not_ofMeasuring
    (fails : depot.OfferFails number item source fault reached) : ¬ fault.OfMeasuring := by
  cases fails with
  | closed | unheld => exact id

/-- An offer that fails otherwise does so because the item cannot be measured. -/
theorem offerFails_or_unmeasured
    (failed : offerTo number item source depot = (.error fault, reached)) :
    depot.OfferFails number item source fault reached ∨
      (depot.bin number).turnsDown item = .error fault ∨
      (depot.bin number).sizeWith item = .error fault := by
  by_cases isOpen : (depot.bin number).state = .opened
  · have outcome := offerTo_outcome number item source depot
    rw [failed] at outcome
    cases outcome with
    | refused _ reason => exact .inr (.inl (reason.resolve_left (not_not_intro isOpen)))
    | kept _ flow _ room migrated =>
        have apart : source ≠ (depot.bin number).session := by
          intro same
          unfold Flow.migrate at migrated
          rw [if_pos same] at migrated
          cases migrated
        rcases Flow.migrate_one_cases apart item depot.flow with ⟨absent, stops⟩ | ⟨_, _, passes⟩
        · cases stops.symm.trans migrated
          exact .inl (.unheld isOpen room apart absent)
        · cases passes.symm.trans migrated
    | unweighed _ _ _ _ _ unknown => exact .inr (.inr unknown)
  · cases (offerTo_closed isOpen).symm.trans failed
    exact .inl (.closed isOpen)

end Offers

/-- Unless the item cannot be measured, an offer fails just when the bin is closed, or has
room for an item that is not held, and nothing changes then but what the bin remembers of the
offers it turned down.  Whole sizes under whole bounds can be measured. -/
theorem failed_offer_untouched (depot reached : Depot) (number : BinId) (item : Item)
    (source : SessionId) (fault : Fault) :
    (offerTo number item source depot = (.error fault, reached) ∧ ¬ fault.OfMeasuring ↔
      depot.OfferFails number item source fault reached ∧ depot.LeftAlone number reached) ∧
    ((depot.bin number).bounds.Whole → (∃ size : Int, (depot.bin number).size = .int size) →
      item.HasWholeSize → offerTo number item source depot = (.error fault, reached) →
      ¬ fault.OfMeasuring) := by
  refine ⟨⟨?_, ?_⟩, ?_⟩
  · rintro ⟨failed, others⟩
    rcases offerFails_or_unmeasured failed with fails | unknown | unknown
    · exact ⟨fails, fails.leftAlone⟩
    · exact absurd (Bin.turnsDown_error unknown) others
    · exact absurd (Bin.sizeWith_error unknown) others
  · rintro ⟨fails, -⟩
    exact ⟨offerTo_of_fails fails, fails.not_ofMeasuring⟩
  · rintro bounds ⟨size, weighed⟩ whole failed
    rcases offerFails_or_unmeasured failed with fails | unknown | unknown
    · exact fails.not_ofMeasuring
    · obtain ⟨answer, answered⟩ := Bin.exists_turnsDown bounds weighed whole
      exact nomatch answered.symm.trans unknown
    · obtain ⟨total, isTotal⟩ := Bin.exists_sizeWith weighed whole
      exact nomatch isTotal.symm.trans unknown

/-- A bin that turned down six offers of an item too large for it. -/
def sixTurnedDown : Depot where
  bins := Slots.push {} <| Bin.afterOffers
    { bounds := { Bounds.relaxed with maxSize := .int 5, minEntries := .int 1 } }
    (List.replicate 6 (Bin.strayOffer "b" 10))

/-- The bin is full until it is offered an item that fits, though the item is not held. -/
theorem fullness_of_six_turned_down :
    let item : Item := { id := "a", size := .int 1 }
    let reached := sixTurnedDown.setBin 0 (sixTurnedDown.bin 0).resetRejections
    offerTo 0 item 1 sixTurnedDown = (.error (.notHeld "a" 1), reached) ∧
      (sixTurnedDown.bin 0).isFull = .ok true ∧ (reached.bin 0).isFull = .ok false ∧
      (sixTurnedDown.bin 0).isFullEnough = .ok true ∧
      (reached.bin 0).isFullEnough = .ok false :=
  ⟨offerTo_unheld rfl rfl (by decide) (by decide), rfl, rfl, rfl, rfl⟩

end Depot

end ItemBinning
