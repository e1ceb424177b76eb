import ItemBinning.Proofs.Hook.Conduct
import ItemBinning.Proofs.Shelf.Departure
import ItemBinning.Proofs.Shelf.Placement

/-!
# The shelf over whole runs

A shelf that starts empty is worked on by offers, by removals, by purges and by
changes of its thresholds, while time passes and sessions are used elsewhere.
After every such run the shelf is tidy: it counts its bins rightly, every bin on
it is open, stands once, under its own group and in order of creation, and owns its
session.  An offer opens bins only below the greatest number of bins allowed.
-/

namespace ItemBinning

/-- The other moment is not earlier: it is the same, or the clock shows as much or
more then. -/
def Moment.Reaches (first other : Moment) : Prop :=
  first = other ∨
    Decimal.compareFloats? first.seconds other.seconds = some .lt ∨
      Decimal.compareFloats? first.seconds other.seconds = some .eq

private theorem compareFloats?_reaches_iff (first other : Float) :
    (Decimal.compareFloats? first other = some .lt ∨
        Decimal.compareFloats? first other = some .eq) ↔
      Decimal.isNotANumber first = false ∧ Decimal.isNotANumber other = false ∧
        Decimal.rank first ≤ Decimal.rank other := by
  unfold Decimal.compareFloats?
  cases Decimal.isNotANumber first <;> cases Decimal.isNotANumber other <;>
    simp [Int.compare_eq_ite_le]
  grind

theorem Moment.Reaches.trans {first second third : Moment}
    (reachesFirst : first.Reaches second) (reachesSecond : second.Reaches third) :
    first.Reaches third := by
  rcases reachesFirst with rfl | reachesFirst
  · exact reachesSecond
  rcases reachesSecond with rfl | reachesSecond
  · exact .inr reachesFirst
  refine .inr ?_
  rw [compareFloats?_reaches_iff] at reachesFirst reachesSecond ⊢
  exact ⟨reachesFirst.1, reachesSecond.2.1, Int.le_trans reachesFirst.2.2 reachesSecond.2.2⟩

/-- A clock that was moved and does not show less shows as much or more. -/
theorem reaches_advance {clock : Moment} {seconds : Float}
    (forward : (clock.isBefore (clock.advance seconds) ||
      clock.isSame (clock.advance seconds)) = true) :
    clock.Reaches (clock.advance seconds) := by
  have moved : (clock.moves == (clock.advance seconds).moves) = false := by
    simp [Moment.advance]
  rcases Bool.or_eq_true_iff.1 forward with before | same
  · exact .inr (.inl (by simpa [Moment.isBefore] using before))
  · rw [Moment.isSame, moved, Bool.false_or] at same
    exact .inr (.inr (by simpa using same))

/-- Of two bins the one with the smaller number was created before the other if it
was not created at a later moment. -/
theorem createdBefore_of_reaches {first other : BinId × Bin} (numbered : first.1 < other.1)
    (reaches : first.2.created.Reaches other.2.created) :
    createdBefore first other = true := by
  unfold createdBefore
  split
  · exact decide_eq_true numbered
  · rename_i differs
    rcases reaches with same | before | same
    · exact absurd (same ▸ Moment.isSame_self _) differs
    · simp [Moment.isBefore, before]
    · simp [Moment.isSame, same] at differs

namespace Depot

/-- The bins were created one after the other, none after the present. -/
structure Chronological (depot : Depot) : Prop where
  past : ∀ bin < depot.bins.next, (depot.bin bin).created.Reaches depot.clock
  order : ∀ second < depot.bins.next, ∀ first < second,
    (depot.bin first).created.Reaches (depot.bin second).created

theorem Chronological.of_matching {before after : Depot}
    (chronological : before.Chronological)
    (next : after.bins.next = before.bins.next) (clock : after.clock = before.clock)
    (matching : ∀ bin, (after.bin bin).Matches (before.bin bin)) :
    after.Chronological where
  past bin isBin := by
    rw [(matching bin).created, clock]
    exact chronological.past bin (next ▸ isBin)
  order second isSecond first before := by
    rw [(matching first).created, (matching second).created]
    exact chronological.order second (next ▸ isSecond) first before

theorem Chronological.withBin {depot : Depot} (chronological : depot.Chronological)
    (bounds : Bounds) (group : Value) : (depot.withBin bounds group).Chronological where
  past bin isBin := by
    rw [next_withBin] at isBin
    rcases Nat.lt_succ_iff_lt_or_eq.1 isBin with old | rfl
    · rw [bin_withBin_of_lt _ _ _ old]
      exact chronological.past bin old
    · rw [bin_withBin_next]
      exact .inl rfl
  order second isSecond first before := by
    rw [next_withBin] at isSecond
    rcases Nat.lt_succ_iff_lt_or_eq.1 isSecond with old | rfl
    · rw [bin_withBin_of_lt _ _ _ old, bin_withBin_of_lt _ _ _ (Nat.lt_trans before old)]
      exact chronological.order second old first before
    · rw [bin_withBin_next, bin_withBin_of_lt _ _ _ before]
      exact chronological.past first before

/-- The property is one of when bins were created: it depends on nothing else, and outlives
that a bin is created now and that time passes. -/
structure Dating (kept : Depot → Prop) : Prop where
  matching : ∀ before after, kept before → after.bins.next = before.bins.next →
    after.clock = before.clock → (∀ bin, (after.bin bin).Matches (before.bin bin)) → kept after
  created : ∀ depot bounds group, kept depot → kept (depot.withBin bounds group)
  later : ∀ depot seconds, kept depot → depot.clock.Reaches (depot.clock.advance seconds) →
    kept { depot with clock := depot.clock.advance seconds }

theorem Dating.offersKeep {kept : Depot → Prop} (dating : Dating kept) : OffersKeep kept where
  steady before after holds steady :=
    dating.matching before after holds steady.next steady.clock steady.matching
  created := dating.created
  filed depot _ _ holds _ := dating.matching depot _ holds rfl rfl fun _ => .refl _

theorem dating_chronological : Dating Chronological where
  matching _ _ := Chronological.of_matching
  created _ bounds group chronological := chronological.withBin bounds group
  later _ _ chronological forward :=
    ⟨fun bin isBin => (chronological.past bin isBin).trans forward, chronological.order⟩

/-- No more bins are open than a limit, which is not below the greatest number of
bins allowed. -/
structure Bounded (thresholds : Thresholds) (limit : Int) (depot : Depot) : Prop where
  thresholds : depot.shelf.thresholds = thresholds
  binCount : (depot.shelf.binCount : Int) ≤ limit

theorem offersKeep_bounded {thresholds : Thresholds} {most limit : Int}
    (isMost : thresholds.maxBinCount = .int most) (within : most ≤ limit) :
    OffersKeep (Bounded thresholds limit) where
  steady _ _ bounded steady := by
    refine ⟨?_, ?_⟩ <;> rw [steady.shelf]
    exacts [bounded.thresholds, bounded.binCount]
  created _ _ _ bounded := ⟨bounded.thresholds, bounded.binCount⟩
  filed depot _ _ bounded room := by
    refine ⟨bounded.thresholds, ?_⟩
    rw [Shelf.isAtCapacity, bounded.thresholds, isMost, Value.isAtLeast_int] at room
    have below : ¬ most ≤ depot.shelf.binCount := by simpa using room
    dsimp only
    omega

/-- The shelf is in the state that its clients rely on. -/
structure Tidy (depot : Depot) : Prop where
  counted : depot.shelf.binCount = depot.shelf.bins.length
  filled : ∀ group bins, depot.shelf.groups.find? group = some bins → bins ≠ []
  once : depot.shelf.bins.Nodup
  opened : ∀ bin ∈ depot.shelf.bins, (depot.bin bin).state = .opened
  own : ∀ bin ∈ depot.shelf.bins, ∀ other < depot.bins.next,
    (depot.bin other).session = (depot.bin bin).session → other = bin
  filed : ∀ group bins, depot.shelf.groups.find? group = some bins →
    ∀ bin ∈ bins, (depot.bin bin).group.key? = some group
  ordered : ∀ group bins, depot.shelf.groups.find? group = some bins →
    bins.Pairwise fun first second => first < second ∧
      createdBefore (first, depot.bin first) (second, depot.bin second) = true

theorem Orderly.tidy {depot : Depot} (orderly : depot.Orderly Chronological) :
    depot.Tidy := by
  obtain ⟨arranged, chronological⟩ := orderly
  have held : ∀ group bins, depot.shelf.groups.find? group = some bins →
      depot.shelf.binsOf group = bins := by
    intro group bins found
    rw [Shelf.binsOf, found, Option.getD_some]
  refine ⟨arranged.binCount, fun group bins found => ?_, arranged.nodup_bins,
    fun bin => arranged.opened_of_mem_bins, fun bin member other isBin same => ?_,
    fun group bins found bin member => ?_, fun group bins found => ?_⟩
  · rw [← held group bins found]
    exact arranged.filled group (Table.mem_keys_of_find? found)
  · exact arranged.registered.apart other isBin bin
      (arranged.isBin_of_mem_bins member) same
  · exact arranged.filed group bin (held group bins found ▸ member)
  · rw [← held group bins found]
    refine (arranged.ascending group).imp_of_mem fun {first second} _ isSecond before => ?_
    have isBin := arranged.isBin group second isSecond
    exact ⟨before, createdBefore_of_reaches before
      (chronological.order second isBin first before)⟩

/-- The depot after some seconds; the clock never goes back. -/
def wait (seconds : Float) (depot : Depot) : Depot :=
  let later := depot.clock.advance seconds
  if depot.clock.isBefore later || depot.clock.isSame later then
    { depot with clock := later }
  else depot

end Depot

namespace Shelf

open Depot

/-- What is done with the shelf, or elsewhere while it stands. -/
inductive Step
  | offer (group : Value) (items : List Item) (session : SessionId)
  | removeReady (relaxed : Bool)
  | removeOldest
  | purge
  | set (setting : Setting)
  | applyPolicy (policy : Policy)
  | wait (seconds : Float)
  | elsewhere (call : Call) (permitted : call.Permitted (fun _ => True) none)
      (keepsTime : call.KeepsTime)

/-- The depot after a step, also if what was done failed. -/
def Step.perform (depot : Depot) : Step → Depot
  | .offer group items session => (Shelf.offer group items session).final depot
  | .removeReady relaxed => (Shelf.removeReady relaxed).final depot
  | .removeOldest => Shelf.removeOldest.final depot
  | .purge => Shelf.purge.final depot
  | .set setting => (modifyThresholds setting.apply).final depot
  | .applyPolicy policy => (Depot.applyPolicy policy).final depot
  | .wait seconds => depot.wait seconds
  | .elsewhere call _ _ => call.perform.final depot

variable {kept : Depot → Prop}

theorem Step.perform_orderly (dating : Dating kept) (step : Step) {depot : Depot}
    (orderly : depot.Orderly kept) : (step.perform depot).Orderly kept := by
  obtain ⟨arranged, holds⟩ := orderly
  cases step with
  | offer group items session =>
      exact (offer_orderly dating.offersKeep group items session).final ⟨arranged, holds⟩
  | removeReady relaxed =>
      obtain ⟨ready, reached, run, departed, rearranged, _⟩ :=
        removeReady_spec relaxed arranged
      simp only [perform, Act.final, run]
      exact ⟨rearranged,
        dating.matching _ _ holds departed.next departed.clock departed.matching⟩
  | removeOldest =>
      rcases removeOldest_spec arranged with
        ⟨_, run⟩ | ⟨oldest, reached, run, departed, rearranged⟩
      · simp only [perform, Act.final, run]
        exact ⟨arranged, holds⟩
      · simp only [perform, Act.final, run]
        exact ⟨rearranged,
          dating.matching _ _ holds departed.next departed.clock departed.matching⟩
  | purge =>
      obtain ⟨discarded, isDiscarded, run⟩ := purge_spec arranged
      simp only [perform, Act.final, run]
      exact ⟨(isDiscarded.registered arranged.registered).arranged_emptied
          (isDiscarded.rest ▸ arranged.thresholds),
        dating.matching depot _ holds isDiscarded.next
          (show discarded.clock = depot.clock by rw [isDiscarded.rest]) isDiscarded.matching⟩
  | set setting =>
      exact ⟨arranged.rests (.of_same rfl rfl rfl (Nat.le_refl _))
          (setting.whole_apply arranged.thresholds),
        dating.matching depot _ holds rfl rfl fun _ => .refl _⟩
  | applyPolicy policy =>
      exact ⟨arranged.rests (.of_same rfl rfl rfl (Nat.le_refl _)) policy.whole_thresholds,
        dating.matching depot _ holds rfl rfl fun _ => .refl _⟩
  | wait seconds =>
      change (depot.wait seconds).Orderly kept
      unfold Depot.wait
      dsimp only
      split
      · rename_i forward
        exact ⟨arranged.of_same rfl rfl (Nat.le_refl _),
          dating.later depot seconds holds (reaches_advance forward)⟩
      · exact ⟨arranged, holds⟩
  | elsewhere call permitted keepsTime =>
      have undisturbed : depot.Undisturbed (call.perform depot).2 :=
        Act.Meets.final (Call.perform_undisturbed permitted (by simp)) (.refl depot)
      have whole : (call.perform depot).2.shelf.thresholds.Whole :=
        Act.Meets.final (call.perform_shelf (·.thresholds.Whole)
          fun policy _ _ _ => policy.whole_thresholds) arranged.thresholds
      exact ⟨arranged.rests undisturbed.toShelfRests whole,
        dating.matching depot _ holds undisturbed.next (Call.perform_clock keepsTime depot)
          undisturbed.matching⟩

/-- The depot after steps one after the other. -/
def Step.run (depot : Depot) (steps : List Step) : Depot :=
  steps.foldl Step.perform depot

theorem Step.run_orderly (dating : Dating kept) (steps : List Step) {depot : Depot}
    (orderly : depot.Orderly kept) : (Step.run depot steps).Orderly kept :=
  List.foldlRecOn steps _ orderly fun _ orderly step _ => step.perform_orderly dating orderly

theorem binCount_offer_le {depot : Depot} (arranged : depot.Arranged) {most : Int}
    (isMost : depot.shelf.thresholds.maxBinCount = .int most) (group : Value)
    (items : List Item) (session : SessionId) :
    (((offer group items session).final depot).shelf.binCount : Int) ≤
      max most depot.shelf.binCount :=
  ((offer_orderly (offersKeep_bounded isMost (Int.le_max_left _ _)) group items
    session).final ⟨arranged, rfl, Int.le_max_right _ _⟩).kept.binCount

/-- After every run of steps from an empty shelf the shelf is tidy, and no offer
makes the number of bins exceed both the greatest number allowed and the number
before the offer. -/
theorem tidy_after_run (flow : Flow) (clock : Moment) (policy : Policy)
    (steps : List Step) :
    let depot := Step.run (opening flow clock policy) steps
    depot.Tidy ∧ ∃ most : Int, depot.shelf.thresholds.maxBinCount = .int most ∧
      ∀ group items session,
        (((offer group items session).final depot).shelf.binCount : Int) ≤
          max most depot.shelf.binCount := by
  intro depot
  have start : (opening flow clock policy).Orderly Chronological :=
    ⟨arranged_opening flow clock policy, nofun, nofun⟩
  have orderly : depot.Orderly Chronological := Step.run_orderly dating_chronological steps start
  obtain ⟨most, isMost⟩ := orderly.arranged.thresholds.maxBinCount
  exact ⟨orderly.tidy, most, isMost, binCount_offer_le orderly.arranged isMost⟩

end Shelf

end ItemBinning
