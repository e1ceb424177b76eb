import Mathlib.Data.Prod.Lex
import ItemBinning.Proofs.InsertionOrder
import ItemBinning.Proofs.Shelf.FirstFit

/-!
# Which bin is older

A bin is older than another if the clock showed less when it was created, or as much
and it has the smaller number.  The clock may be set to any time, also to an earlier
one, but a moment at which it stands is one moment, so that no bin is older than one
that is older than it.  Where the times are numbers, the bins stand in one order, that of
their times and numbers: the bins that leave together leave in this order, and the
oldest bin is the first of all.
-/

namespace ItemBinning

namespace Depot

/-- The first of two bins was created before the other. -/
def Older (depot : Depot) (first second : BinId) : Prop :=
  createdBefore (first, depot.bin first) (second, depot.bin second) = true

/-- The time at which a bin was created, and its number. -/
def creationKey (depot : Depot) (bin : BinId) : Int ×ₗ Nat :=
  toLex (Decimal.rank (depot.bin bin).created.seconds, bin)

/-- The clock showed a number whenever one of the bins was created. -/
def Timed (depot : Depot) (bins : List BinId) : Prop :=
  ∀ bin ∈ bins, Decimal.isNotANumber (depot.bin bin).created.seconds = false

/-- No bin was created after the clock was moved for the last time unless now, and the
clock shows one time until it is moved. -/
structure Dated (depot : Depot) : Prop where
  past : ∀ bin < depot.bins.next, (depot.bin bin).created.moves < depot.clock.moves ∨
    (depot.bin bin).created = depot.clock
  agree : ∀ first < depot.bins.next, ∀ second < depot.bins.next,
    (depot.bin first).created.moves = (depot.bin second).created.moves →
      (depot.bin first).created = (depot.bin second).created

namespace Dated

variable {depot before after : Depot}

theorem of_matching (dated : before.Dated) (next : after.bins.next = before.bins.next)
    (clock : after.clock = before.clock)
    (matching : ∀ bin, (after.bin bin).Matches (before.bin bin)) : after.Dated where
  past bin isBin := by
    rw [(matching bin).created, clock]
    exact dated.past bin (next ▸ isBin)
  agree first isFirst second isSecond := by
    rw [(matching first).created, (matching second).created]
    exact dated.agree first (next ▸ isFirst) second (next ▸ isSecond)

/-- The time of a bin that was created as often as the clock was moved is the present. -/
theorem now (dated : depot.Dated) {bin : BinId} (isBin : bin < depot.bins.next)
    (moves : (depot.bin bin).created.moves = depot.clock.moves) :
    (depot.bin bin).created = depot.clock :=
  (dated.past bin isBin).resolve_left (Nat.not_lt.2 (Nat.le_of_eq moves.symm))

theorem withBin (dated : depot.Dated) (bounds : Bounds) (group : Value) :
    (depot.withBin bounds group).Dated where
  past bin isBin := by
    rw [next_withBin] at isBin
    rcases Nat.lt_succ_iff_lt_or_eq.1 isBin with old | rfl
    · rw [bin_withBin_of_lt _ _ _ old]
      exact dated.past bin old
    · rw [bin_withBin_next]
      exact .inr rfl
  agree first isFirst second isSecond := by
    rw [next_withBin] at isFirst isSecond
    rcases Nat.lt_succ_iff_lt_or_eq.1 isFirst with oldFirst | rfl <;>
      rcases Nat.lt_succ_iff_lt_or_eq.1 isSecond with oldSecond | rfl
    · rw [bin_withBin_of_lt _ _ _ oldFirst, bin_withBin_of_lt _ _ _ oldSecond]
      exact dated.agree first oldFirst second oldSecond
    · rw [bin_withBin_of_lt _ _ _ oldFirst, bin_withBin_next]
      exact dated.now oldFirst
    · rw [bin_withBin_next, bin_withBin_of_lt _ _ _ oldSecond]
      exact fun moves => (dated.now oldSecond moves.symm).symm
    · exact fun _ => rfl

/-- The clock may be set to any time. -/
theorem moved (dated : depot.Dated) {clock : Moment} (moves : depot.clock.moves < clock.moves) :
    Dated { depot with clock } where
  past bin isBin := by
    rcases dated.past bin isBin with before | now
    · exact .inl (Nat.lt_trans before moves)
    · exact .inl (now.symm ▸ moves)
  agree := dated.agree

end Dated

theorem dating_dated : Dating Dated where
  matching _ _ := Dated.of_matching
  created _ bounds group dated := dated.withBin bounds group
  later _ _ dated _ := dated.moved (Nat.lt_succ_self _)

section Order

variable {depot : Depot} {first second third : BinId}

private theorem isBefore_iff (early late : Moment) :
    early.isBefore late = true ↔ Decimal.isNotANumber early.seconds = false ∧
      Decimal.isNotANumber late.seconds = false ∧
        Decimal.rank early.seconds < Decimal.rank late.seconds := by
  unfold Moment.isBefore Decimal.compareFloats?
  cases Decimal.isNotANumber early.seconds <;> cases Decimal.isNotANumber late.seconds <;>
    simp [Int.compare_eq_ite_le]
  grind

private theorem isSame_iff (early late : Moment) :
    early.isSame late = true ↔ early.moves = late.moves ∨
      Decimal.isNotANumber early.seconds = false ∧ Decimal.isNotANumber late.seconds = false ∧
        Decimal.rank early.seconds = Decimal.rank late.seconds := by
  unfold Moment.isSame Decimal.compareFloats?
  cases Decimal.isNotANumber early.seconds <;> cases Decimal.isNotANumber late.seconds <;>
    simp [Int.compare_eq_ite_le]
  grind

theorem creationKey_lt_iff :
    depot.creationKey first < depot.creationKey second ↔
      Decimal.rank (depot.bin first).created.seconds <
          Decimal.rank (depot.bin second).created.seconds ∨
        Decimal.rank (depot.bin first).created.seconds =
            Decimal.rank (depot.bin second).created.seconds ∧ first < second :=
  Prod.Lex.toLex_lt_toLex

theorem creationKey_injective : Function.Injective depot.creationKey :=
  fun _ _ same => congrArg Prod.snd same

/-- A bin is older than another just if its time and number come first, provided that both
were created at one moment or that both times are numbers. -/
theorem Dated.older_iff (dated : depot.Dated) (isFirst : first < depot.bins.next)
    (isSecond : second < depot.bins.next) :
    depot.Older first second ↔
      ((depot.bin first).created = (depot.bin second).created ∨ depot.Timed [first, second]) ∧
        depot.creationKey first < depot.creationKey second := by
  unfold Older createdBefore Timed
  rw [creationKey_lt_iff]
  by_cases moves : (depot.bin first).created.moves = (depot.bin second).created.moves
  · have same := dated.agree first isFirst second isSecond moves
    simp [same]
  · have differs : (depot.bin first).created ≠ (depot.bin second).created :=
      fun same => moves (congrArg Moment.moves same)
    have sameTime := isSame_iff (depot.bin first).created (depot.bin second).created
    have before := isBefore_iff (depot.bin first).created (depot.bin second).created
    simp only [moves, false_or] at sameTime
    simp only [differs, false_or, List.forall_mem_cons]
    split <;> grind

theorem Dated.older_trans (dated : depot.Dated) (isFirst : first < depot.bins.next)
    (isSecond : second < depot.bins.next) (isThird : third < depot.bins.next)
    (older : depot.Older first second) (olderStill : depot.Older second third) :
    depot.Older first third := by
  rw [dated.older_iff isFirst isSecond] at older
  rw [dated.older_iff isSecond isThird] at olderStill
  rw [dated.older_iff isFirst isThird]
  refine ⟨?_, lt_trans older.2 olderStill.2⟩
  unfold Timed at *
  simp only [List.forall_mem_cons] at *
  grind

theorem Dated.not_older_self (dated : depot.Dated) (isFirst : first < depot.bins.next) :
    ¬ depot.Older first first := by
  rw [dated.older_iff isFirst isFirst]
  exact fun older => lt_irrefl _ older.2

theorem Dated.ordersBy_creationKey (dated : depot.Dated) {bins : List BinId}
    (areBins : ∀ bin ∈ bins, bin < depot.bins.next) (timed : depot.Timed bins) :
    OrdersBy depot.creationKey (fun first other =>
      createdBefore (first, depot.bin first) (other, depot.bin other)) bins := by
  intro first isFirst second isSecond
  rw [Bool.eq_iff_iff, decide_eq_true_iff]
  have older := dated.older_iff (areBins first isFirst) (areBins second isSecond)
  have both : depot.Timed [first, second] := by
    refine List.forall_mem_cons.2 ⟨timed first isFirst, ?_⟩
    exact List.forall_mem_singleton.2 (timed second isSecond)
  exact older.trans (and_iff_right (.inr both))

end Order

end Depot

namespace Shelf

open Depot

variable {depot : Depot} {bins : List BinId} {oldest : BinId}

/-- Bins that leave together stand in the order of their times and numbers. -/
theorem byCreation_ascends (dated : depot.Dated)
    (areBins : ∀ bin ∈ bins, bin < depot.bins.next) (distinct : bins.Nodup)
    (timed : depot.Timed bins) :
    (byCreation depot bins).Pairwise fun first second =>
      depot.creationKey first < depot.creationKey second := by
  have ordered : InOrder depot.creationKey (byCreation depot bins) :=
    inOrder_sortBy (dated.ordersBy_creationKey areBins timed)
  have distinct : (byCreation depot bins).Nodup :=
    (sortBy_perm _ bins).nodup_iff.2 distinct
  exact ordered.imp₂ (fun _ _ le differs => lt_of_le_of_ne le (creationKey_injective.ne differs))
    distinct

/-- The bin that is found on the way from a first one is as old as all of them. -/
private theorem oldest_of_foldl (dated : depot.Dated) (first : BinId)
    (areBins : ∀ bin ∈ first :: bins, bin < depot.bins.next)
    (found : oldest? depot (first :: bins) = some oldest) :
    oldest ∈ first :: bins ∧ (oldest = first ∨ depot.Older oldest first) ∧
      ∀ other ∈ first :: bins, ¬ depot.Older other oldest := by
  unfold oldest? at found
  rw [List.foldl_cons] at found
  induction bins generalizing first with
  | nil =>
      obtain rfl : first = oldest := Option.some.inj found
      refine ⟨by simp, .inl rfl, ?_⟩
      exact List.forall_mem_singleton.2 (dated.not_older_self (areBins first (by simp)))
  | cons bin rest ih =>
      rw [List.foldl_cons] at found
      dsimp only at found
      have isFirst := areBins first (by simp)
      have isBin := areBins bin (by simp)
      split at found
      · rename_i older
        have areRest : ∀ other ∈ bin :: rest, other < depot.bins.next :=
          fun other member => areBins other (List.mem_cons_of_mem _ member)
        obtain ⟨member, upTo, least⟩ := ih bin areRest found
        have isOldest := areRest oldest member
        have before : depot.Older oldest first := by
          rcases upTo with rfl | upTo
          · exact older
          · exact dated.older_trans isOldest isBin isFirst upTo older
        refine ⟨List.mem_cons_of_mem _ member, .inr before, ?_⟩
        refine List.forall_mem_cons.2 ⟨fun again => ?_, least⟩
        exact dated.not_older_self isFirst (dated.older_trans isFirst isOldest isFirst again before)
      · rename_i notOlder
        have within : first :: rest ⊆ first :: bin :: rest :=
          List.cons_subset_cons first (List.subset_cons_self bin rest)
        obtain ⟨member, upTo, least⟩ := ih first (fun other member => areBins other (within member))
          found
        have isOldest := areBins oldest (within member)
        have notBin : ¬ depot.Older bin oldest := by
          rcases upTo with rfl | upTo
          · exact notOlder
          · exact fun again => notOlder (dated.older_trans isBin isOldest isFirst again upTo)
        rw [List.forall_mem_cons] at least
        exact ⟨within member, upTo,
          List.forall_mem_cons.2 ⟨least.1, List.forall_mem_cons.2 ⟨notBin, least.2⟩⟩⟩

/-- No bin is older than the oldest one, and where the times are numbers its time and number
come before those of any other. -/
theorem oldest_spec (dated : depot.Dated) (areBins : ∀ bin ∈ bins, bin < depot.bins.next)
    (found : oldest? depot bins = some oldest) :
    oldest ∈ bins ∧ (∀ other ∈ bins, ¬ depot.Older other oldest) ∧
      (depot.Timed bins → ∀ other ∈ bins, other ≠ oldest →
        depot.creationKey oldest < depot.creationKey other) := by
  match bins with
  | [] => cases found
  | first :: rest =>
      obtain ⟨member, _, least⟩ := oldest_of_foldl dated first areBins found
      refine ⟨member, least, fun timed other isOther differs => ?_⟩
      have notBefore := least other isOther
      have before := dated.ordersBy_creationKey areBins timed other isOther oldest member
      dsimp only at before
      rw [Older, before, decide_eq_true_iff, not_lt] at notBefore
      exact lt_of_le_of_ne notBefore (creationKey_injective.ne differs.symm)

/-- What is done with the shelf, or a time that the clock shows, be it earlier or later than
the one before. -/
inductive Turn
  | work (step : Step)
  | time (seconds : Float)

namespace Turn

/-- The depot after a turn, also if what was done failed. -/
def perform (depot : Depot) : Turn → Depot
  | .work step => step.perform depot
  | .time seconds => { depot with clock := { seconds, moves := depot.clock.moves + 1 } }

def Natural : Turn → Prop
  | .work step => step.Natural
  | .time _ => True

/-- The depot after turns one after the other. -/
def run (depot : Depot) (turns : List Turn) : Depot :=
  turns.foldl perform depot

theorem perform_orderly (turn : Turn) (orderly : depot.Orderly Dated) :
    (turn.perform depot).Orderly Dated := by
  cases turn with
  | work step => exact step.perform_orderly dating_dated orderly
  | time seconds =>
      refine ⟨orderly.arranged.of_same rfl rfl (Nat.le_refl depot.flow.sessions.next), ?_⟩
      exact orderly.kept.moved (Nat.lt_succ_self _)

theorem run_orderly (turns : List Turn) (orderly : depot.Orderly Dated) :
    (run depot turns).Orderly Dated :=
  List.foldlRecOn turns _ orderly fun _ orderly turn _ => turn.perform_orderly orderly

theorem orderly_opening (flow : Flow) (clock : Moment) (policy : Policy) :
    (opening flow clock policy).Orderly Dated :=
  ⟨arranged_opening flow clock policy, nofun, nofun⟩

theorem perform_firstFit {turn : Turn} (natural : turn.Natural) (orderly : depot.Orderly Dated)
    (firstFit : depot.FirstFit) : (turn.perform depot).FirstFit := by
  cases turn with
  | work step => exact step.perform_firstFit natural orderly.arranged firstFit
  | time seconds => exact firstFit.staying rfl (fun _ => .refl _) fun _ => .refl _

theorem run_firstFit {turns : List Turn} (natural : ∀ turn ∈ turns, turn.Natural)
    (orderly : depot.Orderly Dated) (firstFit : depot.FirstFit) :
    (run depot turns).FirstFit := by
  induction turns generalizing depot with
  | nil => exact firstFit
  | cons turn rest ih =>
      have isNatural := List.forall_mem_cons.1 natural
      exact ih isNatural.2 (turn.perform_orderly orderly)
        (perform_firstFit isNatural.1 orderly firstFit)

end Turn

end Shelf

end ItemBinning
