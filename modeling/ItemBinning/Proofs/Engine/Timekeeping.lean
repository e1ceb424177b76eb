import ItemBinning.Proofs.Engine.Progress
import ItemBinning.Proofs.Shelf.Seniority

/-!
# Bins stay dated

Hooks may move the clock whenever they run, to an earlier time as well as to a later one.
A bin is dated when it is created, and keeps its date and its number from then on.  So
whatever happens to an engine, its bins are dated, and which of them is older can be told.
An intake takes no bin off the shelf, and a drain leaves the shelf alone.
-/

namespace ItemBinning

open Depot

namespace Depot

variable {first second third before after depot : Depot}

/-- The clock stands where it stood or was moved since. -/
def Ticks (before after : Depot) : Prop :=
  after.clock = before.clock ∨ before.clock.moves < after.clock.moves

theorem Ticks.trans (ticksFirst : first.Ticks second) (ticksSecond : second.Ticks third) :
    first.Ticks third := by
  rcases ticksFirst with same | moved <;> rcases ticksSecond with again | later
  · exact .inl (again.trans same)
  · exact .inr (same ▸ later)
  · exact .inr (again ▸ moved)
  · exact .inr (Nat.lt_trans moved later)

/-- Time passed, the open bins are the same, and no bin was created or dated anew. -/
structure Elapsed (before after : Depot) : Prop where
  groups : after.shelf.groups = before.shelf.groups
  next : after.bins.next = before.bins.next
  matching : ∀ bin, (after.bin bin).Matches (before.bin bin)
  ticks : before.Ticks after

namespace Elapsed

theorem refl (depot : Depot) : depot.Elapsed depot :=
  ⟨rfl, rfl, fun _ => .refl _, .inl rfl⟩

theorem trans (elapsedFirst : first.Elapsed second) (elapsedSecond : second.Elapsed third) :
    first.Elapsed third where
  groups := elapsedSecond.groups.trans elapsedFirst.groups
  next := elapsedSecond.next.trans elapsedFirst.next
  matching bin := (elapsedSecond.matching bin).trans (elapsedFirst.matching bin)
  ticks := elapsedFirst.ticks.trans elapsedSecond.ticks

theorem of_same (groups : after.shelf.groups = before.shelf.groups)
    (bins : after.bins = before.bins) (ticks : before.Ticks after) : before.Elapsed after where
  groups := groups
  next := by rw [bins]
  matching bin := by
    unfold Depot.bin
    rw [bins]
    exact .refl _
  ticks := ticks

/-- A bin may change in all but what it was created with. -/
theorem setBin (depot : Depot) {number : BinId} (isBin : number < depot.bins.next) {bin : Bin}
    (matching : bin.Matches (depot.bin number)) : depot.Elapsed (depot.setBin number bin) where
  groups := rfl
  next := Slots.next_set_of_lt isBin bin
  matching other := by
    rw [bin_setBin]
    split
    · rename_i same
      exact same ▸ matching
    · exact .refl _
  ticks := .inl rfl

theorem dated (elapsed : before.Elapsed after) (dated : before.Dated) : after.Dated := by
  rcases elapsed.ticks with same | moved
  · exact dated.of_matching elapsed.next same elapsed.matching
  · exact (dated.moved moved).of_matching elapsed.next rfl elapsed.matching

theorem bins (elapsed : before.Elapsed after) : after.shelf.bins = before.shelf.bins := by
  unfold Shelf.bins
  rw [elapsed.groups]

end Elapsed

theorem onFlow_elapsed {α : Type} (act : Act Flow α) : (onFlow act).Keeps depot.Elapsed :=
  Act.Keeps.of_final fun _ elapsed => elapsed.trans (.of_same rfl rfl (.inl rfl))

theorem count_elapsed (change : Counters → Counters) : (count change).Keeps depot.Elapsed :=
  Act.Keeps.of_final fun _ elapsed => elapsed.trans (.of_same rfl rfl (.inl rfl))

theorem mark_elapsed {bin : BinId} (isBin : bin < depot.bins.next) (target : BinState) :
    (mark bin target).Keeps depot.Elapsed := by
  apply Act.Keeps.of_final
  intro reached elapsed
  by_cases follows : target ∈ (reached.bin bin).state.successors
  · rw [mark_eq follows]
    exact elapsed.trans (.setBin reached (elapsed.next ▸ isBin) ⟨rfl, rfl, rfl, rfl⟩)
  · rw [mark_error follows]
    exact elapsed

/-- The bins are dated, and these of them are on the shelf. -/
structure Retains (bins : List BinId) (depot : Depot) : Prop where
  dated : depot.Dated
  shelved : bins ⊆ depot.shelf.bins

variable {bins : List BinId}

theorem Retains.elapsed (retains : before.Retains bins) (elapsed : before.Elapsed after) :
    after.Retains bins where
  dated := elapsed.dated retains.dated
  shelved := elapsed.bins ▸ retains.shelved

theorem offersKeep_retains : OffersKeep (Retains bins) where
  steady _ _ retains steady :=
    retains.elapsed ⟨congrArg Shelf.groups steady.shelf, steady.next, steady.matching,
      .inl steady.clock⟩
  created _ bounds group retains := ⟨retains.dated.withBin bounds group, retains.shelved⟩
  filed _ _ _ retains _ :=
    ⟨retains.dated.of_matching rfl rfl fun _ => .refl _,
      fun _ member => Shelf.mem_bins_file.2 (.inl (retains.shelved member))⟩

theorem restsKeep_retains : RestsKeep (Retains bins) :=
  fun _ _ retains rests _ _ clock =>
    retains.elapsed ⟨rests.groups, rests.next, rests.matching, .inl clock⟩

end Depot

section Hooks

variable {α : Type} {call : Call} {script : Script α} {mayPut : List Item → Prop}
  {own : Option BinId} {depot : Depot} {bins : List BinId}

/-- The clock is not moved without a note that it was moved. -/
theorem Call.perform_ticks (call : Call) (depot : Depot) :
    depot.Ticks (call.perform depot).2 := by
  have stands (keepsTime : call.KeepsTime) : depot.Ticks (call.perform depot).2 :=
    .inl (call.perform_clock keepsTime depot)
  cases call with
  | advance => exact .inr (Nat.lt_succ_self _)
  | _ => exact stands trivial

/-- A permitted call concerns the shelf only by its policy, and a bin only by its state. -/
theorem Call.perform_elapsed (permitted : call.Permitted mayPut own)
    (isBin : ∀ bin, own = some bin → bin < depot.bins.next) :
    call.perform.Keeps depot.Elapsed := by
  apply Act.Keeps.of_final
  intro reached elapsed
  have ticks := call.perform_ticks reached
  have effect := call.effect_perform reached
  generalize (call.perform reached).2 = last at ticks effect
  cases effect with
  | flow | policy | aside => exact elapsed.trans (.of_same rfl rfl ticks)
  | state bin target =>
      have isBin := elapsed.next ▸ isBin bin permitted
      exact elapsed.trans (.setBin reached isBin ⟨rfl, rfl, rfl, rfl⟩)

theorem Script.Uses.elapsed (uses : script.Uses (Call.Permitted mayPut own))
    (isBin : ∀ bin, own = some bin → bin < depot.bins.next) :
    script.run.Keeps depot.Elapsed :=
  uses.keeps fun _ permitted => Call.perform_elapsed permitted isBin

theorem Script.Uses.retains (uses : script.Uses (Call.Permitted mayPut none)) :
    script.run.Keeps (Orderly (Retains bins)) := by
  refine uses.keeps fun call permitted => Act.Keeps.of_final fun depot orderly => ?_
  have undisturbed : depot.Undisturbed (call.perform depot).2 :=
    (Call.perform_undisturbed permitted nofun).final (.refl depot)
  have whole : (call.perform depot).2.shelf.thresholds.Whole :=
    (call.perform_shelf (·.thresholds.Whole) fun policy _ _ _ => policy.whole_thresholds).final
      orderly.arranged.thresholds
  have elapsed : depot.Elapsed (call.perform depot).2 :=
    (Call.perform_elapsed permitted nofun).final (.refl depot)
  exact ⟨orderly.arranged.rests undisturbed.toShelfRests whole, orderly.kept.elapsed elapsed⟩

end Hooks

namespace Engine

variable {engine : Engine} {property : Flow → Prop} {mayPut : List Item → Prop}
  {depot : Depot}

/-- An intake dates the bins that it creates, and takes none off the shelf. -/
theorem takeIn_retains (behave : engine.hooks.Behave mayPut) (bins : List BinId)
    (answers : List Bool) : (takeIn engine answers).Keeps (Orderly (Retains bins)) :=
  (intakeRules_orderly offersKeep_retains restsKeep_retains
    (fun item session => (behave.preprocess item session).retains)
    fun item => (behave.groupKey item).retains).takeIn answers

/-- The shelf is left alone while a bin is completed. -/
theorem drainRules_elapsed {hooks : Hooks} {bin : BinId}
    (process : (hooks.process bin).Uses (Call.Permitted mayPut (some bin)))
    (isBin : bin < depot.bins.next) :
    DrainRules hooks bin (fun _ => True) depot.Elapsed depot.Elapsed where
  owned _ _ := trivial
  noted _ elapsed := elapsed.trans (.of_same rfl rfl (.inl rfl))
  processed := process.elapsed (by
    rintro _ ⟨⟩
    exact isBin)
  annotated _ _ _ := onFlow_elapsed _
  routed _ _ _ := onFlow_elapsed _
  committed _ _ := onFlow_elapsed _
  returned _ _ := onFlow_elapsed _
  emptied _ elapsed _ := elapsed
  marked := mark_elapsed isBin
  counted := count_elapsed

theorem drain_elapsed
    (process : ∀ bin, (engine.hooks.process bin).Uses (Call.Permitted mayPut (some bin)))
    (activation : Activation) (areBins : ∀ bin ∈ depot.ready, bin < depot.bins.next) :
    depot.Elapsed ((engine.drain activation).final depot) := by
  have drained := @drainBins_of_rules engine.hooks
    (fun queue reached => depot.Elapsed reached ∧ ∀ bin ∈ queue, bin < depot.bins.next) (by
      rintro bin rest reached ⟨elapsed, isBin⟩
      have isBin := List.forall_mem_cons.1 isBin
      exact ⟨_, _, _, drainRules_elapsed (process bin) isBin.1,
        elapsed.trans (.of_same rfl rfl (.inl rfl)), fun _ elapsed => ⟨elapsed, isBin.2⟩⟩)
    depot.ready activation
  have keeps := drained.weaken (fun _ => id) (fun _ _ holds => holds.1.1)
    fun _ _ ⟨_, holds⟩ => holds.1
  exact keeps.final ⟨.refl depot, areBins⟩

theorem migrateBins_dated (arranged : depot.Arranged) (dated : depot.Dated) :
    (migrateBins.final depot).Dated := by
  obtain ⟨left, between, counters, run, departed, _⟩ := migrateBins_spec arranged
  unfold Act.final
  rw [run]
  exact dated.of_matching departed.next departed.clock departed.matching

theorem reset_dated (arranged : depot.Arranged) (queued : depot.Queued) (dated : depot.Dated) :
    (reset.final depot).Dated := by
  obtain ⟨reached, run, discarded⟩ := reset_spec arranged queued
  unfold Act.final
  rw [run]
  have clock : reached.clock = depot.clock := by rw [discarded.rest]; rfl
  exact dated.of_matching discarded.next clock discarded.matching

section Runs

variable (carried : Flow.Carried property) (putKeeps : PutKeeps property mayPut)
  (behave : engine.hooks.Behave mayPut)
include carried putKeeps behave

theorem afterIntake_dated (itemsBinned : Nat) :
    (engine.afterIntake itemsBinned).Keeps fun depot => depot.Sound property [] ∧ depot.Dated := by
  have migrates : migrateBins.Keeps fun depot => depot.Sound property [] ∧ depot.Dated :=
    Act.Keeps.of_final fun depot holds =>
      ⟨migrateBins_sound.final holds.1, migrateBins_dated holds.1.arranged holds.2⟩
  have drains (activation : Activation) :
      (engine.drain activation).Keeps fun depot => depot.Sound property [] ∧ depot.Dated :=
    Act.Keeps.of_final fun depot holds =>
      ⟨(drain_sound carried putKeeps behave activation).final holds.1,
        (drain_elapsed behave.process activation holds.1.queued.isBin).dated holds.2⟩
  refine migrates.bind fun _ => (drains _).bind fun activation => Act.Keeps.of_final ?_
  rintro depot ⟨sound, dated⟩
  obtain ⟨counters, run⟩ := conclude_eq activation depot
  rw [run]
  exact ⟨sound.of_same rfl rfl rfl rfl rfl, dated.of_matching rfl rfl fun _ => .refl _⟩

theorem takeIn_dated (bins : List BinId) (answers : List Bool) :
    (takeIn engine answers).Keeps fun depot =>
      depot.Sound property [] ∧ depot.Retains bins := by
  have rules := intakeRules carried putKeeps behave.preprocess behave.groupKey behave.versions
  have both := Act.Meets.both (rules.takeIn answers) (takeIn_retains behave bins answers)
  exact both.weaken (fun _ holds => ⟨holds.1, holds.1.arranged, holds.2⟩)
    (fun _ _ holds => ⟨holds.1, holds.2.kept⟩) fun _ _ holds => ⟨holds.1, holds.2.kept⟩

theorem activate_dated (answers : List Bool) :
    (engine.activate answers).Keeps fun depot => depot.Sound property [] ∧ depot.Dated := by
  have takes : (takeIn engine answers).Keeps fun depot =>
      depot.Sound property [] ∧ depot.Dated :=
    (takeIn_dated carried putKeeps behave [] answers).weaken
      (fun _ holds => ⟨holds.1, holds.2, List.nil_subset _⟩)
      (fun _ _ holds => ⟨holds.1, holds.2.dated⟩) fun _ _ holds => ⟨holds.1, holds.2.dated⟩
  rw [activate_eq]
  refine takes.bind fun taken => ?_
  dsimp only
  split
  · exact afterIntake_dated carried putKeeps behave _
  · exact Act.Keeps.pure _

end Runs

section Histories

variable (behave : engine.hooks.Behave fun items => ∀ item ∈ items, item.HasWholeSize)
include behave

theorem Event.perform_dated (event : Event) (whole : ∀ item ∈ event.items, item.HasWholeSize)
    (holds : depot.Sound (fun _ => True) [] ∧ depot.Dated) :
    (event.perform engine depot).Sound (fun _ => True) [] ∧
      (event.perform engine depot).Dated := by
  have putKeeps : PutKeeps (fun _ => True) fun items => ∀ item ∈ items, item.HasWholeSize :=
    ⟨fun _ _ _ _ => trivial, fun _ => id⟩
  have sound : (event.perform engine depot).Sound (fun _ => True) [] :=
    @Event.perform_sound _ _ _ [] _ tracked_anything (fun _ => putKeeps) behave event whole
      holds.1
  refine ⟨sound, ?_⟩
  cases event with
  | activate answers =>
      exact ((activate_dated (tracked_anything.carried []) putKeeps behave answers).final holds).2
  | reset => exact reset_dated holds.1.arranged holds.1.queued holds.2
  | advance seconds => exact holds.2.moved (Nat.lt_succ_self _)
  | put | applyPolicy | set => exact holds.2.of_matching rfl rfl fun _ => .refl _

/-- After every run of events the depot is sound, and it can be told which bin is older. -/
theorem run_dated (events : List Event)
    (whole : ∀ item ∈ events.flatMap Event.items, item.HasWholeSize)
    (holds : depot.Sound (fun _ => True) [] ∧ depot.Dated) :
    (run engine depot events).Sound (fun _ => True) [] ∧ (run engine depot events).Dated := by
  induction events generalizing depot with
  | nil => exact holds
  | cons event rest ih =>
      rw [List.flatMap_cons] at whole
      refine ih (fun item later => whole item (List.mem_append_right _ later)) ?_
      exact event.perform_dated behave (fun item now => whole item (List.mem_append_left _ now))
        holds

/-- An engine that starts on a source of items of whole sizes. -/
theorem run_opening_dated (source : List Item) (relationships : List String) (clock : Moment)
    (policy : Policy) (events : List Event)
    (whole : ∀ item ∈ source ++ events.flatMap Event.items, item.HasWholeSize) :
    let depot := run engine
      (opening { source, sinks := Flow.sinksFor relationships } clock policy) events
    depot.Sound (fun _ => True) [] ∧ depot.Dated := by
  refine run_dated behave events
    (fun item member => whole item (List.mem_append_right _ member)) ⟨?_, nofun, nofun⟩
  refine sound_opening clock policy trivial ⟨fun item member => ?_, nofun, nofun⟩ fun _ => rfl
  exact whole item (List.mem_append_left _ member)

end Histories

end Engine

end ItemBinning
