import ItemBinning.Proofs.Engine.Aloofness
import ItemBinning.Proofs.Engine.Recovery
import ItemBinning.Proofs.Engine.Upkeep

/-!
# What endures

What is known of the bins that are open or queued endures a whole run, if it holds on
while these bins are left intact and whenever an item is stowed: hooks that leave items
and bins where they are do nothing else, wherever an activation stops or fails.  So the
session of each of these bins holds just the contents of the bin, unless a bin took two
items with the same id.
-/

namespace ItemBinning

open Depot

variable {property : Flow → Prop} {session : SessionId} {before after : Depot}

namespace Depot

/-- The property holds on while bins are left intact and while items are stowed that were
given their keys. -/
structure Endures (property : Flow → Prop) (given : Key → Item → Prop) (kept : Depot → Prop) :
    Prop where
  intact : KeptIntact kept
  stowed : ∀ session key item number (before after : Depot), given key item →
    before.AtWork property session → before.Stowed session key item number after →
      kept before → kept after

theorem Hauled.endures {given : Key → Item → Prop} {kept : Depot → Prop}
    (endures : Endures property given kept) {cargo : List Load}
    (hauled : Hauled property session cargo before after)
    (gives : ∀ load ∈ cargo, given load.1 load.2) (holds : kept before) : kept after := by
  induction hauled with
  | still atWork still => exact endures.intact _ _ (still.intact atWork.sound) holds
  | stowed atWork stowed =>
      exact endures.stowed _ _ _ _ _ _ (gives _ (List.mem_singleton.2 rfl)) atWork stowed holds
  | trans _ _ first second =>
      simp only [List.mem_append] at gives
      exact second (fun load late => gives load (.inr late))
        (first (fun load early => gives load (.inl early)) holds)

theorem Adorned.intact (adorned : before.Adorned after) : before.Intact after := by
  have bins : after.bins = before.bins := by rw [adorned.rest]
  refine .of_same bins adorned.flow.sessions ?_ ?_ fun session _ => adorned.flow.ids session
  · rw [adorned.shelf]
    exact fun _ => id
  · rw [adorned.ready]
    exact fun _ => id

/-- The session of each bin that is open or queued holds its contents and no more, in
their order, if no two of them have the same id. -/
def Faithful (depot : Depot) : Prop :=
  ∀ bin, depot.Stored bin → ((depot.bin bin).contents.map Item.id).Nodup →
    (depot.binSession bin).ids = (depot.bin bin).contents.map Item.id

theorem Faithful.intact (faithful : before.Faithful) (intact : before.Intact after) :
    after.Faithful := by
  intro bin stored distinct
  rw [intact.contents bin stored] at distinct ⊢
  rw [intact.held bin stored]
  exact faithful bin (intact.stored bin stored) distinct

/-- A bin that takes an item was open before, or it is new and so is its session. -/
theorem Stowed.joined_or_new {key : Key} {item : Item} {number : BinId}
    (stowed : before.Stowed session key item number after) :
    (before.Stored number ∧ (after.bin number).Matches (before.bin number)) ∨
      (before.bin number = {} ∧
        (before.flow.session (after.bin number).session).ids = []) := by
  have isNew {bounds : Bounds} (fresh : Fresh bounds number before after) :
      before.bin number = {} ∧
        (before.flow.session (after.bin number).session).ids = [] := by
    have unused : before.flow.session (after.bin number).session = {} :=
      Slots.get_of_next_le fresh.session
    rw [unused]
    exact ⟨Slots.get_of_next_le fresh.fresh, rfl⟩
  rcases stowed.place with joined | filed | enqueued
  · exact .inl ⟨.inl (Shelf.mem_bins_iff.2 ⟨key, joined.among⟩), joined.matching⟩
  · exact .inr (isNew filed.toFresh)
  · exact .inr (isNew enqueued.toFresh)

theorem Stowed.faithful {key : Key} {item : Item} {number : BinId}
    (atWork : before.AtWork property session)
    (stowed : before.Stowed session key item number after) (faithful : before.Faithful) :
    after.Faithful := by
  intro bin stored distinct
  by_cases same : bin = number
  · subst same
    rw [stowed.contents, List.map_append, List.nodup_append] at distinct
    have held : (before.flow.session (after.bin bin).session).ids =
        (before.bin bin).contents.map Item.id := by
      rcases stowed.joined_or_new with ⟨joined, matching⟩ | ⟨empty, unused⟩
      · rw [matching.session]
        exact faithful bin joined distinct.1
      · rw [empty, unused]
        rfl
    have absent : item.id ∉ (before.flow.session (after.bin bin).session).ids := by
      rw [held]
      exact fun twice => distinct.2.2 _ twice _ (by simp) rfl
    rw [stowed.taker, if_neg absent, held, stowed.contents, List.map_append]
    rfl
  · have old := ((stowed.stored_iff bin).1 stored).resolve_right same
    have alike := stowed.others bin (atWork.sound.isBin old) same
    rw [alike.contents] at distinct ⊢
    rw [stowed.binSession_of_ne atWork old same]
    exact faithful bin old distinct

/-- The size of each bin that is open or queued is that of its contents. -/
def AllWeigh (depot : Depot) : Prop :=
  ∀ bin, depot.Stored bin → (depot.bin bin).Weighs

/-- A bin that takes an item of whole size keeps the size of its contents. -/
theorem Stowed.weighs {key : Key} {item : Item} {number : BinId}
    (stowed : before.Stowed session key item number after) (whole : item.HasWholeSize)
    (weighs : before.Stored number → (before.bin number).Weighs) :
    (after.bin number).Weighs := by
  have old : (before.bin number).Weighs := by
    rcases stowed.joined_or_new with ⟨joined, _⟩ | ⟨fresh, _⟩
    · exact weighs joined
    · rw [fresh]
      exact ⟨[], rfl, rfl⟩
  exact old.take whole stowed.weighed stowed.contents rfl

theorem endures_allWeigh :
    Endures property (fun _ item => item.HasWholeSize) AllWeigh where
  intact _ _ intact weigh bin stored :=
    (weigh bin (intact.stored bin stored)).of_same (intact.contents bin stored)
      (intact.size bin stored)
  stowed session key item number before after whole atWork stowed weigh := by
    intro bin stored
    by_cases same : bin = number
    · exact same ▸ stowed.weighs whole (weigh number)
    · have old := ((stowed.stored_iff bin).1 stored).resolve_right same
      have alike := stowed.others bin (atWork.sound.isBin old) same
      exact (weigh bin old).of_same alike.contents alike.size

theorem endures_faithful (given : Key → Item → Prop) : Endures property given Faithful where
  intact _ _ intact faithful := faithful.intact intact
  stowed _ _ _ _ _ _ _ atWork stowed faithful := stowed.faithful atWork faithful

end Depot

/-- A script that leaves items and bins where they are leaves the bins intact. -/
theorem Script.Uses.intact {α : Type} {script : Script α} (uses : script.Uses Call.Gentle)
    (depot : Depot) : depot.Intact (script.run depot).2 :=
  (uses.adorned depot).intact

namespace Engine

variable {engine : Engine} {kept : Depot → Prop}

section Activation

variable (carried : Flow.Carried property) (behave : engine.hooks.Behave fun _ => False)
  (gentle : engine.hooks.Gentle)
  (process : ∀ bin, (engine.hooks.process bin).Uses Call.Gentle)
  (endures : Endures property (fun _ item => item.HasWholeSize) kept)

section Intake

include carried behave gentle endures

theorem takeChunk_endures :
    (takeChunk engine).Keeps fun depot => depot.Sound property [] ∧ kept depot := by
  have rules := intakeRules carried (putKeeps_nothing _) behave.preprocess behave.groupKey
    behave.versions
  apply Act.Keeps.of_final
  rintro before ⟨sound, holds⟩
  refine ⟨rules.takeChunk.final sound, ?_⟩
  have returns {session : SessionId} {depot : Depot} (atWork : depot.AtWork property session)
      (holds : kept depot) : kept { depot with flow := depot.flow.returned session } :=
    endures.intact _ _ (returned_intact atWork.loose.notOwned) holds
  have chunked := takeChunk_chunked engine before
  generalize takeChunk engine before = result at chunked
  have working {session : SessionId} {items : List Item} {pulled : Depot}
      (run : pullChunk engine before = (.ok (session, items), pulled))
      (drawn : before.Drawn session items pulled) :
      (sortItems engine.hooks session items).Meets (· = pulled)
          (fun findings sorted => (sorted.AtWork property session ∧ kept sorted) ∧
            ∀ finding ∈ findings, finding.Right Item.HasWholeSize)
          (fun _ sorted => sorted.AtWork property session ∧ kept sorted) ∧
        Binning property engine.hooks session items pulled
          (binItems engine.hooks session items pulled) := by
    obtain ⟨atWork, whole⟩ := pullChunk_atWork carried sound run drawn
    have prepares {depot : Depot} (prepared : Prepared property session pulled depot) :
        depot.AtWork property session ∧ kept depot := by
      have drew := endures.intact _ _ (drawn.intact sound) holds
      exact ⟨prepared.atWork atWork, endures.intact _ _ prepared.adorned.intact drew⟩
    have sorts := Act.Meets.weaken
      (sortItems_adorns carried behave gentle atWork drawn.distinct whole) (fun _ => id)
      (fun findings _ (holds : _ ∧ ∀ finding ∈ findings, finding.Right Item.HasWholeSize) =>
        And.intro (prepares holds.1) holds.2) fun _ _ => prepares
    refine ⟨sorts, binItems_binning carried fun findings sorted run => ?_⟩
    exact ⟨(sorts.of_ok rfl run).1.1, (sorts.of_ok rfl run).2⟩
  have moves {session : SessionId} {sorted depot : Depot} {findings : List Finding}
      {loaded : List Load} (moved : Moved property session sorted loaded depot)
      (among : loaded ⊆ loads findings)
      (sorts : (sorted.AtWork property session ∧ kept sorted) ∧
        ∀ finding ∈ findings, finding.Right Item.HasWholeSize) : kept depot := by
    obtain ⟨_, hauled, perm⟩ := moved.hauled
    refine hauled.endures endures (fun load member => ?_) sorts.1.2
    obtain ⟨finding, isFinding, isLoad⟩ := mem_loads_iff.1 (among (perm.subset member))
    exact (sorts.2 finding isFinding).of_load? isLoad
  cases chunked with
  | unpulled fault reached _ opened =>
      rw [opened]
      exact endures.intact _ _ (opened_intact before) holds
  | exhausted session reached drawn =>
      exact endures.intact _ _ (drawn.intact sound) holds
  | failed session items pulled stopped fault run drawn bins =>
      obtain ⟨sorts, bound⟩ := working run drawn
      rw [bins] at bound
      cases bound with
      | unsorted _ _ run =>
          obtain ⟨atWork, holds⟩ := sorts.of_error rfl run
          exact returns atWork holds
      | stopped _ _ findings sorted run isStopped =>
          obtain ⟨_, moved, among, _⟩ := isStopped
          exact returns moved.atWork (moves moved among.subset (sorts.of_ok rfl run))
      | unrouted _ _ findings sorted run moved =>
          exact returns moved.atWork (moves moved (List.Subset.refl _) (sorts.of_ok rfl run))
  | binned session items pulled reached count run drawn bins =>
      obtain ⟨sorts, bound⟩ := working run drawn
      rw [bins] at bound
      cases bound with
      | binned stowed findings sorted run moved complete =>
          exact endures.intact _ _ (delivered_intact moved.atWork.loose.notOwned complete)
            (moves moved (List.Subset.refl _) (sorts.of_ok rfl run))

theorem takeIn_endures (answers : List Bool) :
    (takeIn engine answers).Keeps fun depot => depot.Sound property [] ∧ kept depot := by
  refine (Act.Keeps.look _).bind fun capacity => ?_
  split
  · exact intake_keeps (takeChunk_endures carried behave gentle endures) answers
  · exact Act.Keeps.pure _

end Intake

include carried behave process endures

theorem afterIntake_endures (itemsBinned : Nat) :
    (engine.afterIntake itemsBinned).Keeps fun depot =>
      depot.Sound property [] ∧ kept depot := by
  have migrates : migrateBins.Keeps fun depot => depot.Sound property [] ∧ kept depot :=
    endures.intact.meets migrateBins_sound fun depot sound _ =>
      migrateBins_intact sound.arranged
  refine migrates.bind fun binsMigrated => ?_
  have drains := drain_intact carried (putKeeps_nothing _) endures.intact behave.process
    (fun bin _ _ depot _ _ => (process bin).intact depot) { itemsBinned, binsMigrated }
  refine drains.bind fun activation => Act.Keeps.of_final ?_
  rintro depot ⟨sound, holds⟩
  obtain ⟨counters, run⟩ := conclude_eq activation depot
  rw [run]
  exact ⟨sound.of_same rfl rfl rfl rfl rfl,
    endures.intact _ _ (count_intact (fun _ => counters) depot) holds⟩

include gentle

theorem activate_endures (answers : List Bool) :
    (engine.activate answers).Keeps fun depot => depot.Sound property [] ∧ kept depot := by
  rw [activate_eq]
  refine (takeIn_endures carried behave gentle endures answers).bind fun taken => ?_
  dsimp only
  split
  · exact afterIntake_endures carried behave process endures _
  · exact Act.Keeps.pure _

end Activation

variable (tracked : Tracked fun _ => property) (behave : engine.hooks.Behave fun _ => False)
  (gentle : engine.hooks.Gentle)
  (process : ∀ bin, (engine.hooks.process bin).Uses Call.Gentle)
  (endures : Endures property (fun _ item => item.HasWholeSize) kept)
include tracked behave gentle process endures

theorem Event.perform_endures (event : Event) (whole : ∀ item ∈ event.items, item.HasWholeSize)
    {depot : Depot} (holds : depot.Sound property [] ∧ kept depot) :
    (event.perform engine depot).Sound property [] ∧ kept (event.perform engine depot) := by
  have carried := tracked.carried []
  cases event with
  | activate answers =>
      exact (activate_endures carried behave gentle process endures answers).final holds
  | reset =>
      exact ⟨(reset_sound carried).final holds.1,
        endures.intact _ _ (reset_intact holds.1) holds.2⟩
  | put | advance | applyPolicy | set =>
      refine ⟨?_, endures.intact _ _ ?_ holds.2⟩
      · exact @Event.perform_sound _ _ _ [] _ tracked (fun _ => putKeeps_nothing _) behave _
          whole holds.1
      · exact .of_same rfl (Nat.le_refl _) (fun _ => id) (fun _ => id) fun _ _ => rfl

/-- What endures and holds at first holds after every run. -/
theorem run_endures (events : List Event)
    (whole : ∀ item ∈ events.flatMap Event.items, item.HasWholeSize) {depot : Depot}
    (holds : depot.Sound property [] ∧ kept depot) :
    (run engine depot events).Sound property [] ∧ kept (run engine depot events) := by
  induction events generalizing depot with
  | nil => exact holds
  | cons event rest ih =>
      rw [List.flatMap_cons] at whole
      refine ih (fun item later => whole item (List.mem_append_right _ later)) ?_
      exact Event.perform_endures tracked behave gentle process endures event
        (fun item now => whole item (List.mem_append_left _ now)) holds

end Engine

/-! ### What hooks bring into sessions -/

namespace Depot

variable {moves : List (SessionId × String)}

/-- These items were brought into sessions by hooks. -/
def HasMoves (moves : List (SessionId × String)) (depot : Depot) : Prop :=
  depot.moves = moves

theorem offersKeep_moves : OffersKeep (HasMoves moves) where
  steady _ _ same steady := steady.moves.trans same
  created _ _ _ same := same
  filed _ _ _ same _ := same

theorem restsKeep_moves : RestsKeep (HasMoves moves) :=
  fun _ _ same _ _ moves _ => moves.trans same

theorem aloof_moves : Aloof (HasMoves moves) :=
  fun _ _ _ _ _ _ _ same => same

end Depot

/-- A script that leaves items and bins where they are brings nothing into a session. -/
theorem Script.Uses.moves {α : Type} {script : Script α} (uses : script.Uses Call.Gentle)
    {moves : List (SessionId × String)} :
    script.run.Keeps (Depot.Orderly (Depot.HasMoves moves)) := by
  apply Act.Keeps.of_final
  intro depot orderly
  have adorned := uses.adorned depot
  have thresholds := congrArg Shelf.thresholds adorned.shelf
  exact ⟨orderly.arranged.rests adorned.undisturbed.toShelfRests
    (thresholds ▸ orderly.arranged.thresholds), adorned.moves.trans orderly.kept⟩

namespace Engine

variable {engine : Engine} {property : Flow → Prop} {moves : List (SessionId × String)}

section Activation

variable (gentle : engine.hooks.Gentle)
  (process : ∀ bin, (engine.hooks.process bin).Uses Call.Gentle)

include process in
theorem drain_moves (activation : Activation) :
    (engine.drain activation).Keeps (HasMoves moves) := by
  have processed (bin : BinId) : (engine.hooks.process bin).run.Keeps (HasMoves moves) :=
    Act.Keeps.of_final fun depot same => ((process bin).adorned depot).moves.trans same
  refine (Act.Keeps.read _).bind fun queue => ?_
  have drained := @drainBins_of_rules engine.hooks (fun _ => HasMoves moves)
    (fun bin _ _ same =>
      ⟨_, _, _, drainRules_aloof aloof_moves (processed bin), same, fun _ => id⟩)
    queue activation
  exact drained.weaken (fun _ => id) (fun _ _ => And.left) fun _ _ ⟨_, same⟩ => same

include process in
theorem afterIntake_moves (itemsBinned : Nat) :
    (engine.afterIntake itemsBinned).Meets (Orderly (HasMoves moves))
      (fun _ => HasMoves moves) fun _ => HasMoves moves := by
  have migrates : migrateBins.Meets (Orderly (HasMoves moves)) (fun _ => HasMoves moves)
      fun _ => HasMoves moves := by
    exact Act.Meets.of_final fun depot orderly =>
      migrateBins_aloof aloof_moves orderly.arranged orderly.kept
  refine migrates.bind fun binsMigrated => (drain_moves process _).bind fun activation => ?_
  apply Act.Keeps.of_final
  intro depot same
  obtain ⟨counters, run⟩ := conclude_eq activation depot
  rw [run]
  exact same

include gentle process

theorem activate_moves (answers : List Bool) {depot : Depot} (arranged : depot.Arranged) :
    ((engine.activate answers).final depot).moves = depot.moves := by
  have rules := @intakeRules_orderly (HasMoves depot.moves) engine offersKeep_moves
    restsKeep_moves (fun item session => (gentle.preprocess item session).moves)
    fun item => (gentle.groupKey item).moves
  have activates : (engine.activate answers).Meets (Orderly (HasMoves depot.moves))
      (fun _ => HasMoves depot.moves) fun _ => HasMoves depot.moves := by
    rw [activate_eq]
    refine Act.Meets.bind ((rules.takeIn answers).weaken (fun _ => id) (fun _ _ => id)
      fun _ _ orderly => orderly.kept) fun taken => ?_
    dsimp only
    split
    · exact afterIntake_moves process _
    · exact Act.Meets.pure fun _ orderly => orderly.kept
  exact activates.final ⟨arranged, rfl⟩

end Activation

theorem Event.perform_moves (gentle : engine.hooks.Gentle)
    (process : ∀ bin, (engine.hooks.process bin).Uses Call.Gentle) (event : Event)
    {depot : Depot} (arranged : depot.Arranged) :
    (event.perform engine depot).moves = depot.moves := by
  cases event with
  | activate answers => exact activate_moves gentle process answers arranged
  | reset => exact (reset_aloof (@aloof_moves depot.moves)).final rfl
  | put | advance | applyPolicy | set => rfl

/-- Hooks that leave items and bins where they are bring nothing into sessions, however
long a run is. -/
theorem run_moves (tracked : Tracked fun _ => property)
    (behave : engine.hooks.Behave fun _ => False) (gentle : engine.hooks.Gentle)
    (process : ∀ bin, (engine.hooks.process bin).Uses Call.Gentle) (events : List Event)
    (whole : ∀ item ∈ events.flatMap Event.items, item.HasWholeSize) {depot : Depot}
    (sound : depot.Sound property []) : (run engine depot events).moves = depot.moves := by
  induction events generalizing depot with
  | nil => rfl
  | cons event rest ih =>
      rw [List.flatMap_cons] at whole
      have kept : (event.perform engine depot).Sound property [] :=
        @Event.perform_sound _ _ _ [] _ tracked (fun _ => putKeeps_nothing _) behave event
          (fun item now => whole item (List.mem_append_left _ now)) sound
      refine (ih (fun item later => whole item (List.mem_append_right _ later)) kept).trans ?_
      exact event.perform_moves gentle process sound.arranged

end Engine

end ItemBinning
