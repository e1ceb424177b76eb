import ItemBinning.Proofs.Engine.IntakeProgress
import ItemBinning.Proofs.Engine.Run

/-!
# The engine never stalls

An activation that did nothing left nothing to do: the source is empty, there is room
on the shelf, and no open bin is ready.  And an activation that was carried through
makes room: it ends with an empty queue and with fewer bins than may be open, or at
least with fewer than it started with if there were too many.
-/

namespace ItemBinning.Engine

open Depot

variable {engine : Engine} {hooks : Hooks} {bin : BinId} {shelf : Shelf}
  {queue rest : List BinId}

/-- The shelf and the queue are as given. -/
def Resting (shelf : Shelf) (queue : List BinId) (depot : Depot) : Prop :=
  depot.shelf = shelf ∧ depot.ready = queue

theorem onFlow_resting {α : Type} (act : Act Flow α) :
    (onFlow act).Keeps (Resting shelf rest) :=
  Act.Keeps.of_final fun _ resting => resting

theorem mark_resting (target : BinState) : (mark bin target).Keeps (Resting shelf rest) := by
  apply Act.Keeps.of_final
  intro depot resting
  by_cases follows : target ∈ (depot.bin bin).state.successors
  · rwa [mark_eq follows]
  · rwa [mark_error follows]

/-- A processor that leaves the policy in force changes neither the shelf nor the rest
of the queue, and nor does the completion of its bin. -/
theorem drainRules_resting (leaves : (hooks.process bin).Uses Call.LeavesPolicy) :
    DrainRules hooks bin (fun _ => True) (Resting shelf rest) (Resting shelf rest) where
  owned _ _ := trivial
  noted _ resting := resting
  processed := Act.Keeps.of_final fun _ resting =>
    ⟨Act.Meets.final (leaves.shelf shelf) resting.1,
      Act.Meets.final ((hooks.process bin).run_ready rest) resting.2⟩
  annotated _ _ _ := onFlow_resting _
  routed _ _ _ := onFlow_resting _
  committed _ _ := onFlow_resting _
  returned _ _ := onFlow_resting _
  emptied _ resting _ := resting
  marked target := mark_resting target
  counted _ := Act.Keeps.of_final fun _ resting => resting

theorem drainBins_resting (leave : ∀ bin, (hooks.process bin).Uses Call.LeavesPolicy)
    (activation : Activation) :
    (drainBins hooks queue activation).Meets (Resting shelf queue)
      (fun noted depot => Resting shelf [] depot ∧ activation.SameIntake noted)
      fun _ _ => True := by
  have drained := @drainBins_of_rules hooks (Resting shelf) (by
    rintro bin rest depot ⟨sameShelf, _⟩
    exact ⟨_, _, _, drainRules_resting (leave bin), ⟨sameShelf, rfl⟩, fun _ => id⟩)
    queue activation
  exact drained.weaken (fun _ => id) (fun _ _ => id) fun _ _ _ => trivial

/-- What an activation does after the intake. -/
def afterIntake (engine : Engine) (itemsBinned : Nat) : Act Depot Activation := do
  let binsMigrated ← migrateBins
  let activation ← engine.drain { itemsBinned, binsMigrated }
  conclude activation

theorem activate_eq (engine : Engine) (answers : List Bool) :
    engine.activate answers = (do
      let (itemsBinned, unused) ← takeIn engine answers
      if unused.headD false then engine.afterIntake itemsBinned
      else pure { itemsBinned, cancelled := true }) :=
  rfl

theorem conclude_eq (activation : Activation) (depot : Depot) :
    ∃ counters, conclude activation depot = (.ok activation, { depot with counters }) := by
  unfold conclude
  split
  · exact ⟨{ depot.counters with yields := depot.counters.yields + 1 }, rfl⟩
  · exact ⟨depot.counters, rfl⟩

private theorem binCount_of_departed {depot between : Depot} {left : List BinId} {most : Int}
    (arranged : depot.Arranged) (arrangedBetween : between.Arranged)
    (departed : depot.Departed left between)
    (isMost : depot.shelf.thresholds.maxBinCount = .int most) (positive : 1 ≤ most)
    (stays : left = [] → depot.shelf.isAtCapacity = .ok false ∨ depot.shelf.bins = []) :
    (left = [] → (depot.shelf.binCount : Int) < most ∧
        between.shelf.binCount = depot.shelf.binCount) ∧
      (left ≠ [] → between.shelf.binCount < depot.shelf.binCount) := by
  have whole := departed.whole.length_eq
  rw [List.length_append, ← arranged.binCount, ← arrangedBetween.binCount] at whole
  refine ⟨fun none => ⟨?_, ?_⟩, fun some => ?_⟩
  · rcases stays none with below | empty
    · rw [Shelf.isAtCapacity, isMost, Value.isAtLeast_int] at below
      have below : ¬ most ≤ depot.shelf.binCount := by simpa using below
      omega
    · rw [arranged.binCount, empty]
      exact positive
  · rw [none, List.length_nil] at whole
    omega
  · have := List.length_pos_iff.2 some
    omega

theorem drain_empty {depot : Depot} (none : depot.ready = []) (activation : Activation) :
    engine.drain activation depot = (.ok activation, depot) := by
  unfold drain
  have look : Act.read (·.ready) depot = (.ok [], depot) := by
    rw [Act.read, none]
  rw [Act.bind_of_ok look]
  rfl

theorem eq_zero_of_isIdle {activation : Activation} (idle : activation.isIdle = true) :
    activation.itemsBinned = 0 ∧ activation.binsMigrated = 0 ∧
      activation.cancelled = false := by
  unfold Activation.isIdle at idle
  simp only [Bool.and_eq_true, beq_iff_eq, Bool.not_eq_true'] at idle
  exact ⟨idle.1.1.1.1, idle.1.1.1.2, idle.2⟩

/-- What an activation achieves after the intake. -/
theorem afterIntake_spec {depot reached : Depot} {most : Int} {itemsBinned : Nat}
    {activation : Activation} (arranged : depot.Arranged)
    (isMost : depot.shelf.thresholds.maxBinCount = .int most) (positive : 1 ≤ most)
    (leave : ∀ bin, (engine.hooks.process bin).Uses Call.LeavesPolicy)
    (run : engine.afterIntake itemsBinned depot = (.ok activation, reached)) :
    reached.ready = [] ∧
      ((reached.shelf.binCount : Int) < most ∨
        reached.shelf.binCount < depot.shelf.binCount) ∧
      reached.shelf.thresholds = depot.shelf.thresholds ∧
      (activation.isIdle = true → itemsBinned = 0 ∧ (depot.ready = [] →
        (reached.shelf.binCount : Int) < most ∧
          reached.shelf.binCount = depot.shelf.binCount ∧ reached.flow = depot.flow ∧
          ∀ bin ∈ reached.shelf.bins, reached.Waits true bin)) := by
  obtain ⟨left, between, counters, migrated, departed, arrangedBetween, stays⟩ :=
    migrateBins_spec arranged
  obtain ⟨counted, fewer⟩ := binCount_of_departed arranged arrangedBetween departed isMost
    positive fun none => (stays none).2
  have look : (Act.read (·.ready)).Meets (Resting between.shelf (between.ready ++ left))
      (fun queue depot => Resting between.shelf queue depot) fun _ _ => True :=
    Act.Meets.read fun _ resting => ⟨resting.1, rfl⟩
  have drained : (engine.drain { itemsBinned, binsMigrated := left.length }).Meets
      (Resting between.shelf (between.ready ++ left))
      (fun noted depot => Resting between.shelf [] depot ∧
        Activation.SameIntake { itemsBinned, binsMigrated := left.length } noted)
      fun _ _ => True :=
    look.bind fun queue => drainBins_resting leave _
  unfold afterIntake at run
  rw [Act.bind_of_ok migrated] at run
  rcases outcome : engine.drain { itemsBinned, binsMigrated := left.length }
    (between.moved left counters) with ⟨fault | noted, last⟩
  · rw [Act.bind_of_error outcome] at run
    cases run
  · have begins : Resting between.shelf (between.ready ++ left)
        (between.moved left counters) := ⟨rfl, rfl⟩
    obtain ⟨⟨sameShelf, empty⟩, same⟩ := drained.of_ok begins outcome
    obtain ⟨lastCounters, concluded⟩ := conclude_eq noted last
    rw [Act.bind_of_ok outcome, concluded] at run
    obtain ⟨isNoted, isReached⟩ := Prod.mk.inj run
    cases isNoted
    subst isReached
    dsimp only
    rw [sameShelf]
    refine ⟨empty, ?_, departed.thresholds, fun idle => ?_⟩
    · by_cases none : left = []
      · obtain ⟨below, same⟩ := counted none
        exact .inl (same ▸ below)
      · exact .inr (fewer none)
    · obtain ⟨noItems, noBins, _⟩ := eq_zero_of_isIdle idle
      rw [same.itemsBinned] at noItems
      rw [same.binsMigrated] at noBins
      refine ⟨noItems, fun noReady => ?_⟩
      obtain rfl := List.length_eq_zero_iff.1 noBins
      obtain ⟨below, sameCount⟩ := counted rfl
      have noQueue : (between.moved [] counters).ready = [] := by
        change between.ready ++ [] = []
        rw [departed.queue, noReady, List.append_nil]
      rw [drain_empty noQueue] at outcome
      obtain ⟨_, rfl⟩ := Prod.mk.inj outcome
      refine ⟨sameCount ▸ below, sameCount, departed.flow, fun bin member => ?_⟩
      have onShelf : bin ∈ depot.shelf.bins := departed.mem_bins_iff.2 (.inr member)
      exact (departed.waits_iff true (by simp)).2 ((stays rfl).1 bin onShelf)

/-- The intake leaves no more bins than may be open or were open before.  If it binned
no item, the queue is as before, and an intake that was always scheduled found no
room or came to the end of the source. -/
theorem takeIn_spec {depot : Depot} {most : Int} (arranged : depot.Arranged)
    (isMost : depot.shelf.thresholds.maxBinCount = .int most)
    (leave : engine.hooks.LeavePolicy) (answers : List Bool) :
    (takeIn engine answers).Meets (· = depot)
      (fun result reached => reached.Arranged ∧
        reached.shelf.thresholds = depot.shelf.thresholds ∧
        (reached.shelf.binCount : Int) ≤ max most depot.shelf.binCount ∧
        (result.1 = 0 → reached.ready = depot.ready) ∧
        (depot.ready = [] → engine.chunkSize.isAtMostZero = false →
          (∀ answer ∈ answers, answer = true) → result.2 ≠ [] →
            reached.shelf.hasRoom = .ok false ∨ reached.flow.source = []))
      fun _ _ => True := by
  have rules := intakeRules_bounded isMost (Int.le_max_left most depot.shelf.binCount) leave
  have start : depot.Orderly (Bounded depot.shelf.thresholds (max most depot.shelf.binCount)) :=
    ⟨arranged, rfl, Int.le_max_right _ _⟩
  refine Act.Meets.of_runs ?_ fun _ _ _ _ _ => trivial
  rintro _ result reached rfl run
  have orderly := (rules.takeIn answers).of_ok start run
  exact ⟨orderly.arranged, orderly.kept.thresholds, orderly.kept.binCount,
    (takeIn_ready answers).of_ok rfl run, fun none positive always =>
      (takeIn_exit positive answers always).of_ok none run⟩

theorem activate_cases {depot reached : Depot} {answers : List Bool} {activation : Activation}
    (run : engine.activate answers depot = (.ok activation, reached))
    (carriedThrough : activation.cancelled = false) :
    ∃ itemsBinned unused between,
      takeIn engine answers depot = (.ok (itemsBinned, unused), between) ∧ unused ≠ [] ∧
      engine.afterIntake itemsBinned between = (.ok activation, reached) := by
  rw [activate_eq] at run
  rcases taken : takeIn engine answers depot with ⟨fault | ⟨itemsBinned, unused⟩, between⟩
  · rw [Act.bind_of_error taken] at run
    cases run
  · rw [Act.bind_of_ok taken] at run
    refine ⟨itemsBinned, unused, between, rfl, ?_⟩
    -- without a further answer, or with one against it, the activation is cancelled
    rcases unused with _ | ⟨_ | _, rest⟩
    · cases run
      cases carriedThrough
    · cases run
      cases carriedThrough
    · exact ⟨List.cons_ne_nil _ _, run⟩

theorem hasRoom_eq {shelf : Shelf} {most : Int}
    (isMost : shelf.thresholds.maxBinCount = .int most) (count : Nat) :
    shelf.hasRoom count = .ok (decide ((count : Int) < most)) := by
  rw [Shelf.hasRoom, isMost, Value.isBelow_int]

section Activation

variable {depot reached : Depot} {most : Int} {answers : List Bool} {activation : Activation}

/-- An idle activation that was always scheduled left nothing to do. -/
theorem activate_idle (arranged : depot.Arranged)
    (isMost : depot.shelf.thresholds.maxBinCount = .int most) (positive : 1 ≤ most)
    (leave : engine.hooks.LeavePolicy) (chunks : engine.chunkSize.isAtMostZero = false)
    (none : depot.ready = []) (always : ∀ answer ∈ answers, answer = true)
    (run : engine.activate answers depot = (.ok activation, reached))
    (idle : activation.isIdle = true) :
    reached.flow.source = [] ∧ (reached.shelf.binCount : Int) < most ∧
      ∀ bin ∈ reached.shelf.bins, reached.Waits true bin := by
  obtain ⟨itemsBinned, unused, between, taken, left, rest⟩ :=
    activate_cases run (eq_zero_of_isIdle idle).2.2
  obtain ⟨arrangedBetween, thresholds, _, ready, exit⟩ :=
    (takeIn_spec arranged isMost leave answers).of_ok rfl taken
  rw [← thresholds] at isMost
  obtain ⟨_, _, _, quiet⟩ := afterIntake_spec arrangedBetween isMost positive leave.process rest
  obtain ⟨noItems, idled⟩ := quiet idle
  obtain ⟨below, sameCount, flow, wait⟩ := idled ((ready noItems).trans none)
  refine ⟨?_, below, wait⟩
  rw [flow]
  refine (exit none chunks always left).resolve_left fun full => ?_
  rw [hasRoom_eq isMost, ← sameCount, decide_eq_true below] at full
  cases full

/-- An activation that was carried through makes room. -/
theorem activate_room (arranged : depot.Arranged)
    (isMost : depot.shelf.thresholds.maxBinCount = .int most) (positive : 1 ≤ most)
    (leave : engine.hooks.LeavePolicy)
    (run : engine.activate answers depot = (.ok activation, reached))
    (carriedThrough : activation.cancelled = false) :
    reached.ready = [] ∧
      ((depot.shelf.binCount : Int) ≤ most →
        (reached.shelf.binCount : Int) < most ∧ hasCapacity reached = (.ok true, reached)) ∧
      (most < depot.shelf.binCount → reached.shelf.binCount < depot.shelf.binCount) := by
  obtain ⟨itemsBinned, unused, between, taken, _, rest⟩ := activate_cases run carriedThrough
  obtain ⟨arrangedBetween, thresholds, bounded, _, _⟩ :=
    (takeIn_spec arranged isMost leave answers).of_ok rfl taken
  rw [← thresholds] at isMost
  obtain ⟨empty, fewer, same, _⟩ :=
    afterIntake_spec arrangedBetween isMost positive leave.process rest
  refine ⟨empty, fun within => ?_, fun many => ?_⟩
  · have below : (reached.shelf.binCount : Int) < most := by omega
    refine ⟨below, ?_⟩
    unfold hasCapacity
    rw [hasRoom_eq (same ▸ isMost), empty, List.length_nil, Nat.add_zero, decide_eq_true below]
  · omega

end Activation

theorem tracked_anything : Tracked fun _ _ => True where
  carried _ := ⟨fun _ _ => trivial, fun _ _ _ _ _ => trivial, fun _ _ _ _ _ _ _ _ => trivial,
    fun _ _ _ _ _ _ _ => trivial, fun _ _ _ _ _ _ _ => trivial, fun _ _ _ _ => trivial,
    fun _ _ _ => trivial⟩
  put _ _ _ _ := trivial

/-- Runs keep the shelf arranged, also if hooks put items. -/
theorem arranged_run (behave : engine.hooks.Behave fun items =>
      ∀ item ∈ items, item.HasWholeSize)
    (source : List Item) (relationships : List String) (clock : Moment) (policy : Policy)
    (events : List Event)
    (whole : ∀ item ∈ source ++ events.flatMap Event.items, item.HasWholeSize) :
    (run engine (opening { source, sinks := Flow.sinksFor relationships } clock policy)
      events).Arranged := by
  have begun : (opening { source, sinks := Flow.sinksFor relationships } clock policy).Sound
      (fun _ => True) [] := by
    refine sound_opening clock policy trivial ⟨fun item member => ?_, nofun, nofun⟩ fun _ => rfl
    exact whole item (List.mem_append_left _ member)
  exact (@run_sound engine _ (fun _ _ => True) source _ tracked_anything
    (fun _ => ⟨fun _ _ _ _ => trivial, fun _ => id⟩) behave events
    (fun item member => whole item (List.mem_append_right _ member)) begun).arranged

/-- After every run of events, and for all hooks that leave the policy in force: an
idle activation that was always scheduled left nothing to do, and an activation that
was carried through leaves the queue empty and makes room for the next intake. -/
theorem no_stall_after_run (past engine : Engine)
    (behave : past.hooks.Behave fun items => ∀ item ∈ items, item.HasWholeSize)
    (leave : engine.hooks.LeavePolicy) (chunks : engine.chunkSize.isAtMostZero = false)
    (source : List Item) (relationships : List String) (clock : Moment) (policy : Policy)
    (events : List Event)
    (whole : ∀ item ∈ source ++ events.flatMap Event.items, item.HasWholeSize)
    (answers : List Bool) (most : Int) (positive : 1 ≤ most) :
    let depot := run past
      (opening { source, sinks := Flow.sinksFor relationships } clock policy) events
    depot.shelf.thresholds.maxBinCount = .int most →
    (∀ activation reached, depot.ready = [] → (∀ answer ∈ answers, answer = true) →
      engine.activate answers depot = (.ok activation, reached) →
      activation.isIdle = true →
        reached.flow.source = [] ∧ (reached.shelf.binCount : Int) < most ∧
          ∀ bin ∈ reached.shelf.bins, reached.Waits true bin) ∧
    (∀ queue activation reached,
      engine.activate answers { depot with ready := queue } = (.ok activation, reached) →
      activation.cancelled = false →
        reached.ready = [] ∧
        ((depot.shelf.binCount : Int) ≤ most →
          (reached.shelf.binCount : Int) < most ∧ hasCapacity reached = (.ok true, reached)) ∧
        (most < depot.shelf.binCount → reached.shelf.binCount < depot.shelf.binCount)) := by
  intro depot isMost
  have arranged : depot.Arranged :=
    arranged_run behave source relationships clock policy events whole
  refine ⟨fun activation reached none always run idle => ?_,
    fun queue activation reached run carriedThrough => ?_⟩
  · exact activate_idle arranged isMost positive leave chunks none always run idle
  · have queued : Arranged { depot with ready := queue } :=
      arranged.of_same rfl rfl (Nat.le_refl _)
    have room := activate_room queued isMost positive leave run carriedThrough
    exact room

/-- Each item is a group of its own; one without size has no group. -/
def separating : Engine where
  hooks :=
    { groupKey := fun item =>
        if item.size.isTruthy then .done (.text item.id) else .fail .hookFailure
      process := fun _ => .done (some {}) }
  chunkSize := .int 1

theorem uses_separating (item : Item) (allowed : Call → Prop) :
    (separating.hooks.groupKey item).Uses allowed := by
  dsimp only [separating]
  split <;> trivial

theorem behave_separating (mayPut : List Item → Prop) : separating.hooks.Behave mayPut where
  preprocess _ _ := trivial
  groupKey item := uses_separating item _
  process _ := trivial
  versions := by
    rintro item session depot version reached _ whole ⟨⟩
    exact whole

theorem leavePolicy_separating : separating.hooks.LeavePolicy where
  preprocess _ _ := trivial
  groupKey item := uses_separating item _
  process _ := trivial

/-- What an activation answers with. -/
theorem exists_activation {depot : Depot} {answers : List Bool} {idle cancelled : Bool}
    (answered : (separating.activate answers depot).1.toOption.map
      (fun activation => (activation.isIdle, activation.cancelled)) = some (idle, cancelled)) :
    ∃ activation reached, separating.activate answers depot = (.ok activation, reached) ∧
      activation.isIdle = idle ∧ activation.cancelled = cancelled := by
  rcases run : separating.activate answers depot with ⟨fault | activation, reached⟩
  · rw [run] at answered
    cases answered
  · rw [run] at answered
    cases answered
    exact ⟨activation, reached, rfl, rfl, rfl⟩

/-- An activation is idle that finds an open bin which is not ready and an item without a group.
One that finds a queued bin and a waiting item makes room for a bin, and one that finds three
bins where one may be open leaves two. -/
theorem no_stall_of_separating :
    let sized (id : String) (size : Int) : Item := { id, size := .int size }
    let after (source : List Item) (events : List Event) := run separating
      (opening { source, sinks := Flow.sinksFor [] } {} { minEntries := 2, maxSize := some 10 })
      events
    let idle := after [sized "a" 1]
      [.activate [true, true], .put [sized "b" 0], .set (.maxBinCount 3)]
    let busy := after [sized "a" 1, sized "b" 20, sized "c" 1]
      [.activate [true, true, false], .set (.maxBinCount 3)]
    let crowded := after [sized "a" 1, sized "b" 1, sized "c" 1]
      [.activate [true, true, true, true, true], .set (.maxBinCount 1)]
    (idle.flow.source.map Item.id = ["b"] ∧ idle.shelf.bins = [0] ∧ idle.ready = [] ∧
      ∃ activation reached,
        separating.activate [true, true, true] idle = (.ok activation, reached) ∧
        activation.isIdle = true ∧ reached.flow.source = [] ∧
        (reached.shelf.binCount : Int) < 3 ∧ reached.shelf.bins = [0] ∧ reached.Waits true 0) ∧
    (busy.flow.source.map Item.id = ["c"] ∧ busy.shelf.bins = [0] ∧ busy.ready = [2] ∧
      ∃ activation reached,
        separating.activate [true, true, true] busy = (.ok activation, reached) ∧
        reached.flow.source = [] ∧ reached.ready = [] ∧ (reached.shelf.binCount : Int) < 3 ∧
        hasCapacity reached = (.ok true, reached)) ∧
    crowded.shelf.binCount = 3 ∧
      ∃ activation reached, separating.activate [true] crowded = (.ok activation, reached) ∧
        reached.ready = [] ∧ reached.shelf.binCount < 3 := by
  intro sized after idle busy crowded
  have whole (id : String) (size : Int) : (sized id size).HasWholeSize := ⟨size, rfl⟩
  have never_stalls (source : List Item) (events : List Event) :=
    no_stall_after_run separating separating (behave_separating _) leavePolicy_separating rfl
      source [] {} { minEntries := 2, maxSize := some 10 } events
  -- the queue that is there is one of those that may be
  have makes_room (source : List Item) (events : List Event)
      (whole : ∀ item ∈ source ++ events.flatMap Event.items, item.HasWholeSize)
      (answers : List Bool) (most : Int) (positive : 1 ≤ most)
      (isMost : (after source events).shelf.thresholds.maxBinCount = .int most)
      {activation : Activation} {reached : Depot}
      (run : separating.activate answers (after source events) = (.ok activation, reached)) :=
    (never_stalls source events whole answers most positive isMost).2 (after source events).ready
      activation reached run
  refine ⟨⟨by decide +kernel, by decide +kernel, by decide +kernel, ?_⟩,
    ⟨by decide +kernel, by decide +kernel, by decide +kernel, ?_⟩, by decide +kernel, ?_⟩
  · have stays : (separating.activate [true, true, true] idle).2.shelf.bins = [0] := by
      decide +kernel
    obtain ⟨activation, reached, run, isIdle, _⟩ :=
      @exists_activation idle [true, true, true] true false (by decide +kernel)
    rw [run] at stays
    obtain ⟨empty, below, wait⟩ := (never_stalls [sized "a" 1]
      [.activate [true, true], .put [sized "b" 0], .set (.maxBinCount 3)]
      (by simpa [Event.items] using ⟨whole _ _, whole _ _⟩) [true, true, true] 3 (by decide)
      rfl).1 activation reached (by decide +kernel) (by simp) run isIdle
    exact ⟨activation, reached, run, isIdle, empty, below, stays,
      wait 0 (stays ▸ List.mem_singleton_self 0)⟩
  · have empty : (separating.activate [true, true, true] busy).2.flow.source.length = 0 := by
      decide +kernel
    obtain ⟨activation, reached, run, _, carriedThrough⟩ :=
      @exists_activation busy [true, true, true] false false (by decide +kernel)
    rw [run] at empty
    obtain ⟨none, room, _⟩ := makes_room [sized "a" 1, sized "b" 20, sized "c" 1]
      [.activate [true, true, false], .set (.maxBinCount 3)]
      (by simpa [Event.items] using ⟨whole _ _, whole _ _, whole _ _⟩) [true, true, true] 3
      (by decide) rfl run carriedThrough
    obtain ⟨below, space⟩ := room (by decide +kernel)
    exact ⟨activation, reached, run, List.length_eq_zero_iff.1 empty, none, below, space⟩
  · obtain ⟨activation, reached, run, _, carriedThrough⟩ :=
      @exists_activation crowded [true] false false (by decide +kernel)
    obtain ⟨none, _, fewer⟩ := makes_room [sized "a" 1, sized "b" 1, sized "c" 1]
      [.activate [true, true, true, true, true], .set (.maxBinCount 1)]
      (by simpa [Event.items] using ⟨whole _ _, whole _ _, whole _ _⟩) [true] 1 (by decide) rfl
      run carriedThrough
    have three : crowded.shelf.binCount = 3 := by decide +kernel
    exact ⟨activation, reached, run, none, three ▸ fewer (by rw [three]; decide)⟩

end ItemBinning.Engine
