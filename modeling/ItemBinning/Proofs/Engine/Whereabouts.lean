import ItemBinning.Proofs.Engine.Lifecycle

/-!
# The whereabouts of bins

Over whole runs of an engine whose hooks leave the bins alone, the place of every bin that
took an item and its state say the same.  A drain completes all its bins then, so the
processor gets each bin once; that it gets ready bins only shows in that a processor which
does something else with all others makes no difference.
-/

namespace ItemBinning

/-- The hooks with a processor that does something else with bins that are not ready. -/
def Hooks.guarded (hooks : Hooks) (otherwise : BinId → Script (Option Outcome)) : Hooks :=
  { hooks with
    process := fun bin => .look fun depot =>
      if (depot.bin bin).state = .ready then hooks.process bin else otherwise bin }

namespace Engine

open Depot

def guarded (engine : Engine) (otherwise : BinId → Script (Option Outcome)) : Engine :=
  { engine with hooks := engine.hooks.guarded otherwise }

variable {start depot : Depot} {property : Flow → Prop} {engine : Engine}
  {mayPut : List Item → Prop} {otherwise : BinId → Script (Option Outcome)}

section Drain

variable (carried : Flow.Carried property) (putKeeps : PutKeeps property mayPut)
  (behave : engine.hooks.Behave mayPut)
  (unmarked : ∀ bin, (engine.hooks.process bin).Uses (Call.Permitted mayPut none))
include carried putKeeps behave unmarked

omit carried putKeeps behave in
/-- The processor changes no bin, and only the bin that it got is noted. -/
theorem called_untouched (bin : BinId) (rest : List BinId) (depot : Depot) :
    Untouched { depot with ready := rest, handled := depot.handled ++ [bin] }
      (called engine.hooks bin rest depot) := by
  have keeps : (engine.hooks.process bin).run.Keeps
      (Untouched { depot with ready := rest, handled := depot.handled ++ [bin] }) := by
    refine (unmarked bin).keeps fun call permitted => Act.Keeps.of_final ?_
    intro reached untouched
    have ⟨same, _⟩ := call.perform_untouched permitted reached
    exact ⟨same.bins.trans untouched.bins, same.handled.trans untouched.handled⟩
  exact keeps.final ⟨rfl, rfl⟩

/-- A bin that is taken off the queue is completed, and every bin stays where it belongs. -/
theorem handle_alive {bin : BinId} {rest : List BinId} (activation : Activation)
    (alive : Alive property [] start depot) (queue : depot.ready = bin :: rest) :
    ∃ noted after, Completed engine.hooks bin rest activation noted depot after ∧
      Alive property [] start after := by
  obtain ⟨sound, kept⟩ := alive
  have ready : (depot.bin bin).state = .ready :=
    sound.queued.ready bin (queue ▸ List.mem_cons_self)
  -- the processor changes no bin, so the bin is ready when it ends
  have untouched := called_untouched unmarked bin rest depot
  have isCalled (other : BinId) :
      (called engine.hooks bin rest depot).bin other = depot.bin other := by
    unfold Depot.bin
    rw [untouched.bins]
  have opens : (depot.bin bin).state ≠ .opened := by simp [ready]
  rcases @handle_cases engine.hooks bin rest depot opens activation with
    ⟨noted, after, completed⟩ | ⟨_, _, _, broken⟩
  · refine ⟨noted, after, completed, ?_, ?_⟩
    · have rules := drainRules carried putKeeps (behave.process bin) (depot.bin bin).session rest
      exact ((rules.handle activation).of_ok (sound.take queue) completed.run).1.sound
    · obtain ⟨target, closed⟩ := completed.closed
      refine kept.close queue ready closed.closed (fun other => ?_) completed.shelf completed.queue
        (closed.handled.trans untouched.handled)
      rw [closed.bin_eq, isCalled, isCalled]
  · exact absurd ((isCalled bin) ▸ ready) broken.notReady

/-- A drain completes every bin of the queue, and hands them to the processor in order. -/
theorem drainBins_alive (queue : List BinId) (activation : Activation)
    (alive : Alive property [] start depot) (isQueue : depot.ready = queue) :
    ∃ last after, drainBins engine.hooks queue activation depot = (.ok last, after) ∧
      Alive property [] start after ∧ after.handled = depot.handled ++ queue := by
  induction queue generalizing activation depot with
  | nil => exact ⟨activation, depot, rfl, alive, (List.append_nil _).symm⟩
  | cons bin rest ih =>
      obtain ⟨noted, between, completed, alive⟩ :=
        handle_alive carried putKeeps behave unmarked activation alive isQueue
      obtain ⟨_, closed⟩ := completed.closed
      have first : between.handled = depot.handled ++ [bin] :=
        closed.handled.trans (called_untouched unmarked bin rest depot).handled
      obtain ⟨last, after, drains, alive, handled⟩ := ih noted alive completed.queue
      refine ⟨last, after, (Act.bind_of_ok completed.run _).trans drains, alive, ?_⟩
      rw [handled, first, List.append_assoc, List.singleton_append]

/-- A processor that does something else with bins that are not ready drains the queue in
the same way. -/
theorem drainBins_guarded (queue : List BinId) (activation : Activation)
    (alive : Alive property [] start depot) (isQueue : depot.ready = queue) :
    drainBins (engine.hooks.guarded otherwise) queue activation depot =
      drainBins engine.hooks queue activation depot := by
  induction queue generalizing activation depot with
  | nil => rfl
  | cons bin rest ih =>
      have ready : (depot.bin bin).state = .ready :=
        alive.1.queued.ready bin (isQueue ▸ List.mem_cons_self)
      have runs : (engine.hooks.guarded otherwise |>.process bin).run
          { depot with ready := rest, handled := depot.handled ++ [bin] } =
          (engine.hooks.process bin).run
            { depot with ready := rest, handled := depot.handled ++ [bin] } := by
        change (ite _ _ _ : Script (Option Outcome)).run _ = _
        rw [if_pos]
        exact ready
      have handles : handle (engine.hooks.guarded otherwise) bin activation
          { depot with ready := rest } =
          handle engine.hooks bin activation { depot with ready := rest } := by
        change (Act.attempt (engine.hooks.guarded otherwise |>.process bin).run >>= fun answer =>
            settle bin answer activation) _ =
          (Act.attempt (engine.hooks.process bin).run >>= fun answer =>
            settle bin answer activation) _
        rw [Act.bind_apply, Act.bind_apply, Act.attempt, Act.attempt]
        rw [runs]
      obtain ⟨noted, between, completed, alive⟩ :=
        handle_alive carried putKeeps behave unmarked activation alive isQueue
      have first := Act.bind_of_ok (handles.trans completed.run)
        fun noted => drainBins (engine.hooks.guarded otherwise) rest noted
      have second := Act.bind_of_ok completed.run
        fun noted => drainBins engine.hooks rest noted
      exact first.trans ((ih noted alive completed.queue).trans second.symm)

theorem drain_alive (activation : Activation) :
    (engine.drain activation).Keeps (Alive property [] start) := by
  apply Act.Keeps.of_final
  intro depot alive
  have isDrain : engine.drain activation depot =
      drainBins engine.hooks depot.ready activation depot := rfl
  obtain ⟨_, _, drains, after, _⟩ :=
    drainBins_alive carried putKeeps behave unmarked depot.ready activation alive rfl
  rw [isDrain, drains]
  exact after

theorem activate_alive (answers : List Bool) :
    (engine.activate answers).Keeps (Alive property [] start) := by
  have rules := @intakeRules_alive start _ _ _ carried putKeeps behave
  rw [activate_eq]
  refine (rules.takeIn answers).bind fun taken => ?_
  dsimp only
  split
  · refine migrateBins_alive.bind fun _ => ?_
    refine (drain_alive carried putKeeps behave unmarked _).bind fun activation => ?_
    apply Act.Keeps.of_final
    intro depot alive
    obtain ⟨counters, run⟩ := conclude_eq activation depot
    rw [run]
    exact ⟨alive.1.of_same rfl rfl rfl rfl rfl, alive.2.of_same rfl (fun _ => id) rfl⟩
  · exact Act.Keeps.pure _

end Drain

section Guard

variable (hooks : Hooks) (otherwise)

theorem groupItems_guarded (session : SessionId) (items : List Item) (groups : Groups) :
    groupItems (hooks.guarded otherwise) session items groups =
      groupItems hooks session items groups := by
  induction items generalizing groups with
  | nil => rfl
  | cons item rest ih =>
      simp only [groupItems, ih]
      rfl

theorem binChunk_guarded (session : SessionId) (items : List Item) :
    binChunk (hooks.guarded otherwise) session items = binChunk hooks session items := by
  unfold binChunk binItems
  rw [groupItems_guarded]

theorem takeIn_guarded (engine : Engine) (answers : List Bool) :
    takeIn (engine.guarded otherwise) answers = takeIn engine answers := by
  have intakes : intake (engine.guarded otherwise) answers = intake engine answers := by
    induction answers with
    | nil => rfl
    | cons scheduled rest ih =>
        have pulls : pullChunk (engine.guarded otherwise) = pullChunk engine := rfl
        have hooks : (engine.guarded otherwise).hooks = engine.hooks.guarded otherwise := rfl
        simp only [intake, ih, pulls, hooks, binChunk_guarded]
  unfold takeIn
  rw [intakes]

end Guard

/-- The rest of an act does not depend on how its first part came to its outcome. -/
theorem bind_congr {α β : Type} {first second : Act Depot α} {next : α → Act Depot β}
    {others : α → Act Depot β} (same : first depot = second depot)
    (onward : ∀ answer reached, second depot = (.ok answer, reached) →
      next answer reached = others answer reached) :
    (first >>= next) depot = (second >>= others) depot := by
  rw [Act.bind_apply, Act.bind_apply, same]
  rcases run : second depot with ⟨fault | answer, reached⟩
  · rfl
  · exact onward answer reached run

section Runs

variable (carried : Flow.Carried property) (putKeeps : PutKeeps property mayPut)
  (behave : engine.hooks.Behave mayPut)
  (unmarked : ∀ bin, (engine.hooks.process bin).Uses (Call.Permitted mayPut none))
include carried putKeeps behave unmarked

theorem activate_guarded (alive : Alive property [] start depot) (answers : List Bool) :
    (engine.guarded otherwise).activate answers depot = engine.activate answers depot := by
  have rules := @intakeRules_alive start _ _ _ carried putKeeps behave
  rw [activate_eq, activate_eq, takeIn_guarded]
  refine bind_congr rfl fun taken reached takes => ?_
  have alive := (rules.takeIn answers).of_ok alive takes
  dsimp only
  split
  · refine bind_congr rfl fun moved between moves => ?_
    have alive := migrateBins_alive.of_ok alive moves
    refine bind_congr ?_ fun _ _ _ => rfl
    exact drainBins_guarded carried putKeeps behave unmarked between.ready _ alive rfl
  · rfl

theorem Event.perform_guarded (event : Event) (alive : Alive property [] start depot) :
    event.perform (engine.guarded otherwise) depot = event.perform engine depot := by
  cases event with
  | activate answers =>
      exact congrArg Prod.snd
        (activate_guarded carried putKeeps behave unmarked alive answers)
  | put | advance | applyPolicy | set | reset => rfl

end Runs

section Histories

variable (behave : engine.hooks.Behave fun items => ∀ item ∈ items, item.HasWholeSize)
  (unmarked : ∀ bin, (engine.hooks.process bin).Uses
    (Call.Permitted (fun items => ∀ item ∈ items, item.HasWholeSize) none))
include behave unmarked

theorem Event.perform_alive (event : Event)
    (whole : ∀ item ∈ event.items, item.HasWholeSize)
    (alive : Alive (fun _ => True) [] start depot) :
    Alive (fun _ => True) [] start (event.perform engine depot) := by
  have putKeeps : PutKeeps (fun _ => True) fun items => ∀ item ∈ items, item.HasWholeSize :=
    ⟨fun _ _ _ _ => trivial, fun _ => id⟩
  have carried := tracked_anything.carried []
  cases event with
  | activate answers =>
      exact (activate_alive carried putKeeps behave unmarked answers).final alive
  | reset => exact (reset_alive carried).final alive
  | put | advance | applyPolicy | set =>
      refine ⟨?_, alive.2.of_same rfl (fun _ => id) rfl⟩
      exact @Event.perform_sound _ _ _ [] _ tracked_anything (fun _ => putKeeps) behave _
        whole alive.1

theorem run_alive (events : List Event)
    (whole : ∀ item ∈ events.flatMap Event.items, item.HasWholeSize)
    (alive : Alive (fun _ => True) [] start depot) :
    Alive (fun _ => True) [] start (run engine depot events) := by
  induction events generalizing depot with
  | nil => exact alive
  | cons event rest ih =>
      rw [List.flatMap_cons] at whole
      refine ih (fun item later => whole item (List.mem_append_right _ later)) ?_
      exact Event.perform_alive behave unmarked event
        (fun item now => whole item (List.mem_append_left _ now)) alive

theorem run_guarded (events : List Event)
    (whole : ∀ item ∈ events.flatMap Event.items, item.HasWholeSize)
    (alive : Alive (fun _ => True) [] start depot) :
    run (engine.guarded otherwise) depot events = run engine depot events := by
  have putKeeps : PutKeeps (fun _ => True) fun items => ∀ item ∈ items, item.HasWholeSize :=
    ⟨fun _ _ _ _ => trivial, fun _ => id⟩
  induction events generalizing depot with
  | nil => rfl
  | cons event rest ih =>
      rw [List.flatMap_cons] at whole
      have performed := Event.perform_alive behave unmarked event
        (fun item now => whole item (List.mem_append_left _ now)) alive
      have same : event.perform (engine.guarded otherwise) depot = event.perform engine depot :=
        Event.perform_guarded (tracked_anything.carried []) putKeeps behave unmarked event alive
      change run (engine.guarded otherwise) (event.perform (engine.guarded otherwise) depot) rest =
        run engine (event.perform engine depot) rest
      rw [same]
      exact ih (fun item later => whole item (List.mem_append_right _ later)) performed

end Histories

theorem alive_opening {flow : Flow} (clock : Moment) (policy : Policy)
    (sound : (opening flow clock policy).Sound property []) :
    Alive property [] (opening flow clock policy) (opening flow clock policy) :=
  ⟨sound, fun _ => .refl _, fun _ => Bin.told_new, fun _ filled => absurd rfl filled, nofun,
    List.nodup_nil⟩

/-- A run that starts with all items on the source leaves every bin where it belongs. -/
theorem run_opening_alive
    (behave : engine.hooks.Behave fun items => ∀ item ∈ items, item.HasWholeSize)
    (unmarked : ∀ bin, (engine.hooks.process bin).Uses
      (Call.Permitted (fun items => ∀ item ∈ items, item.HasWholeSize) none))
    (source : List Item) (relationships : List String) (clock : Moment) (policy : Policy)
    (events : List Event)
    (whole : ∀ item ∈ source ++ events.flatMap Event.items, item.HasWholeSize) :
    let start := opening { source, sinks := Flow.sinksFor relationships } clock policy
    Alive (fun _ => True) [] start (run engine start events) := by
  intro start
  have begun : Alive (fun _ => True) [] start start := by
    apply alive_opening
    refine sound_opening clock policy trivial ⟨fun item member => ?_, nofun, nofun⟩ fun _ => rfl
    exact whole item (List.mem_append_left _ member)
  exact run_alive behave unmarked events
    (fun item member => whole item (List.mem_append_right _ member)) begun

/-- At every time of a run the place of each bin that took an item by then and its state say
the same, and no bin is queued twice.  A closed bin stays as it is, and the processor gets
no bin twice and only ready ones: what it would do with others makes no difference. -/
theorem whereabouts_after_run (engine : Engine)
    (behave : engine.hooks.Behave fun items => ∀ item ∈ items, item.HasWholeSize)
    (unmarked : ∀ bin, (engine.hooks.process bin).Uses
      (Call.Permitted (fun items => ∀ item ∈ items, item.HasWholeSize) none))
    (source : List Item) (relationships : List String) (clock : Moment) (policy : Policy)
    (earlier later : List Event)
    (whole : ∀ item ∈ source ++ (earlier ++ later).flatMap Event.items, item.HasWholeSize) :
    let start := opening { source, sinks := Flow.sinksFor relationships } clock policy
    let before := run engine start earlier
    let after := run engine start (earlier ++ later)
    (∀ bin, (before.bin bin).contents <+: (after.bin bin).contents ∧
        ((before.bin bin).contents ≠ [] → after.InPlace bin)) ∧
      after.ready.Nodup ∧
      (∀ bin, (before.bin bin).state.Closed →
        (after.bin bin).state = (before.bin bin).state) ∧
      after.handled.Nodup ∧
      ∀ otherwise, run (engine.guarded otherwise) start (earlier ++ later) = after := by
  intro start before after
  have begun : Alive (fun _ => True) [] start start := by
    apply alive_opening
    refine sound_opening clock policy trivial ⟨fun item member => ?_, nofun, nofun⟩ fun _ => rfl
    exact whole item (List.mem_append_left _ member)
  have given : ∀ item ∈ (earlier ++ later).flatMap Event.items, item.HasWholeSize :=
    fun item member => whole item (List.mem_append_right _ member)
  have wholeEarlier : ∀ item ∈ earlier.flatMap Event.items, item.HasWholeSize := by
    rw [List.flatMap_append] at given
    exact fun item member => given item (List.mem_append_left _ member)
  have wholeLater : ∀ item ∈ later.flatMap Event.items, item.HasWholeSize := by
    rw [List.flatMap_append] at given
    exact fun item member => given item (List.mem_append_right _ member)
  have aliveBefore : Alive (fun _ => True) [] start before :=
    run_alive behave unmarked earlier wholeEarlier begun
  have isAfter : run engine before later = after := (List.foldl_append ..).symm
  have aliveAfter : Alive (fun _ => True) [] before after := by
    rw [← isAfter]
    exact run_alive behave unmarked later wholeLater
      ⟨aliveBefore.1, { aliveBefore.2 with leads := fun _ => .refl _ }⟩
  obtain ⟨sound, kept⟩ := aliveAfter
  refine ⟨fun bin => ⟨(kept.leads bin).contents, fun filled => ?_⟩, sound.queued.distinct,
    fun bin => (kept.leads bin).closed, kept.once, fun otherwise => ?_⟩
  · apply kept.inPlace sound
    exact fun empty => filled (List.prefix_nil.1 (empty ▸ (kept.leads bin).contents))
  · exact run_guarded behave unmarked (earlier ++ later) given begun

/-- The processor got the bin of two items, which failed, and the engine was reset. -/
theorem whereabouts_of_mixed :
    let source : List Item := [{ id := "a" }, { id := "b" }]
    let earlier : List Event := [.activate [true, true, true]]
    let later : List Event := [.put [{ id := "c" }], .activate [true], .reset]
    let start := opening { source, sinks := Flow.sinksFor [] } {} {}
    let after := run mixed start (earlier ++ later)
    after.handled = [0] ∧ after.InPlace 0 ∧ after.ready.Nodup ∧
      ∀ otherwise, run (mixed.guarded otherwise) start (earlier ++ later) = after := by
  intro source earlier later start after
  have whole : ∀ item ∈ source ++ (earlier ++ later).flatMap Event.items,
      item.HasWholeSize := by
    intro item member
    have size : ∀ item ∈ ([{ id := "a" }, { id := "b" }, { id := "c" }] : List Item),
        item.size = .int 0 := by simp
    exact ⟨0, size item member⟩
  have unmarked (bin : BinId) : (mixed.hooks.process bin).Uses
      (Call.Permitted (fun items => ∀ item ∈ items, item.HasWholeSize) none) := by
    intro depot
    dsimp only
    split
    · trivial
    · exact ⟨trivial, fun _ => trivial⟩
  obtain ⟨inPlace, distinct, _, _, same⟩ := whereabouts_after_run mixed (behave_mixed _) unmarked
    source [] {} {} earlier later whole
  have filled : ((run mixed start earlier).bin 0).contents.length ≠ 0 := by decide +kernel
  exact ⟨by decide +kernel, (inPlace 0).2 fun none => filled (List.length_eq_zero_iff.2 none),
    distinct, same⟩

end Engine

end ItemBinning
