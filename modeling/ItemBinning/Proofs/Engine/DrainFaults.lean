import ItemBinning.Proofs.Engine.DrainRules
import ItemBinning.Proofs.Engine.Outcomes
import ItemBinning.Proofs.Hook.Conduct

/-!
# When a drain breaks off

Whatever a processor does, the completion of a bin ends with a mark, and only that mark
can fail: it does so just when the bin is no longer ready when the processor ends.  So a
drain breaks off at the first such bin.  The bins before it are completed, its own
session is empty by then, and the bins behind it stay queued in their order.
-/

namespace ItemBinning

open Depot

/-- Of all calls only a mark changes a bin, and it moves the bin to a state that may
follow. -/
theorem Call.perform_bins (call : Call) (depot : Depot) :
    (call.perform depot).2.bins = depot.bins ∨
      ∃ bin target, target ∈ (depot.bin bin).state.successors ∧
        (call.perform depot).2 = depot.setBin bin { depot.bin bin with state := target } := by
  have effect := call.effect_perform depot
  generalize isReached : (call.perform depot).2 = reached at effect
  cases effect with
  | flow | policy | aside => exact .inl rfl
  | state bin target =>
      change (Depot.mark bin target depot).2 = _ at isReached
      by_cases follows : target ∈ (depot.bin bin).state.successors
      · exact .inr ⟨bin, target, follows, rfl⟩
      · rw [mark_error follows] at isReached
        exact .inl (by rw [← isReached])

section Scripts

variable {α : Type} (script : Script α) (bin : BinId)

/-- No script hands a bin over to another session. -/
theorem Script.run_owner (session : SessionId) :
    script.run.Keeps fun depot => (depot.bin bin).session = session := by
  refine script.uses_anything.keeps fun call _ => Act.Keeps.of_final fun depot owner => ?_
  rcases call.perform_bins depot with same | ⟨other, target, _, run⟩
  · unfold Depot.bin
    rwa [same]
  · rw [run, bin_setBin]
    split
    · rename_i isOther
      rwa [← isOther]
    · exact owner

/-- No script opens a bin again. -/
theorem Script.run_notOpened :
    script.run.Keeps fun depot => (depot.bin bin).state ≠ .opened := by
  refine script.uses_anything.keeps fun call _ => Act.Keeps.of_final fun depot notOpened => ?_
  rcases call.perform_bins depot with same | ⟨other, target, follows, run⟩
  · unfold Depot.bin
    rwa [same]
  · rw [run, bin_setBin]
    split
    · rintro rfl
      cases state : (depot.bin other).state <;> rw [state] at follows <;>
        simp [BinState.successors] at follows
    · exact notOpened

end Scripts

/-- No bin was changed, and none was handed to the processor. -/
structure Depot.Untouched (before after : Depot) : Prop where
  bins : after.bins = before.bins
  handled : after.handled = before.handled

/-- The states in which the completion of a bin leaves it. -/
def BinState.Closed (state : BinState) : Prop :=
  state = .processed ∨ state = .rolledBack

theorem BinState.Closed.follows_iff {source target : BinState} (closed : target.Closed)
    (notOpened : source ≠ .opened) : target ∈ source.successors ↔ source = .ready := by
  rcases closed with rfl | rfl <;> cases source <;> simp_all [BinState.successors]

namespace Engine

variable {hooks : Hooks} {bin : BinId} {rest : List BinId}

section Marks

variable {start : Depot}

private theorem onFlow_bins {α : Type} (act : Act Flow α) :
    (onFlow act).Keeps start.Untouched :=
  Act.Keeps.of_final fun _ untouched => ⟨untouched.bins, untouched.handled⟩

private theorem deliver_bins (relationship : String) :
    (deliver bin relationship).Keeps start.Untouched :=
  (Act.Keeps.read _).bind fun _ => (onFlow_bins _).bind fun _ => onFlow_bins _

private theorem deliver_faults (relationship : String) :
    (deliver bin relationship).Meets (fun _ => True) (fun _ _ => True)
      fun fault _ => fault.kind = .session := by
  have read : (Act.read fun depot : Depot => depot.bin bin).Meets (fun _ => True)
      (fun _ _ => True) fun fault _ => fault.kind = .session := Act.Meets.read fun _ => id
  refine read.bind fun held => ?_
  refine Act.Meets.bind (onFlow_meets (Flow.route_faults _ _ _)) fun _ => ?_
  exact (onFlow_meets (Flow.commit_faults _)).weaken (fun _ => id) (fun _ _ _ => trivial)
    fun _ _ => id

private theorem finalise_bins (outcome : Option Outcome) :
    (finalise bin outcome).Keeps start.Untouched := by
  unfold finalise
  split
  · exact Act.Keeps.fail _
  · rename_i outcome
    split
    · refine (Act.Keeps.read _).bind fun held => ?_
      split
      · exact Act.Keeps.pure ()
      · exact Act.Keeps.fail _
    · refine Act.Keeps.bind ?_ fun _ => deliver_bins _
      refine (Act.Keeps.read _).bind fun held => Act.Keeps.forEach fun item _ => ?_
      exact (onFlow_bins _).bind fun _ => Act.Keeps.pure ()

/-- The bin was moved to a closed state, and no other bin was changed. -/
structure ClosedIn (bin : BinId) (start depot : Depot) (target : BinState) : Prop where
  closed : target.Closed
  follows : target ∈ (start.bin bin).state.successors
  bins : depot.bins = start.bins.set bin { start.bin bin with state := target }
  handled : depot.handled = start.handled

/-- The bin could not be moved to a closed state. -/
structure Refused (bin : BinId) (start : Depot) (fault : Fault) (target : BinState) :
    Prop where
  closed : target.Closed
  follows : target ∉ (start.bin bin).state.successors
  fault : fault = .illegalTransition (start.bin bin).state target

/-- The act closes a bin, or fails since the bin cannot be closed. -/
def Closes {α : Type} (act : Act Depot α) (bin : BinId) (start : Depot) : Prop :=
  act.Meets start.Untouched (fun _ depot => ∃ target, ClosedIn bin start depot target)
    fun fault _ => ∃ target, Refused bin start fault target

private theorem mark_closes {target : BinState} (closed : target.Closed) :
    Closes (mark bin target) bin start := by
  intro depot untouched
  have same : depot.bin bin = start.bin bin := by
    unfold Depot.bin
    rw [untouched.bins]
  by_cases follows : target ∈ (depot.bin bin).state.successors
  · rw [mark_eq follows]
    refine ⟨target, closed, same ▸ follows, ?_, untouched.handled⟩
    rw [← same, ← untouched.bins]
    rfl
  · rw [mark_error follows]
    exact ⟨target, closed, same ▸ follows, same ▸ rfl⟩

private theorem noted_closes {act : Act Depot Unit} (closes : Closes act bin start)
    (change : Counters → Counters) (noted : Activation) :
    Closes (do act; count change; pure noted) bin start := by
  refine Act.Meets.bind closes fun _ => Act.Meets.bind (Act.Meets.modify ?_) fun _ =>
    Act.Meets.pure fun _ => id
  rintro depot ⟨target, closed⟩
  exact ⟨target, closed.closed, closed.follows, closed.bins, closed.handled⟩

private theorem giveUp_closes (activation : Activation) :
    Closes (giveUp bin activation) bin start := by
  have discarded : Closes (discard bin) bin start := by
    intro depot untouched
    have isMark : discard bin depot =
        mark bin .rolledBack { depot with flow := depot.flow.returned (depot.bin bin).session } :=
      rfl
    rw [isMark]
    exact mark_closes (.inr rfl) _ ⟨untouched.bins, untouched.handled⟩
  exact noted_closes discarded _ _

/-- The bin has its session, and the shelf and the rest of the queue are as given. -/
structure Resumed (bin : BinId) (session : SessionId) (groups : Table Key (List BinId))
    (rest : List BinId) (depot : Depot) : Prop where
  session : (depot.bin bin).session = session
  groups : depot.shelf.groups = groups
  queue : depot.ready = rest

theorem script_resumed {α : Type} (script : Script α) {session : SessionId}
    {groups : Table Key (List BinId)} :
    script.run.Keeps (Resumed bin session groups rest) := by
  apply Act.Keeps.of_final
  intro depot resumed
  refine ⟨(script.run_owner bin session).final resumed.session, ?_,
    (script.run_ready rest).final resumed.queue⟩
  have keeps : script.run.Keeps fun depot => depot.shelf.groups = groups :=
    script.uses_anything.keeps fun call _ =>
      call.perform_shelf (·.groups = groups) fun _ _ _ => id
  exact keeps.final resumed.groups

/-- A bin keeps its session while it is completed, and neither the shelf nor the rest of
the queue changes; after that the session is empty. -/
theorem drainRules_emptied (session : SessionId) (groups : Table Key (List BinId)) :
    DrainRules hooks bin (· = session) (Resumed bin session groups rest)
      fun depot => Resumed bin session groups rest depot ∧
        (depot.flow.session session).ids = [] where
  owned _ resumed := resumed.session
  noted _ resumed := ⟨resumed.session, resumed.groups, resumed.queue⟩
  processed := script_resumed _
  annotated _ _ _ := Act.Keeps.of_final fun _ resumed =>
    ⟨resumed.session, resumed.groups, resumed.queue⟩
  routed _ _ _ := Act.Keeps.of_final fun _ resumed =>
    ⟨resumed.session, resumed.groups, resumed.queue⟩
  committed := by
    rintro number rfl depot resumed
    rcases Flow.commit_cases number depot.flow with ⟨_, run⟩ | ⟨_, run⟩ <;>
      rw [onFlow_eq run]
    · exact resumed
    · exact ⟨⟨resumed.session, resumed.groups, resumed.queue⟩,
        Flow.ids_delivered depot.flow number⟩
  returned := by
    rintro number rfl depot resumed
    rw [onFlow_eq (Flow.rollBack_eq number depot.flow)]
    exact ⟨⟨resumed.session, resumed.groups, resumed.queue⟩,
      Flow.ids_returned depot.flow number⟩
  emptied depot resumed empty := by
    refine ⟨resumed, ?_⟩
    rw [← resumed.session]
    exact empty
  marked target := by
    apply Act.Keeps.of_final
    rintro depot ⟨resumed, empty⟩
    by_cases follows : target ∈ (depot.bin bin).state.successors
    · rw [mark_eq follows]
      refine ⟨⟨?_, resumed.groups, resumed.queue⟩, empty⟩
      rw [bin_setBin_self]
      exact resumed.session
    · rw [mark_error follows]
      exact ⟨resumed, empty⟩
  counted _ := Act.Keeps.of_final fun _ holds =>
    ⟨⟨holds.1.session, holds.1.groups, holds.1.queue⟩, holds.2⟩

/-- A completion changes no bin but its own, which it closes, and fails only if the bin
cannot be closed. -/
theorem settle_closes (answer : Except Fault (Option Outcome)) (activation : Activation) :
    Closes (settle bin answer activation) bin start := by
  unfold settle
  split
  · rename_i outcome
    refine (Act.Meets.attempt (finalise_bins outcome)).bind fun finalised => ?_
    cases finalised with
    | ok => exact noted_closes (mark_closes (.inl rfl)) _ _
    | error fault => exact giveUp_closes activation
  · have delivered : (deliver bin failureRelationship).Meets start.Untouched
        (fun _ => start.Untouched)
        fun fault depot => start.Untouched depot ∧ fault.kind = .session :=
      ((Act.Meets.and (deliver_bins failureRelationship)
        ((deliver_faults failureRelationship).weaken (fun _ _ => trivial) (fun _ _ => id)
          fun _ _ => id))).weaken (fun _ => id) (fun _ _ => And.left) fun _ _ => id
    refine delivered.attempt.bind fun outcome => ?_
    cases outcome with
    | ok => exact noted_closes (mark_closes (.inl rfl)) _ _
    | error fault =>
        apply Act.Meets.knowing
        intro kind
        dsimp only
        rw [if_pos kind]
        exact giveUp_closes activation
  · exact giveUp_closes activation

end Marks

/-- The depot at the end of the processor's call on a bin that was taken off the queue. -/
def called (hooks : Hooks) (bin : BinId) (rest : List BinId) (depot : Depot) : Depot :=
  (hooks.process bin).run.final
    { depot with ready := rest, handled := depot.handled ++ [bin] }

theorem handle_apply (hooks : Hooks) (bin : BinId) (rest : List BinId)
    (activation : Activation) (depot : Depot) :
    ∃ answer, handle hooks bin activation { depot with ready := rest } =
      settle bin answer activation (called hooks bin rest depot) := by
  rcases run : (hooks.process bin).run
    { depot with ready := rest, handled := depot.handled ++ [bin] } with ⟨answer, reached⟩
  refine ⟨answer, ?_⟩
  have isReached : called hooks bin rest depot = reached := by
    rw [called, Act.final, run]
  rw [isReached]
  change (Act.attempt (hooks.process bin).run >>= fun answer =>
    settle bin answer activation) _ = _
  exact Act.bind_of_ok (Act.attempt_eq run) _

/-- A bin was taken off the queue and completed: it was still ready when the processor
ended, it was closed after that, and its session is empty. -/
structure Completed (hooks : Hooks) (bin : BinId) (rest : List BinId)
    (activation noted : Activation) (before after : Depot) : Prop where
  ready : ((called hooks bin rest before).bin bin).state = .ready
  run : handle hooks bin activation { before with ready := rest } = (.ok noted, after)
  closed : ∃ target, ClosedIn bin (called hooks bin rest before) after target
  emptied : (after.binSession bin).ids = []
  shelf : after.shelf.bins = before.shelf.bins
  queue : after.ready = rest

/-- The bin was no longer ready when the processor ended, so it could not be closed. -/
structure Broken (hooks : Hooks) (bin : BinId) (rest : List BinId) (before : Depot)
    (fault : Fault) (reached : Depot) : Prop where
  notReady : ((called hooks bin rest before).bin bin).state ≠ .ready
  kind : fault.kind = .binning
  fault : ∃ target,
    fault = .illegalTransition ((called hooks bin rest before).bin bin).state target
  emptied : (reached.binSession bin).ids = []
  queue : reached.ready = rest

/-- The bins in front of the rest of a queue were completed, one after the other. -/
inductive Drains (hooks : Hooks) (rest : List BinId) :
    List BinId → Activation → Depot → Activation → Depot → Prop
  | nothing (activation : Activation) (depot : Depot) :
      Drains hooks rest [] activation depot activation depot
  | next {bin : BinId} {more : List BinId} {activation noted last : Activation}
      {before between after : Depot}
      (completed : Completed hooks bin (more ++ rest) activation noted before between)
      (drains : Drains hooks rest more noted between last after) :
      Drains hooks rest (bin :: more) activation before last after

theorem resumed_called (hooks : Hooks) (bin : BinId) (rest : List BinId) (depot : Depot) :
    Resumed bin (depot.bin bin).session depot.shelf.groups rest
      (called hooks bin rest depot) :=
  (script_resumed (hooks.process bin)).final ⟨rfl, rfl, rfl⟩

private theorem emptied_settle {before reached : Depot}
    {answer : Except Fault (Option Outcome)} {activation : Activation}
    {outcome : Except Fault Activation}
    (run : settle bin answer activation (called hooks bin rest before) = (outcome, reached)) :
    (reached.binSession bin).ids = [] ∧ reached.shelf.bins = before.shelf.bins ∧
      reached.ready = rest := by
  have rules := @drainRules_emptied hooks bin rest (before.bin bin).session
    before.shelf.groups
  have done := Act.Meets.final ((rules.settle answer activation).weaken (fun _ => id)
    (fun _ _ => And.left) fun _ _ => id) (resumed_called hooks bin rest before)
  rw [run] at done
  obtain ⟨resumed, empty⟩ := done
  refine ⟨?_, congrArg (fun groups => (Shelf.bins { groups })) resumed.groups, resumed.queue⟩
  rw [binSession, resumed.session]
  exact empty

theorem notOpened_called (hooks : Hooks) (bin : BinId) (rest : List BinId) {depot : Depot}
    {other : BinId} (notOpened : (depot.bin other).state ≠ .opened) :
    ((called hooks bin rest depot).bin other).state ≠ .opened :=
  ((hooks.process bin).run_notOpened other).final notOpened

theorem ClosedIn.bin_eq {start depot : Depot} {target : BinState}
    (closed : ClosedIn bin start depot target) (other : BinId) :
    depot.bin other =
      if other = bin then { start.bin bin with state := target } else start.bin other := by
  rw [Depot.bin, closed.bins, Slots.get_set]
  rfl

/-- No completion opens a bin again. -/
theorem Completed.notOpened {activation noted : Activation} {before after : Depot}
    (completed : Completed hooks bin rest activation noted before after) {other : BinId}
    (notOpened : (before.bin other).state ≠ .opened) : (after.bin other).state ≠ .opened := by
  obtain ⟨target, closed⟩ := completed.closed
  rw [closed.bin_eq]
  split
  · rcases closed.closed with rfl | rfl <;> simp
  · exact notOpened_called hooks bin rest notOpened

/-- A bin that is taken off the queue is completed or breaks the drain off, by the state
in which the processor leaves it. -/
theorem handle_cases {before : Depot} (notOpened : (before.bin bin).state ≠ .opened)
    (activation : Activation) :
    (∃ noted after, Completed hooks bin rest activation noted before after) ∨
      ∃ fault reached, handle hooks bin activation { before with ready := rest } =
        (.error fault, reached) ∧ Broken hooks bin rest before fault reached := by
  have stillNotOpened := notOpened_called hooks bin rest notOpened
  obtain ⟨answer, isHandled⟩ := handle_apply hooks bin rest activation before
  have closes : Closes (settle bin answer activation) bin (called hooks bin rest before) :=
    settle_closes answer activation
  have untouched : (called hooks bin rest before).Untouched (called hooks bin rest before) :=
    ⟨rfl, rfl⟩
  rcases run : settle bin answer activation (called hooks bin rest before) with
    ⟨fault | noted, reached⟩
  · obtain ⟨target, refused⟩ := closes.of_error untouched run
    obtain ⟨empty, _, queued⟩ := emptied_settle run
    refine .inr ⟨fault, reached, isHandled.trans run, ?_, ?_, ⟨target, refused.fault⟩, empty,
      queued⟩
    · exact fun isReady =>
        refused.follows ((refused.closed.follows_iff stillNotOpened).2 isReady)
    · rw [refused.fault]
      rfl
  · obtain ⟨target, closed⟩ := closes.of_ok untouched run
    obtain ⟨empty, shelf, queued⟩ := emptied_settle run
    exact .inl ⟨noted, reached, (closed.closed.follows_iff stillNotOpened).1 closed.follows,
      isHandled.trans run, ⟨target, closed⟩, empty, shelf, queued⟩

/-- A drain completes all bins of its queue or breaks off at one of them. -/
theorem drainBins_cases (queue : List BinId) (activation : Activation) {depot : Depot}
    (notOpened : ∀ bin ∈ queue, (depot.bin bin).state ≠ .opened) :
    (∃ last reached, drainBins hooks queue activation depot = (.ok last, reached) ∧
        Drains hooks [] queue activation depot last reached) ∨
      ∃ completed bin rest noted between fault reached, queue = completed ++ bin :: rest ∧
        drainBins hooks queue activation depot = (.error fault, reached) ∧
        Drains hooks (bin :: rest) completed activation depot noted between ∧
        Broken hooks bin rest between fault reached := by
  induction queue generalizing activation depot with
  | nil => exact .inl ⟨activation, depot, rfl, .nothing _ _⟩
  | cons bin rest ih =>
      have step (next : Activation → Act Depot Activation) :
          ((do Act.modify fun depot => { depot with ready := rest }
               let reached ← handle hooks bin activation
               next reached) : Act Depot Activation) depot =
            (handle hooks bin activation >>= next) { depot with ready := rest } := rfl
      simp only [drainBins]
      rw [step]
      rcases @handle_cases hooks bin rest _
        (notOpened bin List.mem_cons_self) activation with
        ⟨noted, between, completed⟩ | ⟨fault, reached, run, broken⟩
      · rw [Act.bind_of_ok completed.run]
        rcases ih noted (fun other member =>
          completed.notOpened (notOpened other (List.mem_cons_of_mem _ member))) with
          ⟨last, reached, run, drains⟩ |
          ⟨more, other, others, last, later, fault, reached, rfl, run, drains, broken⟩
        · refine .inl ⟨last, reached, run, .next ?_ drains⟩
          rwa [List.append_nil]
        · exact .inr ⟨bin :: more, other, others, last, later, fault, reached, rfl, run,
            .next completed drains, broken⟩
      · rw [Act.bind_of_error run]
        exact .inr ⟨[], bin, rest, activation, depot, fault, reached, rfl, rfl,
          .nothing _ _, broken⟩

/-- The drain of a queue goes on behind the bins that were completed. -/
theorem Drains.drainBins_append {completed : List BinId} {activation last : Activation}
    {before after : Depot} (drains : Drains hooks rest completed activation before last after) :
    drainBins hooks (completed ++ rest) activation before = drainBins hooks rest last after := by
  induction drains with
  | nothing => rfl
  | next completed drains ih =>
      rw [← ih]
      exact Act.bind_of_ok completed.run _

theorem Drains.notOpened {completed : List BinId} {activation last : Activation}
    {before after : Depot} (drains : Drains hooks rest completed activation before last after)
    {other : BinId} (notOpened : (before.bin other).state ≠ .opened) :
    (after.bin other).state ≠ .opened := by
  induction drains with
  | nothing => exact notOpened
  | next completed drains ih => exact ih (completed.notOpened notOpened)

/-- A drain comes to a bin of the queue: the bins in front of it were completed, and the
others wait behind it. -/
structure Polled (hooks : Hooks) (activation : Activation) (depot : Depot) (bin : BinId)
    (rest : List BinId) (before : Depot) : Prop where
  drained : ∃ completed noted, depot.ready = completed ++ bin :: rest ∧
    Drains hooks (bin :: rest) completed activation depot noted before

/-- A drain of ready bins fails just if it comes to a bin that is no longer ready when the
processor ends.  It fails with a binning fault at the first such bin, whose session is
empty then, and the bins behind it are still queued.  A drain that does not fail has
completed every bin. -/
theorem drain_fails_iff (engine : Engine) (activation : Activation) (depot : Depot)
    (ready : ∀ bin ∈ depot.ready, (depot.bin bin).state = .ready) :
    ((∃ fault reached, engine.drain activation depot = (.error fault, reached)) ↔
      ∃ bin rest before, Polled engine.hooks activation depot bin rest before ∧
        ((called engine.hooks bin rest before).bin bin).state ≠ .ready) ∧
    (∀ fault reached, engine.drain activation depot = (.error fault, reached) →
      ∃ bin rest before, Polled engine.hooks activation depot bin rest before ∧
        Broken engine.hooks bin rest before fault reached) ∧
    ∀ last reached, engine.drain activation depot = (.ok last, reached) →
      Drains engine.hooks [] depot.ready activation depot last reached := by
  have notOpened : ∀ bin ∈ depot.ready, (depot.bin bin).state ≠ .opened := by
    intro bin member isOpened
    rw [ready bin member] at isOpened
    cases isOpened
  have isDrain : engine.drain activation depot =
      drainBins engine.hooks depot.ready activation depot := rfl
  rw [isDrain]
  have breaks : ∀ fault reached,
      drainBins engine.hooks depot.ready activation depot = (.error fault, reached) →
      ∃ bin rest before, Polled engine.hooks activation depot bin rest before ∧
        Broken engine.hooks bin rest before fault reached := by
    intro fault reached failed
    rcases drainBins_cases depot.ready activation notOpened with
      ⟨_, _, answered, _⟩ |
      ⟨completed, bin, rest, noted, between, _, _, queue, run, drains, broken⟩
    · cases failed.symm.trans answered
    · cases failed.symm.trans run
      exact ⟨bin, rest, between, ⟨completed, noted, queue, drains⟩, broken⟩
  refine ⟨⟨?_, ?_⟩, breaks, ?_⟩
  · rintro ⟨fault, reached, failed⟩
    obtain ⟨bin, rest, before, polled, broken⟩ := breaks fault reached failed
    exact ⟨bin, rest, before, polled, broken.notReady⟩
  · rintro ⟨bin, rest, before, ⟨completed, noted, queue, drains⟩, notReady⟩
    rw [queue] at notOpened ⊢
    rw [drains.drainBins_append]
    have stillNotOpened :=
      drains.notOpened (notOpened bin (List.mem_append_right _ List.mem_cons_self))
    rcases @handle_cases engine.hooks bin rest _ stillNotOpened noted with
      ⟨_, _, completed⟩ | ⟨fault, reached, run, _⟩
    · exact absurd completed.ready notReady
    · exact ⟨fault, reached, Act.bind_of_error run _⟩
  · intro last reached answered
    rcases drainBins_cases depot.ready activation notOpened with
      ⟨_, _, run, drains⟩ | ⟨_, _, _, _, _, _, _, _, failed, _⟩
    · cases answered.symm.trans run
      exact drains
    · cases answered.symm.trans failed

/-- The processor marks the second of three bins itself: the first one is completed, the
second one breaks the drain off, and the third one stays queued. -/
theorem drain_fails_at_marked :
    let engine : Engine := { hooks := {
      groupKey := fun _ => .done .null
      process := fun bin =>
        if bin = 1 then .call (.mark bin .processed) fun _ => .done (some {})
        else .done (some {}) } }
    let depot := queueOf ["a", "b", "c"]
    ∃ fault reached, engine.drain {} depot = (.error fault, reached) ∧
      reached.ready = [2] ∧
      ∃ bin rest before, Polled engine.hooks {} depot bin rest before ∧
        Broken engine.hooks bin rest before fault reached := by
  intro engine depot
  have contract := drain_fails_iff engine {} depot (by decide +kernel)
  have fails : (engine.drain {} depot).1.toOption = none := by decide +kernel
  have queue : (engine.drain {} depot).2.ready = [2] := by decide +kernel
  rcases run : engine.drain {} depot with ⟨fault | last, reached⟩
  · rw [run] at queue
    exact ⟨fault, reached, rfl, queue, contract.2.1 fault reached run⟩
  · rw [run] at fails
    cases fails

end Engine

end ItemBinning
