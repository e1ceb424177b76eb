import ItemBinning.Proofs.Engine.Strays

/-!
# Cancellation

The schedule is asked before each chunk and once more before migration.  A schedule that
stops does not start again, so an activation that it stops has only taken chunks in, at most
one for each time that it was asked and agreed, and nothing of a chunk is left over: its
items are in bins or were delivered to failure.  What was open or queued before stays where
it is, and no bin is handed to the processor.
-/

namespace ItemBinning

namespace Value

theorem isAtMost_of_isBelow {first other : Value} (below : first.isBelow other = .ok true) :
    first.isAtMost other = .ok true := by
  unfold isBelow stands at below
  unfold isAtMost stands
  cases comparison : first.compare other <;> rw [comparison] at below
  case ordered order => cases order <;> first | rfl | cases below
  case unordered | undefined => cases below

end Value

namespace Depot

variable {property : Flow → Prop} {session : SessionId} {first second third before after : Depot}

theorem Stowed.shelved {key : Key} {item : Item} {number : BinId}
    (stowed : before.Stowed session key item number after) (group : Key) :
    before.shelf.binsOf group <+: after.shelf.binsOf group := by
  rcases stowed.place with joined | filed | enqueued
  · exact joined.shelf ▸ List.prefix_rfl
  · rw [filed.shelf]
    change _ <+: (before.shelf.setGroup key (before.shelf.binsOf key ++ [number])).binsOf group
    rw [Shelf.binsOf_setGroup]
    split
    · rename_i same
      rw [same]
      exact List.prefix_append _ _
    · exact List.prefix_rfl
  · exact enqueued.shelf ▸ List.prefix_rfl

/-- No bin leaves its group while items are stowed. -/
theorem Hauled.shelved {cargo : List Load} (hauled : Hauled property session cargo before after)
    (group : Key) : before.shelf.binsOf group <+: after.shelf.binsOf group := by
  induction hauled with
  | still _ still => exact still.shelf ▸ List.prefix_rfl
  | stowed _ stowed => exact stowed.shelved group
  | trans _ _ first second => exact first.trans second

/-- Open bins stay where they are and others are put behind them, the queue grew by bins of
items that found no place, and nothing was delivered to success. -/
structure Accrued (before after : Depot) : Prop where
  shelved : ∀ group, before.shelf.binsOf group <+: after.shelf.binsOf group
  strayed : ∃ unbound bins, before.Strayed unbound bins after
  success : after.flow.sinks.find? successRelationship =
    before.flow.sinks.find? successRelationship

theorem Accrued.trans (accruedFirst : first.Accrued second) (accruedSecond : second.Accrued third) :
    first.Accrued third where
  shelved group := (accruedFirst.shelved group).trans (accruedSecond.shelved group)
  strayed := by
    obtain ⟨_, _, strayed⟩ := accruedFirst.strayed
    obtain ⟨_, _, later⟩ := accruedSecond.strayed
    exact ⟨_, _, strayed.trans later⟩
  success := accruedSecond.success.trans accruedFirst.success

theorem Accrued.of_same (shelf : after.shelf = before.shelf) (bins : after.bins = before.bins)
    (handled : after.handled = before.handled) (queue : after.ready = before.ready)
    (sinks : after.flow.sinks = before.flow.sinks) : before.Accrued after where
  shelved _ := shelf ▸ List.prefix_rfl
  strayed := ⟨[], [], .of_same bins handled queue⟩
  success := by rw [sinks]

theorem Drawn.accrued {chunk : List Item} (drawn : before.Drawn session chunk after) :
    before.Accrued after :=
  .of_same drawn.shelf (by rw [drawn.rest]) (by rw [drawn.rest]) drawn.ready drawn.sinks

/-- Items that fail are not delivered to success. -/
theorem Isolated.success {findings : List Engine.Finding}
    (isolated : Isolated findings before after) :
    after.flow.sinks.find? successRelationship =
      before.flow.sinks.find? successRelationship := by
  obtain ⟨delivered, _, sinks⟩ := isolated.sinks
  rw [sinks, Table.find?_mapValues]
  cases before.flow.sinks.find? successRelationship with
  | none => rfl
  | some received =>
      rw [Option.map_some, if_neg (by decide), List.append_nil]

end Depot

namespace Engine

open Depot

variable {engine : Engine} {before between after : Depot} {known : List String}

section Pulling

/-- No more is taken than is asked for, unless nothing is taken. -/
theorem countOf_atMost {size : Number} {waiting : Nat} {wanted : Int}
    (counted : Flow.countOf (.number size) waiting = .ok wanted)
    (some : 0 < min wanted.toNat waiting) :
    (Value.int (min wanted.toNat waiting : Nat)).isAtMost (.number size) = .ok true := by
  cases size with
  | int size =>
      cases counted
      rw [Value.isAtMost_int, decide_eq_true (by omega)]
  | float size =>
      change (do
        if ← (Value.int waiting).isBelow (.number (.float size)) then return (waiting : Int)
        else throw .wrongType : Except Fault Int) = .ok wanted at counted
      rcases below : (Value.int waiting).isBelow (.number (.float size)) with fault | isBelow <;>
        rw [below] at counted
      · cases counted
      · cases isBelow <;> cases counted
        rw [Int.toNat_natCast, Nat.min_self]
        exact Value.isAtMost_of_isBelow below

theorem pullChunk_atMost (engine : Engine) :
    (pullChunk engine).Meets (fun _ => True)
      (fun chunk _ => chunk.2 ≠ [] →
        (Value.int chunk.2.length).isAtMost (.number engine.chunkSize) = .ok true)
      fun _ _ => True := by
  have pulled (session : SessionId) : (Flow.pullValue session (.number engine.chunkSize)).Meets
      (fun _ => True) (fun items _ => items ≠ [] →
        (Value.int items.length).isAtMost (.number engine.chunkSize) = .ok true)
      fun _ _ => True := by
    refine Act.Meets.of_runs ?_ fun _ _ _ _ _ => trivial
    intro flow items reached _ run some
    rcases Flow.pullValue_cases session (.number engine.chunkSize) flow with
      ⟨fault, failed⟩ | ⟨wanted, counted, _, pulls⟩
    · rw [failed] at run
      cases run
    · rw [pulls] at run
      cases run
      rw [← List.length_pos_iff, List.length_take] at some
      rw [List.length_take]
      exact countOf_atMost counted some
  refine Act.Meets.anything.bind fun session => ?_
  exact (onFlow_meets (pulled session)).bind fun items => Act.Meets.pure fun _ => id

end Pulling

/-- The next chunk, which is not empty and no larger than it may be, was dispatched: its items
are in bins or were delivered to failure. -/
structure Dispatched (engine : Engine) (before after : Depot) : Prop
    extends Isolated (engine.nextFindings before) before after, Accrued before after where
  notEmpty : engine.nextChunk before ≠ []
  atMost : (Value.int (engine.nextChunk before).length).isAtMost (.number engine.chunkSize) =
    .ok true
  found : (engine.nextFindings before).map Finding.item = engine.nextChunk before

/-- The answers that a schedule gave to an intake, and the chunks that were taken in turn. -/
inductive TakesIn (engine : Engine) : List Bool → List (List Item) → Depot → Depot → Prop
  /-- There is no room, or no further answer. -/
  | full (depot : Depot) : TakesIn engine [] [] depot depot
  | stopped (depot : Depot) : TakesIn engine [false] [] depot depot
  /-- Nothing waits. -/
  | exhausted {session : SessionId} {before after : Depot}
      (taken : takeChunk engine before = (.ok none, after))
      (drawn : before.Drawn session [] after) : TakesIn engine [true] [] before after
  | chunk {binned : Nat} {before between after : Depot} {asked : List Bool}
      {chunks : List (List Item)} (taken : takeChunk engine before = (.ok (some binned), between))
      (dispatched : Dispatched engine before between)
      (rest : TakesIn engine asked chunks between after) :
      TakesIn engine (true :: asked) (engine.nextChunk before :: chunks) before after

namespace TakesIn

variable {asked : List Bool} {chunks : List (List Item)}

theorem accrued (takes : TakesIn engine asked chunks before after) : before.Accrued after := by
  induction takes with
  | full | stopped => exact .of_same rfl rfl rfl rfl rfl
  | exhausted _ drawn => exact drawn.accrued
  | chunk _ dispatched _ ih => exact dispatched.toAccrued.trans ih

/-- Every chunk was allowed by an answer of its own. -/
theorem length_le (takes : TakesIn engine asked chunks before after) :
    chunks.length ≤ asked.count true := by
  induction takes with
  | full | stopped | exhausted => exact Nat.zero_le _
  | chunk _ _ _ ih =>
      rw [List.length_cons, List.count_cons_self]
      exact Nat.succ_le_succ ih

end TakesIn

section Intake

variable (behave : engine.hooks.Behave fun items => ∀ item ∈ items, item.HasWholeSize)
  (heed : engine.hooks.Heed)
include behave heed

theorem takeChunk_dispatches {binned : Nat} (sound : before.Sound (Flow.Coherent known) [])
    (taken : takeChunk engine before = (.ok (some binned), after)) :
    Dispatched engine before after := by
  have cohering := Flow.cohering_coherent known
  obtain ⟨found, unbound, bins, _, strayed⟩ :=
    takeChunk_strays cohering.carried (putKeeps_coherent known) behave sound taken
  obtain ⟨session, items, pulled, run, drawn, ⟨_, ⟨⟩, _⟩ | ⟨some, count, _, bins⟩⟩ :=
    takeChunk_eq_ok taken
  obtain ⟨atWork, whole⟩ := pullChunk_atWork cohering.carried sound run drawn
  obtain ⟨findings, sorted, stowed, sorts, _, isAfter, isItems, gathered, rights, moved⟩ :=
    binItems_stows cohering behave.versions heed atWork drawn.ids whole bins
  have isolated : Isolated findings before after :=
    isAfter ▸ Moved.isolated cohering sound (isItems ▸ drawn) gathered rights moved
  have shelved (group : Key) : before.shelf.binsOf group <+: after.shelf.binsOf group := by
    obtain ⟨cargo, hauled, _⟩ := moved.hauled
    rw [← drawn.shelf, ← gathered.adorned.shelf, isAfter]
    exact hauled.shelved group
  rw [nextFindings_eq run sorts] at found
  have atMost := (pullChunk_atMost engine).of_ok trivial run some
  refine ⟨?_, ⟨shelved, ⟨unbound, _, strayed⟩, isolated.success⟩, ?_, ?_, ?_⟩ <;>
    simp only [nextFindings_eq run sorts, nextChunk_eq run]
  exacts [isolated, some, atMost, isItems]

theorem intake_takesIn (answers : List Bool) {result : Nat × List Bool}
    (sound : before.Sound (Flow.Coherent known) [])
    (run : intake engine answers before = (.ok result, after)) :
    ∃ asked chunks, answers = asked ++ result.2 ∧ TakesIn engine asked chunks before after := by
  have rules := intakeRules (Flow.carried_coherent known) (putKeeps_coherent known)
    behave.preprocess behave.groupKey behave.versions
  induction answers generalizing before result with
  | nil =>
      cases run
      exact ⟨[], [], rfl, .full _⟩
  | cons scheduled rest ih =>
      rcases intake_answered engine scheduled before with
        ⟨_, _, ends⟩ | ⟨_, ends⟩ | ⟨rfl, ends⟩ | ⟨_, _, _, _, ends⟩ |
          ⟨reached, rfl, taken, ends⟩ | ⟨binned, between, _, rfl, taken, goes⟩
      · rw [ends] at run
        cases run
      · rw [ends] at run
        cases run
        exact ⟨[], [], rfl, .full _⟩
      · rw [ends] at run
        cases run
        exact ⟨[false], [], rfl, .stopped _⟩
      · rw [ends] at run
        cases run
      · rw [ends] at run
        cases run
        obtain ⟨session, items, pulled, _, drawn, ⟨rfl, _, rfl⟩ | ⟨_, _, ⟨⟩, _⟩⟩ :=
          takeChunk_eq_ok taken
        exact ⟨[true], [], rfl, .exhausted taken drawn⟩
      · rw [goes] at run
        obtain ⟨later, reached, intakes, ends⟩ := Act.bind_eq_ok run
        cases ends
        obtain ⟨asked, chunks, rfl, takes⟩ := ih (rules.takeChunk.of_ok sound taken) intakes
        exact ⟨true :: asked, _, rfl,
          .chunk taken (takeChunk_dispatches behave heed sound taken) takes⟩

theorem takeIn_takesIn (answers : List Bool) {result : Nat × List Bool}
    (sound : before.Sound (Flow.Coherent known) [])
    (run : takeIn engine answers before = (.ok result, after)) :
    ∃ asked chunks, answers = asked ++ result.2 ∧ TakesIn engine asked chunks before after := by
  obtain ⟨capacity, _, asks, run⟩ := Act.bind_eq_ok run
  obtain ⟨_, rfl⟩ := Prod.mk.inj asks
  cases capacity with
  | true => exact intake_takesIn behave heed answers sound run
  | false =>
      cases run
      exact ⟨[], [], rfl, .full _⟩

end Intake

/-- A schedule that stopped does not start again. -/
def StaysStopped (answers : List Bool) : Prop :=
  answers.Pairwise fun earlier later => later = true → earlier = true

instance (answers : List Bool) : Decidable (StaysStopped answers) :=
  inferInstanceAs (Decidable (answers.Pairwise _))

/-- The answers of its schedule that an activation hears unless it fails: those for its
chunks, and one before migration.  After the end of the list all answers are against it, and
of those only the last is heard. -/
def checks (engine : Engine) (answers : List Bool) (depot : Depot) : List Bool :=
  match takeIn engine answers depot with
  | (.ok (_, unused), _) => answers.take (answers.length - unused.length) ++ [unused.headD false]
  | (.error _, _) => []

theorem checks_eq {asked unused : List Bool} {binned : Nat}
    (taken : takeIn engine (asked ++ unused) before = (.ok (binned, unused), after)) :
    engine.checks (asked ++ unused) before = asked ++ [unused.headD false] := by
  unfold checks
  rw [taken]
  dsimp only
  rw [List.length_append, Nat.add_sub_cancel, List.take_left]

/-- If the schedule stopped during an intake, it is not scheduled after it. -/
theorem StaysStopped.headD {asked unused : List Bool} (stays : StaysStopped (asked ++ unused))
    (stopped : false ∈ asked ++ [unused.headD false]) : unused.headD false = false := by
  rcases unused with _ | ⟨_ | _, rest⟩
  · rfl
  · rfl
  · rcases List.mem_append.1 stopped with earlier | now
    · have agreed := (List.pairwise_append.1 stays).2.2 false earlier true (by simp) rfl
      cases agreed
    · simp at now

/-- From whatever state a run reaches, an activation that its schedule stopped is reported as
cancelled.  It took chunks in, at most one for each answer that allowed it, and each was
dispatched before the next answer; open bins stayed where they were, the processor was handed
nothing and success received nothing, and the queue grew at its end, by bins of items that
found no place. -/
theorem cancelled_between_chunks (engine : Engine)
    (behave : engine.hooks.Behave fun items => ∀ item ∈ items, item.HasWholeSize)
    (heed : engine.hooks.Heed) (source : List Item) (relationships : List String)
    (clock : Moment) (policy : Policy) (events : List Event) (answers : List Bool)
    (whole : ∀ item ∈ source ++ events.flatMap Event.items, item.HasWholeSize)
    (stays : StaysStopped answers) :
    let before := run engine
      (opening { source, sinks := Flow.sinksFor relationships } clock policy) events
    ∀ activation after, engine.activate answers before = (.ok activation, after) →
      false ∈ engine.checks answers before →
      activation.cancelled = true ∧ activation.isIdle = false ∧
      (∃ asked chunks, engine.checks answers before = asked ++ [false] ∧
        TakesIn engine asked chunks before after ∧ chunks.length ≤ asked.count true) ∧
      (∀ group, before.shelf.binsOf group <+: after.shelf.binsOf group) ∧
      after.handled = before.handled ∧
      after.flow.sinks.find? successRelationship =
        before.flow.sinks.find? successRelationship ∧
      (∃ unbound bins, before.Strayed unbound bins after) ∧
      after.counters.yields = before.counters.yields := by
  intro before activation after activates stopped
  have sound := coherent_after_run engine behave source relationships clock policy events whole
  have entered := (activate_entered answers).of_ok (entered_start before) activates
  rw [activate_eq] at activates
  obtain ⟨⟨itemsBinned, unused⟩, stocked, taken, rest⟩ := Act.bind_eq_ok activates
  obtain ⟨asked, chunks, rfl, takes⟩ := takeIn_takesIn behave heed answers sound taken
  have heard := checks_eq taken
  rw [heard] at stopped
  have last : unused.headD false = false := stays.headD stopped
  dsimp only at rest
  rw [last] at rest
  cases rest
  have accrued := takes.accrued
  have notIdle := @isIdle_of_cancelled { itemsBinned, cancelled := true } rfl
  obtain ⟨unbound, bins, strayed⟩ := accrued.strayed
  refine ⟨rfl, notIdle, ⟨asked, chunks, last ▸ heard, takes, takes.length_le⟩, accrued.shelved,
    strayed.handled, accrued.success, ⟨unbound, bins, strayed⟩, ?_⟩
  rw [entered.yields, notIdle]
  rfl

/-- One bin waits in the queue when an activation is stopped after two chunks; two of their
items fail, one is binned and one finds no place. -/
theorem cancelled_after_two_chunks :
    let source : List Item := [{ id := "x", size := .int 9 }]
    let events : List Event := [.activate [true],
      .put [{ id := "a" }, { id := "b" }, { id := "c" }, { id := "d", size := .int 9 },
        { id := "e" }]]
    let answers := [true, true, false, false]
    let before := run choosy (opening { source, sinks := Flow.sinksFor [] } {}
      { maxSize := some 4 }) events
    let after := (choosy.activate answers).final before
    choosy.checks answers before = [true, true, false] ++ [false] ∧
      (∃ chunks, TakesIn choosy [true, true, false] chunks before after ∧ chunks.length ≤ 2) ∧
      after.handled = before.handled ∧ after.counters.yields = before.counters.yields ∧
      before.ready = [1] ∧ ∃ unbound, before.Strayed unbound [4] after := by
  intro source events answers before after
  have whole : ∀ item ∈ source ++ events.flatMap Event.items, item.HasWholeSize := by
    simp only [source, events, Event.items, List.flatMap_cons, List.flatMap_nil,
      List.nil_append, List.append_nil, List.cons_append, List.forall_mem_cons]
    exact ⟨⟨9, rfl⟩, ⟨0, rfl⟩, ⟨0, rfl⟩, ⟨0, rfl⟩, ⟨9, rfl⟩, ⟨0, rfl⟩, List.forall_mem_nil _⟩
  have heard : choosy.checks answers before = [true, true, false] ++ [false] := by
    decide +kernel
  have ended : ((choosy.activate answers) before).1.toOption.isSome := by decide +kernel
  rcases activates : choosy.activate answers before with ⟨fault | activation, reached⟩ <;>
    rw [activates] at ended
  · cases ended
  have isAfter : after = reached := congrArg Prod.snd activates
  obtain ⟨_, _, ⟨asked, chunks, same, takes, atMost⟩, _, handled, _, ⟨unbound, bins, strayed⟩,
      yields⟩ :=
    cancelled_between_chunks choosy (behave_choosy _) mind_choosy.heed source [] {}
      { maxSize := some 4 } events answers whole (by decide) activation reached
      activates (by rw [heard]; decide)
  have waits : before.ready = [1] := by decide +kernel
  have queue : after.ready = [1] ++ [4] := by decide +kernel
  obtain rfl : [true, true, false] = asked :=
    List.append_cancel_right (heard.symm.trans same)
  obtain rfl : [4] = bins := by
    have grown : reached.ready = before.ready ++ bins := strayed.queue
    rw [← isAfter, queue, waits] at grown
    exact List.append_cancel_left grown
  rw [isAfter]
  exact ⟨heard, ⟨chunks, takes, atMost⟩, handled, yields, waits, unbound, strayed⟩

end Engine

end ItemBinning
