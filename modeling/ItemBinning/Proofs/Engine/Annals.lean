import ItemBinning.Proofs.Engine.Contents
import ItemBinning.Proofs.Engine.Deliveries

/-!
# Annals of a run

A note can be made of every chunk that is taken while an engine is run.  What the steps of
a run keep of the notes and the depot, one after the other, holds at every moment of a run:
between two events, between two chunks of an intake, and whenever a bin is handed to the
processor.  On the way all items are accounted for and the bins are well filled.
-/

namespace ItemBinning

open Depot

theorem Script.Uses.spares {α : Type} {script : Script α}
    (uses : script.Uses fun call => ∀ session, ¬ call.Moves session) (depot : Depot) :
    script.Spares depot := by
  induction script generalizing depot with
  | done | fail => trivial
  | look next ih => exact ih depot (uses depot) depot
  | call operation next ih =>
      exact ⟨fun session moves => absurd moves (uses.1 session), ih _ (uses.2 _) _⟩
  | pause rest ih => exact ih uses depot

theorem Call.Aside.not_moves {call : Call} (aside : call.Aside) (session : SessionId) :
    ¬ call.Moves session := by
  cases call with
  | createItem | advance | numberBundle | tally => exact False.elim
  | _ => exact aside.elim

theorem Call.Dresses.not_moves {session : SessionId} {id : String} {call : Call}
    (dresses : call.Dresses session id) (other : SessionId) : ¬ call.Moves other := by
  have still (aside : call.Aside) : ¬ call.Moves other := aside.not_moves other
  cases call with
  | annotate => exact False.elim
  | _ => exact still dresses

/-- Hooks that prepare items move none. -/
theorem Hooks.Prepare.spare {hooks : Hooks} (prepare : hooks.Prepare) (aside : SessionId) :
    hooks.Spare aside where
  preprocess item session depot _ _ :=
    ((prepare.preprocess item session).mono fun _ => Call.Dresses.not_moves).spares depot
  groupKey item depot _ :=
    ((prepare.groupKey item).mono fun _ => Call.Aside.not_moves).spares depot
  process bin depot _ _ :=
    ((prepare.process bin).mono fun _ => Call.Aside.not_moves).spares depot

/-- A sound depot is sound with any other property that its flow has. -/
theorem Depot.Sound.of_flow {property other : Flow → Prop} {inUse : List SessionId}
    {depot : Depot} (sound : depot.Sound property inUse) (holds : other depot.flow) :
    depot.Sound other inUse :=
  ⟨holds, sound.whole, sound.arranged, sound.queued, sound.weighed, sound.attended⟩

/-- The items that were given have distinct ids and are accounted for, and the bins are well
filled. -/
structure Depot.Maintained (known : List String) (given : List Item) (depot : Depot) : Prop where
  distinct : (given.map Item.id).Nodup
  tended : depot.Tended (.lenient {} 0) known (given.map Item.id)

/-- The depot after the processor answered about the bin and the bin was completed. -/
def Handing.completed (hooks : Hooks) (handing : Handing) : Depot :=
  Act.final (do
    let answer ← Act.attempt (hooks.process handing.bin).run
    Engine.settle handing.bin answer {}) handing.depot

namespace Engine

section Completion

variable {hooks : Hooks} {bin : BinId}

private theorem final_giveUp (first second : Activation) (depot : Depot) :
    (giveUp bin first).final depot = (giveUp bin second).final depot := by
  unfold Act.final giveUp
  rcases run : discard bin depot with ⟨fault | _, reached⟩
  · rw [Act.bind_of_error run, Act.bind_of_error run]
  · rw [Act.bind_of_ok run, Act.bind_of_ok run]
    rfl

/-- What an activation noted before does not matter to the completion of a bin. -/
theorem final_settle (answer : Except Fault (Option Outcome)) (first second : Activation)
    (depot : Depot) :
    (settle bin answer first).final depot = (settle bin answer second).final depot := by
  have marks {change : Counters → Counters} {one other : Activation} (reached : Depot) :
      Act.final (do mark bin .processed; count change; pure one : Act Depot Activation) reached =
        Act.final (do mark bin .processed; count change; pure other) reached := by
    unfold Act.final
    rcases run : mark bin .processed reached with ⟨fault | _, marked⟩
    · rw [Act.bind_of_error run, Act.bind_of_error run]
    · rw [Act.bind_of_ok run, Act.bind_of_ok run]
      rfl
  unfold settle
  split
  · rename_i outcome
    unfold succeed
    unfold Act.final
    rcases run : finalise bin outcome depot with ⟨fault | _, reached⟩ <;>
      rw [Act.bind_of_ok (Act.attempt_eq run), Act.bind_of_ok (Act.attempt_eq run)]
    · exact final_giveUp first second reached
    · exact marks reached
  · unfold Engine.fail
    unfold Act.final
    rcases run : deliver bin failureRelationship depot with ⟨fault | _, reached⟩ <;>
      rw [Act.bind_of_ok (Act.attempt_eq run), Act.bind_of_ok (Act.attempt_eq run)]
    · dsimp only
      split
      · exact final_giveUp first second reached
      · rfl
    · exact marks reached
  · exact final_giveUp first second depot

/-- What the processor answered decides how the bin is completed. -/
theorem completed_eq {handing : Handing} {answer : Except Fault (Option Outcome)}
    {reached : Depot} (run : (hooks.process handing.bin).run handing.depot = (answer, reached)) :
    handing.completed hooks = (settle handing.bin answer {}).final reached :=
  congrArg Prod.snd (Act.bind_of_ok (Act.attempt_eq run) fun answer =>
    settle handing.bin answer {})

theorem final_handle (activation : Activation) (depot : Depot) :
    (handle hooks bin activation).final depot = (handedOver bin depot).completed hooks := by
  have noted : noteHandled bin depot = (.ok (), (handedOver bin depot).depot) := rfl
  rcases run : (hooks.process bin).run (handedOver bin depot).depot with ⟨answer, reached⟩
  rw [completed_eq run]
  unfold Act.final handle
  rw [Act.bind_of_ok noted, Act.bind_of_ok (Act.attempt_eq run)]
  exact final_settle answer activation {} reached

end Completion

variable {α : Type} {engine : Engine} {known : List String} {given : List Item}
  {note : Depot → List α} {kept : List α → Depot → Prop} {noted : List α} {depot : Depot}

/-- What is noted of the chunks that an intake takes, each in the depot in which it is
pulled. -/
def intakeNotes (engine : Engine) (note : Depot → List α) : List Bool → Depot → List α
  | [], _ => []
  | scheduled :: rest, depot =>
      match scheduled, depot.shelf.hasRoom with
      | true, .ok true =>
          note depot ++
            match takeChunk engine depot with
            | (.ok (some _), reached) => intakeNotes engine note rest reached
            | _ => []
      | _, _ => []

/-- What is noted in an activation, whose intake may be skipped. -/
def takeInNotes (engine : Engine) (note : Depot → List α) (answers : List Bool) (depot : Depot) :
    List α :=
  match hasCapacity depot with
  | (.ok true, _) => engine.intakeNotes note answers depot
  | _ => []

/-- What is noted when an event is performed. -/
def Event.notes (engine : Engine) (note : Depot → List α) (depot : Depot) : Event → List α
  | .activate answers => engine.takeInNotes note answers depot
  | _ => []

/-- What is noted in a run. -/
def runNotes (engine : Engine) (note : Depot → List α) : Depot → List Event → List α
  | _, [] => []
  | depot, event :: rest =>
      event.notes engine note depot ++
        engine.runNotes note (event.perform engine depot) rest

/-- Every step of a run keeps a property of the notes and the depot, from where the bins are
well filled. -/
structure Keeping (engine : Engine) (known : List String) (note : Depot → List α)
    (kept : List α → Depot → Prop) : Prop where
  taken : ∀ given noted depot, depot.Maintained known given → kept noted depot →
    kept (noted ++ note depot) ((takeChunk engine).final depot)
  migrated : ∀ given noted depot, depot.Maintained known given → kept noted depot →
    kept noted (migrateBins.final depot)
  handled : ∀ given noted depot bin rest activation, depot.Maintained known given →
    kept noted depot → depot.ready = bin :: rest →
      kept noted ((handle engine.hooks bin activation).final { depot with ready := rest })
  counted : ∀ given noted depot counters, depot.Maintained known given → kept noted depot →
    kept noted { depot with counters }
  performed : ∀ given noted depot (event : Event), depot.Maintained known given →
    kept noted depot → (∀ answers, event ≠ .activate answers) →
      kept noted (event.perform engine depot)

section Maintenance

variable (prepare : engine.hooks.Prepare)
include prepare

theorem takeChunk_maintains : (takeChunk engine).Keeps (Maintained known given) := by
  apply Act.Keeps.of_final
  rintro depot ⟨distinct, tended⟩
  refine ⟨distinct, (accountedRules distinct prepare.behave).takeChunk.final tended.sound, ?_⟩
  exact takeChunk_stocks distinct prepare.behave (prepare.spare 0) tended
    (fun _ _ _ => trivial) fun _ _ => trivial

/-- A bin that is taken off the queue and handled leaves the rest of the queue, and the other
bins, as they are. -/
theorem handle_intact {property : Flow → Prop} (carried : Flow.Carried property)
    (sound : depot.Sound property []) {bin : BinId} {rest : List BinId}
    (isQueue : depot.ready = bin :: rest) (activation : Activation) :
    let after := (handle engine.hooks bin activation).final { depot with ready := rest }
    after.Sound property [] ∧ depot.Intact after ∧ after.ready = rest := by
  have spares (bin : BinId) (session : SessionId) (rest : List BinId) (between : Depot)
      (inHand : InHand property [session] bin session rest between) (_ : depot.Intact between) :
      between.Intact ((engine.hooks.process bin).run between).2 := by
    refine Script.run_intact (prepare.behave.process bin) ?_ ?_
    · exact ((prepare.process bin).mono fun _ => Call.Aside.not_moves).spares between
    · rintro _ ⟨⟩
      exact inHand.notStored
  have keptIntact : KeptIntact depot.Intact := fun _ _ intact kept => kept.trans intact
  obtain ⟨_, busy, done, rules, isBusy, completed⟩ :=
    exists_drainRules carried (putKeeps_nothing _) keptIntact prepare.behave.process spares bin
      rest depot ⟨⟨sound, .refl depot⟩, isQueue⟩
  have isDone : done ((handle engine.hooks bin activation).final { depot with ready := rest }) :=
    Act.Meets.final ((rules.handle activation).weaken (fun _ => id) (fun _ _ => And.left)
      fun _ _ => id) isBusy
  obtain ⟨⟨soundThen, intact⟩, left⟩ := completed _ isDone
  exact ⟨soundThen, intact, left⟩

theorem handle_maintains (maintained : depot.Maintained known given) {bin : BinId}
    {rest : List BinId} (isQueue : depot.ready = bin :: rest) (activation : Activation) :
    Maintained known given
        ((handle engine.hooks bin activation).final { depot with ready := rest }) ∧
      ((handle engine.hooks bin activation).final { depot with ready := rest }).ready = rest := by
  obtain ⟨sound, intact, left⟩ := handle_intact prepare
    (Flow.carried_accounted maintained.distinct) maintained.tended.sound isQueue activation
  exact ⟨⟨maintained.distinct, maintained.tended.step sound intact⟩, left⟩

omit prepare in
theorem migrateBins_maintains : migrateBins.Keeps (Maintained known given) := by
  apply Act.Keeps.of_final
  rintro depot ⟨distinct, tended⟩
  exact ⟨distinct, migrateBins_tended.final tended⟩

omit prepare in
theorem counted_maintained (maintained : depot.Maintained known given) (counters : Counters) :
    Maintained known given { depot with counters } where
  distinct := maintained.distinct
  tended := maintained.tended.step (maintained.tended.sound.of_same rfl rfl rfl rfl rfl)
    (count_intact (fun _ => counters) depot)

omit prepare in
/-- An event other than an activation leaves the bins as they are, or discards them all. -/
theorem Event.perform_intact {property : Flow → Prop} (sound : depot.Sound property [])
    {event : Event} (outside : ∀ answers, event ≠ .activate answers) :
    depot.Intact (event.perform engine depot) := by
  cases event with
  | activate answers => exact absurd rfl (outside answers)
  | reset => exact reset_intact sound
  | put | advance | applyPolicy | set =>
      exact .of_same rfl (Nat.le_refl _) (fun _ => id) (fun _ => id) fun _ _ => rfl

theorem Event.perform_maintains (maintained : depot.Maintained known given) {event : Event}
    (outside : ∀ answers, event ≠ .activate answers)
    (distinct : ((given ++ event.items).map Item.id).Nodup)
    (whole : ∀ item ∈ event.items, item.HasWholeSize) :
    Maintained known (given ++ event.items) (event.perform engine depot) := by
  have sound := maintained.tended.sound
  have conserved : depot.Sound (Flow.Conserved known depot.flow.sinks given) [] :=
    sound.of_flow ⟨fun _ => sound.flow, Flow.extends_refl depot.flow⟩
  have performed := event.perform_sound (Flow.tracked_conserved known depot.flow.sinks)
    (fun _ => putKeeps_nothing _) prepare.behave whole conserved
  exact ⟨distinct, accounted_of_conserved performed distinct,
    maintained.tended.stocked.intact (event.perform_intact sound outside)⟩

end Maintenance

/-- A property that stays when the bins are left intact is kept by a run if chunks keep it. -/
theorem Keeping.of_intact (prepare : engine.hooks.Prepare)
    (taken : ∀ given noted depot, depot.Maintained known given → kept noted depot →
      kept (noted ++ note depot) ((takeChunk engine).final depot))
    (intact : ∀ given noted (before after : Depot), before.Maintained known given →
      before.Intact after → kept noted before → kept noted after) :
    Keeping engine known note kept where
  taken := taken
  migrated given noted _ maintained :=
    intact given noted _ _ maintained (migrateBins_intact maintained.tended.sound.arranged)
  handled given noted _ _ _ activation maintained holds isQueue :=
    intact given noted _ _ maintained (handle_intact prepare
      (Flow.carried_accounted maintained.distinct) maintained.tended.sound isQueue
      activation).2.1 holds
  counted given noted depot counters maintained :=
    intact given noted _ _ maintained (count_intact (fun _ => counters) depot)
  performed given noted _ event maintained holds outside :=
    intact given noted _ _ maintained
      (event.perform_intact maintained.tended.sound outside) holds

/-- With the next answer of its schedule an intake takes a chunk, and goes on from there if
there was one. -/
theorem intake_final (scheduled : Bool) (rest : List Bool) (depot : Depot) :
    (intake engine (scheduled :: rest)).final depot =
      match scheduled, depot.shelf.hasRoom with
      | true, .ok true =>
          match takeChunk engine depot with
          | (.ok (some _), reached) => (intake engine rest).final reached
          | (_, reached) => reached
      | _, _ => depot := by
  unfold Act.final
  rw [intake_cons]
  rcases room : depot.shelf.hasRoom with fault | hasRoom
  · have asked : askShelf (·.hasRoom) depot = (.error fault, depot) := congrArg (·, depot) room
    rw [Act.bind_of_error asked]
    cases scheduled <;> rfl
  have asked : askShelf (·.hasRoom) depot = (.ok hasRoom, depot) := congrArg (·, depot) room
  rw [Act.bind_of_ok asked]
  cases hasRoom <;> cases scheduled <;> try rfl
  simp only [if_true]
  rcases taken : takeChunk engine depot with ⟨fault | (_ | binned), reached⟩
  · rw [Act.bind_of_error taken]
  · rw [Act.bind_of_ok taken]
    rfl
  · rw [Act.bind_of_ok taken]
    dsimp only
    rcases later : intake engine rest reached with ⟨fault | result, after⟩
    · rw [Act.bind_of_error later]
    · rw [Act.bind_of_ok later]
      rfl

section Keeping

variable (prepare : engine.hooks.Prepare) (keeping : Keeping engine known note kept)
include prepare keeping

theorem intake_keeping (answers : List Bool) (maintained : depot.Maintained known given)
    (holds : kept noted depot) :
    Maintained known given ((intake engine answers).final depot) ∧
      kept (noted ++ engine.intakeNotes note answers depot)
        ((intake engine answers).final depot) := by
  induction answers generalizing depot noted with
  | nil =>
      unfold intakeNotes
      rw [List.append_nil]
      exact ⟨maintained, holds⟩
  | cons scheduled rest ih =>
      have goesOn := (takeChunk_maintains prepare).final maintained
      have taken := keeping.taken given noted depot maintained holds
      rw [intake_final]
      unfold intakeNotes
      split
      · unfold Act.final at goesOn taken
        generalize takeChunk engine depot = result at goesOn taken ⊢
        rcases result with ⟨fault | (_ | binned), reached⟩
        · rw [List.append_nil]
          exact ⟨goesOn, taken⟩
        · rw [List.append_nil]
          exact ⟨goesOn, taken⟩
        · rw [← List.append_assoc]
          exact ih goesOn taken
      · rw [List.append_nil]
        exact ⟨maintained, holds⟩

theorem takeIn_keeping (answers : List Bool) (maintained : depot.Maintained known given)
    (holds : kept noted depot) :
    Maintained known given ((takeIn engine answers).final depot) ∧
      kept (noted ++ engine.takeInNotes note answers depot)
        ((takeIn engine answers).final depot) := by
  unfold takeInNotes takeIn
  rcases capacity : depot.shelf.hasRoom (depot.shelf.binCount + depot.ready.length) with
    fault | room
  · have asked : hasCapacity depot = (.error fault, depot) := congrArg (·, depot) capacity
    unfold Act.final
    rw [asked, Act.bind_of_error asked, List.append_nil]
    exact ⟨maintained, holds⟩
  · have asked : hasCapacity depot = (.ok room, depot) := congrArg (·, depot) capacity
    unfold Act.final
    rw [asked, Act.bind_of_ok asked]
    cases room with
    | true => exact intake_keeping prepare keeping answers maintained holds
    | false =>
        rw [List.append_nil]
        exact ⟨maintained, holds⟩

theorem drainBins_keeping (queue : List BinId) (activation : Activation)
    (maintained : depot.Maintained known given) (isQueue : depot.ready = queue)
    (holds : kept noted depot) :
    Maintained known given ((drainBins engine.hooks queue activation).final depot) ∧
      kept noted ((drainBins engine.hooks queue activation).final depot) := by
  induction queue generalizing activation depot with
  | nil => exact ⟨maintained, holds⟩
  | cons bin rest ih =>
      obtain ⟨goesOn, left⟩ := handle_maintains prepare maintained isQueue activation
      have handled := keeping.handled given noted depot bin rest activation maintained holds isQueue
      have takes : (Act.modify fun depot : Depot => { depot with ready := rest }) depot =
          (.ok (), { depot with ready := rest }) := rfl
      unfold drainBins
      unfold Act.final at goesOn left handled ih ⊢
      rw [Act.bind_of_ok takes]
      rcases run : handle engine.hooks bin activation { depot with ready := rest } with
        ⟨fault | reached, after⟩ <;> rw [run] at goesOn left handled
      · rw [Act.bind_of_error run]
        exact ⟨goesOn, handled⟩
      · rw [Act.bind_of_ok run]
        exact ih reached goesOn left handled

theorem drain_keeping (activation : Activation) (maintained : depot.Maintained known given)
    (holds : kept noted depot) :
    Maintained known given ((engine.drain activation).final depot) ∧
      kept noted ((engine.drain activation).final depot) :=
  drainBins_keeping prepare keeping depot.ready activation maintained rfl holds

theorem afterIntake_keeping (itemsBinned : Nat) (maintained : depot.Maintained known given)
    (holds : kept noted depot) :
    Maintained known given ((engine.afterIntake itemsBinned).final depot) ∧
      kept noted ((engine.afterIntake itemsBinned).final depot) := by
  have maintains := migrateBins_maintains.final maintained
  have migrated := keeping.migrated given noted depot maintained holds
  unfold Act.final afterIntake at *
  rcases run : migrateBins depot with ⟨fault | binsMigrated, reached⟩ <;>
    rw [run] at maintains migrated
  · rw [Act.bind_of_error run]
    exact ⟨maintains, migrated⟩
  · have ended := drain_keeping prepare keeping { itemsBinned, binsMigrated } maintains migrated
    unfold Act.final at ended
    rw [Act.bind_of_ok run]
    rcases last : engine.drain { itemsBinned, binsMigrated } reached with
      ⟨fault | activation, finished⟩ <;> rw [last] at ended
    · rw [Act.bind_of_error last]
      exact ended
    · rw [Act.bind_of_ok last]
      obtain ⟨counters, concluded⟩ := conclude_eq activation finished
      rw [concluded]
      exact ⟨counted_maintained ended.1 counters,
        keeping.counted given _ _ counters ended.1 ended.2⟩

theorem activate_keeping (answers : List Bool) (maintained : depot.Maintained known given)
    (holds : kept noted depot) :
    Maintained known given ((engine.activate answers).final depot) ∧
      kept (noted ++ engine.takeInNotes note answers depot)
        ((engine.activate answers).final depot) := by
  have taken := takeIn_keeping prepare keeping answers maintained holds
  unfold Act.final at *
  rw [activate_eq]
  rcases run : takeIn engine answers depot with ⟨fault | ⟨itemsBinned, unused⟩, reached⟩ <;>
    rw [run] at taken
  · rw [Act.bind_of_error run]
    exact taken
  · rw [Act.bind_of_ok run]
    dsimp only
    split
    · exact afterIntake_keeping prepare keeping itemsBinned taken.1 taken.2
    · exact taken

theorem Event.perform_keeping (event : Event) (maintained : depot.Maintained known given)
    (distinct : ((given ++ event.items).map Item.id).Nodup)
    (whole : ∀ item ∈ event.items, item.HasWholeSize) (holds : kept noted depot) :
    Maintained known (given ++ event.items) (event.perform engine depot) ∧
      kept (noted ++ event.notes engine note depot) (event.perform engine depot) := by
  have outside (isOutside : ∀ answers, event ≠ .activate answers)
      (none : event.notes engine note depot = []) :
      Maintained known (given ++ event.items) (event.perform engine depot) ∧
        kept (noted ++ event.notes engine note depot) (event.perform engine depot) := by
    rw [none, List.append_nil]
    exact ⟨event.perform_maintains prepare maintained isOutside distinct whole,
      keeping.performed given noted depot event maintained holds isOutside⟩
  cases event with
  | activate answers =>
      have activated := activate_keeping prepare keeping answers maintained holds
      rw [show given ++ (Event.activate answers).items = given from List.append_nil given]
      exact activated
  | reset | put | advance | applyPolicy | set => exact outside nofun rfl

theorem run_keeping (events : List Event) (maintained : depot.Maintained known given)
    (distinct : ((given ++ events.flatMap Event.items).map Item.id).Nodup)
    (whole : ∀ item ∈ events.flatMap Event.items, item.HasWholeSize) (holds : kept noted depot) :
    Maintained known (given ++ events.flatMap Event.items) (run engine depot events) ∧
      kept (noted ++ engine.runNotes note depot events) (run engine depot events) := by
  induction events generalizing depot given noted with
  | nil =>
      rw [List.flatMap_nil, List.append_nil]
      unfold runNotes
      rw [List.append_nil]
      exact ⟨maintained, holds⟩
  | cons event rest ih =>
      rw [List.flatMap_cons] at distinct whole ⊢
      rw [← List.append_assoc] at distinct ⊢
      have distinctNow : ((given ++ event.items).map Item.id).Nodup := by
        rw [List.map_append] at distinct
        exact distinct.of_append_left
      have performed := event.perform_keeping prepare keeping maintained distinctNow
        (fun item now => whole item (List.mem_append_left _ now)) holds
      unfold runNotes
      rw [← List.append_assoc]
      exact ih performed.1 distinct (fun item later => whole item (List.mem_append_right _ later))
        performed.2

end Keeping

theorem activate_maintains (prepare : engine.hooks.Prepare) (answers : List Bool) :
    (engine.activate answers).Keeps (Maintained known given) := by
  have anything : Keeping engine known (fun _ => ([] : List Unit)) fun _ _ => True :=
    ⟨fun _ _ _ _ => id, fun _ _ _ _ => id, fun _ _ _ _ _ _ _ holds _ => holds,
      fun _ _ _ _ _ => id, fun _ _ _ _ _ holds _ => holds⟩
  apply Act.Keeps.of_final
  intro depot maintained
  exact (@activate_keeping Unit engine known given _ _ [] depot prepare anything answers maintained
    trivial).1

section Handings

/-- Whatever all steps keep holds of the second depot if it holds of the first. -/
def LeadsTo (engine : Engine) (known : List String) (before after : Depot) : Prop :=
  ∀ kept : Depot → Prop,
    Keeping engine known (fun _ => ([] : List Unit)) (fun _ => kept) → kept before → kept after

/-- A bin that is handed over was the first of a queue, in a depot in which certain things
hold, and its completion led to where the activation ended. -/
def HandedFrom (engine : Engine) (known : List String) (given : List Item)
    (holds : Depot → Prop) (ended : Depot) (handing : Handing) : Prop :=
  ∃ between rest, between.Maintained known given ∧ holds between ∧
    between.ready = handing.bin :: rest ∧
    handing = handedOver handing.bin { between with ready := rest } ∧
    LeadsTo engine known (handing.completed engine.hooks) ended

theorem HandedFrom.counted {holds : Depot → Prop} {ended : Depot} {handing : Handing}
    (handed : HandedFrom engine known given holds ended handing)
    (maintained : ended.Maintained known given) (counters : Counters) :
    HandedFrom engine known given holds { ended with counters } handing := by
  obtain ⟨between, rest, isMaintained, isKept, isQueue, isHanding, leads⟩ := handed
  refine ⟨between, rest, isMaintained, isKept, isQueue, isHanding, fun kept keeping holds => ?_⟩
  exact keeping.counted given [] ended counters maintained (leads kept keeping holds)

variable (prepare : engine.hooks.Prepare) (keeping : Keeping engine known note kept)
include prepare keeping

theorem drainBins_handed (queue : List BinId) (activation : Activation)
    (maintained : depot.Maintained known given) (isQueue : depot.ready = queue)
    (holds : kept noted depot) :
    ∀ handing ∈ drainHandings engine.hooks queue activation depot,
      HandedFrom engine known given (kept noted)
        ((drainBins engine.hooks queue activation).final depot) handing := by
  induction queue generalizing activation depot with
  | nil => exact List.forall_mem_nil _
  | cons bin rest ih =>
      obtain ⟨goesOn, left⟩ := handle_maintains prepare maintained isQueue activation
      have handled := keeping.handled given noted depot bin rest activation maintained holds isQueue
      have takes : (Act.modify fun depot : Depot => { depot with ready := rest }) depot =
          (.ok (), { depot with ready := rest }) := rfl
      have first {ended : Depot} (leads : LeadsTo engine known
          ((handle engine.hooks bin activation).final { depot with ready := rest }) ended) :
          HandedFrom engine known given (kept noted) ended
            (handedOver bin { depot with ready := rest }) :=
        ⟨depot, rest, maintained, holds, isQueue, rfl, final_handle activation _ ▸ leads⟩
      unfold drainHandings drainBins
      rw [List.forall_mem_cons]
      unfold Act.final at goesOn left handled ih first ⊢
      rw [Act.bind_of_ok takes]
      rcases run : handle engine.hooks bin activation { depot with ready := rest } with
        ⟨fault | reached, after⟩ <;> rw [run] at goesOn left handled first
      · rw [Act.bind_of_error run]
        exact ⟨first fun _ _ => id, List.forall_mem_nil _⟩
      · rw [Act.bind_of_ok run]
        refine ⟨first fun other keepingOther holdsOther => ?_, ih reached goesOn left handled⟩
        exact (@drainBins_keeping Unit engine known given _ _ [] after prepare keepingOther rest
          reached goesOn left holdsOther).2

theorem afterIntake_handed (itemsBinned : Nat) (maintained : depot.Maintained known given)
    (holds : kept noted depot) :
    ∀ handing ∈ engine.laterHandings itemsBinned depot,
      HandedFrom engine known given (kept noted)
        ((engine.afterIntake itemsBinned).final depot) handing := by
  have maintains := migrateBins_maintains.final maintained
  have migrated := keeping.migrated given noted depot maintained holds
  unfold laterHandings
  unfold Act.final afterIntake at *
  rcases run : migrateBins depot with ⟨fault | binsMigrated, reached⟩ <;>
    rw [run] at maintains migrated
  · nofun
  · have ended := drain_keeping prepare keeping { itemsBinned, binsMigrated } maintains migrated
    have handed := drainBins_handed prepare keeping reached.ready { itemsBinned, binsMigrated }
      maintains rfl migrated
    have drains : engine.drain { itemsBinned, binsMigrated } reached =
        drainBins engine.hooks reached.ready { itemsBinned, binsMigrated } reached := rfl
    unfold Act.final at ended handed
    rw [← drains] at handed
    rw [Act.bind_of_ok run]
    rcases last : engine.drain { itemsBinned, binsMigrated } reached with
      ⟨fault | activation, finished⟩ <;> rw [last] at ended handed
    · rw [Act.bind_of_error last]
      exact handed
    · rw [Act.bind_of_ok last]
      obtain ⟨counters, concluded⟩ := conclude_eq activation finished
      rw [concluded]
      exact fun handing member => (handed handing member).counted ended.1 counters

/-- Every bin that an activation hands to the processor was the first of a queue, in a depot
of which all holds that the steps keep. -/
theorem activate_handed (answers : List Bool) (maintained : depot.Maintained known given)
    (holds : kept noted depot) :
    ∀ handing ∈ engine.handings answers depot,
      HandedFrom engine known given (kept (noted ++ engine.takeInNotes note answers depot))
        ((engine.activate answers).final depot) handing := by
  have taken := takeIn_keeping prepare keeping answers maintained holds
  unfold handings
  unfold Act.final at *
  rw [activate_eq]
  rcases run : takeIn engine answers depot with ⟨fault | ⟨itemsBinned, unused⟩, reached⟩ <;>
    rw [run] at taken
  · nofun
  · rw [Act.bind_of_ok run]
    dsimp only
    split
    · exact afterIntake_handed prepare keeping itemsBinned taken.1 taken.2
    · nofun

end Handings

/-- A run starts with all items on the source. -/
theorem maintained_opening {source : List Item} (relationships : List String) (clock : Moment)
    (policy : Policy) (distinct : (source.map Item.id).Nodup)
    (whole : ∀ item ∈ source, item.HasWholeSize) :
    (opening { source, sinks := Flow.sinksFor relationships } clock policy).Maintained
      (Flow.sinksFor relationships).keys source where
  distinct := distinct
  tended := by
    constructor
    · exact sound_opening clock policy (Flow.accounted_start source relationships)
        ⟨whole, nofun, nofun⟩ fun _ => rfl
    · exact .of_empty ⟨Nat.zero_le _, nofun⟩ (Nat.zero_le _) rfl rfl

end Engine

end ItemBinning
