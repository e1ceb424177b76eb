import ItemBinning.Proofs.Engine.Sorting
import ItemBinning.Proofs.Flow.Pulling

/-!
# Chunks of an intake

An intake takes one chunk after the other.  Cut after some answers of its schedule, it
either does not get beyond them or goes on with the rest from the depot it reached, and
where it fails, it fails in one chunk, all chunks before which were binned.
-/

namespace ItemBinning

namespace Depot

/-- A new session drew a chunk from the front of the source, and nothing else changed. -/
structure Drawn (session : SessionId) (chunk : List Item) (before after : Depot) : Prop where
  fresh : session = before.flow.sessions.next
  source : before.flow.source = chunk ++ after.flow.source
  sinks : after.flow.sinks = before.flow.sinks
  holder : after.flow.session session = Session.receivePulled {} chunk
  others : ∀ other, other ≠ session →
    after.flow.session other = before.flow.session other
  sessions : before.flow.sessions.next < after.flow.sessions.next
  rest : after = { before with flow := after.flow }
  distinct : (chunk.map Item.id).Nodup

namespace Drawn

variable {session : SessionId} {chunk : List Item} {before after : Depot}

theorem pulled (drawn : before.Drawn session chunk after) :
    (after.flow.session session).pulled.entries =
      chunk.map fun item => (item.id, item) := by
  rw [drawn.holder]
  exact (@Session.entries_receivePulled {} chunk drawn.distinct rfl).2

theorem current (drawn : before.Drawn session chunk after) :
    (after.flow.session session).current.entries =
      chunk.map fun item => (item.id, item) := by
  rw [drawn.holder]
  exact (@Session.entries_receivePulled {} chunk drawn.distinct rfl).1

/-- The session holds every item as it was pulled. -/
theorem held (drawn : before.Drawn session chunk after) :
    ∀ item ∈ chunk, (after.flow.session session).current.find? item.id = some item := by
  intro item member
  rw [Table.find?_eq_some_iff, drawn.current]
  exact List.mem_map_of_mem member

theorem ids (drawn : before.Drawn session chunk after) :
    (after.flow.session session).ids = chunk.map Item.id := by
  unfold Session.ids Table.keys
  rw [drawn.current, List.map_map]
  rfl

theorem shelf (drawn : before.Drawn session chunk after) : after.shelf = before.shelf := by
  rw [drawn.rest]

theorem ready (drawn : before.Drawn session chunk after) : after.ready = before.ready := by
  rw [drawn.rest]

theorem bin (drawn : before.Drawn session chunk after) (number : BinId) :
    after.bin number = before.bin number := by
  rw [drawn.rest]
  rfl

theorem next (drawn : before.Drawn session chunk after) :
    after.bins.next = before.bins.next := by
  rw [drawn.rest]

/-- No bin owns a session that was opened after all bins were created. -/
theorem loose {property : Flow → Prop} {inUse : List SessionId}
    (drawn : before.Drawn session chunk after) (sound : before.Sound property inUse) :
    after.Loose session where
  isOpened := by
    rw [drawn.fresh]
    exact drawn.sessions
  notOwned := by
    rintro ⟨bin, stored, same⟩
    unfold Stored at stored
    rw [drawn.shelf, drawn.ready] at stored
    rw [drawn.bin] at same
    have isBin := sound.arranged.registered.sessions bin (sound.isBin stored)
    rw [same, drawn.fresh] at isBin
    exact Nat.lt_irrefl _ isBin

end Drawn

end Depot

namespace Engine

open Depot

variable {engine : Engine}

/-- A chunk is drawn into a new session, or nothing waits to be drawn. -/
theorem pullChunk_cases (engine : Engine) (depot : Depot) :
    (∃ fault, pullChunk engine depot =
        (.error fault, { depot with
          flow := { depot.flow with sessions := depot.flow.sessions.push {} } })) ∨
      ∃ session chunk reached, pullChunk engine depot = (.ok (session, chunk), reached) ∧
        depot.Drawn session chunk reached := by
  obtain ⟨opened, isOpened⟩ : ∃ opened : Depot, opened = { depot with
      flow := { depot.flow with sessions := depot.flow.sessions.push {} } } := ⟨_, rfl⟩
  have opens : onFlow Flow.openSession depot = (.ok depot.flow.sessions.next, opened) := by
    rw [onFlow_eq (Flow.openSession_eq depot.flow), isOpened]
  have held (number : SessionId) :
      opened.flow.session number = depot.flow.session number := by
    rw [isOpened]
    exact Flow.session_push depot.flow number
  have empty : opened.flow.session depot.flow.sessions.next = {} := by
    rw [held]
    exact Slots.get_of_next_le (Nat.le_refl _)
  unfold pullChunk
  rw [Act.bind_of_ok opens]
  rcases Flow.pullValue_cases depot.flow.sessions.next (.number engine.chunkSize)
    opened.flow with ⟨fault, run⟩ | ⟨wanted, _, fresh, run⟩
  · left
    rw [Act.bind_of_error (onFlow_eq run), ← isOpened]
    exact ⟨fault, rfl⟩
  · right
    rw [Act.bind_of_ok (onFlow_eq run)]
    refine ⟨_, _, _, rfl, rfl, ?_, ?_, ?_, ?_, ?_, ?_, ?_⟩
    · rw [Flow.source_setSession, isOpened]
      exact (List.take_append_drop _ _).symm
    · rw [Flow.sinks_setSession, isOpened]
    · dsimp only
      rw [Flow.session_setSession, if_pos rfl, empty]
    · intro other differs
      dsimp only
      rw [Flow.session_setSession, if_neg differs]
      exact held other
    · dsimp only
      rw [Flow.sessions_setSession, isOpened, Slots.next_set, Slots.next_push]
      omega
    · rw [isOpened]
    · have ids := Session.ids_receivePulled fresh
      rw [empty] at ids
      have nodup := Session.nodup_ids (Session.receivePulled {}
        (opened.flow.source.take wanted.toNat))
      rw [ids] at nodup
      exact nodup

/-- A whole number of items can always be pulled from a source of distinct ids. -/
theorem pullChunk_draws {size : Int} (isSize : engine.chunkSize = .int size) {depot : Depot}
    (distinct : (depot.flow.source.map Item.id).Nodup) :
    ∃ session pulled, pullChunk engine depot =
      (.ok (session, depot.flow.source.take size.toNat), pulled) := by
  have opens : onFlow Flow.openSession depot = (.ok depot.flow.sessions.next, { depot with
      flow := { depot.flow with sessions := depot.flow.sessions.push {} } }) :=
    onFlow_eq (Flow.openSession_eq depot.flow)
  unfold pullChunk
  rw [Act.bind_of_ok opens, isSize]
  obtain ⟨flow, isFlow⟩ : ∃ flow : Flow, flow =
      { depot.flow with sessions := depot.flow.sessions.push {} } := ⟨_, rfl⟩
  have fresh : Flow.firstRepeated (flow.session depot.flow.sessions.next).ids
      (flow.source.take size.toNat) = none := by
    rw [isFlow, Flow.ids_opened]
    refine Flow.firstRepeated_eq_none ?_
    exact distinct.sublist ((List.take_sublist _ _).map _)
  have run : Flow.pullValue depot.flow.sessions.next (.number (.int size)) flow =
      (.ok (flow.source.take size.toNat), flow.pulled depot.flow.sessions.next size.toNat) := by
    have pulls := Flow.pull_eq depot.flow.sessions.next size flow
    rwa [fresh] at pulls
  have pulled := @onFlow_eq _ _ { depot with flow } _ _ run
  have source : flow.source = depot.flow.source := by rw [isFlow]
  rw [← isFlow, Act.bind_of_ok pulled, source]
  exact ⟨_, _, rfl⟩

theorem pullChunk_drawn {size : Int} (isSize : engine.chunkSize = .int size) {depot : Depot}
    (distinct : (depot.flow.source.map Item.id).Nodup) :
    ∃ session pulled, pullChunk engine depot =
        (.ok (session, depot.flow.source.take size.toNat), pulled) ∧
      depot.Drawn session (depot.flow.source.take size.toNat) pulled := by
  obtain ⟨session, pulled, run⟩ := pullChunk_draws isSize distinct
  refine ⟨session, pulled, run, ?_⟩
  rcases pullChunk_cases engine depot with ⟨_, fails⟩ | ⟨_, _, _, draws, drawn⟩
  · rw [run] at fails
    cases fails
  · rw [run] at draws
    cases draws
    exact drawn

theorem pullChunk_atWork {property : Flow → Prop}
    {session : SessionId} (carried : Flow.Carried property) {before pulled : Depot}
    (sound : before.Sound property []) {items : List Item}
    (run : pullChunk engine before = (.ok (session, items), pulled))
    (drawn : before.Drawn session items pulled) :
    pulled.AtWork property session ∧ ∀ item ∈ items, item.HasWholeSize := by
  have kept := (pullChunk_sound carried engine).of_ok sound run
  exact ⟨⟨kept.2.1, drawn.loose sound⟩, kept.2.2⟩

/-- The items that are pulled next. -/
def nextChunk (engine : Engine) (depot : Depot) : List Item :=
  match pullChunk engine depot with
  | (.ok (_, items), _) => items
  | (.error _, _) => []

/-- The findings on the items that are pulled next. -/
def nextFindings (engine : Engine) (depot : Depot) : List Finding :=
  match pullChunk engine depot with
  | (.ok (session, items), pulled) =>
      match sortItems engine.hooks session items pulled with
      | (.ok findings, _) => findings
      | (.error _, _) => []
  | (.error _, _) => []

theorem nextChunk_eq {depot pulled : Depot} {session : SessionId} {items : List Item}
    (run : pullChunk engine depot = (.ok (session, items), pulled)) :
    engine.nextChunk depot = items := by
  unfold nextChunk
  rw [run]

/-- The items that are pulled next are drawn into a new session, if there are any. -/
theorem nextChunk_cases (engine : Engine) (depot : Depot) :
    engine.nextChunk depot = [] ∨ ∃ session pulled,
      pullChunk engine depot = (.ok (session, engine.nextChunk depot), pulled) ∧
        depot.Drawn session (engine.nextChunk depot) pulled := by
  rcases pullChunk_cases engine depot with ⟨fault, run⟩ | ⟨session, items, pulled, run, drawn⟩
  · left
    unfold nextChunk
    rw [run]
  · right
    rw [nextChunk_eq run]
    exact ⟨session, pulled, run, drawn⟩

theorem nextFindings_eq {depot pulled sorted : Depot} {session : SessionId}
    {items : List Item} {findings : List Finding}
    (run : pullChunk engine depot = (.ok (session, items), pulled))
    (sorts : sortItems engine.hooks session items pulled = (.ok findings, sorted)) :
    engine.nextFindings depot = findings := by
  unfold nextFindings
  rw [run]
  dsimp only
  rw [sorts]

/-- A chunk is binned, or what is left of it returns. -/
theorem binChunk_apply (hooks : Hooks) (session : SessionId) (items : List Item)
    (depot : Depot) :
    binChunk hooks session items depot =
      match binItems hooks session items depot with
      | (.ok binned, reached) => (.ok binned, reached)
      | (.error fault, reached) =>
          (.error fault, { reached with flow := reached.flow.returned session }) := by
  unfold binChunk
  rcases run : binItems hooks session items depot with ⟨fault | binned, reached⟩
  · rw [Act.bind_of_ok (Act.attempt_eq run)]
    rfl
  · rw [Act.bind_of_ok (Act.attempt_eq run)]
    rfl

/-- Pull a chunk and bin it, and answer with the number of items that were binned, or
with nothing if none were pulled. -/
def takeChunk (engine : Engine) : Act Depot (Option Nat) := do
  let (session, items) ← pullChunk engine
  if items.isEmpty then pure none
  else do
    let binned ← binChunk engine.hooks session items
    pure (some binned)

/-- What becomes of the next chunk. -/
inductive Chunked (engine : Engine) (depot : Depot) : Except Fault (Option Nat) × Depot → Prop
  | unpulled (fault : Fault) (reached : Depot)
      (run : pullChunk engine depot = (.error fault, reached))
      (opened : reached = { depot with
        flow := { depot.flow with sessions := depot.flow.sessions.push {} } }) :
      Chunked engine depot (.error fault, reached)
  | exhausted (session : SessionId) (reached : Depot)
      (drawn : depot.Drawn session [] reached) : Chunked engine depot (.ok none, reached)
  /-- What is left of the chunk returns. -/
  | failed (session : SessionId) (items : List Item) (pulled stopped : Depot) (fault : Fault)
      (run : pullChunk engine depot = (.ok (session, items), pulled))
      (drawn : depot.Drawn session items pulled)
      (bins : binItems engine.hooks session items pulled = (.error fault, stopped)) :
      Chunked engine depot
        (.error fault, { stopped with flow := stopped.flow.returned session })
  | binned (session : SessionId) (items : List Item) (pulled reached : Depot) (binned : Nat)
      (run : pullChunk engine depot = (.ok (session, items), pulled))
      (drawn : depot.Drawn session items pulled)
      (bins : binItems engine.hooks session items pulled = (.ok binned, reached)) :
      Chunked engine depot (.ok (some binned), reached)

theorem takeChunk_chunked (engine : Engine) (depot : Depot) :
    Chunked engine depot (takeChunk engine depot) := by
  unfold takeChunk
  rcases pullChunk_cases engine depot with ⟨fault, run⟩ | ⟨session, items, pulled, run, drawn⟩
  · rw [Act.bind_of_error run]
    exact .unpulled fault _ run rfl
  · rw [Act.bind_of_ok run]
    dsimp only
    split
    · rename_i none
      rw [List.isEmpty_iff.1 none] at drawn
      exact .exhausted session pulled drawn
    · have chunk := binChunk_apply engine.hooks session items pulled
      rcases bins : binItems engine.hooks session items pulled with ⟨fault | binned, reached⟩ <;>
        rw [bins] at chunk
      · rw [Act.bind_of_error chunk]
        exact .failed session items pulled reached fault run drawn bins
      · rw [Act.bind_of_ok chunk]
        exact .binned session items pulled reached binned run drawn bins

/-- A chunk that was taken was drawn, and if there were items in it, it was binned. -/
theorem takeChunk_eq_ok {depot after : Depot} {answer : Option Nat}
    (taken : takeChunk engine depot = (.ok answer, after)) :
    ∃ session items pulled, pullChunk engine depot = (.ok (session, items), pulled) ∧
      depot.Drawn session items pulled ∧
      ((items = [] ∧ answer = none ∧ after = pulled) ∨
        items ≠ [] ∧ ∃ binned, answer = some binned ∧
          binItems engine.hooks session items pulled = (.ok binned, after)) := by
  rcases pullChunk_cases engine depot with ⟨_, run⟩ | ⟨session, items, pulled, run, drawn⟩ <;>
    unfold takeChunk at taken
  · rw [Act.bind_of_error run] at taken
    cases taken
  refine ⟨session, items, pulled, run, drawn, ?_⟩
  rw [Act.bind_of_ok run] at taken
  dsimp only at taken
  split at taken
  · rename_i none
    cases taken
    exact .inl ⟨List.isEmpty_iff.1 none, rfl, rfl⟩
  · rename_i some
    obtain ⟨binned, reached, bins, ends⟩ := Act.bind_eq_ok taken
    cases ends
    refine .inr ⟨fun none => some (List.isEmpty_iff.2 none), binned, rfl, ?_⟩
    rw [binChunk_apply] at bins
    split at bins
    · rename_i isRun
      rwa [← bins]
    · cases bins

theorem IntakeRules.takeChunk {idle : Depot → Prop} {busy : SessionId → Depot → Prop}
    {good : Item → Prop} (rules : IntakeRules engine idle busy good) :
    (takeChunk engine).Keeps idle := by
  refine Act.Meets.bind rules.pulled fun chunk => ?_
  obtain ⟨session, items⟩ := chunk
  dsimp only
  split
  · rename_i none
    exact Act.Meets.pure fun _ holds => holds.1 (List.isEmpty_iff.1 none)
  · refine Act.Meets.bind ?_ fun _ => Act.Meets.pure fun _ => id
    intro depot holds
    exact rules.binChunk session items holds.2.2 depot holds.2.1

theorem intake_cons (engine : Engine) (scheduled : Bool) (rest : List Bool) :
    intake engine (scheduled :: rest) = (do
      if ← askShelf (·.hasRoom) then
        if scheduled then
          match ← takeChunk engine with
          | none => pure (0, rest)
          | some binned => do
              let (more, unused) ← intake engine rest
              pure (binned + more, unused)
        else pure (0, rest)
      else pure (0, scheduled :: rest)) := by
  conv_lhs => unfold intake
  congr 1
  funext room
  split
  · split
    · unfold takeChunk
      rw [bind_assoc]
      congr 1
      funext chunk
      obtain ⟨session, items⟩ := chunk
      dsimp only
      split
      · rfl
      · rw [bind_assoc]
        rfl
    · rfl
  · rfl

/-- An intake keeps what is kept by taking a chunk. -/
theorem intake_keeps {kept : Depot → Prop} (takes : (takeChunk engine).Keeps kept)
    (answers : List Bool) : (intake engine answers).Keeps kept := by
  induction answers with
  | nil => exact Act.Keeps.pure _
  | cons scheduled rest ih =>
      rw [intake_cons]
      refine (Act.Keeps.look _).bind fun room => ?_
      split
      · split
        · refine takes.bind fun taken => ?_
          split
          · exact Act.Keeps.pure _
          · exact ih.bind fun _ => Act.Keeps.pure _
        · exact Act.Keeps.pure _
      · exact Act.Keeps.pure _

/-- What becomes of the next answer of a schedule, whatever answers follow it. -/
inductive Answered (engine : Engine) (scheduled : Bool) (depot : Depot) : Prop
  /-- The shelf cannot tell whether it has room. -/
  | refused (fault : Fault) (room : depot.shelf.hasRoom = .error fault)
      (run : ∀ rest, intake engine (scheduled :: rest) depot = (.error fault, depot))
  /-- The shelf is full. -/
  | full (room : depot.shelf.hasRoom = .ok false)
      (run : ∀ rest, intake engine (scheduled :: rest) depot =
        (.ok (0, scheduled :: rest), depot))
  /-- The intake is stopped. -/
  | stopped (notScheduled : scheduled = false)
      (run : ∀ rest, intake engine (scheduled :: rest) depot = (.ok (0, rest), depot))
  | failed (fault : Fault) (reached : Depot) (isScheduled : scheduled = true)
      (taken : takeChunk engine depot = (.error fault, reached))
      (run : ∀ rest, intake engine (scheduled :: rest) depot = (.error fault, reached))
  /-- Nothing waits. -/
  | exhausted (reached : Depot) (isScheduled : scheduled = true)
      (taken : takeChunk engine depot = (.ok none, reached))
      (run : ∀ rest, intake engine (scheduled :: rest) depot = (.ok (0, rest), reached))
  | binned (binned : Nat) (reached : Depot) (room : depot.shelf.hasRoom = .ok true)
      (isScheduled : scheduled = true)
      (taken : takeChunk engine depot = (.ok (some binned), reached))
      (run : ∀ rest, intake engine (scheduled :: rest) depot =
        (intake engine rest >>= fun later => pure (binned + later.1, later.2)) reached)

theorem intake_answered (engine : Engine) (scheduled : Bool) (depot : Depot) :
    Answered engine scheduled depot := by
  rcases room : depot.shelf.hasRoom with fault | hasRoom
  · have asked : askShelf (·.hasRoom) depot = (.error fault, depot) :=
      congrArg (·, depot) room
    refine .refused fault room fun rest => ?_
    rw [intake_cons, Act.bind_of_error asked]
  have asked : askShelf (·.hasRoom) depot = (.ok hasRoom, depot) := congrArg (·, depot) room
  cases hasRoom with
  | false =>
      refine .full room fun rest => ?_
      rw [intake_cons, Act.bind_of_ok asked]
      rfl
  | true =>
      cases scheduled with
      | false =>
          refine .stopped rfl fun rest => ?_
          rw [intake_cons, Act.bind_of_ok asked]
          rfl
      | true =>
          rcases taken : takeChunk engine depot with ⟨fault | (_ | binned), reached⟩
          · refine .failed fault reached rfl taken fun rest => ?_
            rw [intake_cons, Act.bind_of_ok asked]
            exact Act.bind_of_error taken _
          · refine .exhausted reached rfl taken fun rest => ?_
            rw [intake_cons, Act.bind_of_ok asked]
            exact Act.bind_of_ok taken _
          · refine .binned binned reached room rfl taken fun rest => ?_
            rw [intake_cons, Act.bind_of_ok asked]
            exact Act.bind_of_ok taken _

/-- An intake that fails does so in one chunk, after all earlier ones were binned. -/
theorem intake_failed {answers : List Bool} {depot reached : Depot} {fault : Fault}
    (failed : intake engine answers depot = (.error fault, reached)) :
    ∃ earlier later binned before, ∃ answer, answers = earlier ++ answer :: later ∧
      intake engine earlier depot = (.ok (binned, []), before) ∧
      ((before.shelf.hasRoom = .error fault ∧ reached = before) ∨
        answer = true ∧ takeChunk engine before = (.error fault, reached)) := by
  induction answers generalizing depot with
  | nil => cases failed
  | cons scheduled rest ih =>
      rcases intake_answered engine scheduled depot with
        ⟨_, room, run⟩ | ⟨_, run⟩ | ⟨_, run⟩ | ⟨_, _, isScheduled, taken, run⟩ | ⟨_, _, _, run⟩ |
          ⟨binned, between, _, _, _, run⟩ <;>
        rw [run] at failed
      · cases failed
        exact ⟨[], rest, 0, _, scheduled, rfl, rfl, .inl ⟨room, rfl⟩⟩
      · cases failed
      · cases failed
      · cases failed
        exact ⟨[], rest, 0, depot, scheduled, rfl, rfl, .inr ⟨isScheduled, taken⟩⟩
      · cases failed
      · rcases later : intake engine rest between with ⟨other | ⟨more, unused⟩, after⟩
        · rw [Act.bind_of_error later] at failed
          cases failed
          obtain ⟨earlier, rest, more, before, answer, rfl, began, stops⟩ := ih later
          refine ⟨scheduled :: earlier, rest, binned + more, before, answer, rfl, ?_, stops⟩
          rw [run, Act.bind_of_ok began]
          rfl
        · rw [Act.bind_of_ok later] at failed
          cases failed

theorem exists_hasRoom {shelf : Shelf} (whole : shelf.thresholds.Whole) (count : Nat) :
    ∃ room, shelf.hasRoom count = .ok room := by
  obtain ⟨most, isMost⟩ := whole.maxBinCount
  exact ⟨_, by rw [Shelf.hasRoom, isMost, Value.isBelow_int]⟩

theorem takeIn_failed {answers : List Bool} {depot reached : Depot} {fault : Fault}
    (whole : depot.shelf.thresholds.Whole)
    (failed : takeIn engine answers depot = (.error fault, reached)) :
    ∃ earlier later binned before, ∃ answer, answers = earlier ++ answer :: later ∧
      takeIn engine earlier depot = (.ok (binned, []), before) ∧
      ((before.shelf.hasRoom = .error fault ∧ reached = before) ∨
        answer = true ∧ takeChunk engine before = (.error fault, reached)) := by
  obtain ⟨capacity, isCapacity⟩ :=
    exists_hasRoom whole (depot.shelf.binCount + depot.ready.length)
  have asked : hasCapacity depot = (.ok capacity, depot) := congrArg (·, depot) isCapacity
  have runs (answers : List Bool) : takeIn engine answers depot =
      (if capacity then intake engine answers else pure (0, answers)) depot :=
    Act.bind_of_ok asked _
  rw [runs] at failed
  cases capacity with
  | false => cases failed
  | true =>
      obtain ⟨earlier, later, binned, before, answer, isSchedule, began, stops⟩ :=
        intake_failed failed
      exact ⟨earlier, later, binned, before, answer, isSchedule,
        (runs earlier).trans began, stops⟩

end Engine

end ItemBinning
