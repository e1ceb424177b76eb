import ItemBinning.Engine.Drain
import ItemBinning.Proofs.Flow.Delivery
import ItemBinning.Proofs.Shelf.Departure

/-!
# The outcomes of a drained queue

A processor that answers by the bin alone decides what becomes of each bin: its
items are delivered to success with the attributes of the outcome, or to failure
as they are, or go back to the source as they were pulled.  When every session
holds just the contents of its bin, none of the three can fail, so the whole queue
is drained and each bin has its own outcome, whatever becomes of the others.
-/

namespace ItemBinning

/-- What a processor's answer means for a bin. -/
inductive Verdict
  | processed (attributes : Attributes)
  | failed
  | rolledBack

namespace Verdict

/-- The verdict that an answer stands for: an outcome, the recoverable fault, or
anything else. -/
def of : Except Fault (Option Outcome) → Verdict
  | .ok (some outcome) => .processed outcome.attributes
  | .error .recoverable => .failed
  | _ => .rolledBack

/-- The items that a relationship receives from a bin. -/
def sends (verdict : Verdict) (relationship : String) (items : List Item) : List Item :=
  match verdict with
  | .processed attributes =>
      if relationship = successRelationship then items.map (·.withAttributes attributes)
      else []
  | .failed => if relationship = failureRelationship then items else []
  | .rolledBack => []

/-- The items that return to the source, given the versions that were pulled. -/
def returns (verdict : Verdict) (pulled : List Item) : List Item :=
  match verdict with
  | .rolledBack => pulled
  | _ => []

/-- The last state of the bin. -/
def state : Verdict → BinState
  | .rolledBack => .rolledBack
  | _ => .processed

/-- The activation with the bin noted. -/
def note (verdict : Verdict) (activation : Activation) : Activation :=
  match verdict with
  | .processed _ => { activation with binsProcessed := activation.binsProcessed + 1 }
  | .failed => { activation with binsFailed := activation.binsFailed + 1 }
  | .rolledBack => { activation with binsRolledBack := activation.binsRolledBack + 1 }

/-- The counters with the bin counted. -/
def count (verdict : Verdict) (counters : Counters) : Counters :=
  match verdict with
  | .processed _ => { counters with binsProcessed := counters.binsProcessed + 1 }
  | .failed => { counters with binsFailed := counters.binsFailed + 1 }
  | .rolledBack => { counters with binsRolledBack := counters.binsRolledBack + 1 }

/-- The flow after the session of the bin was completed. -/
def complete (verdict : Verdict) (flow : Flow) (session : SessionId) : Flow :=
  match verdict with
  | .processed attributes =>
      flow.sent session successRelationship
        ((flow.session session).items.map (·.withAttributes attributes))
  | .failed => flow.sent session failureRelationship (flow.session session).items
  | .rolledBack => flow.returned session

section Complete

variable (verdict : Verdict) (flow : Flow) (session : SessionId)

theorem source_complete : (verdict.complete flow session).source =
    verdict.returns (flow.session session).pulled.values ++ flow.source := by
  cases verdict <;> rfl

theorem sinks_complete : (verdict.complete flow session).sinks =
    flow.sinks.mapValues fun relationship received =>
      received ++ verdict.sends relationship (flow.session session).items := by
  cases verdict with
  | processed | failed => rfl
  | rolledBack => simp [complete, sends, Flow.returned, Table.mapValues_self]

theorem session_complete_ne {other : SessionId} (differs : other ≠ session) :
    (verdict.complete flow session).session other = flow.session other := by
  cases verdict <;>
    exact (Flow.session_setSession _ _ _ _).trans (if_neg differs)

theorem session_complete_self :
    ((verdict.complete flow session).session session).current = .empty ∧
      ((verdict.complete flow session).session session).pulled = .empty := by
  cases verdict <;>
    simp [complete, Flow.sent, Flow.returned, Session.clear]

theorem next_complete (filled : session < flow.sessions.next) :
    (verdict.complete flow session).sessions.next = flow.sessions.next := by
  cases verdict <;> exact Slots.next_set_of_lt filled _

end Complete

end Verdict

namespace Depot

/-- A ready bin whose session holds its contents, in their order, and no more. -/
structure Packed (depot : Depot) (bin : BinId) : Prop where
  isBin : bin < depot.bins.next
  isSession : (depot.bin bin).session < depot.flow.sessions.next
  ready : (depot.bin bin).state = .ready
  current : (depot.binSession bin).current.keys = (depot.bin bin).contents.map Item.id
  pulled : (depot.binSession bin).pulled.keys = (depot.bin bin).contents.map Item.id

/-- Nothing else matters to a packed bin but its record and its session. -/
theorem Packed.kept {before after : Depot} {bin : BinId} (packed : before.Packed bin)
    (bins : after.bins.next = before.bins.next)
    (sessions : after.flow.sessions.next = before.flow.sessions.next)
    (sameBin : after.bin bin = before.bin bin)
    (current : (after.binSession bin).current = (before.binSession bin).current)
    (pulled : (after.binSession bin).pulled = (before.binSession bin).pulled) :
    after.Packed bin where
  isBin := by
    rw [bins]
    exact packed.isBin
  isSession := by
    rw [sameBin, sessions]
    exact packed.isSession
  ready := by
    rw [sameBin]
    exact packed.ready
  current := by
    rw [sameBin, current]
    exact packed.current
  pulled := by
    rw [sameBin, pulled]
    exact packed.pulled

end Depot

namespace Engine

open Depot

variable {depot : Depot} {bin : BinId}

private theorem forEach_annotate {session : SessionId} (attributes : Attributes)
    (items : List Item) (filled : session < depot.flow.sessions.next)
    (held : ∀ item ∈ items, item.id ∈ (depot.flow.session session).ids) :
    Act.forEach items (fun item => do
        let _ ← onFlow (Flow.annotate session item attributes)
        pure ()) depot =
      (.ok (), { depot with
        flow := depot.flow.setSession session
          ((depot.flow.session session).annotated (items.map Item.id) attributes) }) := by
  induction items generalizing depot with
  | nil =>
      have same : depot.flow.setSession session
          ((depot.flow.session session).annotated [] attributes) = depot.flow := by
        rw [Session.annotated_nil, Flow.setSession_session filled]
      rw [List.map_nil, same]
      rfl
  | cons item rest ih =>
      rcases Flow.annotate_cases session item attributes depot.flow with
        ⟨absent, _⟩ | ⟨current, found, run⟩
      · obtain ⟨current, found⟩ := Session.mem_ids_iff.1 (held item (by simp))
        exact absurd (found.symm.trans absent) nofun
      · have first := onFlow_eq run
        unfold Act.forEach
        rw [bind_assoc, Act.bind_of_ok first]
        refine (ih ((Flow.next_setSession filled _).symm ▸ filled) ?_).trans ?_
        · intro other member
          rw [Flow.session_setSession_self, Session.ids_update (Session.mem_ids_iff.2 ⟨_, found⟩)]
          exact held other (List.mem_cons_of_mem _ member)
        · dsimp only
          rw [Flow.setSession_setSession, Flow.session_setSession_self,
            Session.annotated_put _ attributes found]
          rfl

theorem annotateAll_eq (packed : depot.Packed bin) (attributes : Attributes) :
    annotateAll bin attributes depot = (.ok (), { depot with
      flow := depot.flow.setSession (depot.bin bin).session
        ((depot.binSession bin).annotated ((depot.bin bin).contents.map Item.id)
          attributes) }) := by
  unfold annotateAll
  rw [Act.read_bind]
  refine forEach_annotate attributes _ packed.isSession fun item member => ?_
  change item.id ∈ (depot.binSession bin).current.keys
  rw [packed.current]
  exact List.mem_map_of_mem member

theorem deliver_eq {relationship : String}
    (holds : (depot.binSession bin).ids = (depot.bin bin).contents.map Item.id)
    (filled : (depot.bin bin).session < depot.flow.sessions.next)
    (known : relationship ∈ depot.flow.sinks.keys) :
    deliver bin relationship depot = (.ok (), { depot with
      flow := depot.flow.sent (depot.bin bin).session relationship
        (depot.binSession bin).items }) := by
  have routed := Flow.route_eq known filled fun item member => by
    change item.id ∈ (depot.binSession bin).ids
    rw [holds]
    exact List.mem_map_of_mem member
  unfold deliver
  rw [Act.read_bind,
    Act.bind_of_ok (onFlow_eq routed)]
  exact onFlow_eq (Flow.commit_routed holds)

/-- The depot after a bin was completed by a verdict. -/
def completed (verdict : Verdict) (depot : Depot) (bin : BinId) : Depot :=
  { depot.setBin bin { depot.bin bin with state := verdict.state } with
    flow := verdict.complete depot.flow (depot.bin bin).session
    counters := verdict.count depot.counters }

theorem giveUp_eq (packed : depot.Packed bin) (activation : Activation) :
    giveUp bin activation depot =
      (.ok (Verdict.rolledBack.note activation), completed .rolledBack depot bin) := by
  have follows : .rolledBack ∈ (depot.bin bin).state.successors := by
    rw [packed.ready]
    simp [BinState.successors]
  unfold giveUp
  rw [Act.bind_of_ok (discard_eq follows)]
  rfl

private theorem mark_delivered (packed : depot.Packed bin) (flow : Flow) :
    mark bin .processed { depot with flow } =
      (.ok (), { depot.setBin bin { depot.bin bin with state := .processed } with flow }) := by
  have follows : .processed ∈ (depot.bin bin).state.successors := by
    rw [packed.ready]
    simp [BinState.successors]
  exact @mark_eq { depot with flow } bin .processed follows

theorem fail_eq (packed : depot.Packed bin)
    (known : failureRelationship ∈ depot.flow.sinks.keys) (activation : Activation) :
    fail bin activation depot =
      (.ok (Verdict.failed.note activation), completed .failed depot bin) := by
  have delivered := deliver_eq packed.current packed.isSession known
  unfold fail
  rw [Act.bind_of_ok (Act.attempt_eq delivered)]
  dsimp only
  rw [Act.bind_of_ok (mark_delivered packed _)]
  rfl

theorem finalise_eq (packed : depot.Packed bin)
    (known : successRelationship ∈ depot.flow.sinks.keys) {outcome : Outcome}
    (uncommitted : outcome.committed = false) :
    finalise bin (some outcome) depot = (.ok (), { depot with
      flow := depot.flow.sent (depot.bin bin).session successRelationship
        ((depot.binSession bin).items.map (·.withAttributes outcome.attributes)) }) := by
  have annotated := annotateAll_eq packed outcome.attributes
  obtain ⟨reached, isReached⟩ : ∃ reached, reached = { depot with
      flow := depot.flow.setSession (depot.bin bin).session
        ((depot.binSession bin).annotated ((depot.bin bin).contents.map Item.id)
          outcome.attributes) } := ⟨_, rfl⟩
  have holder : reached.binSession bin =
      (depot.binSession bin).annotated ((depot.bin bin).contents.map Item.id)
        outcome.attributes := by
    rw [isReached]
    exact Flow.session_setSession_self _ _ _
  have holds : (reached.binSession bin).ids = (reached.bin bin).contents.map Item.id := by
    rw [holder, Session.ids_annotated, isReached]
    exact packed.current
  have filled : (reached.bin bin).session < reached.flow.sessions.next := by
    rw [isReached]
    exact (Flow.next_setSession packed.isSession _).symm ▸ packed.isSession
  have delivered := deliver_eq holds filled (show successRelationship ∈
    reached.flow.sinks.keys by rw [isReached]; exact known)
  have items : (reached.binSession bin).items =
      (depot.binSession bin).items.map (·.withAttributes outcome.attributes) := by
    rw [holder]
    apply Session.items_annotated _
    intro id held
    rw [← packed.current]
    exact held
  unfold finalise
  rw [← isReached] at annotated
  simp only [uncommitted, Bool.false_eq_true, if_false]
  rw [Act.bind_of_ok annotated, delivered, items, isReached]
  dsimp only
  rw [← Flow.sent_setSession ((depot.binSession bin).annotated
    ((depot.bin bin).contents.map Item.id) outcome.attributes) successRelationship _ rfl rfl]
  rfl

theorem settle_eq (packed : depot.Packed bin)
    (success : successRelationship ∈ depot.flow.sinks.keys)
    (failure : failureRelationship ∈ depot.flow.sinks.keys)
    {answer : Except Fault (Option Outcome)}
    (uncommitted : ∀ outcome, answer = .ok (some outcome) → outcome.committed = false)
    (activation : Activation) :
    settle bin answer activation depot =
      (.ok ((Verdict.of answer).note activation),
        completed (Verdict.of answer) depot bin) := by
  rcases answer with fault | none | outcome
  · by_cases recoverable : fault = .recoverable
    · subst recoverable
      exact fail_eq packed failure activation
    · have same : Verdict.of (.error fault) = .rolledBack := by
        cases fault <;> first | rfl | exact absurd rfl recoverable
      have given : settle bin (.error fault) activation = giveUp bin activation := by
        cases fault <;> first | rfl | exact absurd rfl recoverable
      rw [given, same]
      exact giveUp_eq packed activation
  · exact giveUp_eq packed activation
  · have finalised := finalise_eq packed success (uncommitted outcome rfl)
    change succeed bin (some outcome) activation depot = _
    unfold succeed
    rw [Act.bind_of_ok (Act.attempt_eq finalised)]
    dsimp only
    rw [Act.bind_of_ok (mark_delivered packed _)]
    rfl

/-- The processor answers by the bin that it is handed and by what its session
holds, and touches nothing that items and bins depend on.  It leaves the session to
the engine. -/
structure Detached (hooks : Hooks)
    (answers : BinId → Bin → List Item → Except Fault (Option Outcome)) : Prop where
  process : ∀ bin (depot : Depot), ∃ bundles created tallies,
    (hooks.process bin).run depot =
      (answers bin (depot.bin bin) (depot.binSession bin).items,
        { depot with bundles, created, tallies })
  uncommitted : ∀ bin held items outcome,
    answers bin held items = .ok (some outcome) → outcome.committed = false

/-- What the processor's answer means for a bin of the depot. -/
def judge (answers : BinId → Bin → List Item → Except Fault (Option Outcome))
    (depot : Depot) (bin : BinId) : Verdict :=
  .of (answers bin (depot.bin bin) (depot.binSession bin).items)

section Drained

variable {hooks : Hooks}
  {answers : BinId → Bin → List Item → Except Fault (Option Outcome)}

theorem handle_eq (detached : Detached hooks answers) (packed : depot.Packed bin)
    (success : successRelationship ∈ depot.flow.sinks.keys)
    (failure : failureRelationship ∈ depot.flow.sinks.keys) (activation : Activation) :
    ∃ bundles created tallies, handle hooks bin activation depot =
      (.ok ((judge answers depot bin).note activation),
        { completed (judge answers depot bin) depot bin with
          handled := depot.handled ++ [bin], bundles, created, tallies }) := by
  obtain ⟨bundles, created, tallies, run⟩ :=
    detached.process bin { depot with handled := depot.handled ++ [bin] }
  have settled := @settle_eq { depot with
      handled := depot.handled ++ [bin], bundles, created, tallies } bin
    (packed.kept rfl rfl rfl rfl rfl) success failure
    (answers bin (depot.bin bin) (depot.binSession bin).items)
    (detached.uncommitted bin _ _) activation
  refine ⟨bundles, created, tallies, ?_⟩
  unfold handle
  rw [Act.bind_of_ok (rfl : noteHandled bin depot = (.ok (), _)),
    Act.bind_of_ok (Act.attempt_eq run)]
  exact settled

/-- Every bin of a queue was completed by its verdict, and nothing else changed that
items and bins depend on. -/
structure Drained (judge : BinId → Verdict) (before : Depot) (queue : List BinId)
    (after : Depot) : Prop where
  source : after.flow.source = (queue.reverse.flatMap fun bin =>
    (judge bin).returns (before.binSession bin).pulled.values) ++ before.flow.source
  sinks : after.flow.sinks = before.flow.sinks.mapValues fun relationship received =>
    received ++ queue.flatMap fun bin =>
      (judge bin).sends relationship (before.binSession bin).items
  emptied : ∀ bin ∈ queue, (after.binSession bin).current = .empty ∧
    (after.binSession bin).pulled = .empty
  sessions : ∀ session, (∀ bin ∈ queue, (before.bin bin).session ≠ session) →
    after.flow.session session = before.flow.session session
  states : ∀ bin ∈ queue, after.bin bin = { before.bin bin with state := (judge bin).state }
  bins : ∀ bin ∉ queue, after.bin bin = before.bin bin
  shelf : after.shelf = before.shelf
  clock : after.clock = before.clock
  counters : after.counters = queue.foldl (fun counters bin => (judge bin).count counters)
    before.counters
  handled : after.handled = before.handled ++ queue

private theorem drained_completed (verdicts : BinId → Verdict) (bin : BinId)
    (queue : List BinId) (bundles created : Nat) (tallies : Table String Nat) :
    Drained verdicts depot [bin] { completed (verdicts bin) depot bin with
      ready := queue, handled := depot.handled ++ [bin], bundles, created, tallies } := by
  have held : ∀ other, Depot.bin (depot.setBin bin
      { depot.bin bin with state := (verdicts bin).state }) other = if other = bin then
        { depot.bin bin with state := (verdicts bin).state } else depot.bin other :=
    fun other => bin_setBin depot bin other _
  refine ⟨?_, ?_, ?_, ?_, ?_, ?_, rfl, rfl, rfl, rfl⟩
  · have source := (verdicts bin).source_complete depot.flow (depot.bin bin).session
    simpa [completed, binSession] using source
  · have sinks := (verdicts bin).sinks_complete depot.flow (depot.bin bin).session
    simpa [completed, binSession] using sinks
  · intro other member
    rw [List.mem_singleton.1 member]
    have emptied := (verdicts bin).session_complete_self depot.flow (depot.bin bin).session
    have session : Bin.session (Depot.bin (depot.setBin bin
        { depot.bin bin with state := (verdicts bin).state }) bin) =
          (depot.bin bin).session := by
      rw [held, if_pos rfl]
    have same : binSession { completed (verdicts bin) depot bin with
        ready := queue, handled := depot.handled ++ [bin], bundles, created, tallies } bin =
          ((verdicts bin).complete depot.flow (depot.bin bin).session).session
            (depot.bin bin).session :=
      congrArg ((verdicts bin).complete depot.flow (depot.bin bin).session).session session
    rw [same]
    exact emptied
  · intro session apart
    exact (verdicts bin).session_complete_ne depot.flow _ (apart bin (by simp)).symm
  · intro other member
    rw [List.mem_singleton.1 member]
    exact (held bin).trans (if_pos rfl)
  · intro other absent
    exact (held other).trans (if_neg (by simpa using absent))

/-- A bin that was completed first is still empty when the others were completed, even
if it shares its session with one of them. -/
private theorem Drained.emptied_first {before between after : Depot}
    {verdicts : BinId → Verdict} {rest : List BinId}
    (first : Drained verdicts before [bin] between)
    (others : Drained verdicts between rest after) (absent : bin ∉ rest) :
    (after.binSession bin).current = .empty ∧ (after.binSession bin).pulled = .empty := by
  have sameSession : (after.bin bin).session = (between.bin bin).session := by
    rw [others.bins bin absent]
  by_cases shared : ∃ second ∈ rest, (between.bin second).session = (between.bin bin).session
  · obtain ⟨second, isSecond, same⟩ := shared
    have emptied := others.emptied second isSecond
    unfold binSession at emptied ⊢
    rw [others.states second isSecond, same] at emptied
    rw [sameSession]
    exact emptied
  · have emptied := first.emptied bin (by simp)
    unfold binSession at emptied ⊢
    rw [sameSession, others.sessions]
    · exact emptied
    · exact fun second isSecond same => shared ⟨second, isSecond, same⟩

private theorem Drained.cons {before between after : Depot} {verdicts : BinId → Verdict}
    {rest : List BinId} (first : Drained verdicts before [bin] between)
    (others : Drained verdicts between rest after) (absent : bin ∉ rest)
    (same : ∀ other ∈ rest,
      (between.binSession other).current = (before.binSession other).current ∧
        (between.binSession other).pulled = (before.binSession other).pulled) :
    Drained verdicts before (bin :: rest) after := by
  have sameBin : ∀ other ∈ rest, between.bin other = before.bin other := by
    intro other member
    refine first.bins other fun isFirst => absent ?_
    exact List.mem_singleton.1 isFirst ▸ member
  refine ⟨?_, ?_, ?_, ?_, ?_, ?_, others.shelf.trans first.shelf,
    others.clock.trans first.clock, ?_, ?_⟩
  · have restReturns : (rest.reverse.flatMap fun other =>
        (verdicts other).returns (between.binSession other).pulled.values) =
          rest.reverse.flatMap fun other =>
            (verdicts other).returns (before.binSession other).pulled.values := by
      apply List.flatMap_congr
      intro other member
      rw [(same other (List.mem_reverse.1 member)).2]
    rw [others.source, first.source, restReturns]
    simp
  · have restSends : ∀ relationship, (rest.flatMap fun other =>
        (verdicts other).sends relationship (between.binSession other).items) =
          rest.flatMap fun other =>
            (verdicts other).sends relationship (before.binSession other).items := by
      intro relationship
      apply List.flatMap_congr
      intro other member
      rw [Session.items, (same other member).1]
      rfl
    rw [others.sinks, first.sinks, Table.mapValues_mapValues]
    simp [restSends]
  · intro other member
    rcases List.mem_cons.1 member with isFirst | later
    · rw [isFirst]
      exact first.emptied_first others absent
    · exact others.emptied other later
  · intro session apart
    rw [others.sessions session, first.sessions session]
    · intro other member
      rw [List.mem_singleton.1 member]
      exact apart bin (by simp)
    · intro other member
      rw [sameBin other member]
      exact apart other (List.mem_cons_of_mem _ member)
  · intro other member
    by_cases isFirst : other = bin
    · rw [isFirst, others.bins bin absent, first.states bin (by simp)]
    · have later := (List.mem_cons.1 member).resolve_left isFirst
      rw [others.states other later, sameBin other later]
  · intro other outside
    rw [List.mem_cons, not_or] at outside
    rw [others.bins other outside.2, first.bins other (by simpa using outside.1)]
  · rw [others.counters, first.counters]
    rfl
  · rw [others.handled, first.handled, List.append_assoc]
    rfl

private theorem drained_nil (verdicts : BinId → Verdict) (depot : Depot) :
    Drained verdicts depot [] depot :=
  ⟨rfl, by simp [Table.mapValues_self], nofun, fun _ _ => rfl, nofun, fun _ _ => rfl,
    rfl, rfl, rfl, by simp⟩

/-- Sessions that hold the contents of two bins hold nothing of the same id, so two
bins share a session only if both are empty. -/
private theorem kept_of_apart {between : Depot} {verdicts : BinId → Verdict}
    {rest : List BinId} (first : Drained verdicts depot [bin] between)
    (packed : ∀ other ∈ bin :: rest, depot.Packed other)
    (apart : ((bin :: rest).flatMap fun other =>
      (depot.bin other).contents.map Item.id).Nodup) (absent : bin ∉ rest) :
    ∀ other ∈ rest, between.bin other = depot.bin other ∧
      (between.binSession other).current = (depot.binSession other).current ∧
        (between.binSession other).pulled = (depot.binSession other).pulled := by
  intro other member
  have sameBin : between.bin other = depot.bin other :=
    first.bins other fun isFirst => absent (List.mem_singleton.1 isFirst ▸ member)
  refine ⟨sameBin, ?_⟩
  by_cases shared : (depot.bin bin).session = (depot.bin other).session
  -- both bins hold what the session holds, so neither holds anything
  · have packedFirst := packed bin (by simp)
    have packedOther := packed other (List.mem_cons_of_mem _ member)
    have sameSession : depot.binSession other = depot.binSession bin := by
      unfold binSession
      rw [shared]
    have sameIds : (depot.bin bin).contents.map Item.id =
        (depot.bin other).contents.map Item.id := by
      rw [← packedFirst.current, ← packedOther.current, sameSession]
    have none : (depot.bin other).contents.map Item.id = [] := by
      rw [List.flatMap_cons, List.nodup_append] at apart
      apply List.eq_nil_iff_forall_not_mem.2
      intro id isItem
      exact apart.2.2 id (sameIds ▸ isItem) id
        (List.mem_flatMap.2 ⟨other, member, isItem⟩) rfl
    have emptied := first.emptied bin (by simp)
    have session : between.binSession other = between.binSession bin := by
      unfold binSession
      rw [sameBin, first.states bin (by simp), shared]
    rw [session, emptied.1, emptied.2,
      Table.eq_empty_of_keys (packedOther.current.trans none),
      Table.eq_empty_of_keys (packedOther.pulled.trans none)]
    exact ⟨rfl, rfl⟩
  · have session : between.binSession other = depot.binSession other := by
      unfold binSession
      rw [sameBin]
      apply first.sessions _
      intro only isOnly
      rw [List.mem_singleton.1 isOnly]
      exact shared
    rw [session]
    exact ⟨rfl, rfl⟩

/-- Handing every bin of a queue to the processor completes each by its verdict. -/
theorem drainBins_spec (detached : Detached hooks answers) (verdicts : BinId → Verdict)
    (queue : List BinId) {depot : Depot} (activation : Activation)
    (isQueue : depot.ready = queue)
    (judged : ∀ bin ∈ queue, judge answers depot bin = verdicts bin)
    (packed : ∀ bin ∈ queue, depot.Packed bin) (distinct : queue.Nodup)
    (apart : (queue.flatMap fun bin => (depot.bin bin).contents.map Item.id).Nodup)
    (success : successRelationship ∈ depot.flow.sinks.keys)
    (failure : failureRelationship ∈ depot.flow.sinks.keys) :
    ∃ reached, drainBins hooks queue activation depot =
        (.ok (queue.foldl (fun noted bin => (verdicts bin).note noted) activation),
          reached) ∧
      reached.ready = [] ∧ Drained verdicts depot queue reached := by
  induction queue generalizing depot activation with
  | nil => exact ⟨depot, rfl, isQueue, drained_nil _ depot⟩
  | cons bin rest ih =>
      rw [List.nodup_cons] at distinct
      have packedFirst : depot.Packed bin := packed bin (by simp)
      obtain ⟨bundles, created, tallies, run⟩ := @handle_eq { depot with ready := rest } bin
        hooks answers detached (packedFirst.kept rfl rfl rfl rfl rfl) success failure
        activation
      obtain ⟨between, isBetween⟩ : ∃ between, between =
        { completed (verdicts bin) depot bin with
          ready := rest, handled := depot.handled ++ [bin], bundles, created, tallies } :=
        ⟨_, rfl⟩
      have handled : handle hooks bin activation { depot with ready := rest } =
          (.ok ((verdicts bin).note activation), between) := by
        rw [isBetween, ← judged bin (by simp)]
        exact run
      have first : Drained verdicts depot [bin] between :=
        isBetween ▸ drained_completed verdicts bin rest bundles created tallies
      have kept := kept_of_apart first packed apart distinct.1
      have keys : between.flow.sinks.keys = depot.flow.sinks.keys := by
        rw [first.sinks, Table.keys_mapValues]
      have next : between.bins.next = depot.bins.next := by
        rw [isBetween]
        exact Slots.next_set_of_lt packedFirst.isBin _
      have sessions : between.flow.sessions.next = depot.flow.sessions.next := by
        rw [isBetween]
        exact (verdicts bin).next_complete depot.flow _ packedFirst.isSession
      have packedRest : ∀ other ∈ rest, between.Packed other := by
        intro other member
        obtain ⟨sameBin, current, pulled⟩ := kept other member
        exact (packed other (List.mem_cons_of_mem _ member)).kept next sessions sameBin
          current pulled
      have judgedRest : ∀ other ∈ rest, judge answers between other = verdicts other := by
        intro other member
        rw [← judged other (List.mem_cons_of_mem _ member)]
        unfold judge Session.items
        rw [(kept other member).1, (kept other member).2.1]
      have apartRest : (rest.flatMap fun other =>
          (between.bin other).contents.map Item.id).Nodup := by
        rw [List.flatMap_congr fun other member => by rw [(kept other member).1]]
        rw [List.flatMap_cons, List.nodup_append] at apart
        exact apart.2.1
      obtain ⟨reached, runRest, empty, others⟩ := ih ((verdicts bin).note activation)
        (by rw [isBetween]) judgedRest packedRest distinct.2 apartRest (keys ▸ success)
        (keys ▸ failure)
      refine ⟨reached, ?_, empty,
        first.cons others distinct.1 fun other member => (kept other member).2⟩
      unfold drainBins
      rw [Act.bind_of_ok (rfl : Act.modify _ depot = (.ok (), _)), Act.bind_of_ok handled,
        runRest]
      rfl

end Drained

/-- A queue of packed bins is drained by a processor that answers by the bin: each
bin is completed by its own verdict and nothing else happens.  The items of the bins
with an outcome are appended to success and those of the bins that failed to failure,
in the order of the queue, and the others return to the front of the source, the
bins rolled back last first. -/
theorem drain_by_verdicts (engine : Engine)
    (answers : BinId → Bin → List Item → Except Fault (Option Outcome))
    (detached : Detached engine.hooks answers) (depot : Depot) (activation : Activation)
    (packed : ∀ bin ∈ depot.ready, depot.Packed bin) (distinct : depot.ready.Nodup)
    (apart : (depot.ready.flatMap fun bin =>
      (depot.bin bin).contents.map Item.id).Nodup)
    (success : successRelationship ∈ depot.flow.sinks.keys)
    (failure : failureRelationship ∈ depot.flow.sinks.keys) :
    ∃ reached, engine.drain activation depot =
        (.ok (depot.ready.foldl (fun noted bin => (judge answers depot bin).note noted)
          activation), reached) ∧
      reached.ready = [] ∧
      Drained (judge answers depot) depot depot.ready reached :=
  drainBins_spec detached (judge answers depot) depot.ready activation rfl
    (fun _ _ => rfl) packed distinct apart success failure

/-- A ready bin of a single item for each id, in the queue. -/
def queueOf (ids : List String) : Depot where
  flow :=
    { sinks := Flow.sinksFor []
      sessions := ids.foldl (fun sessions id =>
        sessions.push (Session.receivePulled {} [{ id }])) {} }
  bins := ids.foldl (fun bins id => bins.push
    { session := bins.next, state := .ready, contents := [{ id }] }) {}
  ready := List.range ids.length

/-- The first bin is processed, the second one fails, and all others raise a fault. -/
def answerInTurn (bin : BinId) (_ : Bin) (_ : List Item) : Except Fault (Option Outcome) :=
  match bin with
  | 0 => .ok (some {})
  | 1 => .error .recoverable
  | _ => .error .hookFailure

theorem drain_three_verdicts :
    let engine : Engine := { hooks := {
      groupKey := fun _ => .done .null
      process := fun bin =>
        match bin with
        | 0 => .done (some {})
        | 1 => .fail .recoverable
        | _ => .fail .hookFailure } }
    let depot := queueOf ["a", "b", "c"]
    ∃ reached, engine.drain {} depot =
        (.ok { binsProcessed := 1, binsFailed := 1, binsRolledBack := 1 }, reached) ∧
      reached.ready = [] ∧ Drained (judge answerInTurn depot) depot [0, 1, 2] reached := by
  intro engine depot
  have detached : Detached engine.hooks answerInTurn := by
    refine ⟨fun bin depot => ⟨depot.bundles, depot.created, depot.tallies, ?_⟩, ?_⟩
    · match bin with
      | 0 | 1 | _ + 2 => rfl
    · intro bin held items outcome answer
      match bin with
      | 0 =>
          cases answer
          rfl
      | 1 | _ + 2 => cases answer
  have packed : ∀ bin ∈ [0, 1, 2], depot.Packed bin := by
    simp only [List.forall_mem_cons]
    refine ⟨?_, ?_, ?_, nofun⟩ <;>
      exact ⟨by decide +kernel, by decide +kernel, by decide +kernel, by decide +kernel,
        by decide +kernel⟩
  exact drain_by_verdicts engine answerInTurn detached depot {} packed (by decide +kernel)
    (by decide +kernel) (by decide +kernel) (by decide +kernel)

end Engine

end ItemBinning
