import ItemBinning.Proofs.Engine.IntakeRules
import ItemBinning.Proofs.Flow.Movement
import ItemBinning.Proofs.Hook.Conduct
import ItemBinning.Proofs.Shelf.Ledger

/-!
# How far an intake goes

While the hooks leave the policy in force, an intake opens no more bins than may be
open or were open before.  An intake that is always scheduled goes on until there is
no room or nothing is left on the source, and one that binned no item queued no bin.
-/

namespace ItemBinning

/-- The hooks of an engine that leave the policy in force.  They move no bin, except
that the processor may do so. -/
structure Hooks.LeavePolicy (hooks : Hooks) : Prop where
  preprocess : ∀ item session, (hooks.preprocess item session).Uses fun call =>
    call.Permitted (fun _ => True) none ∧ call.LeavesPolicy
  groupKey : ∀ item, (hooks.groupKey item).Uses fun call =>
    call.Permitted (fun _ => True) none ∧ call.LeavesPolicy
  process : ∀ bin, (hooks.process bin).Uses Call.LeavesPolicy

namespace Depot

/-- The property holds on while the shelf is at rest with its thresholds, no item is
brought into a session and the clock stands. -/
def RestsKeep (kept : Depot → Prop) : Prop :=
  ∀ before after : Depot, kept before → before.ShelfRests after →
    after.shelf.thresholds = before.shelf.thresholds → after.moves = before.moves →
      after.clock = before.clock → kept after

section Rests

variable {kept : Depot → Prop} (restsKeep : RestsKeep kept)
include restsKeep

theorem Orderly.rests {before after : Depot} (orderly : before.Orderly kept)
    (rests : before.ShelfRests after) (same : after.shelf.thresholds = before.shelf.thresholds)
    (moves : after.moves = before.moves) (clock : after.clock = before.clock) :
    after.Orderly kept where
  arranged := orderly.arranged.rests rests (same ▸ orderly.arranged.thresholds)
  kept := restsKeep before after orderly.kept rests same moves clock

theorem onFlow_orderly {α : Type} {act : Act Flow α}
    (sessions : ∀ least, act.Keeps fun flow => least ≤ flow.sessions.next) :
    (onFlow act).Keeps (Orderly kept) :=
  Act.Keeps.of_final fun depot orderly => orderly.rests restsKeep (.of_same rfl rfl rfl
    (Act.Meets.final (sessions depot.flow.sessions.next) (Nat.le_refl _))) rfl rfl rfl

theorem count_orderly (change : Counters → Counters) :
    (count change).Keeps (Orderly kept) :=
  Act.Keeps.of_final fun _ orderly =>
    orderly.rests restsKeep (.of_same rfl rfl rfl (Nat.le_refl _)) rfl rfl rfl

end Rests

variable {thresholds : Thresholds} {limit : Int}

/-- The bounds on the shelf outlive what leaves the shelf at rest. -/
theorem Bounded.rests {before after : Depot} (bounded : before.Bounded thresholds limit)
    (rests : before.ShelfRests after) (same : after.shelf.thresholds = before.shelf.thresholds) :
    after.Bounded thresholds limit where
  thresholds := same.trans bounded.thresholds
  binCount := by
    rw [rests.binCount]
    exact bounded.binCount

theorem restsKeep_bounded : RestsKeep (Bounded thresholds limit) :=
  fun _ _ bounded rests same _ _ => bounded.rests rests same

theorem script_bounded {α : Type} {script : Script α}
    (uses : script.Uses fun call => call.Permitted (fun _ => True) none ∧ call.LeavesPolicy) :
    script.run.Keeps (Orderly (Bounded thresholds limit)) := by
  apply Act.Keeps.of_final
  intro depot orderly
  have undisturbed := Act.Meets.final
    ((uses.mono fun _ => And.left).undisturbed nofun) (Undisturbed.refl depot)
  have shelf := Act.Meets.final ((uses.mono fun _ => And.right).shelf depot.shelf) rfl
  have same := congrArg Shelf.thresholds shelf
  have rests := undisturbed.toShelfRests
  exact ⟨orderly.arranged.rests rests (same ▸ orderly.arranged.thresholds),
    orderly.kept.rests rests same⟩

end Depot

namespace Engine

open Depot

variable {kept : Depot → Prop} {engine : Engine}

theorem queueUnbound_orderly (keep : OffersKeep kept) (restsKeep : RestsKeep kept)
    (group : Value) (session : SessionId) (item : Item) :
    (queueUnbound group session item).Keeps (Orderly kept) := by
  apply Act.Keeps.of_final
  intro depot orderly
  have created := orderly.withBin keep Bounds.whole_relaxed group
  rw [queueUnbound_apply]
  rcases run : offerTo depot.bins.next item session (depot.withBin Bounds.relaxed group)
    with ⟨answer, reached⟩
  have steady := Act.Meets.final (offerTo_steady (lt_next_withBin depot
    Bounds.relaxed group) item session) (Steady.refl _)
  rw [run] at steady
  have offered := created.steady keep steady
  rcases answer with fault | taken
  · rw [Act.bind_of_error run]
    exact offered
  · rw [Act.bind_of_ok run, Act.bind_of_ok (markReady_eq .unbound steady.opened_withBin)]
    have absent : depot.bins.next ∉ reached.shelf.bins := by
      rw [steady.shelf]
      exact fun member => Nat.lt_irrefl _ (orderly.arranged.isBin_of_mem_bins member)
    have matching : Bin.Matches { reached.bin depot.bins.next with
        state := .ready, reason := some .unbound } (reached.bin depot.bins.next) :=
      ⟨rfl, rfl, rfl, rfl⟩
    have rests := ShelfRests.setBin reached steady.isBin_withBin absent matching
    exact offered.rests restsKeep (rests.trans (.of_same rfl rfl rfl (Nat.le_refl _))) rfl rfl rfl

/-- The rules of an intake whose hooks keep what offers keep and what is kept at rest. -/
theorem intakeRules_orderly (keep : OffersKeep kept) (restsKeep : RestsKeep kept)
    (preprocess : ∀ item session, (engine.hooks.preprocess item session).run.Keeps (Orderly kept))
    (groupKey : ∀ item, (engine.hooks.groupKey item).run.Keeps (Orderly kept)) :
    IntakeRules engine (Orderly kept) (fun _ => Orderly kept) fun _ => True where
  pulled := by
    refine Act.Meets.bind (onFlow_orderly restsKeep fun least =>
      (Flow.carried_sessions least).openSession) fun session => ?_
    refine Act.Meets.bind (onFlow_orderly restsKeep fun least =>
      (Flow.carried_sessions least).pullValue session _) fun items => ?_
    exact Act.Meets.pure fun _ orderly => ⟨fun _ => orderly, orderly, fun _ _ => trivial⟩
  preprocessed session item _ := (preprocess item session).weaken (fun _ => id)
    (fun _ _ orderly => ⟨orderly, fun _ _ => trivial⟩) fun _ _ => id
  keyed _ item := groupKey item
  routed session item := onFlow_orderly restsKeep fun least =>
    (Flow.carried_sessions least).route session [item] failureRelationship
  counted _ change := count_orderly restsKeep change
  offered session group items _ := Shelf.offer_orderly keep group items session
  queued session group item _ := queueUnbound_orderly keep restsKeep group session item
  committed session := onFlow_orderly restsKeep fun least =>
    (Flow.carried_sessions least).commit session
  returned session := onFlow_orderly restsKeep fun least =>
    (Flow.carried_sessions least).rollBack session

/-- The rules of an intake whose hooks leave the policy in force. -/
theorem intakeRules_bounded {thresholds : Thresholds} {most limit : Int}
    (isMost : thresholds.maxBinCount = .int most) (within : most ≤ limit)
    (leave : engine.hooks.LeavePolicy) :
    IntakeRules engine (Orderly (Bounded thresholds limit))
      (fun _ => Orderly (Bounded thresholds limit)) fun _ => True :=
  intakeRules_orderly (offersKeep_bounded isMost within) restsKeep_bounded
    (fun item session => script_bounded (leave.preprocess item session))
    fun item => script_bounded (leave.groupKey item)

section Quiet

variable {queue : List BinId}

private theorem onFlow_ready {α : Type} (act : Act Flow α) :
    (onFlow act).Keeps fun depot => depot.ready = queue :=
  Act.Keeps.of_final fun _ same => same

private theorem classify_ready (hooks : Hooks) (session : SessionId) (item : Item) :
    (classify hooks session item).Keeps fun depot => depot.ready = queue := by
  refine ((hooks.preprocess item session).run_ready queue).bind fun version => ?_
  cases version with
  | none => exact Act.Keeps.fail _
  | some version =>
      refine ((hooks.groupKey version).run_ready queue).bind fun group => ?_
      split
      · exact Act.Keeps.pure _
      · exact Act.Keeps.fail _

private theorem groupItems_ready (hooks : Hooks) (session : SessionId) (items : List Item)
    (groups : Groups) (filled : ∀ group ∈ groups.values, group.2 ≠ []) :
    (groupItems hooks session items groups).Meets (fun depot => depot.ready = queue)
      (fun groups depot => depot.ready = queue ∧ ∀ group ∈ groups.values, group.2 ≠ [])
      fun _ _ => True := by
  induction items generalizing groups with
  | nil => exact Act.Meets.pure fun _ same => ⟨same, filled⟩
  | cons item rest ih =>
      have classified := (classify_ready hooks session item).attempt.weaken (fun _ => id)
        (fun _ _ => id) fun _ (depot : Depot) (_ : depot.ready = queue) => trivial
      apply classified.bind
      intro outcome
      rcases outcome with fault | ⟨version, group, key⟩
      · have routed := (onFlow_ready (Flow.route session [item] failureRelationship)).weaken
          (fun _ => id) (fun _ _ => id) fun _ (depot : Depot) (_ : depot.ready = queue) => trivial
        exact routed.bind fun _ =>
          Act.Meets.bind (Act.Meets.modify fun _ same => same) fun _ => ih groups filled
      · apply ih _
        intro entry member
        rcases mem_values_addToGroup member with old | ⟨items, grown, _⟩
        · exact filled entry old
        · rw [grown]
          exact List.append_ne_nil_of_right_ne_nil _ (List.cons_ne_nil _ _)

/-- Offering groups that are not empty bins some item, unless there is no group. -/
private theorem offerGroups_ready (session : SessionId) (groups : List (Value × List Item))
    (filled : ∀ group ∈ groups, group.2 ≠ []) :
    (offerGroups session groups).Meets (fun depot => depot.ready = queue)
      (fun binned depot => binned = 0 → depot.ready = queue) fun _ _ => True := by
  cases groups with
  | nil => exact Act.Meets.pure fun _ same _ => same
  | cons entry rest =>
      obtain ⟨group, items⟩ := entry
      have some : 0 < items.length := List.length_pos_iff.2 (filled (group, items) (by simp))
      refine Act.Meets.anything.bind fun unbound => Act.Meets.anything.bind fun _ =>
        Act.Meets.anything.bind fun _ => Act.Meets.anything.bind fun more =>
          Act.Meets.pure fun _ _ none => ?_
      omega

private theorem binChunk_ready (hooks : Hooks) (session : SessionId) (items : List Item) :
    (binChunk hooks session items).Meets (fun depot => depot.ready = queue)
      (fun binned depot => binned = 0 → depot.ready = queue) fun _ _ => True := by
  have binned : (binItems hooks session items).Meets (fun depot => depot.ready = queue)
      (fun binned depot => binned = 0 → depot.ready = queue) fun _ _ => True := by
    refine (groupItems_ready hooks session items .empty nofun).bind fun groups => ?_
    apply Act.Meets.knowing
    intro filled
    refine (offerGroups_ready session groups.values filled).bind fun binned => ?_
    have committed : (onFlow (Flow.commit session)).Meets
        (fun depot => binned = 0 → depot.ready = queue)
        (fun _ depot => binned = 0 → depot.ready = queue) fun _ _ => True :=
      (Act.Meets.of_final fun _ same => same).weaken (fun _ => id) (fun _ _ => id)
        fun _ _ _ => trivial
    exact committed.bind fun _ => Act.Meets.pure fun _ => id
  apply binned.attempt.bind
  intro outcome
  cases outcome with
  | ok binned => exact Act.Meets.pure fun _ => id
  | error fault => exact Act.Meets.anything.bind fun _ => Act.Meets.fail fun _ _ => trivial

theorem intake_ready (answers : List Bool) :
    (intake engine answers).Meets (fun depot => depot.ready = queue)
      (fun result depot => result.1 = 0 → depot.ready = queue) fun _ _ => True := by
  induction answers with
  | nil => exact Act.Meets.pure fun _ same _ => same
  | cons scheduled rest ih =>
      refine Act.Meets.bind (Act.Meets.look (fun _ _ same _ => same) fun _ _ _ _ => trivial)
        fun room => ?_
      split
      · split
        · have pulled : (pullChunk engine).Meets (fun depot => depot.ready = queue)
              (fun _ depot => depot.ready = queue) fun _ _ => True :=
            ((onFlow_ready _).bind fun _ => (onFlow_ready _).bind fun _ =>
              Act.Keeps.pure _).weaken (fun _ => id) (fun _ _ => id) fun _ _ _ => trivial
          apply pulled.bind
          intro chunk
          obtain ⟨session, items⟩ := chunk
          dsimp only
          split
          · exact Act.Meets.pure fun _ same _ => same
          · refine (binChunk_ready engine.hooks session items).bind fun binned => ?_
            cases binned with
            | zero =>
                refine (ih.weaken (fun _ same => same rfl) (fun _ _ => id) fun _ _ => id).bind
                  fun result => Act.Meets.pure fun depot quiet none => ?_
                exact quiet (by simpa using none)
            | succ binned =>
                refine Act.Meets.anything.bind fun result => Act.Meets.pure fun _ _ none => ?_
                omega
        · exact Act.Meets.pure fun _ same _ => same
      · exact Act.Meets.pure fun _ same _ => same

theorem takeIn_ready (answers : List Bool) :
    (takeIn engine answers).Meets (fun depot => depot.ready = queue)
      (fun result depot => result.1 = 0 → depot.ready = queue) fun _ _ => True := by
  refine Act.Meets.bind (Act.Meets.look (fun _ _ same _ => same) fun _ _ _ _ => trivial)
    fun capacity => ?_
  split
  · exact intake_ready answers
  · exact Act.Meets.pure fun _ same _ => same

end Quiet

/-- A positive chunk size takes something if anything waits. -/
private theorem waiting_eq_zero {size : Number} (positive : size.isAtMostZero = false)
    {waiting : Nat} {wanted : Int} (counted : Flow.countOf (.number size) waiting = .ok wanted)
    (none : wanted.toNat = 0) : waiting = 0 := by
  cases size with
  | int size =>
      rw [Number.isAtMostZero_int, decide_eq_false_iff_not] at positive
      cases counted
      omega
  | float size =>
      change (do
        if ← (Value.int waiting).isBelow (.number (.float size)) then return (waiting : Int)
        else throw .wrongType : Except Fault Int) = .ok wanted at counted
      generalize (Value.int waiting).isBelow (.number (.float size)) = answer at counted
      rcases answer with fault | below
      · cases counted
      · cases below <;> cases counted
        exact none

private theorem pullValue_exit {size : Number} (positive : size.isAtMostZero = false)
    (session : SessionId) :
    (Flow.pullValue session (.number size)).Meets (fun _ => True)
      (fun items flow => items = [] → flow.source = []) fun _ _ => True := by
  refine Act.Meets.of_runs ?_ fun _ _ _ _ _ => trivial
  intro flow items reached _ run none
  rcases Flow.pullValue_cases session (.number size) flow with
    ⟨fault, failed⟩ | ⟨wanted, counted, _, pulled⟩
  · rw [failed] at run
    cases run
  · rw [pulled] at run
    cases run
    rw [Flow.source_setSession]
    rcases List.take_eq_nil_iff.1 none with nothing | empty
    · have all := waiting_eq_zero positive counted nothing
      rw [List.length_eq_zero_iff.1 all, List.drop_nil]
    · rw [empty, List.drop_nil]

/-- A chunk is empty only if nothing waits on the source. -/
theorem pullChunk_exit (positive : engine.chunkSize.isAtMostZero = false) :
    (pullChunk engine).Meets (fun _ => True)
      (fun chunk depot => chunk.2 = [] → depot.flow.source = []) fun _ _ => True := by
  apply Act.Meets.anything.bind
  intro session
  exact (onFlow_meets (pullValue_exit positive session)).bind fun items =>
    Act.Meets.pure fun _ => id

/-- An intake that is always scheduled and leaves answers over found no room or came
to the end of the source. -/
theorem intake_exit (positive : engine.chunkSize.isAtMostZero = false) (answers : List Bool)
    (always : ∀ answer ∈ answers, answer = true) :
    (intake engine answers).Meets (fun _ => True)
      (fun result depot => result.2 ≠ [] →
        depot.shelf.hasRoom = .ok false ∨ depot.flow.source = []) fun _ _ => True := by
  induction answers with
  | nil => exact Act.Meets.pure fun _ _ left => absurd rfl left
  | cons scheduled rest ih =>
      rw [List.forall_mem_cons] at always
      obtain ⟨rfl, always⟩ := always
      have look : (askShelf (·.hasRoom)).Meets (fun _ => True)
          (fun room depot => depot.shelf.hasRoom = .ok room) fun _ _ => True :=
        Act.Meets.look (fun _ _ _ answer => answer) fun _ _ _ _ => trivial
      apply look.bind
      intro room
      cases room with
      | false => exact Act.Meets.pure fun _ full _ => .inl full
      | true =>
          simp only [if_true]
          have pulled := (pullChunk_exit positive).weaken
            (fun (depot : Depot) (_ : depot.shelf.hasRoom = .ok true) => trivial)
            (fun _ _ => id) fun _ _ => id
          apply pulled.bind
          intro chunk
          split
          · rename_i none
            exact Act.Meets.pure fun _ exhausted _ => .inr (exhausted (List.isEmpty_iff.1 none))
          · refine Act.Meets.anything.bind fun binned => (ih always).bind fun result => ?_
            exact Act.Meets.pure fun _ => id

/-- With nothing queued, the intake is skipped only if there is no room. -/
theorem takeIn_exit (positive : engine.chunkSize.isAtMostZero = false) (answers : List Bool)
    (always : ∀ answer ∈ answers, answer = true) :
    (takeIn engine answers).Meets (fun depot => depot.ready = [])
      (fun result depot => result.2 ≠ [] →
        depot.shelf.hasRoom = .ok false ∨ depot.flow.source = []) fun _ _ => True := by
  have look : hasCapacity.Meets (fun depot => depot.ready = [])
      (fun capacity depot => depot.shelf.hasRoom = .ok capacity) fun _ _ => True := by
    refine Act.Meets.look (fun depot capacity none answer => ?_) fun _ _ _ _ => trivial
    rw [none] at answer
    exact answer
  apply look.bind
  intro capacity
  cases capacity with
  | true =>
      exact (intake_exit positive answers always).weaken (fun _ _ => trivial) (fun _ _ => id)
        fun _ _ => id
  | false => exact Act.Meets.pure fun _ full _ => .inl full

end Engine

end ItemBinning
