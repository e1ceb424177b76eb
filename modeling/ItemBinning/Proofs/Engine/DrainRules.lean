import ItemBinning.Engine.Drain
import ItemBinning.Proofs.Flow.Movement
import ItemBinning.Proofs.Shelf.Arrangement

/-!
# Rules for the drain

A bin is handed to the processor and then completed in one of several ways, each of
which can fail halfway.  What the operations of the drain keep while the session of
the bin is not completed, and how they lead to states in which it is, is all that
has to be known to say what becomes of the bin in every case.
-/

namespace ItemBinning

/-- What the intake and the migration did is noted in both activations. -/
structure Activation.SameIntake (before after : Activation) : Prop where
  itemsBinned : after.itemsBinned = before.itemsBinned
  binsMigrated : after.binsMigrated = before.binsMigrated

namespace Engine

open Depot

/-- Every operation of the drain leads from one kind of state to the right other: in
`busy` states the session of the bin is not completed, in `done` ones it is. -/
structure DrainRules (hooks : Hooks) (bin : BinId) (owner : SessionId → Prop)
    (busy done : Depot → Prop) : Prop where
  owned : ∀ depot, busy depot → owner (depot.bin bin).session
  noted : ∀ depot, busy depot → busy { depot with handled := depot.handled ++ [bin] }
  processed : (hooks.process bin).run.Keeps busy
  annotated : ∀ session item attributes,
    (onFlow (Flow.annotate session item attributes)).Keeps busy
  routed : ∀ session items relationship,
    (onFlow (Flow.route session items relationship)).Keeps busy
  committed : ∀ session, owner session → (onFlow (Flow.commit session)).Meets busy
    (fun _ => done) fun _ => busy
  returned : ∀ session, owner session → (onFlow (Flow.rollBack session)).Meets busy
    (fun _ => done) fun _ => done
  emptied : ∀ depot, busy depot → (depot.binSession bin).ids = [] → done depot
  marked : ∀ target, (mark bin target).Keeps done
  counted : ∀ change, (count change).Keeps done

namespace DrainRules

variable {hooks : Hooks} {bin : BinId} {owner : SessionId → Prop}
  {busy done : Depot → Prop}

/-- The fault of a flow operation is one of a session. -/
private theorem session_fault {act : Act Flow Unit} {answered : Flow → Prop}
    (faults : act.Meets (fun _ => True) (fun _ => answered) fun fault _ =>
      fault.kind = .session) :
    (onFlow act).Meets busy (fun _ _ => True) fun fault _ => fault.kind = .session :=
  (onFlow_meets faults).weaken (fun _ _ => trivial) (fun _ _ _ => trivial) fun _ _ => id

variable (rules : DrainRules hooks bin owner busy done)
include rules

theorem held {failed : Fault → Depot → Prop} :
    (Act.read (·.bin bin)).Meets busy
      (fun held depot => busy depot ∧ owner held.session) failed :=
  Act.Meets.read fun depot isBusy => ⟨isBusy, rules.owned depot isBusy⟩

theorem annotateAll (attributes : Attributes) :
    (annotateAll bin attributes).Keeps busy := by
  refine (Act.Keeps.read _).bind fun held => Act.Keeps.forEach fun item _ => ?_
  exact (rules.annotated held.session item attributes).bind fun _ => Act.Keeps.pure ()

theorem deliver (relationship : String) :
    (deliver bin relationship).Meets busy (fun _ => done)
      fun fault depot => busy depot ∧ fault.kind = .session := by
  refine rules.held.bind fun held => Act.Meets.knowing fun isOwner => ?_
  have routed := (rules.routed held.session held.contents relationship).and
    (session_fault (Flow.route_faults held.session held.contents relationship))
  have committed := (rules.committed held.session isOwner).and
    (session_fault (Flow.commit_faults held.session))
  refine (routed.weaken (fun _ => id) (fun _ _ => And.left) fun _ _ => id).bind fun _ => ?_
  exact committed.weaken (fun _ => id) (fun _ _ => And.left) fun _ _ => id

theorem finalise (outcome : Option Outcome) :
    (finalise bin outcome).Meets busy (fun _ => done) fun _ => busy := by
  cases outcome with
  | none => exact Act.Meets.fail fun _ => id
  | some outcome =>
      unfold Engine.finalise
      dsimp only
      split
      · have look : (Act.read fun depot => (depot.binSession bin).current.size).Meets busy
            (fun held depot => busy depot ∧ (held = 0 → done depot)) fun _ => busy := by
          refine Act.Meets.read fun depot isBusy => ⟨isBusy, fun none => ?_⟩
          exact rules.emptied depot isBusy
            (List.map_eq_nil_iff.2 (List.length_eq_zero_iff.1 none))
        apply look.bind
        intro held
        split
        · rename_i none
          exact Act.Meets.pure fun _ holds => holds.2 none
        · exact Act.Meets.fail fun _ => And.left
      · apply Act.Meets.bind (rules.annotateAll outcome.attributes)
        intro _
        exact (rules.deliver successRelationship).weaken (fun _ => id) (fun _ _ => id)
          fun _ _ => And.left

theorem discard : (discard bin).Meets busy (fun _ => done) fun _ => done :=
  rules.held.bind fun held => Act.Meets.knowing fun isOwner =>
    (rules.returned held.session isOwner).bind fun _ => rules.marked .rolledBack

theorem giveUp (activation : Activation) :
    (giveUp bin activation).Meets busy
      (fun noted depot => done depot ∧ activation.SameIntake noted) fun _ => done :=
  rules.discard.bind fun _ => Act.Meets.bind (rules.counted _) fun _ =>
    Act.Meets.pure fun _ isDone => ⟨isDone, rfl, rfl⟩

/-- A bin is completed whatever the processor answered, and whichever step of the
completion fails. -/
theorem settle (answer : Except Fault (Option Outcome)) (activation : Activation) :
    (settle bin answer activation).Meets busy
      (fun noted depot => done depot ∧ activation.SameIntake noted) fun _ => done := by
  have completed (noted : Activation) (same : activation.SameIntake noted)
      (change : Counters → Counters) :
      (do mark bin .processed; count change; pure noted : Act Depot Activation).Meets done
        (fun noted depot => done depot ∧ activation.SameIntake noted) fun _ => done :=
    Act.Meets.bind (rules.marked .processed) fun _ =>
      Act.Meets.bind (rules.counted change) fun _ =>
        Act.Meets.pure fun _ isDone => ⟨isDone, same⟩
  unfold Engine.settle
  split
  · rename_i outcome
    refine (rules.finalise outcome).attempt.bind fun finalised => ?_
    cases finalised with
    | ok =>
        exact completed { activation with binsProcessed := activation.binsProcessed + 1 }
          ⟨rfl, rfl⟩ _
    | error fault => exact rules.giveUp activation
  · refine (rules.deliver failureRelationship).attempt.bind fun delivered => ?_
    cases delivered with
    | ok =>
        exact completed { activation with binsFailed := activation.binsFailed + 1 }
          ⟨rfl, rfl⟩ _
    -- the fault is one of a session, which the engine answers with a roll back
    | error fault =>
        apply Act.Meets.knowing
        intro kind
        dsimp only
        rw [if_pos kind]
        exact rules.giveUp activation
  · exact rules.giveUp activation

theorem handle (activation : Activation) :
    (handle hooks bin activation).Meets busy
      (fun noted depot => done depot ∧ activation.SameIntake noted) fun _ => done := by
  have noted : (noteHandled bin).Meets busy (fun _ => busy) fun _ => done :=
    Act.Meets.modify rules.noted
  have answered : (Act.attempt (hooks.process bin).run).Meets busy (fun _ => busy)
      fun _ => done := by
    refine (Act.Meets.attempt rules.processed).weaken (fun _ => id) ?_ fun _ _ => id
    intro answer depot isBusy
    cases answer <;> exact isBusy
  exact noted.bind fun _ => answered.bind fun answer => rules.settle answer activation

end DrainRules

/-- What holds of a depot with its queue holds again when every bin was handed to the
processor, if there are rules by which each bin is taken off the queue and completed. -/
theorem drainBins_of_rules {hooks : Hooks} {idle : List BinId → Depot → Prop}
    (taken : ∀ bin rest depot, idle (bin :: rest) depot →
      ∃ owner busy done, DrainRules hooks bin owner busy done ∧
        busy { depot with ready := rest } ∧ ∀ reached, done reached → idle rest reached)
    (queue : List BinId) (activation : Activation) :
    (drainBins hooks queue activation).Meets (idle queue)
      (fun noted depot => idle [] depot ∧ activation.SameIntake noted)
      fun _ depot => ∃ rest, idle rest depot := by
  induction queue generalizing activation with
  | nil => exact Act.Meets.pure fun _ isIdle => ⟨isIdle, rfl, rfl⟩
  | cons bin rest ih =>
      intro depot isIdle
      obtain ⟨owner, busy, done, rules, isBusy, completed⟩ := taken bin rest depot isIdle
      have handled : (handle hooks bin activation).Meets busy
          (fun noted depot => idle rest depot ∧ activation.SameIntake noted)
          fun _ depot => ∃ rest, idle rest depot :=
        (rules.handle activation).weaken (fun _ => id)
          (fun _ reached holds => ⟨completed reached holds.1, holds.2⟩)
          fun _ reached isDone => ⟨rest, completed reached isDone⟩
      refine handled.bind (fun noted => Act.Meets.knowing fun same => ?_) _ isBusy
      refine (ih noted).weaken (fun _ => id) ?_ fun _ _ => id
      exact fun last _ holds => ⟨holds.1, holds.2.itemsBinned.trans same.itemsBinned,
        holds.2.binsMigrated.trans same.binsMigrated⟩

end Engine

end ItemBinning
