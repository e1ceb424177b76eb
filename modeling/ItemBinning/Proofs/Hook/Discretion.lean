import ItemBinning.Proofs.Engine.Stock
import ItemBinning.Proofs.Hook.Adornment

/-!
# The discretion of hooks

Hooks have no hold on the sessions of bins that are open or queued.  A hook is given the
session of a chunk, or that of a bin which was taken off the queue, and it may remember
sessions that it was given before; other sessions were opened in advance, or it opens
them itself.  As long as it moves items among such sessions only, it leaves the bins
intact.
-/

namespace ItemBinning

/-- What is done to other sessions leaves a session as it is. -/
theorem Flow.migrate_apart {source target number : SessionId} (notSource : number ≠ source)
    (notTarget : number ≠ target) (items : List Item) (session : Session) :
    (migrate source target items).Keeps fun flow => flow.session number = session := by
  unfold migrate
  split
  · exact Act.Keeps.pure ()
  · refine Act.Keeps.forEach fun item _ => Act.Keeps.of_final fun flow same => ?_
    rcases handOver_cases source target item flow with ⟨_, run⟩ | ⟨current, _, run⟩ <;>
      rw [run]
    · exact same
    · exact (session_handed_of_ne notSource notTarget).trans same

namespace Call

/-- The call moves items into the session or out of it. -/
def Moves (session : SessionId) : Call → Prop
  | .pull number _ => number = session
  | .migrate source target _ => source = session ∨ target = session
  | .commit number => number = session
  | .rollBack number => number = session
  | _ => False

theorem perform_ids {call : Call} {session : SessionId} (apart : ¬ call.Moves session)
    (depot : Depot) :
    ((call.perform depot).2.flow.session session).ids = (depot.flow.session session).ids := by
  cases call with
  | openSession => exact congrArg Session.ids (Flow.session_push depot.flow session)
  | pull number count =>
      change ((Flow.pull number count depot.flow).2.session session).ids = _
      rcases Flow.pull_cases number count depot.flow with ⟨_, run⟩ | ⟨_, run⟩ <;> rw [run]
      rw [Flow.session_setSession, if_neg (Ne.symm apart)]
      rfl
  | migrate source target items =>
      simp only [Moves, not_or] at apart
      exact congrArg Session.ids ((Flow.migrate_apart (Ne.symm apart.1) (Ne.symm apart.2)
        items (depot.flow.session session)).final rfl)
  | route number items relationship =>
      exact ((Flow.route_adorns number items relationship).final (.refl depot.flow)).ids session
  | annotate number item attributes =>
      exact ((Flow.annotate_adorns number item attributes).final (.refl depot.flow)).ids session
  | commit number =>
      change ((Flow.commit number depot.flow).2.session session).ids = _
      rcases Flow.commit_cases number depot.flow with ⟨_, run⟩ | ⟨_, run⟩ <;> rw [run]
      rw [Flow.session_delivered_of_ne _ (Ne.symm apart)]
  | rollBack number =>
      exact congrArg Session.ids (Flow.session_returned_of_ne depot.flow (Ne.symm apart))
  | mark bin target =>
      change ((Depot.mark bin target depot).2.flow.session session).ids = _
      by_cases follows : target ∈ (depot.bin bin).state.successors
      · rw [Depot.mark_eq follows]
        rfl
      · rw [Depot.mark_error follows]
  | createItem | put | applyPolicy | advance | numberBundle | tally => rfl

/-- The call moves no items of bins that are open or queued. -/
def Spares (depot : Depot) (call : Call) : Prop :=
  ∀ session, call.Moves session → ¬ depot.Owned session

theorem perform_intact {mayPut : List Item → Prop} {own : Option BinId} {call : Call}
    (permitted : call.Permitted mayPut own) {depot : Depot} (spares : call.Spares depot)
    (free : ∀ bin, own = some bin → ¬ depot.Stored bin) :
    depot.Intact (call.perform depot).2 := by
  have held (session : SessionId) (owned : depot.Owned session) :
      ((call.perform depot).2.flow.session session).ids = (depot.flow.session session).ids :=
    perform_ids (fun moves => spares session moves owned) depot
  have sessions : depot.flow.sessions.next ≤ (call.perform depot).2.flow.sessions.next :=
    (call.perform_carried (Flow.carried_sessions depot.flow.sessions.next)
      fun _ _ _ => id).final (Nat.le_refl _)
  have effect := call.effect_perform depot
  generalize (call.perform depot).2 = reached at held sessions effect
  cases effect with
  | flow | policy | aside => exact .of_same rfl sessions (fun _ => id) (fun _ => id) held
  | state bin target => exact .setBin depot (free bin permitted) ⟨rfl, rfl, rfl, rfl⟩

end Call

namespace Script

variable {α : Type}

/-- Whatever the script does when it is run on the depot, it moves no items of bins that
are open or queued. -/
def Spares : Script α → Depot → Prop
  | .done _, _ => True
  | .fail _, _ => True
  | .look next, depot => (next depot).Spares depot
  | .call operation next, depot =>
      operation.Spares depot ∧
        (next (operation.perform depot).1).Spares (operation.perform depot).2
  | .pause rest, depot => rest.Spares depot

theorem run_intact {mayPut : List Item → Prop} {own : Option BinId} {script : Script α}
    (uses : script.Uses (Call.Permitted mayPut own)) {depot : Depot}
    (spares : script.Spares depot) (free : ∀ bin, own = some bin → ¬ depot.Stored bin) :
    depot.Intact (script.run depot).2 := by
  induction script generalizing depot with
  | done | fail => exact .refl depot
  | look next ih => exact ih depot (uses depot) spares free
  | call operation next ih =>
      have first := Call.perform_intact uses.1 spares.1 free
      have later := ih _ (uses.2 _) spares.2 fun bin isOwn stored =>
        free bin isOwn (first.stored bin stored)
      exact first.trans later
  | pause rest ih => exact ih uses spares free

end Script

/-- The sessions of the bins that are open or queued were opened in the course of a run,
and not in advance of it. -/
def Depot.Settled (aside : SessionId) (depot : Depot) : Prop :=
  ∀ bin, depot.Stored bin →
    aside ≤ (depot.bin bin).session ∧ (depot.bin bin).session < depot.flow.sessions.next

/-- The hooks move no items of bins that are open or queued, if they are given sessions of
no such bins.  Some sessions were opened in advance. -/
structure Hooks.Spare (aside : SessionId) (hooks : Hooks) : Prop where
  preprocess : ∀ item session (depot : Depot), depot.Settled aside → ¬ depot.Owned session →
    (hooks.preprocess item session).Spares depot
  groupKey : ∀ item (depot : Depot), depot.Settled aside → (hooks.groupKey item).Spares depot
  process : ∀ bin (depot : Depot), depot.Settled aside →
    ¬ depot.Owned (depot.bin bin).session → (hooks.process bin).Spares depot

end ItemBinning
