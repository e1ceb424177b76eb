import ItemBinning.Hook.Script
import ItemBinning.Proofs.Flow.Carried
import ItemBinning.Proofs.Shelf.Arrangement

/-!
# The conduct of hooks

What a hook can do to the depot is bounded by the calls that its script can make.
A script is run through its calls, so whatever every allowed call keeps is kept
by every script that uses no others.  The calls permitted to hooks work on
sessions, on the policy and on the clock, and the processor may also move the bin
that it was handed to another state; none of them disturbs the shelf or the queue.
-/

namespace ItemBinning

namespace Script

variable {α : Type} {allowed more : Call → Prop}

/-- Every call that the script can make is allowed. -/
def Uses (allowed : Call → Prop) : Script α → Prop
  | .done _ => True
  | .fail _ => True
  | .look next => ∀ depot, (next depot).Uses allowed
  | .call operation next =>
      allowed operation ∧ ∀ outcome, (next outcome).Uses allowed
  | .pause rest => rest.Uses allowed

theorem Uses.mono {script : Script α} (uses : script.Uses allowed)
    (weaker : ∀ call, allowed call → more call) : script.Uses more := by
  induction script with
  | done | fail => trivial
  | look next ih => exact fun depot => ih depot (uses depot)
  | call operation next ih =>
      exact ⟨weaker operation uses.1, fun outcome => ih outcome (uses.2 outcome)⟩
  | pause rest ih => exact ih uses

/-- A script keeps what all the calls that it can make keep. -/
theorem Uses.keeps {script : Script α} (uses : script.Uses allowed)
    {kept : Depot → Prop} (calls : ∀ call, allowed call → call.perform.Keeps kept) :
    script.run.Keeps kept := by
  apply Act.Keeps.of_final
  intro depot holds
  induction script generalizing depot with
  | done | fail => exact holds
  | look next ih => exact ih depot (uses depot) depot holds
  | call operation next ih =>
      exact ih _ (uses.2 _) _ (Act.Meets.final (calls operation uses.1) holds)
  | pause rest ih => exact ih uses depot holds

end Script

namespace Call

/-- The call is one that a hook may make: it puts only what may be put, and moves
no bin but the one that was handed to the hook, if there is one. -/
def Permitted (mayPut : List Item → Prop) (own : Option BinId) : Call → Prop
  | .put items => mayPut items
  | .mark bin _ => own = some bin
  | _ => True

/-- The call leaves the policy in force. -/
def LeavesPolicy : Call → Prop
  | .applyPolicy _ => False
  | _ => True

/-- The call does not move the clock. -/
def KeepsTime : Call → Prop
  | .advance _ => False
  | _ => True

/-- What a call can change in the depot. -/
inductive Effect (depot : Depot) : Call → Depot → Prop
  /-- The flow, with a note of what moved. -/
  | flow (call : Call) (flow : Flow) (moves : List (SessionId × String)) :
      Effect depot call { depot with flow, moves }
  /-- The policy in force. -/
  | policy (policy : Policy) :
      Effect depot (.applyPolicy policy)
        { depot with shelf := { depot.shelf with thresholds := policy.thresholds } }
  /-- The state of a bin. -/
  | state (bin : BinId) (target : BinState) :
      Effect depot (.mark bin target)
        (depot.setBin bin { depot.bin bin with state := target })
  /-- What no operation on items and bins depends on, and the clock. -/
  | aside (call : Call) (clock : Moment) (created bundles : Nat)
      (tallies : Table String Nat) :
      Effect depot call { depot with clock, created, bundles, tallies }

theorem effect_perform (call : Call) (depot : Depot) :
    Effect depot call (call.perform depot).2 := by
  cases call with
  | openSession | pull | migrate | route | annotate | commit | rollBack | put =>
      exact .flow _ _ _
  | createItem => exact .aside _ depot.clock _ depot.bundles depot.tallies
  | advance => exact .aside _ _ depot.created depot.bundles depot.tallies
  | numberBundle => exact .aside _ depot.clock depot.created _ depot.tallies
  | tally => exact .aside _ depot.clock depot.created depot.bundles _
  | applyPolicy policy => exact .policy policy
  | mark bin target =>
      change Effect depot _ (Depot.mark bin target depot).2
      by_cases follows : target ∈ (depot.bin bin).state.successors
      · rw [Depot.mark_eq follows]
        exact .state bin target
      · rw [Depot.mark_error follows]
        exact .flow _ depot.flow depot.moves

/-- What the operations of a flow carry on, every call keeps, except that putting
items is no such operation. -/
theorem perform_carried (call : Call) {property : Flow → Prop}
    (carried : Flow.Carried property)
    (put : ∀ items, call = .put items → ∀ flow, property flow →
      property { flow with source := flow.source ++ items }) :
    call.perform.Keeps fun depot => property depot.flow := by
  apply Act.Keeps.of_final
  intro depot holds
  cases call with
  | openSession => exact Act.Meets.final carried.openSession holds
  | pull session count => exact Act.Meets.final (carried.pull session count) holds
  | migrate source target items =>
      exact Act.Meets.final (carried.migrate source target items) holds
  | route session items relationship =>
      exact Act.Meets.final (carried.route session items relationship) holds
  | annotate session item attributes =>
      exact Act.Meets.final (carried.annotate session item attributes) holds
  | commit session => exact Act.Meets.final (carried.commit session) holds
  | rollBack session => exact Act.Meets.final (carried.rollBack session) holds
  | put items => exact put items rfl depot.flow holds
  | createItem | applyPolicy | advance | numberBundle | tally => exact holds
  | mark bin target =>
      change property (Depot.mark bin target depot).2.flow
      by_cases follows : target ∈ (depot.bin bin).state.successors
      · rwa [Depot.mark_eq follows]
      · rwa [Depot.mark_error follows]

variable {mayPut : List Item → Prop} {own : Option BinId}

/-- A permitted call disturbs neither the shelf nor the queue, if the bin that was
handed to the hook stands in neither of them. -/
theorem perform_undisturbed {call : Call} (permitted : call.Permitted mayPut own)
    {start : Depot} (free : ∀ bin, own = some bin →
      bin < start.bins.next ∧ ¬ start.Stored bin) :
    call.perform.Keeps (start.Undisturbed ·) := by
  refine Act.Keeps.of_final fun depot undisturbed => undisturbed.trans ?_
  have sessions : depot.flow.sessions.next ≤ (call.perform depot).2.flow.sessions.next :=
    Act.Meets.final (call.perform_carried (Flow.carried_sessions depot.flow.sessions.next)
      fun _ _ _ => id) (Nat.le_refl _)
  have effect := call.effect_perform depot
  generalize (call.perform depot).2 = reached at sessions effect
  cases effect with
  | flow | policy | aside => exact .of_same rfl rfl rfl rfl sessions
  | state bin target =>
      have ⟨isBin, notStored⟩ := free bin permitted
      exact .setBin depot (undisturbed.next.symm ▸ isBin)
        (fun stored => notStored ((undisturbed.stored bin).1 stored)) ⟨rfl, rfl, rfl, rfl⟩

/-- A call leaves the shelf as it is, unless it puts a policy in force. -/
theorem perform_shelf (call : Call) (kept : Shelf → Prop)
    (policies : ∀ policy, call = .applyPolicy policy → ∀ shelf, kept shelf →
      kept { shelf with thresholds := policy.thresholds }) :
    call.perform.Keeps fun depot => kept depot.shelf := by
  apply Act.Keeps.of_final
  intro depot holds
  have effect := call.effect_perform depot
  generalize (call.perform depot).2 = reached at effect
  cases effect with
  | flow | aside | state => exact holds
  | policy policy => exact policies policy rfl depot.shelf holds

theorem perform_clock {call : Call} (keepsTime : call.KeepsTime) (depot : Depot) :
    (call.perform depot).2.clock = depot.clock := by
  cases call with
  | advance => exact keepsTime.elim
  | mark bin target =>
      change (Depot.mark bin target depot).2.clock = depot.clock
      by_cases follows : target ∈ (depot.bin bin).state.successors
      · rw [Depot.mark_eq follows]
        rfl
      · rw [Depot.mark_error follows]
  | _ => rfl

theorem perform_ready (call : Call) (queue : List BinId) :
    call.perform.Keeps fun depot => depot.ready = queue := by
  apply Act.Keeps.of_final
  intro depot holds
  have effect := call.effect_perform depot
  generalize (call.perform depot).2 = reached at effect
  cases effect <;> exact holds

end Call

section Runs

variable {α : Type} {script : Script α} {mayPut : List Item → Prop} {own : Option BinId}

theorem Script.Uses.undisturbed (uses : script.Uses (Call.Permitted mayPut own))
    {start : Depot} (free : ∀ bin, own = some bin →
      bin < start.bins.next ∧ ¬ start.Stored bin) :
    script.run.Keeps (start.Undisturbed ·) :=
  uses.keeps fun _ permitted => Call.perform_undisturbed permitted free

theorem Script.uses_anything (script : Script α) : script.Uses fun _ => True := by
  induction script with
  | done | fail => trivial
  | look next ih => exact ih
  | call operation next ih => exact ⟨trivial, ih⟩
  | pause rest ih => exact ih

theorem Script.run_ready (script : Script α) (queue : List BinId) :
    script.run.Keeps fun depot => depot.ready = queue :=
  script.uses_anything.keeps fun call _ => call.perform_ready queue

/-- A script that leaves the policy in force leaves the shelf as it is. -/
theorem Script.Uses.shelf (uses : script.Uses Call.LeavesPolicy) (shelf : Shelf) :
    script.run.Keeps fun depot => depot.shelf = shelf :=
  uses.keeps fun call leaves => call.perform_shelf (· = shelf) (by
    rintro policy rfl
    exact leaves.elim)

end Runs

end ItemBinning
