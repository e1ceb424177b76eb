import ItemBinning.Depot

/-!
# Scripts

Hooks are programs that the engine runs while it works.  A hook may look at the
depot and call for the operations listed here; each call is answered before the
hook goes on, and a hook may handle the fault of a call.  Since a script shows
every call it can make, what a hook may touch can be stated as a property of
its script.
-/

namespace ItemBinning

/-- The operations that a hook can call for. -/
inductive Call
  | openSession
  | pull (session : SessionId) (count : Int)
  | migrate (source target : SessionId) (items : List Item)
  | route (session : SessionId) (items : List Item) (relationship : String)
  | annotate (session : SessionId) (item : Item) (attributes : Attributes)
  | commit (session : SessionId)
  | rollBack (session : SessionId)
  | createItem (fields : Fields)
  | put (items : List Item)
  | mark (bin : BinId) (target : BinState)
  | applyPolicy (policy : Policy)
  | advance (seconds : Float)
  /-- Number a bundle. -/
  | numberBundle
  /-- Count one more under a name, and learn the count before it. -/
  | tally (name : String)

namespace Call

/-- What a call is answered with. -/
def Reply : Call → Type
  | .openSession => SessionId
  | .pull _ _ => List Item
  | .annotate _ _ _ => Item
  | .createItem _ => Item
  | .advance _ => Float
  | .numberBundle => Nat
  | .tally _ => Nat
  | _ => Unit

def perform : (call : Call) → Act Depot call.Reply
  | .openSession => Depot.onFlow Flow.openSession
  | .pull session count =>
      Depot.noteArrivals session (Depot.onFlow (Flow.pull session count))
  | .migrate source target items =>
      Depot.noteArrivals target
        (Depot.onFlow (Flow.migrate source target items))
  | .route session items relationship =>
      Depot.onFlow (Flow.route session items relationship)
  | .annotate session item attributes =>
      Depot.onFlow (Flow.annotate session item attributes)
  | .commit session => Depot.onFlow (Flow.commit session)
  | .rollBack session => Depot.onFlow (Flow.rollBack session)
  | .createItem fields => Depot.createItem fields
  | .put items => Depot.onFlow (Flow.put items)
  | .mark bin target => Depot.mark bin target
  | .applyPolicy policy => Depot.applyPolicy policy
  | .advance seconds => Depot.advance seconds
  | .numberBundle => fun depot =>
      (.ok depot.bundles, { depot with bundles := depot.bundles + 1 })
  | .tally name => fun depot =>
      let before := (depot.tallies.find? name).getD 0
      (.ok before,
        { depot with tallies := depot.tallies.put name (before + 1) })

end Call

/-- A program of a hook, with an answer of type `α`. -/
inductive Script (α : Type) : Type
  | done (answer : α)
  | fail (fault : Fault)
  /-- Go on by what the depot shows. -/
  | look (next : Depot → Script α)
  /-- Call for an operation, and go on by its outcome. -/
  | call (operation : Call) (next : Except Fault operation.Reply → Script α)
  /-- Wait for leave to go on. -/
  | pause (rest : Script α)

namespace Script

variable {α β : Type}

/-- Run a script and go on with its answer. -/
def bind : Script α → (α → Script β) → Script β
  | .done answer, next => next answer
  | .fail fault, _ => .fail fault
  | .look rest, next => .look fun depot => (rest depot).bind next
  | .call operation rest, next =>
      .call operation fun outcome => (rest outcome).bind next
  | .pause rest, next => .pause (rest.bind next)

instance : Monad Script where
  pure := .done
  bind := bind

instance : Inhabited (Script α) := ⟨.fail .hookFailure⟩

/-- Call for an operation and fail if it fails. -/
def perform (operation : Call) : Script operation.Reply :=
  .call operation fun
    | .ok reply => .done reply
    | .error fault => .fail fault

/-- Part of what the depot shows. -/
def see (part : Depot → α) : Script α :=
  .look fun depot => .done (part depot)

/-- Run a script on the depot; leave to go on is given at once. -/
def run : Script α → Act Depot α
  | .done answer => pure answer
  | .fail fault => Act.fail fault
  | .look next => fun depot => (next depot).run depot
  | .call operation next => fun depot =>
      match operation.perform depot with
      | (outcome, reached) => (next outcome).run reached
  | .pause rest => rest.run

/-- Run a script on the depot up to the first pause, and answer with the script
that is left: an answer, a fault, or what follows the pause. -/
def runToPause : Script α → Depot → Script α × Depot
  | .done answer, depot => (.done answer, depot)
  | .fail fault, depot => (.fail fault, depot)
  | .look next, depot => (next depot).runToPause depot
  | .call operation next, depot =>
      match operation.perform depot with
      | (outcome, reached) => (next outcome).runToPause reached
  | .pause rest, depot => (.pause rest, depot)

/-- Running what is left at a pause is running the whole. -/
theorem run_runToPause (script : Script α) (depot : Depot) :
    (script.runToPause depot).1.run (script.runToPause depot).2 =
      script.run depot := by
  induction script generalizing depot with
  | done answer => rfl
  | fail fault => rfl
  | look rest ih => exact ih depot depot
  | call operation rest ih => exact ih _ _
  | pause rest => rfl

@[simp] theorem run_done (answer : α) (depot : Depot) :
    (done answer).run depot = (.ok answer, depot) :=
  rfl

/-- Running a composed script runs its parts one after the other. -/
theorem run_bind (script : Script α) (next : α → Script β) :
    (script.bind next).run = script.run >>= fun answer => (next answer).run := by
  induction script with
  | done answer => rfl
  | fail fault => rfl
  | look rest ih =>
      funext depot
      exact congrFun (ih depot) depot
  | call operation rest ih =>
      funext depot
      exact congrFun (ih (operation.perform depot).1) (operation.perform depot).2
  | pause rest ih => exact ih

end Script

/-- What a processor answers about a bin: attributes for its items, or the word
that the bin's session is completed already. -/
structure Outcome where
  attributes : Attributes := .empty
  committed : Bool := false

/-- The programs that an engine runs: one applied to each item before its group
key is computed, one that computes the key, and one that processes a ready bin.
Each may answer nothing of use. -/
structure Hooks where
  preprocess : Item → SessionId → Script (Option Item) :=
    fun item _ => .done (some item)
  groupKey : Item → Script Value
  process : BinId → Script (Option Outcome)

end ItemBinning
