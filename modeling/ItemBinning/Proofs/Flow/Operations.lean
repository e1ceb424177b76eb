import ItemBinning.Flow
import ItemBinning.Proofs.Contract
import ItemBinning.Proofs.Session.Coherence

/-!
# What the operations of a flow do

Each operation on sessions either fails and leaves the flow as it was, or has
one effect.  From these effects it follows that the operations keep the sessions
coherent, and that they bring no items into the flow that were not in it, new
versions with other attributes excepted.
-/

namespace ItemBinning.Flow

@[simp] theorem source_setSession (flow : Flow) (number : SessionId)
    (session : Session) : (flow.setSession number session).source = flow.source :=
  rfl

@[simp] theorem sinks_setSession (flow : Flow) (number : SessionId)
    (session : Session) : (flow.setSession number session).sinks = flow.sinks :=
  rfl

@[simp] theorem sessions_setSession (flow : Flow) (number : SessionId)
    (session : Session) :
    (flow.setSession number session).sessions = flow.sessions.set number session :=
  rfl

theorem session_setSession (flow : Flow) (number other : SessionId)
    (session : Session) :
    (flow.setSession number session).session other =
      if other = number then session else flow.session other :=
  Slots.get_set flow.sessions number other session

/-- The flow after an item went from one session to another. -/
def handed (flow : Flow) (source target : SessionId) (id : String)
    (current : Item) : Flow :=
  let giver := flow.session source
  let between := flow.setSession source (giver.release id)
  between.setSession target ((between.session target).receive id current
    ((giver.pulled.find? id).getD current) (giver.destinations.find? id))

/-- The flow after a session delivered its items. -/
def delivered (flow : Flow) (number : SessionId) : Flow :=
  let holder := flow.session number
  Flow.setSession
    { flow with
      sinks := flow.sinks.mapValues fun relationship received =>
        received ++ holder.routedTo relationship }
    number { holder.clear with commits := holder.commits + 1 }

/-- The flow after a session returned its items. -/
def returned (flow : Flow) (number : SessionId) : Flow :=
  let holder := flow.session number
  Flow.setSession { flow with source := holder.pulled.values ++ flow.source }
    number { holder.clear with rollbacks := holder.rollbacks + 1 }

theorem openSession_eq (flow : Flow) :
    openSession flow = (.ok flow.sessions.next,
      { flow with sessions := flow.sessions.push {} }) :=
  rfl

/-- A session that was just opened holds nothing, like those not yet opened. -/
theorem session_push (flow : Flow) (number : SessionId) :
    Flow.session { flow with sessions := flow.sessions.push {} } number =
      flow.session number := by
  unfold session
  rw [Slots.get_push]
  split
  · rename_i fresh
    rw [fresh, Slots.get_of_next_le (Nat.le_refl _)]
    rfl
  · rfl

theorem ids_opened (flow : Flow) :
    (Flow.session { flow with sessions := flow.sessions.push {} } flow.sessions.next).ids =
      [] := by
  rw [session_push, session, Slots.get_of_next_le (Nat.le_refl _)]
  rfl

/-- The flow after a session pulled items from the front of the source. -/
def pulled (flow : Flow) (number : SessionId) (count : Nat) : Flow :=
  Flow.setSession { flow with source := flow.source.drop count } number
    ((flow.session number).receivePulled (flow.source.take count))

/-- A pull takes up the items at the front of the source, unless an id stands twice: then
everything stays where it was. -/
theorem pull_eq (number : SessionId) (count : Int) (flow : Flow) :
    pull number count flow =
      match firstRepeated (flow.session number).ids (flow.source.take count.toNat) with
      | some id => (.error (.repeatedItem id number), flow)
      | none => (.ok (flow.source.take count.toNat), flow.pulled number count.toNat) := by
  have polled : poll count flow = (.ok (flow.source.take count.toNat),
      { flow with source := flow.source.drop count.toNat }) := rfl
  have unchanged :
      Flow.session { flow with source := flow.source.drop count.toNat } number =
        flow.session number := rfl
  rw [pull, Act.bind_of_ok polled, Act.read_bind, unchanged]
  rcases firstRepeated (flow.session number).ids (flow.source.take count.toNat) with _ | id
  · rfl
  · have requeued : requeue (flow.source.take count.toNat)
        { flow with source := flow.source.drop count.toNat } = (.ok (), flow) := by
      simp [requeue, Act.modify]
    exact Act.bind_of_ok requeued _

theorem pull_cases (number : SessionId) (count : Int) (flow : Flow) :
    (∃ id, pull number count flow = (.error (.repeatedItem id number), flow)) ∨
      firstRepeated (flow.session number).ids (flow.source.take count.toNat) = none ∧
      pull number count flow = (.ok (flow.source.take count.toNat),
        Flow.setSession { flow with source := flow.source.drop count.toNat } number
          ((flow.session number).receivePulled (flow.source.take count.toNat))) := by
  rw [pull_eq]
  rcases firstRepeated (flow.session number).ids (flow.source.take count.toNat) with _ | id
  · exact .inr ⟨rfl, rfl⟩
  · exact .inl ⟨id, rfl⟩

theorem handOver_cases (source target : SessionId) (item : Item) (flow : Flow) :
    (flow.session source).current.find? item.id = none ∧
        handOver source target item flow =
          (.error (.notHeld item.id source), flow) ∨
      ∃ current, (flow.session source).current.find? item.id = some current ∧
        handOver source target item flow =
          (.ok (), flow.handed source target item.id current) := by
  rw [handOver, Act.read_bind]
  rcases (flow.session source).current.find? item.id with _ | current
  · exact .inl ⟨rfl, rfl⟩
  · exact .inr ⟨current, rfl, rfl⟩

theorem routeOne_cases (number : SessionId) (relationship : String) (item : Item)
    (flow : Flow) :
    item.id ∉ (flow.session number).ids ∧
        routeOne number relationship item flow =
          (.error (.notHeld item.id number), flow) ∨
      item.id ∈ (flow.session number).ids ∧
        routeOne number relationship item flow =
          (.ok (), flow.setSession number { flow.session number with
            destinations :=
              (flow.session number).destinations.put item.id relationship }) := by
  rw [routeOne, Act.read_bind]
  by_cases held : item.id ∈ (flow.session number).ids
  · rw [if_pos (Session.holds_iff.2 held)]
    exact .inr ⟨held, rfl⟩
  · rw [if_neg fun holds => held (Session.holds_iff.1 holds)]
    exact .inl ⟨held, rfl⟩

theorem annotate_cases (number : SessionId) (item : Item)
    (attributes : Attributes) (flow : Flow) :
    (flow.session number).current.find? item.id = none ∧
        annotate number item attributes flow =
          (.error (.notHeld item.id number), flow) ∨
      ∃ current, (flow.session number).current.find? item.id = some current ∧
        annotate number item attributes flow =
          (.ok (current.withAttributes attributes),
            flow.setSession number { flow.session number with
              current := (flow.session number).current.put item.id
                (current.withAttributes attributes) }) := by
  rw [annotate, Act.read_bind]
  rcases (flow.session number).current.find? item.id with _ | current
  · exact .inl ⟨rfl, rfl⟩
  · exact .inr ⟨current, rfl, rfl⟩

/-- A session is delivered as a whole or not at all. -/
theorem commit_cases (number : SessionId) (flow : Flow) :
    (flow.session number).unrouted ≠ [] ∧
        commit number flow =
          (.error (.unrouted (flow.session number).unrouted), flow) ∨
      (flow.session number).unrouted = [] ∧
        commit number flow = (.ok (), flow.delivered number) := by
  rw [commit, Act.read_bind]
  by_cases complete : (flow.session number).unrouted = []
  · rw [if_pos (List.isEmpty_iff.2 complete)]
    exact .inr ⟨complete, rfl⟩
  · rw [if_neg fun none => complete (List.isEmpty_iff.1 none)]
    exact .inl ⟨complete, rfl⟩

theorem rollBack_eq (number : SessionId) (flow : Flow) :
    rollBack number flow = (.ok (), flow.returned number) :=
  rfl

end ItemBinning.Flow
