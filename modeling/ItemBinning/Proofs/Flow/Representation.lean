import ItemBinning.Proofs.Flow.Carried

/-!
# Sessions under any sequence of operations

The sessions of a flow are three tables each, which the operations write
separately, into two sessions at once when items are handed over, and up to the
first fault when one operation works through several items.  Whatever sequence of
operations has run, answered or failed, every session is well formed.  A delivery
that looks every destination up among the sinks therefore finds a sink for each,
and fails for want of a destination only.
-/

namespace ItemBinning

/-- The three tables of a session fit together, its destinations being among the
known relationships. -/
structure Session.WellFormed (known : List String) (session : Session) : Prop where
  order : session.current.keys = session.pulled.keys
  currentId : ∀ id item, session.current.find? id = some item → item.id = id
  pulledId : ∀ id item, session.pulled.find? id = some item → item.id = id
  versions : ∀ id current pulled, session.current.find? id = some current →
    session.pulled.find? id = some pulled →
      current = { pulled with attributes := current.attributes }
  routed : ∀ id relationship,
    session.destinations.find? id = some relationship →
      id ∈ session.ids ∧ relationship ∈ known

theorem Session.Coherent.wellFormed {known : List String} {session : Session}
    (coherent : session.Coherent known) : session.WellFormed known where
  order := coherent.keys.symm
  currentId _ _ := coherent.currentId
  pulledId := coherent.own
  versions id current pulled foundCurrent foundPulled := by
    obtain ⟨sameId, sameSize, sameContent⟩ :=
      coherent.versions id current pulled foundCurrent foundPulled
    obtain ⟨_, _, _, _⟩ := current
    cases sameId
    cases sameSize
    cases sameContent
    rfl
  routed := coherent.routed

namespace Session

/-- Put an item to those that go to the same destination. -/
def load (destinations : Table String String) (shipments : Table String (List Item))
    (entry : String × Item) : Table String (List Item) :=
  match destinations.find? entry.1 with
  | some relationship =>
      shipments.put relationship ((shipments.find? relationship).getD [] ++ [entry.2])
  | none => shipments

/-- The held items by destination, each relationship where its first item is. -/
def shipments (session : Session) : Table String (List Item) :=
  session.current.entries.foldl (load session.destinations) .empty

theorem find?_load (destinations : Table String String)
    (shipments : Table String (List Item)) (entry : String × Item)
    (relationship : String) :
    ((load destinations shipments entry).find? relationship).getD [] =
      (shipments.find? relationship).getD [] ++
        if destinations.find? entry.1 = some relationship then [entry.2] else [] := by
  unfold load
  cases destination : destinations.find? entry.1 with
  | none => simp
  | some given =>
      rw [Table.find?_put]
      by_cases same : relationship = given
      · simp [same]
      · simp [same, Ne.symm same]

theorem mem_keys_load {destinations : Table String String}
    {shipments : Table String (List Item)} {entry : String × Item}
    {relationship : String}
    (loaded : relationship ∈ (load destinations shipments entry).keys) :
    relationship ∈ shipments.keys ∨
      destinations.find? entry.1 = some relationship := by
  unfold load at loaded
  cases destination : destinations.find? entry.1 with
  | none =>
      rw [destination] at loaded
      exact .inl loaded
  | some given =>
      simp only [destination, Table.keys_put] at loaded
      split at loaded
      · exact .inl loaded
      · rcases List.mem_append.1 loaded with before | new
        · exact .inl before
        · exact .inr (congrArg some (List.mem_singleton.1 new).symm)

private theorem find?_foldl_load (destinations : Table String String)
    (entries : List (String × Item)) (shipments : Table String (List Item))
    (relationship : String) :
    ((entries.foldl (load destinations) shipments).find? relationship).getD [] =
      (shipments.find? relationship).getD [] ++
        (entries.filter fun entry =>
          destinations.find? entry.1 == some relationship).map Prod.snd := by
  induction entries generalizing shipments with
  | nil => simp
  | cons entry rest ih =>
      rw [List.foldl_cons, ih, find?_load, List.append_assoc]
      by_cases destination : destinations.find? entry.1 = some relationship <;>
        simp [destination]

private theorem mem_keys_foldl_load {destinations : Table String String}
    {entries : List (String × Item)} {shipments : Table String (List Item)}
    {relationship : String}
    (loaded : relationship ∈ (entries.foldl (load destinations) shipments).keys) :
    relationship ∈ shipments.keys ∨
      ∃ id, destinations.find? id = some relationship := by
  induction entries generalizing shipments with
  | nil => exact .inl loaded
  | cons entry rest ih =>
      rcases ih loaded with before | destination
      · rcases mem_keys_load before with before | destination
        · exact .inl before
        · exact .inr ⟨entry.1, destination⟩
      · exact .inr destination

/-- A relationship is shipped the held items that were routed to it, in their order. -/
theorem find?_shipments (session : Session) (relationship : String) :
    (session.shipments.find? relationship).getD [] = session.routedTo relationship :=
  find?_foldl_load session.destinations session.current.entries .empty relationship

/-- Nothing is shipped to a relationship that is nobody's destination. -/
theorem routed_of_mem_shipments {session : Session} {relationship : String}
    (shipped : relationship ∈ session.shipments.keys) :
    ∃ id, session.destinations.find? id = some relationship := by
  rcases mem_keys_foldl_load shipped with none | destination
  · cases none
  · exact destination

end Session

namespace Flow

/-- Append items to the sink of a relationship, which has to be there. -/
def ship (shipment : String × List Item) : Act Flow Unit := do
  match ← Act.read (·.sinks.find? shipment.1) with
  | some received =>
      Act.modify fun flow =>
        { flow with sinks := flow.sinks.put shipment.1 (received ++ shipment.2) }
  | none => Act.fail (.unknownName shipment.1)

/-- Deliver the items of a session relationship by relationship, looking the sink of
each up. -/
def dispatch (number : SessionId) : Act Flow Unit := do
  let holder ← Act.read (·.session number)
  if holder.unrouted.isEmpty then
    Act.forEach holder.shipments.entries ship
    Act.modify (·.setSession number { holder.clear with
      commits := holder.commits + 1 })
  else Act.fail (.unrouted holder.unrouted)

/-- What can be asked of the sessions of a flow, and of its source. -/
inductive Operation where
  | openSession
  | put (items : List Item)
  | pull (session : SessionId) (count : Value)
  | migrate (source target : SessionId) (items : List Item)
  | route (session : SessionId) (items : List Item) (relationship : Value)
  | annotate (session : SessionId) (item : Item) (attributes : Attributes)
  | commit (session : SessionId)
  | rollBack (session : SessionId)

namespace Operation

/-- The flow after an operation, whether it answered or failed. -/
def perform : Operation → Flow → Flow
  | openSession => Flow.openSession.final
  | put items => (Flow.put items).final
  | pull session count => (Flow.pullValue session count).final
  | migrate source target items => (Flow.migrate source target items).final
  | route session items relationship =>
      (Flow.routeValue session items relationship).final
  | annotate session item attributes =>
      (Flow.annotate session item attributes).final
  | commit session => (Flow.commit session).final
  | rollBack session => (Flow.rollBack session).final

/-- The flow after a sequence of operations. -/
def run (flow : Flow) (operations : List Operation) : Flow :=
  operations.foldl (fun reached operation => operation.perform reached) flow

end Operation

variable {known : List String} {flow : Flow}

theorem Carried.routeValue {property : Flow → Prop} (carried : Carried property)
    (number : SessionId) (items : List Item) (relationship : Value) :
    (Flow.routeValue number items relationship).Keeps property := by
  unfold Flow.routeValue
  split
  · exact carried.route number items _
  all_goals exact Act.Keeps.fail _

theorem coherent_put (items : List Item) : (Flow.put items).Keeps (Coherent known) :=
  Act.Meets.modify fun _ coherent => ⟨coherent.sinks, coherent.sessions⟩

/-- One operation keeps the tables of all sessions together. -/
theorem Coherent.perform (coherent : flow.Coherent known) (operation : Operation) :
    (operation.perform flow).Coherent known := by
  have carried := carried_coherent known
  cases operation with
  | openSession => exact carried.openSession.final coherent
  | put items => exact (coherent_put items).final coherent
  | pull session count => exact (carried.pullValue session count).final coherent
  | migrate source target items =>
      exact (carried.migrate source target items).final coherent
  | route session items relationship =>
      exact (carried.routeValue session items relationship).final coherent
  | annotate session item attributes =>
      exact (carried.annotate session item attributes).final coherent
  | commit session => exact (carried.commit session).final coherent
  | rollBack session => exact (carried.rollBack session).final coherent

theorem Coherent.run (coherent : flow.Coherent known) (operations : List Operation) :
    (Operation.run flow operations).Coherent known := by
  induction operations generalizing flow with
  | nil => exact coherent
  | cons operation rest ih => exact ih (coherent.perform operation)

/-- A sink that is there receives what is shipped to it, and no other does. -/
theorem ship_known {shipment : String × List Item}
    (isKnown : shipment.1 ∈ flow.sinks.keys) :
    ship shipment flow = (.ok (), { flow with
      sinks := flow.sinks.mapValues fun relationship received =>
        received ++ if relationship = shipment.1 then shipment.2 else [] }) := by
  obtain ⟨received, found⟩ := Table.mem_keys_iff.1 isKnown
  have put : flow.sinks.put shipment.1 (received ++ shipment.2) =
      flow.sinks.mapValues fun relationship received =>
        received ++ if relationship = shipment.1 then shipment.2 else [] := by
    refine Table.ext_of_keys (by
      rw [Table.keys_put, if_pos isKnown, Table.keys_mapValues]) fun relationship _ => ?_
    rw [Table.find?_put, Table.find?_mapValues]
    by_cases same : relationship = shipment.1
    · subst same
      simp [found]
    · simp [same]
  rw [ship, Act.read_bind, found, ← put]
  rfl

/-- Shipments to sinks that are there arrive, each at its own sink. -/
theorem forEach_ship {shipments : List (String × List Item)}
    (distinct : (shipments.map Prod.fst).Nodup)
    (areKnown : ∀ shipment ∈ shipments, shipment.1 ∈ flow.sinks.keys) :
    Act.forEach shipments ship flow = (.ok (), { flow with
      sinks := flow.sinks.mapValues fun relationship received =>
        received ++ (shipments.lookup relationship).getD [] }) := by
  induction shipments generalizing flow with
  | nil => simp [Act.forEach, Table.mapValues_self]
  | cons shipment rest ih =>
      rw [List.map_cons, List.nodup_cons] at distinct
      rw [Act.forEach, Act.bind_of_ok (ship_known (areKnown shipment (by simp))),
        ih distinct.2 fun other member => by
          rw [Table.keys_mapValues]
          exact areKnown other (List.mem_cons_of_mem _ member)]
      obtain ⟨target, items⟩ := shipment
      simp only [Table.mapValues_mapValues, List.append_assoc]
      congr 3
      funext relationship received
      by_cases same : relationship = target
      · subst same
        have once : rest.lookup relationship = none := by
          refine Option.eq_none_iff_forall_ne_some.2 fun more found => distinct.1 ?_
          have entry : (relationship, more) ∈ rest :=
            (Table.lookup_eq_some_iff distinct.2).1 found
          exact List.mem_map.2 ⟨_, entry, rfl⟩
        simp [once]
      · simp [List.lookup_cons, same, beq_false_of_ne same]

/-- In a coherent flow every destination has its sink, so looking it up is no further
way to fail. -/
theorem Coherent.dispatch_eq (coherent : flow.Coherent known) (number : SessionId) :
    dispatch number flow = commit number flow := by
  have areKnown : ∀ shipment ∈ (flow.session number).shipments.entries,
      shipment.1 ∈ flow.sinks.keys := by
    intro shipment member
    obtain ⟨id, destination⟩ :=
      Session.routed_of_mem_shipments (List.mem_map_of_mem member)
    exact coherent.sinks ▸ ((coherent.sessions number).routed id _ destination).2
  have shipped := forEach_ship (flow.session number).shipments.keys_nodup areKnown
  rw [dispatch, commit, Act.read_bind, Act.read_bind]
  split
  · rw [Act.bind_of_ok shipped]
    simp only [← Session.find?_shipments]
    rfl
  · rfl

/-- Before the first operation no session holds anything. -/
theorem coherent_start (source : List Item) (sinks : Table String (List Item)) :
    Coherent sinks.keys { source, sinks } where
  sinks := rfl
  sessions _ := Session.coherent_default

/-- How the delivery of a session can end: with all its items in the sinks, or with
nothing changed because some of them have no destination. -/
inductive Ends (flow : Flow) (number : SessionId) : Except Fault Unit × Flow → Prop where
  | delivered
      (complete : ∀ id ∈ (flow.session number).ids,
        ∃ relationship, (flow.session number).destinations.find? id = some relationship) :
      Ends flow number (.ok (), flow.delivered number)
  | refused {id : String} (held : id ∈ (flow.session number).ids)
      (unrouted : (flow.session number).destinations.find? id = none) :
      Ends flow number (.error (.unrouted (flow.session number).unrouted), flow)

theorem commit_ends (flow : Flow) (number : SessionId) :
    Ends flow number (commit number flow) := by
  rcases commit_cases number flow with ⟨incomplete, run⟩ | ⟨complete, run⟩ <;> rw [run]
  · obtain ⟨id, member⟩ := List.exists_mem_of_ne_nil _ incomplete
    obtain ⟨held, unrouted⟩ := List.mem_filter.1 member
    rw [← Table.isSome_find?, Bool.not_eq_true', Option.isSome_eq_false_iff,
      Option.isNone_iff_eq_none] at unrouted
    exact .refused held unrouted
  · refine .delivered fun id held => ?_
    have routed := List.filter_eq_nil_iff.1 complete id held
    rw [← Table.isSome_find?, Bool.not_eq_true', Bool.not_eq_false,
      Option.isSome_iff_exists] at routed
    exact routed

/-- After any operations on any number of sessions, over any source and any sinks,
every session is well formed, all its destinations being among the sinks, so that a
delivery that looks them up fails for want of a destination only. -/
theorem represented_after_operations (source : List Item)
    (sinks : Table String (List Item)) (operations : List Operation)
    (number : SessionId) :
    let flow := Operation.run { source, sinks } operations
    (flow.session number).WellFormed flow.sinks.keys ∧
      flow.sinks.keys = sinks.keys ∧
      commit number flow = dispatch number flow ∧
      Ends flow number (dispatch number flow) := by
  intro flow
  have coherent : flow.Coherent sinks.keys := (coherent_start source sinks).run operations
  refine ⟨coherent.sinks.symm ▸ (coherent.sessions number).wellFormed, coherent.sinks,
    (coherent.dispatch_eq number).symm, ?_⟩
  rw [coherent.dispatch_eq]
  exact commit_ends flow number

end Flow

end ItemBinning
