import ItemBinning.Proofs.Flow.Operations

/-!
# Delivering all items of a session

A session that holds just the items of a list can be given attributes for all of
them, routed as a whole to a known relationship and delivered.  Each of these steps
has a closed form, and a delivery appends the current versions to one sink, in
their order, and leaves the other sinks as they are.
-/

namespace ItemBinning

/-- Attributes that were put on an item already change nothing. -/
@[simp] theorem Item.withAttributes_withAttributes (item : Item) (attributes : Attributes) :
    (item.withAttributes attributes).withAttributes attributes =
      item.withAttributes attributes := by
  unfold Item.withAttributes
  dsimp only
  rw [Table.merge_merge_self]

namespace Session

variable (session : Session) (items : List Item) (relationship : String)

/-- The session with items routed to a relationship. -/
def routed : Session :=
  { session with
    destinations := items.foldl
      (fun destinations item => destinations.put item.id relationship)
      session.destinations }

/-- The session with attributes put over those of the items with some ids. -/
def annotated (ids : List String) (attributes : Attributes) : Session :=
  { session with
    current := session.current.mapValues fun id item =>
      if id ∈ ids then item.withAttributes attributes else item }

theorem find?_routed (id : String) :
    (session.routed items relationship).destinations.find? id =
      if id ∈ items.map Item.id then some relationship
      else session.destinations.find? id := by
  unfold routed
  dsimp only
  generalize session.destinations = destinations
  induction items generalizing destinations with
  | nil => rfl
  | cons item rest ih =>
      rw [List.foldl_cons, ih, Table.find?_put, List.map_cons]
      by_cases later : id ∈ rest.map Item.id
      · simp [later]
      · by_cases same : id = item.id <;> simp [later, same]

variable {session items relationship}

/-- A session that routed everything to one relationship has nothing left to route. -/
theorem unrouted_of_all
    (all : ∀ id ∈ session.ids, session.destinations.find? id = some relationship) :
    session.unrouted = [] := by
  apply List.filter_eq_nil_iff.2
  intro id held
  rw [← Table.isSome_find?, all id held]
  simp

theorem routedTo_of_all
    (all : ∀ id ∈ session.ids, session.destinations.find? id = some relationship)
    (other : String) :
    session.routedTo other = if other = relationship then session.items else [] := by
  have destination : ∀ entry ∈ session.current.entries,
      session.destinations.find? entry.1 = some relationship :=
    fun entry member => all entry.1 (List.mem_map_of_mem member)
  unfold routedTo
  split
  · rename_i same
    rw [List.filter_eq_self.2 fun entry member => by simp [destination entry member, same]]
    rfl
  · rename_i differs
    rw [List.filter_eq_nil_iff.2 fun entry member => by
      simp [destination entry member, Ne.symm differs]]
    rfl

private theorem destination_routed (holds : session.ids = items.map Item.id) :
    ∀ id ∈ (session.routed items relationship).ids,
      (session.routed items relationship).destinations.find? id = some relationship := by
  intro id held
  have isItem : id ∈ items.map Item.id := holds ▸ held
  rw [find?_routed, if_pos isItem]

theorem unrouted_routed (holds : session.ids = items.map Item.id) :
    (session.routed items relationship).unrouted = [] :=
  unrouted_of_all (destination_routed holds)

theorem routedTo_routed (holds : session.ids = items.map Item.id) (other : String) :
    (session.routed items relationship).routedTo other =
      if other = relationship then session.items else [] :=
  routedTo_of_all (destination_routed holds) other

@[simp] theorem ids_annotated (ids : List String) (attributes : Attributes) :
    (session.annotated ids attributes).ids = session.ids :=
  Table.keys_mapValues _ _

@[simp] theorem annotated_nil (attributes : Attributes) :
    session.annotated [] attributes = session := by
  unfold annotated
  simp only [List.not_mem_nil, if_false, Table.mapValues_self]

theorem annotated_put {id : String} {current : Item} (ids : List String)
    (attributes : Attributes) (found : session.current.find? id = some current) :
    Session.annotated { session with
        current := session.current.put id (current.withAttributes attributes) }
      ids attributes = session.annotated (id :: ids) attributes := by
  unfold annotated
  dsimp only
  congr 1
  have keys : (session.current.put id (current.withAttributes attributes)).keys =
      session.current.keys := by
    rw [Table.keys_put, if_pos (Table.mem_keys_of_find? found)]
  refine Table.ext_of_keys (by rw [Table.keys_mapValues, Table.keys_mapValues, keys])
    fun other _ => ?_
  rw [Table.find?_mapValues, Table.find?_mapValues, Table.find?_put]
  by_cases same : other = id
  · subst same
    simp [found]
  · simp [same]

theorem items_annotated {ids : List String} (attributes : Attributes)
    (all : ∀ id ∈ session.ids, id ∈ ids) :
    (session.annotated ids attributes).items =
      session.items.map (·.withAttributes attributes) := by
  unfold annotated items Table.values Table.mapValues
  dsimp only
  rw [List.map_map, List.map_map]
  apply List.map_congr_left
  intro entry member
  exact if_pos (all entry.1 (List.mem_map_of_mem member))

end Session

namespace Flow

variable {flow : Flow} {number : SessionId}

@[simp] theorem session_setSession_self (flow : Flow) (number : SessionId)
    (session : Session) : (flow.setSession number session).session number = session :=
  Slots.get_set_self _ _ _

@[simp] theorem setSession_setSession (flow : Flow) (number : SessionId)
    (first second : Session) :
    (flow.setSession number first).setSession number second =
      flow.setSession number second := by
  unfold setSession
  dsimp only
  rw [Slots.set_set]

theorem setSession_session (filled : number < flow.sessions.next) :
    flow.setSession number (flow.session number) = flow := by
  unfold setSession session
  rw [Slots.set_get filled]

theorem next_setSession (filled : number < flow.sessions.next) (session : Session) :
    (flow.setSession number session).sessions.next = flow.sessions.next :=
  Slots.next_set_of_lt filled _

/-- A session that routes all its items to one relationship delivers all of them there. -/
theorem sinks_delivered_of_all {relationship : String}
    (all : ∀ id ∈ (flow.session number).ids,
      (flow.session number).destinations.find? id = some relationship) :
    (flow.delivered number).sinks = flow.sinks.mapValues fun name received =>
      received ++ if name = relationship then (flow.session number).items else [] := by
  unfold delivered
  rw [sinks_setSession]
  dsimp only
  congr 1
  funext name received
  rw [Session.routedTo_of_all all]

/-- Routing items of a session changes neither versions nor other sessions. -/
theorem route_keeps (start : Flow) (session : SessionId) (items : List Item)
    (relationship : String) :
    (route session items relationship).Keeps fun flow =>
      flow.sinks = start.sinks ∧
      (∀ other, other ≠ session → flow.session other = start.session other) ∧
      (flow.session session).current = (start.session session).current := by
  refine (Act.Keeps.read _).bind fun known => ?_
  split
  · refine Act.Keeps.forEach fun item _ => Act.Keeps.of_final ?_
    rintro flow ⟨sinks, others, current⟩
    rcases routeOne_cases session relationship item flow with ⟨_, run⟩ | ⟨_, run⟩ <;> rw [run]
    · exact ⟨sinks, others, current⟩
    · refine ⟨sinks, fun other differs => ?_, ?_⟩
      · rw [session_setSession, if_neg differs]
        exact others other differs
      · rw [session_setSession_self]
        exact current
  · exact Act.Keeps.fail _

theorem forEach_routeOne (relationship : String) (items : List Item)
    (filled : number < flow.sessions.next)
    (held : ∀ item ∈ items, item.id ∈ (flow.session number).ids) :
    Act.forEach items (routeOne number relationship) flow =
      (.ok (), flow.setSession number
        ((flow.session number).routed items relationship)) := by
  induction items generalizing flow with
  | nil =>
      change (_, flow) = (_, flow.setSession number (flow.session number))
      rw [setSession_session filled]
  | cons item rest ih =>
      rcases routeOne_cases number relationship item flow with ⟨absent, _⟩ | ⟨_, run⟩
      · exact absurd (held item (by simp)) absent
      · unfold Act.forEach
        rw [Act.bind_of_ok run, ih ((next_setSession filled _).symm ▸ filled) (by
          intro other member
          rw [session_setSession_self]
          exact held other (List.mem_cons_of_mem _ member))]
        rw [setSession_setSession, session_setSession_self]
        rfl

theorem route_of_known {relationship : String} (known : relationship ∈ flow.sinks.keys)
    (items : List Item) :
    route number items relationship flow =
      Act.forEach items (routeOne number relationship) flow := by
  unfold route
  rw [Act.read_bind, if_pos (Table.contains_iff_mem_keys.2 known)]

theorem route_of_unknown {relationship : String} (unknown : relationship ∉ flow.sinks.keys)
    (items : List Item) :
    route number items relationship flow = (.error (.unknownRelationship relationship), flow) := by
  unfold route
  rw [Act.read_bind, if_neg fun contains => unknown (Table.contains_iff_mem_keys.1 contains)]
  rfl

theorem route_eq {relationship : String} {items : List Item}
    (known : relationship ∈ flow.sinks.keys) (filled : number < flow.sessions.next)
    (held : ∀ item ∈ items, item.id ∈ (flow.session number).ids) :
    route number items relationship flow =
      (.ok (), flow.setSession number
        ((flow.session number).routed items relationship)) := by
  rw [route_of_known known]
  exact forEach_routeOne relationship items filled held

/-- The flow after a session delivered the items it held to one relationship. -/
def sent (flow : Flow) (number : SessionId) (relationship : String)
    (items : List Item) : Flow :=
  Flow.setSession { flow with
      sinks := flow.sinks.mapValues fun name received =>
        received ++ if name = relationship then items else [] }
    number { (flow.session number).clear with
      commits := (flow.session number).commits + 1 }

theorem commit_routed {relationship : String} {items : List Item}
    (holds : (flow.session number).ids = items.map Item.id) :
    commit number (flow.setSession number
        ((flow.session number).routed items relationship)) =
      (.ok (), flow.sent number relationship (flow.session number).items) := by
  rcases commit_cases number (flow.setSession number
    ((flow.session number).routed items relationship)) with ⟨unrouted, _⟩ | ⟨_, run⟩
  · rw [session_setSession_self] at unrouted
    exact absurd (Session.unrouted_routed holds) unrouted
  · rw [run, delivered, session_setSession_self, sent]
    simp only [Session.routedTo_routed holds, sinks_setSession]
    apply congrArg (Prod.mk _)
    exact setSession_setSession { flow with
      sinks := flow.sinks.mapValues fun name received =>
        received ++ if name = relationship then (flow.session number).items else [] }
      number _ _

/-- What a session held before it delivers does not matter. -/
theorem sent_setSession (session : Session) (relationship : String) (items : List Item)
    (commits : session.commits = (flow.session number).commits)
    (rollbacks : session.rollbacks = (flow.session number).rollbacks) :
    (flow.setSession number session).sent number relationship items =
      flow.sent number relationship items := by
  have cleared : { session.clear with commits := session.commits + 1 } =
      { (flow.session number).clear with commits := (flow.session number).commits + 1 } := by
    unfold Session.clear
    rw [commits, rollbacks]
  unfold sent
  rw [session_setSession_self, cleared]
  exact setSession_setSession { flow with
    sinks := flow.sinks.mapValues fun name received =>
      received ++ if name = relationship then items else [] } number _ _

end Flow

end ItemBinning
