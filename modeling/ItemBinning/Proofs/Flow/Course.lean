import ItemBinning.Proofs.Flow.Balance
import ItemBinning.Proofs.Flow.PartWay
import ItemBinning.Proofs.Flow.Restoration
import Mathlib.Data.List.TakeWhile

/-!
# The course of an item

The course of an item is what calls did to it since it was pulled: the attributes that they
put on it and the relationships that they routed it to, whichever session held it then.
While no id is given twice, the session that holds an item holds the version that its course
leads to, and the destination that its course ends with: one operation continues the courses
of the items it touches, and by induction this holds after any sequence of operations.
-/

namespace ItemBinning

/-- What was done to an item since it was pulled, in the order of the calls. -/
structure Course where
  pulled : Item
  attributes : List Attributes := []
  relationships : List String := []

namespace Course

/-- The version that was pulled with all attributes put over it, one after the other. -/
def version (course : Course) : Item :=
  course.attributes.foldl Item.withAttributes course.pulled

/-- The relationship that the item was routed to last. -/
def destination (course : Course) : Option String :=
  course.relationships.getLast?

def annotated (attributes : Attributes) (course : Course) : Course :=
  { course with attributes := course.attributes ++ [attributes] }

def routed (relationship : String) (course : Course) : Course :=
  { course with relationships := course.relationships ++ [relationship] }

/-- What a sink receives of the item: its version, if it was routed there last. -/
def receivedBy (relationship : String) (course : Course) : Option Item :=
  if course.destination = some relationship then some course.version else none

@[simp] theorem version_annotated (course : Course) (attributes : Attributes) :
    (course.annotated attributes).version = course.version.withAttributes attributes := by
  simp [version, annotated]

@[simp] theorem version_routed (course : Course) (relationship : String) :
    (course.routed relationship).version = course.version :=
  rfl

@[simp] theorem destination_annotated (course : Course) (attributes : Attributes) :
    (course.annotated attributes).destination = course.destination :=
  rfl

@[simp] theorem destination_routed (course : Course) (relationship : String) :
    (course.routed relationship).destination = some relationship := by
  simp [destination, routed]

theorem destination_eq_none_iff (course : Course) :
    course.destination = none ↔ course.relationships = [] :=
  List.getLast?_eq_none_iff

private theorem find?_foldl_withAttributes (item : Item) (attributes : List Attributes)
    (name : String) :
    (attributes.foldl Item.withAttributes item).attributes.find? name =
      (attributes.reverse.findSome? (·.find? name)).or (item.attributes.find? name) := by
  induction attributes generalizing item with
  | nil => rfl
  | cons first rest ih =>
      have merged : (item.withAttributes first).attributes.find? name =
          (first.find? name).or (item.attributes.find? name) :=
        Table.find?_merge item.attributes first name
      rw [List.foldl_cons, ih, merged, List.reverse_cons, List.findSome?_append,
        List.findSome?_singleton, Option.or_assoc]

/-- An attribute has the value that was put last, or the one it had when it was pulled. -/
theorem find?_version (course : Course) (name : String) :
    course.version.attributes.find? name =
      (course.attributes.reverse.findSome? (·.find? name)).or
        (course.pulled.attributes.find? name) :=
  find?_foldl_withAttributes course.pulled course.attributes name

/-- The courses that begin with items, put over those there were. -/
def beginning (items : List Item) (courses : String → Option Course) (id : String) :
    Option Course :=
  ((items.find? fun item => decide (item.id = id)).map ({ pulled := · })).or (courses id)

/-- The courses after those with some ids went on. -/
def continued (ids : List String) (step : Course → Course) (courses : String → Option Course)
    (id : String) : Option Course :=
  if id ∈ ids then (courses id).map step else courses id

end Course

namespace Session

/-- A session has an item where its course leads. -/
structure Bears (session : Session) (id : String) (course : Course) : Prop where
  current : session.current.find? id = some course.version
  destination : session.destinations.find? id = course.destination

theorem find?_destinations_receive (session : Session) (id : String) (current pulled : Item)
    (destination : Option String) :
    (session.receive id current pulled destination).destinations.find? id =
      destination.or (session.destinations.find? id) := by
  unfold receive
  cases destination with
  | none => rfl
  | some relationship => rw [Table.find?_put, if_pos rfl, Option.some_or]

variable {session later : Session} {id : String} {course : Course}

theorem Bears.of_entry (bears : session.Bears id course)
    (same : later.entry id = session.entry id) : later.Bears id course where
  current := (congrArg Prod.fst same).trans bears.current
  destination := (congrArg (·.2.2) same).trans bears.destination

/-- All that a session holds is where its course leads. -/
def Follows (session : Session) (courses : String → Option Course) : Prop :=
  ∀ id ∈ session.ids, ∃ course, courses id = some course ∧ session.Bears id course

variable {courses : String → Option Course}

theorem Follows.of_ids_nil (nothing : session.ids = []) : session.Follows courses := by
  intro id held
  rw [nothing] at held
  cases held

theorem Follows.congr (follows : session.Follows courses) {others : String → Option Course}
    (same : ∀ id ∈ session.ids, others id = courses id) : session.Follows others := by
  intro id held
  rw [same id held]
  exact follows id held

/-- What a session has for a sink is what the courses of its items bring there. -/
theorem Follows.routedTo (follows : session.Follows courses) (relationship : String) :
    session.routedTo relationship =
      session.ids.filterMap fun id => (courses id).bind (·.receivedBy relationship) := by
  have each : ∀ entry ∈ session.current.entries,
      (courses entry.1).bind (·.receivedBy relationship) =
        if session.destinations.find? entry.1 = some relationship then some entry.2
        else none := by
    rintro ⟨id, item⟩ member
    have found : session.current.find? id = some item := Table.find?_eq_some_iff.2 member
    obtain ⟨course, isCourse, bears⟩ := follows id (Session.mem_ids_iff.2 ⟨item, found⟩)
    rw [bears.current, Option.some.injEq] at found
    rw [isCourse, Option.bind_some, Course.receivedBy, bears.destination, found]
  unfold Session.routedTo ids Table.keys
  rw [List.filterMap_map, ← List.filterMap_eq_map, List.filterMap_filter]
  refine (List.filterMap_congr fun entry member => ?_).symm
  rw [Function.comp_apply, each entry member]
  simp

end Session

namespace Flow

namespace Operation

/-- The items of a list that come before the first one whose id is not held. -/
def heldPart (held : List String) (items : List Item) : List Item :=
  items.takeWhile fun item => decide (item.id ∈ held)

/-- The courses after an operation.  A pull that answers begins those of its chunk.  Putting
attributes on an item and routing items continues those of the items that are held, up to the
first one that is not, where the operation stops.  Nothing else counts. -/
def pursue (flow : Flow) (courses : String → Option Course) : Operation → String → Option Course
  | pull session count =>
      match (Flow.pullValue session count flow).1 with
      | .ok chunk => Course.beginning chunk courses
      | .error _ => courses
  | annotate session item attributes =>
      Course.continued ((heldPart (flow.session session).ids [item]).map Item.id)
        (.annotated attributes) courses
  | route session items (.text relationship) =>
      if relationship ∈ flow.sinks.keys then
        Course.continued ((heldPart (flow.session session).ids items).map Item.id)
          (.routed relationship) courses
      else courses
  | _ => courses

/-- The courses of all items after a sequence of operations, by their ids. -/
def courses (flow : Flow) (before : String → Option Course) :
    List Operation → String → Option Course
  | [] => before
  | operation :: rest =>
      courses (operation.perform flow) (operation.pursue flow before) rest

end Operation

variable {known ids : List String} {flow before after : Flow} {number holder : SessionId}
  {courses : String → Option Course} {id : String} {course : Course}

/-- All that any session holds is where its course leads. -/
def Follows (flow : Flow) (courses : String → Option Course) : Prop :=
  ∀ number, (flow.session number).Follows courses

namespace Pulled

variable {chunk : List Item}

/-- The course of an item begins when it is pulled. -/
theorem bears (pulled : before.Pulled holder chunk after) (coherent : before.Coherent known)
    {item : Item} (member : item ∈ chunk) :
    (after.session holder).Bears item.id { pulled := item } where
  current := by
    rw [Table.find?_eq_some_iff, (pulled.entries coherent).1]
    exact List.mem_append_right _ (List.mem_map.2 ⟨item, member, rfl⟩)
  destination := pulled.unrouted coherent member

theorem bears_still (pulled : before.Pulled holder chunk after)
    (coherent : before.Coherent known) (bears : (before.session holder).Bears id course) :
    (after.session holder).Bears id course where
  current := by
    rw [Table.find?_eq_some_iff, (pulled.entries coherent).1]
    exact List.mem_append_left _ (Table.find?_eq_some_iff.1 bears.current)
  destination := by
    rw [pulled.rest]
    exact bears.destination

/-- A pull begins the courses of what was pulled, and leaves the other ones alone. -/
theorem follows (pulled : before.Pulled holder chunk after)
    (outstanding : before.Outstanding known ids) (distinct : ids.Nodup)
    (follows : before.Follows courses) :
    after.Follows (Course.beginning chunk courses) := by
  have coherent := outstanding.coherent
  have once : (chunk.map Item.id).Nodup := (List.nodup_append.1 pulled.distinct).2.1
  have waits : ∀ item ∈ chunk, ∀ number, item.id ∉ (before.session number).ids := by
    intro item member
    refine outstanding.not_held distinct (List.mem_map_of_mem ?_)
    rw [pulled.source]
    exact List.mem_append_left _ member
  have old : ∀ number, ∀ id ∈ (before.session number).ids,
      chunk.find? (fun item => decide (item.id = id)) = none := by
    intro number id held
    rw [List.find?_eq_none]
    intro item member same
    exact waits item member number (of_decide_eq_true same ▸ held)
  intro number
  by_cases isHolder : number = holder
  · subst isHolder
    intro id held
    rw [pulled.session, Session.ids_receivePulled pulled.fresh, List.mem_append] at held
    rcases held with held | new
    · obtain ⟨course, isCourse, bears⟩ := follows number id held
      refine ⟨course, ?_, pulled.bears_still coherent bears⟩
      rw [Course.beginning, old number id held]
      exact isCourse
    · obtain ⟨item, member, rfl⟩ := List.mem_map.1 new
      refine ⟨{ pulled := item }, ?_, pulled.bears coherent member⟩
      rw [Course.beginning, ← List.head?_filter, filter_id_eq_singleton once member]
      rfl
  · rw [pulled.others number isHolder]
    refine (follows number).congr fun id held => ?_
    rw [Course.beginning, old number id held]
    rfl

end Pulled

/-- An item keeps its course when it is handed over. -/
theorem Follows.handed {giver taker : SessionId} {current : Item}
    (follows : flow.Follows courses) (outstanding : flow.Outstanding known ids)
    (distinct : ids.Nodup) (apart : giver ≠ taker)
    (found : (flow.session giver).current.find? id = some current) :
    (flow.handed giver taker id current).Follows courses := by
  have passes := passes_handed apart found
  have isHeld : id ∈ (flow.session giver).ids := Session.mem_ids_iff.2 ⟨current, found⟩
  have absent : id ∉ (flow.session taker).ids :=
    held_once_of_pending (outstanding.once distinct) isHeld apart.symm
  have unrouted : (flow.session taker).destinations.find? id = none :=
    Option.eq_none_iff_forall_ne_some.2 fun relationship given =>
      absent ((outstanding.coherent.sessions taker).routed id relationship given).1
  obtain ⟨course, isCourse, bears⟩ := follows giver id isHeld
  have taken : ((flow.handed giver taker id current).session taker).Bears id course := by
    refine ⟨?_, ?_⟩
    · rw [current_handed_target apart, Table.find?_put, if_pos rfl, ← found, bears.current]
    · unfold Flow.handed
      dsimp only
      rw [session_setSession_self, Session.find?_destinations_receive, session_setSession,
        if_neg apart.symm, unrouted, Option.or_none, bears.destination]
  intro number other held
  by_cases same : other = id
  · subst same
    by_cases isTaker : number = taker
    · subst isTaker
      exact ⟨course, isCourse, taken⟩
    · by_cases isGiver : number = giver
      · subst isGiver
        exact absurd held (passes.gone (Ne.symm isTaker))
      · rw [passes.others number isGiver isTaker] at held ⊢
        exact follows number other held
  · have unchanged := passes.entries number other same
    obtain ⟨course, isCourse, bears⟩ :=
      follows number other ((Session.mem_ids_of_entry unchanged).1 held)
    exact ⟨course, isCourse, bears.of_entry unchanged⟩

/-- When one session is emptied, the others stay where the courses of their items lead. -/
theorem Follows.completed (follows : before.Follows courses)
    (emptied : (after.session number).ids = [])
    (others : ∀ other, other ≠ number → after.session other = before.session other) :
    after.Follows courses := by
  intro other
  by_cases isNumber : other = number
  · subst isNumber
    exact .of_ids_nil emptied
  · rw [others other isNumber]
    exact follows other

/-- What one session does to items that it holds continues the courses of these items. -/
theorem Follows.continued {touched : List String} {step : Course → Course}
    (follows : before.Follows courses) (outstanding : before.Outstanding known ids)
    (distinct : ids.Nodup) (held : ∀ id ∈ touched, id ∈ (before.session number).ids)
    (same : (after.session number).ids = (before.session number).ids)
    (bears : ∀ id course, (before.session number).Bears id course →
      (after.session number).Bears id (if id ∈ touched then step course else course))
    (others : ∀ other, other ≠ number → after.session other = before.session other) :
    after.Follows (Course.continued touched step courses) := by
  intro other
  by_cases isNumber : other = number
  · subst isNumber
    intro id isHeld
    obtain ⟨course, isCourse, borne⟩ := follows other id (same ▸ isHeld)
    refine ⟨_, ?_, bears id course borne⟩
    unfold Course.continued
    split <;> rw [isCourse]
    rfl
  · rw [others other isNumber]
    refine (follows other).congr fun id isHeld => if_neg fun isTouched => ?_
    exact held_once_of_pending (outstanding.once distinct) (held id isTouched) isNumber isHeld

namespace Operation

theorem held_of_mem_heldPart {held : List String} {items : List Item} :
    ∀ id ∈ (heldPart held items).map Item.id, id ∈ held := by
  intro id member
  obtain ⟨item, part, rfl⟩ := List.mem_map.1 member
  have isHeld := List.mem_takeWhile_imp part
  exact of_decide_eq_true isHeld

/-- Whether it answers or fails, routing to a known relationship routes the items before the
first one that is not held. -/
theorem rerouted_route (number : SessionId) {relationship : String}
    (isKnown : relationship ∈ before.sinks.keys) (items : List Item) :
    Rerouted (heldPart (before.session number).ids items) number relationship before
      (Flow.route number items relationship before).2 := by
  rw [route_of_known isKnown]
  clear isKnown
  induction items generalizing before with
  | nil => exact .refl number relationship before
  | cons item rest ih =>
      unfold heldPart at ih ⊢
      unfold Act.forEach
      rcases routeOne_cases number relationship item before with ⟨absent, run⟩ | ⟨held, run⟩
      · rw [Act.bind_of_error run, List.takeWhile_cons_of_neg (by simpa using absent)]
        exact .refl number relationship before
      · rw [Act.bind_of_ok run, List.takeWhile_cons_of_pos (by simpa using held)]
        refine Rerouted.cons ?_
        have later := @ih (before.setSession number { before.session number with
          destinations := (before.session number).destinations.put item.id relationship })
        rw [session_setSession_self] at later
        exact later

theorem follows_pull (follows : flow.Follows courses)
    (outstanding : flow.Outstanding known ids) (distinct : ids.Nodup) (count : Value) :
    Follows (Flow.pullValue number count flow).2
      (match (Flow.pullValue number count flow).1 with
        | .ok chunk => Course.beginning chunk courses
        | .error _ => courses) := by
  rcases run : Flow.pullValue number count flow with ⟨fault | chunk, reached⟩
  · rcases pullValue_cases number count flow with ⟨_, failed⟩ | ⟨_, _, _, answered⟩
    · rw [run] at failed
      cases failed
      exact follows
    · rw [run] at answered
      cases answered
  · exact (pulled_of_pullValue run).follows outstanding distinct follows

theorem follows_route (follows : flow.Follows courses)
    (outstanding : flow.Outstanding known ids) (distinct : ids.Nodup) (items : List Item)
    (relationship : String) :
    Follows (Flow.route number items relationship flow).2
      (if relationship ∈ flow.sinks.keys then
        Course.continued ((heldPart (flow.session number).ids items).map Item.id)
          (.routed relationship) courses
      else courses) := by
  split
  · rename_i isKnown
    have rerouted := rerouted_route number isKnown items
    refine follows.continued outstanding distinct held_of_mem_heldPart ?_ ?_ rerouted.others
    · rw [rerouted.session]
      rfl
    · intro id course bears
      rw [rerouted.session]
      constructor
      · split <;> exact bears.current
      · rw [Session.find?_routed]
        split
        · exact (course.destination_routed relationship).symm
        · exact bears.destination
  · rename_i unknown
    rw [route_of_unknown unknown]
    exact follows

theorem follows_annotate (follows : flow.Follows courses)
    (outstanding : flow.Outstanding known ids) (distinct : ids.Nodup)
    (item : Item) (attributes : Attributes) :
    Follows (Flow.annotate number item attributes flow).2
      (Course.continued ((heldPart (flow.session number).ids [item]).map Item.id)
        (.annotated attributes) courses) := by
  rcases annotate_cases number item attributes flow with ⟨absent, run⟩ | ⟨current, found, run⟩
  · have untouched : heldPart (flow.session number).ids [item] = [] :=
      List.takeWhile_cons_of_neg (by simpa using Session.not_mem_ids_of_find? absent)
    rw [run, untouched]
    exact follows
  · have held := Session.mem_ids_iff.2 ⟨current, found⟩
    have touched : (heldPart (flow.session number).ids [item]).map Item.id = [item.id] := by
      unfold heldPart
      rw [List.takeWhile_cons_of_pos (by simpa using held)]
      rfl
    rw [run]
    refine follows.continued outstanding distinct held_of_mem_heldPart ?_ ?_ ?_
    · rw [session_setSession_self, Session.ids_update held]
    · intro id course bears
      rw [session_setSession_self, touched]
      by_cases same : id = item.id
      · subst same
        rw [if_pos (List.mem_singleton_self _)]
        refine ⟨?_, bears.destination⟩
        have isVersion : current = course.version := by
          rw [bears.current, Option.some.injEq] at found
          exact found.symm
        rw [Table.find?_put, if_pos rfl, isVersion, Course.version_annotated]
      · rw [if_neg (by simpa using same)]
        refine ⟨?_, bears.destination⟩
        rw [Table.find?_put, if_neg same]
        exact bears.current
    · intro other differs
      rw [session_setSession, if_neg differs]

theorem follows_commit (follows : flow.Follows courses) :
    Follows (Flow.commit number flow).2 courses := by
  rcases commit_cases number flow with ⟨_, run⟩ | ⟨_, run⟩ <;> rw [run]
  · exact follows
  · exact follows.completed (ids_delivered flow number)
      fun _ differs => session_delivered_of_ne flow differs

theorem follows_perform (follows : flow.Follows courses)
    (outstanding : flow.Outstanding known ids) (distinct : ids.Nodup) (operation : Operation) :
    (operation.perform flow).Follows (operation.pursue flow courses) := by
  cases operation with
  | openSession =>
      intro number
      exact (session_push flow number).symm ▸ follows number
  | put items => exact follows
  | pull session count => exact follows_pull follows outstanding distinct count
  | migrate source target items =>
      have keeps : (Flow.migrate source target items).Keeps fun flow =>
          flow.Outstanding known ids ∧ flow.Follows courses :=
        migrate_keeps (fun flow id current holds apart found =>
          ⟨(carried_outstanding known distinct).handed flow source target id current holds.1
              apart found,
            holds.2.handed holds.1 distinct apart found⟩) items
      exact (keeps.final ⟨outstanding, follows⟩).2
  | route session items relationship =>
      cases relationship with
      | text relationship => exact follows_route follows outstanding distinct items relationship
      | _ => exact follows
  | annotate session item attributes =>
      exact follows_annotate follows outstanding distinct item attributes
  | commit session => exact follows_commit follows
  | rollBack session =>
      exact follows.completed (ids_returned flow session)
        fun _ differs => session_returned_of_ne flow differs

end Operation

/-- What is pending are ids of given items, and what is held is where its course leads. -/
structure Charted (known : List String) (items : List Item)
    (courses : String → Option Course) (flow : Flow) : Prop where
  outstanding : flow.Outstanding known (items.map Item.id)
  follows : flow.Follows courses

namespace Charted

variable {items : List Item}

theorem start (source : List Item) (sinks : Table String (List Item)) :
    Charted sinks.keys source (fun _ => none) { source, sinks } where
  outstanding := .start sinks
  follows _ := Session.Follows.of_ids_nil rfl

theorem perform (charted : flow.Charted known items courses) (operation : Operation)
    (distinct : ((items ++ operation.given).map Item.id).Nodup) :
    (operation.perform flow).Charted known (items ++ operation.given)
      (operation.pursue flow courses) where
  outstanding := by
    by_cases nothing : operation.given = []
    · rw [nothing, List.append_nil] at distinct ⊢
      exact (carried_outstanding known distinct).perform nothing charted.outstanding
    · rw [List.map_append]
      cases operation with
      | put more => exact charted.outstanding.put more
      | _ => exact absurd rfl nothing
  follows := by
    rw [List.map_append] at distinct
    exact Operation.follows_perform charted.follows charted.outstanding
      (List.nodup_append.1 distinct).1 operation

theorem run (charted : flow.Charted known items courses) {history : List Operation}
    (distinct : ((items ++ history.flatMap Operation.given).map Item.id).Nodup) :
    (Operation.run flow history).Charted known (items ++ history.flatMap Operation.given)
      (Operation.courses flow courses history) := by
  induction history generalizing flow items courses with
  | nil =>
      rw [List.flatMap_nil, List.append_nil]
      exact charted
  | cons operation rest ih =>
      rw [List.flatMap_cons, ← List.append_assoc] at distinct ⊢
      have soFar : ((items ++ operation.given).map Item.id).Nodup := by
        rw [List.map_append] at distinct
        exact (List.nodup_append.1 distinct).1
      exact ih (charted.perform operation soFar) distinct

end Charted

end Flow

end ItemBinning
