import ItemBinning.Proofs.Flow.Operations

/-!
# What every operation of a flow carries on

A property of flows is carried if none of the effects that session operations
can have destroys it.  Every operation, whether it answers or fails, then keeps
the property, and so does whatever is composed of such operations.  Coherence of
the sessions is carried, a property of all items that disregards attributes is
carried, and what a sink received it goes on having received.
-/

namespace ItemBinning.Flow

/-- No effect of a session operation destroys the property. -/
structure Carried (property : Flow → Prop) : Prop where
  opened : ∀ flow, property flow →
    property { flow with sessions := flow.sessions.push {} }
  pulled : ∀ flow number count, property flow →
    firstRepeated (flow.session number).ids (flow.source.take count) = none →
    property (Flow.setSession { flow with source := flow.source.drop count } number
      ((flow.session number).receivePulled (flow.source.take count)))
  handed : ∀ flow source target id current, property flow → source ≠ target →
    (flow.session source).current.find? id = some current →
    property (flow.handed source target id current)
  routed : ∀ flow number id relationship, property flow →
    id ∈ (flow.session number).ids → relationship ∈ flow.sinks.keys →
    property (flow.setSession number { flow.session number with
      destinations := (flow.session number).destinations.put id relationship })
  updated : ∀ flow number id current attributes, property flow →
    (flow.session number).current.find? id = some current →
    property (flow.setSession number { flow.session number with
      current := (flow.session number).current.put id
        (Item.withAttributes current attributes) })
  delivered : ∀ flow number, property flow →
    (flow.session number).unrouted = [] → property (flow.delivered number)
  returned : ∀ flow number, property flow → property (flow.returned number)

/-- What every item handed over keeps is kept by a migration. -/
theorem migrate_keeps {property : Flow → Prop} {source target : SessionId}
    (handed : ∀ flow id current, property flow → source ≠ target →
      (flow.session source).current.find? id = some current →
      property (flow.handed source target id current)) (items : List Item) :
    (migrate source target items).Keeps property := by
  unfold migrate
  split
  · exact Act.Keeps.pure ()
  · rename_i apart
    refine Act.Keeps.forEach fun item _ => Act.Keeps.of_final fun flow holds => ?_
    rcases handOver_cases source target item flow with ⟨_, run⟩ | ⟨current, found, run⟩ <;>
      rw [run]
    · exact holds
    · exact handed flow item.id current holds apart found

namespace Carried

theorem and {first second : Flow → Prop} (carriedFirst : Carried first)
    (carriedSecond : Carried second) :
    Carried fun flow => first flow ∧ second flow where
  opened flow holds :=
    ⟨carriedFirst.opened flow holds.1, carriedSecond.opened flow holds.2⟩
  pulled flow number count holds distinct :=
    ⟨carriedFirst.pulled flow number count holds.1 distinct,
      carriedSecond.pulled flow number count holds.2 distinct⟩
  handed flow source target id current holds apart found :=
    ⟨carriedFirst.handed flow source target id current holds.1 apart found,
      carriedSecond.handed flow source target id current holds.2 apart found⟩
  routed flow number id relationship holds held known :=
    ⟨carriedFirst.routed flow number id relationship holds.1 held known,
      carriedSecond.routed flow number id relationship holds.2 held known⟩
  updated flow number id current attributes holds found :=
    ⟨carriedFirst.updated flow number id current attributes holds.1 found,
      carriedSecond.updated flow number id current attributes holds.2 found⟩
  delivered flow number holds complete :=
    ⟨carriedFirst.delivered flow number holds.1 complete,
      carriedSecond.delivered flow number holds.2 complete⟩
  returned flow number holds :=
    ⟨carriedFirst.returned flow number holds.1,
      carriedSecond.returned flow number holds.2⟩

variable {property : Flow → Prop}

/-- A property may be carried under a condition. -/
theorem imp {condition : Prop} (carried : condition → Carried property) :
    Carried fun flow => condition → property flow where
  opened flow holds met := (carried met).opened flow (holds met)
  pulled flow number count holds distinct met :=
    (carried met).pulled flow number count (holds met) distinct
  handed flow source target id current holds apart found met :=
    (carried met).handed flow source target id current (holds met) apart found
  routed flow number id relationship holds held known met :=
    (carried met).routed flow number id relationship (holds met) held known
  updated flow number id current attributes holds found met :=
    (carried met).updated flow number id current attributes (holds met) found
  delivered flow number holds complete met :=
    (carried met).delivered flow number (holds met) complete
  returned flow number holds met := (carried met).returned flow number (holds met)

theorem openSession (carried : Carried property) :
    Flow.openSession.Keeps property :=
  Act.Keeps.of_final carried.opened

theorem pull (carried : Carried property) (number : SessionId) (count : Int) :
    (Flow.pull number count).Keeps property := by
  apply Act.Keeps.of_final
  intro flow holds
  rcases pull_cases number count flow with ⟨id, run⟩ | ⟨distinct, run⟩ <;> rw [run]
  · exact holds
  · exact carried.pulled flow number count.toNat holds distinct

theorem pullValue (carried : Carried property) (number : SessionId)
    (count : Value) : (Flow.pullValue number count).Keeps property :=
  (Act.Keeps.read _).bind fun _ =>
    (Act.Keeps.ofExcept _).bind fun _ => carried.pull number _

theorem migrate (carried : Carried property) (source target : SessionId)
    (items : List Item) : (Flow.migrate source target items).Keeps property :=
  migrate_keeps (fun flow id current holds apart found =>
    carried.handed flow source target id current holds apart found) items

/-- Routing one item needs a known relationship, which it leaves known. -/
theorem routeOne (carried : Carried property) (number : SessionId)
    (relationship : String) (item : Item) :
    (Flow.routeOne number relationship item).Keeps fun flow =>
      relationship ∈ flow.sinks.keys ∧ property flow := by
  apply Act.Keeps.of_final
  intro flow holds
  rcases routeOne_cases number relationship item flow with ⟨_, run⟩ | ⟨held, run⟩ <;>
    rw [run]
  · exact holds
  · exact ⟨holds.1, carried.routed flow number item.id relationship holds.2 held holds.1⟩

theorem route (carried : Carried property) (number : SessionId)
    (items : List Item) (relationship : String) :
    (Flow.route number items relationship).Keeps property := by
  have look : (Act.read fun flow : Flow => flow.sinks.contains relationship).Meets property
      (fun known flow => known = flow.sinks.contains relationship ∧ property flow)
      fun _ => property :=
    Act.Meets.read fun flow holds => ⟨rfl, holds⟩
  apply look.bind
  intro known
  split
  · rename_i isKnown
    refine Act.Meets.weaken
      (Act.Keeps.forEach fun item _ => carried.routeOne number relationship item) ?_
      (fun _ _ => And.right) fun _ _ => And.right
    rintro flow ⟨same, holds⟩
    exact ⟨Table.contains_iff_mem_keys.1 (same.symm.trans isKnown), holds⟩
  · exact Act.Meets.fail fun _ => And.right

theorem annotate (carried : Carried property) (number : SessionId) (item : Item)
    (attributes : Attributes) :
    (Flow.annotate number item attributes).Keeps property := by
  apply Act.Keeps.of_final
  intro flow holds
  rcases annotate_cases number item attributes flow with ⟨_, run⟩ | ⟨current, found, run⟩ <;>
    rw [run]
  · exact holds
  · exact carried.updated flow number item.id current attributes holds found

theorem commit (carried : Carried property) (number : SessionId) :
    (Flow.commit number).Keeps property := by
  apply Act.Keeps.of_final
  intro flow holds
  rcases commit_cases number flow with ⟨_, run⟩ | ⟨complete, run⟩ <;> rw [run]
  · exact holds
  · exact carried.delivered flow number holds complete

theorem rollBack (carried : Carried property) (number : SessionId) :
    (Flow.rollBack number).Keeps property := by
  apply Act.Keeps.of_final
  intro flow holds
  rw [rollBack_eq]
  exact carried.returned flow number holds

end Carried

/-- All sessions are coherent, and the known relationships have sinks. -/
structure Coherent (known : List String) (flow : Flow) : Prop where
  sinks : flow.sinks.keys = known
  sessions : ∀ number, (flow.session number).Coherent known

variable {known : List String}

theorem Coherent.setSession {flow : Flow} (coherent : flow.Coherent known)
    (number : SessionId) {session : Session} (replaced : session.Coherent known) :
    (flow.setSession number session).Coherent known where
  sinks := coherent.sinks
  sessions other := by
    rw [session_setSession]
    split
    · exact replaced
    · exact coherent.sessions other

theorem coherent_receivePulled {session : Session}
    (coherent : session.Coherent known) (items : List Item) :
    (session.receivePulled items).Coherent known := by
  unfold Session.receivePulled
  induction items generalizing session with
  | nil => exact coherent
  | cons item rest ih =>
      refine ih (coherent.receive rfl (Item.Resembles.refl item) ?_)
      rintro _ ⟨⟩

theorem carried_coherent (known : List String) : Carried (Coherent known) where
  opened flow coherent := by
    refine ⟨coherent.sinks, fun number => ?_⟩
    rw [session_push]
    exact coherent.sessions number
  pulled flow number count coherent _ := by
    have rest : Coherent known { flow with source := flow.source.drop count } :=
      ⟨coherent.sinks, coherent.sessions⟩
    exact rest.setSession number (coherent_receivePulled (coherent.sessions number) _)
  handed flow source target id current coherent _ found := by
    have giver := coherent.sessions source
    obtain ⟨_, pulled, foundCurrent, foundPulled, resembles⟩ :=
      giver.both (Session.mem_ids_iff.2 ⟨current, found⟩)
    rw [found, Option.some.injEq] at foundCurrent
    subst foundCurrent
    have between := coherent.setSession source (giver.release id)
    have version : ((flow.session source).pulled.find? id).getD current = pulled := by
      rw [foundPulled, Option.getD_some]
    refine between.setSession target ((between.sessions target).receive
      (version ▸ giver.own id pulled foundPulled) (version.symm ▸ resembles) ?_)
    intro relationship destination
    exact (giver.routed id relationship destination).2
  routed flow number id relationship coherent held isKnown :=
    coherent.setSession number
      ((coherent.sessions number).routeTo held (coherent.sinks ▸ isKnown))
  updated flow number id current attributes coherent found :=
    coherent.setSession number ((coherent.sessions number).update found
      ((Item.Resembles.refl current).withAttributes attributes))
  delivered flow number coherent _ := by
    have filled : Coherent known { flow with
        sinks := flow.sinks.mapValues fun relationship received =>
          received ++ (flow.session number).routedTo relationship } :=
      ⟨(Table.keys_mapValues _ _).trans coherent.sinks, coherent.sessions⟩
    exact filled.setSession number (Session.Coherent.clear (flow.session number) _ _)
  returned flow number coherent := by
    have refilled : Coherent known { flow with
        source := (flow.session number).pulled.values ++ flow.source } :=
      ⟨coherent.sinks, coherent.sessions⟩
    exact refilled.setSession number (Session.Coherent.clear (flow.session number) _ _)

/-- Every item that waits or is held, in either version, has the property. -/
structure Everywhere (property : Item → Prop) (flow : Flow) : Prop where
  waiting : ∀ item ∈ flow.source, property item
  current : ∀ number id item,
    (flow.session number).current.find? id = some item → property item
  pulled : ∀ number id item,
    (flow.session number).pulled.find? id = some item → property item

theorem Everywhere.setSession {property : Item → Prop} {flow : Flow}
    (everywhere : flow.Everywhere property) (number : SessionId) {session : Session}
    (current : ∀ id item, session.current.find? id = some item → property item)
    (pulled : ∀ id item, session.pulled.find? id = some item → property item) :
    (flow.setSession number session).Everywhere property where
  waiting := everywhere.waiting
  current other id item found := by
    rw [session_setSession] at found
    split at found
    · exact current id item found
    · exact everywhere.current other id item found
  pulled other id item found := by
    rw [session_setSession] at found
    split at found
    · exact pulled id item found
    · exact everywhere.pulled other id item found

private theorem holds_of_find?_put {property : Item → Prop}
    {table : Table String Item} {id : String} {value : Item}
    (before : ∀ id item, table.find? id = some item → property item)
    (put : property value) :
    ∀ other item, (table.put id value).find? other = some item → property item := by
  intro other item found
  rw [Table.find?_put] at found
  split at found
  · cases found
    exact put
  · exact before other item found

private theorem holds_of_find?_erase {property : Item → Prop}
    {table : Table String Item} {id : String}
    (before : ∀ id item, table.find? id = some item → property item) :
    ∀ other item, (table.erase id).find? other = some item → property item := by
  intro other item found
  rw [Table.find?_erase] at found
  split at found
  · cases found
  · exact before other item found

private theorem current_receivePulled {property : Item → Prop} {session : Session}
    {items : List Item} (given : ∀ item ∈ items, property item)
    (current : ∀ id item, session.current.find? id = some item → property item) :
    ∀ id item, (session.receivePulled items).current.find? id = some item → property item := by
  unfold Session.receivePulled
  induction items generalizing session with
  | nil => exact current
  | cons item rest ih =>
      exact ih (fun other member => given other (List.mem_cons_of_mem _ member))
        (holds_of_find?_put current (given item (by simp)))

private theorem pulled_receivePulled {property : Item → Prop} {session : Session}
    {items : List Item} (given : ∀ item ∈ items, property item)
    (pulled : ∀ id item, session.pulled.find? id = some item → property item) :
    ∀ id item, (session.receivePulled items).pulled.find? id = some item → property item := by
  unfold Session.receivePulled
  induction items generalizing session with
  | nil => exact pulled
  | cons item rest ih =>
      exact ih (fun other member => given other (List.mem_cons_of_mem _ member))
        (holds_of_find?_put pulled (given item (by simp)))

/-- A property that disregards attributes is carried through the whole flow. -/
theorem carried_everywhere {property : Item → Prop}
    (disregards : ∀ item attributes, property item →
      property (Item.withAttributes item attributes)) :
    Carried (Everywhere property) where
  opened flow everywhere := by
    refine ⟨everywhere.waiting, fun number => ?_, fun number => ?_⟩ <;> rw [session_push]
    · exact everywhere.current number
    · exact everywhere.pulled number
  pulled flow number count everywhere _ := by
    have taken : ∀ item ∈ flow.source.take count, property item :=
      fun item member => everywhere.waiting item (List.mem_of_mem_take member)
    have rest : Everywhere property { flow with source := flow.source.drop count } :=
      ⟨fun item member => everywhere.waiting item (List.mem_of_mem_drop member),
        everywhere.current, everywhere.pulled⟩
    exact rest.setSession number (current_receivePulled taken (everywhere.current number))
      (pulled_receivePulled taken (everywhere.pulled number))
  handed flow source target id current everywhere _ found := by
    have between : Everywhere property
        (flow.setSession source ((flow.session source).release id)) :=
      everywhere.setSession source (holds_of_find?_erase (everywhere.current source))
        (holds_of_find?_erase (everywhere.pulled source))
    have fits := everywhere.current source id current found
    refine between.setSession target (holds_of_find?_put (between.current target) fits)
      (holds_of_find?_put (between.pulled target) ?_)
    cases foundPulled : (flow.session source).pulled.find? id with
    | none => exact fits
    | some pulled => exact everywhere.pulled source id pulled foundPulled
  routed flow number id relationship everywhere _ _ :=
    everywhere.setSession number (everywhere.current number) (everywhere.pulled number)
  updated flow number id current attributes everywhere found :=
    everywhere.setSession number
      (holds_of_find?_put (everywhere.current number)
        (disregards current attributes (everywhere.current number id current found)))
      (everywhere.pulled number)
  delivered flow number everywhere _ := by
    have filled : Everywhere property { flow with
        sinks := flow.sinks.mapValues fun relationship received =>
          received ++ (flow.session number).routedTo relationship } :=
      ⟨everywhere.waiting, everywhere.current, everywhere.pulled⟩
    exact filled.setSession number nofun nofun
  returned flow number everywhere := by
    have refilled : Everywhere property { flow with
        source := (flow.session number).pulled.values ++ flow.source } := by
      refine ⟨?_, everywhere.current, everywhere.pulled⟩
      intro item member
      rcases List.mem_append.1 member with back | waiting
      · obtain ⟨id, found⟩ := Table.mem_values_iff.1 back
        exact everywhere.pulled number id item found
      · exact everywhere.waiting item waiting
    exact refilled.setSession number nofun nofun

/-- Every item that waits has the property, and so has every version that was pulled. -/
structure Upstream (property : Item → Prop) (flow : Flow) : Prop where
  waiting : ∀ item ∈ flow.source, property item
  pulled : ∀ number id item,
    (flow.session number).pulled.find? id = some item → property item

theorem Upstream.setSession {property : Item → Prop} {flow : Flow}
    (upstream : flow.Upstream property) (number : SessionId) {session : Session}
    (pulled : ∀ id item, session.pulled.find? id = some item → property item) :
    (flow.setSession number session).Upstream property where
  waiting := upstream.waiting
  pulled other id item found := by
    rw [session_setSession] at found
    split at found
    · exact pulled id item found
    · exact upstream.pulled other id item found

/-- What goes back to the source is what was pulled from it, so what is true of all items
that waited stays so, whatever becomes of their attributes. -/
theorem carried_upstream (known : List String) (property : Item → Prop) :
    Carried fun flow => flow.Coherent known ∧ flow.Upstream property where
  opened flow holds := by
    refine ⟨(carried_coherent known).opened flow holds.1, holds.2.waiting, fun number => ?_⟩
    rw [session_push]
    exact holds.2.pulled number
  pulled flow number count holds fresh := by
    have rest : Upstream property { flow with source := flow.source.drop count } :=
      ⟨fun item member => holds.2.waiting item (List.mem_of_mem_drop member), holds.2.pulled⟩
    exact ⟨(carried_coherent known).pulled flow number count holds.1 fresh,
      rest.setSession number (pulled_receivePulled
        (fun item member => holds.2.waiting item (List.mem_of_mem_take member))
        (holds.2.pulled number))⟩
  handed flow source target id current holds apart found := by
    obtain ⟨_, pulled, _, foundPulled, _⟩ :=
      (holds.1.sessions source).both (Session.mem_ids_iff.2 ⟨current, found⟩)
    have between : Upstream property
        (flow.setSession source ((flow.session source).release id)) :=
      holds.2.setSession source (holds_of_find?_erase (holds.2.pulled source))
    refine ⟨(carried_coherent known).handed flow source target id current holds.1 apart found,
      between.setSession target (holds_of_find?_put (between.pulled target) ?_)⟩
    rw [foundPulled, Option.getD_some]
    exact holds.2.pulled source id pulled foundPulled
  routed flow number id relationship holds held isKnown :=
    ⟨(carried_coherent known).routed flow number id relationship holds.1 held isKnown,
      holds.2.setSession number (holds.2.pulled number)⟩
  updated flow number id current attributes holds found :=
    ⟨(carried_coherent known).updated flow number id current attributes holds.1 found,
      holds.2.setSession number (holds.2.pulled number)⟩
  delivered flow number holds complete := by
    have filled : Upstream property { flow with
        sinks := flow.sinks.mapValues fun relationship received =>
          received ++ (flow.session number).routedTo relationship } :=
      ⟨holds.2.waiting, holds.2.pulled⟩
    exact ⟨(carried_coherent known).delivered flow number holds.1 complete,
      filled.setSession number nofun⟩
  returned flow number holds := by
    have refilled : Upstream property { flow with
        source := (flow.session number).pulled.values ++ flow.source } := by
      refine ⟨List.forall_mem_append.2 ⟨fun item back => ?_, holds.2.waiting⟩, holds.2.pulled⟩
      obtain ⟨id, found⟩ := Table.mem_values_iff.1 back
      exact holds.2.pulled number id item found
    exact ⟨(carried_coherent known).returned flow number holds.1,
      refilled.setSession number nofun⟩

/-- Every sink begins with what it had received before. -/
def Extends (before : Table String (List Item)) (flow : Flow) : Prop :=
  ∀ relationship items, before.find? relationship = some items →
    ∃ more, flow.sinks.find? relationship = some (items ++ more)

theorem extends_refl (flow : Flow) : flow.Extends flow.sinks :=
  fun _ items found => ⟨[], by rw [found, List.append_nil]⟩

theorem carried_extends (before : Table String (List Item)) :
    Carried (Extends before) where
  opened _ grown := grown
  pulled _ _ _ grown _ := grown
  handed _ _ _ _ _ grown _ _ := grown
  routed _ _ _ _ grown _ _ := grown
  updated _ _ _ _ _ grown _ := grown
  delivered flow number grown _ := by
    intro relationship items found
    obtain ⟨more, received⟩ := grown relationship items found
    refine ⟨more ++ (flow.session number).routedTo relationship, ?_⟩
    change (flow.sinks.mapValues _).find? relationship = _
    rw [Table.find?_mapValues, received, Option.map_some, List.append_assoc]
  returned _ _ grown := grown

theorem carried_sessions (least : Nat) :
    Carried fun flow => least ≤ flow.sessions.next where
  opened flow opened := by
    dsimp only
    rw [Slots.next_push]
    omega
  pulled flow number _ opened _ := by
    rw [sessions_setSession, Slots.next_set]
    dsimp only
    omega
  handed flow source target _ _ opened _ _ := by
    unfold handed
    simp only [sessions_setSession, Slots.next_set]
    omega
  routed flow number _ _ opened _ _ := by
    rw [sessions_setSession, Slots.next_set]
    omega
  updated flow number _ _ _ opened _ := by
    rw [sessions_setSession, Slots.next_set]
    omega
  delivered flow number opened _ := by
    unfold delivered
    simp only [sessions_setSession, Slots.next_set]
    omega
  returned flow number opened := by
    unfold returned
    simp only [sessions_setSession, Slots.next_set]
    omega

end ItemBinning.Flow
