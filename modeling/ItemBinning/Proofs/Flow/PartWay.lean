import ItemBinning.Proofs.Flow.Delivery
import ItemBinning.Proofs.Flow.Passage

/-!
# Operations that stop part way

Items are handed over, and routed, one after the other, and whether a session holds an
item is asked when its turn comes.  An operation that comes to an item which is not held
stops there: what it did for the items before stays done, and nothing is done for those
after it.  So a failure leaves the flow as it was only when it comes at the first item, or
when the items before it were routed to the same relationship already.
-/

namespace ItemBinning

namespace Act

variable {σ α : Type} {step : α → Act σ Unit} {state reached : σ} {fault : Fault}

/-- The acts for a list fail at one element, after those before it answered. -/
theorem forEach_eq_error {elements : List α} :
    forEach elements step state = (.error fault, reached) ↔
      ∃ before element after between, elements = before ++ element :: after ∧
        forEach before step state = (.ok (), between) ∧
        step element between = (.error fault, reached) := by
  induction elements generalizing state with
  | nil =>
      refine ⟨nofun, ?_⟩
      rintro ⟨before, element, after, between, split, _⟩
      cases before <;> cases split
  | cons first rest ih =>
      unfold forEach
      rw [bind_eq_error_iff]
      constructor
      · rintro (failed | ⟨⟨⟩, next, run, later⟩)
        · exact ⟨[], first, rest, state, rfl, rfl, failed⟩
        · obtain ⟨before, element, after, between, rfl, carried, failed⟩ := ih.1 later
          exact ⟨first :: before, element, after, between, rfl,
            (bind_of_ok run _).trans carried, failed⟩
      · rintro ⟨before, element, after, between, split, carried, failed⟩
        rcases List.cons_eq_append_iff.1 split with ⟨rfl, same⟩ | ⟨others, rfl, isRest⟩
        · cases same
          cases carried
          exact .inl failed
        · obtain ⟨⟨⟩, next, run, later⟩ := bind_eq_ok carried
          exact .inr ⟨(), next, run, ih.2 ⟨others, element, after, between, isRest, later, failed⟩⟩

end Act

theorem Session.routed_of_find? {session : Session} {items : List Item}
    {relationship : String}
    (already : ∀ item ∈ items, session.destinations.find? item.id = some relationship) :
    session.routed items relationship = session := by
  induction items with
  | nil => rfl
  | cons item rest ih =>
      rw [List.forall_mem_cons] at already
      have kept := ih already.2
      unfold routed at kept ⊢
      rw [List.foldl_cons, Table.put_of_find? already.1]
      exact kept

namespace Flow

/-- An operation on the items of a list reached a state by carrying out the part of the list
before an item, which the session does not hold there. -/
structure StopsAt (operation : List Item → Act Flow Unit) (number : SessionId)
    (items part : List Item) (item : Item) (before reached : Flow) : Prop where
  split : ∃ after, items = part ++ item :: after
  carried : operation part before = (.ok (), reached)
  notHeld : item.id ∉ (reached.session number).ids

section Handover

variable {giver taker : SessionId}

/-- Items passed from one session to another, each once, and nothing else changed. -/
structure PassedOver (ids : List String) (giver taker : SessionId)
    (before after : Flow) : Prop where
  once : ids.Nodup
  arrived : ∀ id ∈ ids, ∃ current, (before.session giver).current.find? id = some current ∧
    (after.session taker).current.find? id = some current
  gone : ∀ id ∈ ids, id ∉ (after.session giver).ids
  entries : ∀ number, ∀ id ∉ ids, (after.session number).entry id =
    (before.session number).entry id
  others : ∀ number, number ≠ giver → number ≠ taker →
    after.session number = before.session number
  source : after.source = before.source
  sinks : after.sinks = before.sinks

theorem PassedOver.refl (giver taker : SessionId) (flow : Flow) :
    PassedOver [] giver taker flow flow where
  once := List.nodup_nil
  arrived := nofun
  gone := nofun
  entries _ _ _ := rfl
  others _ _ _ := rfl
  source := rfl
  sinks := rfl

theorem Passes.cons {id : String} {ids : List String} {before between after : Flow}
    (apart : giver ≠ taker) (first : Passes id giver taker before between)
    (rest : PassedOver ids giver taker between after) :
    PassedOver (id :: ids) giver taker before after := by
  have gone : id ∉ (between.session giver).ids := first.gone apart.symm
  have fresh : id ∉ ids := by
    intro again
    obtain ⟨current, found, _⟩ := rest.arrived id again
    exact gone (Session.mem_ids_iff.2 ⟨current, found⟩)
  have current : ∀ number, ∀ other ∉ ids, (after.session number).current.find? other =
      (between.session number).current.find? other :=
    fun number other notRest => congrArg Prod.fst (rest.entries number other notRest)
  constructor
  case once => exact List.nodup_cons.2 ⟨fresh, rest.once⟩
  case arrived =>
    refine List.forall_mem_cons.2 ⟨?_, fun other isRest => ?_⟩
    · obtain ⟨version, found, given⟩ := first.held
      exact ⟨version, found, (current taker id fresh).trans given⟩
    · obtain ⟨version, found, given⟩ := rest.arrived other isRest
      have differs : other ≠ id := fun same => fresh (same ▸ isRest)
      have same := congrArg Prod.fst (first.entries giver other differs)
      exact ⟨version, same.symm.trans found, given⟩
  case gone =>
    refine List.forall_mem_cons.2 ⟨fun held => gone ?_, rest.gone⟩
    exact (Session.mem_ids_of_entry (rest.entries giver id fresh)).1 held
  case entries =>
    intro number other notAny
    obtain ⟨differs, notRest⟩ := not_or.1 (mt List.mem_cons.2 notAny)
    exact (rest.entries number other notRest).trans (first.entries number other differs)
  case others =>
    intro number notGiver notTaker
    exact (rest.others number notGiver notTaker).trans (first.others number notGiver notTaker)
  case source => exact rest.source.trans first.source
  case sinks => exact rest.sinks.trans first.sinks

/-- A handover that is carried through hands over the items of its list. -/
theorem passedOver_of_migrate (apart : giver ≠ taker) {items : List Item}
    {before after : Flow} (run : migrate giver taker items before = (.ok (), after)) :
    PassedOver (items.map Item.id) giver taker before after := by
  unfold migrate at run
  rw [if_neg apart] at run
  induction items generalizing before with
  | nil =>
      cases run
      exact .refl giver taker _
  | cons item rest ih =>
      obtain ⟨⟨⟩, between, first, others⟩ := Act.bind_eq_ok run
      rcases handOver_cases giver taker item before with ⟨_, failed⟩ | ⟨current, found, handed⟩
      · rw [failed] at first
        cases first
      · rw [handed] at first
        cases first
        exact (passes_handed apart found).cons apart (ih others)

/-- A handover fails at the first item that is not held when its turn comes. -/
theorem migrate_fails_iff {items : List Item} {fault : Fault} {before reached : Flow} :
    migrate giver taker items before = (.error fault, reached) ↔
      giver ≠ taker ∧ ∃ part item, fault = .notHeld item.id giver ∧
        StopsAt (migrate giver taker) giver items part item before reached := by
  by_cases apart : giver = taker
  · refine ⟨fun failed => ?_, fun stops => absurd apart stops.1⟩
    unfold migrate at failed
    rw [if_pos apart] at failed
    cases failed
  have onEach : ∀ items, migrate giver taker items = Act.forEach items (handOver giver taker) :=
    fun items => if_neg apart
  rw [onEach, Act.forEach_eq_error]
  constructor
  · rintro ⟨part, item, after, between, split, carried, failed⟩
    rcases handOver_cases giver taker item between with ⟨absent, stopped⟩ | ⟨current, _, handed⟩
    · rw [stopped] at failed
      cases failed
      exact ⟨apart, part, item, rfl, ⟨after, split⟩, (onEach part ▸ carried),
        Session.not_mem_ids_of_find? absent⟩
    · rw [handed] at failed
      cases failed
  · rintro ⟨_, part, item, rfl, stops⟩
    obtain ⟨after, split⟩ := stops.split
    refine ⟨part, item, after, reached, split, onEach part ▸ stops.carried, ?_⟩
    rcases handOver_cases giver taker item reached with ⟨_, stopped⟩ | ⟨current, found, _⟩
    · exact stopped
    · exact absurd (Session.mem_ids_iff.2 ⟨current, found⟩) stops.notHeld

/-- A handover that stopped left its traces, unless it stopped at the first item. -/
theorem StopsAt.unmoved_iff_of_migrate (apart : giver ≠ taker) {items part : List Item}
    {item : Item} {before reached : Flow}
    (stops : StopsAt (migrate giver taker) giver items part item before reached) :
    before.Unmoved reached ↔ part = [] := by
  have passed := passedOver_of_migrate apart stops.carried
  constructor
  · intro unmoved
    refine List.eq_nil_iff_forall_not_mem.2 fun other isPart => ?_
    have isPassed : other.id ∈ part.map Item.id := List.mem_map_of_mem isPart
    obtain ⟨current, found, _⟩ := passed.arrived other.id isPassed
    have held : other.id ∈ (before.session giver).ids := Session.mem_ids_iff.2 ⟨current, found⟩
    exact passed.gone other.id isPassed (unmoved.session giver ▸ held)
  · rintro rfl
    have same := stops.carried
    unfold migrate at same
    rw [if_neg apart] at same
    cases same
    exact .refl before

end Handover

section Routing

variable {number : SessionId} {relationship : String}

/-- A session routed items to a relationship, and nothing else changed. -/
structure Rerouted (items : List Item) (number : SessionId) (relationship : String)
    (before after : Flow) : Prop where
  session : after.session number = (before.session number).routed items relationship
  others : ∀ other, other ≠ number → after.session other = before.session other
  source : after.source = before.source
  sinks : after.sinks = before.sinks

theorem Rerouted.refl (number : SessionId) (relationship : String) (flow : Flow) :
    Rerouted [] number relationship flow flow :=
  ⟨rfl, fun _ _ => rfl, rfl, rfl⟩

theorem Rerouted.cons {item : Item} {rest : List Item} {before after : Flow}
    (later : Rerouted rest number relationship (before.setSession number
      { before.session number with
        destinations := (before.session number).destinations.put item.id relationship }) after) :
    Rerouted (item :: rest) number relationship before after where
  session := by
    rw [later.session, session_setSession_self]
    rfl
  others other differs := by
    rw [later.others other differs, session_setSession, if_neg differs]
  source := later.source
  sinks := later.sinks

/-- A routing that is carried through routes the items of its list. -/
theorem rerouted_of_forEach {items : List Item} {before after : Flow}
    (run : Act.forEach items (routeOne number relationship) before = (.ok (), after)) :
    Rerouted items number relationship before after := by
  induction items generalizing before with
  | nil =>
      cases run
      exact .refl number relationship _
  | cons item rest ih =>
      obtain ⟨⟨⟩, between, first, others⟩ := Act.bind_eq_ok run
      rcases routeOne_cases number relationship item before with ⟨_, failed⟩ | ⟨_, routed⟩
      · rw [failed] at first
        cases first
      · rw [routed] at first
        cases first
        exact (ih others).cons

theorem Rerouted.unmoved_iff {items : List Item} {before after : Flow}
    (rerouted : Rerouted items number relationship before after) :
    before.Unmoved after ↔ ∀ item ∈ items,
      (before.session number).destinations.find? item.id = some relationship := by
  constructor
  · intro unmoved item isItem
    have found := (before.session number).find?_routed items relationship item.id
    rwa [← rerouted.session, unmoved.session, if_pos (List.mem_map_of_mem isItem)] at found
  · intro already
    refine ⟨fun other => ?_, rerouted.source, rerouted.sinks⟩
    by_cases same : other = number
    · rw [same, rerouted.session, Session.routed_of_find? already]
    · exact rerouted.others other same

theorem route_fails_iff {items : List Item} {id : String} {before reached : Flow} :
    route number items relationship before = (.error (.notHeld id number), reached) ↔
      relationship ∈ before.sinks.keys ∧ ∃ part item, item.id = id ∧
        StopsAt (route number · relationship) number items part item before reached := by
  by_cases known : relationship ∈ before.sinks.keys
  · rw [route_of_known known, Act.forEach_eq_error]
    constructor
    · rintro ⟨part, item, after, between, split, carried, failed⟩
      rcases routeOne_cases number relationship item between with
        ⟨absent, stopped⟩ | ⟨_, routed⟩
      · rw [stopped] at failed
        cases failed
        exact ⟨known, part, item, rfl, ⟨after, split⟩,
          (route_of_known known part).trans carried, absent⟩
      · rw [routed] at failed
        cases failed
    · rintro ⟨_, part, item, rfl, stops⟩
      obtain ⟨after, split⟩ := stops.split
      refine ⟨part, item, after, reached, split,
        (route_of_known known part).symm.trans stops.carried, ?_⟩
      rcases routeOne_cases number relationship item reached with ⟨_, stopped⟩ | ⟨held, _⟩
      · exact stopped
      · exact absurd held stops.notHeld
  · refine ⟨fun failed => ?_, fun stops => absurd stops.1 known⟩
    rw [route_of_unknown known] at failed
    cases failed

end Routing

/-- A handover fails just when it comes to an item that is not held any more, and a routing
to a known relationship when it comes to one that is not held.  The items before it went over,
or are routed, and nothing else changed.  No trace is left just when no item came before,
or all that did were routed to the relationship already. -/
theorem stops_part_way (flow reached : Flow) (giver taker : SessionId)
    (relationship : String) (items : List Item) (id : String) :
    (migrate giver taker items flow = (.error (.notHeld id giver), reached) ↔
      giver ≠ taker ∧ ∃ part item, item.id = id ∧
        StopsAt (migrate giver taker) giver items part item flow reached ∧
        PassedOver (part.map Item.id) giver taker flow reached ∧
        (flow.Unmoved reached ↔ part = [])) ∧
    (route giver items relationship flow = (.error (.notHeld id giver), reached) ↔
      relationship ∈ flow.sinks.keys ∧ ∃ part item, item.id = id ∧
        StopsAt (route giver · relationship) giver items part item flow reached ∧
        Rerouted part giver relationship flow reached ∧
        (flow.Unmoved reached ↔ ∀ item ∈ part,
          (flow.session giver).destinations.find? item.id = some relationship)) := by
  rw [migrate_fails_iff, route_fails_iff]
  constructor
  · refine and_congr_right fun apart => exists_congr fun part => exists_congr fun item => ?_
    constructor
    · rintro ⟨sameFault, stops⟩
      cases sameFault
      exact ⟨rfl, stops, passedOver_of_migrate apart stops.carried,
        stops.unmoved_iff_of_migrate apart⟩
    · rintro ⟨rfl, stops, _⟩
      exact ⟨rfl, stops⟩
  · refine and_congr_right fun known => exists_congr fun part => exists_congr fun item => ?_
    refine and_congr_right fun _ => ⟨fun stops => ?_, And.left⟩
    have rerouted : Rerouted part giver relationship flow reached :=
      rerouted_of_forEach ((route_of_known known part).symm.trans stops.carried)
    exact ⟨stops, rerouted, rerouted.unmoved_iff⟩

/-- Two sessions of which the first pulled one of two items. -/
def halfPulled : Flow :=
  (do
    let first ← openSession
    let _ ← openSession
    pull first 1 : Act Flow (List Item)).final
    { source := [{ id := "a" }, { id := "b" }], sinks := sinksFor [] }

/-- Of two items that are handed over or routed, the first goes over or is routed although
the second is not held. -/
theorem traces_of_half_pulled :
    let items : List Item := [{ id := "a" }, { id := "b" }]
    (∃ handed, migrate 0 1 items halfPulled = (.error (.notHeld "b" 0), handed) ∧
      ¬ halfPulled.Unmoved handed) ∧
    ∃ routed, route 0 items successRelationship halfPulled =
        (.error (.notHeld "b" 0), routed) ∧
      ¬ halfPulled.Unmoved routed := by
  refine ⟨⟨_, rfl, fun unmoved => ?_⟩, ⟨_, rfl, fun unmoved => ?_⟩⟩
  · have sameIds := congrArg Session.ids (unmoved.session 0)
    revert sameIds
    decide
  · have sameRoute := congrArg (·.destinations.find? "a") (unmoved.session 0)
    revert sameRoute
    decide

end Flow

end ItemBinning
