import ItemBinning.Hook.Grouping
import ItemBinning.Hook.Preprocessor
import ItemBinning.Proofs.Engine.Run
import ItemBinning.Proofs.Flow.Delivery
import ItemBinning.Proofs.Hook.Adornment

/-!
# Preparing items

A hook that prepares an item answers a version of it, and on the way it may put attributes
on the item in its session.  So there are two versions afterwards: the one that was
answered, which is binned, and the one that the session holds.  A hook that puts attributes
on no other item leaves the other items of the session, and all other sessions, as they
were.
-/

namespace ItemBinning

/-- The sessions hold the same version under an id and route it alike. -/
def Session.AgreesOn (session : Session) (id : String) (other : Session) : Prop :=
  session.current.find? id = other.current.find? id ∧
    session.destinations.find? id = other.destinations.find? id

namespace Flow

/-- One item of one session at most has another version or another destination. -/
structure Dressed (session : SessionId) (id : String) (before after : Flow) : Prop where
  others : ∀ other, other ≠ session → after.session other = before.session other
  elsewhere : ∀ other, other ≠ id →
    (after.session session).AgreesOn other (before.session session)

variable {session : SessionId} {id : String} {first second third flow start : Flow}

namespace Dressed

theorem refl (flow : Flow) : flow.Dressed session id flow :=
  ⟨fun _ _ => rfl, fun _ _ => ⟨rfl, rfl⟩⟩

theorem trans (dressedFirst : first.Dressed session id second)
    (dressedSecond : second.Dressed session id third) : first.Dressed session id third where
  others other differs :=
    (dressedSecond.others other differs).trans (dressedFirst.others other differs)
  elsewhere other differs :=
    have ⟨current, destination⟩ := dressedFirst.elsewhere other differs
    have ⟨later, routed⟩ := dressedSecond.elsewhere other differs
    ⟨later.trans current, routed.trans destination⟩

theorem setSession {replaced : Session}
    (elsewhere : ∀ other, other ≠ id → replaced.AgreesOn other (flow.session session)) :
    flow.Dressed session id (flow.setSession session replaced) where
  others other differs := by rw [session_setSession, if_neg differs]
  elsewhere other differs := by
    rw [session_setSession, if_pos rfl]
    exact elsewhere other differs

end Dressed

theorem annotate_dressed {item : Item} (own : item.id = id) (attributes : Attributes) :
    (annotate session item attributes).Keeps (start.Dressed session id) := by
  apply Act.Keeps.of_final
  intro flow dressed
  rcases annotate_cases session item attributes flow with ⟨_, run⟩ | ⟨current, _, run⟩ <;>
    rw [run]
  · exact dressed
  · refine dressed.trans (.setSession fun other differs => ⟨?_, rfl⟩)
    rw [own, Table.find?_put, if_neg differs]

theorem route_dressed {items : List Item} (own : ∀ item ∈ items, item.id = id)
    (relationship : String) :
    (route session items relationship).Keeps (start.Dressed session id) := by
  refine (Act.Keeps.read _).bind fun known => ?_
  split
  · refine Act.Keeps.forEach fun item member => Act.Keeps.of_final fun flow dressed => ?_
    rcases routeOne_cases session relationship item flow with ⟨_, run⟩ | ⟨_, run⟩ <;> rw [run]
    · exact dressed
    · refine dressed.trans (.setSession fun other differs => ⟨rfl, ?_⟩)
      dsimp only
      rw [own item member, Table.find?_put, if_neg differs]
  · exact Act.Keeps.fail _

/-- Items that could be routed are routed. -/
theorem route_routes (items : List Item) (relationship : String) :
    (route session items relationship).Meets (fun _ => True)
      (fun _ flow => ∀ item ∈ items, flow.Routed session item.id relationship)
      fun _ _ => True := by
  have look : (Act.read fun flow : Flow => flow.sinks.contains relationship).Meets
      (fun _ => True) (fun _ _ => True) fun _ _ => True := Act.Meets.anything
  refine look.bind fun known => ?_
  split
  · induction items with
    | nil => exact Act.Meets.pure fun _ _ => List.forall_mem_nil _
    | cons item rest ih =>
        have first : (routeOne session relationship item).Meets (fun _ => True)
            (fun _ flow => flow.Routed session item.id relationship) fun _ _ => True := by
          intro flow _
          rcases routeOne_cases session relationship item flow with ⟨_, run⟩ | ⟨_, run⟩ <;>
            rw [run]
          · trivial
          · change Routed session item.id relationship _
            unfold Routed
            rw [session_setSession, if_pos rfl, Table.find?_put, if_pos rfl]
        have stays : (Act.forEach rest (routeOne session relationship)).Keeps
            (Routed session item.id relationship) :=
          Act.Keeps.forEach fun other _ => routeOne_routed session relationship other fun _ => rfl
        have both := stays.and (ih.weaken (fun _ _ => trivial) (fun _ _ => id) fun _ _ => id)
        refine first.bind fun _ => both.weaken (fun _ => id) ?_ fun _ _ _ => trivial
        exact fun _ flow routed => List.forall_mem_cons.2 routed
  · exact Act.Meets.fail fun _ _ => trivial

end Flow

namespace Depot

/-- Items may have been adorned, but in one session only. -/
structure Beside (session : SessionId) (before after : Depot) : Prop
    extends before.Adorned after where
  others : ∀ other, other ≠ session → after.flow.session other = before.flow.session other

/-- One item of one session may have been adorned. -/
structure Dressed (session : SessionId) (id : String) (before after : Depot) : Prop where
  adorned : before.Adorned after
  flow : before.flow.Dressed session id after.flow

variable {session : SessionId} {id : String} {first second third start before after : Depot}

theorem route_routes {before : Depot → Prop} (items : List Item) (relationship : String) :
    (Depot.onFlow (Flow.route session items relationship)).Meets before
      (fun _ depot => ∀ item ∈ items, depot.flow.Routed session item.id relationship)
      fun _ _ => True :=
  (onFlow_meets (Flow.route_routes items relationship)).weaken (fun _ _ => trivial)
    (fun _ _ => id) fun _ _ => id

theorem Beside.refl (depot : Depot) : depot.Beside session depot :=
  ⟨.refl depot, fun _ _ => rfl⟩

theorem Beside.trans (besideFirst : first.Beside session second)
    (besideSecond : second.Beside session third) : first.Beside session third where
  toAdorned := besideFirst.toAdorned.trans besideSecond.toAdorned
  others other differs :=
    (besideSecond.others other differs).trans (besideFirst.others other differs)

namespace Dressed

theorem refl (depot : Depot) : depot.Dressed session id depot :=
  ⟨.refl depot, .refl depot.flow⟩

theorem trans (dressedFirst : first.Dressed session id second)
    (dressedSecond : second.Dressed session id third) : first.Dressed session id third :=
  ⟨dressedFirst.adorned.trans dressedSecond.adorned,
    dressedFirst.flow.trans dressedSecond.flow⟩

theorem beside (dressed : before.Dressed session id after) : before.Beside session after :=
  ⟨dressed.adorned, dressed.flow.others⟩

theorem count (change : Counters → Counters) :
    (Depot.count change).Keeps (start.Dressed session id) :=
  Act.Keeps.of_final fun _ dressed =>
    dressed.trans ⟨(count_adorns change).final (.refl _), .refl _⟩

theorem route {items : List Item} (own : ∀ item ∈ items, item.id = id)
    (relationship : String) :
    (Depot.onFlow (Flow.route session items relationship)).Keeps
      (start.Dressed session id) := by
  apply Act.Keeps.of_final
  intro depot dressed
  refine dressed.trans ⟨?_, (Flow.route_dressed own relationship).final (.refl depot.flow)⟩
  exact (Adorned.onFlow fun _ => Flow.route_adorns session items relationship).final
    (.refl depot)

end Dressed

end Depot

/-- The call puts attributes on an item with one id in one session, or concerns no items. -/
def Call.Dresses (session : SessionId) (id : String) : Call → Prop
  | .annotate holder item _ => holder = session ∧ item.id = id
  | call => call.Aside

namespace Call.Dresses

variable {session : SessionId} {id : String} {call : Call}

theorem gentle (dresses : call.Dresses session id) : call.Gentle := by
  cases call with
  | annotate => exact .inl trivial
  | _ => exact .inr dresses

theorem perform (dresses : call.Dresses session id) {start : Depot} :
    call.perform.Keeps (start.Dressed session id) := by
  refine Act.Keeps.of_final fun depot dressed => dressed.trans
    ⟨dresses.gentle.perform.final (.refl depot), ?_⟩
  have aside (none : call.Aside) :
      depot.flow.Dressed session id (call.perform depot).2.flow := by
    rw [none.rest_perform depot]
    exact .refl depot.flow
  cases call with
  | annotate holder item attributes =>
      obtain ⟨rfl, own⟩ := dresses
      exact (Flow.annotate_dressed own attributes).final (.refl depot.flow)
  | _ => exact aside dresses

theorem of_aside (aside : call.Aside) : call.Dresses session id := by
  cases call with
  | annotate => exact aside.elim
  | _ => exact aside

end Call.Dresses

theorem Script.Uses.dressed {α : Type} {session : SessionId} {id : String} {script : Script α}
    (uses : script.Uses (Call.Dresses session id)) (depot : Depot) :
    depot.Dressed session id (script.run depot).2 := by
  have keeps : script.run.Keeps (depot.Dressed session id) :=
    uses.keeps fun _ dresses => dresses.perform
  exact keeps.final (.refl depot)

/-- A script that concerns no items changes nothing but what is counted and the clock. -/
theorem Script.Uses.stands {α : Type} {script : Script α} (uses : script.Uses Call.Aside)
    (depot : Depot) : (script.run depot).2 = { depot with
      clock := (script.run depot).2.clock
      bundles := (script.run depot).2.bundles
      created := (script.run depot).2.created
      tallies := (script.run depot).2.tallies } := by
  have keeps : script.run.Keeps fun reached => reached = { depot with
      clock := reached.clock
      bundles := reached.bundles
      created := reached.created
      tallies := reached.tallies } := by
    refine uses.keeps fun call aside => Act.Keeps.of_final fun reached stands => ?_
    rw [aside.rest_perform reached, stands]
  exact keeps.final rfl

/-- The ready-made group keys are computed without a call. -/
theorem Grouping.uses_script (allowed : Call → Prop) (grouping : Grouping) (item : Item) :
    (grouping.script item).Uses allowed := by
  cases grouping with
  | byAttribute name unusable refused =>
      simp only [script]
      split
      · trivial
      · split
        · trivial
        · split <;> trivial
  | sizeModulo divisor =>
      simp only [script]
      split <;> trivial
  | constant | identifier => trivial

theorem Script.run_perform (operation : Call) :
    (Script.perform operation).run = operation.perform := by
  funext depot
  unfold Script.perform Script.run
  rcases operation.perform depot with ⟨fault | reply, reached⟩ <;> rfl

/-- A version that was answered when attributes were put on an item in its session is the one
that the session then holds. -/
theorem Preprocessor.annotate_ok {attributes : Attributes} {item version : Item}
    {session : SessionId} {start reached : Depot}
    (run : ((annotate attributes).script item session).run start =
      (.ok (some version), reached)) :
    ∃ current, (start.flow.session session).current.find? item.id = some current ∧
      version = current.withAttributes attributes ∧
      (reached.flow.session session).current.find? item.id = some version := by
  have runs : ((annotate attributes).script item session).run start =
      (Depot.onFlow (Flow.annotate session item attributes) >>= fun updated =>
        (Script.done (some updated)).run) start := by
    refine (congrFun (Script.run_bind _ fun updated => .done (some updated)) start).trans ?_
    rw [Script.run_perform]
    rfl
  rw [runs] at run
  rcases Flow.annotate_cases session item attributes start.flow with
    ⟨_, fails⟩ | ⟨current, found, answers⟩
  · rw [Act.bind_of_error (Depot.onFlow_eq fails)] at run
    cases run
  · rw [Act.bind_of_ok (Depot.onFlow_eq answers)] at run
    cases run
    refine ⟨current, found, rfl, ?_⟩
    rw [Flow.session_setSession_self, Table.find?_put, if_pos rfl]

/-- Preparing an item that a session held as it is gave a version, and left the session with
a version that is current then. -/
def Hooks.Derives (hooks : Hooks) (item version current : Item) : Prop :=
  ∃ session start reached,
    (hooks.preprocess item session).run start = (.ok (some version), reached) ∧
    (start.flow.session session).current.find? item.id = some item ∧
    (reached.flow.session session).current.find? item.id = some current

namespace Hooks.Derives

variable {hooks : Hooks} {attributes : Attributes} {item version current : Item}

/-- A hook that puts attributes on the item in its session answers the version that the
session then holds. -/
theorem of_annotate (isHook : ∀ session, hooks.preprocess item session =
      (Preprocessor.annotate attributes).script item session)
    (derives : hooks.Derives item version current) : current = version := by
  obtain ⟨session, start, reached, run, held, left⟩ := derives
  rw [isHook] at run
  obtain ⟨_, _, _, answered⟩ := Preprocessor.annotate_ok run
  exact Option.some.inj (left.symm.trans answered)

/-- A hook that answers a copy leaves the item in its session as it was. -/
theorem of_copy (isHook : ∀ session, hooks.preprocess item session =
      (Preprocessor.copy attributes).script item session)
    (derives : hooks.Derives item version current) :
    version = item.withAttributes attributes ∧ current = item := by
  obtain ⟨session, start, reached, run, held, left⟩ := derives
  rw [isHook] at run
  cases run
  exact ⟨rfl, Option.some.inj (left.symm.trans held)⟩

end Hooks.Derives

/-- The hooks put attributes on no item but the one that is prepared, in the session that
it is in, and answer versions of no other item. -/
structure Hooks.Prepare (hooks : Hooks) : Prop where
  preprocess : ∀ item session,
    (hooks.preprocess item session).Uses (Call.Dresses session item.id)
  groupKey : ∀ item, (hooks.groupKey item).Uses Call.Aside
  process : ∀ bin, (hooks.process bin).Uses Call.Aside
  versions : ∀ item session (depot : Depot) version reached,
    (depot.flow.session session).current.find? item.id = some item →
    (hooks.preprocess item session).run depot = (.ok (some version), reached) →
      version.id = item.id
  sizes : hooks.KeepSizes

namespace Hooks.Prepare

variable {hooks : Hooks}

theorem behave (prepare : hooks.Prepare) : hooks.Behave fun _ => False where
  preprocess item session :=
    (prepare.preprocess item session).mono fun _ dresses => dresses.gentle.permitted _ none
  groupKey item := (prepare.groupKey item).mono fun _ aside => aside.permitted _ none
  process bin := (prepare.process bin).mono fun _ aside => aside.permitted _ (some bin)
  versions := prepare.sizes

theorem gentle (prepare : hooks.Prepare) : hooks.Gentle where
  preprocess item session :=
    (prepare.preprocess item session).mono fun _ dresses => dresses.gentle
  groupKey item := (prepare.groupKey item).mono fun _ => .inr

/-- Hooks prepare items if they put attributes on them in their sessions. -/
theorem of_annotate {attributes : Item → Attributes}
    (isHook : ∀ item session, hooks.preprocess item session =
      (Preprocessor.annotate (attributes item)).script item session)
    (groupKey : ∀ item, (hooks.groupKey item).Uses Call.Aside)
    (process : ∀ bin, (hooks.process bin).Uses Call.Aside) : hooks.Prepare where
  preprocess item session := by
    rw [isHook]
    refine ⟨⟨rfl, rfl⟩, fun outcome => ?_⟩
    cases outcome <;> trivial
  groupKey := groupKey
  process := process
  versions item session depot version reached held run := by
    rw [isHook] at run
    obtain ⟨current, found, rfl, _⟩ := Preprocessor.annotate_ok run
    rw [held] at found
    cases found
    rfl
  sizes item session depot version reached everywhere whole run := by
    rw [isHook] at run
    obtain ⟨current, found, rfl, _⟩ := Preprocessor.annotate_ok run
    exact everywhere.current session item.id current found

/-- Hooks prepare items if they answer copies with attributes. -/
theorem of_copy {attributes : Item → Attributes}
    (isHook : ∀ item session, hooks.preprocess item session =
      (Preprocessor.copy (attributes item)).script item session)
    (groupKey : ∀ item, (hooks.groupKey item).Uses Call.Aside)
    (process : ∀ bin, (hooks.process bin).Uses Call.Aside) : hooks.Prepare where
  preprocess item session := by
    rw [isHook]
    trivial
  groupKey := groupKey
  process := process
  versions item session depot version reached _ run := by
    rw [isHook] at run
    cases run
    rfl
  sizes item session depot version reached _ whole run := by
    rw [isHook] at run
    cases run
    exact whole

/-- Hooks prepare items if they answer them as they are. -/
theorem of_same
    (isHook : ∀ item session, hooks.preprocess item session = .done (some item))
    (groupKey : ∀ item, (hooks.groupKey item).Uses Call.Aside)
    (process : ∀ bin, (hooks.process bin).Uses Call.Aside) : hooks.Prepare where
  preprocess item session := by
    rw [isHook]
    trivial
  groupKey := groupKey
  process := process
  versions item session depot version reached _ run := by
    rw [isHook] at run
    cases run
    rfl
  sizes item session depot version reached _ whole run := by
    rw [isHook] at run
    cases run
    exact whole

end Hooks.Prepare

end ItemBinning
