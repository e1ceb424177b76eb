import ItemBinning.Proofs.Engine.Custody

/-!
# Adorning items

Putting attributes on items and routing them leaves every item where it is, also in the
version in which it was pulled.  So hooks that call for nothing else only adorn.  Hooks
that route no item but the one they are applied to leave the others routed as they were.
-/

namespace ItemBinning

namespace Flow

/-- The flows may differ in the attributes and the destinations of held items. -/
structure Adorned (before after : Flow) : Prop where
  source : after.source = before.source
  sinks : after.sinks = before.sinks
  sessions : before.sessions.next ≤ after.sessions.next
  pulled : ∀ number, (after.session number).pulled = (before.session number).pulled
  ids : ∀ number, (after.session number).ids = (before.session number).ids

namespace Adorned

variable {first second third flow start : Flow}

theorem refl (flow : Flow) : flow.Adorned flow :=
  ⟨rfl, rfl, Nat.le_refl _, fun _ => rfl, fun _ => rfl⟩

theorem trans (adornedFirst : first.Adorned second) (adornedSecond : second.Adorned third) :
    first.Adorned third where
  source := adornedSecond.source.trans adornedFirst.source
  sinks := adornedSecond.sinks.trans adornedFirst.sinks
  sessions := Nat.le_trans adornedFirst.sessions adornedSecond.sessions
  pulled number := (adornedSecond.pulled number).trans (adornedFirst.pulled number)
  ids number := (adornedSecond.ids number).trans (adornedFirst.ids number)

/-- A session may be put in place of another that holds the same items as pulled. -/
theorem setSession {number : SessionId} {session : Session}
    (pulled : session.pulled = (flow.session number).pulled)
    (ids : session.ids = (flow.session number).ids) :
    flow.Adorned (flow.setSession number session) where
  source := rfl
  sinks := rfl
  sessions := by
    rw [sessions_setSession, Slots.next_set]
    omega
  pulled other := by
    rw [session_setSession]
    split
    · rename_i same
      rw [same, pulled]
    · rfl
  ids other := by
    rw [session_setSession]
    split
    · rename_i same
      rw [same, ids]
    · rfl

end Adorned

variable {start : Flow}

theorem annotate_adorns (number : SessionId) (item : Item) (attributes : Attributes) :
    (annotate number item attributes).Keeps start.Adorned := by
  apply Act.Keeps.of_final
  intro flow adorned
  rcases annotate_cases number item attributes flow with ⟨_, run⟩ | ⟨current, found, run⟩ <;>
    rw [run]
  · exact adorned
  · exact adorned.trans
      (.setSession rfl (Session.ids_update (Session.mem_ids_iff.2 ⟨current, found⟩)))

theorem route_adorns (number : SessionId) (items : List Item) (relationship : String) :
    (route number items relationship).Keeps start.Adorned := by
  refine (Act.Keeps.read _).bind fun known => ?_
  split
  · refine Act.Keeps.forEach fun item _ => Act.Keeps.of_final fun flow adorned => ?_
    rcases routeOne_cases number relationship item flow with ⟨_, run⟩ | ⟨_, run⟩ <;> rw [run]
    · exact adorned
    · exact adorned.trans (.setSession rfl rfl)
  · exact Act.Keeps.fail _

end Flow

namespace Depot

/-- Items may have other attributes and destinations, and what is counted and the clock
may differ. -/
structure Adorned (before after : Depot) : Prop where
  flow : before.flow.Adorned after.flow
  rest : after = { before with
    flow := after.flow
    clock := after.clock
    counters := after.counters
    bundles := after.bundles
    created := after.created
    tallies := after.tallies }

namespace Adorned

variable {first second third before after : Depot}

theorem refl (depot : Depot) : depot.Adorned depot :=
  ⟨.refl _, rfl⟩

theorem trans (adornedFirst : first.Adorned second) (adornedSecond : second.Adorned third) :
    first.Adorned third where
  flow := adornedFirst.flow.trans adornedSecond.flow
  rest := by rw [adornedSecond.rest, adornedFirst.rest]

theorem shelf (adorned : before.Adorned after) : after.shelf = before.shelf := by
  rw [adorned.rest]

theorem ready (adorned : before.Adorned after) : after.ready = before.ready := by
  rw [adorned.rest]

theorem moves (adorned : before.Adorned after) : after.moves = before.moves := by
  rw [adorned.rest]

theorem bins (adorned : before.Adorned after) : after.bins = before.bins := by
  rw [adorned.rest]

theorem bin (adorned : before.Adorned after) (number : BinId) :
    after.bin number = before.bin number :=
  congrArg (Slots.get · number) adorned.bins

theorem ids_binSession (adorned : before.Adorned after) (number : BinId) :
    (after.binSession number).ids = (before.binSession number).ids := by
  unfold binSession
  rw [adorned.bin]
  exact adorned.flow.ids _

theorem pulled_binSession (adorned : before.Adorned after) (number : BinId) :
    (after.binSession number).pulled = (before.binSession number).pulled := by
  unfold binSession
  rw [adorned.bin]
  exact adorned.flow.pulled _

theorem undisturbed (adorned : before.Adorned after) : before.Undisturbed after := by
  exact .of_same adorned.bins (by rw [adorned.shelf]) (by rw [adorned.shelf]) adorned.ready
    adorned.flow.sessions

theorem onFlow {α : Type} {act : Act Flow α} {start : Depot}
    (adorns : ∀ flow, act.Keeps (Flow.Adorned flow)) :
    (Depot.onFlow act).Keeps start.Adorned :=
  Act.Keeps.of_final fun depot adorned =>
    adorned.trans ⟨Act.Meets.final (adorns depot.flow) (.refl _), rfl⟩

end Adorned

variable {start : Depot}

theorem count_adorns (change : Counters → Counters) : (count change).Keeps start.Adorned :=
  Act.Keeps.of_final fun _ adorned => adorned.trans ⟨.refl _, rfl⟩

end Depot

/-- The call puts attributes on an item or routes items. -/
def Call.Adorns : Call → Prop
  | .annotate _ _ _ => True
  | .route _ _ _ => True
  | _ => False

namespace Call.Adorns

variable {call : Call}

theorem permitted (adorns : call.Adorns) (mayPut : List Item → Prop) (own : Option BinId) :
    call.Permitted mayPut own := by
  cases call <;> trivial

theorem perform (adorns : call.Adorns) {start : Depot} : call.perform.Keeps start.Adorned := by
  cases call with
  | annotate session item attributes =>
      exact Depot.Adorned.onFlow fun _ => Flow.annotate_adorns session item attributes
  | route session items relationship =>
      exact Depot.Adorned.onFlow fun _ => Flow.route_adorns session items relationship
  | _ => exact adorns.elim

end Call.Adorns

/-- The call concerns the clock or what is counted, and no items or bins. -/
def Call.Aside : Call → Prop
  | .createItem _ => True
  | .advance _ => True
  | .numberBundle => True
  | .tally _ => True
  | _ => False

namespace Call.Aside

variable {call : Call}

theorem permitted (aside : call.Aside) (mayPut : List Item → Prop) (own : Option BinId) :
    call.Permitted mayPut own := by
  cases call <;> trivial

theorem leavesPolicy (aside : call.Aside) : call.LeavesPolicy := by
  cases call <;> trivial

theorem rest_perform (aside : call.Aside) (depot : Depot) :
    (call.perform depot).2 = { depot with
      clock := (call.perform depot).2.clock
      bundles := (call.perform depot).2.bundles
      created := (call.perform depot).2.created
      tallies := (call.perform depot).2.tallies } := by
  cases call with
  | createItem | advance | numberBundle | tally => rfl
  | _ => exact aside.elim

end Call.Aside

/-- The call leaves all items and bins where they are. -/
def Call.Gentle (call : Call) : Prop :=
  call.Adorns ∨ call.Aside

namespace Call.Gentle

variable {call : Call}

theorem permitted (gentle : call.Gentle) (mayPut : List Item → Prop) (own : Option BinId) :
    call.Permitted mayPut own :=
  gentle.elim (·.permitted mayPut own) (·.permitted mayPut own)

theorem leavesPolicy (gentle : call.Gentle) : call.LeavesPolicy := by
  rcases gentle with adorns | aside
  · cases call <;> trivial
  · exact aside.leavesPolicy

theorem perform (gentle : call.Gentle) {start : Depot} : call.perform.Keeps start.Adorned := by
  rcases gentle with adorns | aside
  · exact adorns.perform
  · apply Act.Keeps.of_final
    intro depot adorned
    have rest := aside.rest_perform depot
    generalize (call.perform depot).2 = reached at rest
    rw [rest]
    exact adorned.trans ⟨.refl _, rfl⟩

end Call.Gentle

theorem Script.Uses.adorned {α : Type} {script : Script α} (uses : script.Uses Call.Gentle)
    (depot : Depot) : depot.Adorned (script.run depot).2 := by
  have adorns : script.run.Keeps depot.Adorned := uses.keeps fun _ gentle => gentle.perform
  exact adorns.final (.refl depot)

/-- The hooks of an intake only adorn. -/
structure Hooks.Adorn (hooks : Hooks) : Prop where
  preprocess : ∀ item session, (hooks.preprocess item session).Uses Call.Adorns
  groupKey : ∀ item, (hooks.groupKey item).Uses Call.Adorns

/-- The hooks of an intake leave all items and bins where they are. -/
structure Hooks.Gentle (hooks : Hooks) : Prop where
  preprocess : ∀ item session, (hooks.preprocess item session).Uses Call.Gentle
  groupKey : ∀ item, (hooks.groupKey item).Uses Call.Gentle

theorem Hooks.Adorn.gentle {hooks : Hooks} (adorn : hooks.Adorn) : hooks.Gentle where
  preprocess item session := (adorn.preprocess item session).mono fun _ => .inl
  groupKey item := (adorn.groupKey item).mono fun _ => .inl

/-- The call puts attributes on an item, or routes items with one id. -/
def Call.Minds (id : String) : Call → Prop
  | .annotate _ _ _ => True
  | .route _ items _ => ∀ item ∈ items, item.id = id
  | _ => False

theorem Call.Minds.adorns {id : String} {call : Call} (minds : call.Minds id) :
    call.Adorns := by
  cases call <;> trivial

/-- The hooks mind only the item they are applied to, and give versions of no other. -/
structure Hooks.Mind (hooks : Hooks) : Prop where
  preprocess : ∀ item session, (hooks.preprocess item session).Uses (Call.Minds item.id)
  groupKey : ∀ item, (hooks.groupKey item).Uses (Call.Minds item.id)
  versions : ∀ item session depot version reached,
    (hooks.preprocess item session).run depot = (.ok (some version), reached) →
      version.id = item.id

/-- The call minds the items with an id, or concerns no items. -/
def Call.Heeds (id : String) (call : Call) : Prop :=
  call.Minds id ∨ call.Aside

theorem Call.Heeds.gentle {id : String} {call : Call} (heeds : call.Heeds id) : call.Gentle :=
  heeds.imp_left Call.Minds.adorns

/-- The hooks heed only the item they are applied to, and give versions of no other. -/
structure Hooks.Heed (hooks : Hooks) : Prop where
  preprocess : ∀ item session, (hooks.preprocess item session).Uses (Call.Heeds item.id)
  groupKey : ∀ item, (hooks.groupKey item).Uses (Call.Heeds item.id)
  versions : ∀ item session depot version reached,
    (hooks.preprocess item session).run depot = (.ok (some version), reached) →
      version.id = item.id

theorem Hooks.Mind.heed {hooks : Hooks} (mind : hooks.Mind) : hooks.Heed where
  preprocess item session := (mind.preprocess item session).mono fun _ => .inl
  groupKey item := (mind.groupKey item).mono fun _ => .inl
  versions := mind.versions

namespace Flow

variable {number : SessionId} {id relationship : String}

/-- The item with an id is routed to a relationship in a session. -/
def Routed (number : SessionId) (id relationship : String) (flow : Flow) : Prop :=
  (flow.session number).destinations.find? id = some relationship

theorem annotate_routed (session : SessionId) (item : Item) (attributes : Attributes) :
    (annotate session item attributes).Keeps (Routed number id relationship) := by
  apply Act.Keeps.of_final
  intro flow routed
  rcases annotate_cases session item attributes flow with ⟨_, run⟩ | ⟨current, _, run⟩ <;>
    rw [run]
  · exact routed
  · unfold Routed
    rw [session_setSession]
    split
    · rename_i same
      exact same ▸ routed
    · exact routed

theorem routeOne_routed (session : SessionId) (other : String) (item : Item)
    (kept : item.id = id → other = relationship) :
    (routeOne session other item).Keeps (Routed number id relationship) := by
  apply Act.Keeps.of_final
  intro flow routed
  rcases routeOne_cases session other item flow with ⟨_, run⟩ | ⟨_, run⟩ <;> rw [run]
  · exact routed
  · unfold Routed
    rw [session_setSession]
    split
    · rename_i same
      subst same
      dsimp only
      rw [Table.find?_put]
      split
      · rename_i same
        rw [kept same.symm]
      · exact routed
    · exact routed

/-- Routing items leaves the other items routed as they were. -/
theorem route_routed (session : SessionId) (items : List Item) (other : String)
    (kept : ∀ item ∈ items, item.id = id → other = relationship) :
    (route session items other).Keeps (Routed number id relationship) := by
  refine (Act.Keeps.read _).bind fun known => ?_
  split
  · exact Act.Keeps.forEach fun item member => routeOne_routed session other item
      (kept item member)
  · exact Act.Keeps.fail _

end Flow

theorem Call.Minds.perform_routed {own id relationship : String} {session : SessionId}
    {call : Call} (minds : call.Minds own) (apart : own ≠ id) :
    call.perform.Keeps fun depot => depot.flow.Routed session id relationship := by
  cases call with
  | annotate other item attributes =>
      exact Act.Keeps.of_final fun depot routed =>
        (Flow.annotate_routed other item attributes).final routed
  | route other items relationship =>
      refine Act.Keeps.of_final fun depot routed =>
        (Flow.route_routed other items relationship fun item member same => ?_).final routed
      exact absurd ((minds item member).symm.trans same) apart
  | _ => exact minds.elim

theorem Call.Heeds.perform_routed {own id relationship : String} {session : SessionId}
    {call : Call} (heeds : call.Heeds own) (apart : own ≠ id) :
    call.perform.Keeps fun depot => depot.flow.Routed session id relationship := by
  rcases heeds with minds | aside
  · exact minds.perform_routed apart
  · apply Act.Keeps.of_final
    intro depot routed
    rw [aside.rest_perform depot]
    exact routed

end ItemBinning
