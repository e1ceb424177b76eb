import ItemBinning.Proofs.Flow.Handover
import ItemBinning.Proofs.Flow.Pulling
import ItemBinning.Proofs.Hook.Adornment

/-!
# What a rollback restores

A session keeps each item as it was pulled beside its current version, and hands both on
when the item goes to another session.  So whatever happened to an item since it was
pulled, the session that holds it in the end returns the version that was pulled.  When
the items of a session were only annotated and routed, its rollback undoes the pull.
-/

namespace ItemBinning.Flow

namespace Operation

/-- The items that the operation puts into the source. -/
def given : Operation → List Item
  | put items => items
  | _ => []

/-- The operation annotates items, routes them or hands them over. -/
def Handles : Operation → Prop
  | openSession | migrate _ _ _ | route _ _ _ | annotate _ _ _ => True
  | put _ | pull _ _ | commit _ | rollBack _ => False

/-- The operation handles items, and hands none over from a session or to it. -/
def Spares (holder : SessionId) : Operation → Prop
  | migrate source target _ => source ≠ holder ∧ target ≠ holder
  | operation => operation.Handles

end Operation

variable {known : List String} {flow : Flow} {items : List Item}

theorem Carried.perform {property : Flow → Prop} (carried : Carried property)
    {operation : Operation} (nothing : operation.given = []) (holds : property flow) :
    property (operation.perform flow) := by
  cases operation with
  | openSession => exact carried.openSession.final holds
  | put items =>
      cases nothing
      have same : (Operation.put []).perform flow = flow := by
        change { flow with source := flow.source ++ [] } = flow
        rw [List.append_nil]
      exact same.symm ▸ holds
  | pull session count => exact (carried.pullValue session count).final holds
  | migrate source target items => exact (carried.migrate source target items).final holds
  | route session items relationship =>
      exact (carried.routeValue session items relationship).final holds
  | annotate session item attributes =>
      exact (carried.annotate session item attributes).final holds
  | commit session => exact (carried.commit session).final holds
  | rollBack session => exact (carried.rollBack session).final holds

/-- Every id that was given stands once, and what waits or was pulled are versions that
were given. -/
structure Traced (known : List String) (items : List Item) (flow : Flow) : Prop where
  accounted : flow.Accounted known (items.map Item.id)
  upstream : flow.Upstream (· ∈ items)

namespace Traced

theorem start (source : List Item) (relationships : List String) :
    Traced (sinksFor relationships).keys source
      { source, sinks := sinksFor relationships } where
  accounted := accounted_start source relationships
  upstream := ⟨fun _ => id, fun _ _ _ found => absurd found nofun⟩

theorem put (traced : flow.Traced known items) (more : List Item) :
    Traced known (items ++ more) { flow with source := flow.source ++ more } where
  accounted := by
    rw [List.map_append]
    exact traced.accounted.put more
  upstream :=
    { waiting := List.forall_mem_append.2
        ⟨fun item waits => List.mem_append_left _ (traced.upstream.waiting item waits),
          fun _ => List.mem_append_right _⟩
      pulled := fun number id item found =>
        List.mem_append_left _ (traced.upstream.pulled number id item found) }

/-- An operation that puts nothing into the source loses no item and alters no version
that waits or was pulled. -/
theorem keep (traced : flow.Traced known items) (distinct : (items.map Item.id).Nodup)
    {operation : Operation} (nothing : operation.given = []) :
    (operation.perform flow).Traced known items where
  accounted := (carried_accounted distinct).perform nothing traced.accounted
  upstream := ((carried_upstream known (· ∈ items)).perform nothing
    ⟨traced.accounted.coherent, traced.upstream⟩).2

theorem perform (traced : flow.Traced known items) (operation : Operation)
    (distinct : ((items ++ operation.given).map Item.id).Nodup) :
    (operation.perform flow).Traced known (items ++ operation.given) := by
  by_cases nothing : operation.given = []
  · rw [nothing, List.append_nil] at distinct ⊢
    exact traced.keep distinct nothing
  · cases operation with
    | put more => exact traced.put more
    | _ => exact absurd rfl nothing

theorem pull (traced : flow.Traced known items) (distinct : (items.map Item.id).Nodup)
    {number : SessionId} {count : Value} {answer : Except Fault (List Item)} {after : Flow}
    (run : pullValue number count flow = (answer, after)) : after.Traced known items := by
  have reached : (Operation.pull number count).perform flow = after := congrArg Prod.snd run
  exact reached ▸ @keep _ _ _ traced distinct (.pull number count) rfl

theorem run (traced : flow.Traced known items) {history : List Operation}
    (distinct : ((items ++ history.flatMap Operation.given).map Item.id).Nodup) :
    (Operation.run flow history).Traced known
      (items ++ history.flatMap Operation.given) := by
  induction history generalizing flow items with
  | nil =>
      rw [List.flatMap_nil, List.append_nil]
      exact traced
  | cons operation rest ih =>
      rw [List.flatMap_cons, ← List.append_assoc] at distinct ⊢
      have soFar : ((items ++ operation.given).map Item.id).Nodup := by
        rw [List.map_append] at distinct
        exact (List.nodup_append.1 distinct).1
      exact ih (traced.perform operation soFar) distinct

/-- A session holds each of its items beside the version that was given. -/
theorem find?_pulled (traced : flow.Traced known items) (distinct : (items.map Item.id).Nodup)
    {item : Item} (given : item ∈ items) {number : SessionId}
    (held : item.id ∈ (flow.session number).ids) :
    (flow.session number).pulled.find? item.id = some item := by
  have coherent := traced.accounted.coherent.sessions number
  obtain ⟨_, pulled, _, found, _⟩ := coherent.both held
  have same : pulled = item :=
    List.inj_on_of_nodup_map distinct (traced.upstream.pulled number _ _ found) given
      (coherent.own _ _ found)
  rw [found, same]

end Traced

/-- A rollback of the session puts the items it holds before those that wait and leaves
the sinks alone, and one item comes back in this version, once. -/
def Restores (flow : Flow) (number : SessionId) (item : Item) : Prop :=
  ∃ reached back, rollBack number flow = (.ok (), reached) ∧
    reached.source = back ++ flow.source ∧ reached.sinks = flow.sinks ∧
    back.map Item.id = (flow.session number).ids ∧
    back.filter (·.id = item.id) = [item]

theorem filter_id_eq_singleton {item : Item} (distinct : (items.map Item.id).Nodup)
    (member : item ∈ items) : items.filter (·.id = item.id) = [item] := by
  obtain ⟨before, after, rfl⟩ := List.append_of_mem member
  have apart := distinct
  rw [List.map_append, List.map_cons, List.nodup_middle, List.nodup_cons, List.mem_append] at apart
  have absent {others : List Item} (missing : item.id ∉ others.map Item.id) :
      others.filter (·.id = item.id) = [] := by
    rw [List.filter_eq_nil_iff]
    intro other among same
    exact missing (List.mem_map.2 ⟨other, among, of_decide_eq_true same⟩)
  rw [List.filter_append, List.filter_cons_of_pos (by simp),
    absent fun among => apart.1 (.inl among), absent fun among => apart.1 (.inr among),
    List.nil_append]

theorem Traced.restores (traced : flow.Traced known items)
    (distinct : (items.map Item.id).Nodup) {item : Item} (given : item ∈ items)
    {number : SessionId} (held : item.id ∈ (flow.session number).ids) :
    flow.Restores number item := by
  have ids := (traced.accounted.coherent.sessions number).ids_returned
  have back : item ∈ (flow.session number).pulled.values :=
    Table.mem_values_iff.2 ⟨_, traced.find?_pulled distinct given held⟩
  refine ⟨flow.returned number, _, rollBack_eq number flow, rfl, rfl, ids, ?_⟩
  exact filter_id_eq_singleton (ids ▸ (flow.session number).nodup_ids) back

/-- The same items wait, and the sinks received the same. -/
structure SameEnds (before after : Flow) : Prop where
  source : after.source = before.source
  sinks : after.sinks = before.sinks

namespace SameEnds

theorem refl (flow : Flow) : flow.SameEnds flow :=
  ⟨rfl, rfl⟩

theorem trans {first second third : Flow} (sameFirst : first.SameEnds second)
    (sameSecond : second.SameEnds third) : first.SameEnds third where
  source := sameSecond.source.trans sameFirst.source
  sinks := sameSecond.sinks.trans sameFirst.sinks

theorem of_adorned {before after : Flow} (adorned : before.Adorned after) :
    before.SameEnds after :=
  ⟨adorned.source, adorned.sinks⟩

end SameEnds

theorem routeValue_adorns {start : Flow} (number : SessionId) (items : List Item)
    (relationship : Value) : (routeValue number items relationship).Keeps start.Adorned := by
  unfold routeValue
  split
  · exact route_adorns number items _
  all_goals exact Act.Keeps.fail _

namespace Operation

variable {operation : Operation} {history : List Operation} {holder : SessionId}

theorem given_of_handles (handles : operation.Handles) : operation.given = [] := by
  cases operation with
  | put => exact handles.elim
  | _ => rfl

theorem Spares.handles (spares : operation.Spares holder) : operation.Handles := by
  cases operation with
  | migrate => trivial
  | _ => exact spares

theorem Handles.sameEnds (handles : operation.Handles) (flow : Flow) :
    flow.SameEnds (operation.perform flow) := by
  cases operation with
  | openSession => exact ⟨rfl, rfl⟩
  | migrate source target items =>
      have keeps : (Flow.migrate source target items).Keeps flow.SameEnds :=
        @migrate_keeps flow.SameEnds source target (fun _ _ _ same _ _ => same.trans ⟨rfl, rfl⟩) items
      exact keeps.final (.refl flow)
  | route session items relationship =>
      exact .of_adorned ((routeValue_adorns session items relationship).final (.refl flow))
  | annotate session item attributes =>
      exact .of_adorned ((annotate_adorns session item attributes).final (.refl flow))
  | put | pull | commit | rollBack => exact handles.elim

theorem Spares.pulled (spares : operation.Spares holder) (flow : Flow) :
    ((operation.perform flow).session holder).pulled = (flow.session holder).pulled := by
  cases operation with
  | openSession => exact congrArg Session.pulled (session_push flow holder)
  | migrate source target items =>
      have keeps : (Flow.migrate source target items).Keeps fun reached =>
          (reached.session holder).pulled = (flow.session holder).pulled :=
        migrate_keeps (fun reached id current same _ _ => by
          rw [session_handed_of_ne spares.1.symm spares.2.symm]
          exact same) items
      exact keeps.final rfl
  | route session items relationship =>
      exact ((routeValue_adorns session items relationship).final (.refl flow)).pulled holder
  | annotate session item attributes =>
      exact ((annotate_adorns session item attributes).final (.refl flow)).pulled holder
  | put | pull | commit | rollBack => exact spares.elim

theorem run_sameEnds (handles : ∀ operation ∈ history, operation.Handles) (flow : Flow) :
    flow.SameEnds (run flow history) := by
  induction history generalizing flow with
  | nil => exact .refl flow
  | cons operation rest ih =>
      rw [List.forall_mem_cons] at handles
      exact (handles.1.sameEnds flow).trans (ih handles.2 _)

theorem run_pulled (spares : ∀ operation ∈ history, operation.Spares holder) (flow : Flow) :
    ((run flow history).session holder).pulled = (flow.session holder).pulled := by
  induction history generalizing flow with
  | nil => rfl
  | cons operation rest ih =>
      rw [List.forall_mem_cons] at spares
      exact (ih spares.2 _).trans (spares.1.pulled flow)

end Operation

/-- While items are only handled, what a session held is held by one session. -/
theorem Traced.held_once {before after : Flow} (traced : before.Traced known items)
    (reached : after.Traced known items) (distinct : (items.map Item.id).Nodup)
    (same : before.SameEnds after) {item : Item} (given : item ∈ items) {holder : SessionId}
    (held : item.id ∈ (before.session holder).ids) :
    ∃! number, item.id ∈ (after.session number).ids := by
  have elsewhere {spot : Spot} (apart : spot ≠ .session holder) : item.id ∉ before.idsAt spot :=
    traced.accounted.not_mem_idsAt distinct apart held
  have once : after.account item.id = 1 := by
    rw [reached.accounted.accounts]
    exact List.count_eq_one_of_mem distinct (List.mem_map_of_mem given)
  obtain ⟨spot, only⟩ := exists_spot_of_account once
  have here : item.id ∈ after.idsAt spot := by
    rw [← List.count_pos_iff, only, if_pos rfl]
    exact Nat.one_pos
  cases spot with
  | source =>
      have waits : item.id ∈ before.idsAt .source := by
        unfold idsAt at here ⊢
        exact same.source ▸ here
      exact absurd waits (elsewhere nofun)
  | sink relationship =>
      have received : item.id ∈ before.idsAt (.sink relationship) := by
        unfold idsAt at here ⊢
        exact same.sinks ▸ here
      exact absurd received (elsewhere nofun)
  | session number =>
      refine ⟨number, here, fun other also => ?_⟩
      have counted := only (.session other)
      rw [count_idsAt_session, Session.count_ids_of_mem also] at counted
      by_contra differs
      rw [if_neg fun equal => differs (Spot.session.inj equal)] at counted
      exact absurd counted Nat.one_ne_zero

namespace Pulled

variable {before after : Flow} {holder : SessionId} {chunk : List Item}

theorem given (pulled : before.Pulled holder chunk after) (traced : before.Traced known items) :
    ∀ item ∈ chunk, item ∈ items := fun item member =>
  traced.upstream.waiting item (pulled.source ▸ List.mem_append_left _ member)

/-- A session that held nothing holds the chunk it pulled, in the versions pulled. -/
theorem values (pulled : before.Pulled holder chunk after) (coherent : before.Coherent known)
    (empty : (before.session holder).ids = []) :
    (after.session holder).pulled.values = chunk := by
  have nothing : (before.session holder).pulled.entries = [] := by
    have keys := (coherent.sessions holder).keys
    rw [empty] at keys
    exact List.map_eq_nil_iff.1 keys
  unfold Table.values
  rw [(pulled.entries coherent).2, nothing, List.nil_append, List.map_map]
  exact List.map_id chunk

end Pulled

/-- Whatever happened to items since they were pulled from a source whose ids are distinct,
the session that holds one of them returns the version that was pulled.  As long as items
are only handled, one session holds it.  And when a session that held nothing pulled them,
and none was handed over from it or to it, its rollback undoes the pull. -/
theorem original_versions_restored {source : List Item} {relationships : List String}
    {earlier later : List Operation} {holder : SessionId} {count : Value} {chunk : List Item}
    {taken : Flow}
    (distinct : ((source ++ (earlier ++ later).flatMap Operation.given).map Item.id).Nodup)
    (pulls : pullValue holder count
      (Operation.run { source, sinks := sinksFor relationships } earlier) = (.ok chunk, taken)) :
    let before := Operation.run { source, sinks := sinksFor relationships } earlier
    let after := Operation.run taken later
    (∀ item ∈ chunk, ∀ number, item.id ∈ (after.session number).ids →
      after.Restores number item) ∧
    ((∀ operation ∈ later, operation.Handles) →
      ∀ item ∈ chunk, ∃! number, item.id ∈ (after.session number).ids) ∧
    ((∀ operation ∈ later, operation.Spares holder) → (before.session holder).ids = [] →
      ∃ reached, rollBack holder after = (.ok (), reached) ∧
        reached.source = before.source ∧ reached.sinks = before.sinks) := by
  intro before after
  rw [List.flatMap_append, ← List.append_assoc] at distinct
  have distinctBefore := distinct
  rw [List.map_append] at distinctBefore
  replace distinctBefore := (List.nodup_append.1 distinctBefore).1
  have pulled : before.Pulled holder chunk taken := pulled_of_pullValue pulls
  have traced : before.Traced _ _ := (Traced.start source relationships).run distinctBefore
  have tracedTaken := traced.pull distinctBefore pulls
  have tracedAfter : after.Traced _ _ := tracedTaken.run distinct
  have given := pulled.given traced
  refine ⟨?versions, ?once, ?undone⟩
  case versions =>
    intro item member number held
    exact tracedAfter.restores distinct (List.mem_append_left _ (given item member)) held
  case once =>
    intro handles item member
    have nothing : later.flatMap Operation.given = [] :=
      List.flatMap_eq_nil_iff.2 fun operation among =>
        Operation.given_of_handles (handles operation among)
    rw [nothing, List.append_nil] at tracedAfter
    exact tracedTaken.held_once tracedAfter distinctBefore
      (Operation.run_sameEnds handles taken) (given item member) (pulled.held member)
  case undone =>
    intro spares empty
    have same := Operation.run_sameEnds
      (fun operation among => (spares operation among).handles) taken
    refine ⟨after.returned holder, rollBack_eq holder after, ?_, same.sinks.trans pulled.sinks⟩
    change (after.session holder).pulled.values ++ after.source = before.source
    rw [Operation.run_pulled spares taken, same.source,
      pulled.values traced.accounted.coherent empty, ← pulled.source]

/-- An item that was annotated in two of the three sessions it went through comes back as
it was, although one call on the way failed.  Before it was handed over, a rollback would
have undone the pull. -/
theorem original_restored_from_last_session :
    let marked (text : String) : Item :=
      { id := "a", attributes := Table.ofList [("mark", .text text)] }
    let source : List Item := [marked "first", { id := "b" }]
    let earlier : List Operation := [.openSession, .openSession, .openSession]
    let edits : List Operation :=
      [.annotate 0 (marked "first") (marked "second").attributes,
        .route 0 [marked "second"] (.text "nowhere"), .route 0 [marked "second"] (.text "success")]
    let chain : List Operation :=
      [.migrate 0 1 [marked "second"],
        .annotate 1 (marked "second") (marked "third").attributes, .migrate 1 2 [marked "third"]]
    let before := Operation.run { source, sinks := sinksFor [] } earlier
    let taken := (pullValue 0 (.int 2) before).2
    let edited := Operation.run taken edits
    let after := Operation.run taken (edits ++ chain)
    pullValue 0 (.int 2) before = (.ok source, taken) ∧
      (after.session 2).items.map (fun item => (item.attributes.find? "mark").map Value.display) =
        [some "third"] ∧
      after.Restores 2 (marked "first") ∧ (∃! number, "a" ∈ (after.session number).ids) ∧
      ∃ reached, rollBack 0 edited = (.ok (), reached) ∧
        reached.source = source ∧ reached.sinks = before.sinks := by
  intro marked source earlier edits chain before taken edited after
  have pulls : pullValue 0 (.int 2) before = (.ok source, taken) := rfl
  have first : marked "first" ∈ source := List.mem_cons_self
  have spares : ∀ operation ∈ edits, operation.Spares 0 := by
    simp only [edits, List.forall_mem_cons]
    exact ⟨trivial, trivial, trivial, List.forall_mem_nil _⟩
  have handles : ∀ operation ∈ edits ++ chain, operation.Handles := by
    refine List.forall_mem_append.2 ⟨fun operation among => (spares operation among).handles, ?_⟩
    simp only [chain, List.forall_mem_cons]
    exact ⟨trivial, trivial, trivial, List.forall_mem_nil _⟩
  obtain ⟨_, _, undone⟩ :=
    @original_versions_restored source [] earlier edits 0 (.int 2) source taken (by decide) pulls
  obtain ⟨versions, once, _⟩ :=
    @original_versions_restored source [] earlier (edits ++ chain) 0 (.int 2) source taken
      (by decide) pulls
  have empty : (before.session 0).ids = [] := by decide +kernel
  exact ⟨pulls, by decide +kernel, versions _ first 2 (by decide +kernel),
    once handles _ first, undone spares empty⟩

end ItemBinning.Flow
