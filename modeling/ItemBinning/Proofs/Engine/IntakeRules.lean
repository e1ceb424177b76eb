import ItemBinning.Engine.Activation
import ItemBinning.Proofs.Shelf.Placement

/-!
# Rules for the intake

The intake alternates between states without a chunk and states in which a session
holds the items of one.  What each of its operations keeps in states of the second
kind, and how a chunk is taken up and given away again, is all that has to be known
to say what a whole intake keeps, whichever operation fails and however often the
schedule lets it go on.
-/

namespace ItemBinning.Engine

open Depot

/-- Queueing an item that found no place: it is offered to a bin of its own, which is
made ready and queued. -/
theorem queueUnbound_apply (group : Value) (session : SessionId) (item : Item)
    (depot : Depot) :
    queueUnbound group session item depot =
      (do
        let _ ← offerTo depot.bins.next item session
        markReady depot.bins.next .unbound
        enqueue [depot.bins.next] : Act Depot Unit)
        (depot.withBin Bounds.relaxed group) :=
  rfl

/-- Every operation of an intake leads from one kind of state to the right other:
`idle` states have no chunk, in `busy` ones a session holds the chunk, and every item
on its way to the shelf is `good`. -/
structure IntakeRules (engine : Engine) (idle : Depot → Prop)
    (busy : SessionId → Depot → Prop) (good : Item → Prop) : Prop where
  pulled : (pullChunk engine).Meets idle
    (fun chunk depot => (chunk.2 = [] → idle depot) ∧ busy chunk.1 depot ∧
      ∀ item ∈ chunk.2, good item)
    fun _ => idle
  preprocessed : ∀ session item, good item →
    (engine.hooks.preprocess item session).run.Meets (busy session)
      (fun version depot => busy session depot ∧ ∀ kept, version = some kept → good kept)
      fun _ => busy session
  keyed : ∀ session item, (engine.hooks.groupKey item).run.Keeps (busy session)
  routed : ∀ session item,
    (onFlow (Flow.route session [item] failureRelationship)).Keeps (busy session)
  counted : ∀ session change, (count change).Keeps (busy session)
  offered : ∀ session group items, (∀ item ∈ items, good item) →
    (Shelf.offer group items session).Keeps (busy session)
  queued : ∀ session group item, good item →
    (queueUnbound group session item).Keeps (busy session)
  committed : ∀ session, (onFlow (Flow.commit session)).Meets (busy session)
    (fun _ => idle) fun _ => busy session
  returned : ∀ session, (onFlow (Flow.rollBack session)).Meets (busy session)
    (fun _ => idle) fun _ => idle

theorem mem_values_addToGroup {groups : Groups} {group : Value} {key : Key} {item : Item}
    {entry : Value × List Item} (member : entry ∈ (addToGroup groups group key item).values) :
    entry ∈ groups.values ∨ ∃ items, entry.2 = items ++ [item] ∧
      ∀ other ∈ items, ∃ before ∈ groups.values, other ∈ before.2 := by
  obtain ⟨other, found⟩ := Table.mem_values_iff.1 member
  unfold addToGroup at found
  rw [Table.find?_put] at found
  split at found
  · cases found
    refine .inr ⟨_, rfl, fun other old => ?_⟩
    cases before : groups.find? key with
    | none => simp [before] at old
    | some entry =>
        rw [before, Option.getD_some] at old
        exact ⟨entry, Table.mem_values_iff.2 ⟨key, before⟩, old⟩
  · exact .inl (Table.mem_values_iff.2 ⟨other, found⟩)

namespace IntakeRules

variable {engine : Engine} {idle : Depot → Prop} {busy : SessionId → Depot → Prop}
  {good : Item → Prop}

/-- Every item that was sorted into a group is good. -/
def GoodGroups (good : Item → Prop) (groups : List (Value × List Item)) : Prop :=
  ∀ group ∈ groups, ∀ item ∈ group.2, good item

private theorem goodGroups_addToGroup {groups : Groups}
    (goodGroups : GoodGroups good groups.values) (group : Value) (key : Key)
    {item : Item} (isGood : good item) :
    GoodGroups good (addToGroup groups group key item).values := by
  intro entry member
  rcases mem_values_addToGroup member with old | ⟨items, grown, among⟩
  · exact goodGroups entry old
  · rw [grown]
    intro other inGroup
    rcases List.mem_append.1 inGroup with earlier | new
    · obtain ⟨before, isBefore, same⟩ := among other earlier
      exact goodGroups before isBefore other same
    · rw [List.mem_singleton.1 new]
      exact isGood

variable (rules : IntakeRules engine idle busy good)
include rules

theorem classify (session : SessionId) {item : Item} (isGood : good item) :
    (classify engine.hooks session item).Meets (busy session)
      (fun placed depot => busy session depot ∧ good placed.1) fun _ => busy session := by
  refine (rules.preprocessed session item isGood).bind fun version => ?_
  cases version with
  | none => exact Act.Meets.fail fun _ => And.left
  | some version =>
      apply Act.Meets.knowing
      intro known
      apply Act.Meets.bind (rules.keyed session version)
      intro group
      split
      · exact Act.Meets.pure fun _ holds => ⟨holds, known version rfl⟩
      · exact Act.Meets.fail fun _ => id

theorem groupItems (session : SessionId) (items : List Item) (groups : Groups)
    (goodItems : ∀ item ∈ items, good item) (goodGroups : GoodGroups good groups.values) :
    (groupItems engine.hooks session items groups).Meets (busy session)
      (fun groups depot => busy session depot ∧ GoodGroups good groups.values)
      fun _ => busy session := by
  induction items generalizing groups with
  | nil => exact Act.Meets.pure fun _ holds => ⟨holds, goodGroups⟩
  | cons item rest ih =>
      have goodRest : ∀ other ∈ rest, good other :=
        fun other member => goodItems other (List.mem_cons_of_mem _ member)
      refine (rules.classify session (goodItems item (by simp))).attempt.bind fun outcome => ?_
      rcases outcome with fault | ⟨version, group, key⟩
      · exact Act.Meets.bind (rules.routed session item) fun _ =>
          Act.Meets.bind (rules.counted session _) fun _ => ih groups goodRest goodGroups
      · exact Act.Meets.knowing fun isGood =>
          ih _ goodRest (goodGroups_addToGroup goodGroups group key isGood)

theorem offerGroups (session : SessionId) (groups : List (Value × List Item))
    (goodGroups : GoodGroups good groups) :
    (offerGroups session groups).Keeps (busy session) := by
  induction groups with
  | nil => exact Act.Keeps.pure 0
  | cons entry rest ih =>
      obtain ⟨group, items⟩ := entry
      have goodItems : ∀ item ∈ items, good item := goodGroups (group, items) (by simp)
      have offered := (rules.offered session group items goodItems).and
        ((Shelf.offer_unbound group items session).weaken (fun _ _ => trivial)
          (fun _ _ => id) fun _ _ => id)
      have offered := offered.weaken (fun _ => id) (fun _ _ => id) fun _ _ => And.left
      refine offered.bind fun unbound => Act.Meets.knowing fun within => ?_
      refine Act.Keeps.bind (Act.Keeps.forEach fun item member => ?_) fun _ => ?_
      · exact rules.queued session group item (goodItems item (within.subset member))
      · refine (rules.counted session _).bind fun _ => ?_
        refine (ih fun entry member => goodGroups entry (List.mem_cons_of_mem _ member)).bind
          fun _ => Act.Keeps.pure _

theorem binItems (session : SessionId) (items : List Item)
    (goodItems : ∀ item ∈ items, good item) :
    (binItems engine.hooks session items).Meets (busy session) (fun _ => idle)
      fun _ => busy session := by
  refine (rules.groupItems session items .empty goodItems nofun).bind fun groups => ?_
  apply Act.Meets.knowing
  intro goodGroups
  apply Act.Meets.bind (rules.offerGroups session groups.values goodGroups)
  intro _
  exact (rules.committed session).bind fun _ => Act.Meets.pure fun _ => id

/-- A chunk is binned or returned, so that none is left. -/
theorem binChunk (session : SessionId) (items : List Item)
    (goodItems : ∀ item ∈ items, good item) :
    (binChunk engine.hooks session items).Meets (busy session) (fun _ => idle)
      fun _ => idle := by
  refine (rules.binItems session items goodItems).attempt.bind fun outcome => ?_
  cases outcome with
  | ok binned => exact Act.Meets.pure fun _ => id
  | error fault => exact (rules.returned session).bind fun _ => Act.Meets.fail fun _ => id

/-- An intake keeps the states without a chunk, wherever it stops or fails. -/
theorem intake (answers : List Bool) : (intake engine answers).Keeps idle := by
  induction answers with
  | nil => exact Act.Keeps.pure _
  | cons scheduled rest ih =>
      apply Act.Keeps.bind (Act.Keeps.look _)
      intro room
      split
      · split
        · apply Act.Meets.bind rules.pulled
          intro chunk
          obtain ⟨session, items⟩ := chunk
          dsimp only
          split
          -- an empty chunk leaves its session empty, so that nothing is on its way
          · rename_i none
            exact Act.Meets.pure fun _ holds => holds.1 (List.isEmpty_iff.1 none)
          · have binned : (Engine.binChunk engine.hooks session items).Meets
                (fun depot => (items = [] → idle depot) ∧ busy session depot ∧
                  ∀ item ∈ items, good item) (fun _ => idle) fun _ => idle := by
              intro depot holds
              exact rules.binChunk session items holds.2.2 depot holds.2.1
            exact binned.bind fun _ => ih.bind fun _ => Act.Keeps.pure _
        · exact Act.Keeps.pure _
      · exact Act.Keeps.pure _

theorem takeIn (answers : List Bool) : (takeIn engine answers).Keeps idle := by
  apply Act.Keeps.bind (Act.Keeps.look _)
  intro capacity
  split
  · exact rules.intake answers
  · exact Act.Keeps.pure _

end IntakeRules

end ItemBinning.Engine
