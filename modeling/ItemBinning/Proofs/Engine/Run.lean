import ItemBinning.Proofs.Engine.DrainCustody
import ItemBinning.Proofs.Engine.IntakeCustody
import ItemBinning.Proofs.Engine.Migration

/-!
# Runs of an engine

From outside, an engine is activated or reset, items are put on its source, the clock
is moved, and its policy is changed.  However long a run of such events is, and
wherever activations stop or fail, the depot stays sound as long as the hooks make
permitted calls only.
-/

namespace ItemBinning

/-- The versions that the hooks answer for items of whole size have whole sizes. -/
def Hooks.KeepSizes (hooks : Hooks) : Prop :=
  ∀ item session depot version reached,
    depot.flow.Everywhere Item.HasWholeSize → item.HasWholeSize →
    (hooks.preprocess item session).run depot = (.ok (some version), reached) →
      version.HasWholeSize

/-- How hooks behave: they touch items by calls on sessions only, put only what may
be put, and give no item another kind of size.  The processor may move the bin that it
was handed to another state. -/
structure Hooks.Behave (mayPut : List Item → Prop) (hooks : Hooks) : Prop where
  preprocess : ∀ item session,
    (hooks.preprocess item session).Uses (Call.Permitted mayPut none)
  groupKey : ∀ item, (hooks.groupKey item).Uses (Call.Permitted mayPut none)
  process : ∀ bin, (hooks.process bin).Uses (Call.Permitted mayPut (some bin))
  versions : hooks.KeepSizes

namespace Depot

variable {property : Flow → Prop} {inUse : List SessionId} {gone : List BinId}
  {before after depot : Depot}

/-- The depot as if no bin was open or queued. -/
def emptied (depot : Depot) : Depot :=
  { depot with shelf := { depot.shelf with groups := .empty, binCount := 0 }, ready := [] }

theorem not_stored_emptied (bin : BinId) : ¬ depot.emptied.Stored bin := by
  rintro (⟨⟨⟩⟩ | ⟨⟨⟩⟩)

theorem Sound.emptied (sound : depot.Sound property inUse) :
    Sound property
      (((depot.shelf.bins ++ depot.ready).map fun bin => (depot.bin bin).session) ++ inUse)
      depot.emptied := by
  refine ⟨sound.flow, sound.whole,
    (sound.arranged.registered.arranged_emptied sound.arranged.thresholds).of_same rfl rfl
      (Nat.le_refl _),
    ⟨nofun, nofun, List.nodup_nil⟩, sound.weighed, ?_⟩
  intro session id held
  rcases sound.attended session id held with used | ⟨bin, stored, same⟩ | moved
  · exact .inl (List.mem_append_right _ used)
  · exact .inl (List.mem_append_left _ (List.mem_map.2 ⟨bin, List.mem_append.2 stored, same⟩))
  · exact .inr (.inr moved)

/-- Discarded bins that are stored nowhere leave empty sessions behind. -/
theorem Sound.discarded (carried : Flow.Carried property)
    (sound : before.Sound property
      ((gone.map fun bin => (before.bin bin).session) ++ inUse))
    (discarded : before.Discarded gone after) (apart : ∀ bin ∈ gone, ¬ before.Stored bin) :
    after.Sound property inUse := by
  have undisturbed := discarded.undisturbed apart
  have kept : after.Sound property
      ((gone.map fun bin => (before.bin bin).session) ++ inUse) := by
    refine sound.undisturbed undisturbed (discarded.carried carried sound.flow)
      (discarded.carried (Flow.carried_everywhere fun _ _ => id) sound.whole) ?_ ?_ ?_
    · rw [discarded.rest]
      exact sound.arranged.thresholds
    · intro bin
      by_cases isGone : bin ∈ gone
      · rw [discarded.rolledBack bin isGone]
        exact sound.weighed bin
      · rw [discarded.others bin isGone]
        exact sound.weighed bin
    · refine sound.attended.of_gains discarded.gains
        (fun session => (undisturbed.owned session).2) ?_ nofun
      rw [discarded.rest]
      exact List.Subset.refl _
  refine kept.releaseAll fun session used => .inl ?_
  obtain ⟨bin, isGone, rfl⟩ := List.mem_map.1 used
  exact discarded.emptied isGone

end Depot

namespace Engine

open Depot

variable {property : Flow → Prop} {engine : Engine} {mayPut : List Item → Prop}

/-- A reset rolls back the open bins and then the queued ones. -/
theorem reset_spec {depot : Depot} (arranged : depot.Arranged) (queued : depot.Queued) :
    ∃ reached, reset depot = (.ok (), reached) ∧
      depot.emptied.Discarded (depot.shelf.bins ++ depot.ready) reached := by
  obtain ⟨purged, discarded, run⟩ := Shelf.purge_spec arranged
  obtain ⟨cleared, isCleared⟩ : ∃ cleared, cleared = { purged with
    shelf := { purged.shelf with groups := .empty, binCount := 0 } } := ⟨_, rfl⟩
  rw [← isCleared] at run
  have shelf : purged.shelf = depot.shelf := by rw [discarded.rest]
  have ready : cleared.ready = depot.ready := by rw [isCleared, discarded.rest]
  have first : depot.emptied.Discarded depot.shelf.bins { cleared with ready := [] } := by
    rw [isCleared, shelf]
    exact discarded.setStored _ _
  have same (bin : BinId) (isQueued : bin ∈ depot.ready) : cleared.bin bin = depot.bin bin :=
    first.others bin (queued.not_mem_bins arranged isQueued)
  obtain ⟨reached, returns, returned⟩ := @discardAll_spec depot.ready { cleared with ready := [] }
    queued.distinct (fun bin isQueued => first.next.symm ▸ queued.isBin bin isQueued) (by
      intro bin isQueued
      change _ ∈ (cleared.bin bin).state.successors
      rw [same bin isQueued, queued.ready bin isQueued]
      simp [BinState.successors])
  have step : dequeueAll cleared = (.ok depot.ready, { cleared with ready := [] }) := by
    rw [← ready]
    rfl
  refine ⟨reached, ?_, first.trans returned⟩
  unfold reset
  rw [Act.bind_of_ok run, Act.bind_of_ok step, returns]

theorem reset_sound (carried : Flow.Carried property) :
    reset.Keeps (Sound property []) := by
  apply Act.Keeps.of_final
  intro depot sound
  obtain ⟨reached, run, discarded⟩ := reset_spec sound.arranged sound.queued
  rw [run]
  exact sound.emptied.discarded carried discarded fun bin _ => not_stored_emptied bin

theorem drain_sound (carried : Flow.Carried property) (putKeeps : PutKeeps property mayPut)
    (behave : engine.hooks.Behave mayPut) (activation : Activation) :
    (engine.drain activation).Keeps (Sound property []) := by
  have look : (Act.read (·.ready)).Meets (Sound property [])
      (fun queue depot => depot.Sound property [] ∧ depot.ready = queue)
      fun _ => Sound property [] :=
    Act.Meets.read fun _ sound => ⟨sound, rfl⟩
  exact look.bind fun queue =>
    drainBins_sound carried putKeeps behave.process queue activation

theorem activate_sound (carried : Flow.Carried property)
    (putKeeps : PutKeeps property mayPut) (behave : engine.hooks.Behave mayPut)
    (answers : List Bool) : (engine.activate answers).Keeps (Sound property []) := by
  have rules := intakeRules carried putKeeps behave.preprocess behave.groupKey
    behave.versions
  refine (rules.takeIn answers).bind fun taken => ?_
  dsimp only
  split
  · apply migrateBins_sound.bind
    intro _
    refine (drain_sound carried putKeeps behave _).bind fun activation => ?_
    unfold conclude
    split
    · exact (count_sound _).bind fun _ => Act.Keeps.pure _
    · exact Act.Keeps.pure _
  · exact Act.Keeps.pure _

/-- What happens to an engine from outside. -/
inductive Event
  | activate (answers : List Bool)
  | put (items : List Item)
  | advance (seconds : Float)
  | applyPolicy (policy : Policy)
  | set (setting : Setting)
  | reset

/-- The depot after an event, also if the engine failed. -/
def Event.perform (engine : Engine) (depot : Depot) : Event → Depot
  | .activate answers => (engine.activate answers).final depot
  | .put items => (onFlow (Flow.put items)).final depot
  | .advance seconds => (Depot.advance seconds).final depot
  | .applyPolicy policy => (Depot.applyPolicy policy).final depot
  | .set setting => (modifyThresholds setting.apply).final depot
  | .reset => Engine.reset.final depot

/-- The items that an event puts on the source. -/
def Event.items : Event → List Item
  | .put items => items
  | _ => []

/-- The depot after a run of events. -/
def run (engine : Engine) (depot : Depot) (events : List Event) : Depot :=
  events.foldl (Event.perform engine) depot

/-- A property of flows that depends on the items given so far. -/
structure Tracked (property : List Item → Flow → Prop) : Prop where
  carried : ∀ given, Flow.Carried (property given)
  put : ∀ given items flow, property given flow →
    property (given ++ items) { flow with source := flow.source ++ items }

variable {tracked : List Item → Flow → Prop} {given : List Item} {depot : Depot}

theorem Event.perform_sound (isTracked : Tracked tracked)
    (putKeeps : ∀ given, PutKeeps (tracked given) mayPut)
    (behave : engine.hooks.Behave mayPut) (event : Event)
    (whole : ∀ item ∈ event.items, item.HasWholeSize)
    (sound : depot.Sound (tracked given) []) :
    (event.perform engine depot).Sound (tracked (given ++ event.items)) [] := by
  have carried := isTracked.carried given
  have rests : ∀ policy : Thresholds, policy.Whole → Sound (tracked given) []
      { depot with shelf := { depot.shelf with thresholds := policy } } := by
    intro policy isWhole
    have undisturbed : depot.Undisturbed
        { depot with shelf := { depot.shelf with thresholds := policy } } :=
      .of_same rfl rfl rfl rfl (Nat.le_refl _)
    exact sound.undisturbed undisturbed sound.flow sound.whole isWhole sound.weighed
      sound.attended
  have nothing : ∀ {after : Depot}, after.Sound (tracked given) [] →
      after.Sound (tracked (given ++ [])) [] := by
    rw [List.append_nil]
    exact id
  cases event with
  | put items =>
      refine ⟨isTracked.put given items depot.flow sound.flow,
        Flow.everywhere_put sound.whole whole,
        sound.arranged.of_same rfl rfl (Nat.le_refl _),
        ⟨sound.queued.isBin, sound.queued.ready, sound.queued.distinct⟩, sound.weighed,
        sound.attended⟩
  | activate answers =>
      exact nothing ((activate_sound carried (putKeeps given) behave answers).final sound)
  | reset => exact nothing ((reset_sound carried).final sound)
  | advance seconds => exact nothing (sound.of_same rfl rfl rfl rfl rfl)
  | applyPolicy policy => exact nothing (rests policy.thresholds policy.whole_thresholds)
  | set setting => exact nothing (rests _ (setting.whole_apply sound.arranged.thresholds))

theorem run_sound (isTracked : Tracked tracked)
    (putKeeps : ∀ given, PutKeeps (tracked given) mayPut)
    (behave : engine.hooks.Behave mayPut) (events : List Event)
    (whole : ∀ item ∈ events.flatMap Event.items, item.HasWholeSize)
    (sound : depot.Sound (tracked given) []) :
    (run engine depot events).Sound (tracked (given ++ events.flatMap Event.items)) [] := by
  induction events generalizing depot given with
  | nil =>
      rw [List.flatMap_nil, List.append_nil]
      exact sound
  | cons event rest ih =>
      rw [List.flatMap_cons] at whole ⊢
      rw [← List.append_assoc]
      refine @ih _ (event.perform engine depot)
        (fun item later => whole item (List.mem_append_right _ later)) ?_
      exact event.perform_sound isTracked putKeeps behave
        (fun item now => whole item (List.mem_append_left _ now)) sound

theorem sound_opening {flow : Flow} (clock : Moment) (policy : Policy)
    (holds : property flow) (whole : flow.Everywhere Item.HasWholeSize)
    (empty : ∀ session, (flow.session session).ids = []) :
    (opening flow clock policy).Sound property [] where
  flow := holds
  whole := whole
  arranged := arranged_opening flow clock policy
  queued := ⟨nofun, nofun, List.nodup_nil⟩
  weighed _ := ⟨0, rfl⟩
  attended session id held := by
    rw [show (opening flow clock policy).flow.session session = flow.session session from rfl,
      empty session] at held
    cases held

/-- Bins of two items fail, other bins are rolled back by their processor. -/
def mixed : Engine where
  hooks :=
    { groupKey := fun _ => .done .null
      process := fun bin => .look fun depot =>
        if (depot.bin bin).entryCount = 2 then .fail .recoverable
        else .call (.rollBack (depot.bin bin).session) fun _ => .fail .hookFailure }

theorem behave_mixed (mayPut : List Item → Prop) : mixed.hooks.Behave mayPut where
  preprocess _ _ := trivial
  groupKey _ := trivial
  process bin depot := by
    dsimp only
    split
    · trivial
    · exact ⟨trivial, fun _ => trivial⟩
  versions := by
    rintro item session depot version reached _ whole ⟨⟩
    exact whole

end Engine

end ItemBinning
