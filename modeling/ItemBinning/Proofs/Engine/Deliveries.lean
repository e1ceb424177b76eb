import ItemBinning.Proofs.Engine.Quiescence
import ItemBinning.Proofs.Engine.Shipment
import ItemBinning.Proofs.Engine.Versions
import ItemBinning.Proofs.Flow.Representation

/-!
# Which version is delivered

Over a whole run, what a bin delivers is the version that its session holds, with the
attributes that the processor answered for the bin put over it.  A hook that puts attributes
on the item in its session has that version in the bin as well.  A hook that answers a copy
has not: the copy is what is grouped and binned, and the item is delivered as it was pulled.
-/

namespace ItemBinning

open Depot

theorem Depot.Received.of_delivered {depot : Depot} {expected : String → Item → Prop}
    (received : depot.Received expected) {relationship : String} {item : Item}
    (member : item ∈ depot.delivered relationship) : expected relationship item := by
  unfold Depot.delivered at member
  cases found : depot.flow.sinks.find? relationship with
  | none =>
      rw [found] at member
      cases member
  | some items =>
      rw [found] at member
      exact received relationship items found item member

/-- A bin that is handed to the processor, and the depot in which that is done. -/
structure Handing where
  bin : BinId
  depot : Depot

namespace Handing

/-- What the processor answers. -/
def answer (hooks : Hooks) (handing : Handing) : Except Fault (Option Outcome) :=
  ((hooks.process handing.bin).run handing.depot).1

/-- A version is among the contents of the bin, and the session of the bin holds a current
one of the same item. -/
def Holds (handing : Handing) (version current : Item) : Prop :=
  version ∈ (handing.depot.bin handing.bin).contents ∧
    (handing.depot.binSession handing.bin).current.find? version.id = some current

/-- The relationship receives the item from the bin, as an item of which the hooks gave a
version. -/
def Delivers (hooks : Hooks) (originals : Item → Prop) (handing : Handing)
    (relationship : String) (item : Item) : Prop :=
  ∃ version current, handing.Holds version current ∧ hooks.Pairs originals version current ∧
    item ∈ (Verdict.of (handing.answer hooks)).sends relationship [current]

namespace Delivers

variable {hooks : Hooks} {originals : Item → Prop} {handing : Handing} {item : Item}

theorem of_success (delivers : handing.Delivers hooks originals successRelationship item) :
    ∃ outcome version current, handing.answer hooks = .ok (some outcome) ∧
      handing.Holds version current ∧ hooks.Pairs originals version current ∧
      item = current.withAttributes outcome.attributes := by
  obtain ⟨version, current, holds, pair, sent⟩ := delivers
  rcases answer : handing.answer hooks with fault | _ | outcome <;> rw [answer] at sent
  · cases fault <;> cases sent
  · cases sent
  · exact ⟨outcome, version, current, rfl, holds, pair, List.mem_singleton.1 sent⟩

theorem of_failure (delivers : handing.Delivers hooks originals failureRelationship item) :
    ∃ version, handing.answer hooks = .error .recoverable ∧ handing.Holds version item ∧
      hooks.Pairs originals version item := by
  obtain ⟨version, current, holds, pair, sent⟩ := delivers
  rcases answer : handing.answer hooks with fault | _ | outcome <;> rw [answer] at sent
  · cases fault with
    | recoverable =>
        obtain rfl := List.mem_singleton.1 sent
        exact ⟨version, rfl, holds, pair⟩
    | _ => cases sent
  · cases sent
  · cases sent

end Delivers

end Handing

namespace Engine

variable {hooks : Hooks} {originals : Item → Prop} {expected : String → Item → Prop}
  {bin : BinId} {start depot : Depot} {property : Flow → Prop}

/-- The bin as it is handed over when it was taken off the queue. -/
def handedOver (bin : BinId) (depot : Depot) : Handing :=
  { bin, depot := { depot with handled := depot.handled ++ [bin] } }

/-- The processor concerns no items, so its answer decides what the bin sends. -/
theorem handle_ships (process : (hooks.process bin).Uses Call.Aside)
    (within : (start.binSession bin).ids ⊆ (start.bin bin).contents.map Item.id)
    (activation : Activation) :
    start.Ships bin (.of ((handedOver bin start).answer hooks))
      ((handle hooks bin activation).final start) := by
  obtain ⟨answered, run⟩ : ∃ answered, (hooks.process bin).run (handedOver bin start).depot =
      ((handedOver bin start).answer hooks, answered) := ⟨_, rfl⟩
  have stands := process.stands (handedOver bin start).depot
  rw [run] at stands
  dsimp only at stands
  have quiet : start.Quiet bin answered := by
    rw [stands]
    exact .of_sinks (fun _ => ⟨rfl, rfl⟩) rfl rfl (fun _ _ => rfl) rfl
  have session : answered.binSession bin = start.binSession bin := by
    rw [stands]
    rfl
  have settles := settle_ships (by rw [session, (quiet.bins bin).1]; exact within)
    ((handedOver bin start).answer hooks) activation
  have ships := settles.final rfl
  unfold Ships at ships ⊢
  rw [session] at ships
  have handles : (handle hooks bin activation).final start =
      (settle bin ((handedOver bin start).answer hooks) activation).final answered := by
    have noted : noteHandled bin start = (.ok (), (handedOver bin start).depot) := rfl
    unfold Act.final handle
    rw [Act.bind_of_ok noted, Act.bind_of_ok (Act.attempt_eq run)]
  rw [handles]
  exact ships.imp quiet.trans quiet.trans

/-- The bins that are handed to the processor while a queue is drained. -/
def drainHandings (hooks : Hooks) : List BinId → Activation → Depot → List Handing
  | [], _, _ => []
  | bin :: rest, activation, depot =>
      handedOver bin { depot with ready := rest } ::
        match handle hooks bin activation { depot with ready := rest } with
        | (.ok noted, reached) => drainHandings hooks rest noted reached
        | (.error _, _) => []

/-- The bins that are handed to the processor in an activation, after its intake. -/
def laterHandings (engine : Engine) (itemsBinned : Nat) (depot : Depot) : List Handing :=
  match migrateBins depot with
  | (.ok binsMigrated, migrated) =>
      drainHandings engine.hooks migrated.ready { itemsBinned, binsMigrated } migrated
  | (.error _, _) => []

/-- The bins that are handed to the processor in an activation. -/
def handings (engine : Engine) (answers : List Bool) (depot : Depot) : List Handing :=
  match takeIn engine answers depot with
  | (.ok (itemsBinned, unused), taken) =>
      if unused.headD false then engine.laterHandings itemsBinned taken else []
  | (.error _, _) => []

/-- The bins that are handed to the processor when an event is performed. -/
def Event.handings (engine : Engine) (depot : Depot) : Event → List Handing
  | .activate answers => engine.handings answers depot
  | _ => []

/-- The bins that are handed to the processor in a run. -/
def runHandings (engine : Engine) : Depot → List Event → List Handing
  | _, [] => []
  | depot, event :: rest =>
      event.handings engine depot ++ engine.runHandings (event.perform engine depot) rest

/-- Everything that bins may deliver when they are handed over is expected. -/
def Covers (hooks : Hooks) (originals : Item → Prop) (expected : String → Item → Prop)
    (handings : List Handing) : Prop :=
  ∀ handing ∈ handings, ∀ relationship item,
    handing.Delivers hooks originals relationship item → expected relationship item

section Drain

variable {session : SessionId} {rest : List BinId}

/-- A bin that holds versions in pairs delivers what is expected of it. -/
theorem handle_consigns (process : (hooks.process bin).Uses Call.Aside)
    (inHand : start.InHand property [session] bin session rest)
    (paired : start.Paired (hooks.Pairs originals) bin)
    (consigned : Consigned hooks originals expected start)
    (expects : ∀ relationship item,
      (handedOver bin start).Delivers hooks originals relationship item →
        expected relationship item)
    (activation : Activation) :
    Consigned hooks originals expected ((handle hooks bin activation).final start) := by
  have within : (start.binSession bin).ids ⊆ (start.bin bin).contents.map Item.id := by
    intro id held
    obtain ⟨current, found⟩ := Session.mem_ids_iff.1 held
    obtain ⟨version, member, own, _⟩ := paired id current found
    exact own ▸ List.mem_map_of_mem member
  obtain ⟨sent, shipped, chosen⟩ := (handle_ships process within activation).exists_sent
  refine ⟨shipped.matched inHand consigned.matched, shipped.received consigned.received ?_⟩
  intro relationship item member
  obtain ⟨current, isCurrent, isSent⟩ := Verdict.mem_sends (chosen relationship member)
  obtain ⟨id, found⟩ := Table.mem_values_iff.1 isCurrent
  obtain ⟨version, among, rfl, pair⟩ := paired id current found
  exact expects relationship item ⟨version, current, ⟨among, found⟩, pair, isSent⟩

variable (carried : Flow.Carried property) (prepare : hooks.Prepare)
include carried prepare

/-- So does each bin of a queue, one after the other. -/
theorem drainBins_consigns (queue : List BinId) (activation : Activation)
    (sound : depot.Sound property []) (isQueue : depot.ready = queue)
    (consigned : Consigned hooks originals expected depot)
    (expects : Covers hooks originals expected (drainHandings hooks queue activation depot)) :
    Consigned hooks originals expected ((drainBins hooks queue activation).final depot) := by
  induction queue generalizing activation depot with
  | nil => exact consigned
  | cons bin rest ih =>
      have isStored : depot.Stored bin := .inr (isQueue ▸ List.mem_cons_self)
      obtain ⟨taken, isTaken⟩ : ∃ taken, taken = { depot with ready := rest } := ⟨_, rfl⟩
      have takes : (Act.modify fun depot : Depot => { depot with ready := rest }) depot =
          (.ok (), taken) := by
        rw [isTaken]
        rfl
      have inHand := sound.take isQueue
      have unaltered : depot.Unaltered taken := by
        rw [isTaken]
        exact (dequeued_intact isQueue).unaltered sound fun _ _ => rfl
      unfold drainHandings at expects
      rw [← isTaken] at inHand expects
      unfold Covers at expects
      rw [List.forall_mem_cons] at expects
      have handles := handle_consigns (prepare.process bin) inHand (by
        rw [isTaken]
        exact consigned.matched bin isStored)
        (consigned.unaltered unaltered (by rw [isTaken])) expects.1 activation
      have done := (drainRules carried (putKeeps_nothing _) (prepare.behave.process bin)
        (depot.bin bin).session rest).handle activation
      unfold Act.final at ih handles ⊢
      unfold drainBins
      rw [Act.bind_of_ok takes]
      rcases run : handle hooks bin activation taken with ⟨fault | noted, reached⟩
      · rw [Act.bind_of_error run]
        rw [run] at handles
        exact handles
      · rw [Act.bind_of_ok run]
        rw [run] at handles expects
        have left := (done.of_ok inHand run).1
        exact ih noted left.sound left.queue handles expects.2

end Drain

/-- A bin that is discarded sends nothing and leaves no version behind. -/
theorem discard_consigns (bin : BinId) :
    (discard bin).Keeps (Consigned hooks originals expected) := by
  apply Act.Keeps.of_final
  intro depot consigned
  have quiet := discard_quiet bin depot
  refine ⟨fun other stored id current found => ?_,
    quiet.received consigned.received fun _ _ => nofun⟩
  rw [(quiet.bins other).1]
  unfold binSession at found
  rw [(quiet.bins other).2] at found
  by_cases same : (depot.bin other).session = (depot.bin bin).session
  · have held := Session.mem_ids_iff.2 ⟨current, found⟩
    rw [same, flow_discard, Flow.ids_returned] at held
    cases held
  · rw [quiet.sessions _ same] at found
    refine consigned.matched other ?_ id current found
    unfold Stored at stored ⊢
    rwa [quiet.shelf, quiet.ready] at stored

theorem reset_consigns : reset.Keeps (Consigned hooks originals expected) := by
  have discards (bins : List BinId) :
      (Act.forEach bins discard).Keeps (Consigned hooks originals expected) :=
    Act.Keeps.forEach fun bin _ => discard_consigns bin
  have purges : Shelf.purge.Keeps (Consigned hooks originals expected) := by
    refine (Act.Keeps.read _).bind fun bins => (discards bins).bind fun _ => ?_
    refine Act.Keeps.bind (Act.Keeps.of_final fun depot consigned => ?_) fun _ => Act.Keeps.pure _
    refine ⟨fun bin stored => consigned.matched bin ?_, consigned.received⟩
    exact stored.imp_left nofun
  refine purges.bind fun _ => Act.Keeps.bind (Act.Keeps.of_final ?_) discards
  intro depot consigned
  exact ⟨fun bin stored => consigned.matched bin (stored.imp_right nofun), consigned.received⟩

theorem migrateBins_consigns (sound : depot.Sound property [])
    (consigned : Consigned hooks originals expected depot) :
    Consigned hooks originals expected (migrateBins.final depot) := by
  have intact := migrateBins_intact sound.arranged
  obtain ⟨left, between, counters, run, departed, _⟩ := migrateBins_spec sound.arranged
  unfold Act.final
  rw [run] at intact ⊢
  have flow : (between.moved left counters).flow = depot.flow := departed.flow
  exact consigned.unaltered (intact.unaltered sound fun _ _ => by rw [flow]) (by rw [flow])

theorem afterIntake_consigns {engine : Engine} (carried : Flow.Carried property)
    (prepare : engine.hooks.Prepare) {itemsBinned : Nat} (sound : depot.Sound property [])
    (consigned : Consigned engine.hooks originals expected depot)
    (expects : Covers engine.hooks originals expected
      (engine.laterHandings itemsBinned depot)) :
    Consigned engine.hooks originals expected
      ((engine.afterIntake itemsBinned).final depot) := by
  have migrates : migrateBins.Keeps (Sound property []) := migrateBins_sound
  have migrated := migrateBins_consigns sound consigned
  unfold laterHandings at expects
  unfold Act.final afterIntake at *
  rcases run : migrateBins depot with ⟨fault | binsMigrated, reached⟩ <;>
    rw [run] at migrated expects
  · rw [Act.bind_of_error run]
    exact migrated
  · rw [Act.bind_of_ok run]
    have drained := drainBins_consigns carried prepare reached.ready
      { itemsBinned, binsMigrated } (migrates.of_ok sound run) rfl migrated expects
    have drains : engine.drain { itemsBinned, binsMigrated } reached =
        drainBins engine.hooks reached.ready { itemsBinned, binsMigrated } reached := rfl
    unfold Act.final at drained
    rw [← drains] at drained
    rcases last : engine.drain { itemsBinned, binsMigrated } reached with
      ⟨fault | noted, finished⟩ <;> rw [last] at drained
    · rw [Act.bind_of_error last]
      exact drained
    · rw [Act.bind_of_ok last]
      obtain ⟨counters, concluded⟩ := conclude_eq noted finished
      rw [concluded]
      exact ⟨drained.matched, drained.received⟩

section Run

variable {known : List String} {engine : Engine}
  (cohering : Flow.Cohering known property) (prepare : engine.hooks.Prepare)
  (upstream : ∀ flow, property flow → flow.Upstream originals)
  (excluded : ∀ original item, originals original → Excludes engine.hooks original →
    item.Resembles original → expected failureRelationship item)

include cohering prepare upstream excluded

theorem activate_consigns {answers : List Bool} (sound : depot.Sound property [])
    (consigned : Consigned engine.hooks originals expected depot)
    (expects : Covers engine.hooks originals expected (engine.handings answers depot)) :
    Consigned engine.hooks originals expected ((engine.activate answers).final depot) := by
  have takes := takeIn_consigns cohering prepare upstream excluded answers
  unfold handings at expects
  unfold Act.final
  rw [activate_eq]
  rcases taken : takeIn engine answers depot with ⟨fault | ⟨itemsBinned, unused⟩, between⟩
  · rw [Act.bind_of_error taken]
    exact (takes.of_error ⟨sound, consigned⟩ taken).2
  · obtain ⟨sound, consigned⟩ := takes.of_ok ⟨sound, consigned⟩ taken
    rw [taken] at expects
    rw [Act.bind_of_ok taken]
    dsimp only at expects ⊢
    split
    · rename_i scheduled
      rw [if_pos scheduled] at expects
      exact afterIntake_consigns cohering.carried prepare sound consigned expects
    · exact consigned

theorem Event.perform_consigns (event : Event) (sound : depot.Sound property [])
    (consigned : Consigned engine.hooks originals expected depot)
    (expects : Covers engine.hooks originals expected (event.handings engine depot)) :
    Consigned engine.hooks originals expected (event.perform engine depot) := by
  cases event with
  | activate answers =>
      exact activate_consigns cohering prepare upstream excluded sound consigned expects
  | reset => exact reset_consigns.final consigned
  -- the other events touch neither bins nor sessions nor sinks
  | put | advance | applyPolicy | set => exact ⟨consigned.matched, consigned.received⟩

end Run

/-- What was pulled is among the items given so far. -/
theorem tracked_upstream (known : List String) :
    Tracked fun given flow => flow.Coherent known ∧ flow.Upstream (· ∈ given) where
  carried _ := Flow.carried_upstream known _
  put given items flow holds := by
    refine ⟨⟨holds.1.sinks, holds.1.sessions⟩, ⟨?_, fun number id item found => ?_⟩⟩
    · refine List.forall_mem_append.2 ⟨fun item waits => ?_, fun item => ?_⟩
      · exact List.mem_append_left _ (holds.2.waiting item waits)
      · exact List.mem_append_right _
    · exact List.mem_append_left _ (holds.2.pulled number id item found)

/-- What a relationship may receive in a run: what bins deliver that are handed over, and
items that the hooks excluded. -/
def MayReceive (hooks : Hooks) (originals : Item → Prop) (handings : List Handing)
    (relationship : String) (item : Item) : Prop :=
  (∃ handing ∈ handings, handing.Delivers hooks originals relationship item) ∨
    relationship = failureRelationship ∧
      ∃ original, originals original ∧ Excludes hooks original ∧ item.Resembles original

theorem run_consigns {known : List String} {engine : Engine} (prepare : engine.hooks.Prepare)
    {given : List Item} (events : List Event)
    (isOriginal : ∀ item ∈ given ++ events.flatMap Event.items, originals item)
    (whole : ∀ item ∈ events.flatMap Event.items, item.HasWholeSize)
    (excluded : ∀ original item, originals original → Excludes engine.hooks original →
      item.Resembles original → expected failureRelationship item)
    (sound : depot.Sound (fun flow => flow.Coherent known ∧ flow.Upstream (· ∈ given)) [])
    (consigned : Consigned engine.hooks originals expected depot)
    (expects : Covers engine.hooks originals expected (engine.runHandings depot events)) :
    Consigned engine.hooks originals expected (run engine depot events) := by
  induction events generalizing depot given with
  | nil => exact consigned
  | cons event rest ih =>
      rw [List.flatMap_cons] at whole isOriginal
      rw [← List.append_assoc] at isOriginal
      unfold Covers runHandings at expects
      rw [List.forall_mem_append] at expects
      have isGiven (item : Item) (member : item ∈ given) : originals item :=
        isOriginal item (List.mem_append_left _ (List.mem_append_left _ member))
      have cohering : Flow.Cohering known fun flow =>
          flow.Coherent known ∧ flow.Upstream (· ∈ given) :=
        ⟨Flow.carried_upstream known _, fun _ => And.left⟩
      have performed := Event.perform_consigns cohering prepare
        (fun flow holds => ⟨fun item waits => isGiven item (holds.2.waiting item waits),
          fun number id item found => isGiven item (holds.2.pulled number id item found)⟩)
        excluded event sound consigned expects.1
      have kept := event.perform_sound (tracked_upstream known) (fun _ => putKeeps_nothing _)
        prepare.behave (fun item now => whole item (List.mem_append_left _ now)) sound
      exact ih isOriginal (fun item later => whole item (List.mem_append_right _ later)) kept
        performed expects.2

/-- Before a run no bin holds anything, and nothing was delivered. -/
theorem consigned_opening (source : List Item) (relationships : List String) (clock : Moment)
    (policy : Policy) : Consigned hooks originals expected
      (opening { source, sinks := Flow.sinksFor relationships } clock policy) := by
  have empty : ∀ received ∈ (Flow.sinksFor relationships).values, received = [] := by
    apply Table.forall_values_ofList
    intro entry member
    obtain ⟨_, _, rfl⟩ := List.mem_map.1 member
    rfl
  constructor
  · rintro bin (⟨⟨⟩⟩ | ⟨⟨⟩⟩)
  · intro relationship received found item member
    rw [empty received (Table.mem_values_iff.2 ⟨relationship, found⟩)] at member
    cases member

/-- Whatever was delivered in a run was to be expected. -/
theorem run_received (engine : Engine) (prepare : engine.hooks.Prepare) (source : List Item)
    (relationships : List String) (clock : Moment) (policy : Policy) (events : List Event)
    (whole : ∀ item ∈ source ++ events.flatMap Event.items, item.HasWholeSize) :
    let start := opening { source, sinks := Flow.sinksFor relationships } clock policy
    (run engine start events).Received (MayReceive engine.hooks
      (· ∈ source ++ events.flatMap Event.items) (engine.runHandings start events)) := by
  intro start
  have sound : start.Sound (fun flow =>
      flow.Coherent (Flow.sinksFor relationships).keys ∧ flow.Upstream (· ∈ source)) [] := by
    refine sound_opening clock policy ⟨Flow.coherent_start _ _, fun _ => id, nofun⟩ ?_
      fun _ => rfl
    exact ⟨fun item member => whole item (List.mem_append_left _ member), nofun, nofun⟩
  refine (run_consigns prepare events (fun _ => id) (fun item member => whole item
    (List.mem_append_right _ member)) ?_ sound (consigned_opening _ _ _ _) ?_).received
  · exact fun original item isOriginal excludes resembles =>
      .inr ⟨rfl, original, isOriginal, excludes, resembles⟩
  · exact fun handing member relationship item delivers => .inl ⟨handing, member, delivers⟩

/-- Items are grouped by an attribute; the bins of one group fail, and the others get an
attribute. -/
def stamping (preprocessor : Preprocessor) : Engine where
  hooks :=
    { preprocess := preprocessor.script
      groupKey := (Grouping.byAttribute "group" [] []).script
      process := fun bin => .look fun depot =>
        if (depot.bin bin).group.key? = some (.named "bad") then .fail .recoverable
        else .done (some { attributes := Table.ofList [("seen", .text "yes")] }) }
  chunkSize := .int 1

theorem groupKey_stamping (preprocessor : Preprocessor) (item : Item) :
    ((stamping preprocessor).hooks.groupKey item).Uses Call.Aside :=
  Grouping.uses_script _ (.byAttribute "group" [] []) item

theorem process_stamping (preprocessor : Preprocessor) (bin : BinId) :
    ((stamping preprocessor).hooks.process bin).Uses Call.Aside := by
  intro depot
  dsimp only
  split <;> trivial

/-- An item with an attribute that it can be grouped by. -/
def grouped (id group : String) : Item :=
  { id, size := .int 1, attributes := Table.ofList [("group", .text group)] }

/-- Over a whole run, an item that success receives is the version that a session held when
its bin was handed to the processor, with the attributes that were answered.  One that
failure receives is such a version of a bin whose processor failed, or an item that the hooks
excluded.  The version that the hooks gave the item is among the contents of the same bin. -/
theorem delivers_held_versions (engine : Engine) (prepare : engine.hooks.Prepare)
    (source : List Item) (relationships : List String) (clock : Moment) (policy : Policy)
    (events : List Event)
    (whole : ∀ item ∈ source ++ events.flatMap Event.items, item.HasWholeSize) :
    let given := source ++ events.flatMap Event.items
    let start := opening { source, sinks := Flow.sinksFor relationships } clock policy
    let handings := engine.runHandings start events
    let reached := run engine start events
    (∀ item ∈ reached.delivered successRelationship, ∃ handing ∈ handings,
      ∃ outcome version current, handing.answer engine.hooks = .ok (some outcome) ∧
        handing.Holds version current ∧ engine.hooks.Pairs (· ∈ given) version current ∧
        item = current.withAttributes outcome.attributes) ∧
    ∀ item ∈ reached.delivered failureRelationship,
      (∃ handing ∈ handings, ∃ version, handing.answer engine.hooks = .error .recoverable ∧
        handing.Holds version item ∧ engine.hooks.Pairs (· ∈ given) version item) ∨
      ∃ original ∈ given, Excludes engine.hooks original ∧ item.Resembles original := by
  intro given start handings reached
  have received := run_received engine prepare source relationships clock policy events whole
  refine ⟨fun item member => ?_, fun item member => ?_⟩
  · rcases received.of_delivered member with ⟨handing, isHanding, delivers⟩ | ⟨failure, _⟩
    · obtain ⟨outcome, version, current, answer, rest⟩ := delivers.of_success
      exact ⟨handing, isHanding, outcome, version, current, answer, rest⟩
    · exact absurd failure (by decide)
  · rcases received.of_delivered member with
      ⟨handing, isHanding, delivers⟩ | ⟨_, original, isGiven, excluded⟩
    · exact .inl ⟨handing, isHanding, delivers.of_failure⟩
    · exact .inr ⟨original, isGiven, excluded⟩

theorem delivers_held_stamped :
    let engine := stamping (.annotate (Table.ofList [("kind", .text "T")]))
    let source := [grouped "a" "good", grouped "b" "bad", { id := "c" }]
    let events : List Event := [.activate (List.replicate 5 true)]
    let given := source ++ events.flatMap Event.items
    let start := opening { source, sinks := Flow.sinksFor [] } {} {}
    let handings := engine.runHandings start events
    let reached := run engine start events
    ((reached.delivered successRelationship).map fun item =>
        (item.id, item.attributes.keys)) = [("a", ["group", "kind", "seen"])] ∧
    ((reached.delivered failureRelationship).map fun item =>
        (item.id, item.attributes.keys)) = [("c", ["kind"]), ("b", ["group", "kind"])] ∧
    (∀ item ∈ reached.delivered successRelationship, ∃ handing ∈ handings,
      ∃ outcome version current, handing.answer engine.hooks = .ok (some outcome) ∧
        handing.Holds version current ∧ engine.hooks.Pairs (· ∈ given) version current ∧
        item = current.withAttributes outcome.attributes) ∧
    ∀ item ∈ reached.delivered failureRelationship,
      (∃ handing ∈ handings, ∃ version, handing.answer engine.hooks = .error .recoverable ∧
        handing.Holds version item ∧ engine.hooks.Pairs (· ∈ given) version item) ∨
      ∃ original ∈ given, Excludes engine.hooks original ∧ item.Resembles original := by
  intro engine source events given start handings reached
  have prepare : engine.hooks.Prepare :=
    .of_annotate (fun _ _ => rfl) (groupKey_stamping _) (process_stamping _)
  have whole : ∀ item ∈ source ++ events.flatMap Event.items, item.HasWholeSize := by
    simp only [source, events, Event.items, List.flatMap_cons, List.flatMap_nil,
      List.append_nil, List.forall_mem_cons]
    exact ⟨⟨1, rfl⟩, ⟨1, rfl⟩, ⟨0, rfl⟩, List.forall_mem_nil _⟩
  exact ⟨by decide +kernel, by decide +kernel,
    delivers_held_versions engine prepare source [] {} {} events whole⟩

/-- A copy is not delivered: the item is grouped and binned as the hook answered it, and
success receives it with the attributes that it was pulled with. -/
theorem copy_not_delivered :
    let engine := stamping (.copy (Table.ofList [("group", .text "T")]))
    let events : List Event := [.activate [true, true, true]]
    let start := opening { source := [grouped "a" "A"], sinks := Flow.sinksFor [] } {} {}
    let handings := engine.runHandings start events
    let delivered := (run engine start events).delivered successRelationship
    let group (item : Item) := (item.attributes.find? "group").bind Value.key?
    (delivered.map fun item => (item.id, group item)) = [("a", some (.named "A"))] ∧
    (handings.map fun handing => (handing.depot.bin handing.bin).contents.map fun version =>
      (version.id, group version)) = [[("a", some (.named "T"))]] ∧
    ∃ item ∈ delivered, ∀ handing ∈ handings,
      ∀ version ∈ (handing.depot.bin handing.bin).contents, ∀ outcome,
        handing.answer engine.hooks = .ok (some outcome) →
          item.attributes ≠ (version.withAttributes outcome.attributes).attributes := by
  intro engine events start handings delivered group
  have received : (delivered.map fun item => (item.id, group item)) =
      [("a", some (.named "A"))] := by
    decide +kernel
  have binned : ∀ handing ∈ handings,
      ∀ version ∈ (handing.depot.bin handing.bin).contents,
        group version = some (.named "T") := by
    decide +kernel
  obtain ⟨item, member, isItem⟩ := List.mem_map.1 (received ▸ List.mem_singleton_self _)
  refine ⟨received, by decide +kernel, item, member,
    fun handing isHanding version among outcome answer same => ?_⟩
  -- the processor answers no group, so the version would have to be of the same group
  have stamped : outcome.attributes.find? "group" = none := by
    simp only [Handing.answer, engine, stamping, Script.run] at answer
    split at answer <;> cases answer
    rfl
  have unchanged : group item = group version := by
    simp only [group, same, Item.withAttributes, Table.find?_merge, stamped, Option.none_or]
  have isA : group item = some (.named "A") := congrArg Prod.snd isItem
  rw [unchanged, binned handing isHanding version among] at isA
  exact absurd isA (by decide)

/-- A hook that answers the version that the session then holds, as one does that puts
attributes on the item there, has what it answered delivered. -/
theorem delivers_answered_versions (engine : Engine) (prepare : engine.hooks.Prepare)
    (answersHeld : ∀ item version current, engine.hooks.Derives item version current →
      current = version)
    (source : List Item) (relationships : List String) (clock : Moment) (policy : Policy)
    (events : List Event)
    (whole : ∀ item ∈ source ++ events.flatMap Event.items, item.HasWholeSize) :
    let start := opening { source, sinks := Flow.sinksFor relationships } clock policy
    let handings := engine.runHandings start events
    let reached := run engine start events
    (∀ item ∈ reached.delivered successRelationship, ∃ handing ∈ handings, ∃ outcome,
      handing.answer engine.hooks = .ok (some outcome) ∧
        ∃ version ∈ (handing.depot.bin handing.bin).contents,
          item = version.withAttributes outcome.attributes) ∧
    ∀ item ∈ reached.delivered failureRelationship,
      (∃ handing ∈ handings, handing.answer engine.hooks = .error .recoverable ∧
        item ∈ (handing.depot.bin handing.bin).contents) ∨
      ∃ original ∈ source ++ events.flatMap Event.items,
        Excludes engine.hooks original ∧ item.Resembles original := by
  intro start handings reached
  have received := run_received engine prepare source relationships clock policy events whole
  refine ⟨fun item member => ?_, fun item member => ?_⟩
  · rcases received.of_delivered member with ⟨handing, isHanding, delivers⟩ | ⟨failure, _⟩
    · obtain ⟨outcome, version, current, answer, holds, ⟨_, _, derives⟩, rfl⟩ :=
        delivers.of_success
      obtain rfl := answersHeld _ _ _ derives
      exact ⟨handing, isHanding, outcome, answer, _, holds.1, rfl⟩
    · exact absurd failure (by decide)
  · rcases received.of_delivered member with
      ⟨handing, isHanding, delivers⟩ | ⟨_, original, isGiven, excluded⟩
    · obtain ⟨version, answer, holds, ⟨_, _, derives⟩⟩ := delivers.of_failure
      obtain rfl := answersHeld _ _ _ derives
      exact .inl ⟨handing, isHanding, answer, holds.1⟩
    · exact .inr ⟨original, isGiven, excluded⟩

end Engine

end ItemBinning
