import ItemBinning.Proofs.Engine.Turnover
import ItemBinning.Proofs.Hook.Bundling
import ItemBinning.Simulation
import Mathlib.Algebra.Order.BigOperators.Group.List
import Mathlib.Algebra.Order.Ring.Int

/-!
# Quiescence

When the processor accepts every bin, nothing comes back to the source.  An item on the
source then is worth two steps and an open bin one: an activation that is not idle takes a
step at least, so that activations soon become idle.  By then nothing waits, and whatever
waited before or was in an open bin is in a sink or in an open bin that is not ready.
-/

namespace ItemBinning

open Depot

/-- The sinks that a flow has if no others are wanted. -/
def Flow.usual : List String := (sinksFor []).keys

namespace Depot

variable {property : Flow → Prop} {depot : Depot}

/-- The items in the open bins. -/
def openContents (depot : Depot) : List Item :=
  depot.shelf.bins.flatMap fun bin => (depot.bin bin).contents

/-- With an empty queue, and if hooks brought nothing into sessions, an item is pending on
the source or in an open bin. -/
theorem Sound.pending_eq (sound : depot.Sound property [])
    (held : ∀ bin ∈ depot.shelf.bins,
      (depot.binSession bin).ids = (depot.bin bin).contents.map Item.id)
    (none : depot.ready = []) (unmoved : depot.moves = []) (id : String) :
    depot.flow.pending id =
      ((depot.flow.source ++ depot.openContents).map Item.id).count id := by
  have arranged := sound.arranged
  have distinct : (depot.shelf.bins.map fun bin => (depot.bin bin).session).Nodup := by
    refine arranged.nodup_bins.map_on fun bin isOpen other isOther same => ?_
    exact arranged.registered.apart bin (arranged.isBin_of_mem_bins isOpen) other
      (arranged.isBin_of_mem_bins isOther) same
  -- with an empty queue, only open bins account for what sessions hold
  have others (session : SessionId)
      (notOwned : session ∉ depot.shelf.bins.map fun bin => (depot.bin bin).session) :
      (depot.flow.session session).ids.count id = 0 := by
    rw [List.count_eq_zero]
    intro isHeld
    rcases sound.attended session id isHeld with ⟨⟨⟩⟩ | ⟨bin, onShelf | queued, same⟩ | moved
    · exact notOwned (List.mem_map.2 ⟨bin, onShelf, same⟩)
    · rw [none] at queued
      cases queued
    · rw [unmoved] at moved
      cases moved
  have total := Slots.total_eq_sum distinct depot.flow.sessions
    (fun session => session.ids.count id) rfl others
  unfold Flow.pending openContents
  rw [total, List.map_append, List.count_append, List.map_flatMap, List.count_flatMap,
    List.map_map]
  congr 2
  refine List.map_congr_left fun bin isOpen => ?_
  exact congrArg (List.count id) (held bin isOpen)

theorem Poised.pending_eq {given : Key → Item → Prop} (poised : depot.Poised property given)
    (none : depot.ready = []) (unmoved : depot.moves = []) (id : String) :
    depot.flow.pending id =
      ((depot.flow.source ++ depot.openContents).map Item.id).count id :=
  poised.sound.pending_eq (fun _ onShelf => (poised.fit _ (.inl onShelf)).held) none unmoved id

/-- What was delivered to a relationship. -/
def delivered (depot : Depot) (relationship : String) : List Item :=
  (depot.flow.sinks.find? relationship).getD []

theorem receipts_eq (known : depot.flow.sinks.keys = Flow.usual) (id : String) :
    depot.flow.receipts id = ((depot.delivered successRelationship ++
      depot.delivered failureRelationship).map Item.id).count id := by
  have isShare (relationship : String) :
      depot.flow.sinks.share (fun _ items => (items.map Item.id).count id) relationship =
        ((depot.delivered relationship).map Item.id).count id := by
    unfold Table.share delivered
    cases depot.flow.sinks.find? relationship <;> rfl
  have keys : depot.flow.sinks.keys = [successRelationship, failureRelationship] := known
  unfold Flow.receipts
  rw [Table.total_eq_sum, keys, List.map_append, List.count_append, ← isShare, ← isShare]
  rfl

/-- What was delivered later went behind what was delivered before, and it together with what
still waits or is in an open bin is what waited or was in an open bin before. -/
def Conserved (before after : Depot) : Prop :=
  ∃ processed failed,
    after.delivered successRelationship =
      before.delivered successRelationship ++ processed ∧
    after.delivered failureRelationship = before.delivered failureRelationship ++ failed ∧
    ((processed ++ failed ++ (after.flow.source ++ after.openContents)).map Item.id).Perm
      ((before.flow.source ++ before.openContents).map Item.id)

/-- Items are conserved if none are held elsewhere. -/
theorem conserved_since {before after : Depot}
    (balanced : after.flow.Balanced Flow.usual before.flow.account)
    (grows : after.flow.Extends before.flow.sinks)
    (known : before.flow.sinks.keys = Flow.usual)
    (pendingBefore : ∀ id, before.flow.pending id =
      ((before.flow.source ++ before.openContents).map Item.id).count id)
    (pendingAfter : ∀ id, after.flow.pending id =
      ((after.flow.source ++ after.openContents).map Item.id).count id) :
    before.Conserved after := by
  have grown (relationship : String)
      (isKnown : relationship ∈ [successRelationship, failureRelationship]) :
      ∃ more, after.delivered relationship = before.delivered relationship ++ more := by
    have isKey : relationship ∈ before.flow.sinks.keys := by
      rw [known]
      exact isKnown
    obtain ⟨items, found⟩ := Table.mem_keys_iff.1 isKey
    obtain ⟨more, foundAfter⟩ := grows relationship items found
    refine ⟨more, ?_⟩
    unfold delivered
    rw [found, foundAfter]
    rfl
  obtain ⟨processed, isProcessed⟩ := grown successRelationship (by simp)
  obtain ⟨failed, isFailed⟩ := grown failureRelationship (by simp)
  refine ⟨processed, failed, isProcessed, isFailed, List.perm_iff_count.2 fun id => ?_⟩
  have same := balanced.accounts id
  rw [Flow.account_eq, Flow.account_eq, pendingBefore, pendingAfter, receipts_eq known,
    receipts_eq balanced.coherent.sinks, isProcessed, isFailed] at same
  simp only [List.map_append, List.count_append] at same ⊢
  omega

/-- Nothing waits on the source or in the queue, and no open bin is ready. -/
structure Quiescent (depot : Depot) : Prop where
  source : depot.flow.source = []
  ready : depot.ready = []
  waits : ∀ bin ∈ depot.shelf.bins, depot.Waits true bin

/-- The steps that are left at most: two for each item on the source and one for each open
bin. -/
def workload (depot : Depot) : Nat :=
  2 * depot.flow.source.length + depot.shelf.binCount

end Depot

namespace Engine

variable {engine : Engine} {size : Int} {known : List String} {property : Flow → Prop}
  {given : Key → Item → Prop}

section Turnover

variable {pulled returned rest : List Item} {before after : Depot} {activation : Activation}
  (turnover : Turnover engine size property given pulled returned rest before activation after)
  (accepts : ∀ (depot : Depot) bin, depot.Fit given bin → engine.hooks.AcceptsBin depot bin)
include turnover accepts

theorem Turnover.returned_eq_nil : returned = [] := by
  refine List.eq_nil_iff_forall_not_mem.2 fun item back => ?_
  obtain ⟨depot, bin, fit, notAccepted, _⟩ := turnover.unaccepted item back
  exact notAccepted (accepts depot bin fit)

/-- An activation takes at least as many steps as it binned items and moved bins. -/
theorem Turnover.workload_add_le :
    after.workload + (activation.itemsBinned + activation.binsMigrated) ≤ before.workload := by
  have source := congrArg List.length turnover.source
  have remains := congrArg List.length turnover.remains
  have stock := turnover.stock
  have atMost := turnover.atMost
  rw [turnover.returned_eq_nil accepts] at remains
  rw [List.length_append] at source remains
  unfold workload
  rw [List.length_nil] at remains
  omega

end Turnover

variable (regular : engine.Regular size known property given)
include regular

/-- An idle activation leaves nothing waiting. -/
theorem activateFully_idle {depot reached : Depot} {activation : Activation}
    (poised : depot.Poised property given) (none : depot.ready = [])
    (run : engine.activateFully depot = (.ok activation, reached))
    (idle : activation.isIdle = true) : reached.Quiescent := by
  obtain ⟨most, isMost, positive⟩ := poised.exists_most
  have activates : engine.activate (alwaysScheduled depot) depot = (.ok activation, reached) :=
    run
  have always : ∀ answer ∈ alwaysScheduled depot, answer = true :=
    fun answer member => (List.mem_replicate.1 member).2
  obtain ⟨source, _, waits⟩ := activate_idle poised.sound.arranged isMost positive
    regular.plain.leave regular.chunks none always activates idle
  have room := activate_room poised.sound.arranged isMost positive regular.plain.leave activates
    (eq_zero_of_isIdle idle).2.2
  exact ⟨source, room.1, waits⟩

variable (accepts : ∀ (depot : Depot) bin, depot.Fit given bin →
    engine.hooks.AcceptsBin depot bin)
  (times : Nat → Moment → Moment) {start : Depot} (poised : start.Poised property given)
  (none : start.ready = [])
include accepts poised none

/-- As long as no activation is idle, each takes a step. -/
theorem workload_worked_add_le (turn : Nat)
    (busy : ∀ earlier < turn, ∀ activation, engine.reported times start earlier = .ok activation →
      activation.isIdle = false) :
    (engine.worked times start turn).workload + turn ≤ start.workload := by
  induction turn with
  | zero => exact Nat.le_refl _
  | succ turn ih =>
      have before := ih fun earlier isEarlier => busy earlier (Nat.lt_succ_of_lt isEarlier)
      obtain ⟨_, _, _, activation, _, reported, turnover⟩ :=
        worked_turns regular times poised none turn
      have works := turnover.works (busy turn (Nat.lt_succ_self turn) activation reported)
      have steps := turnover.workload_add_le accepts
      change _ ≤ (engine.worked times start turn).workload at steps
      omega

/-- Some activation is idle before all steps are taken. -/
theorem exists_idle : ∃ turn ≤ start.workload, ∃ activation,
    engine.reported times start turn = .ok activation ∧ activation.isIdle = true := by
  by_contra never
  have steps := workload_worked_add_le regular accepts times poised none (start.workload + 1)
    fun earlier isEarlier activation reported => by
      by_contra idle
      exact never ⟨earlier, Nat.le_of_lt_succ isEarlier, activation, reported,
        by simpa using idle⟩
  omega

omit regular accepts poised none

/-- A simulation stops by itself: however great its bound is, it ends with the same idle
activation. -/
theorem runEngine_stops (regular : engine.Regular size known property given)
    (accepts : ∀ (depot : Depot) bin, depot.Fit given bin → engine.hooks.AcceptsBin depot bin)
    {depot : Depot} (poised : depot.Poised property given) (none : depot.ready = []) :
    ∃ activations reached, activations ≤ depot.workload + 1 ∧ reached.Quiescent ∧
      ∀ bound, depot.workload < bound →
        Simulation.runEngine engine bound depot = (.ok activations, reached) := by
  -- by induction on the steps that are left: an activation that is not idle takes some
  generalize left : depot.workload = steps
  induction steps using Nat.strongRecOn generalizing depot with
  | ind steps ih =>
      obtain ⟨_, _, _, activation, between, run, turnover⟩ :=
        activateFully_turns regular poised none
      have next (bound : Nat) : Simulation.runEngine engine (bound + 1) depot =
          (if activation.isIdle && between.flow.source.isEmpty then pure 1
            else do
              let more ← Simulation.runEngine engine bound
              pure (more + 1) : Act Depot Nat) between :=
        Act.bind_of_ok run _
      cases idle : activation.isIdle with
      | true =>
          have quiescent := activateFully_idle regular poised none run idle
          refine ⟨1, between, Nat.le_add_left 1 steps, quiescent, fun bound isGreater => ?_⟩
          obtain ⟨bound, rfl⟩ := Nat.exists_eq_succ_of_ne_zero (Nat.ne_zero_of_lt isGreater)
          rw [next, idle, quiescent.source]
          rfl
      | false =>
          have works := turnover.works idle
          have step := turnover.workload_add_le accepts
          obtain ⟨more, reached, few, quiescent, runs⟩ :=
            ih between.workload (by omega) turnover.poised turnover.ready rfl
          refine ⟨more + 1, reached, by omega, quiescent, fun bound isGreater => ?_⟩
          obtain ⟨bound, rfl⟩ := Nat.exists_eq_succ_of_ne_zero (Nat.ne_zero_of_lt isGreater)
          rw [next, idle, Bool.false_and, if_neg Bool.false_ne_true,
            Act.bind_of_ok (runs bound (by omega))]
          rfl

theorem hasWholeSize_of_weighs {bin : Bin} (weighs : bin.Weighs) :
    ∀ item ∈ bin.contents, item.HasWholeSize := by
  obtain ⟨sizes, areSizes, _⟩ := weighs
  intro item member
  have isSize : item.size ∈ sizes.map Value.int := areSizes ▸ List.mem_map_of_mem member
  obtain ⟨size, _, same⟩ := List.mem_map.1 isSize
  exact ⟨size, same.symm⟩

/-- A depot at rest with different ids, whose bins hold just their contents. -/
theorem poised_at_rest {depot : Depot} (sound : depot.Sound (Flow.Coherent known) [])
    (faithful : depot.Faithful) (weigh : depot.AllWeigh) (none : depot.ready = [])
    (unmoved : depot.moves = [])
    (consistent : depot.shelf.thresholds.inconsistencies = .ok [])
    (distinct : ((depot.flow.source ++ depot.openContents).map Item.id).Nodup) :
    depot.Poised (Flow.Since known depot.flow Item.HasWholeSize)
      fun _ item => item.HasWholeSize := by
  have isOpen {bin : BinId} (stored : depot.Stored bin) : bin ∈ depot.shelf.bins := by
    rcases stored with onShelf | queued
    · exact onShelf
    · rw [none] at queued
      cases queued
  have held (bin : BinId) (onShelf : bin ∈ depot.shelf.bins) :
      (depot.binSession bin).ids = (depot.bin bin).contents.map Item.id := by
    unfold openContents at distinct
    rw [List.map_append, List.map_flatMap, List.nodup_append, List.nodup_flatMap] at distinct
    exact faithful bin (.inl onShelf) (distinct.2.1.1 bin onShelf)
  have pending := sound.pending_eq held none unmoved
  constructor
  case sound =>
    refine ⟨⟨⟨⟨sound.flow, fun _ => rfl, fun id => ?_⟩, Flow.extends_refl _⟩, sound.flow, ?_⟩,
      sound.whole, sound.arranged, sound.queued, sound.weighed, sound.attended⟩
    · rw [pending id]
      exact List.nodup_iff_count_le_one.1 distinct id
    · exact ⟨sound.whole.waiting, sound.whole.pulled⟩
  case fit =>
    intro bin stored
    obtain ⟨key, inGroup⟩ := Shelf.mem_bins_iff.1 (isOpen stored)
    exact ⟨sound.isBin stored, weigh bin stored, held bin (isOpen stored), key,
      sound.arranged.filed key bin inGroup, ⟨{ id := "" }, 0, rfl⟩,
      hasWholeSize_of_weighs (weigh bin stored)⟩
  case consistent => exact consistent

/-- Activations from a depot on never fail.  One of a number of steps is idle, and what is
idle leaves nothing waiting.  No item is lost or doubled meanwhile. -/
structure Quiesces (engine : Engine) (times : Nat → Moment → Moment) (start : Depot)
    (steps : Nat) : Prop where
  carriedThrough : ∀ turn, ∃ activation,
    engine.reported times start turn = .ok activation ∧ activation.cancelled = false
  soon : ∃ turn ≤ steps, ∃ activation,
    engine.reported times start turn = .ok activation ∧ activation.isIdle = true
  quiescent : ∀ turn activation, engine.reported times start turn = .ok activation →
    activation.isIdle = true → (engine.worked times start (turn + 1)).Quiescent
  conserved : ∀ turn, start.Conserved (engine.worked times start turn)

/-- Without hooks that bring items into sessions none are brought there by activations. -/
theorem worked_moves {engine : Engine} (regular : engine.Regular size known property given)
    (times : Nat → Moment → Moment) {start : Depot} (poised : start.Poised property given)
    (none : start.ready = []) (turn : Nat) :
    (engine.worked times start turn).moves = start.moves := by
  induction turn with
  | zero => rfl
  | succ turn ih =>
      have ⟨poisedThen, _⟩ := worked_poised regular times poised none turn
      have arranged := (poisedThen.atTime (times turn)).sound.arranged
      exact (activate_moves regular.plain.gentle regular.plain.process _ arranged).trans ih

theorem quiesces_since {engine : Engine} {start : Depot} {allowed : Item → Prop}
    (regular : engine.Regular size Flow.usual
      (Flow.Since Flow.usual start.flow allowed) given)
    (accepts : ∀ (depot : Depot) bin, depot.Fit given bin → engine.hooks.AcceptsBin depot bin)
    (times : Nat → Moment → Moment)
    (poised : start.Poised (Flow.Since Flow.usual start.flow allowed) given)
    (none : start.ready = []) (unmoved : start.moves = []) :
    engine.Quiesces times start start.workload where
  carriedThrough turn := by
    obtain ⟨_, _, _, activation, _, reported, turnover⟩ :=
      worked_turns regular times poised none turn
    exact ⟨activation, reported, turnover.carriedThrough⟩
  soon := exists_idle regular accepts times poised none
  quiescent turn activation isReported idle := by
    obtain ⟨_, _, _, same, run, reported, _⟩ := worked_turns regular times poised none turn
    rw [isReported] at reported
    cases reported
    obtain ⟨poisedThen, noneThen⟩ := worked_poised regular times poised none turn
    exact activateFully_idle regular (poisedThen.atTime (times turn)) noneThen run idle
  conserved turn := by
    obtain ⟨poisedThen, noneThen⟩ := worked_poised regular times poised none turn
    have unmovedThen := (worked_moves regular times poised none turn).trans unmoved
    have since := poisedThen.sound.flow
    exact conserved_since since.1.1 since.1.2 poised.sound.flow.2.1.sinks
      (poised.pending_eq none unmoved) (poisedThen.pending_eq noneThen unmovedThen)

theorem tracked_coherent (known : List String) : Tracked fun _ => Flow.Coherent known :=
  ⟨fun _ => Flow.carried_coherent known,
    fun _ _ _ coherent => ⟨coherent.sinks, coherent.sessions⟩⟩

theorem coherent_opening {source : List Item} (relationships : List String) (clock : Moment)
    (policy : Policy) (whole : ∀ item ∈ source, item.HasWholeSize) :
    (opening { source, sinks := Flow.sinksFor relationships } clock policy).Sound
      (Flow.Coherent (Flow.sinksFor relationships).keys) [] :=
  sound_opening clock policy ⟨rfl, fun _ => Session.coherent_default⟩ ⟨whole, nofun, nofun⟩
    fun _ => rfl

/-- A run of an engine with plain hooks leaves the bins faithful, each of the size of its
contents, and brings nothing into sessions. -/
theorem faithful_after_run {engine : Engine} (plain : engine.hooks.Plain) (source : List Item)
    (clock : Moment) (policy : Policy) (events : List Event)
    (whole : ∀ item ∈ source ++ events.flatMap Event.items, item.HasWholeSize) :
    let depot := run engine (opening { source, sinks := Flow.sinksFor [] } clock policy) events
    depot.Sound (Flow.Coherent Flow.usual) [] ∧ depot.Faithful ∧ depot.AllWeigh ∧
      depot.moves = [] := by
  intro depot
  rw [List.forall_mem_append] at whole
  have tracked := tracked_coherent Flow.usual
  have begun := coherent_opening [] clock policy whole.1
  have faithful : (opening { source, sinks := Flow.sinksFor [] } clock policy).Faithful := by
    rintro bin (⟨⟨⟩⟩ | ⟨⟨⟩⟩)
  have weigh : (opening { source, sinks := Flow.sinksFor [] } clock policy).AllWeigh := by
    rintro bin (⟨⟨⟩⟩ | ⟨⟨⟩⟩)
  obtain ⟨sound, faithful⟩ := run_endures tracked plain.behave plain.gentle plain.process
    (endures_faithful _) events whole.2 ⟨begun, faithful⟩
  obtain ⟨_, weigh⟩ := run_endures tracked plain.behave plain.gentle plain.process
    endures_allWeigh events whole.2 ⟨begun, weigh⟩
  exact ⟨sound, faithful, weigh,
    run_moves tracked plain.behave plain.gentle plain.process events whole.2 begun⟩

end Engine

/-! ### Simulations -/

/-- The number of bytes of an item of whole size. -/
def Item.bytes (item : Item) : Int :=
  match item.size with
  | .number (.int bytes) => bytes
  | _ => 0

theorem Item.sum_bytes {items : List Item} {sizes : List Int}
    (areSizes : items.map Item.size = sizes.map Value.int) :
    (items.map Item.bytes).sum = sizes.sum := by
  induction items generalizing sizes with
  | nil =>
      rw [List.map_eq_nil_iff.1 areSizes.symm]
      rfl
  | cons item rest ih =>
      cases sizes with
      | nil => cases areSizes
      | cons size sizes =>
          obtain ⟨isSize, areSizes⟩ := List.cons.inj areSizes
          have same : item.bytes = size := by
            unfold Item.bytes
            rw [isSize]
          rw [List.map_cons, List.sum_cons, same, ih areSizes, List.sum_cons]

/-- Some of the items have no more bytes than all. -/
theorem Item.sum_bytes_le {some all : List Item} (among : some.Subperm all)
    (notNegative : ∀ item ∈ all, 0 ≤ item.bytes) :
    0 ≤ (some.map Item.bytes).sum ∧ (some.map Item.bytes).sum ≤ (all.map Item.bytes).sum := by
  have positive (items : List Item) (within : items ⊆ all) : 0 ≤ (items.map Item.bytes).sum := by
    refine List.sum_nonneg ?_
    simpa using fun item member => notNegative item (within member)
  have least := positive some among.subset
  obtain ⟨same, isSome, sublist⟩ := among
  obtain ⟨rest, perm⟩ := sublist.exists_perm_append
  have total := ((perm.trans (isSome.append_right rest)).map Item.bytes).sum_eq
  rw [List.map_append, List.sum_append] at total
  have := positive rest fun item member => perm.mem_iff.2 (List.mem_append_right _ member)
  exact ⟨least, by omega⟩

theorem Item.generatedId_injective : Function.Injective generatedId := by
  intro first second same
  unfold generatedId at same
  rw [String.append_right_inj, String.ofList_inj] at same
  have numbers := congrArg (Nat.ofDigitChars 10 · 0) same
  rw [Nat.ofDigitChars_toDigits (by decide) (by decide),
    Nat.ofDigitChars_toDigits (by decide) (by decide)] at numbers
  exact Nat.succ_injective numbers

namespace Simulation

/-- The item names its group by a text. -/
def Grouped (item : Item) : Prop :=
  ∃ name, item.attributes.find? groupAttribute = some (.text name)

theorem drawItem_spec {simulation : Simulation} {drawn : Nat} {dice next : Dice} {item : Item}
    (draws : simulation.drawItem drawn dice = .ok (item, next)) :
    item.id = Item.generatedId drawn ∧ item.HasWholeSize ∧ 0 ≤ item.bytes ∧ Grouped item := by
  unfold drawItem at draws
  rcases outer : dice.between simulation.minItemSize simulation.maxItemSize with
    fault | ⟨wide, rolled⟩
  · simp only [bind, Except.bind, outer] at draws
    cases draws
  · rcases inner : rolled.between 0 (simulation.groups - 1) with fault | ⟨group, last⟩
    · simp only [bind, Except.bind, outer, inner] at draws
      cases draws
    · simp only [bind, Except.bind, outer, inner] at draws
      split at draws
      · cases draws
      · rename_i notNegative
        cases draws
        exact ⟨rfl, ⟨_, rfl⟩, Int.not_lt.1 notNegative, _, rfl⟩

theorem drawItems_spec {simulation : Simulation} (wanted : Nat) {drawn : Nat} {dice : Dice}
    {items : List Item} (draws : simulation.drawItems drawn dice wanted = .ok items) :
    items.map Item.id = (List.range' drawn wanted).map Item.generatedId ∧
      ∀ item ∈ items, item.HasWholeSize ∧ 0 ≤ item.bytes ∧ Grouped item := by
  induction wanted generalizing drawn dice items with
  | zero =>
      cases draws
      exact ⟨rfl, nofun⟩
  | succ wanted ih =>
      unfold drawItems at draws
      rcases first : simulation.drawItem drawn dice with fault | ⟨item, next⟩
      · simp only [bind, Except.bind, first] at draws
        cases draws
      · rcases later : simulation.drawItems (drawn + 1) next wanted with fault | rest
        · simp only [bind, Except.bind, first, later] at draws
          cases draws
        · simp only [bind, Except.bind, first, later] at draws
          cases draws
          obtain ⟨isDrawn, right⟩ := drawItem_spec first
          obtain ⟨areDrawn, rights⟩ := ih later
          rw [List.map_cons, List.range'_succ, List.map_cons, isDrawn, areDrawn]
          exact ⟨rfl, List.forall_mem_cons.2 ⟨right, rights⟩⟩

theorem plain_engine [Host] (size : Number) : (engine size).hooks.Plain where
  preprocess _ _ := rfl
  groupKey item := Grouping.uses_script _ (.byAttribute groupAttribute [] []) item
  process bin := (Processor.uses_bundle "bundle" bin).mono fun _ => .inr

/-- Drawn items are given the names of their groups. -/
def GivenFrom (items : List Item) (key : Key) (item : Item) : Prop :=
  (∃ name, key = .named name) ∧ item ∈ items

/-- The size of a bin that holds some of the items only can be written, if their total can. -/
theorem isWritable_size [Host] {items : List Item} (notNegative : ∀ item ∈ items, 0 ≤ item.bytes)
    (few : Decimal.isWritable (items.map Item.bytes).sum = true) {depot : Depot} {bin : BinId}
    (fit : depot.Fit (GivenFrom items) bin) : (depot.bin bin).size.isWritable = true := by
  obtain ⟨_, ⟨sizes, areSizes, isSum⟩, held, _, _, _, areGiven⟩ := fit
  have distinct : ((depot.bin bin).contents.map Item.id).Nodup :=
    held ▸ (depot.binSession bin).current.keys_nodup
  have among : (depot.bin bin).contents.Subperm items :=
    List.subperm_of_subset distinct.of_map fun item member => (areGiven item member).2
  have total := Item.sum_bytes_le among notNegative
  rw [Item.sum_bytes areSizes] at total
  rw [isSum]
  exact Decimal.isWritable_of_le few (by omega)

/-- Bundles accept what is of a group that is named by a text, if its size can be written. -/
theorem accepts_named [Host] (size : Number) {name : String} {depot : Depot} {bin : BinId}
    (isKey : (depot.bin bin).group.key? = some (.named name))
    (writable : (depot.bin bin).size.isWritable = true) :
    (engine size).hooks.AcceptsBin depot bin := by
  generalize isAttributes :
    Processor.bundleAttributes "bundle" depot.bundles (depot.bin bin) = attributes
  have isText : ∀ value ∈ attributes.values, (TypedField.text? value).isSome := by
    subst isAttributes
    refine Table.forall_values_ofList ?_
    simp only [List.forall_mem_cons, Value.eq_text_of_key?_named isKey]
    exact ⟨rfl, rfl, rfl, by split <;> rfl, nofun⟩
  refine ⟨{ attributes }, { depot with bundles := depot.bundles + 1 }, ?_, rfl⟩
  subst isAttributes
  change Script.run (if (depot.bin bin).size.isWritable then Processor.checkedOutcome _
    else .fail .unwritableInteger) _ = _
  unfold Processor.checkedOutcome
  rw [if_pos writable, if_pos (List.all_eq_true.2 isText)]
  rfl

/-- What a simulation draws is what a depot may begin with. -/
theorem poised_depot {simulation : Simulation} {dice : Dice} {wanted : Nat} {items : List Item}
    (draws : simulation.drawItems 0 dice wanted = .ok items) {policy : Policy}
    (consistent : policy.inconsistencies = []) {given : Key → Item → Prop} :
    (depot items policy).Poised (Flow.Since Flow.usual (depot items policy).flow (· ∈ items))
      given := by
  obtain ⟨ids, rights⟩ := drawItems_spec wanted draws
  have distinct : (items.map Item.id).Nodup := by
    rw [ids]
    exact List.Nodup.map Item.generatedId_injective (by simp [List.nodup_range'])
  exact poised_opening {} consistent (Flow.since_start distinct [] fun _ => id)
    ⟨fun item isDrawn => (rights item isDrawn).1, nofun, nofun⟩ fun _ => rfl

theorem regular_engine [Host] {size : Int} (positive : 1 ≤ size) (past : Flow) {items : List Item}
    (rights : ∀ item ∈ items, item.HasWholeSize ∧ 0 ≤ item.bytes ∧ Grouped item)
    (accepts : ∀ (depot : Depot) bin, depot.Fit (GivenFrom items) bin →
      (engine (.int size)).hooks.AcceptsBin depot bin) :
    (engine (.int size)).Regular size Flow.usual (Flow.Since Flow.usual past (· ∈ items))
      (GivenFrom items) := by
  refine Engine.regular_since (plain_engine _) rfl positive (by decide) (by decide) past ?_
    (fun _ item isGiven => (rights item isGiven.2).1) fun depot bin fit =>
      .inl (accepts depot bin fit)
  intro item isDrawn depot group reached key run isKey
  obtain ⟨_, _, name, isNamed⟩ := rights item isDrawn
  have ran : (engine (.int size)).hooks.groupKey item = .done (.text name) := by
    change (Grouping.byAttribute groupAttribute [] []).script item = _
    simp only [Grouping.script]
    rw [isNamed]
    rfl
  rw [ran] at run
  cases run
  cases isKey
  exact ⟨⟨name, rfl⟩, isDrawn⟩

end Simulation

/-- If the processor accepts every bin, activations quiesce from every depot with an empty
queue that a run leads to: within two activations for each item on the source, one for each
open bin, and one more.  So a simulation stops by itself, and every bound that is greater
than twice the number of its items is as good.  Its bundles have to be tagged with their
sizes, so the size of all its items must not be too long to be written. -/
theorem Engine.bounded_quiescence [Host] :
    (∀ (engine : Engine) (size : Int) (source : List Item) (clock : Moment) (policy : Policy)
      (events : List Event) (times : Nat → Moment → Moment),
      engine.hooks.Plain → (∀ key, engine.hooks.Accepts key) →
      engine.chunkSize = .int size → 1 ≤ size →
      (∀ item ∈ source ++ events.flatMap Event.items, item.HasWholeSize) →
      let depot := run engine (opening { source, sinks := Flow.sinksFor [] } clock policy) events
      depot.shelf.thresholds.inconsistencies = .ok [] → depot.ready = [] →
      ((depot.flow.source ++ depot.openContents).map Item.id).Nodup →
      engine.Quiesces times depot
        (2 * depot.flow.source.length + depot.shelf.bins.length)) ∧
    ∀ (simulation : Simulation) (dice : Dice) (wanted : Nat) (items : List Item)
      (policy : Policy) (size : Int),
      simulation.drawItems 0 dice wanted = .ok items → policy.inconsistencies = [] →
      1 ≤ size → Decimal.isWritable (items.map Item.bytes).sum = true →
      ∃ activations reached, activations ≤ 2 * items.length + 1 ∧ reached.Quiescent ∧
        ∀ bound, 2 * items.length < bound →
          Simulation.runEngine (Simulation.engine (.int size)) bound
            (Simulation.depot items policy) = (.ok activations, reached) := by
  constructor
  · intro engine size source clock policy events times plain accepts isSize positive whole depot
      consistent none distinct
    obtain ⟨sound, faithful, weigh, unmoved⟩ :=
      faithful_after_run plain source clock policy events whole
    have acceptsAll (depot : Depot) (bin : BinId)
        (fit : depot.Fit (fun _ item => item.HasWholeSize) bin) :
        engine.hooks.AcceptsBin depot bin := by
      obtain ⟨key, inGroup, _⟩ := fit.grouped
      exact accepts key bin depot inGroup
    have regular : engine.Regular size Flow.usual
        (Flow.Since Flow.usual depot.flow Item.HasWholeSize) fun _ item => item.HasWholeSize :=
      regular_since plain isSize positive (by decide) (by decide) depot.flow
        (fun _ isWhole _ _ _ _ _ _ => isWhole) (fun _ _ => id)
        fun depot bin fit => .inl (acceptsAll depot bin fit)
    have quiesces := quiesces_since regular acceptsAll times
      (poised_at_rest sound faithful weigh none unmoved consistent distinct) none unmoved
    rwa [workload, sound.arranged.binCount] at quiesces
  · intro simulation dice wanted items policy size draws consistent positive few
    obtain ⟨_, rights⟩ := Simulation.drawItems_spec wanted draws
    have accepts (depot : Depot) (bin : BinId) (fit : depot.Fit (Simulation.GivenFrom items) bin) :
        (Simulation.engine (.int size)).hooks.AcceptsBin depot bin := by
      obtain ⟨_, isKey, ⟨_, ⟨name, rfl⟩, _⟩, _⟩ := fit.grouped
      exact Simulation.accepts_named _ isKey
        (Simulation.isWritable_size (fun item isDrawn => (rights item isDrawn).2.1) few fit)
    exact runEngine_stops (Simulation.regular_engine positive _ rights accepts) accepts
      (Simulation.poised_depot draws consistent) rfl

namespace Engine

/-- An engine that takes one item after the other, all of one group, and accepts bins. -/
def accepting [Host] : Engine where
  hooks := {
    groupKey := (Grouping.constant (.text "")).script
    process := (Processor.finish (.outcome .empty)).script }
  chunkSize := .int 1

/-- A run was stopped after the first of three items.  A simulation of two items goes on
until it stops by itself. -/
theorem quiescence_of_three :
    letI : Host := .customary
    let source : List Item := [{ id := "a" }, { id := "b" }, { id := "c" }]
    let depot := run accepting
      (opening { source, sinks := Flow.sinksFor [] } {} { minEntries := 2 }) [.activate [true]]
    depot.flow.source.length = 2 ∧ depot.shelf.bins.length = 1 ∧
      accepting.Quiesces (fun _ clock => clock) depot 5 ∧
      ∃ items, ({} : Simulation).drawItems 0 ⟨7⟩ 2 = .ok items ∧
        ∃ activations reached, activations ≤ 5 ∧ reached.Quiescent ∧
          ∀ bound, 4 < bound → Simulation.runEngine (Simulation.engine (.int 1)) bound
            (Simulation.depot items {}) = (.ok activations, reached) := by
  let _ : Host := .customary
  intro source depot
  have plain : accepting.hooks.Plain := ⟨fun _ _ => rfl, fun _ => trivial, fun _ => trivial⟩
  have accepts (key : Key) : accepting.hooks.Accepts key :=
    fun _ before _ => ⟨{}, before, rfl, rfl⟩
  have whole : ∀ item ∈ source ++ [Event.activate [true]].flatMap Event.items,
      item.HasWholeSize := by
    intro item member
    have size : ∀ item ∈ source, item.size = .int 0 := by simp [source]
    exact ⟨0, size item (by simpa [Event.items] using member)⟩
  have two : depot.flow.source.length = 2 := by decide +kernel
  have one : depot.shelf.bins.length = 1 := by decide +kernel
  have issues : depot.shelf.thresholds.inconsistencies.toOption.map List.length = some 0 := by
    decide +kernel
  have consistent : depot.shelf.thresholds.inconsistencies = .ok [] := by
    rcases answer : depot.shelf.thresholds.inconsistencies with fault | found
    · rw [answer] at issues
      cases issues
    · rw [answer] at issues
      exact congrArg Except.ok (List.length_eq_zero_iff.1 (Option.some.inj issues))
  have isDepot : depot = run accepting
    (opening { source, sinks := Flow.sinksFor [] } {} { minEntries := 2 })
    [.activate [true]] := rfl
  have quiesces := bounded_quiescence.1 accepting 1 source {} { minEntries := 2 }
    [.activate [true]] (fun _ clock => clock) plain accepts rfl (by decide) whole
  rw [← isDepot] at quiesces
  have steps := quiesces consistent (by decide +kernel) (by decide +kernel)
  rw [two, one] at steps
  have drawn : (({} : Simulation).drawItems 0 ⟨7⟩ 2).toOption.map List.length = some 2 := by
    decide +kernel
  have light : (({} : Simulation).drawItems 0 ⟨7⟩ 2).toOption.map (fun items =>
      Decimal.isWritable (items.map Item.bytes).sum) = some true := by
    decide +kernel
  rcases draws : ({} : Simulation).drawItems 0 ⟨7⟩ 2 with fault | items
  · rw [draws] at drawn
    cases drawn
  · rw [draws] at drawn light
    have length : items.length = 2 := Option.some.inj drawn
    have stops := bounded_quiescence.2 {} ⟨7⟩ 2 items {} 1 draws rfl (by decide)
      (Option.some.inj light)
    rw [length] at stops
    exact ⟨two, one, steps, items, rfl, stops⟩

end Engine

end ItemBinning
