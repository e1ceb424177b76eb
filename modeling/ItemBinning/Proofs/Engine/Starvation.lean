import ItemBinning.Proofs.Engine.Turnover
import ItemBinning.Hook.Grouping
import ItemBinning.Hook.Processor

/-!
# Waiting behind a group that fails

When the processor fails on every bin of a group, the items of the group return to the
front of the source, and all others wait behind them.  What is taken of the others never
returns.  An activation takes some of them unless it found items of the group only and then
had no room for another bin.  A chunk that is greater than the group reaches past it, and
if there may be as many bins as items then there is room for all.
-/

namespace ItemBinning

open Depot

namespace Engine

section Turnover

variable {engine : Engine} {size : Int} {known : List String} {past : Flow}
  {source pulled returned rest : List Item} {before after : Depot} {activation : Activation}
  {keyOf : Item → Key} {failing : Key}

/-- Items are given the key of their group. -/
def GivenBy (keyOf : Item → Key) (source : List Item) (key : Key) (item : Item) : Prop :=
  key = keyOf item ∧ item ∈ source

/-- The items that are not of the failing group. -/
def outside (keyOf : Item → Key) (failing : Key) (items : List Item) : List Item :=
  items.filter fun item => decide (keyOf item ≠ failing)

theorem outside_eq_nil {items : List Item} :
    outside keyOf failing items = [] ↔ ∀ item ∈ items, keyOf item = failing := by
  simp [outside]

/-- The failing group held up an activation: it took in items of the group, and nothing
else, and then there was no room for another bin. -/
structure HeldUp (engine : Engine) (keyOf : Item → Key) (failing : Key) (depot : Depot) :
    Prop where
  full : ((takeIn engine (alwaysScheduled depot)).final depot).shelf.hasRoom = .ok false
  pulled : ∃ pulled, pulled ≠ [] ∧
    depot.flow.source =
      pulled ++ ((takeIn engine (alwaysScheduled depot)).final depot).flow.source ∧
    ∀ item ∈ pulled, keyOf item = failing

variable (distinct : (source.map Item.id).Nodup)
  (accepts : ∀ key, key ≠ failing → engine.hooks.Accepts key)
  (turnover : Turnover engine size (Flow.Since known past (· ∈ source)) (GivenBy keyOf source)
    pulled returned rest before activation after)

include distinct accepts turnover

/-- Only items of the failing group return. -/
theorem Turnover.returned_failing : ∀ item ∈ returned, keyOf item = failing := by
  intro item back
  obtain ⟨depot, bin, fit, notAccepted, other, among, sameId⟩ := turnover.unaccepted item back
  obtain ⟨key, inGroup, _, areGiven⟩ := fit.grouped
  obtain ⟨isKey, fromSource⟩ := areGiven other among
  have waits : item ∈ after.flow.source := by
    rw [turnover.remains]
    exact List.mem_append_left _ back
  -- ids are distinct, so the item is the one that was given the key
  have same : other = item :=
    List.inj_on_of_nodup_map distinct fromSource
      (turnover.poised.sound.flow.2.2.waiting item waits) sameId
  rw [← same, ← isKey]
  by_contra apart
  exact notAccepted (accepts key apart bin depot inGroup)

theorem Turnover.outside_after :
    outside keyOf failing after.flow.source = outside keyOf failing rest := by
  rw [turnover.remains, outside, List.filter_append]
  exact congrArg (· ++ _)
    (outside_eq_nil.2 (turnover.returned_failing distinct accepts))

theorem Turnover.outside_before :
    outside keyOf failing before.flow.source =
      outside keyOf failing pulled ++ outside keyOf failing after.flow.source := by
  rw [turnover.outside_after distinct accepts, turnover.source]
  exact List.filter_append ..

omit distinct accepts in
/-- If there is room for a bin, something is taken in. -/
theorem Turnover.pulled_ne_nil (positive : 1 ≤ size) (room : before.shelf.hasRoom = .ok true)
    (waits : before.flow.source ≠ []) : pulled ≠ [] := by
  rintro rfl
  have nothing := List.take_eq_nil_iff.1 (List.prefix_nil.1 (turnover.chunk room))
  exact waits (nothing.resolve_left (by omega))

/-- Either some of the others were taken in or the activation was held up. -/
theorem Turnover.passes (positive : 1 ≤ size) (room : before.shelf.hasRoom = .ok true)
    (waiting : outside keyOf failing before.flow.source ≠ []) :
    (outside keyOf failing after.flow.source).length <
        (outside keyOf failing before.flow.source).length ∨
      HeldUp engine keyOf failing before := by
  have split := turnover.outside_before distinct accepts
  by_cases none : outside keyOf failing pulled = []
  · right
    constructor
    case full =>
      rcases turnover.full with empty | full
      · rw [split, none, turnover.outside_after distinct accepts, empty] at waiting
        exact absurd rfl waiting
      · exact full
    case pulled =>
      have waits : before.flow.source ≠ [] := fun empty =>
        waiting (congrArg (outside keyOf failing) empty)
      exact ⟨pulled, turnover.pulled_ne_nil positive room waits,
        by rw [turnover.taken, turnover.source], outside_eq_nil.1 none⟩
  · left
    rw [split, List.length_append]
    have some := List.length_pos_of_ne_nil none
    omega

omit accepts distinct in
/-- The first chunk goes beyond the items of the failing group. -/
theorem Turnover.reaches (single : (before.flow.source.map Item.id).Nodup)
    (fromSource : ∀ item ∈ before.flow.source, item ∈ source)
    (few : (source.countP fun item => decide (keyOf item = failing)) < size)
    (room : before.shelf.hasRoom = .ok true)
    (waiting : outside keyOf failing before.flow.source ≠ []) :
    outside keyOf failing pulled ≠ [] := by
  intro none
  have first := turnover.chunk room
  have allFailing : ∀ item ∈ before.flow.source.take size.toNat, keyOf item = failing :=
    fun item member => outside_eq_nil.1 none item (first.subset member)
  have counted : (before.flow.source.take size.toNat).length ≤
      source.countP fun item => decide (keyOf item = failing) := by
    rw [← List.countP_eq_length.2 fun item member => decide_eq_true (allFailing item member)]
    exact Nat.le_trans (List.Sublist.countP_le (List.take_sublist ..))
      (List.Subperm.countP_le _ (List.subperm_of_subset single.of_map fromSource))
  -- a chunk of failing items only is shorter than a chunk may be, so nothing else waits
  have whole : before.flow.source.take size.toNat = before.flow.source := by
    rw [List.length_take] at counted
    exact List.take_of_length_le (by omega)
  rw [whole] at allFailing
  exact waiting (outside_eq_nil.2 allFailing)

omit accepts distinct in
/-- With as many bins as there are items nothing is left to take in. -/
theorem Turnover.takes_all {most : Int}
    (isMost : before.shelf.thresholds.maxBinCount = .int most)
    (enough : before.shelf.binCount + before.flow.source.length ≤ most) : rest = [] := by
  rcases turnover.full with empty | full
  · exact empty
  · rw [← turnover.limit] at isMost
    rw [hasRoom_eq isMost] at full
    have crowd := turnover.crowd
    have length := congrArg List.length turnover.source
    rw [List.length_append] at length
    have notBelow := of_decide_eq_false (Except.ok.inj full)
    exact List.eq_nil_of_length_eq_zero (by omega)

end Turnover

section Room

variable {engine : Engine} {size : Int} {known : List String} {property : Flow → Prop}
  {given : Key → Item → Prop} (regular : engine.Regular size known property given)
include regular

/-- If there was room for a bin before an activation then there is afterwards. -/
theorem Turnover.room {pulled returned rest : List Item} {before after : Depot}
    {activation : Activation}
    (turnover : Turnover engine size property given pulled returned rest before activation after)
    (poised : before.Poised property given)
    (run : engine.activateFully before = (.ok activation, after))
    (room : before.shelf.hasRoom = .ok true) : after.shelf.hasRoom = .ok true := by
  obtain ⟨most, isMost, positive⟩ := poised.exists_most
  have activates : engine.activate (alwaysScheduled before) before = (.ok activation, after) :=
    run
  rw [hasRoom_eq isMost] at room
  have below := of_decide_eq_true (Except.ok.inj room)
  have spare := (activate_room poised.sound.arranged isMost positive regular.plain.leave
    activates turnover.carriedThrough).2.1 (by omega)
  rw [← turnover.thresholds] at isMost
  rw [hasRoom_eq isMost, decide_eq_true spare.1]

/-- There is room for a bin whenever activations begin. -/
theorem worked_room (times : Nat → Moment → Moment) {start : Depot}
    (poised : start.Poised property given) (none : start.ready = [])
    (room : start.shelf.hasRoom = .ok true) (turn : Nat) :
    (engine.worked times start turn).shelf.hasRoom = .ok true := by
  induction turn with
  | zero => exact room
  | succ turn ih =>
      obtain ⟨_, _, _, _, run, _, turnover⟩ := worked_turns regular times poised none turn
      have poisedThen := (worked_poised regular times poised none turn).1.atTime (times turn)
      exact turnover.room regular poisedThen run ih

end Room

section Runs

variable {engine : Engine} {size : Int} {known : List String} {past : Flow}
  {source : List Item} {keyOf : Item → Key} {failing : Key}
  (distinct : (source.map Item.id).Nodup)
  (accepts : ∀ key, key ≠ failing → engine.hooks.Accepts key)
  (regular : engine.Regular size known (Flow.Since known past (· ∈ source))
    (GivenBy keyOf source))
  (times : Nat → Moment → Moment) {start : Depot}
  (poised : start.Poised (Flow.Since known past (· ∈ source)) (GivenBy keyOf source))
  (none : start.ready = [])
include distinct accepts regular poised none

/-- What an activation took of the others never returns. -/
theorem worked_outside_suffix (turn : Nat) :
    outside keyOf failing (engine.worked times start (turn + 1)).flow.source <:+
      outside keyOf failing (engine.worked times start turn).flow.source := by
  obtain ⟨_, _, _, _, _, _, turnover⟩ := worked_turns regular times poised none turn
  exact ⟨_, (turnover.outside_before distinct accepts).symm⟩

/-- If chunks are greater than the failing group, every activation takes some of the others
until none are left. -/
theorem worked_outside_of_few
    (few : (source.countP fun item => decide (keyOf item = failing)) < size)
    (room : start.shelf.hasRoom = .ok true) (turn : Nat) :
    outside keyOf failing (engine.worked times start turn).flow.source = [] ∨
      (outside keyOf failing (engine.worked times start turn).flow.source).length + turn ≤
        start.flow.source.length := by
  induction turn with
  | zero => exact .inr (List.length_filter_le ..)
  | succ turn ih =>
      obtain ⟨_, _, _, _, _, _, turnover⟩ := worked_turns regular times poised none turn
      have since := (worked_poised regular times poised none turn).1.sound.flow
      have split := turnover.outside_before distinct accepts
      change outside keyOf failing (engine.worked times start turn).flow.source = _ at split
      rcases ih with empty | fewer
      -- once none of the others wait, none ever do
      · rw [empty] at split
        exact .inl (List.append_eq_nil_iff.1 split.symm).2
      · by_cases waiting : outside keyOf failing
          (engine.worked times start turn).flow.source = []
        · rw [waiting] at split
          exact .inl (List.append_eq_nil_iff.1 split.symm).2
        · right
          have reached := turnover.reaches (regular.single.source _ since)
            since.2.2.waiting few (worked_room regular times poised none room turn) waiting
          have some := List.length_pos_of_ne_nil reached
          rw [split, List.length_append] at fewer
          omega

/-- If there may be as many bins as items, the first activation takes all. -/
theorem worked_outside_of_many {most : Int}
    (isMost : start.shelf.thresholds.maxBinCount = .int most)
    (enough : start.shelf.binCount + start.flow.source.length ≤ most) (turn : Nat) :
    outside keyOf failing (engine.worked times start (turn + 1)).flow.source = [] := by
  induction turn with
  | zero =>
      obtain ⟨_, _, _, _, _, _, turnover⟩ := worked_turns regular times poised none 0
      rw [turnover.outside_after distinct accepts, turnover.takes_all isMost enough]
      rfl
  | succ turn ih =>
      have suffix := @worked_outside_suffix _ _ _ _ _ _ failing distinct accepts regular times
        _ poised none (turn + 1)
      rw [ih] at suffix
      exact List.suffix_nil.1 suffix

end Runs

end Engine

/-- The group key hook gives the item its key, whatever the depot shows. -/
def Hooks.Keys (hooks : Hooks) (keyOf : Item → Key) (item : Item) : Prop :=
  ∀ depot : Depot, ∃ group reached,
    (hooks.groupKey item).run depot = (.ok group, reached) ∧ group.key? = some (keyOf item)

/-- Plain hooks that give each item of a source a key.  The processor fails on all bins of
one group and accepts all others. -/
structure Hooks.FailOn (hooks : Hooks) (keyOf : Item → Key) (failing : Key)
    (source : List Item) : Prop where
  plain : hooks.Plain
  keys : ∀ item ∈ source, hooks.Keys keyOf item
  refuses : hooks.Refuses failing
  accepts : ∀ key, key ≠ failing → hooks.Accepts key

namespace Engine

theorem regular_failOn {engine : Engine} {size : Int} {known : List String}
    {keyOf : Item → Key} {failing : Key} {source : List Item}
    (fail : engine.hooks.FailOn keyOf failing source) (isSize : engine.chunkSize = .int size)
    (positive : 1 ≤ size) (whole : ∀ item ∈ source, item.HasWholeSize)
    (success : successRelationship ∈ known) (failure : failureRelationship ∈ known)
    (past : Flow) :
    engine.Regular size known (Flow.Since known past (· ∈ source)) (GivenBy keyOf source) := by
  refine regular_since fail.plain isSize positive success failure past ?_
    (fun _ item isGiven => whole item isGiven.2) ?_
  · intro item fromSource depot group reached key run isKey
    obtain ⟨_, _, ran, named⟩ := fail.keys item fromSource depot
    rw [run] at ran
    cases ran
    rw [named] at isKey
    cases isKey
    exact ⟨rfl, fromSource⟩
  · intro depot bin fit
    obtain ⟨key, inGroup, _⟩ := fit.grouped
    by_cases same : key = failing
    · exact .inr (fail.refuses bin depot (same ▸ inGroup))
    · exact .inl (fail.accepts key same bin depot inGroup)

/-- A group on which the processor fails does not hold up the others if a chunk is greater
than the group or there may be as many bins as items.  In any case activations do not fail,
others that were taken off the source never return, and an activation takes some of them
unless it took in items of the failing group only and there was no room for another bin. -/
theorem passes_failing_group (engine : Engine) (size : Int)
    (isSize : engine.chunkSize = .int size) (positive : 1 ≤ size) (source : List Item)
    (distinct : (source.map Item.id).Nodup) (whole : ∀ item ∈ source, item.HasWholeSize)
    (keyOf : Item → Key) (failing : Key) (fail : engine.hooks.FailOn keyOf failing source)
    (relationships : List String)
    (success : successRelationship ∈ (Flow.sinksFor relationships).keys)
    (failure : failureRelationship ∈ (Flow.sinksFor relationships).keys) (clock : Moment)
    (policy : Policy) (consistent : policy.inconsistencies = [])
    (times : Nat → Moment → Moment) :
    let start := opening { source, sinks := Flow.sinksFor relationships } clock policy
    let others turn := outside keyOf failing (engine.worked times start turn).flow.source
    (∀ turn, ∃ activation, engine.reported times start turn = .ok activation ∧
        activation.cancelled = false) ∧
      (∀ turn, others (turn + 1) <:+ others turn) ∧
      (∀ turn, others turn ≠ [] → (others (turn + 1)).length < (others turn).length ∨
        engine.HeldUp keyOf failing ((engine.worked times start turn).atTime (times turn))) ∧
      (((source.countP fun item => decide (keyOf item = failing)) < size ∨
          source.length ≤ policy.maxBinCount) →
        ∀ turn, source.length ≤ turn → others turn = []) := by
  intro start others
  have regular := regular_failOn fail isSize positive whole success failure start.flow
  have poised : start.Poised (Flow.Since _ start.flow (· ∈ source)) (GivenBy keyOf source) :=
    poised_opening clock consistent (Flow.since_start distinct relationships fun _ => id)
      ⟨whole, nofun, nofun⟩ fun _ => rfl
  have turns := worked_turns regular times poised rfl
  obtain ⟨most, isMost, least⟩ := poised.exists_most
  have room : start.shelf.hasRoom = .ok true := by
    rw [hasRoom_eq isMost, decide_eq_true]
    exact Int.lt_of_lt_of_le Int.zero_lt_one least
  have rooms := worked_room regular times poised rfl room
  have suffix := worked_outside_suffix distinct fail.accepts regular times poised rfl
  refine ⟨fun turn => ?_, suffix, fun turn waiting => ?_, fun reaches turn enough => ?_⟩
  · obtain ⟨_, _, _, activation, _, reported, turnover⟩ := turns turn
    exact ⟨activation, reported, turnover.carriedThrough⟩
  · obtain ⟨_, _, _, _, _, _, turnover⟩ := turns turn
    exact turnover.passes distinct fail.accepts positive (rooms turn) waiting
  · rcases reaches with few | many
    · rcases worked_outside_of_few distinct fail.accepts regular times poised rfl few room turn
        with empty | fewer
      · exact empty
      · change (others turn).length + turn ≤ source.length at fewer
        exact List.eq_nil_of_length_eq_zero (by omega)
    · cases turn with
      | zero =>
          have empty : source = [] := List.eq_nil_of_length_eq_zero (Nat.le_zero.1 enough)
          subst empty
          rfl
      | succ turn =>
          refine worked_outside_of_many distinct fail.accepts regular times poised rfl rfl ?_ turn
          change ((0 : Nat) : Int) + source.length ≤ policy.maxBinCount
          omega

/-- Each item is a group of its own, and the processor fails on the item `f`. -/
def refusing [Host] (chunkSize : Number) : Engine where
  hooks := {
    groupKey := Grouping.identifier.script
    process := (Processor.byGroup [("f", .finish .refuse)] (.finish (.outcome .empty))).script }
  chunkSize

theorem process_refusing [Host] (chunkSize : Number) (bin : BinId) :
    (refusing chunkSize).hooks.process bin = .look fun depot =>
      match (depot.bin bin).group.key? with
      | some key =>
          if key = .named "f" then Ending.refuse.script else (Ending.outcome .empty).script
      | none => .fail .wrongType :=
  rfl

theorem failOn_refusing [Host] (chunkSize : Number) (source : List Item) :
    (refusing chunkSize).hooks.FailOn (fun item => .named item.id) (.named "f") source where
  plain := by
    refine ⟨fun _ _ => rfl, fun _ => trivial, fun bin => ?_⟩
    rw [process_refusing]
    intro depot
    dsimp only
    split
    · split <;> trivial
    · trivial
  keys item _ depot := ⟨.text item.id, depot, rfl, rfl⟩
  refuses bin depot isKey := by
    refine ⟨.hookFailure, depot, ?_, nofun⟩
    simp only [process_refusing, Script.run, isKey, if_pos]
    rfl
  accepts key apart bin depot isKey := by
    refine ⟨{}, depot, ?_, rfl⟩
    simp only [process_refusing, Script.run, isKey, if_neg apart]
    rfl

/-- An item may wait for good: it follows one that fails, there is room for one bin, and
chunks have one item. -/
theorem held_up_for_good :
    ¬ ∀ (engine : Engine) (size : Int) (source : List Item) (keyOf : Item → Key)
      (failing : Key) (policy : Policy),
      engine.chunkSize = .int size → 1 ≤ size → (source.map Item.id).Nodup →
      (∀ item ∈ source, item.HasWholeSize) → engine.hooks.FailOn keyOf failing source →
      policy.inconsistencies = [] →
      let start := opening { source, sinks := Flow.sinksFor [] } {} policy
      ∀ item ∈ (engine.worked (fun _ clock => clock) start
        (2 * source.length + 1)).flow.source, keyOf item = failing := by
  let _ : Host := .customary
  intro always
  obtain ⟨source, isSource⟩ : ∃ source : List Item, source = [{ id := "f" }, { id := "g" }] :=
    ⟨_, rfl⟩
  have allFailing := always (refusing (.int 1)) 1 source (fun item => .named item.id)
    (.named "f") { maxBinCount := 1 } rfl (by decide) (by rw [isSource]; decide)
    (by simp [isSource, Item.HasWholeSize, Value.IsWhole]) (failOn_refusing _ _) rfl
  have waits : ((refusing (.int 1)).worked (fun _ clock => clock)
      (opening { source, sinks := Flow.sinksFor [] } {} { maxBinCount := 1 })
      (2 * source.length + 1)).flow.source.any (fun item => item.id = "g") = true := by
    rw [isSource]
    decide +kernel
  obtain ⟨item, member, isG⟩ := List.any_eq_true.1 waits
  have isF := allFailing item member
  rw [of_decide_eq_true isG] at isF
  exact absurd isF (by decide)

/-- Chunks of two items reach past the one that fails. -/
theorem passes_refused_item :
    letI : Host := .customary
    let source : List Item := [{ id := "f" }, { id := "g" }]
    let keyOf : Item → Key := fun item => .named item.id
    let start := opening { source, sinks := Flow.sinksFor [] } {} { maxBinCount := 1 }
    (refusing (.int 2)).hooks.FailOn keyOf (.named "f") source ∧
      ∀ turn, 2 ≤ turn → outside keyOf (.named "f")
        ((refusing (.int 2)).worked (fun _ clock => clock) start turn).flow.source = [] := by
  let _ : Host := .customary
  intro source keyOf start
  have fail := failOn_refusing (.int 2) source
  have passes := passes_failing_group (refusing (.int 2)) 2 rfl (by decide) source (by decide)
    (by simp [source, Item.HasWholeSize]) keyOf (.named "f") fail [] (by decide) (by decide) {}
    { maxBinCount := 1 } rfl (fun _ clock => clock)
  exact ⟨fail, passes.2.2.2 (.inl (by decide))⟩

end Engine

end ItemBinning
