import ItemBinning.Proofs.Engine.Endurance
import ItemBinning.Proofs.Engine.Isolation
import ItemBinning.Proofs.Engine.Outcomes
import ItemBinning.Proofs.Engine.Progress
import ItemBinning.Proofs.Flow.Balance

/-!
# What one activation turns over

With hooks that leave items and bins to the engine, an activation of a consistent policy
never fails.  It takes items off the front of the source, and none of them is counted
twice: the bins that are open afterwards, together with those that it moved to the queue,
are no more than the bins that were open before and the items that it binned.  Only what
the processor refuses comes back.
-/

namespace ItemBinning

open Depot

/-- The hooks leave items and bins to the engine: items are taken as they are, the group
key hook heeds only the item that it is applied to, and the processor leaves all items and
bins where they are. -/
structure Hooks.Plain (hooks : Hooks) : Prop where
  preprocess : ∀ item session, hooks.preprocess item session = .done (some item)
  groupKey : ∀ item, (hooks.groupKey item).Uses (Call.Heeds item.id)
  process : ∀ bin, (hooks.process bin).Uses Call.Gentle

namespace Hooks.Plain

variable {hooks : Hooks}

theorem heed (plain : hooks.Plain) : hooks.Heed where
  preprocess item session := by
    rw [plain.preprocess]
    trivial
  groupKey := plain.groupKey
  versions item session depot version reached run := by
    rw [plain.preprocess] at run
    cases run
    rfl

theorem gentle (plain : hooks.Plain) : hooks.Gentle where
  preprocess item session := (plain.heed.preprocess item session).mono fun _ => (·.gentle)
  groupKey item := (plain.groupKey item).mono fun _ => (·.gentle)

theorem behave (plain : hooks.Plain) : hooks.Behave fun _ => False where
  preprocess item session :=
    (plain.gentle.preprocess item session).mono fun _ gentle => gentle.permitted _ none
  groupKey item := (plain.gentle.groupKey item).mono fun _ gentle => gentle.permitted _ none
  process bin := (plain.process bin).mono fun _ gentle => gentle.permitted _ (some bin)
  versions item session depot version reached _ whole run := by
    rw [plain.preprocess] at run
    cases run
    exact whole

theorem leave (plain : hooks.Plain) : hooks.LeavePolicy where
  preprocess item session :=
    (plain.gentle.preprocess item session).mono fun _ gentle =>
      ⟨gentle.permitted _ none, gentle.leavesPolicy⟩
  groupKey item := (plain.gentle.groupKey item).mono fun _ gentle =>
    ⟨gentle.permitted _ none, gentle.leavesPolicy⟩
  process bin := (plain.process bin).mono fun _ => (·.leavesPolicy)

end Hooks.Plain

/-- The processor has an outcome for the bin, and leaves its session to the engine. -/
def Hooks.AcceptsBin (hooks : Hooks) (depot : Depot) (bin : BinId) : Prop :=
  ∃ outcome reached, (hooks.process bin).run depot = (.ok (some outcome), reached) ∧
    outcome.committed = false

/-- The processor raises a fault on the bin, and not the recoverable one. -/
def Hooks.RefusesBin (hooks : Hooks) (depot : Depot) (bin : BinId) : Prop :=
  ∃ fault reached, (hooks.process bin).run depot = (.error fault, reached) ∧
    fault ≠ .recoverable

/-- The processor accepts every bin of the group. -/
def Hooks.Accepts (hooks : Hooks) (key : Key) : Prop :=
  ∀ bin (depot : Depot), (depot.bin bin).group.key? = some key → hooks.AcceptsBin depot bin

/-- The processor refuses every bin of the group. -/
def Hooks.Refuses (hooks : Hooks) (key : Key) : Prop :=
  ∀ bin (depot : Depot), (depot.bin bin).group.key? = some key → hooks.RefusesBin depot bin

namespace Depot

variable {property : Flow → Prop} {session : SessionId} {before after : Depot}
  {given : Key → Item → Prop}

/-- A bin whose size is that of its contents and whose session holds just these.  All of
them were given the key of its group, and so was some item at least. -/
structure Fit (given : Key → Item → Prop) (depot : Depot) (bin : BinId) : Prop where
  isBin : bin < depot.bins.next
  weighs : (depot.bin bin).Weighs
  held : (depot.binSession bin).ids = (depot.bin bin).contents.map Item.id
  grouped : ∃ key, (depot.bin bin).group.key? = some key ∧ (∃ item, given key item) ∧
    ∀ item ∈ (depot.bin bin).contents, given key item

/-- All bins that are open or queued fit. -/
def AllFit (given : Key → Item → Prop) (depot : Depot) : Prop :=
  ∀ bin, depot.Stored bin → depot.Fit given bin

theorem AllFit.intact (fit : before.AllFit given) (intact : before.Intact after) :
    after.AllFit given := by
  intro bin stored
  obtain ⟨isBin, weighs, held, grouped⟩ := fit bin (intact.stored bin stored)
  constructor
  · exact Nat.lt_of_lt_of_le isBin intact.next
  · exact weighs.of_same (intact.contents bin stored) (intact.size bin stored)
  · rw [intact.held bin stored, intact.contents bin stored]
    exact held
  · rw [(intact.matching bin isBin).group, intact.contents bin stored]
    exact grouped

theorem Stowed.fit {known : List String} (single : Flow.Single known property) {key : Key}
    {item : Item} {number : BinId} (isGiven : given key item) (whole : item.HasWholeSize)
    (atWork : before.AtWork property session)
    (stowed : before.Stowed session key item number after) (fit : before.AllFit given) :
    after.Fit given number := by
  have absent : item.id ∉ (before.flow.session (after.bin number).session).ids :=
    single.held _ _ _ _ atWork.sound.flow stowed.held stowed.apart
  have old : (before.flow.session (after.bin number).session).ids =
      (before.bin number).contents.map Item.id ∧
        ∀ other ∈ (before.bin number).contents, given key other := by
    rcases stowed.joined_or_new with ⟨joined, matching⟩ | ⟨fresh, unused⟩
    · obtain ⟨_, _, held, other, isOther, _, areGiven⟩ := fit number joined
      rw [← matching.group, stowed.keyed, Option.some.injEq] at isOther
      rw [matching.session, isOther]
      exact ⟨held, areGiven⟩
    · rw [fresh, unused]
      exact ⟨rfl, nofun⟩
  refine ⟨stowed.isBin, stowed.weighs whole fun stored => (fit number stored).weighs, ?_, key,
    stowed.keyed, ⟨item, isGiven⟩, ?_⟩
  · rw [stowed.taker, if_neg absent, stowed.contents, List.map_append, old.1]
    rfl
  · rw [stowed.contents, List.forall_mem_append]
    exact ⟨old.2, by simpa using isGiven⟩

theorem endures_fit {known : List String} (single : Flow.Single known property)
    (whole : ∀ key item, given key item → item.HasWholeSize) :
    Endures property given (AllFit given) where
  intact _ _ intact fit := fit.intact intact
  stowed session key item number before after isGiven atWork stowed fit := by
    intro bin stored
    by_cases same : bin = number
    · subst same
      exact stowed.fit single isGiven (whole key item isGiven) atWork fit
    · have old := ((stowed.stored_iff bin).1 stored).resolve_right same
      obtain ⟨isBin, weighs, held, grouped⟩ := fit bin old
      have alike := stowed.others bin isBin same
      constructor
      · exact Nat.lt_of_lt_of_le isBin stowed.next
      · exact weighs.of_same alike.contents alike.size
      · rw [stowed.binSession_of_ne atWork old same, alike.contents]
        exact held
      · rw [alike.matching.group, alike.contents]
        exact grouped

/-- A bin of the queue that fits is packed. -/
theorem Fit.packed {known : List String} {bin : BinId} (fit : before.Fit given bin)
    (coherent : before.flow.Coherent known) (sound : before.Sound property [])
    (queued : bin ∈ before.ready) : before.Packed bin where
  isBin := fit.isBin
  isSession := sound.arranged.registered.sessions bin fit.isBin
  ready := sound.queued.ready bin queued
  current := fit.held
  pulled := (coherent.sessions _).keys.trans fit.held

theorem Packed.adorned {bin : BinId} (packed : before.Packed bin)
    (adorned : before.Adorned after) : after.Packed bin where
  isBin := by
    rw [adorned.bins]
    exact packed.isBin
  isSession := by
    rw [adorned.bin]
    exact Nat.lt_of_lt_of_le packed.isSession adorned.flow.sessions
  ready := by
    rw [adorned.bin]
    exact packed.ready
  current := by
    rw [adorned.bin, ← packed.current]
    exact adorned.ids_binSession bin
  pulled := by
    rw [adorned.bin, ← packed.pulled]
    exact congrArg Table.keys (adorned.pulled_binSession bin)

/-- How many bins are open or queued. -/
def stock (depot : Depot) : Nat :=
  depot.shelf.binCount + depot.ready.length

theorem Stowed.stock_le {key : Key} {item : Item} {number : BinId}
    (stowed : before.Stowed session key item number after) :
    after.stock ≤ before.stock + 1 := by
  unfold stock
  rcases stowed.place with joined | filed | enqueued
  · rw [joined.shelf, joined.ready]
    omega
  · rw [filed.shelf, filed.ready]
    dsimp only
    omega
  · rw [enqueued.shelf, enqueued.ready, List.length_append, List.length_singleton]
    omega

theorem Hauled.stock_le {cargo : List Load}
    (hauled : Hauled property session cargo before after) :
    after.stock ≤ before.stock + cargo.length := by
  induction hauled with
  | still atWork still =>
      unfold stock
      rw [still.shelf, still.ready]
      exact Nat.le_refl _
  | stowed atWork stowed => exact stowed.stock_le
  | trans _ _ first second =>
      rw [List.length_append]
      omega

/-- A depot whose bins fit, under consistent thresholds. -/
structure Poised (property : Flow → Prop) (given : Key → Item → Prop) (depot : Depot) :
    Prop where
  sound : depot.Sound property []
  fit : depot.AllFit given
  consistent : depot.shelf.thresholds.inconsistencies = .ok []

/-- The depot when the clock was moved. -/
def atTime (depot : Depot) (move : Moment → Moment) : Depot :=
  { depot with clock := move depot.clock }

theorem Poised.atTime (poised : before.Poised property given) (move : Moment → Moment) :
    (before.atTime move).Poised property given :=
  have intact : before.Intact (before.atTime move) :=
    .of_same rfl (Nat.le_refl _) (fun _ => id) (fun _ => id) fun _ _ => rfl
  ⟨poised.sound.of_same rfl rfl rfl rfl rfl, poised.fit.intact intact, poised.consistent⟩

theorem poised_opening {flow : Flow} (clock : Moment) {policy : Policy}
    (consistent : policy.inconsistencies = []) (holds : property flow)
    (whole : flow.Everywhere Item.HasWholeSize)
    (empty : ∀ session, (flow.session session).ids = []) :
    (opening flow clock policy).Poised property given where
  sound := Engine.sound_opening clock policy holds whole empty
  fit := by rintro bin (⟨⟨⟩⟩ | ⟨⟨⟩⟩)
  consistent := policy.inconsistencies_thresholds.trans (congrArg Except.ok consistent)

/-- Consistent thresholds let some bin be open. -/
theorem Poised.exists_most (poised : before.Poised property given) :
    ∃ most : Int, before.shelf.thresholds.maxBinCount = .int most ∧ 1 ≤ most := by
  obtain ⟨most, isMost⟩ := poised.sound.arranged.thresholds.maxBinCount
  refine ⟨most, isMost, ?_⟩
  by_contra below
  have noBins : (Value.int most).isAtMost (.int 0) = .ok true := by
    rw [Value.isAtMost_int, decide_eq_true (by omega)]
  have consistent := poised.consistent
  unfold Thresholds.inconsistencies at consistent
  rw [isMost, noBins] at consistent
  dsimp only at consistent
  generalize Thresholds.issueIf _ _ = sizes at consistent
  generalize Thresholds.issueIf _ _ = entries at consistent
  generalize Thresholds.issueIf _ _ = noEntries at consistent
  cases sizes <;> cases entries <;> cases noEntries <;>
    simp [Thresholds.issueIf, Except.map, bind, Except.bind, pure, Except.pure] at consistent

/-- Items were pulled from the front of the source and some of them were binned. -/
structure TookIn (property : Flow → Prop) (given : Key → Item → Prop) (pulled : List Item)
    (binned : Nat) (before after : Depot) : Prop where
  poised : after.Poised property given
  source : before.flow.source = pulled ++ after.flow.source
  atMost : binned ≤ pulled.length
  stock : after.stock ≤ before.stock + binned
  thresholds : after.shelf.thresholds = before.shelf.thresholds

theorem TookIn.refl (poised : before.Poised property given) :
    TookIn property given [] 0 before before :=
  ⟨poised, rfl, Nat.le_refl _, Nat.le_refl _, rfl⟩

theorem TookIn.trans {first second third : Depot} {pulled more : List Item}
    {binned further : Nat} (early : TookIn property given pulled binned first second)
    (late : TookIn property given more further second third) :
    TookIn property given (pulled ++ more) (binned + further) first third where
  poised := late.poised
  source := by rw [early.source, late.source, List.append_assoc]
  atMost := by
    rw [List.length_append]
    exact Nat.add_le_add early.atMost late.atMost
  stock := by
    have := early.stock
    have := late.stock
    omega
  thresholds := late.thresholds.trans early.thresholds

end Depot

/-- Whenever the group key hook answers a key for the item, the item is given that key. -/
def Hooks.Gives (hooks : Hooks) (given : Key → Item → Prop) (item : Item) : Prop :=
  ∀ (depot : Depot) group reached key,
    (hooks.groupKey item).run depot = (.ok group, reached) → group.key? = some key →
      given key item

theorem Verdict.mem_of_mem_returns {verdict : Verdict} {pulled : List Item} {item : Item}
    (back : item ∈ verdict.returns pulled) : item ∈ pulled := by
  cases verdict with
  | rolledBack => exact back
  | processed | failed => cases back

namespace Engine

variable {engine : Engine} {known : List String} {property : Flow → Prop}
  {given : Key → Item → Prop}

theorem classify_gives {hooks : Hooks} (plain : hooks.Plain) (session : SessionId) {item : Item}
    (gives : hooks.Gives given item) :
    (classify hooks session item).Meets (fun _ => True)
      (fun placed _ => given placed.2.2 placed.1) fun _ _ => True := by
  have taken : (hooks.preprocess item session).run.Meets (fun _ => True)
      (fun version _ => version = some item) fun _ _ => True := by
    rw [plain.preprocess]
    exact Act.Meets.pure fun _ _ => rfl
  refine taken.bind fun version => ?_
  cases version with
  | none => exact Act.Meets.fail fun _ _ => trivial
  | some version =>
      have keyed : (hooks.groupKey version).run.Meets (fun _ => some version = some item)
          (fun group _ => ∀ key, group.key? = some key → given key version)
          fun _ _ => True := by
        refine Act.Meets.of_runs ?_ fun _ _ _ _ _ => trivial
        rintro depot group reached ⟨⟩ run key
        exact gives depot group reached key run
      refine keyed.bind fun group => ?_
      cases group.key? with
      | none => exact Act.Meets.fail fun _ _ => trivial
      | some key => exact Act.Meets.pure fun _ areGiven => areGiven key rfl

theorem sortItems_gives {hooks : Hooks} (plain : hooks.Plain) (session : SessionId)
    (items : List Item) (gives : ∀ item ∈ items, hooks.Gives given item) :
    (sortItems hooks session items).Meets (fun _ => True)
      (fun findings _ => ∀ load ∈ loads findings, given load.1 load.2) fun _ _ => True := by
  induction items with
  | nil => exact Act.Meets.pure fun _ _ => nofun
  | cons item rest ih =>
      rw [List.forall_mem_cons] at gives
      have sorted : (sortItem hooks session item).Meets (fun _ => True)
          (fun finding _ => ∀ load, finding.load? = some load → given load.1 load.2)
          fun _ _ => True := by
        refine sortItem_meets ((classify_gives plain session gives.1).weaken (fun _ => id) ?_
          fun _ _ => id) (fun _ => Act.Meets.anything) fun _ => Act.Meets.modify fun _ _ => nofun
        rintro placed _ isGiven _ ⟨⟩
        exact isGiven
      rw [sortItems_cons]
      refine sorted.bind fun finding depot isGiven => ?_
      refine ((ih gives.2).bind fun findings => Act.Meets.pure ?_) depot trivial
      intro _ areGiven load among
      obtain ⟨other, member, isLoad⟩ := mem_loads_iff.1 among
      rcases List.mem_cons.1 member with rfl | later
      · exact isGiven load isLoad
      · exact areGiven load (mem_loads_iff.2 ⟨other, later, isLoad⟩)

/-- The hooks are plain and the chunks are of a positive size, ids are single, success and
failure have sinks, the items that wait are given their keys, what is given one has a whole
size, and the processor accepts or refuses each bin that fits. -/
structure Regular (engine : Engine) (size : Int) (known : List String)
    (property : Flow → Prop) (given : Key → Item → Prop) : Prop where
  plain : engine.hooks.Plain
  isSize : engine.chunkSize = .int size
  positive : 1 ≤ size
  single : Flow.Single known property
  success : successRelationship ∈ known
  failure : failureRelationship ∈ known
  gives : ∀ flow, property flow → ∀ item ∈ flow.source, engine.hooks.Gives given item
  whole : ∀ key item, given key item → item.HasWholeSize
  answers : ∀ (depot : Depot) bin, depot.Fit given bin →
    engine.hooks.AcceptsBin depot bin ∨ engine.hooks.RefusesBin depot bin

/-- An engine stays regular whatever it takes off the source. -/
theorem regular_since {engine : Engine} (plain : engine.hooks.Plain) {size : Int}
    (isSize : engine.chunkSize = .int size) (positive : 1 ≤ size)
    (success : successRelationship ∈ known) (failure : failureRelationship ∈ known)
    (past : Flow) {allowed : Item → Prop}
    (gives : ∀ item, allowed item → engine.hooks.Gives given item)
    (whole : ∀ key item, given key item → item.HasWholeSize)
    (answers : ∀ (depot : Depot) bin, depot.Fit given bin →
      engine.hooks.AcceptsBin depot bin ∨ engine.hooks.RefusesBin depot bin) :
    engine.Regular size known (Flow.Since known past allowed) given where
  plain := plain
  isSize := isSize
  positive := positive
  single := Flow.single_since known past allowed
  success := success
  failure := failure
  gives _ since item waits := gives item (since.2.2.waiting item waits)
  whole := whole
  answers := answers

variable {size : Int} (regular : engine.Regular size known property given)
include regular

/-- A chunk whose versions were all stowed is taken in when the rest of it is delivered. -/
theorem Regular.tookIn {session : SessionId} {before pulled sorted stowed : Depot}
    {findings : List Finding} (poised : before.Poised property given)
    (drawn : before.Drawn session (findings.map Finding.item) pulled)
    (sorts : sortItems engine.hooks session (findings.map Finding.item) pulled =
      (.ok findings, sorted))
    (gathered : Gathered property session pulled (failures findings) sorted)
    (rights : ∀ finding ∈ findings, finding.Right (IsVersion finding.item))
    (moved : Moved property session sorted (loads findings) stowed)
    (sound : Sound property [] { stowed with flow := stowed.flow.delivered session }) :
    TookIn property given (findings.map Finding.item) (loads findings).length before
      { stowed with flow := stowed.flow.delivered session } := by
  obtain ⟨cargo, hauled, perm⟩ := moved.hauled
  have thresholds : stowed.shelf.thresholds = before.shelf.thresholds := by
    rw [moved.thresholds, gathered.adorned.shelf, drawn.shelf]
  have waiting : ∀ item ∈ findings.map Finding.item, engine.hooks.Gives given item := by
    intro item member
    refine regular.gives _ poised.sound.flow item ?_
    rw [drawn.source]
    exact List.mem_append_left _ member
  have areGiven := (sortItems_gives regular.plain session _ waiting).of_ok trivial sorts
  constructor
  case poised =>
    have complete := Session.unrouted_of_all
      (Moved.remaining regular.single.toCohering gathered drawn.pulled drawn.ids rights moved).2
    have fit : sorted.AllFit given :=
      (poised.fit.intact (drawn.intact poised.sound)).intact gathered.adorned.intact
    have stays := hauled.endures (endures_fit regular.single regular.whole)
      (fun load member => areGiven load (perm.subset member)) fit
    exact ⟨sound, stays.intact (delivered_intact moved.atWork.loose.notOwned complete),
      thresholds ▸ poised.consistent⟩
  case source =>
    rw [drawn.source, ← gathered.adorned.flow.source, ← hauled.source]
    rfl
  case atMost =>
    rw [List.length_map]
    exact List.length_filterMap_le _ _
  case stock =>
    have same : sorted.stock = before.stock := by
      unfold stock
      rw [gathered.adorned.shelf, gathered.adorned.ready, drawn.shelf, drawn.ready]
    rw [← perm.length_eq, ← same]
    exact hauled.stock_le
  case thresholds => exact thresholds

/-- A chunk is taken in from the front of the source, unless nothing waits. -/
theorem takeChunk_tookIn {before : Depot} (poised : before.Poised property given) :
    (before.flow.source = [] ∧ ∃ reached, takeChunk engine before = (.ok none, reached) ∧
        TookIn property given [] 0 before reached) ∨
      before.flow.source ≠ [] ∧ ∃ binned reached,
        takeChunk engine before = (.ok (some binned), reached) ∧
        TookIn property given (before.flow.source.take size.toNat) binned before reached := by
  have behave := regular.plain.behave
  have rules := intakeRules regular.single.carried (putKeeps_nothing _) behave.preprocess
    behave.groupKey behave.versions
  have kept := rules.takeChunk.final poised.sound
  obtain ⟨session, pulled, run, drawn⟩ := pullChunk_drawn regular.isSize
    (regular.single.source _ poised.sound.flow)
  generalize isChunk : before.flow.source.take size.toNat = chunk at run drawn
  have isEmpty : chunk = [] ↔ before.flow.source = [] := by
    have := regular.positive
    rw [← isChunk, List.take_eq_nil_iff, or_iff_right (by omega)]
  by_cases none : before.flow.source = []
  · have taken : takeChunk engine before = (.ok Option.none, pulled) := by
      unfold takeChunk
      rw [Act.bind_of_ok run, isEmpty.2 none]
      rfl
    rw [Act.final, taken] at kept
    refine .inl ⟨none, pulled, taken, ?_⟩
    rw [isEmpty.2 none] at drawn
    refine ⟨⟨kept, poised.fit.intact (drawn.intact poised.sound), ?_⟩, drawn.source,
      Nat.le_refl _, ?_, congrArg _ drawn.shelf⟩
    · rw [drawn.shelf]
      exact poised.consistent
    · unfold stock
      rw [drawn.shelf, drawn.ready]
      exact Nat.le_refl _
  · obtain ⟨atWork, whole⟩ := pullChunk_atWork regular.single.carried poised.sound run drawn
    obtain ⟨findings, sorted, stowed, sorts, bins, rfl, gathered, rights, moved⟩ :=
      binItems_moves regular.single.toCohering behave.versions regular.plain.heed
        regular.failure drawn atWork whole poised.consistent
    have taken : takeChunk engine before = (.ok (some (loads findings).length),
        { stowed with flow := stowed.flow.delivered session }) := by
      have chunk := binChunk_apply engine.hooks session (findings.map Finding.item) pulled
      rw [bins] at chunk
      unfold takeChunk
      rw [Act.bind_of_ok run]
      dsimp only
      rw [if_neg fun empty => none (isEmpty.1 (List.isEmpty_iff.1 empty)),
        Act.bind_of_ok chunk]
      rfl
    rw [Act.final, taken] at kept
    exact .inr ⟨none, _, _, taken, regular.tookIn poised drawn sorts gathered rights moved kept⟩

/-- An intake that is never stopped does not fail.  If there was room at first, it pulls
a whole chunk at least, or all that waits. -/
theorem intake_tookIn (spare : Nat) {depot : Depot} (poised : depot.Poised property given) :
    ∃ pulled binned unused reached,
      intake engine (List.replicate (depot.flow.source.length + 2 + spare) true) depot =
        (.ok (binned, List.replicate (unused + 1) true), reached) ∧
      TookIn property given pulled binned depot reached ∧
      (depot.shelf.hasRoom = .ok true → depot.flow.source.take size.toNat <+: pulled) := by
  generalize waits : depot.flow.source.length = waiting
  induction waiting using Nat.strongRecOn generalizing depot spare with
  | ind waiting ih =>
      have taken := takeChunk_tookIn regular poised
      rw [show waiting + 2 + spare = waiting + spare + 1 + 1 by omega, List.replicate_succ]
      rcases intake_answered engine true depot with
        ⟨fault, room, _⟩ | ⟨room, run⟩ | ⟨⟨⟩, _⟩ | ⟨fault, reached, _, takes, run⟩ |
          ⟨reached, _, takes, run⟩ | ⟨binned, reached, room, _, takes, run⟩
      · obtain ⟨answer, isAnswer⟩ :=
          exists_hasRoom poised.sound.arranged.thresholds depot.shelf.binCount
        rw [isAnswer] at room
        cases room
      · refine ⟨[], 0, waiting + spare + 1, depot, run _, .refl poised, fun hasRoom => ?_⟩
        rw [room] at hasRoom
        cases hasRoom
      · rcases taken with ⟨_, _, taken, _⟩ | ⟨_, _, _, taken, _⟩ <;>
          rw [takes] at taken <;> cases taken
      · rcases taken with ⟨none, _, taken, tookIn⟩ | ⟨_, _, _, taken, _⟩ <;>
          rw [takes] at taken <;> cases taken
        refine ⟨[], 0, waiting + spare, reached, run _, tookIn, fun _ => ?_⟩
        simp [none]
      · rcases taken with ⟨_, _, taken, _⟩ | ⟨some, _, _, taken, tookIn⟩ <;>
          rw [takes] at taken <;> cases taken
        have fewer : reached.flow.source.length < waiting := by
          have := regular.positive
          have := List.length_pos_iff.2 some
          have pulled := congrArg List.length tookIn.source
          rw [List.length_append, List.length_take] at pulled
          omega
        obtain ⟨more, further, unused, last, later, tookMore, _⟩ :=
          ih _ fewer (waiting + spare - reached.flow.source.length - 1) tookIn.poised rfl
        refine ⟨_, binned + further, unused, last, ?_, tookIn.trans tookMore,
          fun _ => List.prefix_append _ _⟩
        rw [run]
        rw [show reached.flow.source.length + 2 +
          (waiting + spare - reached.flow.source.length - 1) = waiting + spare + 1 by omega]
          at later
        rw [Act.bind_of_ok later]
        rfl

/-- The same holds for the intake of an activation that begins with an empty queue. -/
theorem takeIn_tookIn {depot : Depot} (poised : depot.Poised property given)
    (none : depot.ready = []) :
    ∃ pulled binned unused reached,
      takeIn engine (alwaysScheduled depot) depot =
        (.ok (binned, List.replicate (unused + 1) true), reached) ∧
      TookIn property given pulled binned depot reached ∧
      (depot.shelf.hasRoom = .ok true → depot.flow.source.take size.toNat <+: pulled) := by
  obtain ⟨room, isRoom⟩ :=
    exists_hasRoom poised.sound.arranged.thresholds depot.shelf.binCount
  have capacity : hasCapacity depot = (.ok room, depot) := by
    unfold hasCapacity
    rw [none, List.length_nil, Nat.add_zero, isRoom]
  unfold takeIn
  rw [Act.bind_of_ok capacity]
  cases room with
  | true => exact intake_tookIn regular 0 poised
  | false =>
      refine ⟨[], 0, depot.flow.source.length + 1, depot, rfl, .refl poised, fun hasRoom => ?_⟩
      rw [isRoom] at hasRoom
      cases hasRoom

omit regular

theorem Regular.chunks (regular : engine.Regular size known property given) :
    engine.chunkSize.isAtMostZero = false := by
  rw [regular.isSize, Number.isAtMostZero_int, decide_eq_false_iff_not]
  have := regular.positive
  omega

/-- An item that comes back is a version of one in a bin that fits, and the processor does
not accept the bin. -/
def Unaccepted (hooks : Hooks) (given : Key → Item → Prop) (item : Item) : Prop :=
  ∃ (depot : Depot) (bin : BinId), depot.Fit given bin ∧ ¬ hooks.AcceptsBin depot bin ∧
    ∃ other ∈ (depot.bin bin).contents, other.id = item.id

include regular

/-- The processor's answer about a bin that fits. -/
theorem Regular.answer {bin : BinId} {depot reached : Depot} (fit : depot.Fit given bin)
    {answer : Except Fault (Option Outcome)}
    (run : (engine.hooks.process bin).run depot = (answer, reached)) :
    (∀ outcome, answer = .ok (some outcome) → outcome.committed = false) ∧
      ∀ pulled, (Verdict.of answer).returns pulled ≠ [] →
        ¬ engine.hooks.AcceptsBin depot bin := by
  have accepted (accepts : engine.hooks.AcceptsBin depot bin) :
      ∃ outcome, answer = .ok (some outcome) ∧ outcome.committed = false := by
    obtain ⟨outcome, _, ran, uncommitted⟩ := accepts
    rw [run] at ran
    cases ran
    exact ⟨outcome, rfl, uncommitted⟩
  constructor
  · rintro outcome rfl
    rcases regular.answers depot bin fit with accepts | refuses
    · obtain ⟨_, ⟨⟩, uncommitted⟩ := accepted accepts
      exact uncommitted
    · obtain ⟨_, _, ran, _⟩ := refuses
      rw [run] at ran
      cases ran
  · intro pulled some accepts
    obtain ⟨_, rfl, _⟩ := accepted accepts
    exact some rfl

/-- A bin that fits is completed, and what comes back was not accepted. -/
theorem handle_completes {depot : Depot} {bin : BinId} {rest : List BinId}
    (sound : depot.Sound property []) (fit : depot.AllFit given)
    (queue : depot.ready = bin :: rest) (activation : Activation) :
    ∃ (verdict : Verdict) (reached : Depot) (returned : List Item),
      handle engine.hooks bin activation { depot with ready := rest } =
        (.ok (verdict.note activation), reached) ∧
      reached.shelf = depot.shelf ∧ reached.flow.source = returned ++ depot.flow.source ∧
      ∀ item ∈ returned, Unaccepted engine.hooks given item := by
  have queued : bin ∈ depot.ready := by
    rw [queue]
    exact List.mem_cons_self
  have coherent := regular.single.coherent _ sound.flow
  have fits := fit bin (.inr queued)
  have packed := fits.packed coherent sound queued
  obtain ⟨start, isStart⟩ : ∃ start : Depot, start =
    { depot with ready := rest, handled := depot.handled ++ [bin] } := ⟨_, rfl⟩
  have noted : noteHandled bin { depot with ready := rest } = (.ok (), start) := by
    rw [isStart]
    rfl
  have packedThen : start.Packed bin := by
    rw [isStart]
    exact ⟨packed.isBin, packed.isSession, packed.ready, packed.current, packed.pulled⟩
  have fitsThen : start.Fit given bin := by
    rw [isStart]
    exact ⟨fits.isBin, fits.weighs, fits.held, fits.grouped⟩
  rcases run : (engine.hooks.process bin).run start with ⟨answer, reached⟩
  have adorned : start.Adorned reached := by
    have adorned := (regular.plain.process bin).adorned start
    rwa [run] at adorned
  have shelf : reached.shelf = depot.shelf := by rw [adorned.shelf, isStart]
  have sinks : reached.flow.sinks.keys = known := by
    rw [adorned.flow.sinks, isStart]
    exact coherent.sinks
  have pulled : (reached.binSession bin).pulled = (depot.binSession bin).pulled := by
    rw [adorned.pulled_binSession, isStart]
    rfl
  obtain ⟨uncommitted, unaccepted⟩ := regular.answer fitsThen run
  have settles := settle_eq (packedThen.adorned adorned) (sinks ▸ regular.success)
    (sinks ▸ regular.failure) uncommitted activation
  refine ⟨Verdict.of answer, completed (Verdict.of answer) reached bin,
    (Verdict.of answer).returns (depot.binSession bin).pulled.values, ?_, shelf, ?_, ?_⟩
  · unfold handle
    rw [Act.bind_of_ok noted, Act.bind_of_ok (Act.attempt_eq run), settles]
  · have source := (Verdict.of answer).source_complete reached.flow (reached.bin bin).session
    rw [adorned.flow.source, isStart] at source
    rw [← pulled]
    exact source
  · intro back member
    obtain ⟨id, found⟩ := Table.mem_values_iff.1 (Verdict.mem_of_mem_returns member)
    have listed := Table.mem_keys_of_find? found
    rw [packed.pulled] at listed
    obtain ⟨other, among, same⟩ := List.mem_map.1 listed
    refine ⟨start, bin, fitsThen, unaccepted _ (List.ne_nil_of_mem member), other, ?_,
      same.trans ((coherent.sessions _).own id back found).symm⟩
    rw [isStart]
    exact among

omit regular

/-- The queue was drained.  What came back was not accepted, and the shelf is as it was. -/
structure Emptied (engine : Engine) (property : Flow → Prop) (given : Key → Item → Prop)
    (returned : List Item) (activation noted : Activation) (before after : Depot) :
    Prop where
  sound : after.Sound property []
  fit : after.AllFit given
  ready : after.ready = []
  shelf : after.shelf = before.shelf
  source : after.flow.source = returned ++ before.flow.source
  unaccepted : ∀ item ∈ returned, Unaccepted engine.hooks given item
  sameIntake : activation.SameIntake noted
  cancelled : noted.cancelled = activation.cancelled

include regular

/-- A queue of bins that fit is drained. -/
theorem drainBins_completes (queue : List BinId) {depot : Depot}
    (sound : depot.Sound property []) (fit : depot.AllFit given) (isQueue : depot.ready = queue)
    (activation : Activation) :
    ∃ noted reached returned,
      drainBins engine.hooks queue activation depot = (.ok noted, reached) ∧
      Emptied engine property given returned activation noted depot reached := by
  induction queue generalizing depot activation with
  | nil =>
      exact ⟨activation, depot, [], rfl, sound, fit, isQueue, rfl, rfl, nofun, ⟨rfl, rfl⟩, rfl⟩
  | cons bin rest ih =>
      obtain ⟨verdict, between, back, handled, shelf, source, unaccepted⟩ :=
        handle_completes regular sound fit isQueue activation
      obtain ⟨owner, busy, done, rules, isBusy, leaves⟩ :=
        exists_drainRules regular.single.carried (putKeeps_nothing _)
          (endures_fit regular.single regular.whole).intact regular.plain.behave.process
          (fun bin _ _ depot _ _ => (regular.plain.process bin).intact depot) bin rest
          depot ⟨⟨sound, fit⟩, isQueue⟩
      obtain ⟨⟨soundBetween, fitBetween⟩, isRest⟩ :=
        leaves between ((rules.handle activation).of_ok isBusy handled).1
      obtain ⟨noted, reached, returned, run, drained⟩ :=
        ih soundBetween fitBetween isRest (verdict.note activation)
      refine ⟨noted, reached, returned ++ back, ?_, ?_⟩
      · unfold drainBins
        rw [Act.bind_of_ok (rfl : Act.modify _ depot = (.ok (), _)), Act.bind_of_ok handled]
        exact run
      · constructor
        case sound => exact drained.sound
        case fit => exact drained.fit
        case ready => exact drained.ready
        case shelf => exact drained.shelf.trans shelf
        case source => rw [drained.source, source, List.append_assoc]
        case unaccepted => exact List.forall_mem_append.2 ⟨drained.unaccepted, unaccepted⟩
        case sameIntake =>
          obtain ⟨itemsBinned, binsMigrated⟩ := drained.sameIntake
          cases verdict <;> exact ⟨itemsBinned, binsMigrated⟩
        case cancelled =>
          rw [drained.cancelled]
          cases verdict <;> rfl

omit regular

/-- Bins went from the shelf to the end of the queue. -/
structure Cleared (property : Flow → Prop) (given : Key → Item → Prop) (left : List BinId)
    (before after : Depot) : Prop where
  poised : after.Poised property given
  flow : after.flow = before.flow
  ready : after.ready = before.ready ++ left
  thresholds : after.shelf.thresholds = before.shelf.thresholds
  count : after.shelf.binCount + left.length = before.shelf.binCount

theorem migrateBins_clears {depot : Depot} (poised : depot.Poised property given) :
    ∃ left moved, migrateBins depot = (.ok left.length, moved) ∧
      Cleared property given left depot moved := by
  have arranged := poised.sound.arranged
  obtain ⟨left, between, counters, migrates, departed, arrangedBetween, _⟩ :=
    migrateBins_spec arranged
  generalize isMoved : between.moved left counters = moved at migrates
  have shelf : moved.shelf = between.shelf := by
    rw [← isMoved]
    rfl
  refine ⟨left, moved, migrates, ⟨?_, ?_, ?_⟩, ?_, ?_, ?_, ?_⟩
  · exact migrateBins_sound.of_ok poised.sound migrates
  · have intact := migrateBins_intact arranged
    rw [migrates] at intact
    exact poised.fit.intact intact
  · rw [shelf, departed.thresholds]
    exact poised.consistent
  · rw [← isMoved, flow_moved, departed.flow]
  · rw [← isMoved, ready_moved, departed.queue]
  · rw [shelf, departed.thresholds]
  · have whole := departed.whole.length_eq
    rw [List.length_append, ← arranged.binCount, ← arrangedBetween.binCount] at whole
    rw [shelf]
    omega

/-- What an activation does after the intake was done: bins were moved from the shelf to the
queue and the queue was drained. -/
structure Finished (engine : Engine) (property : Flow → Prop) (given : Key → Item → Prop)
    (returned : List Item) (itemsBinned : Nat) (before : Depot) (activation : Activation)
    (after : Depot) : Prop where
  poised : after.Poised property given
  ready : after.ready = []
  thresholds : after.shelf.thresholds = before.shelf.thresholds
  source : after.flow.source = returned ++ before.flow.source
  unaccepted : ∀ item ∈ returned, Unaccepted engine.hooks given item
  carriedThrough : activation.cancelled = false
  itemsBinned : activation.itemsBinned = itemsBinned
  count : after.shelf.binCount + activation.binsMigrated = before.shelf.binCount
  works : activation.isIdle = false → before.ready = [] →
    0 < activation.itemsBinned + activation.binsMigrated

include regular

theorem afterIntake_completes {depot : Depot} (poised : depot.Poised property given)
    (itemsBinned : Nat) :
    ∃ activation reached returned,
      engine.afterIntake itemsBinned depot = (.ok activation, reached) ∧
      Finished engine property given returned itemsBinned depot activation reached := by
  obtain ⟨left, moved, migrates, cleared⟩ := migrateBins_clears poised
  obtain ⟨noted, reached, returned, run, drained⟩ :=
    drainBins_completes regular moved.ready cleared.poised.sound cleared.poised.fit rfl
      { itemsBinned, binsMigrated := left.length }
  have drains : engine.drain { itemsBinned, binsMigrated := left.length } moved =
      (.ok noted, reached) := by
    unfold drain
    rw [Act.read_bind]
    exact run
  obtain ⟨last, concludes⟩ := conclude_eq noted reached
  have thresholds : reached.shelf.thresholds = depot.shelf.thresholds := by
    rw [drained.shelf, cleared.thresholds]
  refine ⟨noted, { reached with counters := last }, returned, ?_, ?_⟩
  · unfold afterIntake
    rw [Act.bind_of_ok migrates, Act.bind_of_ok drains, concludes]
  · constructor
    case poised =>
      refine ⟨drained.sound.of_same rfl rfl rfl rfl rfl,
        drained.fit.intact (count_intact (fun _ => last) reached), ?_⟩
      change reached.shelf.thresholds.inconsistencies = _
      rw [thresholds]
      exact poised.consistent
    case ready => exact drained.ready
    case thresholds => exact thresholds
    case source =>
      rw [← cleared.flow]
      exact drained.source
    case unaccepted => exact drained.unaccepted
    case carriedThrough => exact drained.cancelled
    case itemsBinned => exact drained.sameIntake.itemsBinned
    case count =>
      rw [drained.sameIntake.binsMigrated, ← cleared.count, ← drained.shelf]
    case works =>
      intro works idle
      rw [drained.sameIntake.itemsBinned, drained.sameIntake.binsMigrated]
      by_contra nothing
      obtain ⟨isZero, leftZero⟩ : itemsBinned = 0 ∧ left.length = 0 := by
        dsimp only at nothing
        omega
      have empty : moved.ready = [] := by
        rw [cleared.ready, idle, List.eq_nil_of_length_eq_zero leftZero]
        rfl
      -- so there was nothing to drain, and the activation was idle after all
      rw [drain_empty empty, isZero, leftZero] at drains
      cases drains
      cases works

/-- What an activation turned over: items were pulled from the front of the source, and
some came back in front of the rest. -/
structure Turnover (engine : Engine) (size : Int) (property : Flow → Prop)
    (given : Key → Item → Prop) (pulled returned rest : List Item) (before : Depot)
    (activation : Activation) (after : Depot) : Prop where
  poised : after.Poised property given
  ready : after.ready = []
  thresholds : after.shelf.thresholds = before.shelf.thresholds
  source : before.flow.source = pulled ++ rest
  remains : after.flow.source = returned ++ rest
  unaccepted : ∀ item ∈ returned, Unaccepted engine.hooks given item
  carriedThrough : activation.cancelled = false
  atMost : activation.itemsBinned ≤ pulled.length
  stock : after.shelf.binCount + activation.binsMigrated ≤
    before.shelf.binCount + activation.itemsBinned
  works : activation.isIdle = false → 0 < activation.itemsBinned + activation.binsMigrated
  chunk : before.shelf.hasRoom = .ok true → before.flow.source.take size.toNat <+: pulled
  taken : ((takeIn engine (alwaysScheduled before)).final before).flow.source = rest
  crowd : ((takeIn engine (alwaysScheduled before)).final before).shelf.binCount ≤
    before.shelf.binCount + pulled.length
  limit : ((takeIn engine (alwaysScheduled before)).final before).shelf.thresholds =
    before.shelf.thresholds
  full : rest = [] ∨
    ((takeIn engine (alwaysScheduled before)).final before).shelf.hasRoom = .ok false

/-- An activation that begins with an empty queue does not fail and leaves none behind. -/
theorem activateFully_turns {depot : Depot} (poised : depot.Poised property given)
    (none : depot.ready = []) :
    ∃ pulled returned rest activation reached,
      engine.activateFully depot = (.ok activation, reached) ∧
      Turnover engine size property given pulled returned rest depot activation reached := by
  obtain ⟨pulled, binned, unused, between, taken, tookIn, chunk⟩ :=
    takeIn_tookIn regular poised none
  obtain ⟨activation, reached, returned, run, finished⟩ :=
    afterIntake_completes regular tookIn.poised binned
  have activates : engine.activateFully depot = (.ok activation, reached) := by
    unfold activateFully
    rw [Act.read_bind, activate_eq, Act.bind_of_ok taken, ← run]
    rfl
  have stock := tookIn.stock
  unfold Depot.stock at stock
  rw [none, List.length_nil] at stock
  have atMost := tookIn.atMost
  have isBinned := finished.itemsBinned
  have final : (takeIn engine (alwaysScheduled depot)).final depot = between :=
    congrArg Prod.snd taken
  refine ⟨pulled, returned, between.flow.source, activation, reached, activates, ?_⟩
  constructor
  case poised => exact finished.poised
  case ready => exact finished.ready
  case thresholds => exact finished.thresholds.trans tookIn.thresholds
  case source => exact tookIn.source
  case remains => exact finished.source
  case unaccepted => exact finished.unaccepted
  case carriedThrough => exact finished.carriedThrough
  case atMost => rwa [isBinned]
  case stock =>
    have count := finished.count
    omega
  case works =>
    intro notIdle
    by_cases nothing : binned = 0
    · exact finished.works notIdle ((takeIn_ready _).of_ok none taken nothing)
    · omega
  case chunk => exact chunk
  case taken => rw [final]
  case crowd =>
    rw [final]
    omega
  case limit => rw [final, tookIn.thresholds]
  case full =>
    have ends := (takeIn_exit regular.chunks (alwaysScheduled depot) fun answer member =>
      (List.mem_replicate.1 member).2).of_ok none taken (by simp)
    rw [final]
    exact ends.symm

omit regular

/-- The depot after a number of activations that are never stopped.  Before each of them
the clock is moved to any time. -/
def worked (engine : Engine) (times : Nat → Moment → Moment) (start : Depot) : Nat → Depot
  | 0 => start
  | turn + 1 => engine.activateFully.final ((engine.worked times start turn).atTime (times turn))

/-- What an activation reports that follows a number of others. -/
def reported (engine : Engine) (times : Nat → Moment → Moment) (start : Depot) (turn : Nat) :
    Except Fault Activation :=
  (engine.activateFully ((engine.worked times start turn).atTime (times turn))).1

include regular

variable (times : Nat → Moment → Moment) {start : Depot}
  (poised : start.Poised property given) (none : start.ready = [])
include poised none

theorem worked_poised (turn : Nat) :
    (engine.worked times start turn).Poised property given ∧
      (engine.worked times start turn).ready = [] := by
  induction turn with
  | zero => exact ⟨poised, none⟩
  | succ turn ih =>
      obtain ⟨_, _, _, _, reached, run, turnover⟩ :=
        activateFully_turns regular (ih.1.atTime (times turn)) ih.2
      have same : engine.worked times start (turn + 1) = reached := congrArg Prod.snd run
      rw [same]
      exact ⟨turnover.poised, turnover.ready⟩

/-- Each of these activations turns over what waits then. -/
theorem worked_turns (turn : Nat) :
    ∃ pulled returned rest activation,
      engine.activateFully ((engine.worked times start turn).atTime (times turn)) =
        (.ok activation, engine.worked times start (turn + 1)) ∧
      engine.reported times start turn = .ok activation ∧
      Turnover engine size property given pulled returned rest
        ((engine.worked times start turn).atTime (times turn)) activation
        (engine.worked times start (turn + 1)) := by
  have ⟨poisedThen, noneThen⟩ := worked_poised regular times poised none turn
  obtain ⟨pulled, returned, rest, activation, reached, run, turnover⟩ :=
    activateFully_turns regular (poisedThen.atTime (times turn)) noneThen
  have same : engine.worked times start (turn + 1) = reached := congrArg Prod.snd run
  rw [same]
  exact ⟨pulled, returned, rest, activation, run, congrArg Prod.fst run, turnover⟩

end Engine

end ItemBinning
