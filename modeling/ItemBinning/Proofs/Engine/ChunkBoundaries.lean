import ItemBinning.Proofs.Engine.Dealing
import ItemBinning.Proofs.Engine.Isolation
import ItemBinning.Proofs.Engine.Quiescence

/-!
# Chunk boundaries

While capacity lasts, it does not matter where the source is cut into chunks.  With a
group key that is computed from the item alone, the items of a group reach its bins in
the order of the source whatever the chunks are, and so do the items that have no group
reach failure.
-/

namespace ItemBinning

/-- Hooks that compute the group key from the item alone. -/
def Hooks.keyedBy (keyOf : Item → Except Fault Value)
    (process : BinId → Script (Option Outcome)) : Hooks where
  groupKey item :=
    match keyOf item with
    | .ok group => .done group
    | .error fault => .fail fault
  process := process

namespace Engine

open Depot

/-- What is found of an item whose group key is computed from it. -/
def findingBy (keyOf : Item → Except Fault Value) (item : Item) : Finding where
  item := item
  outcome :=
    match keyOf item with
    | .error fault => .error fault
    | .ok group =>
        match group.key? with
        | some key => .ok (item, group, key)
        | none => .error .wrongType

section Hooks

variable (keyOf : Item → Except Fault Value) {process : BinId → Script (Option Outcome)}
  {mayPut : List Item → Prop}

theorem uses_keyedBy (allowed : Call → Prop) (item : Item) :
    ((Hooks.keyedBy keyOf process).groupKey item).Uses allowed := by
  unfold Hooks.keyedBy
  dsimp only
  split <;> trivial

theorem behave_keyedBy (permitted : ∀ bin, (process bin).Uses
    (Call.Permitted mayPut (some bin))) : (Hooks.keyedBy keyOf process).Behave mayPut where
  preprocess _ _ := trivial
  groupKey := uses_keyedBy keyOf _
  process := permitted
  versions := by
    rintro item session depot version reached _ whole ⟨⟩
    exact whole

theorem heed_keyedBy : (Hooks.keyedBy keyOf process).Heed where
  preprocess _ _ := trivial
  groupKey item := uses_keyedBy keyOf _ item
  versions := by
    rintro item session depot version reached ⟨⟩
    rfl

/-- Computing the group of an item leaves everything as it is. -/
theorem classify_keyedBy (session : SessionId) (item : Item) (depot : Depot) :
    classify (Hooks.keyedBy keyOf process) session item depot =
      ((findingBy keyOf item).outcome, depot) := by
  unfold classify findingBy
  have preprocessed : ((Hooks.keyedBy keyOf process).preprocess item session).run depot =
      (.ok (some item), depot) := rfl
  rw [Act.bind_of_ok preprocessed]
  rcases isKey : keyOf item with fault | group
  · have keyed : ((Hooks.keyedBy keyOf process).groupKey item).run depot =
        (.error fault, depot) := by
      simp only [Hooks.keyedBy, isKey]
      rfl
    exact Act.bind_of_error keyed _
  · have keyed : ((Hooks.keyedBy keyOf process).groupKey item).run depot =
        (.ok group, depot) := by
      simp only [Hooks.keyedBy, isKey]
      rfl
    dsimp only
    rw [Act.bind_of_ok keyed]
    cases group.key? <;> rfl

end Hooks

section Sorting

variable {keyOf : Item → Except Fault Value} {process : BinId → Script (Option Outcome)}
  {session : SessionId} {start : Depot}

/-- No items were dealt out, and the versions that sessions hold are the same. -/
structure Unmoved (before after : Depot) : Prop where
  dealt : Dealt [] before after
  current : ∀ number, (after.flow.session number).current = (before.flow.session number).current

theorem route_unmoved (items : List Item) (relationship : String) :
    (onFlow (Flow.route session items relationship)).Keeps (Unmoved start) := by
  refine Act.Keeps.of_final fun depot unmoved =>
    ⟨unmoved.dealt.same rfl rfl rfl, fun number => ?_⟩
  obtain ⟨_, others, current⟩ := (Flow.route_keeps depot.flow session items relationship).final
    ⟨rfl, fun _ _ => rfl, rfl⟩
  refine Eq.trans ?_ (unmoved.current number)
  by_cases same : number = session
  · exact same ▸ current
  · exact congrArg Session.current (others number same)

/-- Sorting finds what the keys of the items say and moves nothing. -/
theorem sortItems_keyedBy (items : List Item) :
    (sortItems (Hooks.keyedBy keyOf process) session items).Meets (Unmoved start)
      (fun findings depot => Unmoved start depot ∧ findings = items.map (findingBy keyOf))
      fun _ _ => True := by
  induction items with
  | nil => exact Act.Meets.pure fun _ unmoved => ⟨unmoved, rfl⟩
  | cons item rest ih =>
      have sorted : (sortItem (Hooks.keyedBy keyOf process) session item).Meets (Unmoved start)
          (fun finding depot => Unmoved start depot ∧ finding = findingBy keyOf item)
          fun _ _ => True := by
        have classified : (classify (Hooks.keyedBy keyOf process) session item).Meets
            (Unmoved start)
            (fun placed depot => Unmoved start depot ∧
              { item, outcome := .ok placed } = findingBy keyOf item)
            fun fault depot => Unmoved start depot ∧
              { item, outcome := .error fault } = findingBy keyOf item := by
          intro depot unmoved
          rw [classify_keyedBy keyOf session item depot]
          rcases found : (findingBy keyOf item).outcome with fault | placed <;>
            exact ⟨unmoved, by rw [← found]; rfl⟩
        have routed (fault : Fault) :
            (onFlow (Flow.route session [item] failureRelationship)).Meets
              (fun depot => Unmoved start depot ∧
                { item, outcome := .error fault } = findingBy keyOf item)
              (fun _ depot => Unmoved start depot ∧
                { item, outcome := .error fault } = findingBy keyOf item)
              fun _ _ => True :=
          Act.Meets.knowing fun isFinding => (route_unmoved [item] _).weaken (fun _ => id)
            (fun _ _ unmoved => ⟨unmoved, isFinding⟩) fun _ _ _ => trivial
        refine sortItem_meets classified routed fun fault => Act.Meets.modify ?_
        rintro depot ⟨unmoved, isFinding⟩
        exact ⟨⟨unmoved.dealt.same rfl rfl rfl, unmoved.current⟩, isFinding⟩
      rw [sortItems_cons]
      refine sorted.bind fun finding => Act.Meets.knowing fun isFinding => ?_
      refine ih.bind fun findings => Act.Meets.pure ?_
      rintro depot ⟨unmoved, rfl⟩
      exact ⟨unmoved, by rw [isFinding]; rfl⟩

end Sorting

section Groups

variable {groups : Groups} {findings : List Finding}

/-- The items of a group. -/
def itemsOf (groups : Groups) (key : Key) : List Item :=
  ((groups.find? key).map Prod.snd).getD []

theorem itemsOf_addToGroup (group : Value) (key other : Key) (item : Item) :
    itemsOf (addToGroup groups group key item) other =
      itemsOf groups other ++ if key = other then [item] else [] := by
  unfold itemsOf addToGroup
  rw [Table.find?_put]
  by_cases same : other = key
  · subst same
    cases groups.find? other <;> simp
  · simp [same, Ne.symm same]

/-- Items are collected into their group in the order in which they are found. -/
theorem itemsOf_collect (findings : List Finding) (key : Key) :
    itemsOf (findings.foldl collect groups) key =
      itemsOf groups key ++ ofKey key (loads findings) := by
  induction findings generalizing groups with
  | nil => exact (List.append_nil _).symm
  | cons finding rest ih =>
      obtain ⟨item, outcome⟩ := finding
      rw [List.foldl_cons, ih]
      rcases outcome with fault | ⟨version, group, other⟩
      · rfl
      · have all : loads ({ item, outcome := .ok (version, group, other) } :: rest) =
            [(other, version)] ++ loads rest := rfl
        rw [all, ofKey_append, ← List.append_assoc]
        congr 1
        rw [collect, itemsOf_addToGroup]
        exact congrArg _ (ofKey_map key other [version]).symm

private theorem flatMap_of_key {entries : List (Key × Value × List Item)}
    (distinct : (entries.map Prod.fst).Nodup) (key : Key) :
    (entries.flatMap fun entry => if entry.1 = key then entry.2.2 else []) =
      ((entries.lookup key).map Prod.snd).getD [] := by
  induction entries with
  | nil => rfl
  | cons entry rest ih =>
      obtain ⟨fresh, distinctRest⟩ := List.nodup_cons.1 distinct
      rw [List.flatMap_cons, List.lookup_cons]
      by_cases same : entry.1 = key
      · have none : (rest.flatMap fun other => if other.1 = key then other.2.2 else []) = [] :=
          List.flatMap_eq_nil_iff.2 fun other member => if_neg fun isKey =>
            fresh (List.mem_map.2 ⟨other, member, isKey.trans same.symm⟩)
        rw [none, if_pos same, List.append_nil, same, beq_self_eq_true]
        rfl
      · rw [if_neg same, List.nil_append, ih distinctRest]
        rw [beq_false_of_ne (Ne.symm same)]

/-- Offering the groups in their order, the items of a group are offered in theirs. -/
theorem ofKey_loadsOf (labelled : Labelled groups) (key : Key) :
    ofKey key (loadsOf groups.values) = itemsOf groups key := by
  have items : ofKey key (loadsOf groups.values) =
      groups.entries.flatMap fun entry => if entry.1 = key then entry.2.2 else [] := by
    unfold ofKey loadsOf Table.values
    rw [List.filterMap_flatMap, List.flatMap_map]
    refine List.flatMap_congr fun entry member => ?_
    have isKey := labelled entry.1 entry.2 (Table.find?_eq_some_iff.2 member)
    rw [isKey]
    exact ofKey_map key entry.1 entry.2.2
  rw [items, flatMap_of_key groups.keys_nodup]
  rfl

/-- Dealing groups out is dealing out what they were collected from. -/
theorem dealt_collect {good : Item → Item → Prop}
    (rights : ∀ finding ∈ findings, finding.Right (good finding.item))
    {before after : Depot}
    (dealt : Dealt (loadsOf (findings.foldl collect .empty).values) before after) :
    Dealt (loads findings) before after := by
  obtain ⟨labelled, perm⟩ :=
    loadsOf_collect findings rights (show Labelled .empty from nofun)
  refine ⟨fun key => ?_, dealt.thresholds, perm.length_eq ▸ dealt.binCount, dealt.keyed⟩
  rw [dealt.packing, ofKey_loadsOf labelled, itemsOf_collect]
  rfl

end Groups

section Chunks

variable {keyOf : Item → Except Fault Value} {process : BinId → Script (Option Outcome)}
  {session : SessionId} {before start after depot : Depot} {items more : List Item}

/-- What is found of items whose group keys are computed from them. -/
def findingsBy (keyOf : Item → Except Fault Value) (items : List Item) : List Finding :=
  items.map (findingBy keyOf)

/-- Items from the front of the source were dealt out, and those that have no group were
delivered to failure. -/
structure TakenIn (keyOf : Item → Except Fault Value) (items : List Item)
    (before after : Depot) : Prop where
  source : before.flow.source = items ++ after.flow.source
  sinks : after.flow.sinks = before.flow.sinks.mapValues fun relationship received =>
    received ++ if relationship = failureRelationship then failures (findingsBy keyOf items)
      else []
  dealt : Dealt (loads (findingsBy keyOf items)) before after

theorem TakenIn.trans {between : Depot} (first : TakenIn keyOf items before between)
    (second : TakenIn keyOf more between after) :
    TakenIn keyOf (items ++ more) before after where
  source := by rw [first.source, second.source, List.append_assoc]
  sinks := by
    rw [second.sinks, first.sinks, Table.mapValues_mapValues]
    congr 1
    funext relationship received
    unfold findingsBy failures
    split
    · rw [List.append_assoc, List.map_append, List.filter_append, List.map_append]
    · rw [List.append_nil]
  dealt := by
    have dealt := first.dealt.trans second.dealt
    unfold findingsBy loads at dealt ⊢
    rwa [List.map_append, List.filterMap_append]

theorem length_loads_findingsBy (keyOf : Item → Except Fault Value) (items : List Item) :
    (loads (findingsBy keyOf items)).length ≤ items.length := by
  have fewer := List.length_filterMap_le Finding.load? (findingsBy keyOf items)
  unfold findingsBy at fewer
  rwa [List.length_map] at fewer

theorem Unmoved.refl (depot : Depot) : Unmoved depot depot :=
  ⟨.of_same rfl rfl rfl, fun _ => rfl⟩

variable {known : List String} {property : Flow → Prop} {engine : Engine}

theorem keepSizes_keyedBy : (Hooks.keyedBy keyOf process).KeepSizes := by
  rintro item session depot version reached _ whole ⟨⟩
  exact whole

/-- Binning a chunk deals out what the keys of its items say. -/
theorem binItems_deals (cohering : Flow.Cohering known property)
    (atWork : start.AtWork property session)
    (held : (start.flow.session session).ids = items.map Item.id)
    (whole : ∀ item ∈ items, item.HasWholeSize) (room : start.RoomFor items.length) :
    (binItems (Hooks.keyedBy keyOf process) session items).Meets (· = start)
      (fun _ => Dealt (loads (findingsBy keyOf items)) start) fun _ _ => True := by
  have gathers := @sortItems_gathers known property session
    { hooks := Hooks.keyedBy keyOf process } cohering keepSizes_keyedBy (heed_keyedBy keyOf)
    start atWork items held whole
  have sorts : (sortItems (Hooks.keyedBy keyOf process) session items).Meets (· = start)
      (fun findings sorted => Unmoved start sorted ∧ findings = findingsBy keyOf items)
      fun _ _ => True :=
    (sortItems_keyedBy items).weaken (fun _ same => same ▸ .refl start) (fun _ _ => id)
      fun _ _ => id
  rw [binItems_eq]
  refine ((gathers.and sorts).weaken (fun _ => id) (fun _ _ => id) fun _ _ _ => trivial).bind
    fun findings => ?_
  rintro sorted ⟨⟨gathered, _, rights⟩, unmoved, rfl⟩
  obtain ⟨keyed, perm⟩ := collect_findings _ rights fun _ _ => And.right
  have fewer := length_loads_findingsBy keyOf items
  have roomThen : sorted.RoomFor (loadsOf
      ((findingsBy keyOf items).foldl collect .empty).values).length := by
    refine room.mono unmoved.dealt.thresholds ?_
    have opened := unmoved.dealt.binCount
    have length := perm.length_eq
    unfold loads at fewer
    rw [List.length_nil] at opened
    omega
  refine (offerGroups_deals cohering.carried _ keyed gathered.sound roomThen).bind
    (fun binned => ?_) sorted rfl
  have committed : (onFlow (Flow.commit session)).Keeps
      (Dealt (loads (findingsBy keyOf items)) start) :=
    Act.Keeps.of_final fun _ dealt => dealt.same rfl rfl rfl
  refine ((committed.weaken (fun stowed dealt => ?_) (fun _ _ => id)
    fun _ _ _ => trivial).bind fun _ => Act.Meets.pure fun _ => id)
  exact unmoved.dealt.trans (dealt_collect rights dealt)

/-- A chunk that is drawn is taken in. -/
theorem binItems_takenIn (cohering : Flow.Cohering known property)
    (isKnown : failureRelationship ∈ known)
    (drawn : before.Drawn session items start) (atWork : start.AtWork property session)
    (whole : ∀ item ∈ items, item.HasWholeSize)
    (consistent : before.shelf.thresholds.inconsistencies = .ok [])
    (room : before.RoomFor items.length) :
    ∃ binned reached,
      binItems (Hooks.keyedBy keyOf process) session items start = (.ok binned, reached) ∧
      TakenIn keyOf items before reached := by
  obtain ⟨findings, sorted, stowed, sorts, bins, isItems, gathered, rights, moved⟩ :=
    @binItems_moves known property session { hooks := Hooks.keyedBy keyOf process } cohering
      keepSizes_keyedBy (heed_keyedBy keyOf) isKnown before start items drawn atWork whole
      consistent
  have held := drawn.ids
  obtain ⟨unmoved, rfl⟩ := (sortItems_keyedBy items).of_ok (.refl start) sorts
  have deals := (binItems_deals cohering atWork held whole
    (room.mono (by rw [drawn.shelf]) (by rw [drawn.shelf]))).of_ok rfl bins
  obtain ⟨pulled, routed⟩ := Moved.remaining cohering gathered
    (by rw [isItems, drawn.pulled]) (by rw [isItems, held]) rights moved
  -- the session holds all items in the versions that it pulled
  have items : (stowed.flow.session session).items =
      (stowed.flow.session session).pulled.values := by
    obtain ⟨given, _, giver⟩ := moved.giver
    unfold Session.items Table.values
    rw [giver, Session.current_releaseAll, Session.pulled_releaseAll, unmoved.current,
      gathered.adorned.flow.pulled, drawn.current, drawn.pulled]
  obtain ⟨cargo, hauled, _⟩ := moved.hauled
  refine ⟨_, _, bins, ?_⟩
  constructor
  case source =>
    rw [drawn.source, ← gathered.adorned.flow.source, ← hauled.source]
    rfl
  case sinks =>
    dsimp only
    rw [Flow.sinks_delivered_of_all routed, hauled.sinks, gathered.adorned.flow.sinks,
      drawn.sinks, items, pulled]
    rfl
  case dealt =>
    have drew : Dealt [] before start := .of_same (by rw [drawn.rest]) drawn.shelf drawn.ready
    exact drew.trans deals

end Chunks

section Intakes

variable {keyOf : Item → Except Fault Value} {process : BinId → Script (Option Outcome)}
  {size : Int} {before after : Depot} {items : List Item}

/-- There is room for a bin for each item that waits, and for one more. -/
structure Supplied (depot : Depot) : Prop where
  sound : depot.Sound (Flow.Coherent Flow.usual) []
  consistent : depot.shelf.thresholds.inconsistencies = .ok []
  distinct : (depot.flow.source.map Item.id).Nodup
  room : depot.RoomFor (depot.flow.source.length + 1)

theorem Supplied.hasRoom (supplied : Supplied before) : before.shelf.hasRoom = .ok true := by
  obtain ⟨most, isMost, within⟩ := supplied.room
  rw [Shelf.hasRoom, isMost, Value.isBelow_int]
  exact congrArg Except.ok (decide_eq_true (by omega))

theorem Supplied.takenIn (supplied : Supplied before) (taken : TakenIn keyOf items before after)
    (sound : after.Sound (Flow.Coherent Flow.usual) []) : Supplied after where
  sound := sound
  consistent := taken.dealt.thresholds ▸ supplied.consistent
  distinct := by
    have distinct := supplied.distinct
    rw [taken.source, List.map_append] at distinct
    exact (List.nodup_append.1 distinct).2.1
  room := by
    refine supplied.room.mono taken.dealt.thresholds ?_
    have opened := taken.dealt.binCount
    have fewer := length_loads_findingsBy keyOf items
    rw [taken.source, List.length_append]
    omega

/-- Hooks that key items may put items of whole size on the source. -/
theorem putKeeps_coherent (known : List String) :
    PutKeeps (Flow.Coherent known) fun items => ∀ item ∈ items, item.HasWholeSize :=
  ⟨fun _ _ _ coherent => ⟨coherent.sinks, coherent.sessions⟩, fun _ => id⟩

variable (permitted : ∀ bin, (process bin).Uses
  (Call.Permitted (fun items => ∀ item ∈ items, item.HasWholeSize) (some bin)))
include permitted

/-- A chunk is taken in from the front of the source, unless nothing waits. -/
theorem takeChunk_takenIn (positive : 1 ≤ size) (supplied : Supplied before) :
    let engine : Engine := { hooks := .keyedBy keyOf process, chunkSize := .int size }
    (before.flow.source = [] ∧ ∃ reached, takeChunk engine before = (.ok none, reached) ∧
        reached.flow.source = [] ∧ TakenIn keyOf [] before reached) ∨
      before.flow.source ≠ [] ∧ ∃ binned reached,
        takeChunk engine before = (.ok (some binned), reached) ∧ Supplied reached ∧
        TakenIn keyOf (before.flow.source.take size.toNat) before reached := by
  intro engine
  have behave := behave_keyedBy keyOf permitted
  have carried := Flow.carried_coherent Flow.usual
  have rules : IntakeRules engine (Sound (Flow.Coherent Flow.usual) [])
      (fun session => Sound (Flow.Coherent Flow.usual) [session]) Item.HasWholeSize :=
    intakeRules carried (putKeeps_coherent _) behave.preprocess behave.groupKey
      behave.versions
  have kept := rules.takeChunk.final supplied.sound
  have isSize : engine.chunkSize = .int size := rfl
  obtain ⟨session, pulled, run, drawn⟩ := pullChunk_drawn isSize supplied.distinct
  generalize isChunk : before.flow.source.take size.toNat = chunk at run drawn
  have isEmpty : chunk = [] ↔ before.flow.source = [] := by
    rw [← isChunk, List.take_eq_nil_iff, or_iff_right (by omega)]
  obtain ⟨atWork, whole⟩ := pullChunk_atWork carried supplied.sound run drawn
  by_cases none : before.flow.source = []
  · have empty := isEmpty.2 none
    have taken : takeChunk engine before = (.ok Option.none, pulled) := by
      unfold takeChunk
      rw [Act.bind_of_ok run, empty]
      rfl
    refine .inl ⟨none, pulled, taken, ?_, ?_, ?_, ?_⟩
    · have left := drawn.source
      rwa [none, empty, List.nil_append, eq_comm] at left
    · rw [drawn.source, empty]
    · rw [drawn.sinks]
      simp [findingsBy, failures, Table.mapValues_self]
    · exact .of_same (by rw [drawn.rest]) drawn.shelf drawn.ready
  · have room : before.RoomFor chunk.length := by
      refine supplied.room.mono rfl ?_
      rw [← isChunk, List.length_take]
      omega
    obtain ⟨binned, reached, bins, taken⟩ := @binItems_takenIn keyOf process session before
      pulled chunk Flow.usual _ (Flow.cohering_coherent Flow.usual) (by decide) drawn atWork
      whole supplied.consistent room
    have chunkRun := binChunk_apply (.keyedBy keyOf process) session chunk pulled
    rw [bins] at chunkRun
    have takes : takeChunk engine before = (.ok (some binned), reached) := by
      unfold takeChunk
      rw [Act.bind_of_ok run]
      dsimp only
      rw [if_neg (by rw [List.isEmpty_iff, isEmpty]; exact none), Act.bind_of_ok chunkRun]
      rfl
    rw [Act.final, takes] at kept
    exact .inr ⟨none, binned, reached, takes, supplied.takenIn taken kept, taken⟩

/-- An intake that is scheduled long enough takes all items in. -/
theorem intake_takenIn (positive : 1 ≤ size) (count : Nat) (supplied : Supplied before)
    (enough : before.flow.source.length < count) :
    let engine : Engine := { hooks := .keyedBy keyOf process, chunkSize := .int size }
    ∃ binned unused reached,
      intake engine (List.replicate count true) before = (.ok (binned, unused), reached) ∧
      reached.flow.source = [] ∧ TakenIn keyOf before.flow.source before reached := by
  intro engine
  induction count generalizing before with
  | zero => omega
  | succ count ih =>
      have chunk := @takeChunk_takenIn keyOf process size before permitted positive supplied
      have room := supplied.hasRoom
      rw [List.replicate_succ]
      rcases intake_answered engine true before with
        ⟨_, refused, _⟩ | ⟨full, _⟩ | ⟨stopped, _⟩ | ⟨_, _, _, fails, _⟩ |
          ⟨reached, _, takes, run⟩ | ⟨binned, between, _, _, takes, run⟩
      · rw [refused] at room
        cases room
      · rw [full] at room
        cases room
      · cases stopped
      · rcases chunk with ⟨_, _, taken, _⟩ | ⟨_, _, _, taken, _⟩ <;>
          rw [fails] at taken <;> cases taken
      · rcases chunk with ⟨none, _, taken, left, takenIn⟩ | ⟨_, _, _, taken, _⟩ <;>
          rw [takes] at taken <;> cases taken
        exact ⟨0, _, _, run _, left, none ▸ takenIn⟩
      · rcases chunk with ⟨_, _, taken, _⟩ | ⟨some, _, _, taken, suppliedThen, takenIn⟩ <;>
          rw [takes] at taken <;> cases taken
        have split := takenIn.source
        have length := congrArg List.length split
        have pulled := List.length_pos_iff.2 some
        rw [List.length_append, List.length_take] at length
        obtain ⟨more, unused, reached, later, left, takenLater⟩ := ih suppliedThen (by omega)
        refine ⟨binned + more, unused, reached, ?_, left, ?_⟩
        · rw [run, Act.bind_of_ok later]
          rfl
        · have both := takenIn.trans takenLater
          rwa [← split] at both

end Intakes

end Engine

namespace Depot

variable {depot : Depot}

/-- The item is in a queued bin. -/
def Queues (depot : Depot) (item : Item) : Prop :=
  ∃ bin ∈ depot.ready, item ∈ (depot.bin bin).contents

theorem QueueKeyed.queues_iff (keyed : depot.QueueKeyed) (item : Item) :
    depot.Queues item ↔ ∃ key, item ∈ depot.loners key := by
  unfold Queues loners
  simp only [List.mem_flatMap]
  constructor
  · rintro ⟨bin, queued, contents⟩
    obtain ⟨key, isKey⟩ := keyed bin queued
    exact ⟨key, bin, queued, by rwa [if_pos isKey]⟩
  · rintro ⟨key, bin, queued, member⟩
    split at member
    · exact ⟨bin, queued, member⟩
    · cases member

end Depot

namespace Engine

open Depot

theorem coherent_after_run (engine : Engine)
    (behave : engine.hooks.Behave fun items => ∀ item ∈ items, item.HasWholeSize)
    (source : List Item) (relationships : List String) (clock : Moment) (policy : Policy)
    (events : List Event)
    (whole : ∀ item ∈ source ++ events.flatMap Event.items, item.HasWholeSize) :
    (run engine (opening { source, sinks := Flow.sinksFor relationships } clock policy)
      events).Sound (Flow.Coherent (Flow.sinksFor relationships).keys) [] := by
  rw [List.forall_mem_append] at whole
  exact @run_sound engine _ _ [] _ (tracked_coherent _) (fun _ => putKeeps_coherent _) behave
    events whole.2 (coherent_opening relationships clock policy whole.1)

/-- From every state that an engine reaches with an empty queue and capacity for all items
that wait, an intake leaves the same bins, the same unbound items and the same deliveries
behind, whatever chunks it takes. -/
theorem bundles_independent_of_chunks (keyOf : Item → Except Fault Value)
    (process : BinId → Script (Option Outcome))
    (permitted : ∀ bin, (process bin).Uses
      (Call.Permitted (fun items => ∀ item ∈ items, item.HasWholeSize) (some bin)))
    (chunkSize : Number) (source : List Item) (clock : Moment) (policy : Policy)
    (events : List Event)
    (whole : ∀ item ∈ source ++ events.flatMap Event.items, item.HasWholeSize)
    (first second : Int) (positiveFirst : 1 ≤ first) (positiveSecond : 1 ≤ second) :
    let engine (chunkSize : Number) : Engine :=
      { hooks := .keyedBy keyOf process, chunkSize }
    let depot := run (engine chunkSize)
      (opening { source, sinks := Flow.sinksFor [] } clock policy) events
    depot.ready = [] → depot.shelf.thresholds.inconsistencies = .ok [] →
    (depot.flow.source.map Item.id).Nodup → ∀ most : Int,
    depot.shelf.thresholds.maxBinCount = .int most →
    depot.shelf.binCount + depot.flow.source.length < most →
    ∃ binned unused one more left other,
      takeIn (engine (.int first)) (alwaysScheduled depot) depot = (.ok (binned, unused), one) ∧
      takeIn (engine (.int second)) (alwaysScheduled depot) depot = (.ok (more, left), other) ∧
      one.flow.source = [] ∧ other.flow.source = [] ∧
      (∀ key, one.plainBins key = other.plainBins key) ∧
      (∀ item, one.Queues item ↔ other.Queues item) ∧
      one.flow.sinks = other.flow.sinks := by
  intro engine depot queue consistent distinct most isMost capacity
  have sound := coherent_after_run (engine chunkSize) (behave_keyedBy keyOf permitted) source
    [] clock policy events whole
  have supplied : Supplied depot := ⟨sound, consistent, distinct, most, isMost, by omega⟩
  have hasCapacity : hasCapacity depot = (.ok true, depot) := by
    have room := supplied.hasRoom
    unfold Engine.hasCapacity
    rw [queue, List.length_nil, Nat.add_zero, room]
  have takes (size : Int) (positive : 1 ≤ size) : ∃ binned unused reached,
      takeIn (engine (.int size)) (alwaysScheduled depot) depot =
        (.ok (binned, unused), reached) ∧ reached.flow.source = [] ∧
      TakenIn keyOf depot.flow.source depot reached := by
    obtain ⟨binned, unused, reached, run, taken⟩ := @intake_takenIn keyOf process size depot
      permitted positive (depot.flow.source.length + 2) supplied (by omega)
    refine ⟨binned, unused, reached, ?_, taken⟩
    unfold takeIn
    rw [Act.bind_of_ok hasCapacity]
    exact run
  have keyed : depot.QueueKeyed := by
    unfold QueueKeyed
    rw [queue]
    exact List.forall_mem_nil _
  obtain ⟨binned, unused, one, runOne, leftOne, takenOne⟩ := takes first positiveFirst
  obtain ⟨more, left, other, runOther, leftOther, takenOther⟩ := takes second positiveSecond
  have packing (key : Key) : one.packing key = other.packing key := by
    rw [takenOne.dealt.packing, takenOther.dealt.packing]
  refine ⟨binned, unused, one, more, left, other, runOne, runOther, leftOne, leftOther,
    fun key => congrArg Packing.bins (packing key), fun item => ?_, ?_⟩
  · have loners (key : Key) : one.loners key = other.loners key :=
      congrArg Packing.unbound (packing key)
    rw [(takenOne.dealt.keyed keyed).queues_iff, (takenOther.dealt.keyed keyed).queues_iff]
    simp only [loners]
  · rw [takenOne.sinks, takenOther.sinks]

/-- One item has no group, one is too large for a bin, and one needs a new bin, whether
all of them are taken in at once or one after the other. -/
theorem bundles_of_chunks_one_and_four :
    let keyOf (item : Item) : Except Fault Value :=
      if item.id = "x" then .error .hookFailure else .ok (.text "g")
    let process (_ : BinId) : Script (Option Outcome) := .fail .recoverable
    let engine (chunkSize : Number) : Engine :=
      { hooks := .keyedBy keyOf process, chunkSize }
    let source : List Item := [{ id := "z", size := .int 1 }]
    let events : List Event := [.activate [true, true, true],
      .put [{ id := "a", size := .int 2 }, { id := "x" }, { id := "b", size := .int 9 },
        { id := "c", size := .int 2 }],
      .applyPolicy { maxSize := some 4, maxBinCount := 100 }]
    let depot := run (engine (.int 1000)) (opening { source, sinks := Flow.sinksFor [] } {}
      { minEntries := 3, maxSize := some 4 }) events
    ∃ binned unused one more left other,
      takeIn (engine (.int 1)) (alwaysScheduled depot) depot = (.ok (binned, unused), one) ∧
      takeIn (engine (.int 4)) (alwaysScheduled depot) depot = (.ok (more, left), other) ∧
      one.flow.source = [] ∧ other.flow.source = [] ∧
      (∀ key, one.plainBins key = other.plainBins key) ∧
      (∀ item, one.Queues item ↔ other.Queues item) ∧
      one.flow.sinks = other.flow.sinks := by
  intro keyOf process engine source events depot
  have whole : ∀ item ∈ source ++ events.flatMap Event.items, item.HasWholeSize := by
    simp only [source, events, Event.items, List.flatMap_cons, List.flatMap_nil,
      List.nil_append, List.append_nil, List.cons_append, List.forall_mem_cons]
    exact ⟨⟨1, rfl⟩, ⟨2, rfl⟩, ⟨0, rfl⟩, ⟨9, rfl⟩, ⟨2, rfl⟩, List.forall_mem_nil _⟩
  exact bundles_independent_of_chunks keyOf process (fun _ => trivial) (.int 1000) source {}
    { minEntries := 3, maxSize := some 4 } events whole 1 4 (by decide) (by decide)
    (by decide +kernel) rfl (by decide +kernel) 100 rfl (by decide +kernel)

end Engine

end ItemBinning
