import ItemBinning.Proofs.Engine.Annals
import ItemBinning.Proofs.Engine.Bookkeeping
import ItemBinning.Proofs.Engine.ChunkBoundaries
import ItemBinning.Proofs.Engine.Lifecycle

/-!
# Strays

An item that finds no place on the shelf is queued in a bin of its own.  The bins of such
strays stand behind those that were queued before an intake, in the order in which the items
were offered: chunk by chunk, the groups of a chunk in the order in which they first appear
in it, and the items of a group in the order in which they were pulled.
-/

namespace ItemBinning

namespace Engine

open Depot

section Groups

variable {groups : Groups} {findings : List Finding}

/-- The items of loads, group by group in the order in which the groups first appear. -/
def groupwise (loads : List Load) : List Item :=
  (loads.map Prod.fst).eraseDups.flatMap fun key => ofKey key loads

theorem keys_addToGroup (group : Value) (key : Key) (item : Item) :
    (addToGroup groups group key item).keys =
      if key ∈ groups.keys then groups.keys else groups.keys ++ [key] :=
  Table.keys_put groups key _

/-- New groups are collected in the order in which they first appear. -/
theorem keys_collect (findings : List Finding) (groups : Groups) :
    (findings.foldl collect groups).keys = groups.keys ++
      (((loads findings).map Prod.fst).filter fun key => decide (key ∉ groups.keys)).eraseDups := by
  induction findings generalizing groups with
  | nil => exact (List.append_nil _).symm
  | cons finding rest ih =>
      obtain ⟨item, outcome⟩ := finding
      rw [List.foldl_cons, ih]
      rcases outcome with fault | ⟨version, group, key⟩
      · rfl
      · have all : (loads ({ item, outcome := .ok (version, group, key) } :: rest)).map Prod.fst =
            key :: (loads rest).map Prod.fst := rfl
        have collected : collect groups { item, outcome := .ok (version, group, key) } =
            addToGroup groups group key version := rfl
        rw [all, collected, keys_addToGroup, List.filter_cons]
        by_cases known : key ∈ groups.keys
        · simp [known]
        · simp only [known, if_false, not_false_eq_true, decide_true, if_true,
            List.eraseDups_cons, List.append_assoc, List.singleton_append, List.filter_filter,
            List.mem_append, List.mem_singleton, not_or, Bool.decide_and]
          congr 3
          refine List.filter_congr fun other _ => ?_
          rw [Bool.and_comm, Bool.beq_eq_decide_eq, decide_not]

/-- The groups of a chunk hold the items in the order of the groups. -/
theorem items_collect (findings : List Finding) :
    (findings.foldl collect .empty).values.flatMap Prod.snd = groupwise (loads findings) := by
  obtain ⟨groups, isGroups⟩ : ∃ groups, groups = findings.foldl collect .empty := ⟨_, rfl⟩
  have keys : groups.keys = ((loads findings).map Prod.fst).eraseDups := by
    rw [isGroups, keys_collect]
    simp [Table.keys, Table.empty]
  have held : ∀ entry ∈ groups.entries, entry.2.2 = ofKey entry.1 (loads findings) := by
    intro entry member
    have found := Table.find?_eq_some_iff.2 member
    have items := @itemsOf_collect .empty findings entry.1
    rw [← isGroups] at items
    unfold itemsOf at items
    rw [found] at items
    exact items
  rw [← isGroups, groupwise, ← keys, Table.values, Table.keys, List.flatMap_map, List.flatMap_map]
  exact List.flatMap_congr held

end Groups

end Engine

namespace Depot

/-- Items were queued in new bins, each in one of its own, and the bins that waited before
are as they were. -/
structure Strayed (items : List Item) (bins : List BinId) (before after : Depot) : Prop where
  next : before.bins.next ≤ after.bins.next
  handled : after.handled = before.handled
  queue : after.ready = before.ready ++ bins
  waiting : ∀ bin ∈ before.ready, after.bin bin = before.bin bin
  isNew : ∀ bin ∈ bins, before.bins.next ≤ bin
  contents : bins.map (fun bin => (after.bin bin).contents) = items.map fun item => [item]
  reasons : ∀ bin, (after.bin bin).reason =
    if bin ∈ bins then some .unbound else (before.bin bin).reason

variable {items more offered : List Item} {bins others : List BinId}
  {before between after depot : Depot} {number : BinId}

namespace Strayed

/-- No bin is queued by what leaves the queue and the reasons of all bins alone. -/
theorem of_ready (next : before.bins.next ≤ after.bins.next)
    (handled : after.handled = before.handled) (queue : after.ready = before.ready)
    (waiting : ∀ bin ∈ before.ready, after.bin bin = before.bin bin)
    (reasons : ∀ bin, (after.bin bin).reason = (before.bin bin).reason) :
    Strayed [] [] before after where
  next := next
  handled := handled
  queue := by rw [queue, List.append_nil]
  waiting := waiting
  isNew := nofun
  contents := rfl
  reasons := by simpa using reasons

theorem of_same (bins : after.bins = before.bins) (handled : after.handled = before.handled)
    (queue : after.ready = before.ready) : Strayed [] [] before after := by
  have same (bin : BinId) : after.bin bin = before.bin bin := congrArg (Slots.get · bin) bins
  exact of_ready (Nat.le_of_eq (by rw [bins])) handled queue (fun bin _ => same bin)
    fun bin => by rw [same]

theorem trans (first : Strayed items bins before between)
    (second : Strayed more others between after) :
    Strayed (items ++ more) (bins ++ others) before after where
  next := Nat.le_trans first.next second.next
  handled := second.handled.trans first.handled
  queue := by rw [second.queue, first.queue, List.append_assoc]
  waiting bin member := by
    rw [second.waiting bin (first.queue ▸ List.mem_append_left _ member), first.waiting bin member]
  isNew bin member := by
    rcases List.mem_append.1 member with earlier | later
    · exact first.isNew bin earlier
    · exact Nat.le_trans first.next (second.isNew bin later)
  contents := by
    have kept : bins.map (fun bin => (after.bin bin).contents) =
        bins.map fun bin => (between.bin bin).contents :=
      List.map_congr_left fun bin member => by
        rw [second.waiting bin (first.queue ▸ List.mem_append_right _ member)]
    rw [List.map_append, kept, first.contents, second.contents, List.map_append]
  reasons bin := by
    rw [second.reasons, first.reasons]
    by_cases later : bin ∈ others <;> simp [later]

theorem same (strayed : Strayed items bins before between) (sameBins : after.bins = between.bins)
    (handled : after.handled = between.handled) (queue : after.ready = between.ready) :
    Strayed items bins before after := by
  have both := strayed.trans (.of_same sameBins handled queue)
  rwa [List.append_nil, List.append_nil] at both

/-- The bins that were queued are the new ones that are ready since their items found no
place. -/
theorem mem_iff (strayed : Strayed items bins before after) {bin : BinId} :
    bin ∈ bins ↔ before.bins.next ≤ bin ∧ (after.bin bin).reason = some .unbound := by
  rw [strayed.reasons]
  constructor
  · intro member
    exact ⟨strayed.isNew bin member, if_pos member⟩
  · rintro ⟨isNew, told⟩
    have unused : before.bin bin = {} := Slots.get_of_next_le isNew
    by_contra absent
    rw [if_neg absent, unused] at told
    cases told

end Strayed

/-- Of items that were offered some were queued in new bins, in the order of the offers. -/
def Strays (offered : List Item) (before after : Depot) : Prop :=
  ∃ unbound bins, unbound.Sublist offered ∧ Strayed unbound bins before after

theorem Strays.of_same (bins : after.bins = before.bins) (handled : after.handled = before.handled)
    (queue : after.ready = before.ready) : Strays [] before after :=
  ⟨[], [], .refl _, .of_same bins handled queue⟩

theorem Strays.same (strays : Strays offered before between) (bins : after.bins = between.bins)
    (handled : after.handled = between.handled) (queue : after.ready = between.ready) :
    Strays offered before after := by
  obtain ⟨unbound, queued, within, strayed⟩ := strays
  exact ⟨unbound, queued, within, strayed.same bins handled queue⟩

theorem Strays.trans {offered later : List Item} (first : Strays offered before between)
    (second : Strays later between after) : Strays (offered ++ later) before after := by
  obtain ⟨unbound, bins, within, strayed⟩ := first
  obtain ⟨unboundLater, binsLater, withinLater, strayedLater⟩ := second
  exact ⟨unbound ++ unboundLater, bins ++ binsLater, within.append withinLater,
    strayed.trans strayedLater⟩

/-- A bin that does not wait may change, but not in its reason to be ready. -/
theorem strayed_setBin (apart : number ∉ depot.ready) (bin : Bin)
    (reason : bin.reason = (depot.bin number).reason) (flow : Flow) :
    depot.Strayed [] [] { depot.setBin number bin with flow } := by
  have isBin (other : BinId) : Depot.bin { depot.setBin number bin with flow } other =
      if other = number then bin else depot.bin other :=
    bin_setBin _ _ _ _
  refine .of_ready ?_ rfl rfl (fun other waits => ?_) fun other => ?_
  · exact Slots.next_le_next_set _ _ _
  · rw [isBin, if_neg (ne_of_mem_of_not_mem waits apart)]
  · rw [isBin]
    split
    · rename_i same
      rw [reason, same]
    · rfl

theorem offerTo_strayed (apart : number ∉ depot.ready) (item : Item) (source : SessionId) :
    depot.Strayed [] [] ((offerTo number item source).final depot) := by
  have outcome := offerTo_outcome number item source depot
  unfold Act.final
  generalize offerTo number item source depot = run at outcome
  cases outcome with
  | refused => exact .of_same rfl rfl rfl
  | turnedDown => exact strayed_setBin apart (depot.bin number).reject rfl depot.flow
  | kept _ flow => exact strayed_setBin apart (depot.bin number).resetRejections rfl flow
  | unweighed _ flow =>
      exact strayed_setBin apart ((depot.bin number).resetRejections.take item) rfl flow
  | taken size flow =>
      exact strayed_setBin apart { (depot.bin number).resetRejections.take item with size } rfl
        flow

theorem withBin_strayed (queued : ∀ bin ∈ depot.ready, bin < depot.bins.next) (bounds : Bounds)
    (group : Value) : depot.Strayed [] [] (depot.withBin bounds group) := by
  refine .of_ready ?_ rfl rfl (fun other waits => ?_) fun other => ?_
  · rw [next_withBin]
    exact Nat.le_succ _
  · exact bin_withBin_of_lt _ _ _ (queued other waits)
  · rw [bin_withBin]
    split
    · rename_i same
      have unused : depot.bin other = {} := Slots.get_of_next_le (Nat.le_of_eq same.symm)
      rw [unused]
    · rfl

/-- A new bin of one item may be made ready and queued last. -/
theorem Strayed.enqueue (strayed : Strayed [] [] before between) {item : Item}
    (isNew : before.bins.next ≤ number) (apart : number ∉ before.ready)
    (isAfter : after = { between.setBin number { between.bin number with
      state := .ready, reason := some .unbound } with ready := between.ready ++ [number] })
    (contents : (after.bin number).contents = [item]) :
    Strayed [item] [number] before after := by
  have isBin (other : BinId) : after.bin other = if other = number then
      { between.bin number with state := .ready, reason := some .unbound }
      else between.bin other := by
    rw [isAfter]
    exact bin_setBin _ _ _ _
  constructor
  case next =>
    rw [isAfter]
    exact Nat.le_trans strayed.next (Slots.next_le_next_set _ _ _)
  case handled =>
    rw [isAfter]
    exact strayed.handled
  case queue =>
    rw [isAfter]
    change between.ready ++ [number] = _
    rw [strayed.queue, List.append_nil]
  case waiting =>
    intro bin waits
    rw [isBin, if_neg (ne_of_mem_of_not_mem waits apart), strayed.waiting bin waits]
  case isNew => exact List.forall_mem_singleton.2 isNew
  case contents =>
    rw [List.map_singleton, contents]
    rfl
  case reasons =>
    intro bin
    rw [isBin]
    by_cases same : bin = number
    · rw [if_pos same, if_pos (List.mem_singleton.2 same)]
    · rw [if_neg same, if_neg (mt List.mem_singleton.1 same), strayed.reasons]
      rfl

end Depot

namespace Shelf

open Depot

variable {depot start : Depot} {property : Flow → Prop} {inUse : List SessionId}
  {group : Value} {key : Key} {item : Item}

theorem offerToFirst_strayed (source : SessionId) (bins : List BinId)
    (apart : ∀ bin ∈ bins, bin ∉ depot.ready) :
    (offerToFirst item source bins).Keeps (depot.Strayed [] []) := by
  induction bins with
  | nil => exact Act.Keeps.pure false
  | cons bin rest ih =>
      have offers : (offerTo bin item source).Keeps (depot.Strayed [] []) := by
        refine Act.Keeps.of_final fun reached strayed => strayed.trans (offerTo_strayed ?_ _ _)
        rw [strayed.queue, List.append_nil]
        exact apart bin (by simp)
      refine offers.bind fun taken => ?_
      split
      · exact Act.Keeps.pure true
      · exact ih fun other later => apart other (List.mem_cons_of_mem _ later)

theorem openBinFor_strayed (queued : ∀ bin ∈ depot.ready, bin < depot.bins.next)
    (source : SessionId) :
    depot.Strayed [] [] ((openBinFor group key item source).final depot) := by
  unfold Act.final
  rw [openBinFor_apply]
  have created := withBin_strayed queued depot.shelf.thresholds.bounds group
  have apart : depot.bins.next ∉ (depot.withBin depot.shelf.thresholds.bounds group).ready :=
    fun waits => Nat.lt_irrefl _ (queued _ waits)
  have offered := created.trans (offerTo_strayed apart item source)
  unfold Act.final at offered
  rcases run : offerTo depot.bins.next item source
    (depot.withBin depot.shelf.thresholds.bounds group) with ⟨fault | taken, reached⟩ <;>
    rw [run] at offered
  · rw [Act.bind_of_error run]
    exact offered
  · rw [Act.bind_of_ok run]
    cases taken with
    | false => exact offered
    | true => exact offered.trans (.of_same rfl rfl rfl)

/-- Finding a place for an item queues nothing. -/
theorem place_strayed (sound : depot.Sound property inUse) (source : SessionId) :
    depot.Strayed [] [] ((place group key item source).final depot) := by
  have apart : ∀ bin ∈ depot.shelf.binsOf key, bin ∉ depot.ready := fun bin member waits =>
    sound.queued.not_mem_bins sound.arranged waits (mem_bins_iff.2 ⟨key, member⟩)
  have offered : (offerToFirst item source (depot.shelf.binsOf key)).Keeps
      (depot.Strayed [] []) := offerToFirst_strayed source _ apart
  have opens : (openBinFor group key item source).Keeps (depot.Strayed [] []) := by
    refine Act.Keeps.of_final fun reached strayed => strayed.trans (openBinFor_strayed ?_ source)
    rw [strayed.queue, List.append_nil]
    exact fun bin waits => Nat.lt_of_lt_of_le (sound.queued.isBin bin waits) strayed.next
  refine Act.Meets.final (offered.bind fun taken => ?_) (Strayed.of_same rfl rfl rfl)
  split
  · exact Act.Keeps.pure true
  · refine (Act.Keeps.look _).bind fun full => ?_
    split
    · exact Act.Keeps.pure false
    · exact opens

theorem offer_strayed (carried : Flow.Carried property) (group : Value) (items : List Item)
    (whole : ∀ item ∈ items, item.HasWholeSize) (source : SessionId) :
    (offer group items source).Keeps fun depot =>
      depot.Sound property inUse ∧ start.Strayed [] [] depot := by
  refine offer_keeps fun key isKey item member => ?_
  refine Act.Keeps.of_final fun depot ⟨sound, strayed⟩ => ⟨?_, ?_⟩
  · exact (place_sound carried isKey (whole item member) source).final sound
  · exact strayed.trans (place_strayed sound source)

end Shelf

namespace Engine

open Depot

variable {depot : Depot} {property : Flow → Prop} {inUse : List SessionId} {session : SessionId}
  {engine : Engine} {mayPut : List Item → Prop} {group : Value} {key : Key} {item : Item}

/-- An item that found no place is queued behind all bins that wait. -/
theorem queueUnbound_strayed (isKey : group.key? = some key) (whole : item.HasWholeSize)
    (sound : depot.Sound property inUse) :
    (queueUnbound group session item).Meets (· = depot)
      (fun _ => depot.Strayed [item] [depot.bins.next]) fun _ _ => True := by
  refine Act.Meets.of_runs ?_ fun _ _ _ _ _ => trivial
  rintro depot ⟨⟩ after rfl run
  obtain ⟨_, _, bin, queue, contents, _⟩ := (queueUnbound_queues isKey whole).of_ok rfl run
  have created := withBin_strayed sound.queued.isBin Bounds.relaxed group
  have apart : depot.bins.next ∉ (depot.withBin Bounds.relaxed group).ready :=
    fun waits => Nat.lt_irrefl _ (sound.queued.isBin _ waits)
  have offered := created.trans (offerTo_strayed apart item session)
  have steady := (offerTo_steady (lt_next_withBin depot Bounds.relaxed group) item session).final
    (.refl _)
  unfold Act.final at offered steady
  rw [queueUnbound_apply] at run
  rcases offers : offerTo depot.bins.next item session (depot.withBin Bounds.relaxed group)
    with ⟨fault | taken, reached⟩ <;> rw [offers] at offered steady
  · rw [Act.bind_of_error offers] at run
    cases run
  rw [Act.bind_of_ok offers, Act.bind_of_ok (markReady_eq .unbound steady.opened_withBin)] at run
  have isAfter : after = _ := (congrArg Prod.snd run).symm
  obtain rfl : depot.bins.next = bin := by
    have same : reached.ready ++ [depot.bins.next] = depot.ready ++ [bin] := by
      rw [← queue, isAfter]
      rfl
    rw [offered.queue, List.append_assoc] at same
    simpa using same
  exact offered.enqueue (Nat.le_refl _) apart isAfter contents

theorem queueAll_strayed (carried : Flow.Carried property) (isKey : group.key? = some key)
    (items : List Item) (whole : ∀ item ∈ items, item.HasWholeSize)
    (sound : depot.Sound property inUse) :
    (Act.forEach items (queueUnbound group session)).Meets (· = depot)
      (fun _ after => ∃ bins, depot.Strayed items bins after) fun _ _ => True := by
  induction items generalizing depot with
  | nil =>
      refine Act.Meets.pure fun reached isReached => ?_
      rw [isReached]
      exact ⟨[], .of_same rfl rfl rfl⟩
  | cons item rest ih =>
      obtain ⟨isWhole, wholeRest⟩ := List.forall_mem_cons.1 whole
      refine ((queueUnbound_strayed isKey isWhole sound).keeping
        (queueUnbound_sound carried group session isWhole) sound).bind fun _ => ?_
      rintro between ⟨strayed, soundThen⟩
      refine (ih wholeRest soundThen).weaken (fun _ => id) (fun _ reached => ?_)
        (fun _ _ => id) between rfl
      exact fun ⟨bins, later⟩ => ⟨_, strayed.trans later⟩

/-- What stays unbound of a group is queued in its order. -/
theorem offerGroup_strays (carried : Flow.Carried property) (isKey : group.key? = some key)
    (items : List Item) (whole : ∀ item ∈ items, item.HasWholeSize)
    (sound : depot.Sound property inUse) :
    (offerGroup session group items).Meets (· = depot)
      (fun _ after => depot.Strays items after ∧ after.Sound property inUse)
      fun _ _ => True := by
  have offered : (Shelf.offer group items session).Meets (· = depot)
      (fun unbound between => (between.Sound property inUse ∧ depot.Strayed [] [] between) ∧
        unbound.Sublist items) fun _ _ => True :=
    ((Shelf.offer_strayed carried group items whole session).and
      ((Shelf.offer_unbound group items session).weaken (fun _ _ => trivial) (fun _ _ => id)
        fun _ _ => id)).weaken (by rintro _ rfl; exact ⟨sound, .of_same rfl rfl rfl⟩)
        (fun _ _ => id) fun _ _ _ => trivial
  refine offered.bind fun unbound => ?_
  rintro between ⟨⟨soundThen, nothing⟩, within⟩
  have wholeUnbound := fun item member => whole item (within.subset member)
  refine ((queueAll_strayed carried isKey unbound wholeUnbound soundThen).keeping
    (Act.Keeps.forEach fun item member =>
      queueUnbound_sound carried group session (wholeUnbound item member))
    soundThen).bind (fun _ => ?_) between rfl
  refine Act.Meets.modify ?_
  rintro queued ⟨⟨bins, strayed⟩, soundQueued⟩
  exact ⟨⟨unbound, bins, within, (nothing.trans strayed).same rfl rfl rfl⟩,
    soundQueued.of_same rfl rfl rfl rfl rfl⟩

theorem offerGroups_strays (carried : Flow.Carried property)
    (groups : List (Value × List Item)) (keyed : Keyed groups)
    (sound : depot.Sound property inUse) :
    (offerGroups session groups).Meets (· = depot)
      (fun _ => depot.Strays (groups.flatMap Prod.snd)) fun _ _ => True := by
  induction groups generalizing depot with
  | nil =>
      refine Act.Meets.pure fun reached isReached => ?_
      rw [isReached]
      exact .of_same rfl rfl rfl
  | cons entry rest ih =>
      obtain ⟨group, items⟩ := entry
      obtain ⟨⟨⟨key, isKey⟩, whole⟩, keyedRest⟩ := List.forall_mem_cons.1 keyed
      rw [offerGroups_cons]
      refine (offerGroup_strays carried isKey items whole sound).bind fun _ => ?_
      rintro between ⟨strays, soundThen⟩
      refine (ih keyedRest soundThen).bind (fun _ => Act.Meets.pure fun _ later => ?_) between rfl
      exact strays.trans later

/-- A chunk is noted with what is found of its items. -/
def noteChunk (engine : Engine) (depot : Depot) : List (List Item × List Finding) :=
  [(engine.nextChunk depot, engine.nextFindings depot)]

/-- The chunks that an activation takes in, each with what is found of its items. -/
def chunks (engine : Engine) (answers : List Bool) (depot : Depot) :
    List (List Item × List Finding) :=
  engine.takeInNotes engine.noteChunk answers depot

/-- Of some chunks, what is found tells of all items one after the other, and in which order
those that find no place are queued. -/
structure Straying (chunks : List (List Item × List Finding)) (before after : Depot) : Prop where
  found : ∀ chunk ∈ chunks, chunk.2.map Finding.item = chunk.1
  strays : before.Strays (chunks.flatMap fun chunk => groupwise (loads chunk.2)) after

theorem Straying.none (depot : Depot) : Straying [] depot depot :=
  ⟨nofun, .of_same rfl rfl rfl⟩

theorem Straying.trans {chunks later : List (List Item × List Finding)}
    {before between after : Depot} (first : Straying chunks before between)
    (second : Straying later between after) : Straying (chunks ++ later) before after where
  found := List.forall_mem_append.2 ⟨first.found, second.found⟩
  strays := by
    rw [List.flatMap_append]
    exact first.strays.trans second.strays

section Chunks

variable {start : Depot}

theorem onFlow_strayed {α : Type} (act : Act Flow α) :
    (onFlow act).Keeps (start.Strayed [] []) :=
  Act.Keeps.of_final fun _ strayed => strayed.same rfl rfl rfl

theorem count_strayed (change : Counters → Counters) :
    (count change).Keeps (start.Strayed [] []) :=
  Act.Keeps.of_final fun _ strayed => strayed.same rfl rfl rfl

theorem script_strayed {α : Type} {script : Script α}
    (uses : script.Uses (Call.Permitted mayPut none)) :
    script.run.Keeps (start.Strayed [] []) := by
  refine uses.keeps fun call permitted => Act.Keeps.of_final fun depot strayed => ?_
  obtain ⟨untouched, _⟩ := call.perform_untouched permitted depot
  exact strayed.same untouched.bins untouched.handled ((call.perform_ready depot.ready).final rfl)

variable (carried : Flow.Carried property) (putKeeps : PutKeeps property mayPut)
  (behave : engine.hooks.Behave mayPut)
include carried putKeeps behave

/-- Sorting a chunk queues nothing. -/
theorem sortItems_strayed (items : List Item) (distinct : (items.map Item.id).Nodup)
    (whole : ∀ item ∈ items, item.HasWholeSize) :
    (sortItems engine.hooks session items).Meets
      (fun depot => depot.Sound property [session] ∧ start.Strayed [] [] depot)
      (fun findings depot => (depot.Sound property [session] ∧ start.Strayed [] [] depot) ∧
        findings.map Finding.item = items ∧
        ∀ finding ∈ findings, finding.Right Item.HasWholeSize)
      fun _ _ => True := by
  have rules := intakeRules carried putKeeps behave.preprocess behave.groupKey behave.versions
  have classified (item : Item) (isWhole : item.HasWholeSize) :
      (classify engine.hooks session item).Meets
        (fun depot => depot.Sound property [session] ∧ start.Strayed [] [] depot)
        (fun placed depot => (depot.Sound property [session] ∧ start.Strayed [] [] depot) ∧
          placed.2.1.key? = some placed.2.2 ∧ placed.1.HasWholeSize)
        fun _ depot => depot.Sound property [session] ∧ start.Strayed [] [] depot := by
    refine classify_meets ?_ fun version _ => ?_
    · refine ((rules.preprocessed session item isWhole).both
        (script_strayed (behave.preprocess item session))).weaken (fun _ => id) ?_ fun _ _ => id
      exact fun _ _ ⟨⟨sound, isWhole⟩, strayed⟩ => ⟨⟨sound, strayed⟩, isWhole⟩
    · exact (rules.keyed session version).both (script_strayed (behave.groupKey version))
  refine sortItems_meets (fun _ depot => depot.Sound property [session] ∧
    start.Strayed [] [] depot) (fun _ version => version.HasWholeSize) (fun _ _ => True) []
    items distinct (fun _ item member _ => classified item (whole item member)) ?_ ?_
  · exact fun _ item _ => Act.Keeps.answering
      ((rules.routed session item).both (onFlow_strayed _))
  · exact fun _ change => Act.Keeps.answering
      ((rules.counted session change).both (count_strayed change))

/-- What stays unbound of a chunk is queued group by group. -/
theorem binItems_strays {items : List Item} {binned : Nat} {after : Depot}
    (distinct : (items.map Item.id).Nodup) (whole : ∀ item ∈ items, item.HasWholeSize)
    (sound : depot.Sound property [session])
    (bins : binItems engine.hooks session items depot = (.ok binned, after)) :
    ∃ findings sorted, sortItems engine.hooks session items depot = (.ok findings, sorted) ∧
      findings.map Finding.item = items ∧ depot.Strays (groupwise (loads findings)) after := by
  rw [binItems_eq] at bins
  obtain ⟨findings, sorted, sorts, offers⟩ := Act.bind_eq_ok bins
  obtain ⟨count, offered, offers, commits⟩ := Act.bind_eq_ok offers
  obtain ⟨⟨soundThen, nothing⟩, isItems, rights⟩ :=
    (sortItems_strayed carried putKeeps behave items distinct whole).of_ok
      ⟨sound, Strayed.of_same rfl rfl rfl⟩ sorts
  have keyed := (@collect_findings (fun _ => Item.HasWholeSize) findings rights fun _ _ => id).1
  have strays := (offerGroups_strays carried _ keyed soundThen).of_ok rfl offers
  rw [items_collect] at strays
  have committed : (onFlow (Flow.commit session)).Keeps
      (sorted.Strays (groupwise (loads findings))) :=
    Act.Keeps.of_final fun _ strays => strays.same rfl rfl rfl
  have ended := (Act.Keeps.bind committed fun _ => Act.Keeps.pure count).of_ok strays commits
  exact ⟨findings, sorted, sorts, isItems, .trans ⟨[], [], .refl _, nothing⟩ ended⟩

/-- Of a chunk that is taken, what is found of its items tells in which order those that find
no place are queued. -/
theorem takeChunk_strays {answer : Option Nat} {after : Depot}
    (sound : depot.Sound property []) (taken : takeChunk engine depot = (.ok answer, after)) :
    (engine.nextFindings depot).map Finding.item = engine.nextChunk depot ∧
      depot.Strays (groupwise (loads (engine.nextFindings depot))) after := by
  obtain ⟨session, items, pulled, run, drawn, rest⟩ := takeChunk_eq_ok taken
  rw [nextChunk_eq run]
  have drew : depot.Strays [] pulled := by
    refine .of_same ?_ ?_ drawn.ready <;> rw [drawn.rest]
  rcases rest with ⟨rfl, rfl, rfl⟩ | ⟨_, binned, rfl, bins⟩
  · have sorts : sortItems engine.hooks session [] after = (.ok [], after) := rfl
    rw [nextFindings_eq run sorts]
    exact ⟨rfl, drew⟩
  · obtain ⟨atWork, whole⟩ := pullChunk_atWork carried sound run drawn
    obtain ⟨findings, sorted, sorts, isItems, strays⟩ :=
      binItems_strays carried putKeeps behave drawn.distinct whole atWork.sound bins
    rw [nextFindings_eq run sorts]
    exact ⟨isItems, drew.trans strays⟩

/-- Strays are queued chunk by chunk. -/
theorem intake_strays (answers : List Bool) {result : Nat × List Bool} {after : Depot}
    (sound : depot.Sound property []) (run : intake engine answers depot = (.ok result, after)) :
    Straying (engine.intakeNotes engine.noteChunk answers depot) depot after := by
  have rules := intakeRules carried putKeeps behave.preprocess behave.groupKey behave.versions
  induction answers generalizing depot result with
  | nil =>
      cases run
      exact .none after
  | cons scheduled rest ih =>
      rw [intake_cons] at run
      obtain ⟨room, _, asked, run⟩ := Act.bind_eq_ok run
      obtain ⟨isRoom, rfl⟩ := Prod.mk.inj asked
      have hasRoom : depot.shelf.hasRoom = .ok room := isRoom
      unfold intakeNotes
      rw [hasRoom]
      cases room with
      | false =>
          cases run
          cases scheduled <;> exact .none after
      | true =>
          cases scheduled with
          | false =>
              cases run
              exact .none after
          | true =>
              obtain ⟨answer, reached, taken, run⟩ := Act.bind_eq_ok run
              obtain ⟨found, strays⟩ := takeChunk_strays carried putKeeps behave sound taken
              have first : Straying (engine.noteChunk depot) depot reached :=
                ⟨List.forall_mem_singleton.2 found, by simpa [noteChunk] using strays⟩
              dsimp only
              rw [taken]
              cases answer with
              | none =>
                  cases run
                  exact first.trans (.none after)
              | some binned =>
                  obtain ⟨later, ended, intakes, ends⟩ := Act.bind_eq_ok run
                  cases ends
                  exact first.trans (ih (rules.takeChunk.of_ok sound taken) intakes)

theorem takeIn_strays (answers : List Bool) {result : Nat × List Bool} {after : Depot}
    (sound : depot.Sound property []) (run : takeIn engine answers depot = (.ok result, after)) :
    Straying (engine.chunks answers depot) depot after := by
  obtain ⟨capacity, _, asked, run⟩ := Act.bind_eq_ok run
  obtain ⟨isCapacity, rfl⟩ := Prod.mk.inj asked
  unfold chunks takeInNotes
  rw [asked]
  cases capacity with
  | true => exact intake_strays carried putKeeps behave answers sound run
  | false =>
      cases run
      exact .none depot

end Chunks

end Engine

end ItemBinning
