import ItemBinning.Proofs.Engine.Haulage

/-!
# Sorting a chunk

An item of a chunk is given a version and a group, or a hook fails for it.  Sorting a
chunk item by item and keeping these findings tells more than the groups do, and the
groups can be collected from the findings afterwards: they hold just the versions that
were given a group, each under the key of its group.
-/

namespace ItemBinning.Engine

open Depot

/-- What became of an item when its group was to be computed: the version, the group
and its key, or a fault. -/
structure Finding where
  item : Item
  outcome : Except Fault (Item × Value × Key)

namespace Finding

/-- The version that was given a group, with the key of the group. -/
def load? (finding : Finding) : Option Load :=
  match finding.outcome with
  | .ok (version, _, key) => some (key, version)
  | .error _ => none

/-- The hooks gave the item no group. -/
def Failed (finding : Finding) : Prop :=
  finding.load? = none

instance (finding : Finding) : Decidable finding.Failed :=
  inferInstanceAs (Decidable (finding.load? = none))

end Finding

/-- Sort items one by one like `groupItems`, and answer with the findings. -/
def sortItems (hooks : Hooks) (session : SessionId) : List Item → Act Depot (List Finding)
  | [] => pure []
  | item :: rest => do
      let outcome ← Act.attempt (classify hooks session item)
      match outcome with
      | .ok _ => pure ()
      | .error _ => do
          onFlow (Flow.route session [item] failureRelationship)
          count fun counters =>
            { counters with groupingFailures := counters.groupingFailures + 1 }
      let findings ← sortItems hooks session rest
      pure ({ item, outcome } :: findings)

/-- Sort one item. -/
def sortItem (hooks : Hooks) (session : SessionId) (item : Item) : Act Depot Finding := do
  let outcome ← Act.attempt (classify hooks session item)
  match outcome with
  | .ok _ => pure ()
  | .error _ => do
      onFlow (Flow.route session [item] failureRelationship)
      count fun counters =>
        { counters with groupingFailures := counters.groupingFailures + 1 }
  pure { item, outcome }

theorem sortItems_cons (hooks : Hooks) (session : SessionId) (item : Item) (rest : List Item) :
    sortItems hooks session (item :: rest) = (do
      let finding ← sortItem hooks session item
      let findings ← sortItems hooks session rest
      pure (finding :: findings)) := by
  unfold sortItem
  rw [sortItems, bind_assoc]
  congr 1
  funext outcome
  cases outcome <;> simp only [bind_assoc, pure_bind]

def collect (groups : Groups) (finding : Finding) : Groups :=
  match finding.outcome with
  | .ok (version, group, key) => addToGroup groups group key version
  | .error _ => groups

/-- The groups of a chunk are collected from its findings. -/
theorem groupItems_eq (hooks : Hooks) (session : SessionId) (items : List Item)
    (groups : Groups) :
    groupItems hooks session items groups = (do
      let findings ← sortItems hooks session items
      pure (findings.foldl collect groups)) := by
  induction items generalizing groups with
  | nil => rfl
  | cons item rest ih =>
      unfold groupItems sortItems
      rw [bind_assoc]
      congr 1
      funext outcome
      rcases outcome with fault | ⟨version, group, key⟩
      · simp only [bind_assoc, pure_bind, ih]
        rfl
      · simp only [bind_assoc, pure_bind, ih]
        rfl

theorem binItems_eq (hooks : Hooks) (session : SessionId) (items : List Item) :
    binItems hooks session items = (do
      let findings ← sortItems hooks session items
      let binned ← offerGroups session (findings.foldl collect .empty).values
      onFlow (Flow.commit session)
      pure binned) := by
  unfold binItems
  rw [groupItems_eq, bind_assoc]
  simp only [pure_bind]

/-- The finding gives the item a group of its key and a version that is good. -/
def Finding.Right (good : Item → Prop) (finding : Finding) : Prop :=
  ∀ version group key, finding.outcome = .ok (version, group, key) →
    group.key? = some key ∧ good version

theorem Finding.Right.mono {good better : Item → Prop} {finding : Finding}
    (right : finding.Right better) (weaker : ∀ item, better item → good item) :
    finding.Right good :=
  fun version group key outcome =>
    (right version group key outcome).imp_right (weaker version)

theorem Finding.Right.of_load? {good : Item → Prop} {finding : Finding}
    (right : finding.Right good) {load : Load} (isLoad : finding.load? = some load) :
    good load.2 := by
  obtain ⟨item, outcome⟩ := finding
  rcases outcome with fault | ⟨version, group, key⟩
  · cases isLoad
  · cases isLoad
    exact (right version group key rfl).2

section Kept

variable {hooks : Hooks} {session : SessionId}

theorem classify_meets {kept : Depot → Prop} {item : Item} {good : Item → Prop}
    (preprocessed : (hooks.preprocess item session).run.Meets kept
      (fun version depot => kept depot ∧ ∀ given, version = some given → good given)
      fun _ => kept)
    (keyed : ∀ version, good version → (hooks.groupKey version).run.Keeps kept) :
    (classify hooks session item).Meets kept
      (fun placed depot => kept depot ∧
        placed.2.1.key? = some placed.2.2 ∧ good placed.1) fun _ => kept := by
  refine preprocessed.bind fun answer => ?_
  cases answer with
  | none => exact Act.Meets.fail fun _ => And.left
  | some version =>
      refine Act.Meets.knowing fun isGood => ?_
      refine Act.Meets.bind (keyed version (isGood version rfl)) fun group => ?_
      rcases isKey : group.key? with _ | key
      · exact Act.Meets.fail fun _ => id
      · exact Act.Meets.pure fun _ holds => ⟨holds, isKey, isGood version rfl⟩

/-- An item that is classified is sorted, and one that is not is routed and counted first. -/
theorem sortItem_meets {item : Item} {before : Depot → Prop} {found : Finding → Depot → Prop}
    {unplaced aside stopped : Fault → Depot → Prop}
    (classified : (classify hooks session item).Meets before
      (fun placed => found { item, outcome := .ok placed }) unplaced)
    (routed : ∀ fault, (onFlow (Flow.route session [item] failureRelationship)).Meets
      (unplaced fault) (fun _ => aside fault) stopped)
    (counted : ∀ fault, (count fun counters =>
        { counters with groupingFailures := counters.groupingFailures + 1 }).Meets
      (aside fault) (fun _ => found { item, outcome := .error fault }) stopped) :
    (sortItem hooks session item).Meets before found stopped := by
  refine classified.attempt.bind fun outcome => ?_
  cases outcome with
  | ok placed => exact Act.Meets.pure fun _ => id
  | error fault =>
      refine (routed fault).bind fun _ => (counted fault).bind fun _ => ?_
      exact Act.Meets.pure fun _ => id

/-- The items that the hooks gave no group. -/
def failures (findings : List Finding) : List Item :=
  (findings.filter fun finding => decide finding.Failed).map Finding.item

theorem failures_cons (finding : Finding) (findings : List Finding) :
    failures (finding :: findings) = failures [finding] ++ failures findings := by
  unfold failures
  rw [← List.map_append, ← List.filter_append, List.singleton_append]

variable (kept : List Item → Depot → Prop) (good : Item → Item → Prop)
  (stopped : Fault → Depot → Prop)

/-- Sorting a chunk keeps what the hooks keep for each item, if what is kept of the
items that failed grows with each one that is routed. -/
theorem sortItems_meets (failed items : List Item)
    (distinct : ((failed ++ items).map Item.id).Nodup)
    (classified : ∀ failed, ∀ item ∈ items, item.id ∉ failed.map Item.id →
      (classify hooks session item).Meets (kept failed)
        (fun placed depot => kept failed depot ∧
          placed.2.1.key? = some placed.2.2 ∧ good item placed.1) fun _ => kept failed)
    (routed : ∀ failed, ∀ item ∈ items,
      (onFlow (Flow.route session [item] failureRelationship)).Meets (kept failed)
        (fun _ => kept (failed ++ [item])) stopped)
    (counted : ∀ failed change,
      (count change).Meets (kept failed) (fun _ => kept failed) stopped) :
    (sortItems hooks session items).Meets (kept failed)
      (fun findings depot => kept (failed ++ failures findings) depot ∧
        findings.map Finding.item = items ∧
        ∀ finding ∈ findings, finding.Right (good finding.item)) stopped := by
  induction items generalizing failed with
  | nil =>
      refine Act.Meets.pure fun depot holds => ⟨?_, rfl, nofun⟩
      rw [failures, List.filter_nil, List.map_nil, List.append_nil]
      exact holds
  | cons item rest ih =>
      have fresh : item.id ∉ failed.map Item.id := by
        rw [List.map_append, List.map_cons] at distinct
        exact fun seen => (List.nodup_append.1 distinct).2.2 _ seen _ (by simp) rfl
      have sorted : (sortItem hooks session item).Meets (kept failed)
          (fun finding depot => kept (failed ++ failures [finding]) depot ∧
            finding.item = item ∧ finding.Right (good item)) stopped := by
        refine sortItem_meets ?_ (fun _ => routed failed item (by simp)) fun fault => ?_
        · refine (classified failed item (by simp) fresh).weaken (fun _ => id) ?_ fun _ _ => id
          rintro placed depot ⟨holds, isRight⟩
          refine ⟨(List.append_nil failed).symm ▸ holds, rfl, ?_⟩
          rintro _ _ _ ⟨⟩
          exact isRight
        · refine (counted (failed ++ [item]) _).weaken (fun _ => id) ?_ fun _ _ => id
          exact fun _ depot holds => ⟨holds, rfl, nofun⟩
      rw [sortItems_cons]
      refine sorted.bind fun finding => Act.Meets.knowing fun ⟨isItem, right⟩ => ?_
      have apart : ((failed ++ failures [finding] ++ rest).map Item.id).Nodup := by
        refine distinct.sublist (List.Sublist.map _ ?_)
        rw [List.append_assoc, ← isItem]
        exact ((List.filter_sublist.map _).append_right rest).append_left failed
      refine (ih _ apart (fun failed other member => classified failed other
        (List.mem_cons_of_mem _ member)) fun failed other member => routed failed other
          (List.mem_cons_of_mem _ member)).bind fun findings => Act.Meets.pure ?_
      rintro depot ⟨holds, items, rights⟩
      rw [failures_cons, ← List.append_assoc, List.map_cons, items, isItem]
      exact ⟨holds, rfl, List.forall_mem_cons.2 ⟨isItem ▸ right, rights⟩⟩

end Kept

/-- Every group stands under the key of its value. -/
def Labelled (groups : Groups) : Prop :=
  ∀ key entry, groups.find? key = some entry → entry.1.key? = some key

theorem labelled_addToGroup {groups : Groups} (labelled : Labelled groups) {group : Value}
    {key : Key} (isKey : group.key? = some key) (item : Item) :
    Labelled (addToGroup groups group key item) := by
  intro other entry found
  unfold addToGroup at found
  rw [Table.find?_put] at found
  split at found
  · rename_i same
    cases found
    cases before : groups.find? key with
    | none => exact same ▸ isKey
    | some entry => exact same ▸ labelled key entry before
  · exact labelled other entry found

theorem loadsOf_addToGroup {groups : Groups} (labelled : Labelled groups) {group : Value}
    {key : Key} (isKey : group.key? = some key) (item : Item) :
    (loadsOf (addToGroup groups group key item).values).Perm
      (loadsOf groups.values ++ [(key, item)]) := by
  classical
  let measure (load : Load) (_ : Key) (entry : Value × List Item) : Nat :=
    (entry.2.map fun item => (entry.1.key?.getD .nothing, item)).count load
  have counted (groups : Groups) (load : Load) :
      (loadsOf groups.values).count load = groups.total (measure load) := by
    unfold loadsOf Table.values Table.total
    rw [List.count_flatMap, List.map_map]
    rfl
  apply List.perm_iff_count.2
  intro load
  rw [List.count_append, counted, counted]
  obtain ⟨entry, isEntry⟩ : ∃ entry, entry = (groups.find? key).getD (group, []) := ⟨_, rfl⟩
  have named : entry.1.key? = some key := by
    rw [isEntry]
    cases found : groups.find? key with
    | none => exact isKey
    | some before => exact labelled key before found
  have share : groups.share (measure load) key = measure load key entry := by
    unfold Table.share
    rw [isEntry]
    cases groups.find? key <;> rfl
  have put := groups.total_put key (entry.1, entry.2 ++ [item]) (measure load)
  have added : measure load key (entry.1, entry.2 ++ [item]) =
      measure load key entry + [(key, item)].count load := by
    simp only [measure, List.map_append, List.count_append, List.map_singleton, named,
      Option.getD_some]
  have same : addToGroup groups group key item =
      groups.put key (entry.1, entry.2 ++ [item]) := by
    rw [isEntry]
    rfl
  rw [same]
  omega

/-- The groups that are collected hold the versions that were given a group. -/
theorem loadsOf_collect {good : Item → Item → Prop} (findings : List Finding)
    (rights : ∀ finding ∈ findings, finding.Right (good finding.item)) {groups : Groups}
    (labelled : Labelled groups) :
    Labelled (findings.foldl collect groups) ∧
      (loadsOf (findings.foldl collect groups).values).Perm
        (loadsOf groups.values ++ findings.filterMap Finding.load?) := by
  induction findings generalizing groups with
  | nil =>
      refine ⟨labelled, ?_⟩
      rw [List.filterMap_nil, List.append_nil]
      exact .refl _
  | cons finding rest ih =>
      have later := fun other member => rights other (List.mem_cons_of_mem finding member)
      have right := rights finding (by simp)
      obtain ⟨item, outcome⟩ := finding
      rcases outcome with fault | ⟨version, group, key⟩
      · exact ih later labelled
      · have isKey := (right version group key rfl).1
        obtain ⟨labelledAll, perm⟩ := ih later (labelled_addToGroup labelled isKey version)
        refine ⟨labelledAll, perm.trans ?_⟩
        rw [List.filterMap_cons_some (rfl : Finding.load? _ = some (key, version)),
          ← List.singleton_append, ← List.append_assoc]
        exact (loadsOf_addToGroup labelled isKey version).append_right _

/-- The groups of a chunk are those of keys, and hold the versions that were given a
group. -/
theorem collect_findings {good : Item → Item → Prop} (findings : List Finding)
    (rights : ∀ finding ∈ findings, finding.Right (good finding.item))
    (whole : ∀ item version, good item version → version.HasWholeSize) :
    Keyed (findings.foldl collect .empty).values ∧
      (loadsOf (findings.foldl collect .empty).values).Perm
        (findings.filterMap Finding.load?) := by
  have none : Labelled .empty := nofun
  obtain ⟨labelled, perm⟩ := loadsOf_collect findings rights none
  refine ⟨fun entry member => ?_, perm⟩
  obtain ⟨key, found⟩ := Table.mem_values_iff.1 member
  refine ⟨⟨key, labelled key entry found⟩, fun item inGroup => ?_⟩
  have isLoad : (entry.1.key?.getD .nothing, item) ∈
      loadsOf (findings.foldl collect .empty).values :=
    List.mem_flatMap.2 ⟨entry, member, List.mem_map_of_mem inGroup⟩
  obtain ⟨finding, given, isGiven⟩ := List.mem_filterMap.1 (perm.subset isLoad)
  exact whole finding.item item ((rights finding given).of_load? isGiven)

/-- The loads that a chunk with some findings is. -/
def loads (findings : List Finding) : List Load :=
  findings.filterMap Finding.load?

theorem mem_loads_iff {findings : List Finding} {load : Load} :
    load ∈ loads findings ↔ ∃ finding ∈ findings, finding.load? = some load :=
  List.mem_filterMap

section Binning

variable {hooks : Hooks} {session : SessionId} {items : List Item} {start : Depot}
  {property : Flow → Prop}

/-- What becomes of a chunk that is binned from a depot. -/
inductive Binning (property : Flow → Prop) (hooks : Hooks) (session : SessionId)
    (items : List Item) (start : Depot) : Except Fault Nat × Depot → Prop
  /-- An item that failed could not be routed. -/
  | unsorted (fault : Fault) (reached : Depot)
      (run : sortItems hooks session items start = (.error fault, reached)) :
      Binning property hooks session items start (.error fault, reached)
  /-- Not all items could be stowed. -/
  | stopped (fault : Fault) (reached : Depot) (findings : List Finding) (sorted : Depot)
      (run : sortItems hooks session items start = (.ok findings, sorted))
      (stopped : Stopped property session sorted (loads findings) reached) :
      Binning property hooks session items start (.error fault, reached)
  /-- Some items that were left have no destination. -/
  | unrouted (fault : Fault) (reached : Depot) (findings : List Finding) (sorted : Depot)
      (run : sortItems hooks session items start = (.ok findings, sorted))
      (moved : Moved property session sorted (loads findings) reached)
      (unrouted : (reached.flow.session session).unrouted ≠ []) :
      Binning property hooks session items start (.error fault, reached)
  | binned (stowed : Depot) (findings : List Finding) (sorted : Depot)
      (run : sortItems hooks session items start = (.ok findings, sorted))
      (moved : Moved property session sorted (loads findings) stowed)
      (complete : (stowed.flow.session session).unrouted = []) :
      Binning property hooks session items start (.ok (loads findings).length,
        { stowed with flow := stowed.flow.delivered session })

theorem binItems_binning (carried : Flow.Carried property)
    (sorting : ∀ findings sorted,
      sortItems hooks session items start = (.ok findings, sorted) →
        sorted.AtWork property session ∧
          ∀ finding ∈ findings, finding.Right Item.HasWholeSize) :
    Binning property hooks session items start (binItems hooks session items start) := by
  rw [binItems_eq]
  rcases run : sortItems hooks session items start with ⟨fault | findings, sorted⟩
  · rw [Act.bind_of_error run]
    exact .unsorted fault sorted run
  obtain ⟨atWork, rights⟩ := sorting findings sorted run
  obtain ⟨keyed, perm⟩ := collect_findings findings rights fun _ _ => id
  have offered := offerGroups_moves carried _ keyed sorted (Moved.refl atWork)
  rw [Act.bind_of_ok run]
  rcases offers : offerGroups session (findings.foldl collect .empty).values sorted
    with ⟨fault | binned, stowed⟩ <;> rw [offers] at offered
  · rw [Act.bind_of_error offers]
    exact .stopped fault stowed findings sorted run (Stopped.mono perm.subperm offered)
  obtain ⟨count, moved⟩ := offered
  have moved := Moved.perm moved perm
  rw [Act.bind_of_ok offers]
  rcases Flow.commit_cases session stowed.flow with ⟨unrouted, commits⟩ | ⟨complete, commits⟩
  · rw [Act.bind_of_error (onFlow_eq commits)]
    exact .unrouted _ stowed findings sorted run moved unrouted
  · rw [Act.bind_of_ok (onFlow_eq commits), count, perm.length_eq]
    exact .binned stowed findings sorted run moved complete

end Binning

end ItemBinning.Engine
