import ItemBinning.Proofs.Engine.Progress
import ItemBinning.Proofs.Engine.Conservation
import ItemBinning.Proofs.Hook.Discretion

/-!
# The upkeep of the bins

Every part of an activation keeps the bins well filled that are open or queued, as long as
the hooks move no items of theirs.  Sorting a chunk, migration and the drain leave these
bins intact; a chunk fills them with the versions that the hooks gave a group, and the bins
it opens begin with the bounds of the policy that is in force when the hooks have run.
-/

namespace ItemBinning

open Depot

variable {terms : Terms} {start before after : Depot} {known ids : List String}
  {session : SessionId} {engine : Engine}

namespace Depot

theorem Stocked.settled {property : Flow → Prop} {inUse : List SessionId}
    (stocked : before.Stocked terms) (sound : before.Sound property inUse) :
    before.Settled terms.aside :=
  fun bin stored => ⟨stocked.apart bin stored,
    sound.arranged.registered.sessions bin (sound.isBin stored)⟩

/-- The property holds on when the bins are left intact. -/
def KeptIntact (kept : Depot → Prop) : Prop :=
  ∀ before after : Depot, before.Intact after → kept before → kept after

theorem Stocked.keptIntact : KeptIntact (Stocked terms) :=
  fun _ _ intact stocked => stocked.intact intact

theorem KeptIntact.meets {kept : Depot → Prop} (keptIntact : KeptIntact kept) {α : Type}
    {act : Act Depot α} {busy : Depot → Prop} {answered : α → Depot → Prop}
    {failed : Fault → Depot → Prop} (contract : act.Meets busy answered failed)
    (intact : ∀ depot, busy depot → kept depot → depot.Intact (act depot).2) :
    act.Meets (fun depot => busy depot ∧ kept depot)
      (fun answer depot => answered answer depot ∧ kept depot)
      fun fault depot => failed fault depot ∧ kept depot := by
  refine Act.Meets.of_runs ?_ ?_
  all_goals
    intro state _ reached holds run
    have leaves := intact state holds.1 holds.2
    rw [run] at leaves
  · exact ⟨contract.of_ok holds.1 run, keptIntact _ _ leaves holds.2⟩
  · exact ⟨contract.of_error holds.1 run, keptIntact _ _ leaves holds.2⟩

/-- No other bin has the session of the bin in hand. -/
theorem InHand.notOwned {property : Flow → Prop} {inUse : List SessionId} {bin : BinId}
    {rest : List BinId} (inHand : before.InHand property inUse bin session rest) :
    ¬ before.Owned session := by
  rintro ⟨other, stored, same⟩
  have isHeld : other = bin := inHand.sound.arranged.registered.apart other
    (inHand.sound.isBin stored) bin inHand.isBin (same.trans inHand.owner.symm)
  exact inHand.notStored (isHeld ▸ stored)

theorem onFlow_intact {α : Type} {act : Act Flow α}
    (adorns : ∀ flow, act.Keeps (Flow.Adorned flow)) (depot : Depot) :
    depot.Intact (onFlow act depot).2 := by
  have adorned := (adorns depot.flow).final (.refl depot.flow)
  exact .of_same rfl adorned.sessions (fun _ => id) (fun _ => id) fun session _ =>
    adorned.ids session

theorem opened_intact (depot : Depot) : depot.Intact { depot with
    flow := { depot.flow with sessions := depot.flow.sessions.push {} } } := by
  refine .of_same rfl ?_ (fun _ => id) (fun _ => id) fun session _ => ?_
  · rw [Slots.next_push]
    omega
  · exact congrArg Session.ids (Flow.session_push depot.flow session)

theorem dequeued_intact {bin : BinId} {rest : List BinId} (isQueue : before.ready = bin :: rest) :
    before.Intact { before with ready := rest } := by
  refine .of_same rfl (Nat.le_refl _) (fun _ => id) ?_ fun _ _ => rfl
  rw [isQueue]
  exact List.subset_cons_self bin rest

theorem count_intact (change : Counters → Counters) (depot : Depot) :
    depot.Intact (count change depot).2 :=
  .of_same rfl (Nat.le_refl _) (fun _ => id) (fun _ => id) fun _ _ => rfl

theorem delivered_intact (notOwned : ¬ before.Owned session)
    (complete : (before.flow.session session).unrouted = []) :
    before.Intact { before with flow := before.flow.delivered session } :=
  .of_flow notOwned
    ((Flow.carried_sessions before.flow.sessions.next).delivered before.flow session
      (Nat.le_refl _) complete)
    fun _ differs => before.flow.session_delivered_of_ne differs

theorem returned_intact (notOwned : ¬ before.Owned session) :
    before.Intact { before with flow := before.flow.returned session } :=
  .of_flow notOwned
    ((Flow.carried_sessions before.flow.sessions.next).returned before.flow session
      (Nat.le_refl _))
    fun _ differs => before.flow.session_returned_of_ne differs

theorem commit_intact (notOwned : ¬ before.Owned session) :
    before.Intact (onFlow (Flow.commit session) before).2 := by
  rcases Flow.commit_cases session before.flow with ⟨_, run⟩ | ⟨complete, run⟩ <;>
    rw [onFlow_eq run]
  · exact .refl before
  · exact delivered_intact notOwned complete

theorem mark_intact {bin : BinId} (notStored : ¬ before.Stored bin) (target : BinState) :
    before.Intact (mark bin target before).2 := by
  by_cases follows : target ∈ (before.bin bin).state.successors
  · rw [mark_eq follows]
    exact .setBin before notStored ⟨rfl, rfl, rfl, rfl⟩
  · rw [mark_error follows]
    exact .refl before

/-- All items are accounted for, and the bins are well filled. -/
structure Tended (terms : Terms) (known ids : List String) (depot : Depot) : Prop where
  sound : depot.Sound (Flow.Accounted known ids) []
  stocked : depot.Stocked terms

theorem Tended.step (tended : before.Tended terms known ids)
    (sound : after.Sound (Flow.Accounted known ids) []) (intact : before.Intact after) :
    after.Tended terms known ids :=
  ⟨sound, tended.stocked.intact intact⟩

/-- The engine is at work on a chunk, nothing disturbed the shelf or the queue since a start,
and the bins are well filled. -/
structure Sorting (terms : Terms) (known ids : List String) (session : SessionId)
    (start depot : Depot) : Prop where
  undisturbed : start.Undisturbed depot
  atWork : depot.AtWork (Flow.Accounted known ids) session
  stocked : depot.Stocked terms

theorem Sorting.step (sorting : Sorting terms known ids session start before)
    (undisturbed : before.Undisturbed after)
    (sound : after.Sound (Flow.Accounted known ids) [session]) (intact : before.Intact after) :
    Sorting terms known ids session start after where
  undisturbed := sorting.undisturbed.trans undisturbed
  atWork := sorting.atWork.undisturbed undisturbed sound
  stocked := sorting.stocked.intact intact

theorem count_sorting (change : Counters → Counters) :
    (count change).Keeps (Sorting terms known ids session start) := by
  apply Act.Keeps.of_final
  intro depot sorting
  exact sorting.step (.of_same rfl rfl rfl rfl (Nat.le_refl _))
    ((count_sound change).final sorting.atWork.sound) (count_intact change depot)

theorem route_sorting (distinct : ids.Nodup) (items : List Item) (relationship : String) :
    (onFlow (Flow.route session items relationship)).Keeps
      (Sorting terms known ids session start) := by
  apply Act.Keeps.of_final
  intro depot sorting
  have sounds : (onFlow (Flow.route session items relationship)).Keeps
      (Sound (Flow.Accounted known ids) [session]) :=
    onFlow_sound (Flow.carried_accounted distinct) (·.route session items relationship)
      fun start => Flow.route_gains start session items relationship
  have intact := onFlow_intact (fun _ => Flow.route_adorns session items relationship) depot
  exact sorting.step (.of_same rfl rfl rfl rfl intact.sessions)
    (sounds.final sorting.atWork.sound) intact

theorem script_sorting {α : Type} (distinct : ids.Nodup) {script : Script α}
    (uses : script.Uses (Call.Permitted (fun _ => False) none))
    (spares : ∀ depot : Depot, depot.Settled terms.aside → ¬ depot.Owned session →
      script.Spares depot) :
    script.run.Keeps (Sorting terms known ids session start) := by
  apply Act.Keeps.of_final
  intro depot sorting
  obtain ⟨undisturbed, sound⟩ := Act.Meets.final
    (uses.sound (Flow.carried_accounted distinct) (Engine.putKeeps_nothing _) nofun)
    ⟨Undisturbed.refl depot, sorting.atWork.sound⟩
  have settled := sorting.stocked.settled sorting.atWork.sound
  have spared := spares depot settled sorting.atWork.loose.notOwned
  exact sorting.step undisturbed sound (Script.run_intact uses spared nofun)

end Depot

namespace Engine

section Hooks

variable (distinct : ids.Nodup) (behave : engine.hooks.Behave fun _ => False)
  (spare : engine.hooks.Spare terms.aside)
include distinct behave spare

theorem classify_sorting {item : Item} (whole : item.HasWholeSize) :
    (classify engine.hooks session item).Meets (Sorting terms known ids session start)
      (fun placed depot => Sorting terms known ids session start depot ∧
        placed.2.1.key? = some placed.2.2 ∧ placed.1.HasWholeSize)
      fun _ => Sorting terms known ids session start := by
  have preprocessed : (engine.hooks.preprocess item session).run.Keeps
      (Sorting terms known ids session start) :=
    script_sorting distinct (behave.preprocess item session) (spare.preprocess item session)
  apply classify_meets
  · apply Act.Meets.of_runs
    · intro depot version reached sorting run
      refine ⟨preprocessed.of_ok sorting run, ?_⟩
      rintro found rfl
      exact behave.versions item session depot found reached sorting.atWork.sound.whole whole run
    · intro depot fault reached sorting run
      exact preprocessed.of_error sorting run
  · intro version _
    exact script_sorting distinct (behave.groupKey version)
      fun depot settled _ => spare.groupKey version depot settled

/-- Sorting a chunk leaves the bins as they are. -/
theorem sortItems_sorting {items : List Item} (apart : (items.map Item.id).Nodup)
    (whole : ∀ item ∈ items, item.HasWholeSize) :
    (sortItems engine.hooks session items).Meets (Sorting terms known ids session start)
      (fun findings depot => Sorting terms known ids session start depot ∧
        ∀ finding ∈ findings, finding.Right Item.HasWholeSize)
      fun _ => Sorting terms known ids session start := by
  have sorts := sortItems_meets (fun _ => Sorting terms known ids session start)
    (fun _ => Item.HasWholeSize) (fun _ => Sorting terms known ids session start) [] items apart
    (fun _ item member _ => classify_sorting distinct behave spare (whole item member))
    (fun _ item _ => route_sorting distinct [item] failureRelationship)
    fun _ => count_sorting
  exact sorts.weaken (fun _ => id) (fun _ _ holds => ⟨holds.1, holds.2.2⟩) fun _ _ => id

end Hooks

section Chunk

/-- The depot in which the items that are pulled next are sorted, before any of them is
offered to a bin. -/
def nextSorted (engine : Engine) (depot : Depot) : Depot :=
  match pullChunk engine depot with
  | (.ok (session, items), pulled) => (sortItems engine.hooks session items pulled).2
  | (.error _, reached) => reached

theorem nextSorted_eq {depot pulled sorted : Depot} {items : List Item}
    {outcome : Except Fault (List Finding)}
    (run : pullChunk engine depot = (.ok (session, items), pulled))
    (sorts : sortItems engine.hooks session items pulled = (outcome, sorted)) :
    engine.nextSorted depot = sorted := by
  unfold nextSorted
  rw [run]
  dsimp only
  rw [sorts]

/-- The bin was created while a chunk was binned, with the bounds in force: since the
chunk was sorted no hook ran, so the policy was the same until the chunk was binned. -/
structure Born (engine : Engine) (before after : Depot) (bin : BinId) (bounds : Bounds) :
    Prop where
  notBefore : before.bins.next ≤ bin
  isBin : bin < after.bins.next
  bounds : bounds = after.shelf.thresholds.bounds
  inForce : after.shelf.thresholds = (engine.nextSorted before).shelf.thresholds

variable {items : List Item} {pulled sorted : Depot}

theorem pullChunk_sorting (distinct : ids.Nodup) (tended : before.Tended terms known ids)
    (run : pullChunk engine before = (.ok (session, items), pulled))
    (drawn : before.Drawn session items pulled) :
    Sorting terms known ids session pulled pulled ∧ ∀ item ∈ items, item.HasWholeSize := by
  obtain ⟨atWork, whole⟩ :=
    pullChunk_atWork (Flow.carried_accounted distinct) tended.sound run drawn
  exact ⟨⟨.refl pulled, atWork, tended.stocked.intact (drawn.intact tended.sound)⟩, whole⟩

variable (distinct : ids.Nodup) (behave : engine.hooks.Behave fun _ => False)
  (spare : engine.hooks.Spare terms.aside) (tended : before.Tended terms known ids)
include distinct behave spare tended

section Pulled

variable (run : pullChunk engine before = (.ok (session, items), pulled))
  (drawn : before.Drawn session items pulled)
include run drawn

private theorem moved_stocks {reached : Depot} {findings : List Finding} {stowed : List Load}
    {flow : Flow} (sorts : sortItems engine.hooks session items pulled = (.ok findings, sorted))
    (moved : Moved (Flow.Accounted known ids) session sorted stowed reached)
    (within : stowed ⊆ loads findings)
    (begins : ∀ bin bounds, engine.Born before { reached with flow } bin bounds →
      terms.begun bin bounds)
    (gives : ∀ load ∈ loads (engine.nextFindings before), terms.given load.1 load.2) :
    reached.Stocked terms := by
  obtain ⟨starts, whole⟩ := pullChunk_sorting distinct tended run drawn
  obtain ⟨sorting, rights⟩ :=
    (sortItems_sorting distinct behave spare drawn.distinct whole).of_ok starts sorts
  obtain ⟨cargo, hauled, perm⟩ := moved.hauled
  apply hauled.stocked (Flow.single_accounted distinct) sorting.stocked
  · intro load member
    have isLoad := within (perm.subset member)
    obtain ⟨finding, isFinding, gave⟩ := mem_loads_iff.1 isLoad
    rw [← nextFindings_eq run sorts] at isLoad
    exact ⟨gives load isLoad, (rights finding isFinding).of_load? gave⟩
  · intro bin isNew isBin
    apply begins bin
    constructor
    · rwa [sorting.undisturbed.next, drawn.next] at isNew
    · exact isBin
    · exact congrArg Thresholds.bounds moved.thresholds.symm
    · rw [nextSorted_eq run sorts]
      exact moved.thresholds

private theorem binItems_sorting :
    Binning (Flow.Accounted known ids) engine.hooks session items pulled
      (binItems engine.hooks session items pulled) := by
  obtain ⟨starts, whole⟩ := pullChunk_sorting distinct tended run drawn
  apply binItems_binning (Flow.carried_accounted distinct)
  intro findings sorted sorts
  obtain ⟨sorting, rights⟩ :=
    (sortItems_sorting distinct behave spare drawn.distinct whole).of_ok starts sorts
  exact ⟨sorting.atWork, rights⟩

/-- If a hook fails in a way that stops the sorting, nothing was stowed, and the chunk
returns. -/
private theorem unsorted_stocks {fault : Fault}
    (sorts : sortItems engine.hooks session items pulled = (.error fault, sorted)) :
    Stocked terms { sorted with flow := sorted.flow.returned session } := by
  obtain ⟨starts, whole⟩ := pullChunk_sorting distinct tended run drawn
  have sorting :=
    (sortItems_sorting distinct behave spare drawn.distinct whole).of_error starts sorts
  exact sorting.stocked.intact (returned_intact sorting.atWork.loose.notOwned)

end Pulled

/-- Taking a chunk fills bins with the versions that were given a group. -/
theorem takeChunk_stocks
    (begins : ∀ bin bounds, engine.Born before ((takeChunk engine).final before) bin bounds →
      terms.begun bin bounds)
    (gives : ∀ load ∈ loads (engine.nextFindings before), terms.given load.1 load.2) :
    Stocked terms ((takeChunk engine).final before) := by
  have chunked := takeChunk_chunked engine before
  unfold Act.final at begins ⊢
  generalize takeChunk engine before = result at chunked begins ⊢
  cases chunked with
  | unpulled fault reached _ opened =>
      rw [opened]
      exact tended.stocked.intact (opened_intact before)
  | exhausted session reached drawn => exact tended.stocked.intact (drawn.intact tended.sound)
  | failed session items pulled stopped fault run drawn bins =>
      have bound := binItems_sorting distinct behave spare tended run drawn
      rw [bins] at bound
      -- whatever was stowed before the fault stays, and the rest of the chunk returns
      cases bound with
      | unsorted _ _ sorts => exact unsorted_stocks distinct behave spare tended run drawn sorts
      | stopped _ _ findings sorted sorts isStopped =>
          obtain ⟨stowed, moved, some, _⟩ := isStopped
          have stocked := moved_stocks distinct behave spare tended run drawn sorts moved
            some.subset begins gives
          exact stocked.intact (returned_intact moved.atWork.loose.notOwned)
      | unrouted _ _ findings sorted sorts moved =>
          have stocked := moved_stocks distinct behave spare tended run drawn sorts moved
            (List.Subset.refl _) begins gives
          exact stocked.intact (returned_intact moved.atWork.loose.notOwned)
  | binned session items pulled reached count run drawn bins =>
      have bound := binItems_sorting distinct behave spare tended run drawn
      rw [bins] at bound
      cases bound with
      | binned stowed findings sorted sorts moved complete =>
          have stocked := moved_stocks distinct behave spare tended run drawn sorts moved
            (List.Subset.refl _) begins gives
          exact stocked.intact (delivered_intact moved.atWork.loose.notOwned complete)

end Chunk

section Activation

theorem migrateBins_intact (arranged : before.Arranged) :
    before.Intact (migrateBins before).2 := by
  obtain ⟨left, between, counters, run, departed, _⟩ := migrateBins_spec arranged
  rw [run]
  exact departed.intact counters

theorem migrateBins_tended : migrateBins.Keeps (Tended terms known ids) := by
  apply Act.Keeps.of_final
  intro depot tended
  have keeps : migrateBins.Keeps (Sound (Flow.Accounted known ids) []) := migrateBins_sound
  exact tended.step (keeps.final tended.sound) (migrateBins_intact tended.sound.arranged)

theorem conclude_tended (activation : Activation) :
    (conclude activation).Keeps (Tended terms known ids) := by
  apply Act.Keeps.of_final
  intro depot tended
  obtain ⟨counters, run⟩ := conclude_eq activation depot
  rw [run]
  exact tended.step (tended.sound.of_same rfl rfl rfl rfl rfl)
    (count_intact (fun _ => counters) depot)

/-- A reset leaves no bin open or queued. -/
theorem reset_intact {property : Flow → Prop} (sound : before.Sound property []) :
    before.Intact (reset before).2 := by
  obtain ⟨reached, run, discarded⟩ := reset_spec sound.arranged sound.queued
  rw [run]
  refine .of_emptied ⟨discarded.lasting.next, discarded.lasting.matching⟩
    discarded.sessions ?_ ?_ <;> rw [discarded.rest] <;> rfl

section Drain

variable {property : Flow → Prop} {mayPut : List Item → Prop} {kept : Depot → Prop}
  (carried : Flow.Carried property) (putKeeps : PutKeeps property mayPut)
  (keptIntact : KeptIntact kept)
  (process : ∀ bin, (engine.hooks.process bin).Uses (Call.Permitted mayPut (some bin)))
  (spares : ∀ bin session rest depot,
    InHand property [session] bin session rest depot → kept depot →
      depot.Intact ((engine.hooks.process bin).run depot).2)
include carried putKeeps keptIntact process spares

/-- A bin in hand is the only one whose items the drain moves. -/
theorem drainRules_intact (bin : BinId) (session : SessionId) (rest : List BinId) :
    DrainRules engine.hooks bin (· = session)
      (fun depot => InHand property [session] bin session rest depot ∧ kept depot)
      fun depot => InHand property [] bin session rest depot ∧ kept depot := by
  have rules : DrainRules engine.hooks bin (· = session)
      (InHand property [session] bin session rest) (InHand property [] bin session rest) :=
    drainRules carried putKeeps (process bin) session rest
  constructor
  case owned => exact fun depot busy => rules.owned depot busy.1
  case noted =>
    intro depot busy
    refine ⟨rules.noted depot busy.1, keptIntact _ _ ?_ busy.2⟩
    exact .of_same rfl (Nat.le_refl _) (fun _ => id) (fun _ => id) fun _ _ => rfl
  case processed =>
    exact keptIntact.meets rules.processed fun depot => spares bin session rest depot
  case annotated =>
    intro number item attributes
    exact keptIntact.meets (rules.annotated number item attributes) fun depot _ _ =>
      onFlow_intact (fun _ => Flow.annotate_adorns number item attributes) depot
  case routed =>
    intro number items relationship
    exact keptIntact.meets (rules.routed number items relationship) fun depot _ _ =>
      onFlow_intact (fun _ => Flow.route_adorns number items relationship) depot
  case committed =>
    rintro number rfl
    exact keptIntact.meets (rules.committed number rfl) fun depot inHand _ =>
      commit_intact inHand.notOwned
  case returned =>
    rintro number rfl
    exact keptIntact.meets (rules.returned number rfl) fun depot inHand _ =>
      returned_intact inHand.notOwned
  case emptied => exact fun depot busy empty => ⟨rules.emptied depot busy.1 empty, busy.2⟩
  case marked =>
    exact fun target => keptIntact.meets (rules.marked target) fun depot inHand _ =>
      mark_intact inHand.notStored target
  case counted =>
    exact fun change => keptIntact.meets (rules.counted change) fun depot _ _ =>
      count_intact change depot

/-- The first bin of a queue is handled under the rules, after which the rest of the queue
is left. -/
theorem exists_drainRules (bin : BinId) (rest : List BinId) (depot : Depot)
    (idle : (depot.Sound property [] ∧ kept depot) ∧ depot.ready = bin :: rest) :
    ∃ owner busy done, DrainRules engine.hooks bin owner busy done ∧
      busy { depot with ready := rest } ∧ ∀ reached, done reached →
        (reached.Sound property [] ∧ kept reached) ∧ reached.ready = rest := by
  obtain ⟨⟨sound, holds⟩, queue⟩ := idle
  refine ⟨_, _, _, drainRules_intact carried putKeeps keptIntact process spares bin
    (depot.bin bin).session rest,
    ⟨sound.take queue, keptIntact _ _ (dequeued_intact queue) holds⟩, ?_⟩
  exact fun reached done => ⟨⟨done.1.sound, done.2⟩, done.1.queue⟩

theorem drain_intact (activation : Activation) :
    (engine.drain activation).Keeps fun depot => depot.Sound property [] ∧ kept depot := by
  have look : (Act.read (·.ready)).Meets (fun depot => depot.Sound property [] ∧ kept depot)
      (fun queue depot => (depot.Sound property [] ∧ kept depot) ∧ depot.ready = queue)
      fun _ depot => depot.Sound property [] ∧ kept depot :=
    Act.Meets.read fun _ holds => ⟨holds, rfl⟩
  apply look.bind
  intro queue
  have drained := @drainBins_of_rules engine.hooks
    (fun queue depot => (depot.Sound property [] ∧ kept depot) ∧ depot.ready = queue)
    (exists_drainRules carried putKeeps keptIntact process spares) queue activation
  exact drained.weaken (fun _ => id) (fun _ _ holds => holds.1.1) fun _ _ ⟨_, holds⟩ => holds.1

end Drain

variable (distinct : ids.Nodup) (behave : engine.hooks.Behave fun _ => False)
  (spare : engine.hooks.Spare terms.aside)
include distinct behave spare

theorem drain_tended (activation : Activation) :
    (engine.drain activation).Keeps (Tended terms known ids) := by
  have spares (bin : BinId) (session : SessionId) (rest : List BinId) (depot : Depot)
      (inHand : InHand (Flow.Accounted known ids) [session] bin session rest depot)
      (stocked : depot.Stocked terms) :
      depot.Intact ((engine.hooks.process bin).run depot).2 := by
    have spared := spare.process bin depot (stocked.settled inHand.sound)
      (inHand.owner ▸ inHand.notOwned)
    apply Script.run_intact (behave.process bin) spared
    rintro _ ⟨⟩
    exact inHand.notStored
  have drained := drain_intact (Flow.carried_accounted distinct) (putKeeps_nothing _)
    Stocked.keptIntact behave.process spares activation
  exact drained.weaken (fun _ tended => ⟨tended.sound, tended.stocked⟩)
    (fun _ _ holds => ⟨holds.1, holds.2⟩) fun _ _ holds => ⟨holds.1, holds.2⟩

theorem afterIntake_tended (itemsBinned : Nat) :
    (engine.afterIntake itemsBinned).Keeps (Tended terms known ids) := by
  apply migrateBins_tended.bind
  intro binsMigrated
  apply (drain_tended distinct behave spare _).bind
  intro activation
  exact conclude_tended activation

end Activation

end Engine

end ItemBinning
