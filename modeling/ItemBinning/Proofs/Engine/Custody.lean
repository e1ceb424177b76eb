import ItemBinning.Proofs.Flow.Movement
import ItemBinning.Proofs.Hook.Conduct
import ItemBinning.Proofs.Shelf.Departure
import ItemBinning.Proofs.Shelf.Placement

/-!
# Custody of the items in sessions

An item in a session is attended if the session belongs to a bin on the shelf or in
the queue, if a hook brought the item there, or if the engine is at work on the
session.  This file says what it takes to keep all items attended, together with the
arrangement of the shelf and of the queue, and shows it of the calls that hooks make.
-/

namespace ItemBinning

namespace Depot

/-- The session belongs to a bin that is open on the shelf or queued. -/
def Owned (depot : Depot) (session : SessionId) : Prop :=
  ∃ bin, depot.Stored bin ∧ (depot.bin bin).session = session

/-- No item in a session is left behind: the session is in use or owned, or a hook
brought the item there. -/
def Attended (inUse : List SessionId) (depot : Depot) : Prop :=
  ∀ session id, id ∈ (depot.flow.session session).ids →
    session ∈ inUse ∨ depot.Owned session ∨ (session, id) ∈ depot.moves

/-- The queue holds ready bins, each once. -/
structure Queued (depot : Depot) : Prop where
  isBin : ∀ bin ∈ depot.ready, bin < depot.bins.next
  ready : ∀ bin ∈ depot.ready, (depot.bin bin).state = .ready
  distinct : depot.ready.Nodup

/-- The flow has a property, all sizes are whole, the shelf and the queue are in
order, and every item is attended. -/
structure Sound (property : Flow → Prop) (inUse : List SessionId) (depot : Depot) :
    Prop where
  flow : property depot.flow
  whole : depot.flow.Everywhere Item.HasWholeSize
  arranged : depot.Arranged
  queued : depot.Queued
  weighed : ∀ bin, ∃ size : Int, (depot.bin bin).size = .int size
  attended : depot.Attended inUse

variable {property : Flow → Prop} {inUse : List SessionId} {before after depot : Depot}

theorem Undisturbed.owned (undisturbed : before.Undisturbed after) (session : SessionId) :
    after.Owned session ↔ before.Owned session := by
  unfold Owned
  simp only [undisturbed.stored, (undisturbed.matching _).session]

theorem Queued.undisturbed (queued : before.Queued) (undisturbed : before.Undisturbed after) :
    after.Queued := by
  refine ⟨?_, ?_, ?_⟩ <;> rw [undisturbed.ready]
  · rw [undisturbed.next]
    exact queued.isBin
  · exact fun bin member => (undisturbed.queued bin member).trans (queued.ready bin member)
  · exact queued.distinct

theorem Queued.not_mem_bins (queued : depot.Queued) (arranged : depot.Arranged)
    {bin : BinId} (member : bin ∈ depot.ready) : bin ∉ depot.shelf.bins := by
  intro onShelf
  have ready := queued.ready bin member
  rw [arranged.opened_of_mem_bins onShelf] at ready
  cases ready

/-- Items stay attended if those that arrive anywhere are. -/
theorem Attended.of_gains (attended : before.Attended inUse) {targets : List SessionId}
    (gains : Flow.Gains targets before.flow after.flow)
    (owned : ∀ session, before.Owned session → after.Owned session)
    (moves : before.moves ⊆ after.moves)
    (arrived : ∀ session ∈ targets, ∀ id ∈ (after.flow.session session).ids,
      id ∈ (before.flow.session session).ids ∨ session ∈ inUse ∨ after.Owned session ∨
        (session, id) ∈ after.moves) : after.Attended inUse := by
  intro session id held
  have stays : id ∈ (before.flow.session session).ids →
      session ∈ inUse ∨ after.Owned session ∨ (session, id) ∈ after.moves := by
    intro before
    rcases attended session id before with used | isOwned | moved
    · exact .inl used
    · exact .inr (.inl (owned session isOwned))
    · exact .inr (.inr (moves moved))
  by_cases isTarget : session ∈ targets
  · rcases arrived session isTarget id held with before | new
    · exact stays before
    · exact new
  · exact stays (gains session isTarget id held)

/-- What does not disturb the shelf and the queue keeps a depot sound if it keeps the
rest. -/
theorem Sound.undisturbed (sound : before.Sound property inUse)
    (undisturbed : before.Undisturbed after) (flow : property after.flow)
    (whole : after.flow.Everywhere Item.HasWholeSize)
    (thresholds : after.shelf.thresholds.Whole)
    (weighed : ∀ bin, ∃ size : Int, (after.bin bin).size = .int size)
    (attended : after.Attended inUse) : after.Sound property inUse where
  flow := flow
  whole := whole
  arranged := sound.arranged.rests undisturbed.toShelfRests thresholds
  queued := sound.queued.undisturbed undisturbed
  weighed := weighed
  attended := attended

theorem Sound.mono (sound : depot.Sound property inUse) {more : List SessionId}
    (within : inUse ⊆ more) : depot.Sound property more :=
  ⟨sound.flow, sound.whole, sound.arranged, sound.queued, sound.weighed,
    fun session id held => (sound.attended session id held).imp_left (within ·)⟩

/-- Sessions that are owned or hold nothing need not be in use. -/
theorem Sound.releaseAll {sessions : List SessionId}
    (sound : depot.Sound property (sessions ++ inUse))
    (spare : ∀ session ∈ sessions, (depot.flow.session session).ids = [] ∨
      depot.Owned session) : depot.Sound property inUse := by
  refine ⟨sound.flow, sound.whole, sound.arranged, sound.queued, sound.weighed, ?_⟩
  intro session id held
  rcases sound.attended session id held with used | attended
  · rcases List.mem_append.1 used with listed | used
    · rcases spare session listed with none | owned
      · rw [none] at held
        cases held
      · exact .inr (.inl owned)
    · exact .inl used
  · exact .inr attended

theorem Sound.release {session : SessionId} (sound : depot.Sound property (session :: inUse))
    (spare : (depot.flow.session session).ids = [] ∨ depot.Owned session) :
    depot.Sound property inUse :=
  @Sound.releaseAll property inUse depot [session] sound
    fun _ member => List.mem_singleton.1 member ▸ spare

/-- What neither items nor bins depend on may change. -/
theorem Sound.of_same (sound : before.Sound property inUse) (flow : after.flow = before.flow)
    (bins : after.bins = before.bins) (shelf : after.shelf = before.shelf)
    (ready : after.ready = before.ready) (moves : after.moves = before.moves) :
    after.Sound property inUse := by
  have undisturbed : before.Undisturbed after :=
    .of_same bins (by rw [shelf]) (by rw [shelf]) ready (Nat.le_of_eq (by rw [flow]))
  refine sound.undisturbed undisturbed (flow ▸ sound.flow) (flow ▸ sound.whole)
    (shelf ▸ sound.arranged.thresholds) ?_ ?_
  · unfold Depot.bin
    rw [bins]
    exact sound.weighed
  · have gains : Flow.Gains [] before.flow after.flow := by
      rw [flow]
      exact .refl _ _
    refine sound.attended.of_gains gains (fun session => (undisturbed.owned session).2)
      ?_ nofun
    rw [moves]
    exact List.Subset.refl _

theorem onFlow_sound {α : Type} {act : Act Flow α} (carried : Flow.Carried property)
    (carries : ∀ {other : Flow → Prop}, Flow.Carried other → act.Keeps other)
    (gains : ∀ start, act.Keeps (Flow.Gains inUse start)) :
    (onFlow act).Keeps (Sound property inUse) := by
  apply Act.Keeps.of_final
  intro depot sound
  have undisturbed : depot.Undisturbed (onFlow act depot).2 :=
    .of_same rfl rfl rfl rfl
      (Act.Meets.final (carries (Flow.carried_sessions depot.flow.sessions.next)) (Nat.le_refl _))
  refine sound.undisturbed undisturbed (Act.Meets.final (carries carried) sound.flow)
    (Act.Meets.final (carries (Flow.carried_everywhere fun _ _ => id)) sound.whole)
    sound.arranged.thresholds sound.weighed ?_
  refine sound.attended.of_gains (Act.Meets.final (gains depot.flow) (.refl _ _))
    (fun session => (undisturbed.owned session).2) (List.Subset.refl _) ?_
  exact fun session used _ _ => .inr (.inl used)

/-- Once a session is committed it need not be in use. -/
theorem commit_sound (carried : Flow.Carried property) (session : SessionId) :
    (onFlow (Flow.commit session)).Meets (Sound property [session])
      (fun _ => Sound property [])
      fun fault depot => depot.Sound property [session] ∧ fault.kind = .session := by
  have sound : (onFlow (Flow.commit session)).Keeps (Sound property [session]) :=
    onFlow_sound carried (·.commit session) fun start => Flow.commit_gains start session
  have faults := (onFlow_meets (Flow.commit_faults session)).weaken
    (fun depot (_ : depot.Sound property [session]) => trivial) (fun _ _ => id) fun _ _ => id
  exact (sound.and faults).weaken (fun _ => id)
    (fun _ _ holds => holds.1.release (.inl holds.2)) fun _ _ => id

/-- Once a session is rolled back it need not be in use. -/
theorem rollBack_sound (carried : Flow.Carried property) (session : SessionId) :
    (onFlow (Flow.rollBack session)).Meets (Sound property [session])
      (fun _ => Sound property []) fun _ => Sound property [] := by
  apply Act.Meets.of_final
  intro depot sound
  have kept : (onFlow (Flow.rollBack session) depot).2.Sound property [session] :=
    Act.Meets.final (onFlow_sound carried (·.rollBack session)
      fun start => Flow.rollBack_gains start session) sound
  exact kept.release (.inl (Flow.ids_returned depot.flow session))

theorem count_sound (change : Counters → Counters) :
    (count change).Keeps (Sound property inUse) :=
  Act.Keeps.of_final fun _ sound => sound.of_same rfl rfl rfl rfl rfl

/-- A bin that is neither on the shelf nor queued may change in all but its size. -/
theorem Sound.replaceBin (sound : depot.Sound property inUse) {number : BinId}
    (isBin : number < depot.bins.next) (notStored : ¬ depot.Stored number) {bin : Bin}
    (matching : bin.Matches (depot.bin number)) (size : bin.size = (depot.bin number).size) :
    (depot.setBin number bin).Sound property inUse := by
  have undisturbed : depot.Undisturbed (depot.setBin number bin) :=
    .setBin depot isBin notStored matching
  refine sound.undisturbed undisturbed sound.flow sound.whole sound.arranged.thresholds ?_ ?_
  · intro other
    rw [bin_setBin]
    split
    · exact size ▸ sound.weighed number
    · exact sound.weighed other
  · exact sound.attended.of_gains (.refl [] depot.flow)
      (fun session => (undisturbed.owned session).2) (List.Subset.refl _) nofun

theorem mark_sound {bin : BinId} (target : BinState) {start : Depot}
    (isBin : bin < start.bins.next) (notStored : ¬ start.Stored bin)
    (sound : start.Sound property inUse) :
    (mark bin target start).2.Sound property inUse := by
  by_cases follows : target ∈ (start.bin bin).state.successors
  · rw [mark_eq follows]
    exact sound.replaceBin isBin notStored ⟨rfl, rfl, rfl, rfl⟩ rfl
  · rw [mark_error follows]
    exact sound

theorem Sound.enqueue (sound : depot.Sound property inUse) {bins : List BinId}
    (areBins : ∀ bin ∈ bins, bin < depot.bins.next)
    (ready : ∀ bin ∈ bins, (depot.bin bin).state = .ready)
    (fresh : ∀ bin ∈ bins, bin ∉ depot.ready) (distinct : bins.Nodup) :
    Sound property inUse { depot with ready := depot.ready ++ bins } := by
  have arranged : Arranged { depot with ready := depot.ready ++ bins } :=
    sound.arranged.of_same rfl rfl (Nat.le_refl _)
  refine ⟨sound.flow, sound.whole, arranged, ⟨?_, ?_, ?_⟩, sound.weighed, ?_⟩
  · exact fun bin member => (List.mem_append.1 member).elim (sound.queued.isBin bin) (areBins bin)
  · exact fun bin member => (List.mem_append.1 member).elim (sound.queued.ready bin) (ready bin)
  · refine List.nodup_append.2 ⟨sound.queued.distinct, distinct, ?_⟩
    rintro bin queued _ added rfl
    exact fresh bin added queued
  · refine sound.attended.of_gains (.refl [] depot.flow) ?_ (List.Subset.refl _) nofun
    rintro session ⟨bin, stored, same⟩
    exact ⟨bin, stored.imp_right (List.mem_append_left _), same⟩

/-- An act whose arrivals at a session are noted brings no item there unnoticed. -/
theorem noteArrivals_sound {α : Type} {act : Act Flow α} {session : SessionId}
    (carried : Flow.Carried property)
    (carries : ∀ {other : Flow → Prop}, Flow.Carried other → act.Keeps other)
    (gains : ∀ start, act.Keeps (Flow.Gains [session] start)) :
    (noteArrivals session (onFlow act)).Keeps (Sound property inUse) := by
  apply Act.Keeps.of_final
  intro depot sound
  have undisturbed : depot.Undisturbed (noteArrivals session (onFlow act) depot).2 :=
    .of_same rfl rfl rfl rfl
      (Act.Meets.final (carries (Flow.carried_sessions depot.flow.sessions.next)) (Nat.le_refl _))
  refine sound.undisturbed undisturbed (Act.Meets.final (carries carried) sound.flow)
    (Act.Meets.final (carries (Flow.carried_everywhere fun _ _ => id)) sound.whole)
    sound.arranged.thresholds sound.weighed ?_
  refine sound.attended.of_gains (Act.Meets.final (gains depot.flow) (.refl _ _))
    (fun session => (undisturbed.owned session).2) (List.subset_append_left _ _) ?_
  intro other isTarget id held
  rw [List.mem_singleton.1 isTarget] at held ⊢
  by_cases before : id ∈ (depot.flow.session session).ids
  · exact .inl before
  · refine .inr (.inr (.inr (List.mem_append_right _ ?_)))
    refine List.mem_map.2 ⟨id, List.mem_filter.2 ⟨held, ?_⟩, rfl⟩
    rw [Bool.not_eq_true', Bool.eq_false_iff]
    exact fun holds => before (Session.holds_iff.1 holds)

end Depot

open Depot

variable {property : Flow → Prop} {inUse : List SessionId}

/-- The property and the sizes outlive that items which may be put are put. -/
structure PutKeeps (property : Flow → Prop) (mayPut : List Item → Prop) : Prop where
  property : ∀ items flow, mayPut items → property flow →
    property { flow with source := flow.source ++ items }
  whole : ∀ items, mayPut items → ∀ item ∈ items, item.HasWholeSize

theorem Flow.everywhere_put {flow : Flow} {kept : Item → Prop}
    (everywhere : flow.Everywhere kept) {items : List Item} (given : ∀ item ∈ items, kept item) :
    Everywhere kept { flow with source := flow.source ++ items } :=
  ⟨fun item member => (List.mem_append.1 member).elim (everywhere.waiting item) (given item),
    everywhere.current, everywhere.pulled⟩

variable {mayPut : List Item → Prop} {own : Option BinId}

/-- Every permitted call leaves all items attended. -/
theorem Call.perform_sound (carried : Flow.Carried property)
    (putKeeps : PutKeeps property mayPut) {call : Call}
    (permitted : call.Permitted mayPut own) {depot : Depot}
    (free : ∀ bin, own = some bin → bin < depot.bins.next ∧ ¬ depot.Stored bin)
    (sound : depot.Sound property inUse) :
    (call.perform depot).2.Sound property inUse := by
  cases call with
  | openSession =>
      exact Act.Meets.final (onFlow_sound carried (·.openSession)
        Flow.openSession_gains) sound
  -- only these two bring items into sessions, and what arrives is noted
  | pull session count =>
      exact Act.Meets.final (noteArrivals_sound carried (·.pull session count)
        fun start => Flow.pull_gains start session count (by simp)) sound
  | migrate source target items =>
      exact Act.Meets.final (noteArrivals_sound carried (·.migrate source target items)
        fun start => Flow.migrate_gains start source target items (by simp)) sound
  | route session items relationship =>
      exact Act.Meets.final (onFlow_sound carried (·.route session items relationship)
        fun start => Flow.route_gains start session items relationship) sound
  | annotate session item attributes =>
      exact Act.Meets.final (onFlow_sound carried (·.annotate session item attributes)
        fun start => Flow.annotate_gains start session item attributes) sound
  | commit session =>
      exact Act.Meets.final (onFlow_sound carried (·.commit session)
        fun start => Flow.commit_gains start session) sound
  | rollBack session =>
      exact Act.Meets.final (onFlow_sound carried (·.rollBack session)
        fun start => Flow.rollBack_gains start session) sound
  | createItem | numberBundle | tally | advance =>
      exact sound.of_same rfl rfl rfl rfl rfl
  | put items =>
      have undisturbed : depot.Undisturbed (Call.perform (.put items) depot).2 :=
        .of_same rfl rfl rfl rfl (Nat.le_refl _)
      exact sound.undisturbed undisturbed (putKeeps.property items _ permitted sound.flow)
        (Flow.everywhere_put sound.whole (putKeeps.whole items permitted))
        sound.arranged.thresholds sound.weighed sound.attended
  | applyPolicy policy =>
      have undisturbed : depot.Undisturbed (Call.perform (.applyPolicy policy) depot).2 :=
        .of_same rfl rfl rfl rfl (Nat.le_refl _)
      exact sound.undisturbed undisturbed sound.flow sound.whole policy.whole_thresholds
        sound.weighed sound.attended
  | mark bin target =>
      have ⟨isBin, notStored⟩ := free bin permitted
      exact mark_sound target isBin notStored sound

theorem Script.Uses.sound {α : Type} {script : Script α}
    (uses : script.Uses (Call.Permitted mayPut own)) (carried : Flow.Carried property)
    (putKeeps : PutKeeps property mayPut) {start : Depot}
    (free : ∀ bin, own = some bin → bin < start.bins.next ∧ ¬ start.Stored bin) :
    script.run.Keeps fun depot => start.Undisturbed depot ∧ depot.Sound property inUse := by
  refine uses.keeps fun call permitted => Act.Keeps.of_final fun depot holds => ?_
  obtain ⟨undisturbed, sound⟩ := holds
  refine ⟨Act.Meets.final (Call.perform_undisturbed permitted free) undisturbed,
    Call.perform_sound carried putKeeps permitted ?_ sound⟩
  intro bin isOwn
  have ⟨isBin, notStored⟩ := free bin isOwn
  exact ⟨undisturbed.next.symm ▸ isBin,
    fun stored => notStored ((undisturbed.stored bin).1 stored)⟩

theorem Script.Uses.keeps_sound {α : Type} {script : Script α}
    (uses : script.Uses (Call.Permitted mayPut none)) (carried : Flow.Carried property)
    (putKeeps : PutKeeps property mayPut) : script.run.Keeps (Sound property inUse) :=
  Act.Keeps.of_final fun depot sound =>
    (Act.Meets.final (uses.sound carried putKeeps nofun)
      ⟨Undisturbed.refl depot, sound⟩).2

end ItemBinning
