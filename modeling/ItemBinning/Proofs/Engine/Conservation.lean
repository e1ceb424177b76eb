import ItemBinning.Proofs.Engine.Run
import ItemBinning.Proofs.Flow.Accounts

/-!
# Conservation of items

Every item that was ever on the source is in one place: it waits on the source, it
was received by a sink, it is in the session of a bin that is open or queued, or it is
in another session to which a hook brought it.  No session of an intake, of a bin that
was opened in vain, or of a bin that was processed or rolled back keeps an item.
-/

namespace ItemBinning

/-- Where an item may be, as seen from outside. -/
inductive Place
  | source
  | sink (relationship : String)
  | shelved (bin : BinId)
  | queued (bin : BinId)
  | aside (session : SessionId)
  deriving DecidableEq

namespace Depot

/-- The spot in the flow that is a place.  A bin is none unless it is open or queued,
and a session that such a bin owns is no place of its own. -/
def spot? (depot : Depot) : Place → Option Flow.Spot
  | .source => some .source
  | .sink relationship => some (.sink relationship)
  | .shelved bin =>
      if bin ∈ depot.shelf.bins then some (.session (depot.bin bin).session) else none
  | .queued bin =>
      if bin ∈ depot.ready then some (.session (depot.bin bin).session) else none
  | .aside session =>
      if ∃ bin ∈ depot.shelf.bins ++ depot.ready, (depot.bin bin).session = session then none
      else some (.session session)

/-- The ids of the items in a place. -/
def idsIn (depot : Depot) (place : Place) : List String :=
  (depot.spot? place).elim [] depot.flow.idsAt

/-- The item is in one place only and only once, and a hook brought it there if the
place is a session that no bin owns. -/
def Placed (depot : Depot) (id : String) : Prop :=
  ∃ place, (∀ other, (depot.idsIn other).count id = if other = place then 1 else 0) ∧
    ∀ session, place = .aside session → (session, id) ∈ depot.moves

variable {depot : Depot}

theorem owned_iff {session : SessionId} :
    depot.Owned session ↔
      ∃ bin ∈ depot.shelf.bins ++ depot.ready, (depot.bin bin).session = session := by
  simp only [Owned, Stored, List.mem_append]

theorem spot?_eq_source_iff {place : Place} :
    depot.spot? place = some .source ↔ place = .source := by
  cases place <;> simp [spot?]

theorem spot?_eq_sink_iff {place : Place} {relationship : String} :
    depot.spot? place = some (.sink relationship) ↔ place = .sink relationship := by
  cases place <;> simp [spot?]

/-- The place of a session is the bin that owns it, or else the session itself. -/
theorem spot?_eq_session_iff {place : Place} {session : SessionId} :
    depot.spot? place = some (.session session) ↔
      (∃ bin ∈ depot.shelf.bins, place = .shelved bin ∧ (depot.bin bin).session = session) ∨
      (∃ bin ∈ depot.ready, place = .queued bin ∧ (depot.bin bin).session = session) ∨
      (place = .aside session ∧ ¬ depot.Owned session) := by
  cases place with
  | source | sink => simp [spot?]
  | shelved bin | queued bin => simp [spot?]
  | aside other =>
      rw [owned_iff]
      simp only [spot?, Option.ite_none_left_eq_some, Option.some.injEq, Flow.Spot.session.injEq,
        Place.aside.injEq, reduceCtorEq, false_and, and_false, exists_false, false_or]
      constructor <;> rintro ⟨first, second⟩
      · exact ⟨second, second ▸ first⟩
      · exact ⟨first ▸ second, first⟩

theorem exists_spot? (depot : Depot) (spot : Flow.Spot) :
    ∃ place, depot.spot? place = some spot := by
  cases spot with
  | source => exact ⟨.source, rfl⟩
  | sink relationship => exact ⟨.sink relationship, rfl⟩
  | session session =>
      by_cases owned : depot.Owned session
      · obtain ⟨bin, onShelf | queued, same⟩ := owned
        · exact ⟨.shelved bin, spot?_eq_session_iff.2 (.inl ⟨bin, onShelf, rfl, same⟩)⟩
        · exact ⟨.queued bin, spot?_eq_session_iff.2 (.inr (.inl ⟨bin, queued, rfl, same⟩))⟩
      · exact ⟨.aside session, spot?_eq_session_iff.2 (.inr (.inr ⟨rfl, owned⟩))⟩

theorem spot?_injective (arranged : depot.Arranged) (queued : depot.Queued) {spot : Flow.Spot}
    {first second : Place} (isFirst : depot.spot? first = some spot)
    (isSecond : depot.spot? second = some spot) : first = second := by
  have isBin : ∀ {bin}, depot.Stored bin → bin < depot.bins.next := by
    rintro bin (onShelf | isQueued)
    · exact arranged.isBin_of_mem_bins onShelf
    · exact queued.isBin bin isQueued
  have unique : ∀ {bin other}, depot.Stored bin → depot.Stored other →
      (depot.bin bin).session = (depot.bin other).session → bin = other :=
    fun stored otherStored =>
      arranged.registered.apart _ (isBin stored) _ (isBin otherStored)
  cases spot with
  | source => rw [spot?_eq_source_iff.1 isFirst, spot?_eq_source_iff.1 isSecond]
  | sink relationship => rw [spot?_eq_sink_iff.1 isFirst, spot?_eq_sink_iff.1 isSecond]
  | session session =>
      rcases spot?_eq_session_iff.1 isFirst with
        ⟨bin, onShelf, rfl, rfl⟩ | ⟨bin, isQueued, rfl, rfl⟩ | ⟨rfl, notOwned⟩ <;>
      rcases spot?_eq_session_iff.1 isSecond with
        ⟨other, otherOnShelf, rfl, same⟩ | ⟨other, otherQueued, rfl, same⟩ | ⟨rfl, otherNotOwned⟩
      · rw [unique (.inl onShelf) (.inl otherOnShelf) same.symm]
      · rw [unique (.inl onShelf) (.inr otherQueued) same.symm] at onShelf
        exact (queued.not_mem_bins arranged otherQueued onShelf).elim
      · exact (otherNotOwned ⟨bin, .inl onShelf, rfl⟩).elim
      · rw [unique (.inr isQueued) (.inl otherOnShelf) same.symm] at isQueued
        exact (queued.not_mem_bins arranged isQueued otherOnShelf).elim
      · rw [unique (.inr isQueued) (.inr otherQueued) same.symm]
      · exact (otherNotOwned ⟨bin, .inr isQueued, rfl⟩).elim
      · exact (notOwned ⟨other, .inl otherOnShelf, same⟩).elim
      · exact (notOwned ⟨other, .inr otherQueued, same⟩).elim
      · rfl

/-- An item that is accounted once is in one place of a sound depot. -/
theorem Sound.placed {property : Flow → Prop} (sound : depot.Sound property []) {id : String}
    (once : depot.flow.account id = 1) : depot.Placed id := by
  obtain ⟨spot, stands⟩ := Flow.exists_spot_of_account once
  obtain ⟨place, isPlace⟩ := depot.exists_spot? spot
  have counts : ∀ other, (depot.idsIn other).count id = if other = place then 1 else 0 := by
    intro other
    unfold idsIn
    rcases known : depot.spot? other with _ | otherSpot
    · rw [if_neg]
      · rfl
      · rintro rfl
        rw [isPlace] at known
        cases known
    · rw [Option.elim_some, stands]
      refine if_congr ⟨?_, ?_⟩ rfl rfl
      · rintro rfl
        exact spot?_injective sound.arranged sound.queued known isPlace
      · rintro rfl
        rw [isPlace] at known
        exact (Option.some.inj known).symm
  refine ⟨place, counts, ?_⟩
  rintro session rfl
  obtain ⟨isSpot, notOwned⟩ : spot = .session session ∧ ¬ depot.Owned session := by
    simp only [spot?] at isPlace
    split at isPlace
    · cases isPlace
    · rename_i notOwned
      exact ⟨(Option.some.inj isPlace).symm, fun owned => notOwned (owned_iff.1 owned)⟩
  have held : id ∈ (depot.flow.session session).ids := by
    have once := stands spot
    rw [if_pos rfl, isSpot] at once
    exact List.count_pos_iff.1 (Nat.lt_of_lt_of_eq Nat.zero_lt_one once.symm)
  rcases sound.attended session id held with used | owned | moved
  · cases used
  · exact absurd owned notOwned
  · exact moved

end Depot

namespace Flow

/-- Items given under distinct ids are accounted for, and no sink lost anything. -/
def Conserved (known : List String) (past : Table String (List Item)) (given : List Item)
    (flow : Flow) : Prop :=
  ((given.map Item.id).Nodup → flow.Accounted known (given.map Item.id)) ∧
    flow.Extends past

theorem tracked_conserved (known : List String) (past : Table String (List Item)) :
    Engine.Tracked (Conserved known past) where
  carried _ := (Carried.imp fun distinct => carried_accounted distinct).and
    (carried_extends past)
  put given items flow conserved := by
    refine ⟨fun distinct => ?_, conserved.2⟩
    rw [List.map_append] at distinct ⊢
    exact (conserved.1 distinct.of_append_left).put items

end Flow

namespace Engine

open Depot

theorem putKeeps_nothing (property : Flow → Prop) :
    PutKeeps property fun _ => False :=
  ⟨fun _ _ never => never.elim, fun _ never => never.elim⟩

/-- The rules of an intake that accounts for all items. -/
theorem accountedRules {known ids : List String} {engine : Engine} (distinct : ids.Nodup)
    (behave : engine.hooks.Behave fun _ => False) :
    IntakeRules engine (Sound (Flow.Accounted known ids) [])
      (fun session => Sound (Flow.Accounted known ids) [session]) Item.HasWholeSize :=
  intakeRules (Flow.carried_accounted distinct) (putKeeps_nothing _) behave.preprocess
    behave.groupKey behave.versions

section Runs

variable {engine : Engine} {known : List String} {past : Table String (List Item)}
  {given : List Item} {depot : Depot}

theorem conserved_run (behave : engine.hooks.Behave fun _ => False)
    (conserved : depot.Sound (Flow.Conserved known past given) []) (events : List Event)
    (whole : ∀ item ∈ events.flatMap Event.items, item.HasWholeSize) :
    (run engine depot events).Sound
      (Flow.Conserved known past (given ++ events.flatMap Event.items)) [] :=
  run_sound (Flow.tracked_conserved known past) (fun _ => putKeeps_nothing _) behave events
    whole conserved

theorem accounted_of_conserved (conserved : depot.Sound (Flow.Conserved known past given) [])
    (distinct : (given.map Item.id).Nodup) :
    depot.Sound (Flow.Accounted known (given.map Item.id)) [] :=
  ⟨conserved.flow.1 distinct, conserved.whole, conserved.arranged, conserved.queued,
    conserved.weighed, conserved.attended⟩

end Runs

/-- After every run of events all items are accounted for. -/
theorem accounted_after_run (engine : Engine) (behave : engine.hooks.Behave fun _ => False)
    (source : List Item) (relationships : List String) (clock : Moment) (policy : Policy)
    (events : List Event)
    (distinct : ((source ++ events.flatMap Event.items).map Item.id).Nodup)
    (whole : ∀ item ∈ source ++ events.flatMap Event.items, item.HasWholeSize) :
    (run engine (opening { source, sinks := Flow.sinksFor relationships } clock policy)
      events).Sound (Flow.Accounted (Flow.sinksFor relationships).keys
        ((source ++ events.flatMap Event.items).map Item.id)) [] := by
  obtain ⟨start, isStart⟩ : ∃ start, start =
      opening { source, sinks := Flow.sinksFor relationships } clock policy := ⟨_, rfl⟩
  obtain ⟨known, isKnown⟩ : ∃ known, known = (Flow.sinksFor relationships).keys := ⟨_, rfl⟩
  have begun : start.Sound (Flow.Conserved known start.flow.sinks source) [] := by
    rw [isStart]
    refine sound_opening clock policy ⟨fun _ => ?_, Flow.extends_refl _⟩ ?_ fun _ => rfl
    · exact isKnown ▸ Flow.accounted_start source relationships
    · exact ⟨fun item member => whole item (List.mem_append_left _ member), nofun, nofun⟩
  have conserved := conserved_run behave begun events
    fun item member => whole item (List.mem_append_right _ member)
  rw [← isStart, ← isKnown]
  exact accounted_of_conserved conserved distinct

/-- After every run of events each item that was ever put is in one place, and what a
sink received stays there. -/
theorem placed_after_run (engine : Engine) (behave : engine.hooks.Behave fun _ => False)
    (source : List Item) (relationships : List String) (clock : Moment) (policy : Policy)
    (earlier later : List Event)
    (distinct : ((source ++ (earlier ++ later).flatMap Event.items).map Item.id).Nodup)
    (whole : ∀ item ∈ source ++ (earlier ++ later).flatMap Event.items, item.HasWholeSize) :
    let start := opening { source, sinks := Flow.sinksFor relationships } clock policy
    let reached := run engine start earlier
    (∀ item ∈ source ++ earlier.flatMap Event.items, reached.Placed item.id) ∧
      (run engine start (earlier ++ later)).flow.Extends reached.flow.sinks := by
  intro start reached
  rw [List.flatMap_append, ← List.append_assoc] at distinct whole
  have distinctEarlier : ((source ++ earlier.flatMap Event.items).map Item.id).Nodup := by
    rw [List.map_append] at distinct
    exact distinct.of_append_left
  obtain ⟨known, isKnown⟩ : ∃ known, known = (Flow.sinksFor relationships).keys := ⟨_, rfl⟩
  have begun : start.Sound (Flow.Conserved known start.flow.sinks source) [] := by
    refine sound_opening clock policy ⟨fun _ => ?_, Flow.extends_refl start.flow⟩ ?_ fun _ => rfl
    · exact isKnown ▸ Flow.accounted_start source relationships
    · refine ⟨fun item member => whole item ?_, nofun, nofun⟩
      exact List.mem_append_left _ (List.mem_append_left _ member)
  have sound := run_sound (Flow.tracked_conserved known _) (fun _ => putKeeps_nothing _)
    behave earlier (fun item member => whole item
      (List.mem_append_left _ (List.mem_append_right _ member))) begun
  refine ⟨fun item member => sound.placed ?_, ?_⟩
  · rw [(sound.flow.1 distinctEarlier).accounts]
    exact List.count_eq_one_of_mem distinctEarlier (List.mem_map_of_mem member)
  · have again : reached.Sound (Flow.Conserved known reached.flow.sinks
        (source ++ earlier.flatMap Event.items)) [] :=
      ⟨⟨sound.flow.1, Flow.extends_refl reached.flow⟩, sound.whole, sound.arranged,
        sound.queued, sound.weighed, sound.attended⟩
    have last := run_sound (Flow.tracked_conserved known _) (fun _ => putKeeps_nothing _)
      behave later (fun item member => whole item (List.mem_append_right _ member)) again
    rw [run, List.foldl_append]
    exact last.flow.2

theorem placed_after_mixed_outcomes :
    let source : List Item := [{ id := "a" }, { id := "b" }]
    let events : List Event := [.activate [true, true, true], .put [{ id := "c" }]]
    let start := opening { source, sinks := Flow.sinksFor [] } {} {}
    let reached := run mixed start events
    (∀ item ∈ source ++ events.flatMap Event.items, reached.Placed item.id) ∧
      (run mixed start (events ++ [.reset])).flow.Extends reached.flow.sinks := by
  intro source events
  have whole : ∀ item ∈ source ++ (events ++ [Event.reset]).flatMap Event.items,
      item.HasWholeSize := by
    intro item member
    have size : ∀ item ∈ ([{ id := "a" }, { id := "b" }, { id := "c" }] : List Item),
        item.size = .int 0 := by simp
    exact ⟨0, size item member⟩
  exact placed_after_run mixed (behave_mixed _) source [] {} {} events [.reset] (by decide)
    whole

end Engine

end ItemBinning
