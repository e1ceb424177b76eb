import ItemBinning.Proofs.Engine.DrainFaults
import ItemBinning.Proofs.Engine.Progress

/-!
# The life of a bin

A bin that took an item stands on the shelf and is open, or waits in the queue and is
ready, or is completed and in neither of them.  Whatever an engine does, with hooks that
leave the states of bins alone, keeps it so, also where an activation stops or fails.  A
completed bin stays as it is, and the processor gets each bin once and finds it ready.
-/

namespace ItemBinning

/-- An open bin has no reason to be ready, and a ready bin has one. -/
structure Bin.Told (bin : Bin) : Prop where
  opened : bin.state = .opened → bin.reason = none
  ready : bin.state = .ready → bin.reason ≠ none

/-- What a bin can come to: it loses none of its contents, and stays closed. -/
structure Bin.Leads (before after : Bin) : Prop where
  contents : before.contents <+: after.contents
  closed : before.state.Closed → after.state = before.state
  told : before.Told → after.Told

namespace Bin.Leads

theorem refl (bin : Bin) : bin.Leads bin :=
  ⟨List.prefix_rfl, fun _ => rfl, id⟩

theorem trans {first second third : Bin} (leadsFirst : first.Leads second)
    (leadsSecond : second.Leads third) : first.Leads third where
  contents := leadsFirst.contents.trans leadsSecond.contents
  closed isClosed := by
    have same := leadsFirst.closed isClosed
    rw [leadsSecond.closed (same ▸ isClosed), same]
  told := leadsSecond.told ∘ leadsFirst.told

/-- A bin may take items while it stays in its state. -/
theorem of_state {before after : Bin} (contents : before.contents <+: after.contents)
    (state : after.state = before.state) (reason : after.reason = before.reason) :
    before.Leads after where
  contents := contents
  closed _ := state
  told told := by
    refine ⟨?_, ?_⟩ <;> rw [state, reason]
    · exact told.opened
    · exact told.ready

/-- A bin that is not closed becomes ready for a reason. -/
theorem of_ready {bin : Bin} (notClosed : ¬ bin.state.Closed) (reason : ReadyReason) :
    bin.Leads { bin with state := .ready, reason := some reason } :=
  ⟨List.prefix_rfl, (absurd · notClosed), fun _ => ⟨nofun, fun _ => by simp⟩⟩

/-- A bin that is not closed is closed. -/
theorem of_closed {bin : Bin} (notClosed : ¬ bin.state.Closed) {target : BinState}
    (closed : target.Closed) : bin.Leads { bin with state := target } where
  contents := List.prefix_rfl
  closed := (absurd · notClosed)
  told _ := by
    refine ⟨fun isOpened => ?_, fun isReady => ?_⟩
    · cases isOpened
      exact absurd closed (by simp [BinState.Closed])
    · cases isReady
      exact absurd closed (by simp [BinState.Closed])

end Bin.Leads

theorem BinState.not_closed_opened : ¬ BinState.opened.Closed := by
  simp [BinState.Closed]

theorem BinState.not_closed_ready : ¬ BinState.ready.Closed := by
  simp [BinState.Closed]

theorem Bin.told_new : ({} : Bin).Told :=
  ⟨fun _ => rfl, nofun⟩

/-- Nothing is lost by a bin that did not exist. -/
theorem Bin.Leads.of_new {bin : Bin} (told : bin.Told) : ({} : Bin).Leads bin :=
  ⟨List.nil_prefix, (absurd · BinState.not_closed_opened), fun _ => told⟩

namespace Depot

/-- The place of a bin and its state say the same. -/
def InPlace (depot : Depot) (bin : BinId) : Prop :=
  (bin ∈ depot.shelf.bins ∧ bin ∉ depot.ready ∧
      (depot.bin bin).state = .opened ∧ (depot.bin bin).reason = none) ∨
    (bin ∉ depot.shelf.bins ∧ bin ∈ depot.ready ∧
      (depot.bin bin).state = .ready ∧ (depot.bin bin).reason ≠ none) ∨
    (bin ∉ depot.shelf.bins ∧ bin ∉ depot.ready ∧ (depot.bin bin).state.Closed)

/-- Since a start no bin lost contents or was opened again.  Each bin that took an item
is stored or closed, and the bins that the processor got are closed, each of them once. -/
structure Kept (start depot : Depot) : Prop where
  leads : ∀ bin, (start.bin bin).Leads (depot.bin bin)
  told : ∀ bin, (depot.bin bin).Told
  settled : ∀ bin, (depot.bin bin).contents ≠ [] →
    depot.Stored bin ∨ (depot.bin bin).state.Closed
  handled : ∀ bin ∈ depot.handled, (depot.bin bin).state.Closed
  once : depot.handled.Nodup

variable {start before after depot : Depot} {inUse : List SessionId} {number : BinId}
  {item : Item}

/-- A step of the engine that hands no bin to the processor: a bin that takes an item is
stored then, and a bin that leaves the shelf and the queue is closed. -/
theorem Kept.step (kept : start.Kept before)
    (leads : ∀ bin, (before.bin bin).Leads (after.bin bin))
    (taken : ∀ bin, (after.bin bin).contents ≠ [] →
      (before.bin bin).contents ≠ [] ∨ after.Stored bin)
    (stored : ∀ bin, before.Stored bin → after.Stored bin ∨ (after.bin bin).state.Closed)
    (handled : after.handled = before.handled) : start.Kept after where
  leads bin := (kept.leads bin).trans (leads bin)
  told bin := (leads bin).told (kept.told bin)
  settled bin filled := by
    rcases taken bin filled with wasFilled | isStored
    · rcases kept.settled bin wasFilled with wasStored | closed
      · exact stored bin wasStored
      · exact .inr ((leads bin).closed closed ▸ closed)
    · exact .inl isStored
  handled bin member := by
    rw [handled] at member
    have closed := kept.handled bin member
    exact (leads bin).closed closed ▸ closed
  once := handled ▸ kept.once

theorem Kept.of_same (kept : start.Kept before) (bins : after.bins = before.bins)
    (stored : ∀ bin, before.Stored bin → after.Stored bin)
    (handled : after.handled = before.handled) : start.Kept after := by
  have same (bin : BinId) : after.bin bin = before.bin bin := by
    unfold Depot.bin
    rw [bins]
  apply kept.step _ _ (fun bin isStored => .inl (stored bin isStored)) handled
  · exact fun bin => same bin ▸ .refl _
  · exact fun bin filled => .inl (same bin ▸ filled)

/-- Whatever the ready bin was closed as that was taken off the queue, it is where it
belongs, and the others are where they were. -/
theorem Kept.close {bin : BinId} {rest : List BinId} {target : BinState}
    (kept : start.Kept depot) (queue : depot.ready = bin :: rest)
    (ready : (depot.bin bin).state = .ready) (closed : target.Closed)
    (bins : ∀ other, after.bin other =
      if other = bin then { depot.bin bin with state := target } else depot.bin other)
    (shelf : after.shelf.bins = depot.shelf.bins) (afterQueue : after.ready = rest)
    (handled : after.handled = depot.handled ++ [bin]) : start.Kept after := by
  have notClosed : ¬ (depot.bin bin).state.Closed := ready ▸ BinState.not_closed_ready
  have isClosed : (after.bin bin).state.Closed := by
    rw [bins, if_pos rfl]
    exact closed
  have leads (other : BinId) : (depot.bin other).Leads (after.bin other) := by
    rw [bins]
    split
    · rename_i same
      exact same ▸ .of_closed notClosed closed
    · exact .refl _
  have taken (other : BinId) (filled : (after.bin other).contents ≠ []) :
      (depot.bin other).contents ≠ [] := by
    rw [bins] at filled
    split at filled
    · rename_i same
      exact same ▸ filled
    · exact filled
  have stored (other : BinId) (isStored : depot.Stored other) :
      after.Stored other ∨ (after.bin other).state.Closed := by
    by_cases same : other = bin
    · exact .inr (same ▸ isClosed)
    · refine .inl (isStored.imp (fun onShelf => shelf ▸ onShelf) fun queued => ?_)
      rw [queue] at queued
      rw [afterQueue]
      exact (List.mem_cons.1 queued).resolve_left same
  have settled : start.Kept { after with handled := depot.handled } :=
    kept.step leads (fun other filled => .inl (taken other filled)) stored rfl
  constructor
  case leads => exact settled.leads
  case told => exact settled.told
  case settled => exact settled.settled
  case handled =>
    rw [handled]
    intro other member
    rcases List.mem_append.1 member with earlier | isBin
    · exact settled.handled other earlier
    · exact List.mem_singleton.1 isBin ▸ isClosed
  case once =>
    rw [handled]
    refine List.nodup_append.2 ⟨kept.once, List.nodup_singleton _, ?_⟩
    rintro other earlier _ isBin rfl
    rw [List.mem_singleton.1 isBin] at earlier
    exact notClosed (kept.handled bin earlier)

theorem onFlow_kept {α : Type} (act : Act Flow α) : (onFlow act).Keeps start.Kept :=
  Act.Keeps.of_final fun _ kept => kept.of_same rfl (fun _ => id) rfl

theorem count_kept (change : Counters → Counters) : (count change).Keeps start.Kept :=
  Act.Keeps.of_final fun _ kept => kept.of_same rfl (fun _ => id) rfl

/-- An offer concerns the flow and one bin, which may take an item. -/
structure OfferedTo (number : BinId) (before after : Depot) : Prop where
  leads : ∀ bin, (before.bin bin).Leads (after.bin bin)
  others : ∀ bin, bin ≠ number → after.bin bin = before.bin bin
  shelf : after.shelf = before.shelf
  ready : after.ready = before.ready
  handled : after.handled = before.handled

theorem OfferedTo.stored (offered : before.OfferedTo number after) (bin : BinId) :
    after.Stored bin ↔ before.Stored bin := by
  unfold Stored
  rw [offered.shelf, offered.ready]

theorem offeredTo_setBin (bin : Bin) (leads : (depot.bin number).Leads bin) (flow : Flow) :
    depot.OfferedTo number { depot.setBin number bin with flow } := by
  have isBin (other : BinId) : Depot.bin { depot.setBin number bin with flow } other =
      if other = number then bin else depot.bin other :=
    bin_setBin _ _ _ _
  refine ⟨fun other => ?_, fun other differs => ?_, rfl, rfl, rfl⟩ <;> rw [isBin]
  · split
    · rename_i same
      exact same ▸ leads
    · exact .refl _
  · exact if_neg differs

theorem offerTo_offeredTo (number : BinId) (item : Item) (source : SessionId)
    (depot : Depot) : depot.OfferedTo number (offerTo number item source depot).2 := by
  have takes (size : Number) : (depot.bin number).Leads
      { (depot.bin number).resetRejections.take item with size } :=
    .of_state (List.prefix_append _ _) rfl rfl
  have outcome := offerTo_outcome number item source depot
  generalize offerTo number item source depot = run at outcome
  cases outcome with
  | refused => exact ⟨fun _ => .refl _, fun _ _ => rfl, rfl, rfl, rfl⟩
  | turnedDown =>
      exact offeredTo_setBin (depot.bin number).reject (.of_state List.prefix_rfl rfl rfl)
        depot.flow
  | kept =>
      exact offeredTo_setBin (depot.bin number).resetRejections
        (.of_state List.prefix_rfl rfl rfl) _
  | unweighed => exact offeredTo_setBin _ (takes _) _
  | taken => exact offeredTo_setBin _ (takes _) _

/-- After an offer all is well if the bin holds nothing or is stored. -/
theorem Kept.offered (kept : start.Kept before) (offered : before.OfferedTo number after)
    (stored : (after.bin number).contents ≠ [] → before.Stored number) : start.Kept after := by
  refine kept.step offered.leads (fun bin filled => ?_)
    (fun bin isStored => .inl ((offered.stored bin).2 isStored)) offered.handled
  by_cases same : bin = number
  · exact .inr ((offered.stored bin).2 (same ▸ stored (same ▸ filled)))
  · exact .inl (offered.others bin same ▸ filled)

theorem Kept.withBin (kept : start.Kept depot) (bounds : Bounds) (group : Value) :
    start.Kept (depot.withBin bounds group) := by
  refine kept.step (fun other => ?_) (fun other => ?_) (fun _ => .inl) rfl <;>
    rw [bin_withBin] <;> split
  · rename_i same
    have unused : depot.bin other = {} := Slots.get_of_next_le (Nat.le_of_eq same.symm)
    rw [unused]
    exact .of_new ⟨fun _ => rfl, nofun⟩
  · exact .refl _
  · exact (absurd rfl ·)
  · exact .inl

/-- An offer that does not answer that the item was taken leaves a bin empty. -/
theorem empty_offerTo {property : Flow → Prop} (sound : depot.Sound property inUse)
    (whole : item.HasWholeSize) (empty : (depot.bin number).contents = [])
    {source : SessionId} (answer : (offerTo number item source depot).1 ≠ .ok true) :
    ((offerTo number item source depot).2.bin number).contents = [] := by
  have outcome := offerTo_outcome number item source depot
  generalize offerTo number item source depot = run at outcome answer
  cases outcome with
  | refused => exact empty
  | turnedDown =>
      change ((depot.setBin number _).bin number).contents = []
      rwa [bin_setBin_self]
  | kept =>
      change ((depot.setBin number _).bin number).contents = []
      rwa [bin_setBin_self]
  | unweighed fault flow _ _ _ weighed =>
      obtain ⟨size, isSize⟩ := sound.weighed number
      obtain ⟨total, isTotal⟩ := Bin.exists_sizeWith isSize whole
      rw [isTotal] at weighed
      cases weighed
  | taken => exact absurd rfl answer

/-- An offer to a bin that was created for the item: a bin that does not take it may be
forgotten. -/
theorem Kept.offered_fresh {property : Flow → Prop} (carried : Flow.Carried property)
    (kept : start.Kept depot) (sound : depot.Sound property inUse) (whole : item.HasWholeSize)
    {bounds : Bounds} (wholeBounds : bounds.Whole) {group : Value} {source : SessionId}
    {answer : Except Fault Bool} {reached : Depot}
    (run : offerTo depot.bins.next item source (depot.withBin bounds group) =
      (answer, reached)) (notTaken : answer ≠ .ok true) : start.Kept reached := by
  have created := kept.withBin bounds group
  have offered := offerTo_offeredTo depot.bins.next item source (depot.withBin bounds group)
  have empty := @empty_offerTo _ _ depot.bins.next item _
    (sound.withBin carried wholeBounds group) whole (by rw [bin_withBin_next]) source
  rw [run] at offered empty
  exact created.offered offered fun filled => absurd (empty notTaken) filled

/-- A bin that was created for the item may take it if it is stored then. -/
theorem Kept.stored_fresh (kept : start.Kept depot) {bounds : Bounds} {group : Value}
    {reached : Depot} (offered : (depot.withBin bounds group).OfferedTo depot.bins.next reached)
    (leads : ∀ bin, (reached.bin bin).Leads (after.bin bin))
    (others : ∀ bin, bin ≠ depot.bins.next → after.bin bin = reached.bin bin)
    (stored : ∀ bin, reached.Stored bin ∨ bin = depot.bins.next → after.Stored bin)
    (handled : after.handled = reached.handled) : start.Kept after := by
  have created := kept.withBin bounds group
  refine created.step (fun bin => (offered.leads bin).trans (leads bin)) (fun bin filled => ?_)
    (fun bin isStored => .inl (stored bin (.inl ((offered.stored bin).2 isStored))))
    (handled.trans offered.handled)
  by_cases same : bin = depot.bins.next
  · exact .inr (stored bin (.inr same))
  · rw [others bin same, offered.others bin same] at filled
    exact .inl filled

/-- In a sound depot the place of a bin that took an item and its state agree. -/
theorem Kept.inPlace {property : Flow → Prop} (kept : start.Kept depot)
    (sound : depot.Sound property inUse) {bin : BinId}
    (filled : (depot.bin bin).contents ≠ []) : depot.InPlace bin := by
  by_cases onShelf : bin ∈ depot.shelf.bins
  · have state := sound.arranged.opened_of_mem_bins onShelf
    exact .inl ⟨onShelf, fun queued => sound.queued.not_mem_bins sound.arranged queued onShelf,
      state, (kept.told bin).opened state⟩
  · by_cases queued : bin ∈ depot.ready
    · have state := sound.queued.ready bin queued
      exact .inr (.inl ⟨onShelf, queued, state, (kept.told bin).ready state⟩)
    · refine .inr (.inr ⟨onShelf, queued, (kept.settled bin filled).resolve_left ?_⟩)
      rintro (isShelved | isQueued)
      · exact onShelf isShelved
      · exact queued isQueued

end Depot

section Intake

open Depot

variable {start depot : Depot} {property : Flow → Prop} {inUse : List SessionId}
  {group : Value} {key : Key} {item : Item}

/-- The depot is sound and its bins are where they belong. -/
def Depot.Alive (property : Flow → Prop) (inUse : List SessionId) (start depot : Depot) : Prop :=
  depot.Sound property inUse ∧ start.Kept depot

variable (carried : Flow.Carried property)
include carried

theorem Shelf.openBinFor_kept (alive : Alive property inUse start depot)
    (whole : item.HasWholeSize) (source : SessionId) :
    start.Kept (openBinFor group key item source depot).2 := by
  have ⟨sound, kept⟩ := alive
  have bounds := sound.arranged.thresholds.bounds
  rw [openBinFor_apply]
  have offered := offerTo_offeredTo depot.bins.next item source
    (depot.withBin depot.shelf.thresholds.bounds group)
  rcases run : offerTo depot.bins.next item source
    (depot.withBin depot.shelf.thresholds.bounds group) with ⟨fault | taken, reached⟩
  · rw [Act.bind_of_error run]
    exact kept.offered_fresh carried sound whole bounds run nofun
  · rw [Act.bind_of_ok run]
    rw [run] at offered
    cases taken with
    | false => exact kept.offered_fresh carried sound whole bounds run nofun
    | true =>
        refine kept.stored_fresh offered (fun _ => .refl _) (fun _ _ => rfl) ?_ rfl
        rintro bin ((onShelf | queued) | isNew)
        · exact .inl (Shelf.mem_bins_file.2 (.inl onShelf))
        · exact .inr queued
        · exact .inl (Shelf.mem_bins_file.2 (.inr isNew))

omit carried in
theorem Shelf.offerToFirst_kept (source : SessionId) (shelf : Shelf) (bins : List BinId)
    (onShelf : ∀ bin ∈ bins, bin ∈ shelf.bins) :
    (offerToFirst item source bins).Keeps fun depot =>
      depot.shelf = shelf ∧ start.Kept depot := by
  induction bins with
  | nil => exact Act.Keeps.pure false
  | cons bin rest ih =>
      have offers : (offerTo bin item source).Keeps fun depot =>
          depot.shelf = shelf ∧ start.Kept depot := by
        apply Act.Keeps.of_final
        rintro depot ⟨rfl, kept⟩
        have offered := offerTo_offeredTo bin item source depot
        exact ⟨offered.shelf, kept.offered offered fun _ => .inl (onShelf bin (by simp))⟩
      apply offers.bind
      intro taken
      split
      · exact Act.Keeps.pure true
      · exact ih fun other later => onShelf other (List.mem_cons_of_mem _ later)

theorem Shelf.place_alive (isKey : group.key? = some key) (whole : item.HasWholeSize)
    (source : SessionId) :
    (place group key item source).Keeps (Alive property inUse start) := by
  apply Act.Keeps.of_final
  intro depot alive
  refine ⟨(place_sound carried isKey whole source).final alive.1, ?_⟩
  have onShelf : ∀ bin ∈ depot.shelf.binsOf key, bin ∈ depot.shelf.bins :=
    fun bin member => mem_bins_iff.2 ⟨key, member⟩
  have offered : (offerToFirst item source (depot.shelf.binsOf key)).Meets (· = depot)
      (fun _ => Alive property inUse start) fun _ => start.Kept := by
    have sounds := @offerToFirst_sound _ inUse carried _ whole source _ _ alive.1.arranged onShelf
    have keeps := @offerToFirst_kept start item source _ _ onShelf
    refine (Act.Meets.both sounds keeps).weaken ?_ (fun _ _ holds => ⟨holds.1.2, holds.2.2⟩)
      fun _ _ holds => holds.2.2
    rintro _ rfl
    exact ⟨⟨.refl _, alive.1⟩, rfl, alive.2⟩
  refine Act.Meets.final (offered.bind fun taken => ?_) rfl
  split
  · exact Act.Meets.pure fun _ => And.right
  · have look : (askShelf Shelf.isAtCapacity).Meets (Alive property inUse start)
        (fun _ => Alive property inUse start) fun _ => start.Kept :=
      Act.Meets.look (fun _ _ holds _ => holds) fun _ _ holds _ => holds.2
    refine look.bind fun full => ?_
    split
    · exact Act.Meets.pure fun _ => And.right
    · exact Act.Meets.of_final fun reached holds => openBinFor_kept carried holds whole source

theorem Shelf.offer_alive (group : Value) (items : List Item) (source : SessionId)
    (whole : ∀ item ∈ items, item.HasWholeSize) :
    (offer group items source).Keeps (Alive property inUse start) :=
  offer_keeps fun _ isKey item member => place_alive carried isKey (whole item member) source

theorem Engine.queueUnbound_alive (group : Value) (session : SessionId)
    (whole : item.HasWholeSize) :
    (queueUnbound group session item).Keeps (Alive property inUse start) := by
  apply Act.Keeps.of_final
  rintro depot ⟨sound, kept⟩
  refine ⟨(queueUnbound_sound carried group session whole).final sound, ?_⟩
  rw [queueUnbound_apply]
  have offered := offerTo_offeredTo depot.bins.next item session
    (depot.withBin Bounds.relaxed group)
  rcases run : offerTo depot.bins.next item session (depot.withBin Bounds.relaxed group)
    with ⟨fault | taken, reached⟩
  · rw [Act.bind_of_error run]
    exact kept.offered_fresh carried sound whole Bounds.whole_relaxed run nofun
  · rw [run] at offered
    obtain ⟨steady, _, _⟩ := offerTo_fresh carried sound Bounds.whole_relaxed group whole
      session run
    have isOpened := steady.opened_withBin
    have notClosed : ¬ (reached.bin depot.bins.next).state.Closed := by
      rw [isOpened]
      exact BinState.not_closed_opened
    have bin (other : BinId) : (reached.setBin depot.bins.next
        { reached.bin depot.bins.next with
          state := .ready, reason := some .unbound }).bin other =
        if other = depot.bins.next then _ else reached.bin other :=
      bin_setBin _ _ _ _
    rw [Act.bind_of_ok run, Act.bind_of_ok (markReady_eq .unbound isOpened)]
    refine kept.stored_fresh offered (fun other => ?_) (fun other differs => ?_) ?_ rfl
    · change (reached.bin other).Leads (Depot.bin (reached.setBin _ _) other)
      rw [bin]
      split
      · rename_i same
        exact same ▸ .of_ready notClosed .unbound
      · exact .refl _
    · exact (bin other).trans (if_neg differs)
    · rintro other ((onShelf | queued) | isNew)
      · exact .inl onShelf
      · exact .inr (List.mem_append_left _ queued)
      · exact .inr (List.mem_append_right _ (List.mem_singleton.2 isNew))

end Intake

section Activation

open Depot

variable {start depot : Depot} {property : Flow → Prop} {inUse : List SessionId}
  {engine : Engine} {mayPut : List Item → Prop}

/-- Of all calls only a mark concerns a bin. -/
theorem Call.perform_untouched {call : Call} (permitted : call.Permitted mayPut none)
    (depot : Depot) : depot.Untouched (call.perform depot).2 ∧
      ∀ bin, depot.Stored bin → (call.perform depot).2.Stored bin := by
  have effect := call.effect_perform depot
  generalize (call.perform depot).2 = reached at effect
  cases effect with
  | flow | policy | aside => exact ⟨⟨rfl, rfl⟩, fun _ => id⟩
  | state => cases permitted

theorem Script.Uses.kept {α : Type} {script : Script α}
    (uses : script.Uses (Call.Permitted mayPut none)) : script.run.Keeps start.Kept :=
  uses.keeps fun call permitted => Act.Keeps.of_final fun depot kept => by
    have ⟨untouched, stored⟩ := call.perform_untouched permitted depot
    exact kept.of_same untouched.bins stored untouched.handled

/-- While hooks leave the bins alone, an intake leaves every bin where it belongs. -/
theorem Engine.intakeRules_alive (carried : Flow.Carried property)
    (putKeeps : PutKeeps property mayPut) (behave : engine.hooks.Behave mayPut) :
    IntakeRules engine (Alive property [] start) (fun session => Alive property [session] start)
      Item.HasWholeSize := by
  have rules := intakeRules carried putKeeps behave.preprocess behave.groupKey behave.versions
  constructor
  case pulled =>
    have pulls : (pullChunk engine).Keeps start.Kept := by
      refine (onFlow_kept _).bind fun session => ?_
      exact (onFlow_kept _).bind fun _ => Act.Keeps.pure _
    refine (Act.Meets.both rules.pulled pulls).weaken (fun _ => id) ?_ fun _ _ => id
    rintro chunk depot ⟨⟨none, busy, good⟩, kept⟩
    exact ⟨fun isNone => ⟨none isNone, kept⟩, ⟨busy, kept⟩, good⟩
  case preprocessed =>
    intro session item whole
    have keeps : (engine.hooks.preprocess item session).run.Keeps start.Kept :=
      (behave.preprocess item session).kept
    refine (Act.Meets.both (rules.preprocessed session item whole) keeps).weaken (fun _ => id)
      ?_ fun _ _ => id
    rintro version depot ⟨⟨busy, good⟩, kept⟩
    exact ⟨⟨busy, kept⟩, good⟩
  case keyed =>
    exact fun session item => Act.Meets.both (rules.keyed session item) (behave.groupKey item).kept
  case routed =>
    exact fun session item => Act.Meets.both (rules.routed session item) (onFlow_kept _)
  case counted =>
    exact fun session change => Act.Meets.both (rules.counted session change) (count_kept _)
  case offered =>
    exact fun session group items whole => Shelf.offer_alive carried group items _ whole
  case queued => exact fun session group item whole => queueUnbound_alive carried group _ whole
  case committed =>
    exact fun session => Act.Meets.both (rules.committed session) (onFlow_kept _)
  case returned =>
    exact fun session => Act.Meets.both (rules.returned session) (onFlow_kept _)

theorem Engine.migrateBins_alive : migrateBins.Keeps (Alive property [] start) := by
  apply Act.Keeps.of_final
  rintro depot ⟨sound, kept⟩
  refine ⟨migrateBins_sound.final sound, ?_⟩
  obtain ⟨left, between, counters, run, departed, _⟩ := migrateBins_spec sound.arranged
  rw [run]
  refine kept.step (fun bin => ?_) (fun bin => ?_) (fun bin stored => .inl ?_) ?_
  · rw [bin_moved]
    by_cases isLeft : bin ∈ left
    · obtain ⟨reason, _, isReady⟩ := departed.ready isLeft
      rw [isReady]
      refine .of_ready ?_ reason
      rw [sound.arranged.opened_of_mem_bins (departed.mem_bins_iff.2 (.inl isLeft))]
      exact BinState.not_closed_opened
    · rw [departed.others isLeft]
      exact .refl _
  · rw [bin_moved]
    by_cases isLeft : bin ∈ left
    · exact fun _ => .inr (.inr (List.mem_append_right _ isLeft))
    · rw [departed.others isLeft]
      exact .inl
  · rcases stored with onShelf | queued
    · rcases departed.mem_bins_iff.1 onShelf with isLeft | stays
      · exact .inr (List.mem_append_right _ isLeft)
      · exact .inl stays
    · refine .inr (List.mem_append_left _ ?_)
      rw [departed.queue]
      exact queued
  · change between.handled = depot.handled
    rw [departed.marked.rest]

/-- Bins that are no longer stored are discarded, if they were not closed before. -/
theorem Depot.Kept.discarded {before cleared after : Depot} {gone : List BinId}
    (kept : start.Kept before) (discarded : cleared.Discarded gone after)
    (bins : cleared.bins = before.bins)
    (notClosed : ∀ bin ∈ gone, ¬ (before.bin bin).state.Closed)
    (stored : ∀ bin, before.Stored bin → after.Stored bin ∨ bin ∈ gone)
    (handled : after.handled = before.handled) : start.Kept after := by
  have same (bin : BinId) : cleared.bin bin = before.bin bin := by
    unfold Depot.bin
    rw [bins]
  refine kept.step (fun bin => ?_) (fun bin filled => .inl ?_) (fun bin isStored => ?_) handled
  · by_cases isGone : bin ∈ gone
    · rw [discarded.rolledBack bin isGone, same]
      exact .of_closed (notClosed bin isGone) (.inr rfl)
    · rw [discarded.others bin isGone, same]
      exact .refl _
  · by_cases isGone : bin ∈ gone
    · rw [discarded.rolledBack bin isGone, same] at filled
      exact filled
    · rwa [discarded.others bin isGone, same] at filled
  · refine (stored bin isStored).imp_right fun isGone => ?_
    rw [discarded.rolledBack bin isGone]
    exact .inr rfl

theorem Engine.reset_alive (carried : Flow.Carried property) :
    reset.Keeps (Alive property [] start) := by
  apply Act.Keeps.of_final
  rintro depot ⟨sound, kept⟩
  refine ⟨(reset_sound carried).final sound, ?_⟩
  obtain ⟨reached, run, discarded⟩ := reset_spec sound.arranged sound.queued
  rw [run]
  refine kept.discarded discarded rfl (fun bin isGone => ?_)
    (fun bin stored => .inr (List.mem_append.2 stored)) (by rw [discarded.rest]; rfl)
  rcases List.mem_append.1 isGone with onShelf | queued
  · rw [sound.arranged.opened_of_mem_bins onShelf]
    exact BinState.not_closed_opened
  · rw [sound.queued.ready bin queued]
    exact BinState.not_closed_ready

end Activation

end ItemBinning
