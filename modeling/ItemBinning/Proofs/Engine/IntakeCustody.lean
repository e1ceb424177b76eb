import ItemBinning.Proofs.Engine.Custody
import ItemBinning.Proofs.Engine.IntakeRules

/-!
# Custody during the intake

An item that is offered to a bin either ends in the session of that bin or stays
where it was, and a bin that was opened in vain leaves an empty session behind.  So
while a chunk is binned the items of its session alone depend on the engine, and when
it is committed or rolled back that session is empty.
-/

namespace ItemBinning

theorem Flow.migrate_one_error {source target : SessionId} {item : Item}
    {flow reached : Flow} {fault : Fault}
    (run : migrate source target [item] flow = (.error fault, reached)) : reached = flow := by
  unfold migrate at run
  split at run
  · cases run
  · rcases handOver_cases source target item flow with ⟨_, failed⟩ | ⟨_, _, handed⟩
    · rw [Act.forEach, Act.bind_of_error failed] at run
      cases run
      rfl
    · rw [Act.forEach, Act.bind_of_ok handed] at run
      cases run

namespace Depot

variable {property : Flow → Prop} {inUse : List SessionId} {depot : Depot}

/-- A bin in custody may change in what is in it while items arrive in its session. -/
theorem Sound.setBin (carried : Flow.Carried property) (sound : depot.Sound property inUse)
    {number : BinId} (isBin : number < depot.bins.next) {bin : Bin}
    (matching : bin.Matches (depot.bin number))
    (state : bin.state = (depot.bin number).state)
    (weighed : ∃ size : Int, bin.size = .int size) {source : SessionId} {items : List Item}
    (covered : (depot.bin number).session ∈ inUse ∨
      depot.Owned (depot.bin number).session) :
    Sound property inUse { depot.setBin number bin with
      flow := (Flow.migrate source (depot.bin number).session items depot.flow).2 } := by
  have sessions := Act.Meets.final ((Flow.carried_sessions depot.flow.sessions.next).migrate
    source (depot.bin number).session items) (Nat.le_refl _)
  have undisturbed := (Steady.setBin depot isBin bin matching state sessions).undisturbed
  refine sound.undisturbed undisturbed
    (Act.Meets.final (carried.migrate source _ items) sound.flow)
    (Act.Meets.final ((Flow.carried_everywhere fun _ _ => id).migrate source _ items)
      sound.whole) sound.arranged.thresholds ?_ ?_
  · intro other
    change ∃ size : Int, ((depot.setBin number bin).bin other).size = .int size
    rw [bin_setBin]
    split
    · exact weighed
    · exact sound.weighed other
  · refine sound.attended.of_gains (Act.Meets.final (Flow.migrate_gains depot.flow source
      (depot.bin number).session items (by simp)) (.refl [(depot.bin number).session] _))
      (fun session => (undisturbed.owned session).2) (List.Subset.refl _) ?_
    intro session isTarget id _
    rw [List.mem_singleton.1 isTarget]
    exact .inr (covered.imp_right fun owned => .inl ((undisturbed.owned _).2 owned))

theorem offerTo_sound (carried : Flow.Carried property) (sound : depot.Sound property inUse)
    {number : BinId} (isBin : number < depot.bins.next) {item : Item}
    (covered : (depot.bin number).session ∈ inUse ∨
      depot.Owned (depot.bin number).session)
    (whole : item.HasWholeSize) (source : SessionId) :
    (offerTo number item source depot).2.Sound property inUse := by
  have stays : ∀ {bin : Bin}, bin.Matches (depot.bin number) →
      bin.state = (depot.bin number).state → bin.size = (depot.bin number).size →
        (depot.setBin number bin).Sound property inUse := by
    intro bin matching state size
    have kept := @Sound.setBin property inUse depot carried sound number isBin bin matching
      state (size ▸ sound.weighed number) source [] covered
    have same : (Flow.migrate source (depot.bin number).session [] depot.flow).2 =
        depot.flow := by
      unfold Flow.migrate
      split <;> rfl
    rwa [same] at kept
  have outcome := offerTo_outcome number item source depot
  generalize offerTo number item source depot = run at outcome
  cases outcome with
  | refused => exact sound
  | turnedDown => exact stays ⟨rfl, rfl, rfl, rfl⟩ rfl rfl
  | kept fault flow _ _ migrated =>
      rw [Flow.migrate_one_error migrated]
      exact stays ⟨rfl, rfl, rfl, rfl⟩ rfl rfl
  | unweighed fault flow _ _ _ weighed =>
      obtain ⟨size, isSize⟩ := sound.weighed number
      obtain ⟨total, isTotal⟩ := Bin.exists_sizeWith isSize whole
      rw [isTotal] at weighed
      cases weighed
  | taken size flow _ _ migrated weighed =>
      obtain ⟨before, isSize⟩ := sound.weighed number
      obtain ⟨total, isTotal⟩ := Bin.exists_sizeWith isSize whole
      rw [isTotal] at weighed
      cases weighed
      have taken := @Sound.setBin property inUse depot carried sound number isBin
        { (depot.bin number).resetRejections.take item with size := .int total }
        ⟨rfl, rfl, rfl, rfl⟩ rfl ⟨total, rfl⟩ source [item] covered
      rwa [migrated] at taken

/-- An offer that does not answer that the item was taken leaves the flow as it is. -/
theorem flow_offerTo (sound : depot.Sound property inUse) {number : BinId} {item : Item}
    (whole : item.HasWholeSize) {source : SessionId}
    (answer : (offerTo number item source depot).1 ≠ .ok true) :
    (offerTo number item source depot).2.flow = depot.flow := by
  have outcome := offerTo_outcome number item source depot
  generalize offerTo number item source depot = run at outcome answer
  cases outcome with
  | refused | turnedDown => rfl
  | kept _ _ _ _ migrated => exact Flow.migrate_one_error migrated
  | unweighed fault flow _ _ _ weighed =>
      obtain ⟨size, isSize⟩ := sound.weighed number
      obtain ⟨total, isTotal⟩ := Bin.exists_sizeWith isSize whole
      rw [isTotal] at weighed
      cases weighed
  | taken => exact absurd rfl answer

theorem Sound.withBin (carried : Flow.Carried property) (sound : depot.Sound property inUse)
    {bounds : Bounds} (whole : bounds.Whole) (group : Value) :
    (depot.withBin bounds group).Sound property inUse := by
  have old : ∀ bin, depot.Stored bin → (depot.withBin bounds group).bin bin = depot.bin bin := by
    rintro bin (onShelf | queued)
    · exact bin_withBin_of_lt _ _ _ (sound.arranged.isBin_of_mem_bins onShelf)
    · exact bin_withBin_of_lt _ _ _ (sound.queued.isBin bin queued)
  refine ⟨carried.opened _ sound.flow,
    (Flow.carried_everywhere fun _ _ => id).opened _ sound.whole,
    sound.arranged.withBin whole group, ⟨?_, ?_, sound.queued.distinct⟩, ?_, ?_⟩
  · intro bin queued
    rw [next_withBin]
    exact Nat.lt_succ_of_lt (sound.queued.isBin bin queued)
  · intro bin queued
    rw [old bin (.inr queued)]
    exact sound.queued.ready bin queued
  · intro bin
    rw [bin_withBin]
    split
    · exact ⟨0, rfl⟩
    · exact sound.weighed bin
  · refine sound.attended.of_gains (Act.Meets.final (Flow.openSession_gains depot.flow)
      (.refl [] depot.flow)) ?_ (List.Subset.refl _) nofun
    rintro session ⟨bin, stored, same⟩
    exact ⟨bin, stored, by rw [old bin stored, same]⟩

theorem Sound.setShelf (sound : depot.Sound property inUse) {shelf : Shelf}
    (arranged : Arranged { depot with shelf })
    (within : ∀ bin ∈ depot.shelf.bins, bin ∈ shelf.bins) :
    Sound property inUse { depot with shelf } := by
  refine ⟨sound.flow, sound.whole, arranged, ⟨sound.queued.isBin, sound.queued.ready,
    sound.queued.distinct⟩, sound.weighed, ?_⟩
  refine sound.attended.of_gains (.refl [] depot.flow) ?_ (List.Subset.refl _) nofun
  rintro session ⟨bin, stored, same⟩
  exact ⟨bin, stored.imp_left (within bin), same⟩

/-- An item is offered to a bin that was created for it, whose session is in use only
as long as the item may be there. -/
theorem offerTo_fresh (carried : Flow.Carried property) (sound : depot.Sound property inUse)
    {bounds : Bounds} (wholeBounds : bounds.Whole) (group : Value) {item : Item}
    (whole : item.HasWholeSize) (source : SessionId) {answer : Except Fault Bool}
    {reached : Depot}
    (run : offerTo depot.bins.next item source (depot.withBin bounds group) =
      (answer, reached)) :
    (depot.withBin bounds group).Steady reached ∧
      reached.Sound property (depot.flow.sessions.next :: inUse) ∧
      (answer ≠ .ok true → reached.Sound property inUse) := by
  have created : (depot.withBin bounds group).Sound property
      (depot.flow.sessions.next :: inUse) :=
    (sound.withBin carried wholeBounds group).mono (List.subset_cons_self _ _)
  have isBin := lt_next_withBin depot bounds group
  have covered : ((depot.withBin bounds group).bin depot.bins.next).session ∈
      depot.flow.sessions.next :: inUse := by
    rw [bin_withBin_next]
    exact List.mem_cons_self
  have steady := Act.Meets.final (offerTo_steady isBin item source) (Steady.refl _)
  have offered := offerTo_sound carried created isBin (.inl covered) whole source
  have unchanged := @flow_offerTo _ _ _ created depot.bins.next item whole source
  rw [run] at steady offered unchanged
  refine ⟨steady, offered, fun answer => offered.release (.inl ?_)⟩
  rw [unchanged answer]
  exact Flow.ids_opened depot.flow

end Depot

namespace Shelf

open Depot

variable {property : Flow → Prop} {inUse : List SessionId} {depot : Depot}
  {group : Value} {key : Key}

private theorem offersKeep_true : OffersKeep fun _ => True :=
  ⟨fun _ _ _ _ => trivial, fun _ _ _ _ => trivial, fun _ _ _ _ _ => trivial⟩

theorem openBinFor_sound (carried : Flow.Carried property)
    (isKey : group.key? = some key) {item : Item} (whole : item.HasWholeSize)
    (source : SessionId) (sound : depot.Sound property inUse)
    (room : depot.shelf.isAtCapacity = .ok false) :
    (openBinFor group key item source depot).2.Sound property inUse := by
  have arranged := (openBinFor_orderly isKey offersKeep_true item source
    ⟨sound.arranged, trivial⟩ room).arranged
  rw [openBinFor_apply] at arranged ⊢
  rcases run : offerTo depot.bins.next item source
    (depot.withBin depot.shelf.thresholds.bounds group) with ⟨answer, reached⟩
  obtain ⟨steady, offered, refused⟩ := offerTo_fresh carried sound
    sound.arranged.thresholds.bounds group whole source run
  rcases answer with fault | taken
  · rw [Act.bind_of_error run]
    exact refused nofun
  · rw [Act.bind_of_ok run] at arranged ⊢
    cases taken with
    | false => exact refused nofun
    | true =>
        refine Sound.release (offered.setShelf arranged fun bin member =>
          Shelf.mem_bins_file.2 (.inl member)) (.inr ⟨depot.bins.next, .inl ?_, ?_⟩)
        · exact Shelf.mem_bins_file.2 (.inr rfl)
        · exact (steady.matching _).session.trans (by rw [bin_withBin_next])

theorem offerToFirst_sound (carried : Flow.Carried property) {item : Item}
    (whole : item.HasWholeSize) (source : SessionId) (bins : List BinId) {start : Depot}
    (arranged : start.Arranged) (onShelf : ∀ bin ∈ bins, bin ∈ start.shelf.bins) :
    (offerToFirst item source bins).Keeps fun depot =>
      start.Steady depot ∧ depot.Sound property inUse := by
  induction bins with
  | nil => exact Act.Keeps.pure false
  | cons bin rest ih =>
      have member := onShelf bin (by simp)
      have isBin := arranged.isBin_of_mem_bins member
      have offered : (offerTo bin item source).Keeps fun depot =>
          start.Steady depot ∧ depot.Sound property inUse := by
        apply Act.Keeps.of_final
        intro depot holds
        obtain ⟨steady, sound⟩ := holds
        refine ⟨Act.Meets.final (offerTo_steady isBin item source) steady,
          offerTo_sound carried sound (steady.next ▸ isBin) (.inr ⟨bin, .inl ?_, rfl⟩)
            whole source⟩
        rw [steady.shelf]
        exact member
      apply offered.bind
      intro taken
      split
      · exact Act.Keeps.pure true
      · exact ih fun other later => onShelf other (List.mem_cons_of_mem _ later)

theorem place_sound (carried : Flow.Carried property) (isKey : group.key? = some key)
    {item : Item} (whole : item.HasWholeSize) (source : SessionId) :
    (place group key item source).Keeps (Sound property inUse) := by
  apply Act.Keeps.of_final
  intro depot sound
  have offered := (@offerToFirst_sound _ inUse carried _ whole source (depot.shelf.binsOf key)
    depot sound.arranged fun bin member => mem_bins_iff.2 ⟨key, member⟩).weaken
      (fun _ => id) (fun _ _ => And.right) fun _ _ => And.right
  have look : (askShelf Shelf.isAtCapacity).Meets (Sound property inUse)
      (fun full reached => reached.Sound property inUse ∧
        reached.shelf.isAtCapacity = .ok full)
      fun _ => Sound property inUse :=
    Act.Meets.look (fun _ _ holds answer => ⟨holds, answer⟩) fun _ _ holds _ => holds
  refine Act.Meets.final (offered.bind fun taken => ?_) ⟨Steady.refl depot, sound⟩
  split
  · exact Act.Keeps.pure true
  · apply look.bind
    intro full
    split
    · exact Act.Meets.pure fun _ => And.left
    · rename_i hasRoom
      apply Act.Meets.of_final
      intro reached holds
      exact openBinFor_sound carried isKey whole source holds.1
        (by rw [holds.2, Bool.not_eq_true] at *; exact congrArg _ hasRoom)

/-- No item is lost by an offer, also if it fails. -/
theorem offer_sound (carried : Flow.Carried property) (group : Value) (items : List Item)
    (source : SessionId) (whole : ∀ item ∈ items, item.HasWholeSize) :
    (offer group items source).Keeps (Sound property inUse) :=
  offer_keeps fun _ isKey item member => place_sound carried isKey (whole item member) source

end Shelf

namespace Engine

open Depot

variable {property : Flow → Prop} {inUse : List SessionId} {depot : Depot}

theorem queueUnbound_sound (carried : Flow.Carried property) (group : Value)
    (session : SessionId) {item : Item} (whole : item.HasWholeSize) :
    (queueUnbound group session item).Keeps (Sound property inUse) := by
  apply Act.Keeps.of_final
  intro depot sound
  rw [queueUnbound_apply]
  rcases run : offerTo depot.bins.next item session (depot.withBin Bounds.relaxed group)
    with ⟨answer, reached⟩
  obtain ⟨steady, offered, refused⟩ := offerTo_fresh carried sound Bounds.whole_relaxed
    group whole session run
  rcases answer with fault | taken
  · rw [Act.bind_of_error run]
    exact refused nofun
  -- the bin is new, so it is neither on the shelf nor queued before it is queued here
  · have isBin := steady.isBin_withBin
    have notShelved : depot.bins.next ∉ reached.shelf.bins := by
      rw [steady.shelf]
      exact fun member => Nat.lt_irrefl _ (sound.arranged.isBin_of_mem_bins member)
    have notQueued : depot.bins.next ∉ reached.ready := by
      rw [steady.ready]
      exact fun member => Nat.lt_irrefl _ (sound.queued.isBin _ member)
    obtain ⟨marked, isMarked⟩ : ∃ marked, marked = reached.setBin depot.bins.next
      { reached.bin depot.bins.next with state := .ready, reason := some .unbound } := ⟨_, rfl⟩
    have markedSound : marked.Sound property (depot.flow.sessions.next :: inUse) :=
      isMarked ▸ offered.replaceBin isBin
        (fun stored => stored.elim notShelved notQueued) ⟨rfl, rfl, rfl, rfl⟩ rfl
    have held : marked.bin depot.bins.next = { reached.bin depot.bins.next with
        state := .ready, reason := some .unbound } := by
      rw [isMarked, bin_setBin_self]
    have only : ∀ {bin}, bin ∈ [depot.bins.next] → bin = depot.bins.next :=
      fun member => List.mem_singleton.1 member
    have queued := markedSound.enqueue
      (fun bin member => by
        rw [only member, isMarked]
        exact (Slots.next_set_of_lt isBin _).symm ▸ isBin)
      (fun bin member => by rw [only member, held])
      (fun bin member => by
        rw [only member, isMarked]
        exact notQueued) (List.nodup_singleton _)
    rw [Act.bind_of_ok run, Act.bind_of_ok (markReady_eq .unbound steady.opened_withBin),
      ← isMarked]
    refine queued.release (.inr ⟨depot.bins.next, .inr (by simp), ?_⟩)
    change (marked.bin depot.bins.next).session = _
    rw [held]
    exact (steady.matching _).session.trans (by rw [bin_withBin_next])

/-- Items are pulled into an empty session, which stays empty if none are. -/
theorem pullValue_sound (carried : Flow.Carried property) (session : SessionId)
    (wanted : Value) :
    (onFlow (Flow.pullValue session wanted)).Meets
      (fun depot => depot.Sound property [] ∧ (depot.flow.session session).ids = [])
      (fun items depot => (items = [] → depot.Sound property []) ∧
        depot.Sound property [session] ∧ ∀ item ∈ items, item.HasWholeSize)
      fun _ => Sound property [] := by
  intro depot holds
  obtain ⟨sound, empty⟩ := holds
  have kept : (onFlow (Flow.pullValue session wanted) depot).2.Sound property [session] :=
    Act.Meets.final (onFlow_sound carried (·.pullValue session wanted)
      fun start => Flow.pullValue_gains start session wanted (by simp))
      (sound.mono (List.nil_subset _))
  rcases Flow.pullValue_cases session wanted depot.flow with
    ⟨fault, run⟩ | ⟨number, _, distinct, run⟩ <;> rw [onFlow_eq run] at kept ⊢
  · exact sound
  · refine ⟨fun none => kept.release (.inl ?_), kept, fun item member => ?_⟩
    · rw [none]
      exact (congrArg Session.ids ((Flow.session_setSession _ session session _).trans
        (if_pos rfl))).trans empty
    · exact sound.whole.waiting item (List.mem_of_mem_take member)

theorem pullChunk_sound (carried : Flow.Carried property) (engine : Engine) :
    (pullChunk engine).Meets (Sound property [])
      (fun chunk depot => (chunk.2 = [] → depot.Sound property []) ∧
        depot.Sound property [chunk.1] ∧ ∀ item ∈ chunk.2, item.HasWholeSize)
      fun _ => Sound property [] := by
  have opened : (onFlow Flow.openSession).Meets (Sound property [])
      (fun session depot => depot.Sound property [] ∧
        (depot.flow.session session).ids = []) fun _ => Sound property [] := by
    intro depot sound
    have kept : (onFlow Flow.openSession depot).2.Sound property [] :=
      Act.Meets.final (onFlow_sound carried (·.openSession) Flow.openSession_gains) sound
    rw [onFlow_eq (Flow.openSession_eq depot.flow)] at kept ⊢
    exact ⟨kept, Flow.ids_opened depot.flow⟩
  apply opened.bind
  intro session
  refine (pullValue_sound carried session (.number engine.chunkSize)).bind fun items => ?_
  exact Act.Meets.pure fun _ => id

/-- The rules of an intake whose hooks keep to permitted calls: between chunks every
item is attended, and while there is a chunk its session is in use. -/
theorem intakeRules {engine : Engine} {mayPut : List Item → Prop}
    (carried : Flow.Carried property) (putKeeps : PutKeeps property mayPut)
    (preprocess : ∀ item session,
      (engine.hooks.preprocess item session).Uses (Call.Permitted mayPut none))
    (groupKey : ∀ item, (engine.hooks.groupKey item).Uses (Call.Permitted mayPut none))
    (versions : ∀ item session depot version reached,
      depot.flow.Everywhere Item.HasWholeSize → item.HasWholeSize →
      (engine.hooks.preprocess item session).run depot = (.ok (some version), reached) →
        version.HasWholeSize) :
    IntakeRules engine (Sound property []) (fun session => Sound property [session])
      Item.HasWholeSize where
  pulled := pullChunk_sound carried engine
  preprocessed session item whole := by
    refine Act.Meets.of_runs ?_ ?_
    · intro depot version reached sound run
      refine ⟨((preprocess item session).keeps_sound carried putKeeps).of_ok sound run, ?_⟩
      rintro kept rfl
      exact versions item session depot kept reached sound.whole whole run
    · intro depot fault reached sound run
      exact ((preprocess item session).keeps_sound carried putKeeps).of_error sound run
  keyed session item := (groupKey item).keeps_sound carried putKeeps
  routed session item :=
    onFlow_sound carried (·.route session [item] failureRelationship)
      fun start => Flow.route_gains start session [item] failureRelationship
  counted session change := count_sound change
  offered session group items whole := Shelf.offer_sound carried group items session whole
  queued session group item whole := queueUnbound_sound carried group session whole
  committed session := (commit_sound carried session).weaken (fun _ => id) (fun _ _ => id)
    fun _ _ => And.left
  returned session := rollBack_sound carried session

end Engine

end ItemBinning
