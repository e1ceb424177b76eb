import ItemBinning.Proofs.Bin.Room
import ItemBinning.Proofs.Shelf.Ledger

/-!
# First fit

An item goes to the first open bin of its group that has room for it, and a bin is
opened for it only when none has.  So of two open bins of a group the earlier one
had no room for the item that the later one was opened for.  It never regains room,
because the bounds of a bin stand and its contents and size only grow, whatever
happens to the other bins, to the thresholds and to the sessions.
-/

namespace ItemBinning

/-- The size of the item is a natural number, as that of every item that was checked
when it was created. -/
def Item.HasNaturalSize (item : Item) : Prop :=
  ∃ size : Nat, item.size = .int size

theorem Item.HasNaturalSize.whole {item : Item} (natural : item.HasNaturalSize) :
    item.HasWholeSize := by
  obtain ⟨size, isSize⟩ := natural
  exact ⟨size, isSize⟩

namespace Bin

/-- The bin holds as many items as it may, or would be larger than it may with the
item. -/
def LeavesNoRoom (bin : Bin) (item : Item) : Prop :=
  (∃ most : Int, bin.bounds.maxEntries = .int most ∧ most ≤ bin.entryCount) ∨
    ∃ most size added : Int, bin.bounds.maxSize = .int most ∧ bin.size = .int size ∧
      item.size = .int added ∧ most < size + added

/-- The other bin is the same one at a later time: it has the same bounds, its
contents begin with those it had, and it is not smaller. -/
structure Fills (before after : Bin) : Prop where
  bounds : after.bounds = before.bounds
  contents : before.contents <+: after.contents
  size : ∀ size : Int, before.size = .int size →
    ∃ larger : Int, after.size = .int larger ∧ size ≤ larger

theorem Fills.of_same {before after : Bin} (bounds : after.bounds = before.bounds)
    (contents : after.contents = before.contents) (size : after.size = before.size) :
    before.Fills after :=
  ⟨bounds, contents ▸ List.prefix_refl _, fun held isSize =>
    ⟨held, size.trans isSize, Int.le_refl held⟩⟩

theorem Fills.refl (bin : Bin) : bin.Fills bin :=
  .of_same rfl rfl rfl

theorem Fills.trans {first second third : Bin} (fillsFirst : first.Fills second)
    (fillsSecond : second.Fills third) : first.Fills third where
  bounds := fillsSecond.bounds.trans fillsFirst.bounds
  contents := fillsFirst.contents.trans fillsSecond.contents
  size size isSize := by
    obtain ⟨larger, isLarger, le⟩ := fillsFirst.size size isSize
    obtain ⟨largest, isLargest, leLarger⟩ := fillsSecond.size larger isLarger
    exact ⟨largest, isLargest, Int.le_trans le leLarger⟩

theorem Fills.head {before after : Bin} (fills : before.Fills after) {item : Item}
    (isFirst : before.contents.head? = some item) :
    after.contents.head? = some item := by
  obtain ⟨rest, same⟩ := List.head?_eq_some_iff.1 isFirst
  obtain ⟨more, grown⟩ := fills.contents
  rw [← grown, same]
  rfl

/-- A bin without room for an item has none later on either. -/
theorem LeavesNoRoom.fills {before after : Bin} {item : Item}
    (noRoom : before.LeavesNoRoom item) (fills : before.Fills after) :
    after.LeavesNoRoom item := by
  rcases noRoom with ⟨most, isMost, reached⟩ |
    ⟨most, size, added, isMost, isSize, isAdded, exceeds⟩
  · refine .inl ⟨most, fills.bounds ▸ isMost, ?_⟩
    have longer : before.entryCount ≤ after.entryCount := fills.contents.length_le
    omega
  · obtain ⟨larger, isLarger, le⟩ := fills.size size isSize
    exact .inr ⟨most, larger, added, fills.bounds ▸ isMost, isLarger, isAdded, by omega⟩

/-- A bin of whole bounds that turns an item of whole size down has no room for it. -/
theorem leavesNoRoom_of_turnsDown {bin : Bin} {item : Item} {size : Int}
    (bounds : bin.bounds.Whole) (weighed : bin.size = .int size)
    (whole : item.HasWholeSize) (turnsDown : bin.turnsDown item = .ok true) :
    bin.LeavesNoRoom item := by
  obtain ⟨reached, isReached⟩ := exists_reachedEntries bounds
  unfold Bin.turnsDown at turnsDown
  rw [isReached] at turnsDown
  cases reached with
  | true =>
      unfold reachedEntries at isReached
      rcases bounds.maxEntries with none | ⟨most, isMost⟩
      · rw [none] at isReached
        cases isReached
      · rw [isMost, Value.limits_int, Value.isAtLeast_int] at isReached
        exact .inl ⟨most, isMost, of_decide_eq_true (Except.ok.inj isReached)⟩
  | false =>
      change bin.overflowsWith item = .ok true at turnsDown
      unfold overflowsWith at turnsDown
      obtain ⟨added, isAdded⟩ := whole
      have total : bin.sizeWith item = .ok (.int (size + added)) := by
        unfold sizeWith
        rw [isAdded, weighed]
        rfl
      rcases bounds.maxSize with none | ⟨most, isMost⟩
      · rw [none] at turnsDown
        cases turnsDown
      · rw [isMost, Value.limits_int, total] at turnsDown
        have exceeds : (Value.int (size + added)).isAbove (.int most) = .ok true := turnsDown
        rw [Value.isAbove_int] at exceeds
        exact .inr ⟨most, size, added, isMost, weighed, isAdded,
          of_decide_eq_true (Except.ok.inj exceeds)⟩

end Bin

namespace Depot

/-- The sizes of the bins are whole numbers. -/
def Weighed (depot : Depot) : Prop :=
  ∀ bin < depot.bins.next, ∃ size : Int, (depot.bin bin).size = .int size

/-- Nothing changed but the flow and the bins, which only fill. -/
structure Fed (before after : Depot) : Prop extends before.Steady after where
  fills : ∀ bin, (before.bin bin).Fills (after.bin bin)

theorem Fed.refl (depot : Depot) : depot.Fed depot :=
  ⟨.refl depot, fun _ => .refl _⟩

theorem Fed.trans {first second third : Depot} (fedFirst : first.Fed second)
    (fedSecond : second.Fed third) : first.Fed third :=
  ⟨fedFirst.toSteady.trans fedSecond.toSteady, fun bin =>
    (fedFirst.fills bin).trans (fedSecond.fills bin)⟩

theorem Fed.weighed {before after : Depot} (fed : before.Fed after)
    (weighed : before.Weighed) : after.Weighed := by
  intro bin isBin
  obtain ⟨size, isSize⟩ := weighed bin (fed.next ▸ isBin)
  obtain ⟨larger, isLarger, _⟩ := (fed.fills bin).size size isSize
  exact ⟨larger, isLarger⟩

/-- In every group each bin left no room for the first item of any later one. -/
structure FirstFit (depot : Depot) : Prop where
  weighed : depot.Weighed
  needed : ∀ key, (depot.shelf.binsOf key).Pairwise fun first second =>
    ∃ item, (depot.bin second).contents.head? = some item ∧
      (depot.bin first).LeavesNoRoom item

/-- Bins that fill may leave their groups, the others staying in order. -/
theorem FirstFit.staying {before after : Depot} (firstFit : before.FirstFit)
    (next : after.bins.next = before.bins.next)
    (fills : ∀ bin, (before.bin bin).Fills (after.bin bin))
    (staying : ∀ key, (after.shelf.binsOf key).Sublist (before.shelf.binsOf key)) :
    after.FirstFit where
  weighed bin isBin := by
    obtain ⟨size, isSize⟩ := firstFit.weighed bin (next ▸ isBin)
    obtain ⟨larger, isLarger, _⟩ := (fills bin).size size isSize
    exact ⟨larger, isLarger⟩
  needed key := by
    refine ((firstFit.needed key).sublist (staying key)).imp fun {first second} => ?_
    rintro ⟨item, isFirst, noRoom⟩
    exact ⟨item, (fills second).head isFirst, noRoom.fills (fills first)⟩

theorem FirstFit.fed {before after : Depot} (firstFit : before.FirstFit)
    (fed : before.Fed after) : after.FirstFit :=
  firstFit.staying fed.next fed.fills fun _ => fed.shelf ▸ .refl _

theorem FirstFit.departed {before after : Depot} {left : List BinId}
    (firstFit : before.FirstFit) (departed : before.Departed left after) :
    after.FirstFit := by
  refine firstFit.staying departed.next (fun bin => ?_) departed.staying
  by_cases member : bin ∈ left
  · obtain ⟨_, _, isReady⟩ := departed.ready member
    rw [isReady]
    exact .of_same rfl rfl rfl
  · rw [departed.others member]
    exact .refl _

theorem Discarded.fills {before after : Depot} {gone : List BinId}
    (discarded : before.Discarded gone after) (bin : BinId) :
    (before.bin bin).Fills (after.bin bin) := by
  by_cases member : bin ∈ gone
  · rw [discarded.rolledBack bin member]
    exact .of_same rfl rfl rfl
  · rw [discarded.others bin member]
    exact .refl _

/-- A bin that was just created stands in no group. -/
theorem FirstFit.withBin {depot : Depot} (firstFit : depot.FirstFit)
    (arranged : depot.Arranged) (bounds : Bounds) (group : Value) :
    (depot.withBin bounds group).FirstFit where
  weighed bin isBin := by
    rw [next_withBin] at isBin
    rcases Nat.lt_succ_iff_lt_or_eq.1 isBin with old | rfl
    · rw [bin_withBin_of_lt _ _ _ old]
      exact firstFit.weighed bin old
    · rw [bin_withBin_next]
      exact ⟨0, rfl⟩
  needed key := by
    refine (firstFit.needed key).imp_of_mem fun {first second} isFirst isSecond => ?_
    rw [bin_withBin_of_lt _ _ _ (arranged.isBin key first isFirst),
      bin_withBin_of_lt _ _ _ (arranged.isBin key second isSecond)]
    exact id

/-- A bin may be filed last in a group none of whose bins has room for its first item. -/
theorem FirstFit.file {depot : Depot} (firstFit : depot.FirstFit) {key : Key}
    {bin : BinId} {item : Item} (isFirst : (depot.bin bin).contents.head? = some item)
    (noRoom : ∀ other ∈ depot.shelf.binsOf key, (depot.bin other).LeavesNoRoom item) :
    FirstFit { depot with
      shelf := { depot.shelf.setGroup key (depot.shelf.binsOf key ++ [bin]) with
        binCount := depot.shelf.binCount + 1 } } where
  weighed := firstFit.weighed
  needed group := by
    change ((depot.shelf.setGroup key _).binsOf group).Pairwise _
    rw [Shelf.binsOf_setGroup]
    split
    · refine List.pairwise_append.2
        ⟨firstFit.needed key, List.pairwise_singleton _ _, fun other member added isAdded => ?_⟩
      rw [List.mem_singleton.1 isAdded]
      exact ⟨item, isFirst, noRoom other member⟩
    · exact firstFit.needed group

variable {depot : Depot} {number : BinId} {item : Item} {source : SessionId}

theorem fills_setBin (bin : Bin) (fills : (depot.bin number).Fills bin) (flow : Flow)
    (other : BinId) :
    (depot.bin other).Fills (Depot.bin { depot.setBin number bin with flow } other) := by
  change (depot.bin other).Fills ((depot.setBin number bin).bin other)
  rw [bin_setBin]
  split
  · rename_i same
    exact same ▸ fills
  · exact .refl _

/-- Whatever an offer to a bin comes to, the bins do nothing but fill. -/
theorem Offered.fills {result : Except Fault Bool × Depot} (natural : item.HasNaturalSize)
    (offered : depot.Offered number item source result) (bin : BinId) :
    (depot.bin bin).Fills (result.2.bin bin) := by
  cases offered with
  | refused => exact .refl _
  | turnedDown =>
      exact fills_setBin (depot.bin number).reject (.of_same rfl rfl rfl) depot.flow bin
  | kept _ flow =>
      exact fills_setBin (depot.bin number).resetRejections (.of_same rfl rfl rfl) flow bin
  | unweighed _ flow =>
      refine fills_setBin ((depot.bin number).resetRejections.take item) ?_ flow bin
      exact ⟨rfl, List.prefix_append _ _, fun size isSize => ⟨size, isSize, Int.le_refl size⟩⟩
  | taken total flow _ _ _ weighed =>
      refine fills_setBin { (depot.bin number).resetRejections.take item with size := total }
        ⟨rfl, List.prefix_append _ _, fun size isSize => ?_⟩ flow bin
      obtain ⟨added, isAdded⟩ := natural
      unfold Bin.sizeWith at weighed
      rw [isAdded, isSize] at weighed
      exact ⟨size + added, (Except.ok.inj weighed).symm, by omega⟩

/-- What an offer of an item to a bin comes to: the bin ends with the item, or has no
room for it. -/
theorem offerTo_feeds (weighed : depot.Weighed) (isBin : number < depot.bins.next)
    (bounds : (depot.bin number).bounds.Whole) (natural : item.HasNaturalSize) :
    (offerTo number item source).Meets (· = depot)
      (fun taken reached => depot.Fed reached ∧
        if taken then (reached.bin number).contents = (depot.bin number).contents ++ [item]
        else (reached.bin number).LeavesNoRoom item)
      fun _ reached => depot.Fed reached := by
  rintro start isStart
  rw [isStart]
  have steady := (offerTo_steady isBin item source).final (.refl depot)
  have outcome := offerTo_outcome number item source depot
  have fed : depot.Fed ((offerTo number item source).final depot) :=
    ⟨steady, outcome.fills natural⟩
  rcases run : offerTo number item source depot with ⟨answer, reached⟩
  rw [Act.final, run] at fed
  rw [run] at outcome
  cases outcome with
  | refused | kept | unweighed => exact fed
  | turnedDown isOpen noRoom =>
      obtain ⟨size, isSize⟩ := weighed number isBin
      have before := Bin.leavesNoRoom_of_turnsDown bounds isSize natural.whole noRoom
      exact ⟨fed, before.fills (fed.fills number)⟩
  | taken size flow =>
      refine ⟨fed, ?_⟩
      change ((depot.setBin number _).bin number).contents = _
      rw [bin_setBin_self]
      rfl

end Depot

namespace Shelf

open Depot

variable {depot : Depot} {item : Item} {source : SessionId} {group : Value} {key : Key}

/-- An item that none of some bins takes finds no room in any of them. -/
theorem offerToFirst_feeds (weighed : depot.Weighed) (natural : item.HasNaturalSize)
    (bins : List BinId) (areBins : ∀ bin ∈ bins, bin < depot.bins.next)
    (bounds : ∀ bin ∈ bins, (depot.bin bin).bounds.Whole) :
    (offerToFirst item source bins).Meets (· = depot)
      (fun taken reached => depot.Fed reached ∧
        (taken = false → ∀ bin ∈ bins, (reached.bin bin).LeavesNoRoom item))
      fun _ reached => depot.Fed reached := by
  induction bins generalizing depot with
  | nil =>
      refine Act.Meets.pure fun reached isReached => ?_
      rw [isReached]
      exact ⟨.refl depot, nofun⟩
  | cons bin rest ih =>
      refine (offerTo_feeds weighed (areBins bin (by simp)) (bounds bin (by simp))
        natural).bind fun taken => ?_
      cases taken with
      | true => exact Act.Meets.pure fun _ holds => ⟨holds.1, nofun⟩
      | false =>
          rintro between ⟨fed, noRoom⟩
          have later := @ih between (fed.weighed weighed)
            (fun other member => by
              rw [fed.next]
              exact areBins other (List.mem_cons_of_mem _ member))
            (fun other member => by
              rw [(fed.matching other).bounds]
              exact bounds other (List.mem_cons_of_mem _ member))
          refine later.weaken (fun _ => id) (fun taken reached holds => ?_)
            (fun _ _ => fed.trans) between rfl
          obtain ⟨fedOn, rest⟩ := holds
          refine ⟨fed.trans fedOn, fun turnedDown => List.forall_mem_cons.2 ⟨?_, ?_⟩⟩
          · exact Bin.LeavesNoRoom.fills noRoom (fedOn.fills bin)
          · exact rest turnedDown

/-- A bin that is opened for an item which no bin of the group has room for is needed. -/
theorem openBinFor_firstFit (natural : item.HasNaturalSize) (arranged : depot.Arranged)
    (firstFit : depot.FirstFit)
    (noRoom : ∀ bin ∈ depot.shelf.binsOf key, (depot.bin bin).LeavesNoRoom item) :
    ((openBinFor group key item source).final depot).FirstFit := by
  rw [Act.final, openBinFor_apply]
  obtain ⟨opened, isOpened⟩ : ∃ opened, opened =
    depot.withBin depot.shelf.thresholds.bounds group := ⟨_, rfl⟩
  have isNew : opened.bin depot.bins.next = {
      session := depot.flow.sessions.next, bounds := depot.shelf.thresholds.bounds, group,
      created := depot.clock } := by
    rw [isOpened, bin_withBin_next]
  have created : opened.FirstFit := isOpened ▸ firstFit.withBin arranged _ group
  have offered : (offerTo depot.bins.next item source).Meets (· = opened)
      (fun taken reached => opened.Fed reached ∧
        if taken then (reached.bin depot.bins.next).contents =
          (opened.bin depot.bins.next).contents ++ [item]
        else (reached.bin depot.bins.next).LeavesNoRoom item)
      fun _ => FirstFit := by
    refine (offerTo_feeds created.weighed ?_ ?_ natural).weaken (fun _ => id)
      (fun _ _ => id) fun _ _ => created.fed
    · rw [isOpened]
      exact lt_next_withBin depot _ group
    · rw [isNew]
      exact arranged.thresholds.bounds
  refine Act.Meets.final (offered.bind fun taken => ?_) isOpened.symm
  cases taken with
  | false => exact Act.Meets.pure fun _ holds => created.fed holds.1
  | true =>
      refine Act.Meets.bind (Act.Meets.modify fun reached holds => ?_) fun _ =>
        Act.Keeps.pure true
      obtain ⟨fed, contents⟩ := holds
      rw [if_pos rfl, isNew] at contents
      have isFirst : (reached.bin depot.bins.next).contents.head? = some item := by
        rw [contents]
        rfl
      refine (created.fed fed).file isFirst fun other member => ?_
      rw [fed.shelf, isOpened] at member
      have before := noRoom other member
      rw [← bin_withBin_of_lt _ depot.shelf.thresholds.bounds group
        (arranged.isBin key other member), ← isOpened] at before
      exact before.fills (fed.fills other)

/-- Finding a place for an item opens no bin without need. -/
theorem place_firstFit (isKey : group.key? = some key) (natural : item.HasNaturalSize) :
    (place group key item source).Keeps fun depot => depot.Arranged ∧ depot.FirstFit := by
  apply Act.Keeps.of_final
  rintro depot ⟨arranged, firstFit⟩
  have offersKeep : OffersKeep fun _ => True :=
    ⟨fun _ _ _ _ => trivial, fun _ _ _ _ => trivial, fun _ _ _ _ _ => trivial⟩
  have orderly := (place_orderly isKey offersKeep item source).final ⟨arranged, trivial⟩
  refine ⟨orderly.arranged, ?_⟩
  have offered : (offerToFirst item source (depot.shelf.binsOf key)).Meets (· = depot)
      (fun taken reached => (reached.Arranged ∧ reached.FirstFit) ∧ (taken = false →
        ∀ bin ∈ reached.shelf.binsOf key, (reached.bin bin).LeavesNoRoom item))
      fun _ => FirstFit := by
    refine (offerToFirst_feeds firstFit.weighed natural (depot.shelf.binsOf key)
      (arranged.isBin key) fun bin member =>
        arranged.registered.bounds bin (arranged.isBin key bin member)).weaken
      (fun _ => id) (fun taken reached holds => ?_) fun _ _ => firstFit.fed
    obtain ⟨fed, noRoom⟩ := holds
    rw [fed.shelf]
    refine ⟨⟨?_, firstFit.fed fed⟩, noRoom⟩
    exact arranged.rests fed.undisturbed.toShelfRests (fed.shelf ▸ arranged.thresholds)
  refine Act.Meets.final (offered.bind fun taken => ?_) rfl
  cases taken with
  | true => exact Act.Meets.pure fun _ holds => holds.1.2
  | false =>
      have look : (askShelf Shelf.isAtCapacity).Keeps fun reached =>
          (reached.Arranged ∧ reached.FirstFit) ∧ (false = false →
            ∀ bin ∈ reached.shelf.binsOf key, (reached.bin bin).LeavesNoRoom item) :=
        Act.Keeps.look _
      refine Act.Meets.bind (look.weaken (fun _ => id) (fun _ _ => id)
        fun _ _ holds => holds.1.2) fun full => ?_
      split
      · exact Act.Meets.pure fun _ holds => holds.1.2
      · exact Act.Meets.of_final fun reached holds =>
          openBinFor_firstFit natural holds.1.1 holds.1.2 (holds.2 rfl)

/-- What a step offers to the shelf has natural sizes. -/
def Step.Natural : Step → Prop
  | .offer _ items _ => ∀ item ∈ items, item.HasNaturalSize
  | _ => True

theorem offer_firstFit {items : List Item} (natural : ∀ item ∈ items, item.HasNaturalSize) :
    (offer group items source).Keeps fun depot => depot.Arranged ∧ depot.FirstFit :=
  offer_keeps fun _ isKey item member => place_firstFit isKey (natural item member)

/-- No step leaves a bin on the shelf that was opened without need. -/
theorem Step.perform_firstFit {step : Step} (natural : step.Natural) (arranged : depot.Arranged)
    (firstFit : depot.FirstFit) : (step.perform depot).FirstFit := by
  cases step with
  | offer group items session =>
      exact ((offer_firstFit natural).final ⟨arranged, firstFit⟩).2
  | removeReady relaxed =>
      obtain ⟨_, reached, run, departed, _⟩ := removeReady_spec relaxed arranged
      simp only [perform, Act.final, run]
      exact firstFit.departed departed
  | removeOldest =>
      rcases removeOldest_spec arranged with ⟨_, run⟩ | ⟨_, _, run, departed, _⟩
      · simp only [perform, Act.final, run]
        exact firstFit
      · simp only [perform, Act.final, run]
        exact firstFit.departed departed
  | purge =>
      obtain ⟨discarded, isDiscarded, run⟩ := purge_spec arranged
      simp only [perform, Act.final, run]
      refine firstFit.staying isDiscarded.next (fun bin => ?_) fun _ => List.nil_sublist _
      exact isDiscarded.fills bin
  | set setting => exact firstFit.staying rfl (fun _ => .refl _) fun _ => .refl _
  | applyPolicy policy => exact firstFit.staying rfl (fun _ => .refl _) fun _ => .refl _
  | wait seconds =>
      change (depot.wait seconds).FirstFit
      unfold Depot.wait
      dsimp only
      split
      · exact firstFit.staying rfl (fun _ => .refl _) fun _ => .refl _
      · exact firstFit
  | elsewhere call permitted keepsTime =>
      change (call.perform depot).2.FirstFit
      have effect := call.effect_perform depot
      generalize (call.perform depot).2 = reached at effect
      cases effect with
      | flow | policy | aside =>
          exact firstFit.staying rfl (fun _ => .refl _) fun _ => .refl _
      | state bin target => cases permitted

theorem Step.run_firstFit {steps : List Step} (natural : ∀ step ∈ steps, step.Natural)
    (orderly : depot.Orderly Chronological) (firstFit : depot.FirstFit) :
    (Step.run depot steps).FirstFit := by
  induction steps generalizing depot with
  | nil => exact firstFit
  | cons step rest ih =>
      have isNatural := List.forall_mem_cons.1 natural
      exact ih isNatural.2 (step.perform_orderly dating_chronological orderly)
        (perform_firstFit isNatural.1 orderly.arranged firstFit)

/-- Bins without maximums always have room. -/
theorem not_leavesNoRoom_of_unbounded {bin : Bin} (entries : bin.bounds.maxEntries = .null)
    (size : bin.bounds.maxSize = .null) (item : Item) : ¬ bin.LeavesNoRoom item := by
  rintro (⟨most, isMost, _⟩ | ⟨most, _, _, isMost, _⟩)
  · rw [entries] at isMost
    cases isMost
  · rw [size] at isMost
    cases isMost

/-- After every run of steps from an empty shelf, of two open bins of a group the
earlier one has no room for the first item of the later one, so that a group whose
bins have no maximums has one open bin at most. -/
theorem first_fit_after_run (flow : Flow) (clock : Moment) (policy : Policy)
    (steps : List Step) (natural : ∀ step ∈ steps, step.Natural) (key : Key) :
    let depot := Step.run (opening flow clock policy) steps
    ((depot.shelf.binsOf key).Pairwise fun first second =>
      ∃ item, (depot.bin second).contents.head? = some item ∧
        (depot.bin first).LeavesNoRoom item) ∧
    ((∀ bin ∈ depot.shelf.binsOf key, (depot.bin bin).bounds.maxEntries = .null ∧
        (depot.bin bin).bounds.maxSize = .null) →
      (depot.shelf.binsOf key).length ≤ 1) := by
  intro depot
  have start : (opening flow clock policy).Orderly Chronological :=
    ⟨arranged_opening flow clock policy, nofun, nofun⟩
  have empty : (opening flow clock policy).FirstFit := ⟨nofun, fun _ => List.Pairwise.nil⟩
  have needed := (Step.run_firstFit natural start empty).needed key
  refine ⟨needed, fun unbounded => ?_⟩
  rcases bins : depot.shelf.binsOf key with _ | ⟨first, _ | ⟨second, rest⟩⟩
  · exact Nat.zero_le 1
  · exact Nat.le_refl 1
  · change (depot.shelf.binsOf key).Pairwise _ at needed
    rw [bins, List.pairwise_cons] at needed
    obtain ⟨item, _, noRoom⟩ := needed.1 second (by simp)
    obtain ⟨entries, size⟩ := unbounded first (by simp [bins])
    exact absurd noRoom (not_leavesNoRoom_of_unbounded entries size item)

/-- Two items that are too large for one bin stand in two, the first of which has no
room for the second item. -/
theorem first_fit_after_large_items :
    let first : Item := { id := "a", size := .int 6 }
    let second : Item := { id := "b", size := .int 5 }
    let steps : List Step := [
      .elsewhere .openSession trivial trivial, .elsewhere (.pull 0 2) trivial trivial,
      .offer (.text "g") [first, second] 0]
    let depot := Step.run (opening { source := [first, second] } {} { maxSize := some 10 }) steps
    (∀ step ∈ steps, step.Natural) ∧ depot.shelf.binsOf (.named "g") = [0, 1] ∧
      ∃ item, (depot.bin 1).contents.head? = some item ∧ (depot.bin 0).LeavesNoRoom item := by
  intro first second steps depot
  have natural : ∀ step ∈ steps, step.Natural := by
    simp only [steps, List.forall_mem_cons]
    refine ⟨trivial, trivial, ?_, List.forall_mem_nil _⟩
    exact List.forall_mem_cons.2 ⟨⟨6, rfl⟩, List.forall_mem_singleton.2 ⟨5, rfl⟩⟩
  have bins : depot.shelf.binsOf (.named "g") = [0, 1] := by decide +kernel
  have needed := (first_fit_after_run { source := [first, second] } {} { maxSize := some 10 }
    steps natural (.named "g")).1
  change (depot.shelf.binsOf (.named "g")).Pairwise _ at needed
  rw [bins, List.pairwise_pair] at needed
  exact ⟨natural, bins, needed⟩

end Shelf

end ItemBinning
