import ItemBinning.Proofs.Engine.Haulage

/-!
# Where stowed items are

A stowed item is in a bin that is open, or that was queued because the item found no
place: it is among the contents of the bin and in its session, and stays there while
further items are stowed.  The session that gave the items away lost exactly these.
-/

namespace ItemBinning

namespace Session

variable (session : Session)

/-- The session without the items with some ids. -/
def releaseAll (ids : List String) : Session :=
  ids.foldl release session

theorem current_releaseAll (ids : List String) :
    (session.releaseAll ids).current.entries =
      session.current.entries.filter fun entry => decide (entry.1 ∉ ids) := by
  unfold releaseAll
  induction ids generalizing session with
  | nil => simp
  | cons id rest ih =>
      rw [List.foldl_cons, ih]
      simp only [release, Table.erase, List.filter_filter]
      apply List.filter_congr
      intro entry _
      simp [Bool.and_comm]

theorem pulled_releaseAll (ids : List String) :
    (session.releaseAll ids).pulled.entries =
      session.pulled.entries.filter fun entry => decide (entry.1 ∉ ids) := by
  unfold releaseAll
  induction ids generalizing session with
  | nil => simp
  | cons id rest ih =>
      rw [List.foldl_cons, ih]
      simp only [release, Table.erase, List.filter_filter]
      apply List.filter_congr
      intro entry _
      simp [Bool.and_comm]

theorem destination_releaseAll (ids : List String) (id : String) :
    (session.releaseAll ids).destinations.find? id =
      if id ∈ ids then none else session.destinations.find? id := by
  unfold releaseAll
  induction ids generalizing session with
  | nil => rfl
  | cons first rest ih =>
      rw [List.foldl_cons, ih]
      simp only [release, Table.find?_erase, List.mem_cons]
      by_cases later : id ∈ rest
      · simp [later]
      · simp [later]

theorem ids_releaseAll (ids : List String) :
    (session.releaseAll ids).ids = session.ids.filter fun id => decide (id ∉ ids) := by
  unfold Session.ids Table.keys
  rw [current_releaseAll, List.filter_map]
  rfl

end Session

namespace Depot

variable {property : Flow → Prop} {session : SessionId} {before after : Depot}
  {cargo : List Load} {load : Load} {bin : BinId}

/-- The item of a load is in a bin of its key, which is open or was queued because the
item found no place. -/
structure Landed (depot : Depot) (load : Load) (bin : BinId) : Prop where
  place : bin ∈ depot.shelf.bins ∨
    bin ∈ depot.ready ∧ (depot.bin bin).reason = some .unbound
  keyed : (depot.bin bin).group.key? = some load.1
  contents : load.2 ∈ (depot.bin bin).contents
  held : load.2.id ∈ (depot.binSession bin).ids

theorem Landed.stored (landed : before.Landed load bin) : before.Stored bin :=
  landed.place.imp_right And.left

/-- An item stays where it is if its bin and the ids in the session of the bin do. -/
theorem Landed.of_same (landed : before.Landed load bin)
    (shelf : after.shelf.bins = before.shelf.bins) (ready : after.ready = before.ready)
    (alike : (after.bin bin).Alike (before.bin bin))
    (held : (before.binSession bin).ids ⊆ (after.binSession bin).ids) :
    after.Landed load bin where
  place := by
    rw [shelf, ready, alike.reason]
    exact landed.place
  keyed := by
    rw [alike.matching.group]
    exact landed.keyed
  contents := by
    rw [alike.contents]
    exact landed.contents
  held := held landed.held

theorem Landed.still (landed : before.Landed load bin) (isBin : bin < before.bins.next)
    (still : before.Still after) : after.Landed load bin := by
  have alike := still.alike bin isBin
  refine landed.of_same (by rw [still.shelf]) still.ready alike ?_
  unfold binSession
  rw [alike.matching.session, still.session]
  exact List.Subset.refl _

/-- What becomes of a session that no bin owns takes nothing out of the bins. -/
theorem Landed.apart (landed : before.Landed load bin) (loose : before.Loose session)
    {flow : Flow}
    (others : ∀ other, other ≠ session → flow.session other = before.flow.session other) :
    Landed { before with flow } load bin := by
  refine landed.of_same rfl rfl (.refl _) ?_
  have notLoose : (before.bin bin).session ≠ session :=
    fun same => loose.notOwned ⟨bin, landed.stored, same⟩
  change (before.flow.session (before.bin bin).session).ids ⊆
    (flow.session (before.bin bin).session).ids
  rw [others _ notLoose]
  exact List.Subset.refl _

/-- No other bin that is open or queued has the item of a load. -/
theorem Landed.only {known ids : List String} {inUse : List SessionId}
    (landed : before.Landed load bin)
    (sound : before.Sound (Flow.Accounted known ids) inUse) (distinct : ids.Nodup)
    {other : BinId} (stored : before.Stored other)
    (held : load.2.id ∈ (before.binSession other).ids) : other = bin := by
  by_contra differs
  have apart : (before.bin other).session ≠ (before.bin bin).session := fun same =>
    differs (sound.arranged.registered.apart other (sound.isBin stored) bin
      (sound.isBin landed.stored) same)
  exact sound.flow.held_once distinct landed.held apart held

theorem Stowed.landed {key : Key} {item : Item} {number : BinId}
    (stowed : before.Stowed session key item number after) :
    after.Landed (key, item) number where
  place := by
    rcases stowed.place with joined | filed | enqueued
    · rw [joined.shelf]
      exact .inl (Shelf.mem_bins_iff.2 ⟨key, joined.among⟩)
    · rw [filed.shelf]
      exact .inl (Shelf.mem_bins_file.2 (.inr rfl))
    · rw [enqueued.ready]
      exact .inr ⟨by simp, enqueued.reason⟩
  keyed := stowed.keyed
  contents := by
    rw [stowed.contents]
    exact List.mem_append_right _ (List.mem_singleton.2 rfl)
  held := stowed.mem_taker.2 (.inr rfl)

/-- A bin keeps its place while items are stowed, and so does the reason for which it
was queued. -/
theorem Stowed.keeps_place {key : Key} {item : Item} {number : BinId}
    (atWork : before.AtWork property session)
    (stowed : before.Stowed session key item number after)
    (place : bin ∈ before.shelf.bins ∨
      bin ∈ before.ready ∧ (before.bin bin).reason = some .unbound) :
    bin ∈ after.shelf.bins ∨ bin ∈ after.ready ∧ (after.bin bin).reason = some .unbound := by
  have isBin : bin < before.bins.next :=
    atWork.sound.isBin (place.imp_right And.left)
  rcases place with onShelf | ⟨queued, unbound⟩
  · left
    rcases stowed.place with joined | filed | enqueued
    · rw [joined.shelf]
      exact onShelf
    · rw [filed.shelf]
      exact Shelf.mem_bins_file.2 (.inl onShelf)
    · rw [enqueued.shelf]
      exact onShelf
  · right
    have notNumber : bin ≠ number := by
      rintro rfl
      rcases stowed.place with joined | filed | enqueued
      · exact atWork.sound.queued.not_mem_bins atWork.sound.arranged queued
          (Shelf.mem_bins_iff.2 ⟨key, joined.among⟩)
      · exact Nat.not_lt.2 filed.fresh isBin
      · exact Nat.not_lt.2 enqueued.fresh isBin
    refine ⟨?_, (stowed.others bin isBin notNumber).reason.trans unbound⟩
    rcases stowed.place with joined | filed | enqueued
    · rw [joined.ready]
      exact queued
    · rw [filed.ready]
      exact queued
    · rw [enqueued.ready]
      exact List.mem_append_left _ queued

theorem Landed.stowed (landed : before.Landed load bin)
    (atWork : before.AtWork property session) {key : Key} {item : Item} {number : BinId}
    (stowed : before.Stowed session key item number after) : after.Landed load bin := by
  have isBin := atWork.sound.isBin landed.stored
  have matching := stowed.matching isBin
  by_cases same : bin = number
  · subst same
    refine ⟨stowed.keeps_place atWork landed.place, matching.group ▸ landed.keyed, ?_, ?_⟩
    · rw [stowed.contents]
      exact List.mem_append_left _ landed.contents
    · rw [stowed.mem_taker, matching.session]
      exact .inl landed.held
  · have alike := stowed.others bin isBin same
    refine ⟨stowed.keeps_place atWork landed.place, matching.group ▸ landed.keyed,
      alike.contents ▸ landed.contents, ?_⟩
    rw [stowed.binSession_of_ne atWork landed.stored same]
    exact landed.held

theorem Hauled.landed_before (hauled : Hauled property session cargo before after)
    (landed : before.Landed load bin) : after.Landed load bin := by
  induction hauled with
  | still atWork still => exact landed.still (atWork.sound.isBin landed.stored) still
  | stowed atWork stowed => exact landed.stowed atWork stowed
  | trans _ _ first second => exact second (first landed)

/-- Everything that was stowed is in some bin. -/
theorem Hauled.landed (hauled : Hauled property session cargo before after) :
    ∀ load ∈ cargo, ∃ bin, after.Landed load bin := by
  induction hauled with
  | still => exact nofun
  | stowed _ stowed =>
      intro load member
      rw [List.mem_singleton.1 member]
      exact ⟨_, stowed.landed⟩
  | trans _ hauledSecond first second =>
      intro load member
      rcases List.mem_append.1 member with early | late
      · obtain ⟨bin, landed⟩ := first load early
        exact ⟨bin, hauledSecond.landed_before landed⟩
      · exact second load late

theorem Hauled.source (hauled : Hauled property session cargo before after) :
    after.flow.source = before.flow.source := by
  induction hauled with
  | still _ still => exact still.source
  | stowed _ stowed => exact stowed.source
  | trans _ _ first second => exact second.trans first

theorem Hauled.sinks (hauled : Hauled property session cargo before after) :
    after.flow.sinks = before.flow.sinks := by
  induction hauled with
  | still _ still => exact still.sinks
  | stowed _ stowed => exact stowed.sinks
  | trans _ _ first second => exact second.trans first

/-- The session gave away what was stowed, and nothing else changed in it. -/
theorem Hauled.giver (hauled : Hauled property session cargo before after) :
    after.flow.session session =
      (before.flow.session session).releaseAll (cargo.map fun load => load.2.id) := by
  induction hauled with
  | still _ still => exact still.session session
  | stowed _ stowed => exact stowed.giver
  | trans _ _ first second =>
      rw [second, first, List.map_append]
      exact List.foldl_append.symm

variable {loads : List Load}

theorem Moved.giver (moved : Moved property session before loads after) :
    ∃ given, given.Perm (loads.map fun load => load.2.id) ∧
      after.flow.session session = (before.flow.session session).releaseAll given := by
  obtain ⟨cargo, hauled, perm⟩ := moved.hauled
  exact ⟨_, perm.map _, hauled.giver⟩

theorem Moved.landed (moved : Moved property session before loads after) :
    ∀ load ∈ loads, ∃ bin, after.Landed load bin := by
  obtain ⟨cargo, hauled, perm⟩ := moved.hauled
  exact fun load member => hauled.landed load (perm.symm.subset member)

end Depot

end ItemBinning
