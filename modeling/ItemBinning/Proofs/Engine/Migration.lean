import ItemBinning.Engine.Migration
import ItemBinning.Proofs.Engine.Custody

/-!
# Bins that move to the queue

Migration takes the ready bins off the shelf and queues them, or else the oldest bin
if as many are open as may be.  On an arranged shelf it never fails.  If no bin moved,
none of the open bins is ready, and either there is room on the shelf or nothing is
on it.
-/

namespace ItemBinning

open Depot

/-- Bins left the shelf and are queued. -/
def Depot.moved (between : Depot) (bins : List BinId) (counters : Counters) : Depot :=
  { between with ready := between.ready ++ bins, counters }

section Moved

variable (between : Depot) (bins : List BinId) (counters : Counters)

@[simp] theorem Depot.bin_moved (bin : BinId) :
    (between.moved bins counters).bin bin = between.bin bin :=
  rfl

@[simp] theorem Depot.flow_moved : (between.moved bins counters).flow = between.flow :=
  rfl

@[simp] theorem Depot.ready_moved :
    (between.moved bins counters).ready = between.ready ++ bins :=
  rfl

@[simp] theorem Depot.handled_moved :
    (between.moved bins counters).handled = between.handled :=
  rfl

/-- If no bin left and nothing was counted, nothing happened. -/
theorem Depot.moved_nil : between.moved [] between.counters = between := by
  unfold Depot.moved
  rw [List.append_nil]

end Moved

namespace Engine

theorem exists_isAtCapacity {shelf : Shelf} (whole : shelf.thresholds.Whole) :
    ∃ full, shelf.isAtCapacity = .ok full := by
  obtain ⟨most, isMost⟩ := whole.maxBinCount
  exact ⟨_, by rw [Shelf.isAtCapacity, isMost, Value.isAtLeast_int]⟩

/-- Evicting the oldest bin makes room if there is none. -/
theorem evictAtCapacity_spec {depot : Depot} (arranged : depot.Arranged) :
    ∃ left between counters,
      evictAtCapacity depot = (.ok left.length, between.moved left counters) ∧
      depot.Departed left between ∧ between.Arranged ∧
      (left = [] → depot.shelf.isAtCapacity = .ok false ∨ depot.shelf.bins = []) := by
  have stays : (pure 0 : Act Depot Nat) depot = (.ok 0, depot.moved [] depot.counters) := by
    rw [depot.moved_nil]
    rfl
  obtain ⟨full, isFull⟩ := exists_isAtCapacity arranged.thresholds
  have asked : askShelf Shelf.isAtCapacity depot = (.ok full, depot) :=
    congrArg (·, depot) isFull
  unfold evictAtCapacity
  rw [Act.bind_of_ok asked]
  cases full with
  | false =>
      exact ⟨[], depot, depot.counters, stays, .refl depot, arranged, fun _ => .inl isFull⟩
  | true =>
      rw [if_pos rfl]
      rcases Shelf.removeOldest_spec arranged with
        ⟨none, run⟩ | ⟨oldest, between, run, departed, arranged⟩ <;> rw [Act.bind_of_ok run]
      · exact ⟨[], depot, depot.counters, stays, .refl depot, arranged, fun _ => .inr none⟩
      · exact ⟨[oldest], between, { between.counters with
          binsEvicted := between.counters.binsEvicted + 1 }, rfl, departed, arranged, nofun⟩

section Released

variable {depot between : Depot} {bin : BinId} {rest : List BinId}

/-- If bins are ready, they are queued. -/
theorem migrateBins_of_ready
    (run : Shelf.removeReady true depot = (.ok (bin :: rest), between)) :
    migrateBins depot = (.ok (bin :: rest).length, between.moved (bin :: rest)
      { between.counters with
        binsAged := between.counters.binsAged + agedAmong between (bin :: rest)
        binsMigrated := between.counters.binsMigrated + (bin :: rest).length }) := by
  unfold migrateBins
  rw [Act.bind_of_ok run]
  rfl

/-- If no bin is ready, the oldest one may be evicted. -/
theorem migrateBins_of_none (run : Shelf.removeReady true depot = (.ok [], between)) :
    migrateBins depot = (do
      let added ← evictAtCapacity
      count fun counters => { counters with binsMigrated := counters.binsMigrated + added }
      pure added : Act Depot Nat) between := by
  have rests : between.moved [] { between.counters with
      binsAged := between.counters.binsAged + agedAmong between [] } = between :=
    between.moved_nil
  unfold migrateBins
  rw [Act.bind_of_ok run]
  exact congrArg (do
    let added ← evictAtCapacity
    count fun counters => { counters with binsMigrated := counters.binsMigrated + added }
    pure added : Act Depot Nat) rests

end Released

/-- What migration does to an arranged shelf. -/
theorem migrateBins_spec {depot : Depot} (arranged : depot.Arranged) :
    ∃ left between counters,
      migrateBins depot = (.ok left.length, between.moved left counters) ∧
      depot.Departed left between ∧ between.Arranged ∧
      (left = [] → (∀ bin ∈ depot.shelf.bins, depot.Waits true bin) ∧
        (depot.shelf.isAtCapacity = .ok false ∨ depot.shelf.bins = [])) := by
  obtain ⟨ready, between, run, departed, arrangedBetween, wait⟩ :=
    Shelf.removeReady_spec true arranged
  cases ready with
  | cons bin rest =>
      exact ⟨bin :: rest, between, _, migrateBins_of_ready run, departed, arrangedBetween, nofun⟩
  | nil =>
      obtain ⟨left, last, counters, evicted, departedLast, arrangedLast, room⟩ :=
        evictAtCapacity_spec arrangedBetween
      refine ⟨left, last, { counters with binsMigrated := counters.binsMigrated + left.length },
        ?_, departed.trans departedLast, arrangedLast, fun none => ?_⟩
      · rw [migrateBins_of_none run]
        exact Act.bind_of_ok evicted _
      · have perm : between.shelf.bins.Perm depot.shelf.bins := departed.whole
        refine ⟨fun bin member => wait bin (perm.mem_iff.2 member), (room none).imp ?_ ?_⟩
        · intro below
          rwa [Shelf.isAtCapacity, arrangedBetween.binCount, departed.thresholds,
            perm.length_eq, ← arranged.binCount] at below
        · intro empty
          rw [empty] at perm
          exact perm.symm.eq_nil

section Custody

variable {property : Flow → Prop} {inUse : List SessionId} {before after : Depot}
  {left : List BinId}

theorem Sound.departed (sound : before.Sound property inUse)
    (departed : before.Departed left after) (arranged : after.Arranged) :
    after.Sound property (left.map (fun bin => (after.bin bin).session) ++ inUse) := by
  have stays : ∀ bin ∈ before.ready, after.bin bin = before.bin bin := fun bin queued =>
    departed.others fun isLeft => sound.queued.not_mem_bins sound.arranged queued
      (departed.mem_bins_iff.2 (.inl isLeft))
  refine ⟨departed.flow ▸ sound.flow, departed.flow ▸ sound.whole, arranged,
    ⟨?_, ?_, ?_⟩, ?_, ?_⟩
  · rw [departed.queue, departed.next]
    exact sound.queued.isBin
  · rw [departed.queue]
    intro bin queued
    rw [stays bin queued]
    exact sound.queued.ready bin queued
  · rw [departed.queue]
    exact sound.queued.distinct
  · intro bin
    by_cases isLeft : bin ∈ left
    · obtain ⟨_, _, isReady⟩ := departed.ready isLeft
      rw [isReady]
      exact sound.weighed bin
    · rw [departed.others isLeft]
      exact sound.weighed bin
  · intro session id held
    rw [departed.flow] at held
    rcases sound.attended session id held with used | ⟨bin, stored, same⟩ | moved
    · exact .inl (List.mem_append_right _ used)
    · have same : (after.bin bin).session = session :=
        (departed.matching bin).session.trans same
      rcases stored with onShelf | queued
      · rcases departed.mem_bins_iff.1 onShelf with isLeft | stays
        · exact .inl (List.mem_append_left _ (List.mem_map.2 ⟨bin, isLeft, same⟩))
        · exact .inr (.inl ⟨bin, .inl stays, same⟩)
      · exact .inr (.inl ⟨bin, .inr (departed.queue ▸ queued), same⟩)
    · exact .inr (.inr (departed.moves ▸ moved))

theorem migrateBins_sound : migrateBins.Keeps (Sound property inUse) := by
  apply Act.Keeps.of_final
  intro depot sound
  obtain ⟨left, between, counters, run, departed, arranged, _⟩ :=
    migrateBins_spec sound.arranged
  rw [run]
  have isReady : ∀ bin ∈ left, (between.bin bin).state = .ready := by
    intro bin isLeft
    obtain ⟨_, _, isReady⟩ := departed.ready isLeft
    rw [isReady]
  have fresh : ∀ bin ∈ left, bin ∉ between.ready := by
    intro bin isLeft queued
    rw [departed.queue] at queued
    exact sound.queued.not_mem_bins sound.arranged queued
      (departed.mem_bins_iff.2 (.inl isLeft))
  have areBins : ∀ bin ∈ left, bin < between.bins.next := by
    intro bin isLeft
    rw [departed.next]
    exact sound.arranged.isBin_of_mem_bins (departed.mem_bins_iff.2 (.inl isLeft))
  have queued := (Sound.departed sound departed arranged).enqueue areBins isReady fresh
    (departed.nodup_left sound.arranged)
  have released := queued.releaseAll fun session used => by
    obtain ⟨bin, isLeft, same⟩ := List.mem_map.1 used
    exact .inr ⟨bin, .inr (List.mem_append_right _ isLeft), same⟩
  exact released.of_same rfl rfl rfl rfl rfl

end Custody

end Engine

end ItemBinning
