import Mathlib.Algebra.Ring.Int.Defs
import ItemBinning.Proofs.Bin.Measure

/-!
# Room in a bin

A bin with whole bounds always knows whether it has room for an item of whole size.
If it has, it is within its bounds when it took the item, and its size grows by the
size of the item, so that it stays the sum of the sizes of its contents.
-/

namespace ItemBinning.Bin

variable {bin taken : Bin} {item : Item}

/-- The bin holds no more items and is no larger than its maximums allow. -/
structure WithinBounds (bin : Bin) : Prop where
  entries : ∀ most : Int, bin.bounds.maxEntries = .int most → (bin.entryCount : Int) ≤ most
  size : ∀ most : Int, bin.bounds.maxSize = .int most →
    ∃ size : Int, bin.size = .int size ∧ size ≤ most

/-- The size of the bin is the sum of the sizes of its contents. -/
def Weighs (bin : Bin) : Prop :=
  ∃ sizes : List Int, bin.contents.map Item.size = sizes.map Value.int ∧
    bin.size = .int sizes.sum

theorem exists_turnsDown {size : Int} (bounds : bin.bounds.Whole)
    (weighed : bin.size = .int size) (whole : item.HasWholeSize) :
    ∃ answer, bin.turnsDown item = .ok answer := by
  obtain ⟨reached, isReached⟩ := exists_reachedEntries bounds
  obtain ⟨total, isTotal⟩ := exists_sizeWith weighed whole
  have overflow : ∃ answer, bin.overflowsWith item = .ok answer := by
    apply bounds.maxSize.isLimit.exists_limits
    intro given
    rw [isTotal]
    exact Value.exists_stands (.int total) given [.gt]
  obtain ⟨overflows, isOverflow⟩ := overflow
  unfold turnsDown
  rw [isReached, isOverflow]
  cases reached <;> exact ⟨_, rfl⟩

theorem room_of_turnsDown (room : bin.turnsDown item = .ok false) :
    bin.reachedEntries = .ok false ∧ bin.overflowsWith item = .ok false := by
  unfold turnsDown at room
  rcases reached : bin.reachedEntries with fault | _ | _ <;> rw [reached] at room
  · cases room
  · exact ⟨rfl, room⟩
  · cases room

theorem turnsDown_relaxed (relaxed : bin.bounds = Bounds.relaxed) (item : Item) :
    bin.turnsDown item = .ok false := by
  unfold turnsDown reachedEntries overflowsWith
  rw [relaxed]
  rfl

/-- A bin that had room for an item is within its bounds with the item. -/
theorem withinBounds_of_room {total : Int} (room : bin.turnsDown item = .ok false)
    (weighed : bin.sizeWith item = .ok (.int total)) (bounds : taken.bounds = bin.bounds)
    (contents : taken.contents = bin.contents ++ [item]) (size : taken.size = .int total) :
    taken.WithinBounds := by
  obtain ⟨fewer, smaller⟩ := room_of_turnsDown room
  constructor
  · intro most isMost
    rw [bounds] at isMost
    unfold reachedEntries at fewer
    rw [isMost, Value.limits_int, Value.isAtLeast_int] at fewer
    have below : ¬ most ≤ bin.entryCount := of_decide_eq_false (Except.ok.inj fewer)
    unfold entryCount at below ⊢
    rw [contents, List.length_append, List.length_singleton]
    omega
  · intro most isMost
    rw [bounds] at isMost
    unfold overflowsWith at smaller
    rw [isMost, Value.limits_int, weighed] at smaller
    have within : (Value.int total).isAbove (.int most) = .ok false := smaller
    rw [Value.isAbove_int] at within
    have within : ¬ most < total := of_decide_eq_false (Except.ok.inj within)
    exact ⟨total, size, Int.not_lt.1 within⟩

theorem Weighs.of_same (weighs : bin.Weighs) (contents : taken.contents = bin.contents)
    (size : taken.size = bin.size) : taken.Weighs := by
  unfold Weighs
  rw [contents, size]
  exact weighs

theorem Weighs.take (weighs : bin.Weighs) {size : Number}
    (whole : item.HasWholeSize) (weighed : bin.sizeWith item = .ok size)
    (contents : taken.contents = bin.contents ++ [item]) (isSize : taken.size = size) :
    taken.Weighs := by
  obtain ⟨sizes, areSizes, isSum⟩ := weighs
  obtain ⟨added, isAdded⟩ := whole
  have total : size = .int (sizes.sum + added) := by
    unfold sizeWith at weighed
    rw [isAdded, isSum] at weighed
    exact (Except.ok.inj weighed).symm
  refine ⟨sizes ++ [added], ?_, ?_⟩
  · rw [contents, List.map_append, areSizes, List.map_append, List.map_singleton, isAdded]
    rfl
  · rw [isSize, total, List.sum_append, List.sum_singleton]

end ItemBinning.Bin
