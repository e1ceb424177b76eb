import Mathlib.Order.Lattice
import ItemBinning.Sorted

/-!
# Sorting by insertion puts elements in order

Where the relation between elements is the order of some keys, the elements at the front
that are kept together are in the order of their keys, and halving finds a place that
parts the elements that are not greater from those that are.  So a list that was sorted
is in the order of the keys of its elements.
-/

namespace ItemBinning

variable {α κ : Type} [LinearOrder κ]

/-- The elements stand in the order of their keys. -/
def InOrder (key : α → κ) (elements : List α) : Prop :=
  elements.Pairwise fun first second => key first ≤ key second

/-- Between the elements the relation is the order of their keys. -/
def OrdersBy (key : α → κ) (before : α → α → Bool) (elements : List α) : Prop :=
  ∀ first ∈ elements, ∀ second ∈ elements, before first second = decide (key first < key second)

variable {key : α → κ} {before : α → α → Bool} {elements more : List α}

theorem OrdersBy.mono (orders : OrdersBy key before elements) (within : more ⊆ elements) :
    OrdersBy key before more :=
  fun first isFirst second isSecond =>
    orders first (within isFirst) second (within isSecond)

/-- A place in a list behind which an element belongs. -/
structure Parts (key : α → κ) (element : α) (sorted : List α) (low high : Nat) : Prop where
  le : low ≤ high
  within : high ≤ sorted.length
  front : ∀ index < low, ∀ other, sorted[index]? = some other → key other ≤ key element
  back : ∀ index, high ≤ index → ∀ other, sorted[index]? = some other → key element < key other

/-- In a list in order an element does not stand behind a greater one. -/
theorem InOrder.le_of_le {sorted : List α} (inOrder : InOrder key sorted) {place later : Nat}
    (le : place ≤ later) {first second : α} (isFirst : sorted[place]? = some first)
    (isSecond : sorted[later]? = some second) : key first ≤ key second := by
  obtain ⟨_, rfl⟩ := List.getElem?_eq_some_iff.1 isFirst
  obtain ⟨bound, rfl⟩ := List.getElem?_eq_some_iff.1 isSecond
  rcases Nat.lt_or_eq_of_le le with lt | rfl
  · exact List.pairwise_iff_getElem.1 inOrder place later _ bound lt
  · exact le_refl _

theorem parts_placeBetween {element : α} {sorted : List α}
    (orders : OrdersBy key before (element :: sorted)) (inOrder : InOrder key sorted)
    (bound : Nat) {low high : Nat} (enough : high ≤ low + bound)
    (parts : Parts key element sorted low high) :
    Parts key element sorted (placeBetween before element sorted bound low high)
      (placeBetween before element sorted bound low high) := by
  induction bound generalizing low high with
  | zero =>
      have same : high = low := Nat.le_antisymm enough parts.le
      exact same ▸ parts
  | succ bound ih =>
      unfold placeBetween
      by_cases lt : low < high
      · have middle : low + (high - low) / 2 < sorted.length := by
          have := parts.within
          omega
        obtain ⟨other, isOther⟩ : ∃ other, sorted[low + (high - low) / 2]? = some other :=
          ⟨_, List.getElem?_eq_getElem middle⟩
        have ranked := orders element (by simp) other
          (List.mem_cons_of_mem _ (List.mem_of_getElem? isOther))
        simp only [if_pos lt, isOther, ranked, decide_eq_true_eq]
        split
        · rename_i below
          refine ih (by omega)
            ⟨by omega, Nat.le_of_lt middle, parts.front, fun index beyond later isLater => ?_⟩
          exact lt_of_lt_of_le below (inOrder.le_of_le beyond isOther isLater)
        · rename_i notBelow
          refine ih (by omega)
            ⟨by omega, parts.within, fun index upTo earlier isEarlier => ?_, parts.back⟩
          exact le_trans (inOrder.le_of_le (Nat.le_of_lt_succ upTo) isEarlier isOther)
            (not_lt.1 notBelow)
      · have same : high = low := Nat.le_antisymm (Nat.not_lt.1 lt) parts.le
        rw [if_neg lt]
        exact same ▸ parts

theorem inOrder_insertSorted {element : α} {sorted : List α}
    (orders : OrdersBy key before (element :: sorted)) (inOrder : InOrder key sorted) :
    InOrder key (insertSorted before element sorted) := by
  have parts := parts_placeBetween orders inOrder sorted.length (Nat.le_of_eq (Nat.zero_add _).symm)
    ⟨Nat.zero_le _, Nat.le_refl _, nofun, fun index beyond other isOther => by
      rw [List.getElem?_eq_none beyond] at isOther
      cases isOther⟩
  unfold insertSorted
  generalize placeBetween before element sorted sorted.length 0 sorted.length = place at parts
  have front : ∀ other ∈ sorted.take place, key other ≤ key element := by
    intro other member
    obtain ⟨index, below, isOther⟩ := List.mem_take_iff_getElem.1 member
    exact parts.front index (by omega) other (List.getElem?_eq_some_iff.2 ⟨_, isOther⟩)
  have back : ∀ other ∈ sorted.drop place, key element < key other := by
    intro other member
    obtain ⟨index, below, isOther⟩ := List.mem_drop_iff_getElem.1 member
    exact parts.back _ (Nat.le_add_right _ _) other (List.getElem?_eq_some_iff.2 ⟨_, isOther⟩)
  refine List.pairwise_append.2 ⟨inOrder.sublist (List.take_sublist ..), ?_, ?_⟩
  · exact List.pairwise_cons.2 ⟨fun other member => le_of_lt (back other member),
      inOrder.sublist (List.drop_sublist ..)⟩
  · intro other member
    refine List.forall_mem_cons.2 ⟨front other member, fun greater isGreater => ?_⟩
    exact le_trans (front other member) (le_of_lt (back greater isGreater))

/-- The elements that are split off follow one another. -/
theorem pairwise_splitChain {related : α → α → Bool} {follows : α → α → Prop}
    (trans : ∀ first second third, follows first second → follows second third →
      follows first third) (first : α) (rest : List α)
    (links : ∀ previous ∈ first :: rest, ∀ next ∈ first :: rest,
      related next previous = true → follows previous next) :
    (splitChain related first rest).1.Pairwise follows ∧
      (splitChain related first rest).1.head? = some first := by
  induction rest generalizing first with
  | nil => exact ⟨List.pairwise_singleton _ _, rfl⟩
  | cons next rest ih =>
      unfold splitChain
      split
      · rename_i isNext
        obtain ⟨chain, head⟩ := ih next fun previous isPrevious later isLater =>
          links previous (List.mem_cons_of_mem _ isPrevious) later
            (List.mem_cons_of_mem _ isLater)
        have follow : follows first next := links first (by simp) next (by simp) isNext
        obtain ⟨tail, isTail⟩ := List.head?_eq_some_iff.1 head
        refine ⟨List.pairwise_cons.2 ⟨fun later isLater => ?_, chain⟩, rfl⟩
        rw [isTail] at chain isLater
        rcases List.mem_cons.1 isLater with rfl | isLater
        · exact follow
        · exact trans first next later follow ((List.pairwise_cons.1 chain).1 later isLater)
      · exact ⟨List.pairwise_singleton _ _, rfl⟩

/-- The elements that are kept together at the front are in order. -/
theorem inOrder_splitSorted (orders : OrdersBy key before elements) :
    InOrder key (splitSorted before elements).1 := by
  match elements with
  | [] => exact List.Pairwise.nil
  | [_] => exact List.pairwise_singleton _ _
  | first :: second :: rest =>
      simp only [splitSorted]
      split
      · have falling : (splitChain before first (second :: rest)).1.Pairwise
            fun previous next => key next ≤ key previous := by
          refine (pairwise_splitChain ?_ _ _ ?_).1
          · exact fun _ _ _ one other => le_trans other one
          · intro previous isPrevious next isNext isBefore
            rw [orders next isNext previous isPrevious] at isBefore
            exact le_of_lt (of_decide_eq_true isBefore)
        exact List.pairwise_reverse.2 falling
      · have rising : (splitChain (fun next previous => !before next previous) first
            (second :: rest)).1.Pairwise fun previous next => key previous ≤ key next := by
          refine (pairwise_splitChain ?_ _ _ ?_).1
          · exact fun _ _ _ one other => le_trans one other
          · intro previous isPrevious next isNext notBefore
            rw [orders next isNext previous isPrevious] at notBefore
            exact not_lt.1 (by simpa using notBefore)
        exact rising

theorem inOrder_foldl_insertSorted {sorted : List α}
    (orders : OrdersBy key before (sorted ++ elements)) (inOrder : InOrder key sorted) :
    InOrder key (elements.foldl (fun sorted element => insertSorted before element sorted)
      sorted) := by
  induction elements generalizing sorted with
  | nil => exact inOrder
  | cons element rest ih =>
      have whole : (insertSorted before element sorted ++ rest).Perm
          (sorted ++ element :: rest) :=
        ((insertSorted_perm before element sorted).append_right rest).trans
          List.perm_middle.symm
      refine ih (orders.mono whole.subset) (inOrder_insertSorted (orders.mono ?_) inOrder)
      exact List.cons_subset.2 ⟨by simp, List.subset_append_left _ _⟩

/-- A list that was sorted is in order. -/
theorem inOrder_sortBy (orders : OrdersBy key before elements) :
    InOrder key (sortBy before elements) := by
  have whole : ((splitSorted before elements).1 ++ (splitSorted before elements).2).Perm
      elements := splitSorted_perm before elements
  exact inOrder_foldl_insertSorted (orders.mono whole.subset) (inOrder_splitSorted orders)

end ItemBinning
