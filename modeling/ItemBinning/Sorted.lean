/-!
# Sorting by insertion

The elements that stand in order at the front of a list are kept together, and
each of the others is inserted where repeated halving finds its place.  Elements
that are equal in the order keep their places.  Where the relation is no order,
the places depend on which elements were compared, and so that is fixed too.
-/

namespace ItemBinning

variable {α : Type}

/-- Split a list behind the last element up to which each one is related to the
one in front of it. -/
def splitChain (related : α → α → Bool) (first : α) :
    List α → List α × List α
  | [] => ([first], [])
  | next :: rest =>
      if related next first then
        let (chain, others) := splitChain related next rest
        (first :: chain, others)
      else ([first], next :: rest)

/-- The elements at the front of a list that are in order, or in reverse order
and then reversed, and the others. -/
def splitSorted (before : α → α → Bool) : List α → List α × List α
  | [] => ([], [])
  | [only] => ([only], [])
  | first :: second :: rest =>
      if before second first then
        let (chain, others) := splitChain before first (second :: rest)
        (chain.reverse, others)
      else splitChain (fun next previous => !before next previous) first
        (second :: rest)

/-- Where an element belongs between two positions of a sorted list.  The first
number bounds the halvings. -/
def placeBetween (before : α → α → Bool) (element : α) (sorted : List α) :
    Nat → Nat → Nat → Nat
  | 0, low, _ => low
  | bound + 1, low, high =>
      if low < high then
        let middle := low + (high - low) / 2
        match sorted[middle]? with
        | some other =>
            if before element other then
              placeBetween before element sorted bound low middle
            else placeBetween before element sorted bound (middle + 1) high
        | none => low
      else low

/-- Insert an element into a sorted list, after the elements equal to it. -/
def insertSorted (before : α → α → Bool) (element : α) (sorted : List α) :
    List α :=
  let place := placeBetween before element sorted sorted.length 0 sorted.length
  sorted.take place ++ element :: sorted.drop place

/-- Sort a list, later elements of equal rank after earlier ones. -/
def sortBy (before : α → α → Bool) (elements : List α) : List α :=
  let (sorted, others) := splitSorted before elements
  others.foldl (fun sorted element => insertSorted before element sorted) sorted

theorem insertSorted_perm (before : α → α → Bool) (element : α)
    (sorted : List α) :
    (insertSorted before element sorted).Perm (element :: sorted) := by
  unfold insertSorted
  refine List.perm_middle.trans ?_
  rw [List.take_append_drop]

private theorem splitChain_append (related : α → α → Bool) (first : α)
    (rest : List α) :
    (splitChain related first rest).1 ++ (splitChain related first rest).2 =
      first :: rest := by
  induction rest generalizing first with
  | nil => rfl
  | cons next rest ih =>
      unfold splitChain
      split
      · simp [ih next]
      · rfl

theorem splitSorted_perm (before : α → α → Bool) (elements : List α) :
    ((splitSorted before elements).1 ++ (splitSorted before elements).2).Perm
      elements := by
  match elements with
  | [] => exact List.Perm.refl _
  | [_] => exact List.Perm.refl _
  | first :: second :: rest =>
      simp only [splitSorted]
      split
      · have whole := splitChain_append before first (second :: rest)
        exact ((List.reverse_perm _).append_right _).trans (.of_eq whole)
      · exact .of_eq (splitChain_append _ first (second :: rest))

private theorem foldl_insertSorted_perm (before : α → α → Bool)
    (elements sorted : List α) :
    (elements.foldl (fun sorted element =>
        insertSorted before element sorted) sorted).Perm
      (sorted ++ elements) := by
  induction elements generalizing sorted with
  | nil => simp
  | cons first rest ih =>
      refine (ih (insertSorted before first sorted)).trans ?_
      refine ((insertSorted_perm before first sorted).append_right rest).trans ?_
      exact List.perm_middle.symm

theorem sortBy_perm (before : α → α → Bool) (elements : List α) :
    (sortBy before elements).Perm elements :=
  (foldl_insertSorted_perm before _ _).trans (splitSorted_perm before elements)

end ItemBinning
