import ItemBinning.Bin

/-!
# Packing the items of a group

The items of a group are packed by a function of the items alone: each one is offered to
the bins of the group in order, then to a new bin, and stays unbound if none of them takes
it.  Which session owns a bin, when it was created and which other groups there are does
not matter, so a group that is packed piece by piece is packed as if all of its items were
there at once.
-/

namespace ItemBinning

namespace Bin

/-- What a bin has to do with offers: its bounds, its items with their size, and how often
it turned items down in a row. -/
def plain (bin : Bin) : Bin where
  bounds := bin.bounds
  contents := bin.contents
  size := bin.size
  rejections := bin.rejections

/-- The bin after an offer, and whether it took the item. -/
def offered (bin : Bin) (item : Item) : Bin × Bool :=
  match bin.turnsDown item, bin.sizeWith item with
  | .ok false, .ok size => ({ bin.resetRejections.take item with size }, true)
  | _, _ => (bin.reject, false)

@[simp] theorem turnsDown_plain (bin : Bin) (item : Item) :
    bin.plain.turnsDown item = bin.turnsDown item :=
  rfl

@[simp] theorem sizeWith_plain (bin : Bin) (item : Item) :
    bin.plain.sizeWith item = bin.sizeWith item :=
  rfl

/-- What comes of an offer depends on nothing else in a bin. -/
theorem offered_plain (bin : Bin) (item : Item) :
    bin.plain.offered item = ((bin.offered item).1.plain, (bin.offered item).2) := by
  unfold offered
  rw [turnsDown_plain, sizeWith_plain]
  split <;> rfl

theorem offered_of_turnsDown {bin : Bin} {item : Item}
    (turnsDown : bin.turnsDown item = .ok true) : bin.offered item = (bin.reject, false) := by
  unfold offered
  rw [turnsDown]

theorem offered_of_room {bin : Bin} {item : Item} {size : Number}
    (room : bin.turnsDown item = .ok false) (weighed : bin.sizeWith item = .ok size) :
    bin.offered item = ({ bin.resetRejections.take item with size }, true) := by
  unfold offered
  rw [room, weighed]

end Bin

/-- Offer an item to bins in order until one takes it, and tell whether one did. -/
def fitFirst (item : Item) : List Bin → List Bin × Bool
  | [] => ([], false)
  | bin :: rest =>
      if (bin.offered item).2 then ((bin.offered item).1 :: rest, true)
      else ((bin.offered item).1 :: (fitFirst item rest).1, (fitFirst item rest).2)

theorem fitFirst_plain (item : Item) (bins : List Bin) :
    fitFirst item (bins.map Bin.plain) =
      ((fitFirst item bins).1.map Bin.plain, (fitFirst item bins).2) := by
  induction bins with
  | nil => rfl
  | cons bin rest ih =>
      simp only [List.map_cons, fitFirst, Bin.offered_plain, ih]
      split <;> rfl

/-- The plain bins of a group and the items of the group that are unbound. -/
structure Packing where
  bins : List Bin := []
  unbound : List Item := []

namespace Packing

/-- Put an item into the first bin of a group that takes it, or into a new bin of some
bounds, and tell whether one took it. -/
def stow (bounds : Bounds) (item : Item) (bins : List Bin) : List Bin × Bool :=
  let fitted := fitFirst item bins
  if fitted.2 then fitted
  else
    let opened := ({ bounds } : Bin).offered item
    if opened.2 then (fitted.1 ++ [opened.1], true) else fitted

theorem stow_of_found {bounds : Bounds} {item : Item} {bins : List Bin}
    (found : (fitFirst item bins).2 = true) : stow bounds item bins = fitFirst item bins := by
  unfold stow
  exact if_pos found

theorem stow_of_not_found {bounds : Bounds} {item : Item} {bins : List Bin}
    (notFound : (fitFirst item bins).2 = false) :
    stow bounds item bins =
      (if (Bin.offered { bounds } item).2 then
        (fitFirst item bins).1 ++ [(Bin.offered { bounds } item).1]
      else (fitFirst item bins).1, (Bin.offered { bounds } item).2) := by
  simp only [stow, notFound, Bool.false_eq_true, if_false]
  cases (Bin.offered { bounds } item).2 with
  | true => rfl
  | false => exact Prod.ext rfl notFound

/-- Pack one more item of the group. -/
def add (bounds : Bounds) (packing : Packing) (item : Item) : Packing where
  bins := (stow bounds item packing.bins).1
  unbound := if (stow bounds item packing.bins).2 then packing.unbound
    else packing.unbound ++ [item]

/-- Pack items of the group in order. -/
def addAll (bounds : Bounds) (packing : Packing) (items : List Item) : Packing :=
  items.foldl (add bounds) packing

@[simp] theorem addAll_nil (bounds : Bounds) (packing : Packing) :
    packing.addAll bounds [] = packing :=
  rfl

@[simp] theorem addAll_cons (bounds : Bounds) (packing : Packing) (item : Item)
    (rest : List Item) :
    packing.addAll bounds (item :: rest) = (packing.add bounds item).addAll bounds rest :=
  rfl

/-- Packing items piece by piece is packing them at once. -/
@[simp] theorem addAll_append (bounds : Bounds) (packing : Packing) (items more : List Item) :
    packing.addAll bounds (items ++ more) = (packing.addAll bounds items).addAll bounds more :=
  List.foldl_append

/-- The items that were unbound before stay so and are in nobody's way. -/
theorem addAll_unbound (bounds : Bounds) (bins : List Bin) (unbound items : List Item) :
    addAll bounds { bins, unbound } items =
      { bins := (addAll bounds { bins } items).bins
        unbound := unbound ++ (addAll bounds { bins } items).unbound } := by
  induction items generalizing bins unbound with
  | nil => simp
  | cons item rest ih =>
      simp only [addAll_cons, add]
      cases (stow bounds item bins).2 with
      | true => exact ih _ unbound
      | false =>
          rw [ih _ (if false then unbound else unbound ++ [item]),
            ih _ (if false then [] else [] ++ [item])]
          simp

end Packing

end ItemBinning
