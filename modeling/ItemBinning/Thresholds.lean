import ItemBinning.Fault

/-!
# Comparing with thresholds

Thresholds are compared as they were given: a comparison fails where the values
cannot be compared, and does not hold where they are in no order.  For the
integers of a policy no comparison fails.
-/

namespace ItemBinning

namespace Value

/-- Whether two values stand to each other in one of some orders. -/
def stands (first other : Value) (orders : List Ordering) : Except Fault Bool :=
  match first.compare other with
  | .ordered order => .ok (orders.contains order)
  | .unordered => .ok false
  | .undefined => .error .wrongType

def isBelow (first other : Value) : Except Fault Bool :=
  first.stands other [.lt]

def isAbove (first other : Value) : Except Fault Bool :=
  first.stands other [.gt]

def isAtMost (first other : Value) : Except Fault Bool :=
  first.stands other [.lt, .eq]

def isAtLeast (first other : Value) : Except Fault Bool :=
  first.stands other [.gt, .eq]

/-- Whether a limit is given and passes a test. -/
def limits (limit : Value) (test : Value → Except Fault Bool) :
    Except Fault Bool :=
  match limit with
  | .null => .ok false
  | given => test given

@[simp] theorem isBelow_int (first other : Int) :
    (int first).isBelow (int other) = .ok (decide (first < other)) := by
  unfold isBelow stands
  rw [compare_int, Int.compare_eq_ite_le]
  grind

@[simp] theorem isAbove_int (first other : Int) :
    (int first).isAbove (int other) = .ok (decide (other < first)) := by
  unfold isAbove stands
  rw [compare_int, Int.compare_eq_ite_le]
  grind

@[simp] theorem isAtMost_int (first other : Int) :
    (int first).isAtMost (int other) = .ok (decide (first ≤ other)) := by
  unfold isAtMost stands
  rw [compare_int, Int.compare_eq_ite_le]
  grind

@[simp] theorem isAtLeast_int (first other : Int) :
    (int first).isAtLeast (int other) = .ok (decide (other ≤ first)) := by
  unfold isAtLeast stands
  rw [compare_int, Int.compare_eq_ite_le]
  grind

@[simp] theorem limits_int (limit : Int) (test : Value → Except Fault Bool) :
    (int limit).limits test = test (int limit) :=
  rfl

@[simp] theorem limits_null (test : Value → Except Fault Bool) :
    null.limits test = .ok false :=
  rfl

end Value

namespace Thresholds

/-- An issue, if a test finds it. -/
def issueIf (found : Except Fault Bool) (issue : Inconsistency) :
    Except Fault (List Inconsistency) :=
  found.map fun holds => if holds then [issue] else []

def inconsistencies (thresholds : Thresholds) :
    Except Fault (List Inconsistency) := do
  let bounds := thresholds.bounds
  let sizes ← issueIf (bounds.maxSize.limits (·.isBelow bounds.minSize))
    (.sizes bounds.maxSize bounds.minSize)
  let entries ← issueIf (bounds.maxEntries.limits (·.isBelow bounds.minEntries))
    (.entries bounds.maxEntries bounds.minEntries)
  let noEntries ← issueIf (bounds.maxEntries.limits (·.isAtMost (.int 0)))
    (.noEntries bounds.maxEntries)
  let noBins ← issueIf (thresholds.maxBinCount.isAtMost (.int 0))
    (.noBins thresholds.maxBinCount)
  return sizes ++ entries ++ noEntries ++ noBins

end Thresholds

/-- The thresholds of a policy are as inconsistent as the policy. -/
theorem Policy.inconsistencies_thresholds (policy : Policy) :
    policy.thresholds.inconsistencies = .ok policy.inconsistencies := by
  rcases sizes : policy.maxSize with _ | greatestSize <;>
    rcases entries : policy.maxEntries with _ | greatestEntries <;>
    simp [Thresholds.inconsistencies, Policy.inconsistencies, Policy.thresholds,
      Thresholds.issueIf, Value.ofOption, sizes, entries, bind, Except.bind,
      pure, Except.pure, Except.map]

end ItemBinning
