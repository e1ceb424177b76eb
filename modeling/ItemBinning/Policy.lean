import ItemBinning.Value

/-!
# Policies

A policy bounds the bins opened under it and says how many bins may be open and
how old one may grow.  The bounds may contradict each other; a policy with
inconsistencies is kept but no item is binned under it.
-/

namespace ItemBinning

/-- The thresholds of a validated configuration; no maximum means no limit. -/
structure Policy where
  minSize : Int := 0
  maxSize : Option Int := none
  minEntries : Int := 1
  maxEntries : Option Int := some 1000
  maxBinCount : Int := 5
  maxBinAge : Option Float := none
  deriving Inhabited

/-- The bounds a bin is created with.  They are used as they were given; null
in place of a maximum means no limit. -/
structure Bounds where
  minSize : Value := .int 0
  maxSize : Value := .null
  minEntries : Value := .int 1
  maxEntries : Value := .null
  deriving Inhabited

/-- Bounds that every item fits in and one item satisfies. -/
def Bounds.relaxed : Bounds :=
  { minSize := .int 0, maxSize := .null, minEntries := .int 0, maxEntries := .null }

/-- The thresholds in force: the bounds of the bins that are opened, how many
may be open, and how old one may grow.  A single threshold can be replaced by
any value, which is not checked before it is used. -/
structure Thresholds where
  bounds : Bounds := { maxEntries := .int 1000 }
  maxBinCount : Value := .int 5
  maxBinAge : Value := .null
  deriving Inhabited

/-- Thresholds that contradict each other or admit nothing. -/
inductive Inconsistency
  | sizes (greatest least : Value)
  | entries (greatest least : Value)
  | noEntries (greatest : Value)
  | noBins (greatest : Value)

/-- What contradicts what. -/
def Inconsistency.message : Inconsistency → String
  | .sizes greatest least =>
      "max_size " ++ greatest.display ++ " < min_size " ++ least.display
  | .entries greatest least =>
      "max_entries " ++ greatest.display ++ " < min_entries " ++ least.display
  | .noEntries greatest =>
      "max_entries " ++ greatest.display ++ " is not positive"
  | .noBins greatest =>
      "max_bin_count " ++ greatest.display ++ " is not positive"

/-- Whether the message of an inconsistency can be written. -/
def Inconsistency.isWritable [Host] : Inconsistency → Bool
  | .sizes greatest least | .entries greatest least =>
      greatest.isWritable && least.isWritable
  | .noEntries greatest | .noBins greatest => greatest.isWritable

def Value.ofOption {α : Type} (make : α → Value) : Option α → Value
  | some given => make given
  | none => .null

namespace Policy

def thresholds (policy : Policy) : Thresholds where
  bounds := {
    minSize := .int policy.minSize
    maxSize := .ofOption .int policy.maxSize
    minEntries := .int policy.minEntries
    maxEntries := .ofOption .int policy.maxEntries }
  maxBinCount := .int policy.maxBinCount
  maxBinAge := .ofOption .float policy.maxBinAge

def inconsistencies (policy : Policy) : List Inconsistency :=
  (match policy.maxSize with
    | some greatest =>
        if greatest < policy.minSize then
          [.sizes (.int greatest) (.int policy.minSize)]
        else []
    | none => []) ++
  (match policy.maxEntries with
    | some greatest =>
        (if greatest < policy.minEntries then
          [.entries (.int greatest) (.int policy.minEntries)] else []) ++
        (if greatest ≤ 0 then [.noEntries (.int greatest)] else [])
    | none => []) ++
  (if policy.maxBinCount ≤ 0 then [.noBins (.int policy.maxBinCount)] else [])

end Policy

end ItemBinning
