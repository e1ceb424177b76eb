/-!
# States of a bin

A bin is open, then ready, then processed; an open or ready bin may also be
rolled back.  A processed or rolled-back bin stays as it is.
-/

namespace ItemBinning

/-- Where a bin stands in its life. -/
inductive BinState
  | opened
  | ready
  | processed
  | rolledBack
  deriving Repr, DecidableEq, Inhabited

def BinState.name : BinState → String
  | .opened => "open"
  | .ready => "ready"
  | .processed => "processed"
  | .rolledBack => "rolled_back"

def BinState.successors : BinState → List BinState
  | .opened => [.ready, .rolledBack]
  | .ready => [.processed, .rolledBack]
  | .processed => []
  | .rolledBack => []

/-- Why a bin became ready. -/
inductive ReadyReason
  | threshold
  | full
  | aged
  | evicted
  | unbound
  deriving Repr, DecidableEq, Inhabited

def ReadyReason.name : ReadyReason → String
  | .threshold => "threshold"
  | .full => "full"
  | .aged => "aged"
  | .evicted => "evicted"
  | .unbound => "unbound"

def ReadyReason.all : List ReadyReason :=
  [.threshold, .full, .aged, .evicted, .unbound]

def ReadyReason.ofName? (name : String) : Option ReadyReason :=
  ReadyReason.all.find? (·.name == name)

end ItemBinning
