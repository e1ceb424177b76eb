import ItemBinning.Bin.State
import ItemBinning.Policy
import ItemBinning.Problem
import ItemBinning.Value

/-!
# Faults

Everything that can go wrong, by cause.  A fault has a kind, by which callers
tell apart what they handle, and most faults have a message.  Where the message
would show an integer of more digits than the host allows, the host's own
message stands in its place.
-/

namespace ItemBinning

open Decimal (integerText)

/-- The number of a session, counted from zero in order of creation. -/
abbrev SessionId := Nat

/-- The written name of a session. -/
def sessionName (session : SessionId) : String :=
  "s" ++ integerText (session + 1)

/-- The stages of reading a document, each with faults of its own. -/
inductive DocumentStage
  /-- A character that no document may hold. -/
  | characters
  /-- Characters that make no token. -/
  | tokens
  /-- Tokens that make no node. -/
  | nodes
  /-- Names of nodes that stand for none or for several, or a second document. -/
  | references
  /-- Nodes that make no value. -/
  | values
  deriving Repr, DecidableEq, Inhabited

/-- A cause of failure. -/
inductive Fault
  | invalidSize (value : Value)
  | negativeSize (bytes : Int)
  | invalidDuration (value : Value)
  | negativeDuration (seconds : Number)
  /-- A duration names a unit that is not in the table. -/
  | unknownTimeUnit (value : Value)
  /-- A size names a unit that reads like one of the table and is none. -/
  | unlistedSizeUnit (unit : String)
  | overflow
  /-- The named fields hold values of a wrong form. -/
  | badFields (names : List String)
  /-- A value of another type is needed. -/
  | wrongType
  /-- The name cannot be assigned. -/
  | readOnly
  | emptyRange
  | unknownLevel (name : String)
  /-- The logging format has no field in it. -/
  | badLogFormat (format : String)
  | unknownReason (value : Value)
  | invalidWait
  /-- The text after the mark of a base is no integer in it. -/
  | invalidInteger (base : Nat) (text : String)
  | invalidDecimal (text : String)
  /-- An integer has too many digits to be written. -/
  | unwritableInteger
  /-- A text has too many digits to be read as an integer. -/
  | unreadableInteger (digits : Nat)
  | invalidCharacter
  /-- A number is wanted where the text is empty. -/
  | emptyScalar
  | unknownWord (text : String)
  | badDocument (stage : DocumentStage)
  | invalidConfiguration (problems : List Problem)
  /-- A pulled item has the id of another pulled or held one. -/
  | repeatedItem (item : String) (session : SessionId)
  | notHeld (item : String) (session : SessionId)
  | unknownRelationship (name : String)
  /-- Nothing has this name. -/
  | unknownName (name : String)
  | unrouted (items : List String)
  /-- The bin takes no more items. -/
  | closedBin (state : BinState)
  /-- The state may not follow the bin's state. -/
  | illegalTransition (source target : BinState)
  /-- The bounds in force contradict each other. -/
  | inconsistentPolicy (issues : List Inconsistency)
  /-- Nothing can be pulled in chunks of this size. -/
  | badChunkSize (size : Value)
  /-- A processor answered something that is not an outcome. -/
  | noOutcome
  /-- A processor claims to have finished a session that holds items. -/
  | unfinishedClaim (held : Nat)
  | badTaskCount (tasks : Value)
  | alreadyRunning
  /-- Threads of an earlier run are not done. -/
  | stillFinishing (threads : Value)
  /-- A processor gives up on a bin and wants its items routed to failure. -/
  | recoverable
  /-- A hook failed for a reason of its own. -/
  | hookFailure
  deriving Inhabited

/-- The kinds of faults that callers distinguish. -/
inductive FaultKind
  | configuration
  | binning
  | session
  | value
  | fields
  | overflow
  | lookup
  | index
  | type
  | readOnly
  | document (stage : DocumentStage)
  | processing
  | other
  deriving Repr, DecidableEq, Inhabited

namespace Fault

def kind : Fault → FaultKind
  | .invalidSize _ | .negativeSize _ | .invalidDuration _
  | .negativeDuration _ | .unknownTimeUnit _ | .emptyRange
  | .unknownLevel _ | .badLogFormat _ | .unknownReason _ | .invalidWait
  | .invalidInteger _ _ | .invalidDecimal _ | .unwritableInteger
  | .unreadableInteger _ | .invalidCharacter => .value
  | .unlistedSizeUnit _ | .unknownName _ | .unknownWord _ => .lookup
  | .emptyScalar => .index
  | .badDocument stage => .document stage
  | .overflow => .overflow
  | .badFields _ => .fields
  | .wrongType => .type
  | .readOnly => .readOnly
  | .invalidConfiguration _ => .configuration
  | .repeatedItem _ _ | .notHeld _ _ | .unknownRelationship _
  | .unrouted _ => .session
  | .closedBin _ | .illegalTransition _ _ | .inconsistentPolicy _
  | .badChunkSize _ | .noOutcome | .unfinishedClaim _ | .badTaskCount _
  | .alreadyRunning | .stillFinishing _ => .binning
  | .recoverable => .processing
  | .hookFailure => .other

/-- What the host says of an integer with too many digits. -/
def limitText [Host] (detail : String) : String :=
  "Exceeds the limit (" ++ integerText (Host.digitLimit.getD 0) ++
    " digits) for integer string conversion" ++ detail ++
    "; use sys.set_int_max_str_digits() to increase the limit"

/-- The message of a fault whose values can be written. -/
def text [Host] : Fault → String
  | .invalidSize value => "Invalid data size: " ++ value.quoted
  | .negativeSize bytes =>
      "Data size cannot be negative: " ++ integerText bytes
  | .invalidDuration value => "Invalid duration: " ++ value.quoted
  | .negativeDuration seconds =>
      "Duration cannot be negative: " ++ seconds.text
  | .unknownTimeUnit value =>
      "Unknown time unit in duration: " ++ value.quoted
  | .unlistedSizeUnit unit => Text.quoted unit
  | .overflow => "number too large"
  | .badFields names => "invalid fields: " ++ ", ".intercalate names
  | .wrongType => "value of a wrong type"
  | .readOnly => "name cannot be assigned"
  | .emptyRange => "empty range"
  | .unknownLevel name => "Unknown level: " ++ Text.quoted name
  | .badLogFormat format => "Invalid format " ++ Text.quoted format
  | .unknownReason value =>
      value.quoted ++ " is not a valid ReadyReason"
  | .invalidWait => "Invalid value NaN (not a number)"
  | .invalidInteger base text =>
      "invalid literal for int() with base " ++ integerText base ++ ": " ++
        Text.quoted text
  | .invalidDecimal text =>
      "could not convert string to float: " ++ Text.quoted text
  | .unwritableInteger => limitText ""
  | .unreadableInteger digits =>
      limitText (": value has " ++ integerText digits ++ " digits")
  | .invalidCharacter => "chr() arg not in range(0x110000)"
  | .emptyScalar => "a number has no digits"
  | .unknownWord text => Text.quoted text
  | .badDocument _ => "the document cannot be read"
  | .invalidConfiguration problems =>
      "Invalid binning configuration: " ++
        "; ".intercalate (problems.map Problem.text)
  | .repeatedItem item session =>
      "Duplicate item id '" ++ item ++ "' pulled into session " ++
        sessionName session
  | .notHeld item session =>
      "Item '" ++ item ++ "' is not held by session " ++ sessionName session
  | .unknownRelationship name => "Unknown relationship '" ++ name ++ "'"
  | .unknownName name => Text.quoted name
  | .unrouted items =>
      integerText items.length ++ " item(s) have no transfer relationship: " ++
        (Value.list ((items.take 5).map .text)).quoted
  | .closedBin state => "Cannot offer to a bin in state " ++ state.name
  | .illegalTransition source target =>
      "Illegal bin transition " ++ source.name ++ " -> " ++ target.name
  | .inconsistentPolicy issues =>
      "Refusing to bin items under an inconsistent policy: " ++
        "; ".intercalate (issues.map Inconsistency.message)
  | .badChunkSize size => "chunk_size must be positive, got " ++ size.display
  | .noOutcome => "Processor returned no outcome"
  | .unfinishedClaim held =>
      "Processor reported a commit but " ++ integerText held ++
        " item(s) are still held by the bin session"
  | .badTaskCount tasks =>
      "concurrent_tasks must be positive, got " ++ tasks.display
  | .alreadyRunning => "BinningScheduler is already running"
  | .stillFinishing threads =>
      threads.display ++
        " activation thread(s) from the previous run are still finishing"
  | .recoverable => "bin processing failed"
  | .hookFailure => "hook failed"

/-- Whether the values that a fault shows can be written. -/
def isWritable [Host] : Fault → Bool
  | .negativeSize bytes => Decimal.isWritable bytes
  | .negativeDuration seconds => seconds.isWritable
  | .invalidSize value | .invalidDuration value | .unknownTimeUnit value
  | .unknownReason value | .badChunkSize value | .badTaskCount value
  | .stillFinishing value => value.isWritable
  | .inconsistentPolicy issues => issues.all Inconsistency.isWritable
  | _ => true

def message [Host] (fault : Fault) : String :=
  if fault.isWritable then fault.text else limitText ""

end Fault

namespace Value

/-- Write a value as plain text. -/
def write [Host] (value : Value) : Except Fault String :=
  if value.isWritable then .ok value.display else .error .unwritableInteger

end Value

end ItemBinning
