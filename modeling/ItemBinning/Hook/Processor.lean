import ItemBinning.Hook.Script

/-!
# Ready-made processors

The bundle processor tags every item of a bin with the number, the count, the
size and the group of the bundle it belongs to.  Other processors answer fixed
outcomes, complete the session of the bin themselves, or choose among
processors by group or in turn.
-/

namespace ItemBinning

open Decimal (integerText)

/-- How a processor ends. -/
inductive Ending
  /-- It claims to have completed the session. -/
  | claim
  /-- It answers attributes. -/
  | outcome (attributes : Attributes)
  | recoverable
  | refuse
  /-- It answers nothing of use. -/
  | nothing

/-- The last step of a processor. -/
def Ending.script : Ending → Script (Option Outcome)
  | .claim => .done (some { committed := true })
  | .outcome attributes => .done (some { attributes })
  | .recoverable => .fail .recoverable
  | .refuse => .fail .hookFailure
  | .nothing => .done none

inductive Processor
  /-- Tag the items as a bundle; the label begins each attribute name. -/
  | bundle (label : String)
  | finish (ending : Ending)
  /-- Route all items, if a relationship is given, and deliver them. -/
  | commit (relationship : Option String) (ending : Ending)
  | rollBack (ending : Ending)
  | annotate (attributes : Attributes) (ending : Ending)
  /-- Hand the first item over to a session. -/
  | handFirst (target : SessionId) (ending : Ending)
  /-- Move the bin to a next state; without one, fail. -/
  | mark (target : Option BinState)
  /-- Create items and put them on the source, one after the other. -/
  | put (items : List Fields)
  /-- Wait for leave to go on, then answer no attributes. -/
  | wait
  /-- Choose by the group of the bin. -/
  | byGroup (choices : List (String × Processor)) (otherwise : Processor)
  /-- The first bin goes to the first processor, the next one to the next; the
  last processor also takes all further bins. -/
  | inTurn (name : String) (turns : List Processor)

namespace Processor

instance : Inhabited Processor := ⟨.bundle "bundle"⟩

def bundleId (number : Nat) : String :=
  "b" ++ integerText (number + 1)

/-- The attributes of a bundle; its group is an empty text if it is nothing. -/
def bundleAttributes (label : String) (number : Nat) (bin : Bin) : Attributes :=
  Table.ofList
    [(label ++ ".id", .text (bundleId number)),
     (label ++ ".count", .text (integerText bin.entryCount)),
     (label ++ ".size", .text bin.size.text),
     (label ++ ".group", if bin.group.isTruthy then bin.group else .text "")]

/-- An outcome with attributes, which have to be texts. -/
def checkedOutcome (attributes : Attributes) : Script (Option Outcome) :=
  if attributes.values.all fun value => (TypedField.text? value).isSome then
    .done (some { attributes })
  else .fail (.badFields ["attributes"])

variable [Host]

/-- Tag the items of a bin as a bundle. -/
def bundleScript (label : String) (bin : BinId) :
    Script (Option Outcome) := do
  let held ← Script.see (·.bin bin)
  let number ← Script.perform .numberBundle
  if held.size.isWritable then
    checkedOutcome (bundleAttributes label number held)
  else .fail .unwritableInteger

def annotateEach (session : SessionId) (attributes : Attributes) :
    List Item → Script Unit
  | [] => .done ()
  | item :: rest => do
      let _ ← Script.perform (.annotate session item attributes)
      annotateEach session attributes rest

/-- Create items and put each on the source before the next one is created. -/
def putEach : List Fields → Script Unit
  | [] => .done ()
  | fields :: rest => do
      let item ← Script.perform (.createItem fields)
      let () ← Script.perform (.put [item])
      putEach rest

def routeAll (bin : BinId) (relationship : String) : Script Unit := do
  let held ← Script.see (·.bin bin)
  Script.perform (.route held.session held.contents relationship)

mutual

def script (processor : Processor) (bin : BinId) : Script (Option Outcome) :=
  match processor with
  | .bundle label => bundleScript label bin
  | .finish ending => ending.script
  | .commit relationship ending => do
      match relationship with
      | some name => routeAll bin name
      | none => pure ()
      let held ← Script.see (·.bin bin)
      let () ← Script.perform (.commit held.session)
      ending.script
  | .rollBack ending => do
      let held ← Script.see (·.bin bin)
      let () ← Script.perform (.rollBack held.session)
      ending.script
  | .annotate attributes ending => do
      let held ← Script.see (·.bin bin)
      annotateEach held.session attributes held.contents
      ending.script
  | .handFirst target ending => do
      let held ← Script.see (·.bin bin)
      match held.contents with
      | [] => .fail .hookFailure
      | item :: _ => do
          let () ← Script.perform (.migrate held.session target [item])
          ending.script
  | .mark target =>
      match target with
      | some state => do
          let () ← Script.perform (.mark bin state)
          return some {}
      | none => .fail .hookFailure
  | .put items => do
      putEach items
      return some {}
  | .wait => .pause (.done (some {}))
  | .byGroup choices otherwise => do
      let held ← Script.see (·.bin bin)
      match held.group.key? with
      | some key => scriptFor key choices (otherwise.script bin) bin
      | none => .fail .wrongType
  | .inTurn name turns => do
      let turn ← Script.perform (.tally name)
      scriptAt turn turns bin

def scriptFor (group : Key) (choices : List (String × Processor))
    (otherwise : Script (Option Outcome)) (bin : BinId) :
    Script (Option Outcome) :=
  match choices with
  | [] => otherwise
  | (name, processor) :: rest =>
      if group = .named name then processor.script bin
      else scriptFor group rest otherwise bin

def scriptAt (turn : Nat) (turns : List Processor) (bin : BinId) :
    Script (Option Outcome) :=
  match turn, turns with
  | _, [] => .fail .hookFailure
  | _, [last] => last.script bin
  | 0, first :: _ :: _ => first.script bin
  | turn + 1, _ :: next :: rest => scriptAt turn (next :: rest) bin

end

end Processor

end ItemBinning
