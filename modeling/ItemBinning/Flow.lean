import ItemBinning.Act
import ItemBinning.Session
import ItemBinning.Thresholds
import ItemBinning.Slots

/-!
# The flow of items

Items wait in the source, are pulled into sessions, may be handed from one
session to another, and end in the sinks.  A session either delivers all its
items at once, each to the sink of the relationship it was routed to, or puts
them back at the front of the source as they were pulled.
-/

namespace ItemBinning

/-- The relationship of items that were processed. -/
def successRelationship : String := "success"

/-- The relationship of items that could not be processed. -/
def failureRelationship : String := "failure"

/-- The source, the sinks under their relationships, and all sessions. -/
structure Flow where
  source : List Item := []
  sinks : Table String (List Item) := .empty
  sessions : Slots Session := {}

namespace Flow

instance : Inhabited Flow := ⟨{}⟩

/-- Empty sinks for the given relationships, success and failure if none are
given. -/
def sinksFor (relationships : List String) : Table String (List Item) :=
  let names :=
    if relationships.isEmpty then [successRelationship, failureRelationship]
    else relationships
  Table.ofList (names.map fun name => (name, []))

def session (flow : Flow) (number : SessionId) : Session :=
  flow.sessions.get number

def setSession (flow : Flow) (number : SessionId) (session : Session) : Flow :=
  { flow with sessions := flow.sessions.set number session }

def put (items : List Item) : Act Flow Unit :=
  Act.modify fun flow => { flow with source := flow.source ++ items }

/-- Put items at the front of the source, in their order. -/
def requeue (items : List Item) : Act Flow Unit :=
  Act.modify fun flow => { flow with source := items ++ flow.source }

/-- Take up to a number of items from the front of the source. -/
def poll (count : Int) : Act Flow (List Item) := fun flow =>
  (.ok (flow.source.take count.toNat),
    { flow with source := flow.source.drop count.toNat })

/-- How many items to take when a number of them wait: the count if it is a
whole number, or all that wait if it is greater than their number. -/
def countOf (count : Value) (waiting : Nat) : Except Fault Int := do
  match count.number? with
  | some (.int wanted) => return wanted
  | _ =>
      if ← (Value.int waiting).isBelow count then return waiting
      else throw .wrongType

def openSession : Act Flow SessionId := fun flow =>
  (.ok flow.sessions.next, { flow with sessions := flow.sessions.push {} })

/-- The first id that stands twice, in a list of items or among those seen. -/
def firstRepeated (seen : List String) : List Item → Option String
  | [] => none
  | item :: rest =>
      if seen.contains item.id then some item.id
      else firstRepeated (item.id :: seen) rest

/-- Pull up to a number of items from the source into a session.  When an id
stands twice among them and the items held, they all go back. -/
def pull (number : SessionId) (count : Int) : Act Flow (List Item) := do
  let pulled ← poll count
  let holder ← Act.read (·.session number)
  match firstRepeated holder.ids pulled with
  | some id => do
      requeue pulled
      Act.fail (.repeatedItem id number)
  | none => do
      Act.modify (·.setSession number (holder.receivePulled pulled))
      pure pulled

/-- Take items from the front of the source by a count of any kind. -/
def pollValue (count : Value) : Act Flow (List Item) := do
  let waiting ← Act.read (·.source.length)
  poll (← Act.ofExcept (countOf count waiting))

/-- Pull items into a session by a count of any kind. -/
def pullValue (number : SessionId) (count : Value) : Act Flow (List Item) := do
  let waiting ← Act.read (·.source.length)
  pull number (← Act.ofExcept (countOf count waiting))

/-- Hand one item over to another session. -/
def handOver (source target : SessionId) (item : Item) : Act Flow Unit := do
  let giver ← Act.read (·.session source)
  match giver.current.find? item.id with
  | none => Act.fail (.notHeld item.id source)
  | some current => do
      let pulled := (giver.pulled.find? item.id).getD current
      let destination := giver.destinations.find? item.id
      Act.modify (·.setSession source (giver.release item.id))
      Act.modify fun flow => flow.setSession target
        ((flow.session target).receive item.id current pulled destination)

/-- Hand items over to another session, one after the other. -/
def migrate (source target : SessionId) (items : List Item) : Act Flow Unit :=
  if source = target then pure ()
  else Act.forEach items (handOver source target)

def routeOne (number : SessionId) (relationship : String) (item : Item) :
    Act Flow Unit := do
  let holder ← Act.read (·.session number)
  if holder.holds item.id then
    Act.modify (·.setSession number { holder with
      destinations := holder.destinations.put item.id relationship })
  else Act.fail (.notHeld item.id number)

/-- Route held items to a relationship, one after the other. -/
def route (number : SessionId) (items : List Item) (relationship : String) :
    Act Flow Unit := do
  let known ← Act.read (·.sinks.contains relationship)
  if known then Act.forEach items (routeOne number relationship)
  else Act.fail (.unknownRelationship relationship)

/-- Route held items to a relationship of any kind.  Only a text can name one, and
a list or a map cannot even be looked up. -/
def routeValue (number : SessionId) (items : List Item) :
    Value → Act Flow Unit
  | .text relationship => route number items relationship
  | .list _ | .map _ => Act.fail .wrongType
  | unknown => Act.fail (.unknownRelationship unknown.display)

/-- Put attributes over those of a held item. -/
def annotate (number : SessionId) (item : Item) (attributes : Attributes) :
    Act Flow Item := do
  let holder ← Act.read (·.session number)
  match holder.current.find? item.id with
  | none => Act.fail (.notHeld item.id number)
  | some current => do
      let updated := current.withAttributes attributes
      Act.modify (·.setSession number { holder with
        current := holder.current.put item.id updated })
      pure updated

/-- Deliver the items of a session, all of which have to be routed. -/
def commit (number : SessionId) : Act Flow Unit := do
  let holder ← Act.read (·.session number)
  if holder.unrouted.isEmpty then
    Act.modify fun flow =>
      { flow with
        sinks := flow.sinks.mapValues fun relationship received =>
          received ++ holder.routedTo relationship }
    Act.modify (·.setSession number { holder.clear with
      commits := holder.commits + 1 })
  else Act.fail (.unrouted holder.unrouted)

/-- Return the items of a session to the front of the source as they were
pulled. -/
def rollBack (number : SessionId) : Act Flow Unit := do
  let holder ← Act.read (·.session number)
  requeue holder.pulled.values
  Act.modify (·.setSession number { holder.clear with
    rollbacks := holder.rollbacks + 1 })

def received (relationship : String) : Act Flow (List Item) := do
  match ← Act.read (·.sinks.find? relationship) with
  | some items => pure items
  | none => Act.fail (.unknownName relationship)

def clearSink (relationship : String) : Act Flow Unit := do
  let _ ← received relationship
  Act.modify fun flow =>
    { flow with
      sinks := flow.sinks.mapValues fun name items =>
        if name = relationship then [] else items }

end Flow

end ItemBinning
