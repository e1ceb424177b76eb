import ItemBinning.Item

/-!
# Sessions

A session holds items that were pulled from the source until it delivers them
to the sinks or returns them.  It keeps the current version of each item beside
the version that was pulled, and the relationship that the item was last routed
to.
-/

namespace ItemBinning

/-- The items a session holds, and how often it was completed. -/
structure Session where
  current : Table String Item := .empty
  pulled : Table String Item := .empty
  destinations : Table String String := .empty
  commits : Nat := 0
  rollbacks : Nat := 0

namespace Session

instance : Inhabited Session := ⟨{}⟩

/-- The current versions of the held items. -/
def items (session : Session) : List Item :=
  session.current.values

def ids (session : Session) : List String :=
  session.current.keys

def holds (session : Session) (id : String) : Bool :=
  session.current.contains id

/-- Take up an item with its pulled version and its destination, if it has one. -/
def receive (session : Session) (id : String) (current pulled : Item)
    (destination : Option String) : Session :=
  { session with
    current := session.current.put id current
    pulled := session.pulled.put id pulled
    destinations := match destination with
      | some relationship => session.destinations.put id relationship
      | none => session.destinations }

def receivePulled (session : Session) (items : List Item) : Session :=
  items.foldl (fun holder item => holder.receive item.id item item none) session

def release (session : Session) (id : String) : Session :=
  { session with
    current := session.current.erase id
    pulled := session.pulled.erase id
    destinations := session.destinations.erase id }

def clear (session : Session) : Session :=
  { session with current := .empty, pulled := .empty, destinations := .empty }

/-- The ids of the held items that were never routed. -/
def unrouted (session : Session) : List String :=
  session.ids.filter fun id => !session.destinations.contains id

/-- The held items whose destination is a relationship. -/
def routedTo (session : Session) (relationship : String) : List Item :=
  (session.current.entries.filter fun entry =>
    session.destinations.find? entry.1 == some relationship).map Prod.snd

end Session

end ItemBinning
