import ItemBinning.Session
import ItemBinning.Proofs.Storage

/-!
# Coherent sessions

The three tables of a session belong together: the pulled versions stand under
the same ids and in the same order as the current ones, every version stands
under its own id, current and pulled version differ in attributes at most, and
only held items have a destination, which is a known relationship.  Every change
that a session undergoes keeps its tables together.
-/

namespace ItemBinning

/-- The parts of an item that no change of attributes touches. -/
def Item.Resembles (item other : Item) : Prop :=
  item.id = other.id ∧ item.size = other.size ∧ item.content = other.content

theorem Item.Resembles.refl (item : Item) : item.Resembles item :=
  ⟨rfl, rfl, rfl⟩

theorem Item.Resembles.withAttributes {item other : Item}
    (resembles : item.Resembles other) (attributes : Attributes) :
    (item.withAttributes attributes).Resembles other :=
  resembles

namespace Session

/-- The tables of a session belong together, its destinations being among the
known relationships. -/
structure Coherent (known : List String) (session : Session) : Prop where
  keys : session.pulled.keys = session.ids
  own : ∀ id item, session.pulled.find? id = some item → item.id = id
  versions : ∀ id current pulled, session.current.find? id = some current →
    session.pulled.find? id = some pulled → current.Resembles pulled
  routed : ∀ id relationship,
    session.destinations.find? id = some relationship →
      id ∈ session.ids ∧ relationship ∈ known

theorem holds_iff {session : Session} {id : String} :
    session.holds id = true ↔ id ∈ session.ids :=
  Table.contains_iff_mem_keys

theorem mem_ids_iff {session : Session} {id : String} :
    id ∈ session.ids ↔ ∃ item, session.current.find? id = some item :=
  Table.mem_keys_iff

theorem nodup_ids (session : Session) : session.ids.Nodup :=
  session.current.nodup_keys

theorem ids_receive (session : Session) (id : String) (current pulled : Item)
    (destination : Option String) :
    (session.receive id current pulled destination).ids =
      if id ∈ session.ids then session.ids else session.ids ++ [id] :=
  Table.keys_put session.current id current

theorem mem_ids_receive {session : Session} {id other : String}
    {current pulled : Item} {destination : Option String} :
    other ∈ (session.receive id current pulled destination).ids ↔
      other ∈ session.ids ∨ other = id := by
  rw [ids_receive]
  split
  · rename_i held
    constructor
    · exact .inl
    · rintro (member | rfl)
      · exact member
      · exact held
  · simp

theorem ids_release (session : Session) (id : String) :
    (session.release id).ids = session.ids.filter fun other =>
      !decide (other = id) :=
  Table.keys_erase session.current id

theorem mem_ids_release {session : Session} {id other : String} :
    other ∈ (session.release id).ids ↔ other ∈ session.ids ∧ other ≠ id := by
  simp [ids_release]

variable {known : List String} {session : Session}

theorem Coherent.both (coherent : session.Coherent known) {id : String}
    (held : id ∈ session.ids) :
    ∃ current pulled, session.current.find? id = some current ∧
      session.pulled.find? id = some pulled ∧ current.Resembles pulled := by
  obtain ⟨current, foundCurrent⟩ := mem_ids_iff.1 held
  obtain ⟨pulled, foundPulled⟩ := Table.mem_keys_iff.1 (coherent.keys ▸ held)
  exact ⟨current, pulled, foundCurrent, foundPulled,
    coherent.versions id current pulled foundCurrent foundPulled⟩

theorem Coherent.currentId (coherent : session.Coherent known) {id : String}
    {item : Item} (found : session.current.find? id = some item) :
    item.id = id := by
  obtain ⟨current, pulled, foundCurrent, foundPulled, resembles⟩ :=
    coherent.both (mem_ids_iff.2 ⟨item, found⟩)
  rw [found, Option.some.injEq] at foundCurrent
  subst foundCurrent
  exact resembles.1.trans (coherent.own id pulled foundPulled)

theorem coherent_default : (default : Session).Coherent known where
  keys := rfl
  own _ _ found := by cases found
  versions _ _ _ found := by cases found
  routed _ _ found := by cases found

theorem Coherent.clear (session : Session) (commits rollbacks : Nat) :
    Coherent known { session.clear with commits, rollbacks } where
  keys := rfl
  own _ _ found := by cases found
  versions _ _ _ found := by cases found
  routed _ _ found := by cases found

theorem Coherent.receive (coherent : session.Coherent known) {id : String}
    {current pulled : Item} {destination : Option String}
    (own : pulled.id = id) (resembles : current.Resembles pulled)
    (isKnown : ∀ relationship ∈ destination, relationship ∈ known) :
    (session.receive id current pulled destination).Coherent known where
  keys := by
    change (session.pulled.put id pulled).keys = (session.current.put id current).keys
    rw [Table.keys_put, Table.keys_put, coherent.keys]
    rfl
  own other item found := by
    change (session.pulled.put id pulled).find? other = some item at found
    rw [Table.find?_put] at found
    split at found
    · rename_i same
      cases found
      exact own.trans same.symm
    · exact coherent.own other item found
  versions other first second foundFirst foundSecond := by
    change (session.current.put id current).find? other = some first at foundFirst
    change (session.pulled.put id pulled).find? other = some second at foundSecond
    rw [Table.find?_put] at foundFirst foundSecond
    split at foundFirst
    · rename_i same
      rw [if_pos same] at foundSecond
      cases foundFirst
      cases foundSecond
      exact resembles
    · rename_i differs
      rw [if_neg differs] at foundSecond
      exact coherent.versions other first second foundFirst foundSecond
  routed other relationship found := by
    rw [mem_ids_receive]
    cases destination with
    | none =>
        have before := coherent.routed other relationship found
        exact ⟨.inl before.1, before.2⟩
    | some given =>
        change (session.destinations.put id given).find? other = some relationship at found
        rw [Table.find?_put] at found
        split at found
        · rename_i same
          cases found
          exact ⟨.inr same, isKnown _ rfl⟩
        · have before := coherent.routed other relationship found
          exact ⟨.inl before.1, before.2⟩

theorem Coherent.release (coherent : session.Coherent known) (id : String) :
    (session.release id).Coherent known where
  keys := by
    rw [ids_release]
    change (session.pulled.erase id).keys = _
    rw [Table.keys_erase, coherent.keys]
  own other item found := by
    change (session.pulled.erase id).find? other = some item at found
    rw [Table.find?_erase] at found
    split at found
    · cases found
    · exact coherent.own other item found
  versions other first second foundFirst foundSecond := by
    change (session.current.erase id).find? other = some first at foundFirst
    change (session.pulled.erase id).find? other = some second at foundSecond
    rw [Table.find?_erase] at foundFirst foundSecond
    split at foundFirst
    · cases foundFirst
    · rename_i differs
      rw [if_neg differs] at foundSecond
      exact coherent.versions other first second foundFirst foundSecond
  routed other relationship found := by
    change (session.destinations.erase id).find? other = some relationship at found
    rw [Table.find?_erase] at found
    split at found
    · cases found
    · rename_i differs
      have before := coherent.routed other relationship found
      exact ⟨mem_ids_release.2 ⟨before.1, differs⟩, before.2⟩

theorem Coherent.routeTo (coherent : session.Coherent known) {id relationship : String}
    (held : id ∈ session.ids) (isKnown : relationship ∈ known) :
    Coherent known { session with
      destinations := session.destinations.put id relationship } where
  keys := coherent.keys
  own := coherent.own
  versions := coherent.versions
  routed other given found := by
    change (session.destinations.put id relationship).find? other = some given at found
    rw [Table.find?_put] at found
    split at found
    · rename_i same
      cases found
      exact ⟨same ▸ held, isKnown⟩
    · exact coherent.routed other given found

theorem ids_update {id : String} {current : Item} (held : id ∈ session.ids) :
    Session.ids { session with current := session.current.put id current } =
      session.ids := by
  change (session.current.put id current).keys = session.current.keys
  rw [Table.keys_put]
  exact if_pos held

theorem Coherent.update (coherent : session.Coherent known) {id : String}
    {before after : Item} (found : session.current.find? id = some before)
    (resembles : after.Resembles before) :
    Coherent known { session with
      current := session.current.put id after } where
  keys := by
    rw [ids_update (mem_ids_iff.2 ⟨before, found⟩)]
    exact coherent.keys
  own := coherent.own
  versions other first second foundFirst foundSecond := by
    change (session.current.put id after).find? other = some first at foundFirst
    change session.pulled.find? other = some second at foundSecond
    rw [Table.find?_put] at foundFirst
    split at foundFirst
    · rename_i same
      subst same
      cases foundFirst
      have old := coherent.versions other before second found foundSecond
      exact ⟨resembles.1.trans old.1, resembles.2.1.trans old.2.1,
        resembles.2.2.trans old.2.2⟩
    · exact coherent.versions other first second foundFirst foundSecond
  routed other relationship foundDestination := by
    rw [ids_update (mem_ids_iff.2 ⟨before, found⟩)]
    exact coherent.routed other relationship foundDestination

end Session

end ItemBinning
