import ItemBinning.Proofs.Flow.Accounts
import ItemBinning.Proofs.Flow.Movement
import ItemBinning.Proofs.Flow.Representation

/-!
# Pulling a chunk of items

The items at the front of the source are pulled as a whole or not at all.  A pull fails
just when an id stands twice in the chunk or is held already, and then nothing has
changed.  Otherwise the chunk leaves the source and is held behind what was held before,
in the versions that waited and without destinations.
-/

namespace ItemBinning

namespace Table

variable {κ α : Type} [DecidableEq κ]

theorem entries_put_of_absent {table : Table κ α} {key : κ} (absent : key ∉ table.keys)
    (value : α) : (table.put key value).entries = table.entries ++ [(key, value)] := by
  unfold put
  rw [dif_neg fun present => absent (contains_iff_mem_keys.1 present)]

end Table

namespace Session

/-- A session that pulls items holds them in their order, in the versions pulled. -/
theorem entries_receivePulled {session : Session} {items : List Item}
    (distinct : (session.ids ++ items.map Item.id).Nodup)
    (keys : session.pulled.keys = session.ids) :
    (session.receivePulled items).current.entries =
        session.current.entries ++ items.map (fun item => (item.id, item)) ∧
      (session.receivePulled items).pulled.entries =
        session.pulled.entries ++ items.map fun item => (item.id, item) := by
  unfold receivePulled
  induction items generalizing session with
  | nil => simp
  | cons item rest ih =>
      have absent : item.id ∉ session.ids := by
        rw [List.map_cons, List.nodup_append] at distinct
        exact fun held => distinct.2.2 item.id held item.id (by simp) rfl
      have received : (session.receive item.id item item none).ids =
          session.ids ++ [item.id] := by
        rw [ids_receive, if_neg absent]
      have current : (session.receive item.id item item none).current.entries =
          session.current.entries ++ [(item.id, item)] :=
        Table.entries_put_of_absent absent item
      have pulled : (session.receive item.id item item none).pulled.entries =
          session.pulled.entries ++ [(item.id, item)] :=
        Table.entries_put_of_absent (keys ▸ absent) item
      have later := @ih (session.receive item.id item item none)
        (by rw [received, List.append_assoc]; exact distinct) (by
          rw [received]
          unfold Table.keys at keys ⊢
          rw [pulled, List.map_append, keys]
          rfl)
      rw [current, pulled, List.append_assoc, List.append_assoc] at later
      exact later

/-- Pulling gives nothing a destination and completes nothing. -/
theorem rest_receivePulled (session : Session) (items : List Item) :
    session.receivePulled items = { session with
      current := (session.receivePulled items).current
      pulled := (session.receivePulled items).pulled } := by
  unfold receivePulled
  induction items generalizing session with
  | nil => rfl
  | cons item rest ih =>
      rw [List.foldl_cons, ih]
      rfl

end Session

namespace Flow

/-- An id stands twice, in a chunk of items or among the ids of one and those held. -/
def Clashes (held : List String) (chunk : List Item) : Prop :=
  ¬ (chunk.map Item.id).Nodup ∨ ∃ item ∈ chunk, item.id ∈ held

theorem firstRepeated_eq_none_iff {held : List String} {chunk : List Item} :
    firstRepeated held chunk = none ↔ ¬ Clashes held chunk := by
  unfold Clashes
  induction chunk generalizing held with
  | nil => simp [firstRepeated]
  | cons item rest ih =>
      by_cases already : item.id ∈ held
      · simp [firstRepeated, already]
      · rw [firstRepeated, if_neg (by simpa using already), ih]
        simp only [List.map_cons, List.nodup_cons, List.mem_map, List.mem_cons]
        grind

theorem firstRepeated_eq_none {held : List String} {chunk : List Item}
    (distinct : (held ++ chunk.map Item.id).Nodup) : firstRepeated held chunk = none := by
  rw [List.nodup_append] at distinct
  refine firstRepeated_eq_none_iff.2 (not_or.2 ⟨not_not.2 distinct.2.1, ?_⟩)
  rintro ⟨item, member, isHeld⟩
  exact distinct.2.2 item.id isHeld item.id (List.mem_map_of_mem member) rfl

/-- The id that is found to stand twice is that of the first item whose id is held or stands
in front of it. -/
theorem firstRepeated_eq_some_iff {held : List String} {chunk : List Item} {id : String} :
    firstRepeated held chunk = some id ↔
      ∃ before item after, chunk = before ++ item :: after ∧ item.id = id ∧
        ¬ Clashes held before ∧ (id ∈ held ∨ id ∈ before.map Item.id) := by
  simp only [← firstRepeated_eq_none_iff]
  induction chunk generalizing held with
  | nil => simp [firstRepeated]
  | cons first rest ih =>
      by_cases already : first.id ∈ held
      · rw [firstRepeated, if_pos (by simpa using already), Option.some.injEq]
        constructor
        · rintro rfl
          exact ⟨[], first, rest, rfl, rfl, rfl, .inl already⟩
        · rintro ⟨before, item, after, split, rfl, fresh, -⟩
          -- nothing stands before the item, as the first id is held already
          cases before with
          | nil =>
              cases split
              rfl
          | cons other before =>
              cases split
              rw [firstRepeated, if_pos (by simpa using already)] at fresh
              cases fresh
      · rw [firstRepeated, if_neg (by simpa using already), ih]
        constructor
        · rintro ⟨before, item, after, rfl, isId, fresh, repeated⟩
          refine ⟨first :: before, item, after, rfl, isId, ?_, ?_⟩
          · rwa [firstRepeated, if_neg (by simpa using already)]
          · simpa [or_assoc, or_left_comm] using repeated
        · rintro ⟨before, item, after, split, rfl, fresh, repeated⟩
          cases before with
          | nil =>
              cases split
              simp [already] at repeated
          | cons other before =>
              cases split
              rw [firstRepeated, if_neg (by simpa using already)] at fresh
              refine ⟨before, item, after, rfl, rfl, fresh, ?_⟩
              simpa [or_assoc, or_left_comm] using repeated

/-- What a pull that answered did: the chunk left the front of the source and is held. -/
structure Pulled (before : Flow) (holder : SessionId) (chunk : List Item) (after : Flow) :
    Prop where
  source : before.source = chunk ++ after.source
  sinks : after.sinks = before.sinks
  fresh : firstRepeated (before.session holder).ids chunk = none
  session : after.session holder = (before.session holder).receivePulled chunk
  others : ∀ other, other ≠ holder → after.session other = before.session other

theorem pulled_of_pullValue {before after : Flow} {holder : SessionId} {count : Value}
    {chunk : List Item} (run : pullValue holder count before = (.ok chunk, after)) :
    before.Pulled holder chunk after := by
  rcases pullValue_cases holder count before with ⟨fault, failed⟩ | ⟨wanted, _, fresh, done⟩
  · rw [failed] at run
    cases run
  · rw [done] at run
    cases run
    exact {
      source := (List.take_append_drop _ _).symm
      sinks := rfl
      fresh
      session := by rw [session_setSession, if_pos rfl]
      others := fun other differs => by
        rw [session_setSession, if_neg differs]
        rfl }

namespace Pulled

variable {known : List String} {before after : Flow} {holder : SessionId} {chunk : List Item}

theorem held (pulled : before.Pulled holder chunk after) {item : Item} (member : item ∈ chunk) :
    item.id ∈ (after.session holder).ids := by
  rw [pulled.session, Session.ids_receivePulled pulled.fresh]
  exact List.mem_append_right _ (List.mem_map_of_mem member)

theorem distinct (pulled : before.Pulled holder chunk after) :
    ((before.session holder).ids ++ chunk.map Item.id).Nodup := by
  rw [← Session.ids_receivePulled pulled.fresh]
  exact Session.nodup_ids _

/-- The chunk is held behind what was held before, as current and as pulled versions. -/
theorem entries (pulled : before.Pulled holder chunk after) (coherent : before.Coherent known) :
    (after.session holder).current.entries = (before.session holder).current.entries ++
        chunk.map (fun item => (item.id, item)) ∧
      (after.session holder).pulled.entries = (before.session holder).pulled.entries ++
        chunk.map fun item => (item.id, item) := by
  rw [pulled.session]
  exact Session.entries_receivePulled pulled.distinct (coherent.sessions holder).keys

/-- The session is otherwise as it was; in particular nothing was given a destination. -/
theorem rest (pulled : before.Pulled holder chunk after) :
    after.session holder = { before.session holder with
      current := (after.session holder).current
      pulled := (after.session holder).pulled } := by
  rw [pulled.session]
  exact Session.rest_receivePulled _ _

theorem unrouted (pulled : before.Pulled holder chunk after) (coherent : before.Coherent known)
    {item : Item} (member : item ∈ chunk) :
    (after.session holder).destinations.find? item.id = none := by
  have absent : item.id ∉ (before.session holder).ids := fun held =>
    (List.nodup_append.1 pulled.distinct).2.2 item.id held item.id
      (List.mem_map_of_mem member) rfl
  rw [pulled.rest]
  refine Option.eq_none_iff_forall_ne_some.2 fun relationship found => absent ?_
  exact ((coherent.sessions holder).routed item.id relationship found).1

end Pulled

/-- A session took up a chunk from the front of the source: it is held behind what was held
before, as current and as pulled versions and without destinations, and nothing else
changed. -/
structure TakesUp (before : Flow) (holder : SessionId) (chunk : List Item) (after : Flow) :
    Prop where
  source : before.source = chunk ++ after.source
  current : (after.session holder).current.entries =
    (before.session holder).current.entries ++ chunk.map fun item => (item.id, item)
  pulled : (after.session holder).pulled.entries =
    (before.session holder).pulled.entries ++ chunk.map fun item => (item.id, item)
  unrouted : ∀ item ∈ chunk, (after.session holder).destinations.find? item.id = none
  rest : after.session holder = { before.session holder with
    current := (after.session holder).current
    pulled := (after.session holder).pulled }
  others : ∀ other, other ≠ holder → after.session other = before.session other
  sinks : after.sinks = before.sinks

theorem Pulled.takesUp {known : List String} {before after : Flow} {holder : SessionId}
    {chunk : List Item} (pulled : before.Pulled holder chunk after)
    (coherent : before.Coherent known) : before.TakesUp holder chunk after where
  source := pulled.source
  current := (pulled.entries coherent).1
  pulled := (pulled.entries coherent).2
  unrouted _ := pulled.unrouted coherent
  rest := pulled.rest
  others := pulled.others
  sinks := pulled.sinks

/-- Whatever waits, and whatever sessions have done before, a session that pulls up to a
number of items fails just when an id stands twice in the chunk at the front of the source
or is held already.  It then names the first such id and leaves everything as it was.
Otherwise it answers with the chunk, which it has taken up. -/
theorem pulls_clean_chunk_or_nothing (given waiting : List Item)
    (sinks : Table String (List Item)) (operations : List Operation) (holder : SessionId)
    (count : Int) :
    let flow := { Operation.run { source := given, sinks } operations with source := waiting }
    let held := (flow.session holder).ids
    let chunk := waiting.take (min count waiting.length).toNat
    ((∃ fault reached, pullValue holder (.int count) flow = (.error fault, reached)) ↔
      Clashes held chunk) ∧
    (∀ fault reached, pullValue holder (.int count) flow = (.error fault, reached) →
      fault.kind = .session ∧ reached = flow ∧
      ∃ before item after, chunk = before ++ item :: after ∧ ¬ Clashes held before ∧
        (item.id ∈ held ∨ item.id ∈ before.map Item.id) ∧
        fault = .repeatedItem item.id holder) ∧
    (¬ Clashes held chunk → ∃ reached, pullValue holder (.int count) flow = (.ok chunk, reached) ∧
      flow.TakesUp holder chunk reached) := by
  intro flow held chunk
  have coherent : flow.Coherent sinks.keys :=
    have run := (coherent_start given sinks).run operations
    ⟨run.sinks, run.sessions⟩
  have isChunk : flow.source.take count.toNat = chunk := by
    have waits : flow.source = waiting := rfl
    rw [waits, List.take_eq_take_iff]
    omega
  have run : pullValue holder (.int count) flow = _ := pull_eq holder count flow
  rw [isChunk] at run
  rcases found : firstRepeated held chunk with _ | id
  · rw [found] at run
    have clean := firstRepeated_eq_none_iff.1 found
    have answers : ∀ fault reached,
        pullValue holder (.int count) flow ≠ (.error fault, reached) := by
      intro fault reached failed
      rw [run] at failed
      cases failed
    refine ⟨⟨?_, fun clashes => absurd clashes clean⟩, fun fault reached failed =>
      absurd failed (answers fault reached), fun _ => ⟨_, run, ?_⟩⟩
    · rintro ⟨fault, reached, failed⟩
      exact absurd failed (answers fault reached)
    · exact (pulled_of_pullValue run).takesUp coherent
  · rw [found] at run
    have clashes : Clashes held chunk := by
      by_contra clean
      rw [firstRepeated_eq_none_iff.2 clean] at found
      cases found
    refine ⟨⟨fun _ => clashes, fun _ => ⟨_, _, run⟩⟩, ?_, fun clean => absurd clashes clean⟩
    intro fault reached failed
    rw [run] at failed
    cases failed
    obtain ⟨before, item, after, split, rfl, fresh, repeated⟩ := firstRepeated_eq_some_iff.1 found
    exact ⟨rfl, rfl, before, item, after, split, fresh, repeated, rfl⟩

end Flow

end ItemBinning
