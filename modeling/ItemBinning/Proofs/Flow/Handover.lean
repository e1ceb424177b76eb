import ItemBinning.Proofs.Flow.Accounts

/-!
# Items lost in a handover

A session takes an item that it is handed up under the id of the item.  An item with
the same id that it already held gives way, although no operation delivered it or
returned it to the source.  Counting the ids that go over while the other session
holds them tells exactly how many items the two sessions lose, whether the handover
is carried through or stops at an item that is not held.  No item is lost while no id
stands twice in the flow.
-/

namespace ItemBinning

theorem Session.not_mem_ids_of_find? {session : Session} {id : String}
    (absent : session.current.find? id = none) : id ∉ session.ids := by
  intro held
  obtain ⟨current, found⟩ := Session.mem_ids_iff.1 held
  rw [absent] at found
  cases found

namespace Flow

/-- The number of items that two sessions hold together. -/
def holdings (flow : Flow) (source target : SessionId) : Nat :=
  (flow.session source).ids.length + (flow.session target).ids.length

/-- The ids that go over when a session with some ids hands items over: those of the
items in order, up to the first one that the session does not hold any more. -/
def handedIds (held : List String) : List Item → List String
  | [] => []
  | item :: rest =>
      if item.id ∈ held then
        item.id :: handedIds (held.filter fun other => !decide (other = item.id)) rest
      else []

theorem mem_of_mem_handedIds {held : List String} {items : List Item} {id : String}
    (goesOver : id ∈ handedIds held items) : id ∈ held := by
  induction items generalizing held with
  | nil => simp [handedIds] at goesOver
  | cons item rest ih =>
      unfold handedIds at goesOver
      split at goesOver
      · rename_i isHeld
        rcases List.mem_cons.1 goesOver with rfl | later
        · exact isHeld
        · exact List.mem_of_mem_filter (ih later)
      · simp at goesOver

/-- The ids that go over and that the other session already holds. -/
def clashes (flow : Flow) (source target : SessionId) (items : List Item) : List String :=
  (handedIds (flow.session source).ids items).filter
    fun id => decide (id ∈ (flow.session target).ids)

section Handed

variable {flow : Flow} {source target : SessionId} {id : String} {current : Item}

theorem session_handed_source (apart : source ≠ target) :
    (flow.handed source target id current).session source =
      (flow.session source).release id := by
  unfold handed
  dsimp only
  rw [session_setSession, if_neg apart, session_setSession, if_pos rfl]

theorem session_handed_of_ne {other : SessionId} (notSource : other ≠ source)
    (notTarget : other ≠ target) :
    (flow.handed source target id current).session other = flow.session other := by
  unfold handed
  dsimp only
  rw [session_setSession, if_neg notTarget, session_setSession, if_neg notSource]

theorem ids_handed_source (apart : source ≠ target) :
    ((flow.handed source target id current).session source).ids =
      (flow.session source).ids.filter fun other => !decide (other = id) := by
  rw [session_handed_source apart, Session.ids_release]

theorem ids_handed_target (apart : source ≠ target) :
    ((flow.handed source target id current).session target).ids =
      if id ∈ (flow.session target).ids then (flow.session target).ids
      else (flow.session target).ids ++ [id] := by
  unfold handed
  dsimp only
  rw [session_setSession, if_pos rfl, Session.ids_receive, session_setSession,
    if_neg apart.symm]

theorem current_handed_target (apart : source ≠ target) :
    ((flow.handed source target id current).session target).current =
      (flow.session target).current.put id current := by
  unfold handed
  dsimp only
  rw [session_setSession, if_pos rfl, session_setSession, if_neg apart.symm]
  rfl

theorem holdings_handed (apart : source ≠ target)
    (found : (flow.session source).current.find? id = some current) :
    (flow.handed source target id current).holdings source target +
        (if id ∈ (flow.session target).ids then 1 else 0) =
      flow.holdings source target := by
  have held : id ∈ (flow.session source).ids := Session.mem_ids_iff.2 ⟨current, found⟩
  have released : ((flow.session source).ids.filter
      fun other => !decide (other = id)).length + 1 = (flow.session source).ids.length := by
    have one : (flow.session source).ids.countP (fun other => decide (other = id)) = 1 := by
      have count := Session.count_ids_of_mem held
      simpa [List.count, beq_eq_decide] using count
    have whole := List.length_eq_countP_add_countP (fun other => decide (other = id))
      (l := (flow.session source).ids)
    rw [← List.countP_eq_length_filter]
    simp only [Bool.not_eq_true, decide_eq_false_iff_not] at whole
    simp only [← decide_not]
    omega
  unfold holdings
  rw [ids_handed_source apart, ids_handed_target apart]
  split
  · omega
  · rw [List.length_append, List.length_singleton]
    omega

theorem clashes_cons {item : Item} (rest : List Item) (apart : source ≠ target)
    (found : (flow.session source).current.find? item.id = some current) :
    (flow.clashes source target (item :: rest)).length =
      (if item.id ∈ (flow.session target).ids then 1 else 0) +
        ((flow.handed source target item.id current).clashes source target rest).length := by
  have held : item.id ∈ (flow.session source).ids :=
    Session.mem_ids_iff.2 ⟨current, found⟩
  have later : ∀ id ∈ handedIds ((flow.session source).ids.filter
      fun other => !decide (other = item.id)) rest,
      decide (id ∈ ((flow.handed source target item.id current).session target).ids) =
        decide (id ∈ (flow.session target).ids) := by
    intro id goesOver
    -- an id goes over once only, so the item taken up before is no later clash
    have differs : id ≠ item.id := by
      simpa using (List.mem_filter.1 (mem_of_mem_handedIds goesOver)).2
    rw [ids_handed_target apart]
    split <;> simp [differs]
  unfold clashes
  rw [ids_handed_source apart, List.filter_congr later, handedIds, if_pos held]
  by_cases clash : item.id ∈ (flow.session target).ids
  · rw [List.filter_cons_of_pos (by simpa using clash), if_pos clash, List.length_cons]
    omega
  · rw [List.filter_cons_of_neg (by simpa using clash), if_neg clash]
    omega

end Handed

theorem migrate_one_cases {source target : SessionId} (apart : source ≠ target)
    (item : Item) (flow : Flow) :
    item.id ∉ (flow.session source).ids ∧
        migrate source target [item] flow = (.error (.notHeld item.id source), flow) ∨
      ∃ current, (flow.session source).current.find? item.id = some current ∧
        migrate source target [item] flow =
          (.ok (), flow.handed source target item.id current) := by
  unfold migrate
  rw [if_neg apart, Act.forEach]
  rcases handOver_cases source target item flow with ⟨absent, run⟩ | ⟨current, found, run⟩
  · exact .inl ⟨Session.not_mem_ids_of_find? absent, Act.bind_of_error run _⟩
  · exact .inr ⟨current, found, Act.bind_of_ok run _⟩

/-- A handover between two sessions, be it carried through or not, loses as many items
as go over under an id that the other session holds already. -/
theorem holdings_migrate {source target : SessionId} (apart : source ≠ target)
    (items : List Item) (flow : Flow) :
    ((migrate source target items).final flow).holdings source target +
        (flow.clashes source target items).length =
      flow.holdings source target := by
  unfold migrate
  rw [if_neg apart]
  induction items generalizing flow with
  | nil => rfl
  | cons item rest ih =>
      rcases handOver_cases source target item flow with ⟨absent, run⟩ | ⟨current, found, run⟩
      · have noClash : flow.clashes source target (item :: rest) = [] := by
          unfold clashes handedIds
          rw [if_neg (Session.not_mem_ids_of_find? absent), List.filter_nil]
        unfold Act.final Act.forEach
        rw [Act.bind_of_error run, noClash, List.length_nil]
        rfl
      · have first := holdings_handed apart found
        have others := ih (flow.handed source target item.id current)
        have split := clashes_cons rest apart found
        unfold Act.final at others ⊢
        unfold Act.forEach
        rw [Act.bind_of_ok run]
        omega

theorem clashes_eq_nil_iff {flow : Flow} {source target : SessionId} {items : List Item} :
    flow.clashes source target items = [] ↔
      ∀ id ∈ handedIds (flow.session source).ids items, id ∉ (flow.session target).ids := by
  unfold clashes
  simp only [List.filter_eq_nil_iff, decide_eq_true_eq]

theorem Accounted.held_once {known ids : List String} {flow : Flow}
    (accounted : flow.Accounted known ids) (distinct : ids.Nodup) {id : String}
    {holder other : SessionId} (held : id ∈ (flow.session holder).ids)
    (apart : other ≠ holder) : id ∉ (flow.session other).ids := by
  intro also
  have both := flow.count_add_count_le_account apart id
  rw [Session.count_ids_of_mem held, Session.count_ids_of_mem also,
    accounted.accounts] at both
  have once := List.nodup_iff_count_le_one.1 distinct id
  omega

/-- A property that is carried, and under which all sessions are coherent. -/
structure Cohering (known : List String) (property : Flow → Prop) : Prop where
  carried : Carried property
  coherent : ∀ flow, property flow → flow.Coherent known

theorem cohering_coherent (known : List String) : Cohering known (Coherent known) :=
  ⟨carried_coherent known, fun _ => id⟩

/-- A property that is carried, and under which an id waits once only and is held by one
session only. -/
structure Single (known : List String) (property : Flow → Prop) : Prop
    extends Cohering known property where
  source : ∀ flow, property flow → (flow.source.map Item.id).Nodup
  held : ∀ flow id holder other, property flow → id ∈ (flow.session holder).ids →
    other ≠ holder → id ∉ (flow.session other).ids

theorem Single.and {known : List String} {property other : Flow → Prop}
    (single : Single known property) (carried : Carried other) :
    Single known fun flow => property flow ∧ other flow where
  carried := single.carried.and carried
  coherent flow holds := single.coherent flow holds.1
  source flow holds := single.source flow holds.1
  held flow id holder other holds := single.held flow id holder other holds.1

theorem single_accounted {known ids : List String} (distinct : ids.Nodup) :
    Single known (Accounted known ids) where
  carried := carried_accounted distinct
  coherent _ accounted := accounted.coherent
  source _ accounted := accounted.nodup_source distinct
  held _ _ _ _ accounted held apart := accounted.held_once distinct held apart

/-- While the accounts are those of distinct ids, no handover loses an item. -/
theorem Accounted.holdings_migrate {known ids : List String} {flow : Flow}
    (accounted : flow.Accounted known ids) (distinct : ids.Nodup)
    {source target : SessionId} (apart : source ≠ target) (items : List Item) :
    ((migrate source target items).final flow).holdings source target =
      flow.holdings source target := by
  have noClash : flow.clashes source target items = [] := by
    apply clashes_eq_nil_iff.2
    intro id goesOver
    exact accounted.held_once distinct (mem_of_mem_handedIds goesOver) apart.symm
  have kept := Flow.holdings_migrate apart items flow
  rw [noClash] at kept
  exact kept

/-- A handover loses one item for each clash, so it keeps all of them just if no id goes
over that the other session holds already. -/
theorem migrate_keeps_all_iff {source target : SessionId} (apart : source ≠ target)
    (items : List Item) (flow : Flow) :
    let reached := (migrate source target items).final flow
    reached.holdings source target + (flow.clashes source target items).length =
        flow.holdings source target ∧
      (reached.holdings source target = flow.holdings source target ↔
        ∀ id ∈ handedIds (flow.session source).ids items,
          id ∉ (flow.session target).ids) := by
  intro reached
  have kept : reached.holdings source target + _ = _ := holdings_migrate apart items flow
  refine ⟨kept, ?_⟩
  rw [← clashes_eq_nil_iff, ← List.length_eq_zero_iff]
  omega

/-- Two sessions that each pulled an item of the same id. -/
def twins : Flow :=
  (do
    let first ← openSession
    let second ← openSession
    let _ ← pull first 1
    pull second 1 : Act Flow (List Item)).final
    { source := [{ id := "a", size := .int 1 }, { id := "a", size := .int 2 }]
      sinks := sinksFor [] }

theorem clash_of_twins :
    (0 : SessionId) ≠ 1 ∧
      ((migrate 0 1 [{ id := "a" }]).final twins).holdings 0 1 ≠ twins.holdings 0 1 := by
  refine ⟨by decide, fun same => ?_⟩
  exact (migrate_keeps_all_iff (by decide) [{ id := "a" }] twins).2.1 same "a"
    (by decide) (by decide)

/-- Of two items with the same id one is lost when it is handed to the session that
holds the other. -/
theorem holdings_of_twins :
    twins.holdings 0 1 = 2 ∧
      ((migrate 0 1 [{ id := "a", size := .int 1 }]).final twins).holdings 0 1 = 1 := by
  decide

end Flow

end ItemBinning
