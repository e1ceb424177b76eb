import ItemBinning.Proofs.Flow.Carried

/-!
# Accounts of ids

The account of an id is the number of times that it stands on the source, in the
sinks and in the sessions together.  While sessions are coherent and no id stands
twice, every operation moves ids from one place to another and leaves all
accounts as they are.
-/

namespace ItemBinning

namespace Session

theorem count_ids_of_mem {session : Session} {id : String}
    (held : id ∈ session.ids) : session.ids.count id = 1 :=
  List.count_eq_one_of_mem session.nodup_ids held

theorem count_ids_of_not_mem {session : Session} {id : String}
    (absent : id ∉ session.ids) : session.ids.count id = 0 :=
  List.count_eq_zero_of_not_mem absent

theorem count_ids_release {session : Session} {id : String} (other : String)
    (held : id ∈ session.ids) :
    (session.release id).ids.count other + (if other = id then 1 else 0) =
      session.ids.count other := by
  by_cases same : other = id
  · subst same
    rw [if_pos rfl, count_ids_of_mem held, count_ids_of_not_mem]
    simp [mem_ids_release]
  · rw [if_neg same, ids_release, List.count_filter (by simpa using same)]
    rfl

theorem count_ids_receive {session : Session} {id : String}
    {current pulled : Item} {destination : Option String} (other : String)
    (absent : id ∉ session.ids) :
    (session.receive id current pulled destination).ids.count other =
      session.ids.count other + if other = id then 1 else 0 := by
  rw [ids_receive, if_neg absent, List.count_append, List.count_singleton]
  by_cases same : other = id
  · simp [same]
  · simp [same, Ne.symm same]

private theorem ids_receivePulled_of_seen {items : List Item} {session : Session}
    {seen : List String} (all : ∀ id, id ∈ session.ids → id ∈ seen)
    (distinct : Flow.firstRepeated seen items = none) :
    (session.receivePulled items).ids = session.ids ++ items.map Item.id := by
  unfold receivePulled
  induction items generalizing session seen with
  | nil => simp
  | cons item rest ih =>
      unfold Flow.firstRepeated at distinct
      split at distinct
      · cases distinct
      · rename_i fresh
        have absent : item.id ∉ session.ids := fun held =>
          fresh (List.contains_iff_mem.2 (all item.id held))
        have further : ∀ id, id ∈ (session.receive item.id item item none).ids →
            id ∈ item.id :: seen := by
          intro id member
          rcases mem_ids_receive.1 member with before | same
          · exact List.mem_cons_of_mem _ (all id before)
          · exact same ▸ List.mem_cons_self
        rw [List.foldl_cons, ih further distinct, ids_receive, if_neg absent]
        simp

theorem ids_receivePulled {items : List Item} {session : Session}
    (distinct : Flow.firstRepeated session.ids items = none) :
    (session.receivePulled items).ids = session.ids ++ items.map Item.id :=
  ids_receivePulled_of_seen (fun _ => id) distinct

variable {known : List String} {session : Session}

theorem Coherent.ids_returned (coherent : session.Coherent known) :
    session.pulled.values.map Item.id = session.ids := by
  rw [← coherent.keys]
  unfold Table.values Table.keys
  rw [List.map_map]
  apply List.map_congr_left
  rintro ⟨id, item⟩ member
  exact coherent.own id item (Table.find?_eq_some_iff.2 member)

theorem Coherent.ids_routedTo (coherent : session.Coherent known)
    (relationship : String) :
    (session.routedTo relationship).map Item.id =
      session.ids.filter fun id =>
        session.destinations.find? id == some relationship := by
  unfold routedTo ids Table.keys
  rw [List.filter_map, List.map_map]
  apply List.map_congr_left
  rintro ⟨id, item⟩ member
  exact coherent.currentId (Table.find?_eq_some_iff.2 (List.mem_filter.1 member).1)

theorem exists_destination {id : String} (complete : session.unrouted = [])
    (held : id ∈ session.ids) :
    ∃ relationship, session.destinations.find? id = some relationship := by
  rw [← Table.mem_keys_iff, ← Table.contains_iff_mem_keys]
  by_contra missing
  have unrouted : id ∈ session.unrouted :=
    List.mem_filter.2 ⟨held, by simpa using missing⟩
  simp [complete] at unrouted

/-- A session of which all items are routed delivers every one of them once. -/
theorem Coherent.sum_count_routedTo (coherent : session.Coherent known)
    (distinct : known.Nodup) (complete : session.unrouted = []) (id : String) :
    (known.map fun relationship =>
        ((session.routedTo relationship).map Item.id).count id).sum =
      session.ids.count id := by
  have routed (relationship : String) :
      ((session.routedTo relationship).map Item.id).count id =
        if session.destinations.find? id = some relationship then
          session.ids.count id else 0 := by
    rw [coherent.ids_routedTo]
    split
    · rename_i destination
      exact List.count_filter (by simpa using destination)
    · rename_i elsewhere
      exact List.count_eq_zero_of_not_mem fun member =>
        elsewhere (by simpa using (List.mem_filter.1 member).2)
  simp only [routed]
  by_cases held : id ∈ session.ids
  · obtain ⟨own, destination⟩ := exists_destination complete held
    have isKnown := (coherent.routed id own destination).2
    rw [List.sum_map_eq_nsmul_single own, List.count_eq_one_of_mem distinct isKnown,
      one_nsmul, if_pos destination]
    intro other differs _
    refine if_neg fun same => differs ?_
    rw [destination] at same
    exact (Option.some.inj same).symm
  · rw [count_ids_of_not_mem held]
    simp

end Session

namespace Flow

/-- How often an id stands on the source, in the sinks and in the sessions. -/
def account (flow : Flow) (id : String) : Nat :=
  (flow.source.map Item.id).count id +
    flow.sinks.total (fun _ items => (items.map Item.id).count id) +
    flow.sessions.total fun session => session.ids.count id

theorem account_setSession (flow : Flow) (number : SessionId) (session : Session)
    (id : String) :
    (flow.setSession number session).account id + (flow.session number).ids.count id =
      flow.account id + session.ids.count id := by
  have changed := flow.sessions.total_set number session
    (fun session => session.ids.count id) rfl
  unfold account Flow.session
  rw [source_setSession, sinks_setSession, sessions_setSession]
  omega

theorem count_add_count_le_account (flow : Flow) {first second : SessionId}
    (distinct : second ≠ first) (id : String) :
    (flow.session first).ids.count id + (flow.session second).ids.count id ≤
      flow.account id := by
  have both := flow.sessions.measure_add_measure_le_total distinct
    (fun session => session.ids.count id) rfl
  unfold account Flow.session
  omega

theorem account_setSession_of_ids {flow : Flow} {number : SessionId}
    {session : Session} (same : session.ids = (flow.session number).ids)
    (id : String) :
    (flow.setSession number session).account id = flow.account id := by
  have changed := flow.account_setSession number session id
  rw [same] at changed
  omega

theorem account_opened (flow : Flow) (id : String) :
    Flow.account { flow with sessions := flow.sessions.push {} } id =
      flow.account id := by
  have pushed := flow.sessions.total_push {} fun session => session.ids.count id
  have nothing : Session.ids {} = [] := rfl
  rw [nothing, List.count_nil] at pushed
  unfold account
  dsimp only
  omega

theorem account_pulled {flow : Flow} {number : SessionId} {count : Nat}
    (distinct : firstRepeated (flow.session number).ids
      (flow.source.take count) = none) (id : String) :
    Flow.account (Flow.setSession { flow with source := flow.source.drop count } number
      ((flow.session number).receivePulled (flow.source.take count))) id =
        flow.account id := by
  have changed := account_setSession { flow with source := flow.source.drop count }
    number ((flow.session number).receivePulled (flow.source.take count)) id
  rw [Session.ids_receivePulled distinct, List.count_append] at changed
  have split : (flow.source.map Item.id).count id =
      ((flow.source.take count).map Item.id).count id +
        ((flow.source.drop count).map Item.id).count id := by
    rw [← List.count_append, ← List.map_append, List.take_append_drop]
  have rest : Flow.account { flow with source := flow.source.drop count } id +
      ((flow.source.take count).map Item.id).count id = flow.account id := by
    unfold account
    dsimp only
    omega
  change _ + (flow.session number).ids.count id = _ at changed
  omega

theorem account_handed {flow : Flow} {source target : SessionId} {id : String}
    {current : Item} (absent : id ∉ (flow.session target).ids) (apart : source ≠ target)
    (found : (flow.session source).current.find? id = some current)
    (other : String) :
    (flow.handed source target id current).account other = flow.account other := by
  have held : id ∈ (flow.session source).ids := Session.mem_ids_iff.2 ⟨current, found⟩
  have between : (flow.setSession source ((flow.session source).release id)).session
      target = flow.session target := by
    rw [session_setSession, if_neg apart.symm]
  have given := flow.account_setSession source ((flow.session source).release id) other
  have released := Session.count_ids_release other held
  have taken := account_setSession
    (flow.setSession source ((flow.session source).release id)) target
    ((flow.session target).receive id current
      (((flow.session source).pulled.find? id).getD current)
      ((flow.session source).destinations.find? id)) other
  rw [between, Session.count_ids_receive other absent] at taken
  unfold handed
  dsimp only
  rw [between]
  omega

variable {known : List String}

theorem account_delivered {flow : Flow} {number : SessionId}
    (coherent : flow.Coherent known)
    (complete : (flow.session number).unrouted = []) (id : String) :
    (flow.delivered number).account id = flow.account id := by
  have distinct : known.Nodup := coherent.sinks ▸ flow.sinks.nodup_keys
  have cleared := account_setSession
    { flow with
      sinks := flow.sinks.mapValues fun relationship received =>
        received ++ (flow.session number).routedTo relationship }
    number { (flow.session number).clear with
      commits := (flow.session number).commits + 1 } id
  have sum := (coherent.sessions number).sum_count_routedTo distinct complete id
  have routed : flow.sinks.total (fun relationship _ =>
      (((flow.session number).routedTo relationship).map Item.id).count id) =
        (flow.session number).ids.count id := by
    rw [← sum, ← coherent.sinks]
    unfold Table.total Table.keys
    rw [List.map_map]
    rfl
  have received : (flow.sinks.mapValues fun relationship received =>
      received ++ (flow.session number).routedTo relationship).total
        (fun _ items => (items.map Item.id).count id) =
      flow.sinks.total (fun _ items => (items.map Item.id).count id) +
        (flow.session number).ids.count id := by
    rw [Table.total_mapValues, ← routed, ← Table.total_add]
    simp only [List.map_append, List.count_append]
  have filled : Flow.account { flow with
      sinks := flow.sinks.mapValues fun relationship received =>
        received ++ (flow.session number).routedTo relationship } id =
      flow.account id + (flow.session number).ids.count id := by
    unfold account
    dsimp only
    omega
  change (flow.delivered number).account id + (flow.session number).ids.count id =
    _ + 0 at cleared
  omega

theorem account_returned {flow : Flow} {number : SessionId}
    (coherent : flow.Coherent known) (id : String) :
    (flow.returned number).account id = flow.account id := by
  have cleared := account_setSession
    { flow with source := (flow.session number).pulled.values ++ flow.source }
    number { (flow.session number).clear with
      rollbacks := (flow.session number).rollbacks + 1 } id
  have refilled : Flow.account
      { flow with source := (flow.session number).pulled.values ++ flow.source } id =
      flow.account id + (flow.session number).ids.count id := by
    unfold account
    dsimp only
    rw [List.map_append, List.count_append, (coherent.sessions number).ids_returned]
    omega
  change (flow.returned number).account id + (flow.session number).ids.count id =
    _ + 0 at cleared
  omega

/-- The sessions are coherent and the accounts are those of a list of ids. -/
structure Accounted (known ids : List String) (flow : Flow) : Prop where
  coherent : flow.Coherent known
  accounts : ∀ id, flow.account id = ids.count id

/-- Accounts of distinct ids are carried: no operation loses an id or doubles
one. -/
theorem carried_accounted {ids : List String} (distinct : ids.Nodup) :
    Carried (Accounted known ids) where
  opened flow accounted :=
    ⟨(carried_coherent known).opened flow accounted.coherent, fun id =>
      (flow.account_opened id).trans (accounted.accounts id)⟩
  pulled flow number count accounted fresh :=
    ⟨(carried_coherent known).pulled flow number count accounted.coherent fresh,
      fun id => (account_pulled fresh id).trans (accounted.accounts id)⟩
  handed flow source target id current accounted apart found := by
    have held : id ∈ (flow.session source).ids := Session.mem_ids_iff.2 ⟨current, found⟩
    have absent : id ∉ (flow.session target).ids := by
      intro also
      have once := List.nodup_iff_count_le_one.1 distinct id
      have both := flow.count_add_count_le_account apart.symm id
      rw [Session.count_ids_of_mem held, Session.count_ids_of_mem also,
        accounted.accounts] at both
      omega
    exact ⟨(carried_coherent known).handed flow source target id current
        accounted.coherent apart found,
      fun other => (account_handed absent apart found other).trans
        (accounted.accounts other)⟩
  routed flow number id relationship accounted held isKnown := by
    refine ⟨(carried_coherent known).routed flow number id relationship
      accounted.coherent held isKnown, fun other => ?_⟩
    have same : Session.ids { flow.session number with
        destinations := (flow.session number).destinations.put id relationship } =
      (flow.session number).ids := rfl
    exact (account_setSession_of_ids same other).trans (accounted.accounts other)
  updated flow number id current attributes accounted found :=
    ⟨(carried_coherent known).updated flow number id current attributes
        accounted.coherent found,
      fun other => (account_setSession_of_ids
        (Session.ids_update (Session.mem_ids_iff.2 ⟨current, found⟩)) other).trans
          (accounted.accounts other)⟩
  delivered flow number accounted complete :=
    ⟨(carried_coherent known).delivered flow number accounted.coherent complete,
      fun id => (account_delivered accounted.coherent complete id).trans
        (accounted.accounts id)⟩
  returned flow number accounted :=
    ⟨(carried_coherent known).returned flow number accounted.coherent,
      fun id => (account_returned accounted.coherent id).trans
        (accounted.accounts id)⟩

theorem accounted_start (source : List Item) (relationships : List String) :
    Accounted (sinksFor relationships).keys (source.map Item.id)
      { source, sinks := sinksFor relationships } where
  coherent := ⟨rfl, fun _ => Session.coherent_default⟩
  accounts id := by
    have none : (sinksFor relationships).total
        (fun _ items => (items.map Item.id).count id) = 0 := by
      apply Table.total_ofList_eq_zero
      intro entry member
      obtain ⟨_, _, rfl⟩ := List.mem_map.1 member
      rfl
    unfold account
    rw [none]
    rfl

theorem Accounted.put {ids : List String} {flow : Flow} (accounted : flow.Accounted known ids)
    (items : List Item) :
    Accounted known (ids ++ items.map Item.id)
      { flow with source := flow.source ++ items } where
  coherent := ⟨accounted.coherent.sinks, accounted.coherent.sessions⟩
  accounts id := by
    have before := accounted.accounts id
    unfold account at before ⊢
    rw [List.count_append, ← before, List.map_append, List.count_append]
    change _ + _ + flow.sinks.total _ + flow.sessions.total _ = _
    omega

/-- Where an id stands in a flow. -/
inductive Spot
  | source
  | sink (relationship : String)
  | session (number : SessionId)
  deriving DecidableEq

/-- The ids that stand somewhere. -/
def idsAt (flow : Flow) : Spot → List String
  | .source => flow.source.map Item.id
  | .sink relationship => ((flow.sinks.find? relationship).getD []).map Item.id
  | .session number => (flow.session number).ids

theorem count_idsAt_source (flow : Flow) (id : String) :
    (flow.idsAt .source).count id = (flow.source.map Item.id).count id :=
  rfl

theorem count_idsAt_session (flow : Flow) (number : SessionId) (id : String) :
    (flow.idsAt (.session number)).count id = (flow.session number).ids.count id :=
  rfl

theorem count_idsAt_sink (flow : Flow) (relationship id : String) :
    (flow.idsAt (.sink relationship)).count id =
      flow.sinks.share (fun _ items => (items.map Item.id).count id) relationship := by
  change (((flow.sinks.find? relationship).getD []).map Item.id).count id = _
  unfold Table.share
  cases flow.sinks.find? relationship <;> rfl

theorem count_idsAt_add_le_account (flow : Flow) {first second : Spot}
    (distinct : second ≠ first) (id : String) :
    (flow.idsAt first).count id + (flow.idsAt second).count id ≤ flow.account id := by
  have sunk (relationship : String) := flow.sinks.share_le_total relationship
    fun _ items => (items.map Item.id).count id
  have held (number : SessionId) : (flow.session number).ids.count id ≤ _ :=
    flow.sessions.measure_le_total number (fun session => session.ids.count id) rfl
  cases first with
  | source =>
      cases second with
      | source => exact absurd rfl distinct
      | sink second =>
          have := sunk second
          rw [count_idsAt_source, count_idsAt_sink, account]
          omega
      | session second =>
          have := held second
          rw [count_idsAt_source, count_idsAt_session, account]
          omega
  | sink first =>
      have := sunk first
      cases second with
      | source =>
          rw [count_idsAt_source, count_idsAt_sink, account]
          omega
      | sink second =>
          have differ : second ≠ first := fun same => distinct (congrArg Spot.sink same)
          have := flow.sinks.share_add_share_le_total differ
            fun _ items => (items.map Item.id).count id
          rw [count_idsAt_sink, count_idsAt_sink, account]
          omega
      | session second =>
          have := held second
          rw [count_idsAt_sink, count_idsAt_session, account]
          omega
  | session first =>
      have := held first
      cases second with
      | source =>
          rw [count_idsAt_source, count_idsAt_session, account]
          omega
      | sink second =>
          have := sunk second
          rw [count_idsAt_sink, count_idsAt_session, account]
          omega
      | session second =>
          have differ : second ≠ first := fun same => distinct (congrArg Spot.session same)
          exact flow.count_add_count_le_account differ id

namespace Accounted

variable {ids : List String} {flow : Flow}

/-- Distinct ids do not stand in two spots, nor twice in one. -/
theorem count_add_count_le_one (accounted : flow.Accounted known ids) (distinct : ids.Nodup)
    {first second : Spot} (apart : second ≠ first) (id : String) :
    (flow.idsAt first).count id + (flow.idsAt second).count id ≤ 1 := by
  refine Nat.le_trans (flow.count_idsAt_add_le_account apart id) ?_
  rw [accounted.accounts]
  exact List.nodup_iff_count_le_one.1 distinct id

theorem nodup_idsAt (accounted : flow.Accounted known ids) (distinct : ids.Nodup)
    {spot other : Spot} (apart : other ≠ spot) : (flow.idsAt spot).Nodup := by
  rw [List.nodup_iff_count_le_one]
  intro id
  have once := accounted.count_add_count_le_one distinct apart id
  omega

theorem not_mem_idsAt (accounted : flow.Accounted known ids) (distinct : ids.Nodup)
    {spot other : Spot} (apart : other ≠ spot) {id : String} (stands : id ∈ flow.idsAt spot) :
    id ∉ flow.idsAt other := by
  intro also
  have once := accounted.count_add_count_le_one distinct apart id
  have here := List.count_pos_iff.2 stands
  have there := List.count_pos_iff.2 also
  omega

theorem nodup_source (accounted : flow.Accounted known ids) (distinct : ids.Nodup) :
    (flow.source.map Item.id).Nodup :=
  accounted.nodup_idsAt distinct (show Spot.session 0 ≠ .source from nofun)

end Accounted

theorem exists_spot_of_account_pos {flow : Flow} {id : String}
    (positive : 0 < flow.account id) : ∃ spot, 0 < (flow.idsAt spot).count id := by
  unfold account at positive
  by_cases waiting : 0 < (flow.source.map Item.id).count id
  · exact ⟨.source, waiting⟩
  by_cases sunk : 0 < flow.sinks.total fun _ items => (items.map Item.id).count id
  · obtain ⟨relationship, share⟩ := Table.exists_share_of_total_pos sunk
    exact ⟨.sink relationship, by rwa [count_idsAt_sink]⟩
  · obtain ⟨number, held⟩ := Slots.exists_measure_of_total_pos
      (show 0 < flow.sessions.total fun session => session.ids.count id by omega)
    exact ⟨.session number, held⟩

/-- An id that is accounted once stands once, and in one spot. -/
theorem exists_spot_of_account {flow : Flow} {id : String} (once : flow.account id = 1) :
    ∃ spot, ∀ other, (flow.idsAt other).count id = if other = spot then 1 else 0 := by
  obtain ⟨spot, stands⟩ := @exists_spot_of_account_pos flow id (by omega)
  refine ⟨spot, fun other => ?_⟩
  split
  · rename_i same
    subst same
    have elsewhere : ∃ another, another ≠ other := by
      cases other with
      | source => exact ⟨.session 0, nofun⟩
      | sink relationship => exact ⟨.source, nofun⟩
      | session number => exact ⟨.source, nofun⟩
    obtain ⟨another, distinct⟩ := elsewhere
    have both := flow.count_idsAt_add_le_account distinct id
    omega
  · rename_i distinct
    have both := flow.count_idsAt_add_le_account distinct id
    omega

end Flow

end ItemBinning
