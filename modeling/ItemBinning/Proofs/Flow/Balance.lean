import ItemBinning.Proofs.Flow.Handover

/-!
# Balances

What waits or is held is pending, and what went to a sink is not.  Whatever sinks received
before, no operation loses an item or doubles one as long as no id is pending twice, and
then none ever is: an account stays the same, and a sink only receives.
-/

namespace ItemBinning.Flow

/-- How often an id stands in the sinks. -/
def receipts (flow : Flow) (id : String) : Nat :=
  flow.sinks.total fun _ items => (items.map Item.id).count id

/-- How often an id waits or is held. -/
def pending (flow : Flow) (id : String) : Nat :=
  (flow.source.map Item.id).count id + flow.sessions.total fun session => session.ids.count id

theorem account_eq (flow : Flow) (id : String) :
    flow.account id = flow.pending id + flow.receipts id := by
  unfold account pending receipts
  omega

theorem count_source_le_pending (flow : Flow) (id : String) :
    (flow.source.map Item.id).count id ≤ flow.pending id :=
  Nat.le_add_right _ _

theorem count_add_count_le_pending (flow : Flow) {first second : SessionId}
    (distinct : second ≠ first) (id : String) :
    (flow.session first).ids.count id + (flow.session second).ids.count id ≤
      flow.pending id := by
  have both := flow.sessions.measure_add_measure_le_total distinct
    (fun session => session.ids.count id) rfl
  unfold pending Flow.session
  omega

theorem receipts_delivered (flow : Flow) (number : SessionId) (id : String) :
    flow.receipts id ≤ (flow.delivered number).receipts id := by
  have received : (flow.delivered number).receipts id = flow.receipts id +
      flow.sinks.total fun relationship _ =>
        (((flow.session number).routedTo relationship).map Item.id).count id := by
    unfold receipts delivered
    rw [sinks_setSession, Table.total_mapValues, ← Table.total_add]
    simp only [List.map_append, List.count_append]
  omega

/-- The sessions are coherent, the accounts are as given, and no id is pending twice. -/
structure Balanced (known : List String) (accounts : String → Nat) (flow : Flow) : Prop where
  coherent : flow.Coherent known
  accounts : ∀ id, flow.account id = accounts id
  once : ∀ id, flow.pending id ≤ 1

variable {known : List String} {accounts : String → Nat} {flow after : Flow}

theorem balanced_start {source : List Item} (distinct : (source.map Item.id).Nodup)
    (relationships : List String) :
    Balanced (sinksFor relationships).keys (account { source, sinks := sinksFor relationships })
      { source, sinks := sinksFor relationships } where
  coherent := ⟨rfl, fun _ => Session.coherent_default⟩
  accounts _ := rfl
  once := List.nodup_iff_count_le_one.1 distinct

theorem Balanced.step (balanced : flow.Balanced known accounts)
    (coherent : after.Coherent known) (same : ∀ id, after.account id = flow.account id)
    (received : ∀ id, flow.receipts id ≤ after.receipts id) : after.Balanced known accounts where
  coherent := coherent
  accounts id := (same id).trans (balanced.accounts id)
  once id := by
    have now := same id
    rw [account_eq, account_eq] at now
    have := received id
    have := balanced.once id
    omega

theorem held_once_of_pending (once : ∀ id, flow.pending id ≤ 1) {id : String}
    {holder other : SessionId} (held : id ∈ (flow.session holder).ids)
    (apart : other ≠ holder) : id ∉ (flow.session other).ids := by
  intro also
  have both := flow.count_add_count_le_pending apart id
  rw [Session.count_ids_of_mem held, Session.count_ids_of_mem also] at both
  have := once id
  omega

/-- A property is carried if it goes with coherent sessions and no id pending twice, and is
kept by whatever keeps the accounts, the sinks having received more perhaps. -/
theorem carried_of_step {property : Flow → Prop}
    (coherent : ∀ flow, property flow → flow.Coherent known)
    (once : ∀ flow, property flow → ∀ id, flow.pending id ≤ 1)
    (step : ∀ before after, property before → after.Coherent known →
      (∀ id, after.account id = before.account id) →
      (∀ id, before.receipts id ≤ after.receipts id) → property after) :
    Carried property where
  opened flow holds :=
    step _ _ holds ((carried_coherent known).opened flow (coherent _ holds))
      flow.account_opened fun _ => Nat.le_refl _
  pulled flow number count holds fresh :=
    step _ _ holds ((carried_coherent known).pulled flow number count (coherent _ holds) fresh)
      (account_pulled fresh) fun _ => Nat.le_refl _
  handed flow source target id current holds apart found := by
    have held : id ∈ (flow.session source).ids := Session.mem_ids_iff.2 ⟨current, found⟩
    exact step _ _ holds
      ((carried_coherent known).handed flow source target id current (coherent _ holds) apart
        found)
      (account_handed (held_once_of_pending (once _ holds) held apart.symm) apart found)
      fun _ => Nat.le_refl _
  routed flow number id relationship holds held isKnown := by
    have same : Session.ids { flow.session number with
        destinations := (flow.session number).destinations.put id relationship } =
      (flow.session number).ids := rfl
    exact step _ _ holds
      ((carried_coherent known).routed flow number id relationship (coherent _ holds) held
        isKnown)
      (account_setSession_of_ids same) fun _ => Nat.le_refl _
  updated flow number id current attributes holds found :=
    step _ _ holds
      ((carried_coherent known).updated flow number id current attributes (coherent _ holds)
        found)
      (account_setSession_of_ids (Session.ids_update (Session.mem_ids_iff.2 ⟨current, found⟩)))
      fun _ => Nat.le_refl _
  delivered flow number holds complete :=
    step _ _ holds
      ((carried_coherent known).delivered flow number (coherent _ holds) complete)
      (account_delivered (coherent _ holds) complete) (flow.receipts_delivered number)
  returned flow number holds :=
    step _ _ holds ((carried_coherent known).returned flow number (coherent _ holds))
      (account_returned (coherent _ holds)) fun _ => Nat.le_refl _

theorem carried_balanced (known : List String) (accounts : String → Nat) :
    Carried (Balanced known accounts) :=
  carried_of_step (fun _ => Balanced.coherent) (fun _ => Balanced.once)
    fun _ _ => Balanced.step

/-- The sessions are coherent, and what is pending are ids of a list, each as often at
most as it stands there. -/
structure Outstanding (known ids : List String) (flow : Flow) : Prop where
  coherent : flow.Coherent known
  among : ∀ id, flow.pending id ≤ ids.count id

namespace Outstanding

variable {ids : List String}

theorem start {source : List Item} (sinks : Table String (List Item)) :
    Outstanding sinks.keys (source.map Item.id) { source, sinks } where
  coherent := ⟨rfl, fun _ => Session.coherent_default⟩
  among _ := Nat.le_refl _

theorem once (outstanding : flow.Outstanding known ids) (distinct : ids.Nodup) (id : String) :
    flow.pending id ≤ 1 :=
  Nat.le_trans (outstanding.among id) (List.nodup_iff_count_le_one.1 distinct id)

/-- What waits is not held. -/
theorem not_held (outstanding : flow.Outstanding known ids) (distinct : ids.Nodup) {id : String}
    (waits : id ∈ flow.source.map Item.id) (number : SessionId) :
    id ∉ (flow.session number).ids := by
  intro held
  have waiting := List.count_pos_iff.2 waits
  have total : (flow.session number).ids.count id ≤ _ :=
    flow.sessions.measure_le_total number (fun session => session.ids.count id) rfl
  rw [Session.count_ids_of_mem held] at total
  have once := outstanding.once distinct id
  unfold pending at once
  omega

theorem put (outstanding : flow.Outstanding known ids) (items : List Item) :
    Outstanding known (ids ++ items.map Item.id)
      { flow with source := flow.source ++ items } where
  coherent := ⟨outstanding.coherent.sinks, outstanding.coherent.sessions⟩
  among id := by
    have before := outstanding.among id
    unfold pending at before ⊢
    dsimp only
    rw [List.map_append, List.count_append, List.count_append]
    omega

end Outstanding

theorem carried_outstanding (known : List String) {ids : List String} (distinct : ids.Nodup) :
    Carried (Outstanding known ids) :=
  carried_of_step (fun _ => Outstanding.coherent) (fun _ holds => holds.once distinct)
    fun before after holds coherent same received => {
      coherent
      among := fun id => by
        have now := same id
        rw [account_eq, account_eq] at now
        have := received id
        have := holds.among id
        omega }

theorem single_balanced (known : List String) (accounts : String → Nat) :
    Single known (Balanced known accounts) where
  carried := carried_balanced known accounts
  coherent _ balanced := balanced.coherent
  source flow balanced := List.nodup_iff_count_le_one.2 fun id =>
    Nat.le_trans (flow.count_source_le_pending id) (balanced.once id)
  held _ _ _ _ balanced held apart := held_once_of_pending balanced.once held apart

/-- The accounts are as in a past flow, sinks begin with what they had received there, and
what waits is allowed to. -/
def Since (known : List String) (past : Flow) (allowed : Item → Prop) (flow : Flow) : Prop :=
  (flow.Balanced known past.account ∧ flow.Extends past.sinks) ∧
    flow.Coherent known ∧ flow.Upstream allowed

theorem single_since (known : List String) (past : Flow) (allowed : Item → Prop) :
    Single known (Since known past allowed) :=
  ((single_balanced known _).and (carried_extends _)).and (carried_upstream known allowed)

theorem since_start {source : List Item} (distinct : (source.map Item.id).Nodup)
    (relationships : List String) {allowed : Item → Prop}
    (allAllowed : ∀ item ∈ source, allowed item) :
    Since (sinksFor relationships).keys { source, sinks := sinksFor relationships } allowed
      { source, sinks := sinksFor relationships } :=
  have balanced := balanced_start distinct relationships
  ⟨⟨balanced, extends_refl _⟩, balanced.coherent, allAllowed, fun _ _ _ => nofun⟩

end ItemBinning.Flow
