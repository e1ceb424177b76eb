import ItemBinning.Proofs.Flow.Handover

/-!
# The passage of one item

An item that a session holds can always be handed to another session.  It is the only
item that anything changes for, and its two sessions are the only ones that change.
-/

namespace ItemBinning

namespace Session

/-- What a session keeps of an item: its current version, the version that was pulled, and
where it is routed to. -/
def entry (session : Session) (id : String) : Option Item × Option Item × Option String :=
  (session.current.find? id, session.pulled.find? id, session.destinations.find? id)

variable {session : Session} {id other : String}

theorem entry_release (differs : other ≠ id) :
    (session.release id).entry other = session.entry other := by
  unfold release entry
  simp only [Table.find?_erase, if_neg differs]

theorem entry_receive (differs : other ≠ id) (current pulled : Item)
    (destination : Option String) :
    (session.receive id current pulled destination).entry other = session.entry other := by
  unfold receive entry
  cases destination <;> simp only [Table.find?_put, if_neg differs]

theorem mem_ids_of_entry {session later : Session} (same : later.entry id = session.entry id) :
    id ∈ later.ids ↔ id ∈ session.ids := by
  rw [mem_ids_iff, mem_ids_iff, show later.current.find? id = session.current.find? id from
    congrArg Prod.fst same]

end Session

namespace Flow

/-- No item moved, though sessions may have been opened. -/
structure Unmoved (before after : Flow) : Prop where
  session : ∀ number, after.session number = before.session number
  source : after.source = before.source
  sinks : after.sinks = before.sinks

theorem Unmoved.refl (flow : Flow) : flow.Unmoved flow :=
  ⟨fun _ => rfl, rfl, rfl⟩

theorem Unmoved.trans {first second third : Flow} (unmovedFirst : first.Unmoved second)
    (unmovedSecond : second.Unmoved third) : first.Unmoved third where
  session number := (unmovedSecond.session number).trans (unmovedFirst.session number)
  source := unmovedSecond.source.trans unmovedFirst.source
  sinks := unmovedSecond.sinks.trans unmovedFirst.sinks

theorem unmoved_push (flow : Flow) :
    flow.Unmoved { flow with sessions := flow.sessions.push {} } :=
  ⟨session_push flow, rfl, rfl⟩

/-- An item passed from one session to another, or stayed where both are the same. -/
structure Passes (id : String) (giver taker : SessionId) (before after : Flow) : Prop where
  /-- The taker holds the version that the giver held. -/
  held : ∃ current, (before.session giver).current.find? id = some current ∧
    (after.session taker).current.find? id = some current
  gone : taker ≠ giver → id ∉ (after.session giver).ids
  entries : ∀ number, ∀ other ≠ id,
    (after.session number).entry other = (before.session number).entry other
  others : ∀ number, number ≠ giver → number ≠ taker →
    after.session number = before.session number
  source : after.source = before.source
  sinks : after.sinks = before.sinks

variable {id : String} {giver taker : SessionId}

theorem Unmoved.passes {before between after : Flow} (unmoved : before.Unmoved between)
    (passes : Passes id giver taker between after) : Passes id giver taker before after where
  held := by
    obtain ⟨current, found, given⟩ := passes.held
    exact ⟨current, unmoved.session giver ▸ found, given⟩
  gone := passes.gone
  entries number other differs := by
    rw [passes.entries number other differs, unmoved.session]
  others number notGiver notTaker := by
    rw [passes.others number notGiver notTaker, unmoved.session]
  source := passes.source.trans unmoved.source
  sinks := passes.sinks.trans unmoved.sinks

theorem passes_handed {flow : Flow} {current : Item} (apart : giver ≠ taker)
    (found : (flow.session giver).current.find? id = some current) :
    Passes id giver taker flow (flow.handed giver taker id current) where
  held := by
    refine ⟨current, found, ?_⟩
    rw [current_handed_target apart, Table.find?_put, if_pos rfl]
  gone _ held := by
    rw [session_handed_source apart, Session.mem_ids_release] at held
    exact held.2 rfl
  entries number other differs := by
    by_cases isGiver : number = giver
    · rw [isGiver, session_handed_source apart, Session.entry_release differs]
    by_cases isTaker : number = taker
    · unfold handed
      dsimp only
      rw [isTaker, session_setSession, if_pos rfl, Session.entry_receive differs,
        session_setSession, if_neg apart.symm]
    · rw [session_handed_of_ne isGiver isTaker]
  others _ := session_handed_of_ne
  source := rfl
  sinks := rfl

/-- An item that its session holds can be handed over. -/
theorem migrate_passes {flow : Flow} {item : Item} (giver taker : SessionId)
    (held : item.id ∈ (flow.session giver).ids) :
    ∃ after, migrate giver taker [item] flow = (.ok (), after) ∧
      Passes item.id giver taker flow after := by
  by_cases same : giver = taker
  · obtain ⟨current, found⟩ := Session.mem_ids_iff.1 held
    refine ⟨flow, ?_, ⟨current, found, same ▸ found⟩, fun differs => absurd same.symm differs,
      fun _ _ _ => rfl, fun _ _ _ => rfl, rfl, rfl⟩
    unfold migrate
    rw [if_pos same]
    rfl
  · rcases migrate_one_cases same item flow with ⟨absent, _⟩ | ⟨current, found, run⟩
    · exact absurd held absent
    · exact ⟨_, run, passes_handed same found⟩

end Flow

end ItemBinning
