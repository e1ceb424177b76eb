import ItemBinning.Proofs.Flow.Operations

/-!
# Where the operations of a flow bring items

An operation brings items into the session that it names as its target and into no
other.  Routing, annotating, delivering and returning bring none anywhere, and a
session that delivered or returned its items holds nothing any more.
-/

namespace ItemBinning.Flow

/-- No session outside the list holds an item that it did not hold before. -/
def Gains (targets : List SessionId) (before after : Flow) : Prop :=
  ∀ session ∉ targets, ∀ id ∈ (after.session session).ids,
    id ∈ (before.session session).ids

theorem Gains.refl (targets : List SessionId) (flow : Flow) : Gains targets flow flow :=
  fun _ _ _ => id

variable {targets : List SessionId}

theorem Gains.trans {first second third : Flow} (gainsFirst : Gains targets first second)
    (gainsSecond : Gains targets second third) : Gains targets first third :=
  fun session outside id held =>
    gainsFirst session outside id (gainsSecond session outside id held)

theorem gains_setSession {flow : Flow} {number : SessionId} {session : Session}
    (within : number ∉ targets → session.ids ⊆ (flow.session number).ids) :
    Gains targets flow (flow.setSession number session) := by
  intro other outside id held
  rw [session_setSession] at held
  split at held
  · rename_i same
    subst same
    exact within outside held
  · exact held

theorem gains_handed {flow : Flow} {source target : SessionId} {id : String}
    {current : Item} (isTarget : target ∈ targets) :
    Gains targets flow (flow.handed source target id current) := by
  unfold handed
  refine Gains.trans (gains_setSession fun _ => ?_)
    (gains_setSession fun outside => absurd isTarget outside)
  intro other held
  exact (Session.mem_ids_release.1 held).1

theorem migrate_gains (start : Flow) (source target : SessionId) (items : List Item)
    (isTarget : target ∈ targets) :
    (migrate source target items).Keeps (Gains targets start) := by
  unfold migrate
  split
  · exact Act.Keeps.pure ()
  · refine Act.Keeps.forEach fun item _ => Act.Keeps.of_final fun flow gains => ?_
    rcases handOver_cases source target item flow with ⟨_, run⟩ | ⟨current, _, run⟩ <;>
      rw [run]
    · exact gains
    · exact gains.trans (gains_handed isTarget)

theorem pull_gains (start : Flow) (number : SessionId) (count : Int)
    (isTarget : number ∈ targets) : (pull number count).Keeps (Gains targets start) := by
  apply Act.Keeps.of_final
  intro flow gains
  rcases pull_cases number count flow with ⟨_, run⟩ | ⟨_, run⟩ <;> rw [run]
  · exact gains
  · apply gains.trans
    exact @gains_setSession targets { flow with source := flow.source.drop count.toNat }
      number _ fun outside => absurd isTarget outside

theorem openSession_gains (start : Flow) : openSession.Keeps (Gains targets start) := by
  apply Act.Keeps.of_final
  intro flow gains session outside id held
  rw [openSession_eq, session_push] at held
  exact gains session outside id held

theorem route_gains (start : Flow) (number : SessionId) (items : List Item)
    (relationship : String) :
    (route number items relationship).Keeps (Gains targets start) := by
  refine (Act.Keeps.read _).bind fun known => ?_
  split
  · refine Act.Keeps.forEach fun item _ => Act.Keeps.of_final fun flow gains => ?_
    rcases routeOne_cases number relationship item flow with ⟨_, run⟩ | ⟨_, run⟩ <;> rw [run]
    · exact gains
    · exact gains.trans (gains_setSession fun _ => List.Subset.refl _)
  · exact Act.Keeps.fail _

theorem annotate_gains (start : Flow) (number : SessionId) (item : Item)
    (attributes : Attributes) :
    (annotate number item attributes).Keeps (Gains targets start) := by
  apply Act.Keeps.of_final
  intro flow gains
  rcases annotate_cases number item attributes flow with ⟨_, run⟩ | ⟨current, found, run⟩ <;>
    rw [run]
  · exact gains
  · refine gains.trans (gains_setSession fun _ => ?_)
    rw [Session.ids_update (Session.mem_ids_iff.2 ⟨current, found⟩)]
    exact List.Subset.refl _

theorem gains_delivered (flow : Flow) (number : SessionId) :
    Gains targets flow (flow.delivered number) := by
  exact @gains_setSession targets { flow with sinks := _ } number _
    fun _ => List.nil_subset _

theorem gains_returned (flow : Flow) (number : SessionId) :
    Gains targets flow (flow.returned number) := by
  exact @gains_setSession targets { flow with source := _ } number _
    fun _ => List.nil_subset _

theorem session_delivered_of_ne (flow : Flow) {number other : SessionId}
    (differs : other ≠ number) : (flow.delivered number).session other = flow.session other := by
  unfold delivered
  rw [session_setSession, if_neg differs]
  rfl

theorem session_returned_of_ne (flow : Flow) {number other : SessionId}
    (differs : other ≠ number) : (flow.returned number).session other = flow.session other := by
  unfold returned
  rw [session_setSession, if_neg differs]
  rfl

@[simp] theorem ids_delivered (flow : Flow) (number : SessionId) :
    ((flow.delivered number).session number).ids = [] := by
  unfold delivered
  rw [session_setSession, if_pos rfl]
  rfl

@[simp] theorem ids_returned (flow : Flow) (number : SessionId) :
    ((flow.returned number).session number).ids = [] := by
  unfold returned
  rw [session_setSession, if_pos rfl]
  rfl

theorem commit_gains (start : Flow) (number : SessionId) :
    (commit number).Keeps (Gains targets start) := by
  apply Act.Keeps.of_final
  intro flow gains
  rcases commit_cases number flow with ⟨_, run⟩ | ⟨_, run⟩ <;> rw [run]
  · exact gains
  · exact gains.trans (gains_delivered flow number)

theorem rollBack_gains (start : Flow) (number : SessionId) :
    (rollBack number).Keeps (Gains targets start) := by
  apply Act.Keeps.of_final
  intro flow gains
  rw [rollBack_eq]
  exact gains.trans (gains_returned flow number)

/-- Pulling by a count of any kind takes the first items or changes nothing. -/
theorem pullValue_cases (number : SessionId) (count : Value) (flow : Flow) :
    (∃ fault, pullValue number count flow = (.error fault, flow)) ∨
      ∃ wanted : Int, countOf count flow.source.length = .ok wanted ∧
        firstRepeated (flow.session number).ids
          (flow.source.take wanted.toNat) = none ∧
        pullValue number count flow = (.ok (flow.source.take wanted.toNat),
          Flow.setSession { flow with source := flow.source.drop wanted.toNat } number
            ((flow.session number).receivePulled (flow.source.take wanted.toNat))) := by
  unfold pullValue
  rw [Act.read_bind]
  rcases counted : countOf count flow.source.length with fault | wanted
  · exact .inl ⟨fault, rfl⟩
  · rw [Act.bind_of_ok (rfl : Act.ofExcept (.ok wanted) flow = (.ok wanted, flow))]
    rcases pull_cases number wanted flow with ⟨id, run⟩ | ⟨distinct, run⟩
    · exact .inl ⟨_, run⟩
    · exact .inr ⟨wanted, rfl, distinct, run⟩

theorem pullValue_gains (start : Flow) (number : SessionId) (count : Value)
    (isTarget : number ∈ targets) :
    (pullValue number count).Keeps (Gains targets start) :=
  (Act.Keeps.read _).bind fun _ => (Act.Keeps.ofExcept _).bind fun _ =>
    pull_gains start number _ isTarget

/-- Every fault of a route is one of a session. -/
theorem route_faults (number : SessionId) (items : List Item) (relationship : String) :
    (route number items relationship).Meets (fun _ => True) (fun _ _ => True)
      fun fault _ => fault.kind = .session := by
  have known : (Act.read fun flow : Flow => flow.sinks.contains relationship).Meets
      (fun _ => True) (fun _ _ => True) fun fault _ => fault.kind = .session :=
    Act.Meets.read fun _ _ => trivial
  apply known.bind
  intro known
  split
  · refine Act.Meets.forEach fun item _ => Act.Meets.of_runs (fun _ _ _ _ _ => trivial) ?_
    intro flow fault reached _ run
    rcases routeOne_cases number relationship item flow with ⟨_, failed⟩ | ⟨_, routed⟩
    · rw [failed] at run
      cases run
      rfl
    · rw [routed] at run
      cases run
  · exact Act.Meets.fail fun _ _ => rfl

/-- A delivery that succeeds empties the session, and every fault of one is one of a
session. -/
theorem commit_faults (number : SessionId) :
    (commit number).Meets (fun _ => True)
      (fun _ flow => (flow.session number).ids = [])
      fun fault _ => fault.kind = .session := by
  refine Act.Meets.of_runs ?_ ?_
  · intro flow _ reached _ run
    rcases commit_cases number flow with ⟨_, failed⟩ | ⟨_, committed⟩
    · rw [failed] at run
      cases run
    · rw [committed] at run
      cases run
      exact ids_delivered flow number
  · intro flow fault reached _ run
    rcases commit_cases number flow with ⟨_, failed⟩ | ⟨_, committed⟩
    · rw [failed] at run
      cases run
      rfl
    · rw [committed] at run
      cases run

end ItemBinning.Flow
