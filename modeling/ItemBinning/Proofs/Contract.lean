import ItemBinning.Act

/-!
# Contracts of acts

A contract says where an act leads from the states of one kind: to which states
with an answer, and to which with a fault.  Every way of composing acts has a
rule that composes their contracts, so that the contract of a long act is put
together from those of its parts without carrying it out.
-/

namespace ItemBinning.Act

variable {σ τ α β : Type}

theorem read_bind (part : σ → α) (next : α → Act σ β) (state : σ) :
    (Act.read part >>= next) state = next (part state) state :=
  rfl

/-- A composed act that answers got an answer from its first part. -/
theorem bind_eq_ok {act : Act σ α} {next : α → Act σ β} {state after : σ} {answer : β}
    (run : (act >>= next) state = (.ok answer, after)) :
    ∃ value reached, act state = (.ok value, reached) ∧
      next value reached = (.ok answer, after) := by
  rcases first : act state with ⟨fault | value, reached⟩
  · rw [bind_of_error first] at run
    cases run
  · rw [bind_of_ok first] at run
    exact ⟨value, reached, rfl, run⟩

/-- A composed act fails in its first part, or after it in its second. -/
theorem bind_eq_error_iff {act : Act σ α} {next : α → Act σ β} {state after : σ}
    {fault : Fault} :
    (act >>= next) state = (.error fault, after) ↔
      act state = (.error fault, after) ∨
        ∃ value reached, act state = (.ok value, reached) ∧
          next value reached = (.error fault, after) := by
  rcases first : act state with ⟨other | value, reached⟩
  · rw [bind_of_error first]
    constructor
    · rintro ⟨⟩
      exact .inl rfl
    · rintro (⟨⟨⟩⟩ | ⟨_, _, ⟨⟩, _⟩)
      rfl
  · rw [bind_of_ok first]
    constructor
    · exact fun later => .inr ⟨value, reached, rfl, later⟩
    · rintro (⟨⟨⟩⟩ | ⟨_, _, ⟨⟩, later⟩)
      exact later

/-- From every state of the first kind the act either answers and reaches a
state that suits the answer, or fails and reaches one that suits the fault. -/
def Meets (before : σ → Prop) (act : Act σ α) (answered : α → σ → Prop)
    (failed : Fault → σ → Prop) : Prop :=
  ∀ state, before state →
    match act state with
    | (.ok answer, reached) => answered answer reached
    | (.error fault, reached) => failed fault reached

/-- The act stays among the states of a kind, whether it answers or fails. -/
def Keeps (kept : σ → Prop) (act : Act σ α) : Prop :=
  act.Meets kept (fun _ => kept) fun _ => kept

variable {before : σ → Prop} {answered : α → σ → Prop}
  {failed : Fault → σ → Prop} {kept : σ → Prop} {act : Act σ α}

theorem Meets.outcome (contract : act.Meets before answered failed)
    {state : σ} (holds : before state) :
    (∃ answer reached, act state = (.ok answer, reached) ∧
        answered answer reached) ∨
      ∃ fault reached, act state = (.error fault, reached) ∧
        failed fault reached := by
  have suits := contract state holds
  rcases run : act state with ⟨answer | fault, reached⟩
  · rw [run] at suits
    exact .inr ⟨_, reached, rfl, suits⟩
  · rw [run] at suits
    exact .inl ⟨_, reached, rfl, suits⟩

theorem Meets.of_ok (contract : act.Meets before answered failed)
    {state reached : σ} {answer : α} (holds : before state)
    (run : act state = (.ok answer, reached)) : answered answer reached := by
  have suits := contract state holds
  rwa [run] at suits

theorem Meets.of_error (contract : act.Meets before answered failed)
    {state reached : σ} {fault : Fault} (holds : before state)
    (run : act state = (.error fault, reached)) : failed fault reached := by
  have suits := contract state holds
  rwa [run] at suits

/-- A contract holds if it holds of each run by its outcome. -/
theorem Meets.of_runs
    (ok : ∀ state answer reached, before state →
      act state = (.ok answer, reached) → answered answer reached)
    (error : ∀ state fault reached, before state →
      act state = (.error fault, reached) → failed fault reached) :
    act.Meets before answered failed := by
  intro state holds
  rcases run : act state with ⟨fault | answer, reached⟩
  · exact error state fault reached holds run
  · exact ok state answer reached holds run

theorem Meets.final {after : σ → Prop}
    (contract : act.Meets before (fun _ => after) fun _ => after) {state : σ}
    (holds : before state) : after (act state).2 := by
  rcases contract.outcome holds with ⟨_, _, run, suits⟩ | ⟨_, _, run, suits⟩ <;>
    rw [run] <;> exact suits

theorem Keeps.final (keeps : act.Keeps kept) {state : σ} (holds : kept state) :
    kept (act.final state) :=
  Meets.final keeps holds

/-- A contract that does not mind whether the act answers is one about the state
that the act reaches. -/
theorem Meets.of_final {after : σ → Prop}
    (final : ∀ state, before state → after (act state).2) :
    act.Meets before (fun _ => after) fun _ => after := by
  refine Meets.of_runs ?_ ?_
  all_goals
    intro state _ _ holds run
    have suits := final state holds
    rwa [run] at suits

theorem Keeps.of_final (final : ∀ state, kept state → kept (act state).2) :
    act.Keeps kept :=
  Meets.of_final final

/-- What the act keeps holds where it leads with an answer, whatever its faults lead to. -/
theorem Keeps.answering (keeps : act.Keeps kept) :
    act.Meets kept (fun _ => kept) fun _ _ => True :=
  Meets.of_runs (fun _ _ _ holds run => Meets.of_ok keeps holds run) fun _ _ _ _ _ => trivial

theorem Meets.anything : act.Meets before (fun _ _ => True) fun _ _ => True :=
  Meets.of_final fun _ _ => trivial

theorem Meets.weaken (contract : act.Meets before answered failed)
    {before' : σ → Prop} {answered' : α → σ → Prop}
    {failed' : Fault → σ → Prop}
    (asks : ∀ state, before' state → before state)
    (answers : ∀ answer state, answered answer state → answered' answer state)
    (fails : ∀ fault state, failed fault state → failed' fault state) :
    act.Meets before' answered' failed' := by
  refine Meets.of_runs ?_ ?_
  · intro state answer reached holds run
    exact answers _ _ (contract.of_ok (asks _ holds) run)
  · intro state fault reached holds run
    exact fails _ _ (contract.of_error (asks _ holds) run)

/-- A contract may say less of where the act fails. -/
theorem Meets.failing (contract : act.Meets before answered failed)
    {failed' : Fault → σ → Prop}
    (fails : ∀ fault state, failed fault state → failed' fault state) :
    act.Meets before answered failed' :=
  contract.weaken (fun _ => id) (fun _ _ => id) fails

/-- What is known of an answer, whatever the state, may be used by what follows. -/
theorem Meets.knowing {fact : Prop} (contract : fact → act.Meets before answered failed) :
    act.Meets (fun state => before state ∧ fact) answered failed :=
  fun state holds => contract holds.2 state holds.1

theorem Meets.and (contract : act.Meets before answered failed)
    {answered' : α → σ → Prop} {failed' : Fault → σ → Prop}
    (other : act.Meets before answered' failed') :
    act.Meets before (fun answer state => answered answer state ∧ answered' answer state)
      fun fault state => failed fault state ∧ failed' fault state :=
  Meets.of_runs
    (fun _ _ _ holds run => ⟨contract.of_ok holds run, other.of_ok holds run⟩)
    fun _ _ _ holds run => ⟨contract.of_error holds run, other.of_error holds run⟩

theorem Meets.both (contract : act.Meets before answered failed) {before' : σ → Prop}
    {answered' : α → σ → Prop} {failed' : Fault → σ → Prop}
    (other : act.Meets before' answered' failed') :
    act.Meets (fun state => before state ∧ before' state)
      (fun answer state => answered answer state ∧ answered' answer state)
      fun fault state => failed fault state ∧ failed' fault state :=
  (contract.weaken (fun _ => And.left) (fun _ _ => id) fun _ _ => id).and
    (other.weaken (fun _ => And.right) (fun _ _ => id) fun _ _ => id)

/-- What the act keeps also holds where a contract on one state leads to. -/
theorem Meets.keeping {start : σ} (contract : act.Meets (· = start) answered failed)
    (keeps : act.Keeps kept) (holds : kept start) :
    act.Meets (· = start) (fun answer state => answered answer state ∧ kept state) failed := by
  have both := contract.and (keeps.weaken (fun _ same => same ▸ holds) (fun _ _ => id)
    fun _ _ => id)
  exact both.weaken (fun _ => id) (fun _ _ => id) fun _ _ => And.left

theorem Meets.pure {value : α} (suits : ∀ state, before state → answered value state) :
    Meets before (pure value : Act σ α) answered failed :=
  fun state holds => suits state holds

theorem Meets.fail {fault : Fault} (suits : ∀ state, before state → failed fault state) :
    Meets before (fail fault : Act σ α) answered failed :=
  fun state holds => suits state holds

theorem Meets.modify {change : σ → σ} {answered : Unit → σ → Prop}
    (suits : ∀ state, before state → answered () (change state)) :
    Meets before (modify change) answered failed :=
  fun state holds => suits state holds

theorem Meets.look {answer : σ → Except Fault α}
    (ok : ∀ state value, before state → answer state = .ok value →
      answered value state)
    (error : ∀ state fault, before state → answer state = .error fault →
      failed fault state) :
    Meets before (fun state => (answer state, state)) answered failed := by
  refine Meets.of_runs ?_ ?_
  all_goals
    intro state _ _ holds run
    obtain ⟨known, rfl⟩ := Prod.mk.inj run
  · exact ok state _ holds known
  · exact error state _ holds known

theorem Meets.read {part : σ → α}
    (suits : ∀ state, before state → answered (part state) state) :
    Meets before (read part) answered failed :=
  fun state holds => suits state holds

theorem Meets.bind {between : α → σ → Prop} {next : α → Act σ β}
    {answered : β → σ → Prop} (first : act.Meets before between failed)
    (second : ∀ answer, (next answer).Meets (between answer) answered failed) :
    (act >>= next).Meets before answered failed := by
  intro state holds
  rcases first.outcome holds with ⟨answer, reached, run, suits⟩ | ⟨fault, reached, run, suits⟩
  · rw [bind_of_ok run]
    exact second answer reached suits
  · rw [bind_of_error run]
    exact suits

/-- What is read of one state is what follows from it. -/
theorem Meets.reading {part : σ → α} {next : α → Act σ β} {start : σ}
    {answered : β → σ → Prop}
    (contract : (next (part start)).Meets (· = start) answered failed) :
    (Act.read part >>= next).Meets (· = start) answered failed := by
  rintro _ rfl
  rw [read_bind]
  exact contract _ rfl

theorem Keeps.bind {next : α → Act σ β} (first : act.Keeps kept)
    (second : ∀ answer, (next answer).Keeps kept) : (act >>= next).Keeps kept :=
  Meets.bind first second

theorem Keeps.pure (value : α) : (Pure.pure value : Act σ α).Keeps kept :=
  Meets.pure fun _ => id

theorem Keeps.fail (fault : Fault) : (Act.fail fault : Act σ α).Keeps kept :=
  Meets.fail fun _ => id

theorem Keeps.read (part : σ → α) : (Act.read part).Keeps kept :=
  Meets.read fun _ => id

theorem Keeps.look (answer : σ → Except Fault α) :
    Keeps kept (fun state => (answer state, state) : Act σ α) :=
  Meets.look (fun _ _ holds _ => holds) fun _ _ holds _ => holds

theorem Keeps.ofExcept (result : Except Fault α) : (Act.ofExcept result : Act σ α).Keeps kept :=
  Keeps.look _

theorem attempt_eq {state reached : σ} {outcome : Except Fault α}
    (run : act state = (outcome, reached)) :
    attempt act state = (.ok outcome, reached) := by
  simp only [attempt, run]

/-- An attempt never fails; it answers with what became of the act. -/
theorem Meets.attempt (contract : act.Meets before answered failed)
    {never : Fault → σ → Prop} :
    (attempt act).Meets before
      (fun outcome state =>
        match outcome with
        | .ok answer => answered answer state
        | .error fault => failed fault state)
      never := by
  intro state holds
  have suits := contract state holds
  rcases run : act state with ⟨fault | answer, reached⟩ <;>
    simp only [Act.attempt, run] at suits ⊢ <;> exact suits

theorem Keeps.attempt (keeps : act.Keeps kept) : (attempt act).Keeps kept := by
  refine (Meets.attempt keeps).weaken (fun _ => id) ?_ fun _ _ => id
  intro outcome state suits
  cases outcome <;> exact suits

/-- What every step keeps, the acts for a whole list keep. -/
theorem Meets.forEach {elements : List β} {step : β → Act σ Unit}
    (steps : ∀ element ∈ elements, (step element).Meets kept (fun _ => kept) failed) :
    (forEach elements step).Meets kept (fun _ => kept) failed := by
  induction elements with
  | nil => exact Meets.pure fun _ => id
  | cons first rest ih =>
      refine Meets.bind (steps first (by simp)) fun _ => ih ?_
      intro element member
      exact steps element (List.mem_cons_of_mem _ member)

theorem Keeps.forEach {elements : List β} {step : β → Act σ Unit}
    (steps : ∀ element ∈ elements, (step element).Keeps kept) :
    (Act.forEach elements step).Keeps kept :=
  Meets.forEach steps

end ItemBinning.Act
