import ItemBinning.Fault

/-!
# Acts

An act works on a state and either answers or fails.  Whatever it did to the
state before it failed stays done, so the state it reached is returned in both
cases.
-/

namespace ItemBinning

/-- A step over a state that answers or fails, and keeps the state it reached. -/
def Act (σ α : Type) : Type := σ → Except Fault α × σ

namespace Act

variable {σ τ α β : Type}

def run (act : Act σ α) (state : σ) : Except Fault α × σ := act state

def final (act : Act σ α) (state : σ) : σ := (act state).2

instance : Monad (Act σ) where
  pure value := fun state => (.ok value, state)
  bind act next := fun state =>
    match act state with
    | (.ok value, reached) => next value reached
    | (.error fault, reached) => (.error fault, reached)

instance : Inhabited (Act σ α) := ⟨fun state => (.error default, state)⟩

def fail (fault : Fault) : Act σ α := fun state => (.error fault, state)

/-- Answer with a result that was computed without the state. -/
def ofExcept (result : Except Fault α) : Act σ α := fun state => (result, state)

def get : Act σ σ := fun state => (.ok state, state)

def read (part : σ → α) : Act σ α := fun state => (.ok (part state), state)

def modify (change : σ → σ) : Act σ Unit := fun state => (.ok (), change state)

/-- Carry an act out and answer with its outcome, be it a fault. -/
def attempt (act : Act σ α) : Act σ (Except Fault α) := fun state =>
  match act state with
  | (outcome, reached) => (.ok outcome, reached)

/-- Carry an act out on a part of the state. -/
def within (part : τ → σ) (replace : τ → σ → τ) (act : Act σ α) : Act τ α :=
  fun state =>
    match act (part state) with
    | (outcome, reached) => (outcome, replace state reached)

/-- Carry an act out for each element of a list, until one fails. -/
def forEach (elements : List α) (step : α → Act σ Unit) : Act σ Unit :=
  match elements with
  | [] => pure ()
  | first :: rest => do
      step first
      forEach rest step

@[simp] theorem pure_apply (value : α) (state : σ) :
    (pure value : Act σ α) state = (.ok value, state) :=
  rfl

theorem bind_apply (act : Act σ α) (next : α → Act σ β) (state : σ) :
    (act >>= next) state =
      match act state with
      | (.ok value, reached) => next value reached
      | (.error fault, reached) => (.error fault, reached) :=
  rfl

/-- After an act that answered, the next one runs from the state reached. -/
theorem bind_of_ok {act : Act σ α} {state reached : σ} {value : α}
    (answered : act state = (.ok value, reached)) (next : α → Act σ β) :
    (act >>= next) state = next value reached := by
  rw [bind_apply, answered]

/-- After an act that failed, the next one does not run. -/
theorem bind_of_error {act : Act σ α} {state reached : σ} {fault : Fault}
    (failed : act state = (.error fault, reached)) (next : α → Act σ β) :
    (act >>= next) state = (.error fault, reached) := by
  rw [bind_apply, failed]

instance : LawfulMonad (Act σ) :=
  LawfulMonad.mk' _
    (fun act => by
      funext state
      simp only [Functor.map]
      rcases act state with ⟨outcome, reached⟩
      cases outcome <;> rfl)
    (fun _ _ => rfl)
    (fun act _ _ => by
      funext state
      simp only [bind]
      rcases act state with ⟨outcome, reached⟩
      cases outcome <;> rfl)

end Act

end ItemBinning
