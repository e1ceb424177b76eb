import Mathlib.Logic.Relation
import ItemBinning.Proofs.Contract
import ItemBinning.Scheduler

/-!
# The life of a scheduler

A scheduler is started and stopped any number of times, from anywhere, while its threads
run activations and, once it is stopped, exit one by one.  The running flag, the number of
live threads and the marker of a pending reset tell at every time which threads are alive
and whether the depot is still to be reset: threads of two runs are never alive together,
and a run is reset once, when its last thread is gone.  A stop whose time-out cannot be
waited for ends the run all the same, and then nobody resets it.
-/

namespace ItemBinning

theorem Number.isZero_int (value : Int) : (int value).isZero = decide (value = 0) := by
  unfold isZero
  rw [compare?_int, Int.compare_eq_ite_le]
  grind

/-- What decides about starts, exits and resets, and how many resets there were. -/
structure Life where
  running : Bool
  live : Number
  resetPending : Bool
  resets : Nat

namespace Schedule

def life (schedule : Schedule) : Life where
  running := schedule.running
  live := schedule.live
  resetPending := schedule.resetPending
  resets := schedule.resets

section SameLife

variable {life : Life}

theorem modify_life {change : Schedule → Schedule}
    (same : ∀ schedule, (change schedule).life = schedule.life) :
    (Act.modify change).Keeps (·.life = life) :=
  Act.Keeps.of_final fun schedule before => (same schedule).trans before

theorem onDepot_life {α : Type} (act : Act Depot α) : (onDepot act).Keeps (·.life = life) :=
  Act.Keeps.of_final fun _ before => before

theorem record_life (activation : Activation) : (record activation).Keeps (·.life = life) :=
  modify_life fun _ => rfl

theorem recordError_life : recordError.Keeps (·.life = life) :=
  modify_life fun _ => rfl

end SameLife

/-- The last thread that exits carries out the reset that was left to it. -/
theorem life_exitThread {schedule : Schedule} {others : Nat}
    (live : schedule.live = .int (others + 1)) :
    (exitThread.final schedule).life =
      if others = 0 ∧ schedule.resetPending = true then
        { schedule.life with live := .int 0, resetPending := false, resets := schedule.resets + 1 }
      else { schedule.life with live := .int others } := by
  have exits : (Act.modify fun schedule => { schedule with live := withoutOne schedule.live })
      schedule = (.ok (), { schedule with live := .int others }) := by
    change (Except.ok (), { schedule with live := withoutOne schedule.live }) = _
    rw [live, withoutOne, Int.add_sub_cancel]
  rw [Act.final, exitThread, Act.bind_of_ok exits, Act.read_bind]
  dsimp only
  rw [Number.isZero_int]
  by_cases isLast : others = 0 ∧ schedule.resetPending = true
  · obtain ⟨rfl, pending⟩ := isLast
    rw [pending]
    rfl
  · have goesOn : (decide ((others : Int) = 0) && schedule.resetPending) = false := by
      rw [Bool.eq_false_iff]
      simpa using isLast
    rw [if_neg isLast, goesOn]
    rfl

end Schedule

namespace Scheduler

open Schedule

variable {scheduler : Scheduler} {schedule : Schedule}

/-- One activation of a thread, with the answers of its schedule. -/
def turn (scheduler : Scheduler) (answers : List Bool) : Act Schedule Unit := do
  match ← Act.attempt (onDepot (scheduler.engine.activate answers)) with
  | .ok activation => record activation
  | .error _ => recordError

/-- The acts that run activations: a turn of a thread, one from outside, and the turns of a
thread until it rests or its processor waits. -/
inductive Activates (scheduler : Scheduler) : Act Schedule Unit → Prop
  | turn (answers : List Bool) : Activates scheduler (scheduler.turn answers)
  | once : Activates scheduler (do let _ ← scheduler.triggerOnce)
  | thread (leave : Bool) (bound : Nat) : Activates scheduler (scheduler.runThread leave bound)

theorem runThread_life {life : Life} (leave : Bool) (bound : Nat) :
    (scheduler.runThread leave bound).Keeps (·.life = life) := by
  induction bound with
  | zero => exact Act.Keeps.pure ()
  | succ bound ih =>
      refine (onDepot_life _).attempt.bind fun progress => ?_
      rcases progress with fault | finished | suspension
      · exact recordError_life
      · refine (record_life finished).bind fun _ => ?_
        split
        · exact Act.Keeps.pure ()
        · exact ih
      · exact modify_life fun _ => rfl

/-- Whatever an activation does to the depot, it concerns neither starts nor stops. -/
theorem Activates.life {act : Act Schedule Unit} (activates : scheduler.Activates act)
    (schedule : Schedule) : (act.final schedule).life = schedule.life := by
  have keeps : act.Keeps (·.life = schedule.life) := by
    cases activates with
    | turn answers =>
        refine (onDepot_life _).attempt.bind fun outcome => ?_
        cases outcome with
        | ok activation => exact record_life activation
        | error => exact recordError_life
    | once =>
        have triggers : scheduler.triggerOnce.Keeps (·.life = schedule.life) :=
          (onDepot_life _).bind fun activation =>
            (record_life activation).bind fun _ => Act.Keeps.pure _
        exact triggers.bind fun _ => Act.Keeps.pure ()
    | thread leave bound => exact runThread_life leave bound
  exact keeps.final rfl

theorem launchThreads_eq {tasks : Int} (whole : scheduler.threads? = some tasks)
    (policy : Policy) (schedule : Schedule) :
    scheduler.launchThreads policy schedule = (.ok (), { schedule with
      depot := (Depot.applyPolicy policy).final schedule.depot
      running := true
      live := .int tasks }) := by
  have number : scheduler.tasks.number? = some (.int tasks) := by
    unfold threads? at whole
    split at whole <;> cases whole
    assumption
  unfold launchThreads
  rw [number, whole]
  rfl

/-- A start is refused and changes nothing, or no thread was left and all of them are made. -/
theorem start_cases [Host] {tasks : Int} (whole : scheduler.threads? = some tasks)
    (schedule : Schedule) :
    (∃ fault, scheduler.start schedule = (.error fault, schedule)) ∨
      ∃ started, scheduler.start schedule = (.ok (), started) ∧ schedule.running = false ∧
        schedule.live.isZero = true ∧
        started.life = { schedule.life with running := true, live := .int tasks } := by
  rw [start, Act.read_bind]
  by_cases running : schedule.running = true
  · rw [if_pos running]
    exact .inl ⟨_, rfl⟩
  · rw [if_neg running, Act.read_bind]
    by_cases none : schedule.live.isZero = true
    · rw [if_pos none]
      rcases Policy.ofConfiguration scheduler.configuration scheduler.extra with fault | policy
      · exact .inl ⟨fault, rfl⟩
      · exact .inr ⟨_, launchThreads_eq whole policy schedule, Bool.eq_false_iff.2 running, none,
          rfl⟩
    · rw [if_neg none]
      exact .inl ⟨_, rfl⟩

/-- A stop has no effect on what is stopped. -/
theorem stop_of_stopped (stopped : schedule.running = false) (timeOut : Value)
    (survivors : Nat) : scheduler.stop timeOut survivors schedule = (.ok (), schedule) := by
  rw [stop, Act.read_bind, stopped]
  rfl

/-- A stop ends the run.  Where the time-out can be waited for, it resets the depot if no
thread is left, and leaves the reset to the last thread otherwise. -/
theorem life_stop {tasks : Int} (whole : scheduler.threads? = some tasks)
    (running : schedule.running = true) {threads survivors : Nat}
    (live : schedule.live = .int threads) (within : survivors ≤ threads) (timeOut : Value) :
    ((scheduler.stop timeOut survivors).final schedule).life =
      { running := false
        live := .int survivors
        resetPending := schedule.resetPending ||
          (checkTimeOut timeOut).isOk && decide (survivors ≠ 0)
        resets := schedule.resets +
          if (checkTimeOut timeOut).isOk ∧ survivors = 0 then 1 else 0 } := by
  have withdrawn : withdraw survivors schedule =
      (.ok (), { schedule with running := false, live := .int survivors }) := by
    change (Except.ok (), { schedule with running := false, live := left survivors schedule.live })
      = _
    rw [live, left, Int.min_eq_left (by omega)]
  rw [Act.final, stop, Act.read_bind, if_pos running, Act.bind_of_ok withdrawn, whole]
  rcases checkTimeOut timeOut with fault | ⟨⟩
  · cases schedule.resetPending <;> rfl
  · change ((if (Number.int survivors).isZero then resetDepot
      else Act.modify fun schedule => { schedule with resetPending := true } : Act Schedule Unit)
        { schedule with running := false, live := .int survivors }).2.life = _
    rw [Number.isZero_int]
    by_cases none : survivors = 0
    · subst none
      cases schedule.resetPending <;> rfl
    · rw [if_neg (by simpa using none), if_neg fun both => none both.2, decide_eq_true none]
      cases schedule.resetPending <;> rfl

/-- A scheduler under watch: its schedule, how often it was started, and the threads that
are alive, each known by the start that made it. -/
structure Watch where
  schedule : Schedule
  starts : Nat := 0
  threads : List Nat := []

namespace Watch

/-- The watch begins before the first start. -/
def fresh (depot : Depot) : Watch := { schedule := { depot } }

/-- The run is stopped, and some of its threads outlive the time-out. -/
def stopped (watch : Watch) (scheduler : Scheduler) (timeOut : Value) (survivors : List Nat) :
    Watch :=
  { watch with
    schedule := (scheduler.stop timeOut survivors.length).final watch.schedule
    threads := survivors }

/-- A start made its threads. -/
def started (watch : Watch) (scheduler : Scheduler) (schedule : Schedule) : Watch where
  schedule
  starts := watch.starts + 1
  threads := watch.threads ++
    List.replicate (scheduler.threads?.getD 0).toNat (watch.starts + 1)

/-- A thread exited, and the others are alive. -/
def exited (watch : Watch) (others : List Nat) : Watch :=
  { watch with schedule := exitThread.final watch.schedule, threads := others }

end Watch

/-- What happens to a scheduler besides starts that succeed. -/
inductive Move [Host] (scheduler : Scheduler) (watch : Watch) : Watch → Prop
  | refuse {fault : Fault} {schedule : Schedule}
      (run : scheduler.start watch.schedule = (.error fault, schedule)) :
      Move scheduler watch { watch with schedule }
  | stop (timeOut : Value) {survivors : List Nat} (running : watch.schedule.running = true)
      (within : survivors.Sublist watch.threads) :
      Move scheduler watch (watch.stopped scheduler timeOut survivors)
  | stopAgain (timeOut : Value) (survivors : Nat) (stopped : watch.schedule.running = false) :
      Move scheduler watch
        { watch with schedule := (scheduler.stop timeOut survivors).final watch.schedule }
  | activate {act : Act Schedule Unit} (activates : scheduler.Activates act) :
      Move scheduler watch { watch with schedule := act.final watch.schedule }
  | exit {before after : List Nat} {thread : Nat} (stopped : watch.schedule.running = false)
      (alive : watch.threads = before ++ thread :: after) :
      Move scheduler watch (watch.exited (before ++ after))

inductive Step [Host] (scheduler : Scheduler) (watch : Watch) : Watch → Prop
  | move {after : Watch} (moves : scheduler.Move watch after) : Step scheduler watch after
  | start {schedule : Schedule} (run : scheduler.start watch.schedule = (.ok (), schedule)) :
      Step scheduler watch (watch.started scheduler schedule)

/-- The schedule counts the threads that are alive, all of which are of the last start, and
a reset is pending only while some of them are and nothing runs. -/
structure Watch.Kept (watch : Watch) : Prop where
  live : watch.schedule.live = .int watch.threads.length
  last : ∀ thread ∈ watch.threads, thread = watch.starts
  pending : watch.schedule.resetPending = true →
    watch.schedule.running = false ∧ watch.threads ≠ []

variable {tasks : Int} {before after : Watch}

theorem kept_fresh (depot : Depot) : (Watch.fresh depot).Kept :=
  ⟨rfl, nofun, nofun⟩

/-- A move leaves the life of the schedule and its threads alone, or it stops the run, or a
thread exits. -/
theorem Move.cases [Host] (whole : scheduler.threads? = some tasks)
    (moves : scheduler.Move before after) :
    after.schedule.life = before.schedule.life ∧ after.starts = before.starts ∧
        after.threads = before.threads ∨
      (∃ timeOut survivors, before.schedule.running = true ∧
        survivors.Sublist before.threads ∧ after = before.stopped scheduler timeOut survivors) ∨
      ∃ earlier thread later, before.schedule.running = false ∧
        before.threads = earlier ++ thread :: later ∧ after = before.exited (earlier ++ later) := by
  cases moves with
  | refuse run =>
      rcases start_cases whole before.schedule with ⟨_, refused⟩ | ⟨_, starts, _⟩
      · rw [refused] at run
        cases run
        exact .inl ⟨rfl, rfl, rfl⟩
      · rw [starts] at run
        cases run
  | stop timeOut running within => exact .inr (.inl ⟨timeOut, _, running, within, rfl⟩)
  | stopAgain timeOut survivors stopped =>
      refine .inl ⟨?_, rfl, rfl⟩
      rw [Act.final, stop_of_stopped stopped]
  | activate activates => exact .inl ⟨activates.life _, rfl, rfl⟩
  | exit stopped alive => exact .inr (.inr ⟨_, _, _, stopped, alive, rfl⟩)

namespace Watch.Kept

variable {watch : Watch}

theorem of_life (kept : before.Kept) (life : after.schedule.life = before.schedule.life)
    (starts : after.starts = before.starts) (threads : after.threads = before.threads) :
    after.Kept where
  live := by rw [threads]; exact (congrArg Life.live life).trans kept.live
  last := by rw [threads, starts]; exact kept.last
  pending isPending := by
    rw [threads]
    have before := kept.pending ((congrArg Life.resetPending life).symm.trans isPending)
    exact ⟨(congrArg Life.running life).trans before.1, before.2⟩

theorem nothing_pending (kept : watch.Kept) (running : watch.schedule.running = true) :
    watch.schedule.resetPending = false := by
  refine Bool.eq_false_iff.2 fun isPending => ?_
  have stopped := (kept.pending isPending).1
  rw [running] at stopped
  cases stopped

/-- What a stop of a run decides. -/
theorem life_stopped (kept : watch.Kept) (whole : scheduler.threads? = some tasks)
    (running : watch.schedule.running = true) {survivors : List Nat}
    (within : survivors.Sublist watch.threads) (timeOut : Value) :
    (watch.stopped scheduler timeOut survivors).schedule.life =
      { running := false
        live := .int survivors.length
        resetPending := (checkTimeOut timeOut).isOk && decide (survivors ≠ [])
        resets := watch.schedule.resets +
          if (checkTimeOut timeOut).isOk ∧ survivors = [] then 1 else 0 } := by
  have life := life_stop whole running kept.live within.length_le timeOut
  rw [kept.nothing_pending running, Bool.false_or] at life
  simp only [ne_eq, List.length_eq_zero_iff] at life
  exact life

/-- What the exit of a thread decides. -/
theorem life_exited (kept : watch.Kept) {earlier later : List Nat} {thread : Nat}
    (alive : watch.threads = earlier ++ thread :: later) :
    (watch.exited (earlier ++ later)).schedule.life =
      if earlier ++ later = [] ∧ watch.schedule.resetPending = true then
        { watch.schedule.life with
          live := .int 0, resetPending := false, resets := watch.schedule.resets + 1 }
      else { watch.schedule.life with live := .int (earlier ++ later).length } := by
  have live : watch.schedule.live = .int ((earlier ++ later).length + 1) := by
    rw [kept.live, alive]
    simp only [List.length_append, List.length_cons]
    rfl
  have life := life_exitThread live
  simp only [List.length_eq_zero_iff] at life
  exact life

theorem stopped (kept : watch.Kept) (whole : scheduler.threads? = some tasks)
    (running : watch.schedule.running = true) {survivors : List Nat}
    (within : survivors.Sublist watch.threads) (timeOut : Value) :
    (watch.stopped scheduler timeOut survivors).Kept := by
  have life := kept.life_stopped whole running within timeOut
  refine ⟨congrArg Life.live life, fun thread survives => kept.last thread (within.subset survives),
    fun isPending => ⟨congrArg Life.running life, ?_⟩⟩
  have pending := (congrArg Life.resetPending life).symm.trans isPending
  exact of_decide_eq_true (Bool.and_eq_true_iff.1 pending).2

theorem exited (kept : watch.Kept) (stopped : watch.schedule.running = false)
    {earlier later : List Nat} {thread : Nat} (alive : watch.threads = earlier ++ thread :: later) :
    (watch.exited (earlier ++ later)).Kept := by
  have life := kept.life_exited alive
  have fewer : (earlier ++ later).Sublist watch.threads :=
    alive ▸ (List.Sublist.refl earlier).append (List.sublist_cons_self thread later)
  have last : ∀ other ∈ earlier ++ later, other = watch.starts := fun other among =>
    kept.last other (fewer.subset among)
  split at life
  · rename_i isLast
    refine ⟨?_, last, fun isPending => ?_⟩
    · rw [show (watch.exited (earlier ++ later)).threads = [] from isLast.1]
      exact congrArg Life.live life
    · exact absurd ((congrArg Life.resetPending life).symm.trans isPending) nofun
  · rename_i notLast
    refine ⟨congrArg Life.live life, last, fun isPending => ?_⟩
    have pending := (congrArg Life.resetPending life).symm.trans isPending
    exact ⟨(congrArg Life.running life).trans stopped, fun none => notLast ⟨none, pending⟩⟩

theorem move [Host] (kept : before.Kept) (whole : scheduler.threads? = some tasks)
    (moves : scheduler.Move before after) : after.Kept := by
  rcases moves.cases whole with ⟨life, starts, threads⟩ |
    ⟨timeOut, survivors, running, within, rfl⟩ | ⟨earlier, thread, later, stopped, alive, rfl⟩
  · exact kept.of_life life starts threads
  · exact kept.stopped whole running within timeOut
  · exact kept.exited stopped alive

/-- Where a start succeeds, nothing runs and no thread is alive. -/
theorem of_start [Host] (kept : watch.Kept) (whole : scheduler.threads? = some tasks)
    {schedule : Schedule} (run : scheduler.start watch.schedule = (.ok (), schedule)) :
    watch.schedule.running = false ∧ watch.threads = [] ∧
      schedule.life = { watch.schedule.life with running := true, live := .int tasks } := by
  rcases start_cases whole watch.schedule with ⟨_, refused⟩ | ⟨_, starts, stopped, none, life⟩
  · rw [refused] at run
    cases run
  · rw [starts] at run
    cases run
    rw [kept.live, Number.isZero_int, decide_eq_true_iff] at none
    exact ⟨stopped, List.length_eq_zero_iff.1 (by omega), life⟩

theorem started [Host] (kept : watch.Kept) (whole : scheduler.threads? = some tasks)
    (positive : 0 < tasks) {schedule : Schedule}
    (run : scheduler.start watch.schedule = (.ok (), schedule)) :
    (watch.started scheduler schedule).Kept := by
  obtain ⟨_, none, life⟩ := kept.of_start whole run
  have threads : (watch.started scheduler schedule).threads =
      List.replicate tasks.toNat (watch.starts + 1) := by
    unfold Watch.started
    rw [none, whole, List.nil_append, Option.getD_some]
  refine ⟨?_, fun thread alive => ?_, fun isPending => ?_⟩
  · rw [threads, List.length_replicate, Int.toNat_of_nonneg (by omega)]
    exact congrArg Life.live life
  · rw [threads] at alive
    exact (List.mem_replicate.1 alive).2
  · have pending := (congrArg Life.resetPending life).symm.trans isPending
    exact absurd none (kept.pending pending).2

end Watch.Kept

theorem Step.kept [Host] (whole : scheduler.threads? = some tasks) (positive : 0 < tasks)
    (kept : before.Kept) (step : scheduler.Step before after) : after.Kept := by
  cases step with
  | move moves => exact kept.move whole moves
  | start run => exact kept.started whole positive run

/-- Whatever happened since the scheduler was made, its schedule keeps count of its threads. -/
theorem kept_of_steps [Host] (whole : scheduler.threads? = some tasks) (positive : 0 < tasks)
    {depot : Depot} {watch : Watch}
    (steps : Relation.ReflTransGen scheduler.Step (.fresh depot) watch) : watch.Kept := by
  induction steps with
  | refl => exact kept_fresh depot
  | tail _ step ih => exact step.kept whole positive ih

/-- A run ended, before which there had been a number of resets.  If another one is due, it
is left to the threads that are alive, and carried out when there are none. -/
structure Watch.Ended (resets : Nat) (due : Bool) (watch : Watch) : Prop where
  running : watch.schedule.running = false
  pending : watch.schedule.resetPending = (due && decide (watch.threads ≠ []))
  resets : watch.schedule.resets = resets + if due ∧ watch.threads = [] then 1 else 0

namespace Watch.Ended

variable {resets : Nat} {due : Bool}

theorem of_stop (kept : before.Kept) (whole : scheduler.threads? = some tasks)
    (running : before.schedule.running = true) {survivors : List Nat}
    (within : survivors.Sublist before.threads) (timeOut : Value) :
    (before.stopped scheduler timeOut survivors).Ended before.schedule.resets
      (checkTimeOut timeOut).isOk := by
  have life := kept.life_stopped whole running within timeOut
  exact ⟨congrArg Life.running life, congrArg Life.resetPending life, congrArg Life.resets life⟩

/-- The exit of a thread after the end of a run resets the depot just if one is due and no
other thread is alive. -/
theorem exited (ended : before.Ended resets due) (kept : before.Kept)
    {earlier later : List Nat} {thread : Nat}
    (alive : before.threads = earlier ++ thread :: later) :
    (before.exited (earlier ++ later)).Ended resets due := by
  have life := kept.life_exited alive
  have some : before.threads ≠ [] := by simp [alive]
  have pending : before.schedule.resetPending = due := by
    rw [ended.pending, decide_eq_true some, Bool.and_true]
  have reset : before.schedule.resets = resets := by
    rw [ended.resets, if_neg fun both => some both.2, Nat.add_zero]
  have threads : (before.exited (earlier ++ later)).threads = earlier ++ later := rfl
  rw [pending, reset] at life
  split at life
  · rename_i isLast
    refine ⟨(congrArg Life.running life).trans ended.running, ?_, ?_⟩ <;> rw [threads, isLast.1]
    · exact (congrArg Life.resetPending life).trans (by simp)
    · exact (congrArg Life.resets life).trans (by rw [if_pos ⟨isLast.2, rfl⟩])
  · rename_i notLast
    refine ⟨(congrArg Life.running life).trans ended.running, ?_, ?_⟩ <;> rw [threads]
    · refine (congrArg Life.resetPending life).trans (pending.trans ?_)
      by_cases none : earlier ++ later = []
      · have notDue : due = false := Bool.eq_false_iff.2 fun isDue => notLast ⟨none, isDue⟩
        rw [notDue, Bool.false_and]
      · rw [decide_eq_true none, Bool.and_true]
    · refine (congrArg Life.resets life).trans (reset.trans ?_)
      rw [if_neg fun both => notLast ⟨both.2, both.1⟩, Nat.add_zero]

/-- Among the moves after the end of a run only the exit of the last thread resets the
depot. -/
theorem move [Host] (ended : before.Ended resets due) (kept : before.Kept)
    (whole : scheduler.threads? = some tasks) (moves : scheduler.Move before after) :
    after.Ended resets due := by
  rcases moves.cases whole with ⟨life, _, threads⟩ | ⟨_, _, running, _⟩ |
    ⟨earlier, thread, later, _, alive, rfl⟩
  · refine ⟨(congrArg Life.running life).trans ended.running, ?_, ?_⟩ <;> rw [threads]
    · exact (congrArg Life.resetPending life).trans ended.pending
    · exact (congrArg Life.resets life).trans ended.resets
  · rw [ended.running] at running
    cases running
  · exact ended.exited kept alive

theorem moves [Host] (ended : before.Ended resets due) (kept : before.Kept)
    (whole : scheduler.threads? = some tasks)
    (path : Relation.ReflTransGen scheduler.Move before after) :
    after.Ended resets due ∧ after.Kept := by
  induction path with
  | refl => exact ⟨ended, kept⟩
  | tail _ last ih => exact ⟨ih.1.move ih.2 whole last, ih.2.move whole last⟩

end Watch.Ended

/-- Only a step that leaves no thread alive resets the depot, and it does so once. -/
theorem Step.resets [Host] (whole : scheduler.threads? = some tasks) (kept : before.Kept)
    (step : scheduler.Step before after) :
    after.schedule.resets = before.schedule.resets ∨
      after.schedule.resets = before.schedule.resets + 1 ∧ after.threads = [] := by
  cases step with
  | start run => exact .inl (congrArg Life.resets (kept.of_start whole run).2.2)
  | move moves =>
      rcases moves.cases whole with ⟨life, _, _⟩ | ⟨timeOut, survivors, running, within, rfl⟩ |
        ⟨earlier, thread, later, _, alive, rfl⟩
      · exact .inl (congrArg Life.resets life)
      · have reset := congrArg Life.resets (kept.life_stopped whole running within timeOut)
        dsimp only at reset
        split at reset
        · rename_i none
          exact .inr ⟨reset, none.2⟩
        · exact .inl reset
      · have life := kept.life_exited alive
        split at life
        · rename_i isLast
          exact .inr ⟨congrArg Life.resets life, isLast.1⟩
        · exact .inl (congrArg Life.resets life)

/-- A scheduler with a whole number of threads is started and stopped in any order, from
anywhere, and any of its threads may outlive a stop.  A start succeeds only when nothing
runs and no thread is alive, so all threads that are alive are of one run.  From a stop that
ended a run to the next start that succeeds, the depot is reset once if the time-out can be
waited for, namely as soon as no thread is alive, and it is not reset otherwise.  No step
resets it that leaves a thread alive.  A stop changes nothing when nothing runs, and neither
does a start that fails. -/
theorem runs_apart [Host] (scheduler : Scheduler) {tasks : Int}
    (whole : scheduler.threads? = some tasks) (positive : 0 < tasks) (depot : Depot)
    {watch : Watch} (steps : Relation.ReflTransGen scheduler.Step (.fresh depot) watch) :
    (∀ started, scheduler.start watch.schedule = (.ok (), started) →
      watch.schedule.running = false ∧ watch.threads = []) ∧
    (∀ first ∈ watch.threads, ∀ second ∈ watch.threads, first = second) ∧
    (watch.schedule.running = true → ∀ timeOut survivors, survivors.Sublist watch.threads →
      ∀ later, Relation.ReflTransGen scheduler.Move
          (watch.stopped scheduler timeOut survivors) later →
        later.schedule.resets = watch.schedule.resets +
            (if (checkTimeOut timeOut).isOk ∧ later.threads = [] then 1 else 0) ∧
          ∀ again, scheduler.start later.schedule = (.ok (), again) →
            again.resets = watch.schedule.resets +
              if (checkTimeOut timeOut).isOk then 1 else 0) ∧
    (∀ after, scheduler.Step watch after →
      after.schedule.resets = watch.schedule.resets ∨
        after.schedule.resets = watch.schedule.resets + 1 ∧ after.threads = []) ∧
    (watch.schedule.running = false → ∀ timeOut survivors,
      scheduler.stop timeOut survivors watch.schedule = (.ok (), watch.schedule)) ∧
    ∀ fault reached, scheduler.start watch.schedule = (.error fault, reached) →
      reached = watch.schedule := by
  have kept := kept_of_steps whole positive steps
  refine ⟨fun started run => ?_, fun first isFirst second isSecond => ?_,
    fun running timeOut survivors within later path => ?_, fun after step => ?_,
    fun stopped timeOut survivors => stop_of_stopped stopped timeOut survivors,
    fun fault reached run => ?_⟩
  · obtain ⟨stopped, none, _⟩ := kept.of_start whole run
    exact ⟨stopped, none⟩
  · rw [kept.last first isFirst, kept.last second isSecond]
  · obtain ⟨ended, keptLater⟩ := (Watch.Ended.of_stop kept whole running within timeOut).moves
      (kept.stopped whole running within timeOut) whole path
    refine ⟨ended.resets, fun again run => ?_⟩
    obtain ⟨_, none, life⟩ := keptLater.of_start whole run
    have reset := ended.resets
    simp only [none, and_true] at reset
    exact (congrArg Life.resets life).trans reset
  · exact step.resets whole kept
  · rcases start_cases whole watch.schedule with ⟨_, refused⟩ | ⟨_, starts, _⟩
    · rw [refused] at run
      cases run
      rfl
    · rw [starts] at run
      cases run

/-- A scheduler with two threads, and a configuration that is valid. -/
def pair : Scheduler where
  engine := { hooks := {
    groupKey := fun _ => .done .null
    process := fun _ => .done none } }
  configuration := { minSize := .bytes 0 }
  tasks := .int 2

/-- The watch of the pair after its first start. -/
def Watch.firstRun [Host] : Watch :=
  (Watch.fresh {}).started pair (pair.start.final {})

/-- One of two threads outlives a stop.  The reset is left to it, a start is refused until it
exits, and the next one finds the depot reset once. -/
theorem runs_apart_of_slow_thread :
    letI : Host := .customary
    let slow := Watch.firstRun.stopped pair (.int 5) [1]
    let idle := slow.exited []
    Watch.firstRun.threads = [1, 1] ∧
      (slow.schedule.resets = 0 ∧ (pair.start slow.schedule).1.isOk = false) ∧
      ∃ again, pair.start idle.schedule = (.ok (), again) ∧ again.resets = 1 := by
  let _ : Host := .customary
  intro slow idle
  have begun : pair.start {} = (.ok (), pair.start.final {}) := rfl
  have steps : Relation.ReflTransGen pair.Step (.fresh {}) Watch.firstRun :=
    .single (.start begun)
  obtain ⟨_, _, once, _⟩ := @runs_apart _ pair 2 rfl (by decide) {} _ steps
  have within : [1].Sublist Watch.firstRun.threads := by decide
  have exits : pair.Move slow idle := @Move.exit _ pair slow [] [] 1 rfl rfl
  obtain ⟨_, again⟩ := once rfl (.int 5) [1] within idle (.single exits)
  obtain ⟨started, restarts⟩ : ∃ started, pair.start idle.schedule = (.ok (), started) := ⟨_, rfl⟩
  exact ⟨rfl, ⟨rfl, rfl⟩, started, restarts, again started restarts⟩

/-- A stop that should wait for longer than can be waited for ends the run, and the next start
succeeds although the depot was not reset. -/
theorem unreset_after_endless_wait :
    letI : Host := .customary
    let ended := Watch.firstRun.stopped pair (.float 1e12) []
    Watch.firstRun.schedule.running = true ∧
      (pair.stop (.float 1e12) 0 Watch.firstRun.schedule).1 = .error .overflow ∧
      ended.schedule.running = false ∧ ended.threads = [] ∧
      ∃ again, pair.start ended.schedule = (.ok (), again) ∧ again.resets = 0 := by
  exact ⟨rfl, rfl, rfl, rfl, _, rfl, rfl⟩

end Scheduler

end ItemBinning
