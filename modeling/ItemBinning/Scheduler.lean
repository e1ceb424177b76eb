import ItemBinning.Configuration
import ItemBinning.Engine.Suspension

/-!
# Schedulers

A scheduler validates its configuration, puts it in force and lets a number of
threads run activations.  A thread rests after an idle activation and after one
that failed.  Stopping lets the threads exit; the depot is reset when the last
one is gone, by the stop itself or, if a thread outlives the time-out, by that
thread's exit.
-/

namespace ItemBinning

/-- What a scheduler drives, the configuration it validates, the consumer's own
check, the number of threads, and how long a stop waits for each of them. -/
structure Scheduler where
  engine : Engine
  configuration : Configuration := {}
  extra : ExtraCheck := ExtraCheck.none
  tasks : Value := .int 1
  timeOut : Value := .float 5.0

/-- A scheduler at work: the depot, whether activations are scheduled, the
number of threads that count as alive, whether the last of them has to reset,
what was counted, how often the depot was reset, and the activation that waits
for its processor, if one does.  A number of threads with a fraction counts as
alive, but there are no threads. -/
structure Schedule where
  depot : Depot := {}
  running : Bool := false
  live : Number := .int 0
  resetPending : Bool := false
  activations : Nat := 0
  idleActivations : Nat := 0
  activationErrors : Nat := 0
  resets : Nat := 0
  suspended : Option Engine.Suspended := none

namespace Schedule

instance : Inhabited Schedule := ⟨{}⟩

def onDepot {α : Type} (act : Act Depot α) : Act Schedule α :=
  act.within (·.depot) fun schedule depot => { schedule with depot }

def record (activation : Activation) : Act Schedule Unit :=
  Act.modify fun schedule =>
    { schedule with
      activations := schedule.activations + 1
      idleActivations :=
        schedule.idleActivations + if activation.isIdle then 1 else 0 }

def recordError : Act Schedule Unit :=
  Act.modify fun schedule =>
    { schedule with activationErrors := schedule.activationErrors + 1 }

/-- Reset the depot, and count it. -/
def resetDepot : Act Schedule Unit := do
  Act.modify fun schedule => { schedule with resets := schedule.resets + 1 }
  onDepot Engine.reset

/-- The number of threads that are left of a number when one exits. -/
def withoutOne : Number → Number
  | .int threads => .int (threads - 1)
  | .float threads => .float threads

/-- A thread exits.  The last one carries out a reset that was left to it. -/
def exitThread : Act Schedule Unit := do
  Act.modify fun schedule => { schedule with live := withoutOne schedule.live }
  let resets ← Act.read fun schedule =>
    schedule.live.isZero && schedule.resetPending
  if resets then do
    Act.modify fun schedule => { schedule with resetPending := false }
    resetDepot

end Schedule

namespace Scheduler

open Schedule

/-- Check a number of threads, which has to be positive. -/
def checkTasks (tasks : Value) : Except Fault Unit :=
  match tasks.number? with
  | some number =>
      if number.isAtMostZero then .error (.badTaskCount tasks) else .ok ()
  | none => .error .wrongType

/-- Check the milliseconds of a rest, which have to be a number. -/
def checkRest (milliseconds : Value) : Except Fault Unit :=
  match milliseconds.number? with
  | some number =>
      if number.toFloat?.isSome then .ok () else .error .overflow
  | none => .error .wrongType

def nanoseconds : Int := 1000000000

/-- The longest time that a thread can be waited for, in nanoseconds. -/
def longestWait : Int := 9223372036854775000

/-- Check a time-out; null waits without end. -/
def checkTimeOut (timeOut : Value) : Except Fault Unit :=
  match timeOut with
  | .null => .ok ()
  | given =>
      match given.number? with
      | some (.int seconds) =>
          if longestWait < seconds * nanoseconds then .error .overflow
          else .ok ()
      | some (.float seconds) =>
          if Decimal.isNotANumber seconds then .error .invalidWait
          else
            let wait := Number.float (seconds * 1e9)
            if wait.compare? (.int longestWait) == some .gt then
              .error .overflow
            else .ok ()
      | none => .error .wrongType

def create (engine : Engine) (configuration : Configuration)
    (tasks rest timeOut : Value) (extra : ExtraCheck := ExtraCheck.none) :
    Except Fault Scheduler := do
  checkTasks tasks
  checkRest rest
  .ok { engine, configuration, extra, tasks, timeOut }

/-- The number of threads that can be created, if it is whole. -/
def threads? (scheduler : Scheduler) : Option Int :=
  match scheduler.tasks.number? with
  | some (.int threads) => some threads
  | _ => none

/-- Put a validated policy in force and let threads run.  Only a whole number of
threads can be created, but any number counts as alive. -/
def launchThreads (scheduler : Scheduler) (policy : Policy) :
    Act Schedule Unit := do
  onDepot (Depot.applyPolicy policy)
  Act.modify fun schedule =>
    { schedule with
      running := true
      live := scheduler.tasks.number?.getD (.int 0) }
  if scheduler.threads?.isNone then Act.fail .wrongType

/-- The number of live threads as it is shown: while it is the number that was
started, as it was given. -/
def shownThreads (scheduler : Scheduler) (live : Number) : Value :=
  match scheduler.tasks with
  | .bool given => .bool given
  | _ => .number live

/-- Start: put the validated configuration in force and let the threads run.
This is refused while the scheduler runs and while threads of an earlier run
are alive. -/
def start [Host] (scheduler : Scheduler) : Act Schedule Unit := do
  if ← Act.read (·.running) then Act.fail .alreadyRunning
  else do
    let live ← Act.read (·.live)
    if live.isZero then do
      let policy ← Act.ofExcept
        (Policy.ofConfiguration scheduler.configuration scheduler.extra)
      launchThreads scheduler policy
    else Act.fail (.stillFinishing (scheduler.shownThreads live))

/-- The threads that are alive when all but some of them exited.  A number with
a fraction stays. -/
def left (survivors : Nat) : Number → Number
  | .int live => .int (min survivors live)
  | .float live => .float live

/-- Let the threads exit, of which some outlive the time-out. -/
def withdraw (survivors : Nat) : Act Schedule Unit :=
  Act.modify fun schedule =>
    { schedule with
      running := false
      live := left survivors schedule.live }

/-- Stop: let the threads exit, of which some may outlive the time-out.  Then
the reset is left to the last of them.  A time-out that cannot be waited for is
noticed when there is a thread to wait for, and nothing is reset. -/
def stop (scheduler : Scheduler) (timeOut : Value) (survivors : Nat) :
    Act Schedule Unit := do
  if ← Act.read (·.running) then do
    withdraw survivors
    if scheduler.threads?.isSome then Act.ofExcept (checkTimeOut timeOut)
    let live ← Act.read (·.live)
    if live.isZero then resetDepot
    else Act.modify fun schedule => { schedule with resetPending := true }
  else pure ()

/-- Run a single activation outside the threads. -/
def triggerOnce (scheduler : Scheduler) : Act Schedule Activation := do
  let activation ← onDepot scheduler.engine.activateFully
  record activation
  pure activation

/-- Activations of one thread until it rests or its processor waits.  The number
bounds the activations; a processor that has leave to go on does not wait. -/
def runThread (scheduler : Scheduler) (leave : Bool) : Nat → Act Schedule Unit
  | 0 => pure ()
  | bound + 1 => do
      match ← Act.attempt
          (onDepot (scheduler.engine.advanceActivation leave)) with
      | .error _ => recordError
      | .ok (.suspended suspension) =>
          Act.modify fun schedule =>
            { schedule with suspended := some suspension }
      | .ok (.finished activation) => do
          record activation
          if activation.isIdle then pure ()
          else runThread scheduler leave bound

/-- Activations of a number of threads, one thread after the other. -/
def runThreads (scheduler : Scheduler) (leave : Bool) (bound : Nat) :
    Nat → Act Schedule Unit
  | 0 => pure ()
  | tasks + 1 => do
      runThread scheduler leave bound
      runThreads scheduler leave bound tasks

/-- Start, and let every thread run until it rests or its processor waits. -/
def launch [Host] (scheduler : Scheduler) (leave : Bool) (bound : Nat) :
    Act Schedule Unit := do
  scheduler.start
  scheduler.runThreads leave bound (scheduler.threads?.getD 0).toNat

/-- Stop, with a time-out of its own or the scheduler's.  The thread whose
processor waits outlives it. -/
def halt (scheduler : Scheduler) (timeOut : Value := .null) :
    Act Schedule Unit := do
  let waits ← Act.read (·.suspended.isSome)
  let allowed := match timeOut with
    | .null => scheduler.timeOut
    | given => given
  scheduler.stop allowed (if waits then 1 else 0)

/-- Whether the thread whose processor waits gets its turn: while the scheduler
runs, or when a reset is left to the thread.  After a stop that failed nobody
waits for the thread, and it stays where it is. -/
def isAwaited (schedule : Schedule) : Bool :=
  schedule.running || schedule.resetPending

/-- Go on with a suspended activation, and let its thread run until it rests or,
once stopped, exits. -/
def goOn (scheduler : Scheduler) (bound : Nat)
    (suspension : Engine.Suspended) : Act Schedule Unit := do
  Act.modify fun schedule => { schedule with suspended := none }
  let resumed ← Act.attempt (onDepot (scheduler.engine.resume suspension))
  match resumed with
  | .error _ => recordError
  | .ok activation => record activation
  if ← Act.read (·.running) then
    match resumed with
    | .ok activation =>
        if activation.isIdle then pure ()
        else scheduler.runThread true bound
    | .error _ => pure ()
  else exitThread

/-- Give the waiting processor leave to go on. -/
def release (scheduler : Scheduler) (bound : Nat) : Act Schedule Unit := do
  let schedule ← Act.get
  match schedule.suspended with
  | none => pure ()
  | some suspension =>
      if isAwaited schedule then scheduler.goOn bound suspension
      else pure ()

end Scheduler

end ItemBinning
