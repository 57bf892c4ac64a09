import Quorum.Timing.TwoTier

/-!
# The scheduler

A scheduler owns the two wheels, the queue of fired tasks and the handles cancelled so far. Work is
put in with `schedule`; `settle` brings the wheels up to the clock and moves what is due onto the
queue; `receive` takes the oldest fired task that has not been cancelled. A recurring task is put
back into the wheels at the moment it is received, so its next occurrence counts from there.

The clock is an argument of every operation that depends on it. A scheduler measures from the clock
value at which it was started.
-/

namespace Quorum

/-- The wheels, the fired queue and the handles of one scheduler. -/
structure Scheduler (α : Type) where
  config : TimerConfig
  /-- The clock value at which the scheduler was started. -/
  epochMs : Nat
  tiers : TwoTier α
  /-- Fired tasks not yet received, oldest first. -/
  fired : List (Task α)
  cancelled : Cancellations
  /-- How many handles have been given out. -/
  issued : Nat
  /-- Cleared by `shutdown`. -/
  running : Bool
  /-- Cleared when nobody receives any more. -/
  attended : Bool
  /-- Cleared when the wheels could not be advanced; they stand still from then on. -/
  intact : Bool
  deriving DecidableEq, Repr, Inhabited

namespace Scheduler

variable {α : Type}

/-- A fresh scheduler whose time begins at `clockMs`. -/
def start (config : TimerConfig) (clockMs : Nat) : Except Failure (Scheduler α) := do
  config.validate
  let tiers ← TwoTier.ofConfig config
  return {
    config, epochMs := clockMs, tiers, fired := [], cancelled := {}, issued := 0
    running := true, attended := true, intact := true }

/-- The scheduler's own time. -/
def nowMs (scheduler : Scheduler α) (clockMs : Nat) : Nat := clockMs - scheduler.epochMs

/-- How many tasks the wheels hold, cancelled ones included. -/
def pending (scheduler : Scheduler α) : Nat := scheduler.tiers.size

/-- Every task that could still be received: the fired queue, then the wheels. -/
def held (scheduler : Scheduler α) : List (Task α) := scheduler.fired ++ scheduler.tiers.tasks

def isCancelled (scheduler : Scheduler α) (handle : Handle) : Bool :=
  scheduler.cancelled.has handle

def cancel (scheduler : Scheduler α) (handle : Handle) : Scheduler α :=
  { scheduler with cancelled := scheduler.cancelled.add handle }

/-- The tasks that are held and not cancelled. -/
def live (scheduler : Scheduler α) : List (Task α) :=
  scheduler.held.filter fun task => !scheduler.isCancelled task.handle

/-- Report a task that the wheels cannot hold. -/
def refuse (scheduler : Scheduler α) (task : Task α) : Failure :=
  match scheduler.config.capacityMs with
  | .ok capacityMs => .error (.capacityExceeded task.delayMs capacityMs)
  | .error cause => .fault cause

/-- Resolve the fire time of a task and put it into the wheels. A task that does not fit is
refused, and then nothing has changed. -/
def place (scheduler : Scheduler α) (clockMs : Nat) (task : Task α) :
    Except Failure (Scheduler α) := do
  if !scheduler.running then
    throw (.error .schedulerStopped)
  scheduler.config.checkDelay task.delayMs
  let fireAtMs ← Word.add (scheduler.nowMs clockMs) task.delayMs
  match ← scheduler.tiers.place { task with fireAtMs } with
  | some tiers => return { scheduler with tiers }
  | none => throw (scheduler.refuse task)

/-- The handle the next task gets. -/
def nextHandle (scheduler : Scheduler α) : Handle := ⟨scheduler.issued⟩

/-- Schedule a payload once after `delay`, or with a period every `delay` from now on. -/
def schedule (scheduler : Scheduler α) (clockMs : Nat) (delay : Delay) (repeats : Bool)
    (payload : α) : Except Failure (Handle × Scheduler α) := do
  let handle := scheduler.nextHandle
  let task :=
    if repeats then Task.recurring handle delay payload else Task.once handle delay payload
  let placed ← scheduler.place clockMs task
  return (handle, { placed with issued := scheduler.issued + 1 })

/-- Whether the wheels are still advanced with the clock. -/
def isTicking (scheduler : Scheduler α) : Bool :=
  scheduler.running && scheduler.attended && scheduler.intact

/-- Whether nothing will be added to the fired queue any more. -/
def hasEnded (scheduler : Scheduler α) : Bool := !scheduler.running || !scheduler.intact

/-- Bring the wheels up to the clock. A scheduler that was shut down, or that nobody receives from,
does not move any more. -/
def settle (scheduler : Scheduler α) (clockMs : Nat) : Scheduler α :=
  if scheduler.isTicking then
    let settling := scheduler.tiers.settle (scheduler.nowMs clockMs)
    { scheduler with
      tiers := settling.tiers
      fired := scheduler.fired ++ settling.due
      intact := settling.intact }
  else
    scheduler

/-- The clock value at which the wheels have to be settled again. -/
def wakeMs (scheduler : Scheduler α) : Except Fault (Option Nat) := do
  if scheduler.isTicking then
    return some (scheduler.epochMs + (← scheduler.tiers.wakeMs))
  else
    return none

/-- Put the next occurrence of a recurring task into the wheels. If the wheels refuse it the series
ends there; the occurrence at hand is not affected. -/
def renew (scheduler : Scheduler α) (clockMs : Nat) (task : Task α) :
    Except Fault (Scheduler α) :=
  match task.nextOccurrence with
  | none => .ok scheduler
  | some next =>
    match scheduler.place clockMs next with
    | .ok renewed => .ok renewed
    | .error (.error _) => .ok scheduler
    | .error (.fault cause) => .error cause

/-- The oldest task of a queue that is not cancelled, and the queue behind it. -/
def firstLive (cancelled : Cancellations) : List (Task α) → Option (Task α × List (Task α))
  | [] => none
  | task :: rest =>
    if cancelled.has task.handle then firstLive cancelled rest else some (task, rest)

/-- Take the oldest fired task that is not cancelled, and renew it if it recurs. -/
def receive (scheduler : Scheduler α) (clockMs : Nat) :
    Except Fault (Option (Task α) × Scheduler α) := do
  match firstLive scheduler.cancelled scheduler.fired with
  | none => return (none, { scheduler with fired := [] })
  | some (task, rest) =>
    let renewed ← { scheduler with fired := rest }.renew clockMs task
    return (some task, renewed)

/-- Receive at most `count` tasks. Also tells whether it ran out of tasks before that. -/
def receiveUpTo (clockMs : Nat) :
    Nat → Scheduler α → Except Fault (List (Task α) × Bool × Scheduler α)
  | 0, scheduler => .ok ([], false, scheduler)
  | count + 1, scheduler => do
    match ← scheduler.receive clockMs with
    | (none, rest) => return ([], true, rest)
    | (some task, rest) =>
      let (more, ranOut, last) ← receiveUpTo clockMs count rest
      return (task :: more, ranOut, last)

/-- Receive everything that has fired. -/
def receiveAll (scheduler : Scheduler α) (clockMs : Nat) :
    Except Fault (List (Task α) × Scheduler α) := do
  let (tasks, _, rest) ← receiveUpTo clockMs scheduler.fired.length scheduler
  return (tasks, { rest with fired := [] })

/-- Stop the wheels. What they hold will never fire; what has fired can still be received. -/
def shutdown (scheduler : Scheduler α) : Scheduler α := { scheduler with running := false }

/-- Give up receiving. -/
def abandon (scheduler : Scheduler α) : Scheduler α :=
  { scheduler with attended := false, fired := [] }

end Scheduler

end Quorum
