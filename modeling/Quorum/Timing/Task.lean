import Quorum.Delay

/-!
# Timer tasks

A task is a payload that becomes due after a delay. Every task is scheduled under a handle; a
recurring task keeps its handle from one occurrence to the next, so that cancelling the handle stops
the whole series. Which handles have been cancelled is kept apart from the tasks, because a handle
can be asked about, and cancelled again, long after its task has left the timers.
-/

namespace Quorum

/-- The name under which a task, or a whole series of occurrences, can be cancelled. -/
structure Handle where
  number : Nat
  deriving DecidableEq, Repr, Inhabited

/-- A unit of deferred work. -/
structure Task (α : Type) where
  handle : Handle
  delay : Delay
  /-- The distance between two occurrences, for a recurring task. -/
  period : Option Delay
  /-- The instant from which the task is due, on the scheduler's clock; zero until it is placed. -/
  fireAtMs : Nat
  payload : α
  deriving DecidableEq, Repr, Inhabited

namespace Task

variable {α : Type}

/-- A task that fires once. -/
def once (handle : Handle) (delay : Delay) (payload : α) : Task α :=
  ⟨handle, delay, none, 0, payload⟩

/-- A task that fires every `period` until its handle is cancelled. -/
def recurring (handle : Handle) (period : Delay) (payload : α) : Task α :=
  ⟨handle, period, some period, 0, payload⟩

def isRecurring (task : Task α) : Bool := task.period.isSome

def delayMs (task : Task α) : Nat := task.delay.ms

/-- The next occurrence of a recurring task, under the same handle and not yet placed. -/
def nextOccurrence (task : Task α) : Option (Task α) :=
  task.period.map fun period => recurring task.handle period task.payload

end Task

/-- The handles cancelled so far. -/
structure Cancellations where
  handles : List Handle := []
  deriving DecidableEq, Repr, Inhabited

namespace Cancellations

def has (cancelled : Cancellations) (handle : Handle) : Bool :=
  decide (handle ∈ cancelled.handles)

/-- Cancelling twice is cancelling once. -/
def add (cancelled : Cancellations) (handle : Handle) : Cancellations :=
  ⟨cancelled.handles.insert handle⟩

theorem has_add (cancelled : Cancellations) (handle other : Handle) :
    (cancelled.add handle).has other = (decide (other = handle) || cancelled.has other) := by
  simp [has, add, List.mem_insert_iff]

theorem add_add (cancelled : Cancellations) (handle : Handle) :
    (cancelled.add handle).add handle = cancelled.add handle := by
  simp [add, List.insert_of_mem]

end Cancellations

end Quorum
