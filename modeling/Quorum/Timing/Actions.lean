import Quorum.Timing.Scheduler

/-!
# Running actions

A consumer whose payloads are themselves the work: it runs each payload it receives, one after the
other, until the stopped scheduler has nothing left. A payload that fails is noted, and the next one
runs all the same.
-/

namespace Quorum.Scheduler

variable {α β : Type}

/-- Run everything that has fired, and report each outcome in order. -/
def runActions (scheduler : Scheduler α) (clockMs : Nat) (run : α → Except String β) :
    Except Fault (List (Except String β) × Scheduler α) := do
  let (tasks, rest) ← scheduler.receiveAll clockMs
  return (tasks.map fun task => run task.payload, rest)

end Quorum.Scheduler
