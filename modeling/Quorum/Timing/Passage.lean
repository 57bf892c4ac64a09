import Quorum.Timing.Scheduler

/-!
# Letting time pass

Whatever holds schedulers sleeps from one known instant to the next. To let time pass up to a target
is to visit each of these instants in turn and then the target itself. The instants are asked for
anew after every visit, since a visit may schedule more work.
-/

namespace Quorum

/-- Move from instant to instant up to `targetMs`. `wake` names the next instant at which something
has to be done, and `visit` does it. -/
def passTime {σ : Type} (wake : σ → Except Fault (Option Nat))
    (visit : Nat → σ → Except Fault σ) (targetMs clockMs : Nat) (state : σ) : Except Fault σ :=
  match wake state with
  | .error cause => .error cause
  | .ok none => visit targetMs state
  | .ok (some wakeMs) =>
    if _ : clockMs < wakeMs ∧ wakeMs ≤ targetMs then
      match visit wakeMs state with
      | .error cause => .error cause
      | .ok visited => passTime wake visit targetMs wakeMs visited
    else
      visit targetMs state
termination_by targetMs - clockMs
decreasing_by omega

namespace Scheduler

variable {α : Type}

/-- Settle at one instant and let the consumer take everything, noting when it got it. -/
def collectAt (clockMs : Nat) (state : Scheduler α × List (Nat × Task α)) :
    Except Fault (Scheduler α × List (Nat × Task α)) := do
  let (tasks, rest) ← (state.1.settle clockMs).receiveAll clockMs
  return (rest, state.2 ++ tasks.map fun task => (clockMs, task))

/-- Let time pass, and list what the consumer received and when. -/
def collectUntil (scheduler : Scheduler α) (clockMs targetMs : Nat) :
    Except Fault (Scheduler α × List (Nat × Task α)) :=
  passTime (fun state => state.1.wakeMs) collectAt targetMs clockMs (scheduler.settle clockMs, [])

end Scheduler

end Quorum
