import Quorum.Config.Timer
import Quorum.Timing.Wheel

/-!
# The two tiers

The near wheel turns through one rotation after the other; the far wheel holds what lies beyond the
present rotation, one bucket per rotation to come. When the near wheel completes a rotation, the
far bucket of the next rotation is cascaded into it, each task by its exact fire time.

`TwoTier.settle` brings both wheels up to a given instant: it advances again and again while the
near wheel completes rotations, and collects what became due on the way, in order.

The far window cannot slide beyond the last word. The advance that would need this is the last one:
what it drained and what it took out of the far wheel is lost, and the wheels stand still from then
on. What earlier advances of the same settling collected is not affected.
-/

namespace Quorum

/-- The near and the far wheel, always moved together. -/
structure TwoTier (α : Type) where
  near : Wheel α
  far : Wheel α
  deriving DecidableEq, Repr, Inhabited

namespace TwoTier

variable {α : Type}

/-- Two empty wheels: the near window begins at zero, and the far window where it ends. -/
def ofConfig (config : TimerConfig) : Except Fault (TwoTier α) := do
  let near ← Wheel.ofDimensions config.tickMs config.nearBuckets 0
  let spanMs ← near.spanMs
  let far ← Wheel.ofDimensions spanMs config.farBuckets spanMs
  return ⟨near, far⟩

/-- How many tasks both wheels hold. -/
def size (tiers : TwoTier α) : Nat := tiers.near.size + tiers.far.size

/-- The tasks of both wheels, near ones first. -/
def tasks (tiers : TwoTier α) : List (Task α) := tiers.near.tasks ++ tiers.far.tasks

/-- Put a task into the near wheel, or beyond the present rotation into the far wheel. Answers
`none` if the task lies beyond both windows. -/
def place (tiers : TwoTier α) (task : Task α) : Except Fault (Option (TwoTier α)) := do
  match ← tiers.near.insert task with
  | some near => return some { tiers with near }
  | none =>
    match ← tiers.far.insertFar task with
    | .placed far => return some { tiers with far }
    | .behind => throw .endlessRetry
    | .beyond => return none

/-- Move tasks of a far bucket into the near wheel. What the near wheel refuses fires at once. -/
def cascade : Wheel α → List (Task α) → List (Task α) → Except Fault (Wheel α × List (Task α))
  | near, [], due => .ok (near, due)
  | near, task :: rest, due => do
    match ← near.insert task with
    | some fuller => cascade fuller rest due
    | none => cascade near rest (due ++ [task])

/-- What an advance of both wheels did. -/
structure Advance (α : Type) where
  tiers : TwoTier α
  due : List (Task α)
  rotated : Bool
  deriving Repr

/-- Advance the near wheel, and after a full rotation cascade the next far bucket into it. -/
def advance (tiers : TwoTier α) (nowMs : Nat) : Except Fault (Advance α) := do
  let step ← tiers.near.advance nowMs
  if step.rotated then
    let (bucket, far) ← tiers.far.takeNext
    let (near, due) ← cascade step.wheel bucket step.due
    return ⟨⟨near, far⟩, due, true⟩
  else
    return ⟨{ tiers with near := step.wheel }, step.due, false⟩

/-- What an advance that cannot be completed leaves behind. The near wheel has turned already, and
the bucket taken out of the far wheel is lost. -/
def halted (tiers : TwoTier α) (nowMs : Nat) : TwoTier α :=
  match tiers.near.advance nowMs with
  | .ok step => ⟨step.wheel, tiers.far.dropNext⟩
  | .error _ => tiers

/-- What settling did. -/
structure Settling (α : Type) where
  tiers : TwoTier α
  /-- Everything that became due, in order. -/
  due : List (Task α)
  /-- Cleared when an advance could not be completed, after which the wheels stand still. -/
  intact : Bool
  deriving Repr

/-- Advance while the near wheel completes rotations, at most `turns` times, appending what is due
to `due`. -/
def settleWithin (nowMs : Nat) : Nat → TwoTier α → List (Task α) → Settling α
  | 0, tiers, due => ⟨tiers, due, true⟩
  | turns + 1, tiers, due =>
    match tiers.advance nowMs with
    | .error _ => ⟨tiers.halted nowMs, due, false⟩
    | .ok step =>
      if step.rotated then
        settleWithin nowMs turns step.tiers (due ++ step.due)
      else
        ⟨step.tiers, due ++ step.due, true⟩

/-- Bring the wheels up to `nowMs` and collect what became due. Each rotation moves the near window
by a millisecond at least and never past `nowMs`, which bounds the number of turns. -/
def settle (tiers : TwoTier α) (nowMs : Nat) : Settling α :=
  settleWithin nowMs (nowMs - tiers.near.startMs + 1) tiers []

/-- The instant at which settled wheels have to be looked at again: the end of the earliest busy
near bucket, or the end of the rotation, where the next far bucket comes in. -/
def wakeMs (tiers : TwoTier α) : Except Fault Nat := do
  match ← tiers.near.nextDueMs with
  | some dueMs => return dueMs
  | none => tiers.near.endMs

end TwoTier

end Quorum
