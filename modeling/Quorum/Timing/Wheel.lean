import Quorum.Timing.Task

/-!
# Wheels

A wheel is a ring of buckets over a window of time `[startMs, startMs + tickMs * bucketCount)`.
Each bucket holds the tasks that become due during one tick, in the order in which they came.

A wheel is used in one of two ways. As a near wheel it fills from the front: bucket `i` stands for
the tick `i` of the present rotation, `advance` drains the buckets whose tick has elapsed, and the
whole window moves when the last bucket is drained. As a far wheel its window slides by one tick at
a time: bucket `current` always begins at `startMs`, the others follow around the ring, and
`takeNext` hands out that first bucket.
-/

namespace Quorum

/-- A ring of buckets over a window of the scheduler's clock. -/
structure Wheel (α : Type) where
  tickMs : Nat
  buckets : List (List (Task α))
  startMs : Nat
  current : Nat
  deriving DecidableEq, Repr, Inhabited

namespace Wheel

variable {α : Type}

/-- The most buckets that a wheel can be made of. -/
def mostBuckets : Nat := 288230376151711743

/-- An empty wheel. -/
def ofDimensions (tickMs bucketCount startMs : Nat) : Except Fault (Wheel α) :=
  if mostBuckets < bucketCount then .error .tooLarge
  else .ok ⟨tickMs, List.replicate bucketCount [], startMs, 0⟩

def bucketCount (wheel : Wheel α) : Nat := wheel.buckets.length

/-- The time covered by the whole wheel. -/
def spanMs (wheel : Wheel α) : Except Fault Nat := Word.mul wheel.tickMs wheel.bucketCount

/-- The end of the window: the first instant the wheel cannot hold. -/
def endMs (wheel : Wheel α) : Except Fault Nat := do
  Word.add wheel.startMs (← wheel.spanMs)

/-- The tasks held, bucket by bucket. -/
def tasks (wheel : Wheel α) : List (Task α) := wheel.buckets.flatten

/-- How many tasks the wheel holds. -/
def size (wheel : Wheel α) : Nat := wheel.tasks.length

def isEmpty (wheel : Wheel α) : Bool := wheel.buckets.all List.isEmpty

/-- Append a task to one bucket. -/
def place (wheel : Wheel α) (index : Nat) (task : Task α) : Wheel α :=
  { wheel with buckets := wheel.buckets.modify index (· ++ [task]) }

/-- Put a task into the near wheel. A task beyond the end of this rotation is refused, as `none`.
A task whose own bucket has been drained already goes into the current one. -/
def insert (wheel : Wheel α) (task : Task α) : Except Fault (Option (Wheel α)) := do
  let endMs ← wheel.endMs
  if task.fireAtMs ≥ endMs then
    return none
  let tick ← Word.div (task.fireAtMs - wheel.startMs) wheel.tickMs
  if wheel.bucketCount = 0 then
    throw .overflow
  let index := min (max tick wheel.current) (wheel.bucketCount - 1)
  return some (wheel.place index task)

/-- What became of a task offered to a far wheel. -/
inductive Placement (α : Type) where
  | placed (wheel : Wheel α)
  /-- The fire time is behind the window. -/
  | behind
  /-- The fire time is beyond the window. -/
  | beyond
  deriving Repr

/-- Put a task into the far wheel, counting the buckets around the ring from the current one. -/
def insertFar (wheel : Wheel α) (task : Task α) : Except Fault (Placement α) := do
  let endMs ← wheel.endMs
  if task.fireAtMs ≥ endMs then
    return .beyond
  if task.fireAtMs < wheel.startMs then
    return .behind
  let offset ← Word.div (task.fireAtMs - wheel.startMs) wheel.tickMs
  if wheel.bucketCount = 0 then
    throw .divisionByZero
  return .placed (wheel.place ((wheel.current + offset) % wheel.bucketCount) task)

/-- Empty the buckets from index `first` up to index `past`. -/
def clear (wheel : Wheel α) (first past : Nat) : List (List (Task α)) :=
  wheel.buckets.take first ++ List.replicate (past - first) [] ++ wheel.buckets.drop past

/-- What an advance did: the wheel after it, the drained tasks, and whether it completed the
rotation. -/
structure Advance (α : Type) where
  wheel : Wheel α
  due : List (Task α)
  rotated : Bool
  deriving Repr

/-- Drain every bucket whose tick has elapsed at `nowMs`. When all have, the rotation is complete:
the window moves forward by one span and the wheel begins again at its first bucket. -/
def advance (wheel : Wheel α) (nowMs : Nat) : Except Fault (Advance α) := do
  let ticks ← Word.div (nowMs - wheel.startMs) wheel.tickMs
  let elapsed := min ticks wheel.bucketCount
  let first := min wheel.current elapsed
  let due := ((wheel.buckets.drop first).take (elapsed - first)).flatten
  let buckets := wheel.clear first elapsed
  if elapsed = wheel.bucketCount then
    let startMs ← Word.add wheel.startMs (← wheel.spanMs)
    return ⟨{ wheel with buckets, startMs, current := 0 }, due, true⟩
  else
    return ⟨{ wheel with buckets, current := max wheel.current elapsed }, due, false⟩

/-- Take the bucket that begins at `startMs`, and move the window forward by one tick. -/
def takeNext (wheel : Wheel α) : Except Fault (List (Task α) × Wheel α) :=
  match wheel.buckets[wheel.current]? with
  | none => .error .outOfRange
  | some bucket => do
    let startMs ← Word.add wheel.startMs wheel.tickMs
    return (bucket,
      { wheel with
        buckets := wheel.buckets.set wheel.current []
        startMs
        current := (wheel.current + 1) % wheel.bucketCount })

/-- The wheel without the content of the bucket that begins at `startMs`. -/
def dropNext (wheel : Wheel α) : Wheel α :=
  { wheel with buckets := wheel.buckets.set wheel.current [] }

/-- The end of the earliest bucket of this rotation that holds a task. -/
def nextDueMs (wheel : Wheel α) : Except Fault (Option Nat) :=
  match (wheel.buckets.drop wheel.current).findIdx? (fun bucket => !bucket.isEmpty) with
  | none => .ok none
  | some offset => do
    let dueMs ← Word.add wheel.startMs (← Word.mul (wheel.current + offset + 1) wheel.tickMs)
    return some dueMs

end Wheel

end Quorum
