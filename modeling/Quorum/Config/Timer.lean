import Quorum.Word

/-!
# Timer dimensions

The timers keep deadlines in two tiers of buckets. The near tier has buckets of one tick each. One
bucket of the far tier is as wide as the whole near tier, so together they span
`tickMs * nearBuckets * farBuckets`. The wheels may be settled one tick late, which shifts the far
window by as much; delays are therefore accepted up to one tick short of the full span.
-/

namespace Quorum

/-- The dimensions of the two tiers. -/
structure TimerConfig where
  tickMs : Nat := 10
  nearBuckets : Nat := 60
  farBuckets : Nat := 100
  deriving DecidableEq, Repr, Inhabited

namespace TimerConfig

/-- The time covered by one rotation of the near tier. -/
def nearSpanMs (config : TimerConfig) : Except Fault Nat :=
  Word.mul config.tickMs config.nearBuckets

/-- The time covered by both tiers. -/
def capacityMs (config : TimerConfig) : Except Fault Nat := do
  Word.mul (← config.nearSpanMs) config.farBuckets

/-- The longest delay the scheduler accepts: the full span less one tick. -/
def maxDelayMs (config : TimerConfig) : Except Fault Nat := do
  return (← config.capacityMs) - config.tickMs

/-- None of the dimensions may be zero. -/
def validate (config : TimerConfig) : Except Error Unit :=
  if config.tickMs = 0 ∨ config.nearBuckets = 0 ∨ config.farBuckets = 0 then
    .error (.invalidConfig .zeroTimerDimension)
  else
    .ok ()

/-- Refuses a delay that the tiers cannot hold. -/
def checkDelay (config : TimerConfig) (delayMs : Nat) : Except Failure Unit := do
  let capacityMs ← config.capacityMs
  let longestMs ← config.maxDelayMs
  if delayMs > longestMs then
    throw (.error (.capacityExceeded delayMs capacityMs))

end TimerConfig

end Quorum
