import Quorum.CommandLine.Outcome

/-!
# The command line

Prints what `Quorum.Outcome.ofArgs` says and ends with its code. The numbers that a run draws come
from one seed.
-/

namespace Quorum

/-- A source of numbers for every node: a linear congruence over the seed, the name of the node and
the number of the draw. -/
def drawsFrom (seed : Nat) (id : NodeId) (index : Nat) : Nat :=
  let start := seed + id.toList.foldl (fun sum c => 31 * sum + c.toNat) 0
  (6364136223846793005 * (start + 2862933555777941757 * index) + 1442695040888963407)
    % 18446744073709551616 / 4294967296

end Quorum

def main (args : List String) : IO UInt32 := do
  let seed ← IO.rand 0 4294967295
  let outcome := Quorum.Outcome.ofArgs args (Quorum.drawsFrom seed)
  (← IO.getStdout).putStr outcome.output
  (← IO.getStderr).putStr outcome.errors
  return outcome.exitCode.toUInt32
