import Quorum.Word

/-!
# Delays

A delay is a span of time in whole seconds and nanoseconds. The timers measure in milliseconds:
`Delay.ms` is the number of whole milliseconds, kept in one 64-bit word by dropping the high bits.
For every delay given in milliseconds in the first place nothing is dropped (`Delay.ms_ofMs`).
-/

namespace Quorum

/-- A span of time: whole seconds, and less than a second in nanoseconds. -/
structure Delay where
  secs : Nat
  nanos : Nat
  deriving DecidableEq, Repr, Inhabited

namespace Delay

/-- The span of `ms` milliseconds. -/
def ofMs (ms : Nat) : Delay := ⟨ms / 1000, ms % 1000 * 1000000⟩

/-- The span of some seconds and nanoseconds; full seconds among the nanoseconds are carried. -/
def ofParts (secs nanos : Nat) : Except Fault Delay :=
  (Word.add secs (nanos / 1000000000)).map fun whole => ⟨whole, nanos % 1000000000⟩

/-- The whole milliseconds of the span, as an unbounded number. -/
def wholeMs (delay : Delay) : Nat := delay.secs * 1000 + delay.nanos / 1000000

/-- The whole milliseconds of the span, as the timers see them: in one word. -/
def ms (delay : Delay) : Nat := delay.wholeMs % Word.limit

@[simp]
theorem wholeMs_ofMs (ms : Nat) : (ofMs ms).wholeMs = ms := by
  simp only [wholeMs, ofMs]
  omega

theorem ms_ofMs {ms : Nat} (fits : ms < Word.limit) : (ofMs ms).ms = ms := by
  rw [Delay.ms, wholeMs_ofMs, Nat.mod_eq_of_lt fits]

end Delay

end Quorum
