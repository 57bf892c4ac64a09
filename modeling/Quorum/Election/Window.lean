import Quorum.Config.Node
import Quorum.Delay

/-!
# The election window

Each election timeout is drawn anew from a window, so that members which follow the same leader
seldom time out together. Where the draws come from is left open: any number names a timeout of the
window, and every timeout of the window is named by some number.
-/

namespace Quorum

/-- The bounds of the election timeout. -/
structure Window where
  minMs : Nat
  maxMs : Nat
  ordered : minMs ≤ maxMs
  deriving DecidableEq, Repr

namespace Window

/-- The window between two bounds, given in either order. -/
def between (oneMs otherMs : Nat) : Window :=
  ⟨min oneMs otherMs, max oneMs otherMs, by omega⟩

/-- The window of a configuration. -/
def ofConfig (config : NodeConfig) : Window := between config.electionMinMs config.electionMaxMs

/-- The timeout named by a drawn number. -/
def timeoutMs (window : Window) (drawn : Nat) : Nat :=
  window.minMs + drawn % (window.maxMs - window.minMs + 1)

/-- The timeout named by a drawn number, as a delay. -/
def sample (window : Window) (drawn : Nat) : Delay := Delay.ofMs (window.timeoutMs drawn)

/-- The longest timeout, which leaves a candidate time to finish its round. -/
def longest (window : Window) : Delay := Delay.ofMs window.maxMs

theorem minMs_le_timeoutMs (window : Window) (drawn : Nat) :
    window.minMs ≤ window.timeoutMs drawn :=
  Nat.le_add_right _ _

theorem timeoutMs_le_maxMs (window : Window) (drawn : Nat) :
    window.timeoutMs drawn ≤ window.maxMs := by
  have below : drawn % (window.maxMs - window.minMs + 1) < window.maxMs - window.minMs + 1 :=
    Nat.mod_lt _ (Nat.succ_pos _)
  have ordered := window.ordered
  simp only [timeoutMs]
  omega

/-- Every timeout of the window can be drawn. -/
theorem exists_timeoutMs_eq
    (window : Window)
    {ms : Nat}
    (above : window.minMs ≤ ms)
    (below : ms ≤ window.maxMs) :
    ∃ drawn, window.timeoutMs drawn = ms := by
  refine ⟨ms - window.minMs, ?_⟩
  rw [timeoutMs, Nat.mod_eq_of_lt (by omega)]
  omega

end Window

end Quorum
