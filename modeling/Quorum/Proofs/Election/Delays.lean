import Quorum.Proofs.Election.Manners
import Quorum.Proofs.Regimes

/-!
# The delays of a member

A member arms the election timer with a drawn delay, with the longest one it could draw, or with the
one it used last, and the heartbeat with the interval it was given.  As long as a regime admits all
of these, the handlers of the member obey it (`Member.Abides.bearing`).
-/

namespace Quorum.Member

/-- Every delay that a member may come to use is admitted. -/
structure Abides (admits : Delay → Prop) (member : Member) : Prop where
  window : ∀ delay, member.window.Admits delay → admits delay
  heartbeat : admits member.heartbeatInterval
  election : admits member.electionDelay

namespace Abides

variable {regime : Regime}

theorem habit : Habit (Act.Obeys regime (Abides regime.admits)) (Abides regime.admits)
    regime.admits where
  pure := .pure
  bind := .bind
  own_bind := .own_bind
  modifyOwn := .modifyOwn
  ask := .ask
  cancel := .cancel
  draw_bind := .draw_bind
  datedClockMs := .datedClockMs
  arm := .arm
  kept := fun abides window_eq heartbeat_eq admitted => {
    window := window_eq.symm ▸ abides.window
    heartbeat := heartbeat_eq.symm ▸ abides.heartbeat
    election := admitted }
  window := Abides.window
  heartbeat := Abides.heartbeat
  election := Abides.election

/-- The handlers of a member obey, but for the one that begins a term. -/
theorem bearing : Bearing (Act.Obeys regime (Abides regime.admits)) (Abides regime.admits)
    regime.admits :=
  habit.bearing

/-- This one obeys as well if it may be lost to an overflow. -/
theorem manner (overflow : ∀ clockMs, regime.fails clockMs (.fault .overflow)) :
    Manner (Act.Obeys regime (Abides regime.admits)) (Abides regime.admits) regime.admits :=
  { bearing with overflow := .throw overflow }

/-- A member that stops only cancels. -/
theorem stop : Act.Obeys regime (Abides regime.admits) Member.stop := by
  refine habit.disarmElection.bind fun _ => .own_bind fun member _ => ?_
  split
  · exact .cancel _
  · exact .pure ()

end Abides

end Quorum.Member
