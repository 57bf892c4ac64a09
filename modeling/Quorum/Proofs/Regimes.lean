import Quorum.Proofs.Handlers
import Quorum.Proofs.Election.Clockwork
import Quorum.Proofs.Timing.Room

/-!
# Regimes

A handler cancels timers and arms others, and fails only if a timer that it arms is refused, or if
something is beyond its range.  A `Regime` says what is known of the timers and the clock while
handlers run, which delays timers are armed with, and how a handler may fail then.  A handler that
`Obeys` it leaves the timers as they are known to be, or fails in one of these ways.

What has to be known of the own state are the delays it arms with.  The rules carry this condition
along, so that for each handler it is enough to say where its delays come from.
-/

namespace Quorum

open Act

/-- What is known of the timers, and what a handler may do with them. -/
structure Regime where
  holds : Scheduler TimerEvent → Nat → Prop
  admits : Delay → Prop
  fails : Nat → Failure → Prop
  cancel : ∀ {timers clockMs}, holds timers clockMs → ∀ handle,
    holds (timers.cancel handle) clockMs
  undated : ∀ {timers clockMs}, holds timers clockMs → lastInstantMs < clockMs →
    fails clockMs (.fault .undated)
  armed : ∀ {timers clockMs delay repeats event handle next}, holds timers clockMs →
    admits delay → timers.schedule clockMs delay repeats event = .ok (handle, next) →
      holds next clockMs
  refused : ∀ {timers clockMs delay repeats event failure}, holds timers clockMs →
    admits delay → timers.schedule clockMs delay repeats event = .error failure →
      fails clockMs failure

variable {σ τ α β : Type} {regime : Regime} {admits : σ → Prop}

/-- The state is admissible and the timers are as they are known to be, at this instant. -/
structure Stage.Ready
    (regime : Regime)
    (clockMs : Nat)
    (admits : σ → Prop)
    (stage : Stage σ) : Prop where
  admitted : admits stage.own
  prepared : regime.holds stage.outside.timers clockMs
  clock_eq : stage.outside.clockMs = clockMs

/-- On a stage that is ready, the handler fails only as the regime says, and leaves the stage
ready. -/
def Act.Obeys (regime : Regime) (admits : σ → Prop) (act : Act σ α) : Prop :=
  ∀ (clockMs : Nat) (stage : Stage σ), stage.Ready regime clockMs admits →
    act.Ensures stage
      (fun _ after => after.Ready regime clockMs admits)
      fun failure _ => regime.fails clockMs failure

namespace Act.Obeys

theorem pure (value : α) : Obeys regime admits (Pure.pure value : Act σ α) :=
  fun _ _ ready => ready

theorem throw {failure : Failure} (may : ∀ clockMs, regime.fails clockMs failure) :
    Obeys regime admits (throw failure : Act σ α) :=
  fun clockMs _ _ => may clockMs

theorem bind
    {act : Act σ α}
    {next : α → Act σ β}
    (first : Obeys regime admits act)
    (second : ∀ value, Obeys regime admits (next value)) :
    Obeys regime admits (act >>= next) := by
  intro clockMs stage ready
  rw [ensures_bind]
  refine (first clockMs stage ready).mono ?_ fun _ _ fails => fails
  exact fun value after ready => second value clockMs after ready

/-- What is read of the own state is admissible. -/
theorem own_bind
    {next : σ → Act σ α}
    (continues : ∀ own, admits own → Obeys regime admits (next own)) :
    Obeys regime admits (Act.own >>= next) := by
  intro clockMs stage ready
  rw [ensures_bind, ensures_own]
  exact continues stage.own ready.admitted clockMs stage ready

theorem modifyOwn
    {change : σ → σ}
    (kept : ∀ own, admits own → admits (change own)) :
    Obeys regime admits (Act.modifyOwn change) :=
  fun _ stage ready => { ready with admitted := kept stage.own ready.admitted }

theorem setOwn {next : σ} (admitted : admits next) : Obeys regime admits (Act.setOwn next) :=
  fun _ _ ready => { ready with admitted }

theorem forM
    {body : α → Act σ Unit}
    (obeys : ∀ item, Obeys regime admits (body item))
    (list : List α) :
    Obeys regime admits (list.forM body) := by
  induction list with
  | nil => exact pure ()
  | cons item rest ih => exact (obeys item).bind fun _ => ih

theorem ask (wish : Ask) : Obeys regime admits (Act.ask wish) :=
  fun _ _ ready => { ready with }

theorem cancel (handle : Handle) : Obeys regime admits (Act.cancel handle) :=
  fun _ _ ready => { ready with prepared := regime.cancel ready.prepared handle }

theorem isCancelled (handle : Handle) : Obeys regime admits (Act.isCancelled handle) :=
  fun _ _ ready => ready

/-- A drawn delay lies in its window. -/
theorem draw_bind
    {window : Window}
    {next : Delay → Act σ α}
    (continues : ∀ delay, window.Admits delay → Obeys regime admits (next delay)) :
    Obeys regime admits (Act.draw window >>= next) := by
  intro clockMs stage ready
  rw [ensures_bind, ensures_draw]
  exact continues _ (window.admits_sample _) clockMs _ { ready with }

theorem datedClockMs : Obeys regime admits Act.datedClockMs := by
  intro clockMs stage ready
  rw [ensures_datedClockMs_iff, ready.clock_eq]
  split
  · exact ready
  · next late => exact regime.undated ready.prepared (Nat.not_le.mp late)

/-- A timer is armed with an admissible delay. -/
theorem arm
    {delay : Delay}
    (admitted : regime.admits delay)
    (event : TimerEvent)
    (repeats : Bool) :
    Obeys regime admits (Act.arm delay event repeats) := by
  intro clockMs stage ready
  rw [ensures_arm, ready.clock_eq]
  split
  · next armed => exact { ready with prepared := regime.armed ready.prepared admitted armed }
  · next refused => exact regime.refused ready.prepared admitted refused

/-- What a handler of a part obeys, it obeys on the whole. -/
theorem within
    {part : σ → τ}
    {replace : τ → σ → σ}
    {admits' : τ → Prop}
    {act : Act τ α}
    (obeys : Obeys regime admits' act)
    (part_admits : ∀ whole, admits whole → admits' (part whole))
    (replace_admits : ∀ whole inner, admits whole → admits' inner → admits (replace inner whole)) :
    Obeys regime admits (Act.within part replace act) := by
  intro clockMs stage ready
  rw [ensures_within]
  refine (obeys clockMs ⟨part stage.own, stage.outside⟩
    { ready with admitted := part_admits _ ready.admitted }).mono ?_ fun _ _ fails => fails
  intro value inner ready'
  exact { ready' with admitted := replace_admits _ _ ready.admitted ready'.admitted }

end Act.Obeys

/-- The timers are prepared, and at a fresh clock nothing is refused that has an accepted delay.  A
handler answers or is lost to a number or a date beyond its range. -/
def Regime.excused (table : Timetable) : Regime where
  holds := fun timers clockMs => timers.Prepared table clockMs
  admits := table.Admits
  fails := table.Excuses
  cancel := fun prepared => prepared.cancel
  undated := fun _ _ => .range rfl
  armed := fun prepared admitted armed => prepared.schedule admitted armed
  refused := fun prepared admitted refused => prepared.schedule_refused admitted refused

end Quorum
