import Quorum.Proofs.Election.Delays
import Quorum.Proofs.Node.Manners
import Quorum.Proofs.Node.Silence
import Quorum.Proofs.Peers.Delays

/-!
# No timeout is lost to the capacity of the wheels

A configuration is refused if one of its timeouts does not fit into the wheels.  Once it has been
accepted, a node never loses a timeout to them (`Course.never_refused`).  The election and the
liveness protocol arm their timers only with the delays that have been checked, whatever happens to
them, and the consumer puts recurring tasks back with the same ones.

The wheels need not stand at the clock for this.  They may have been settled one tick before, which
is what the check of the configuration leaves room for.
-/

namespace Quorum

namespace Core

/-- Every delay of the election and of the protocol is admitted. -/
structure Abides (admits : Delay → Prop) (core : Core) : Prop where
  member : core.member.Abides admits
  liveness : core.liveness.Abides admits

namespace Abides

variable {table : Timetable} {config : NodeConfig} {regime : Regime}

/-- The delays of a valid configuration have been checked, and so the timers accept them. -/
theorem of_validate
    (valid : config.validate = .ok ())
    (config_eq : table.config = config.timer)
    (sinceMs : Nat) :
    (Core.ofConfig config sinceMs).Abides table.Admits := by
  have checked := NodeConfig.checked_of_validate valid
  have interval : table.Admits (Delay.ofMs config.heartbeatIntervalMs) :=
    TimerConfig.checkDelay_ofMs (config_eq ▸ checked.interval) (Nat.le_refl _)
  have timeout : table.Admits (Delay.ofMs config.heartbeatTimeoutMs) :=
    TimerConfig.checkDelay_ofMs (config_eq ▸ checked.timeout) (Nat.le_refl _)
  have window (delay : Delay) (admitted : (Window.ofConfig config).Admits delay) :
      table.Admits delay := by
    obtain ⟨ms, _, within, rfl⟩ := admitted
    have longest : (Window.ofConfig config).maxMs = config.electionMaxMs :=
      Nat.max_eq_right checked.ordered
    exact TimerConfig.checkDelay_ofMs (config_eq ▸ checked.election) (longest ▸ within)
  exact {
    member := ⟨window, interval, window _ (Window.admits_longest _)⟩
    liveness := ⟨interval, timeout⟩ }

/-- A node arms no timers beside those of its parts. -/
theorem manner : Manner (Act.Obeys regime (Abides regime.admits))
    (Act.Obeys regime (Member.Abides regime.admits))
    (Act.Obeys regime (Liveness.Abides regime.admits)) where
  pure := .pure
  bind := .bind
  own_bind := fun continues => .own_bind fun core _ => continues core
  ask := .ask
  tell := fun _ => .modifyOwn fun _ abides => { abides with }
  elect := fun obeys => .own_bind fun core _ =>
    (obeys core.registry).within (fun _ abides => abides.member)
      fun _ _ abides member => { abides with member }
  watch := fun obeys => obeys.within (fun _ abides => abides.liveness)
    fun _ _ abides liveness => { abides with liveness }

theorem shutdown : Act.Obeys regime (Abides regime.admits) Core.shutdown :=
  manner.bind (manner.elect fun _ => Member.Abides.stop) fun _ =>
    manner.watch Liveness.Abides.shutdown

/-- Whatever makes a node act, it obeys, unless it is the election timer. -/
theorem routine
    {impulse : Impulse}
    (other : impulse ≠ .timer .electionTimeout) :
    Act.Obeys regime (Abides regime.admits) impulse.handler :=
  manner.routine Member.Abides.bearing Liveness.Abides.manner other

/-- The election timer obeys if it may be lost to an overflow. -/
theorem obeys
    (overflow : ∀ clockMs, regime.fails clockMs (.fault .overflow))
    (impulse : Impulse) :
    Act.Obeys regime (Abides regime.admits) impulse.handler :=
  manner.impulse Liveness.Abides.manner (Member.Abides.manner overflow) impulse

/-- Whatever makes a node act, it is refused no timer. -/
theorem impulse (impulse : Impulse) :
    Act.Obeys (.excused table) (Abides table.Admits) impulse.handler :=
  have overflow (clockMs : Nat) : (Regime.excused table).fails clockMs (.fault .overflow) :=
    Timetable.Excuses.range rfl
  obeys overflow impulse

end Abides

end Core

/-! ## Runs -/

/-- A run of a node, with the dates of its timers.  A handler that fails ends it, and so do timers
that cannot go on.  When the wheels are settled, and how far the clock is ahead of them, is left
open, and so is what else happens outside. -/
inductive Course (config : NodeConfig) : Timetable → Stage Core → Prop where
  | begun
      {stage : Stage Core} {sinceMs epochMs : Nat}
      (valid : config.validate = .ok ())
      (own_eq : stage.own = Core.ofConfig config sinceMs)
      (clock_eq : stage.outside.clockMs = epochMs)
      (made : Scheduler.start config.timer epochMs = .ok stage.outside.timers) :
      Course config ⟨config.timer, epochMs, epochMs⟩ stage
  | handled
      {table : Timetable} {stage after : Stage Core} {impulse : Impulse}
      (course : Course config table stage)
      (answered : impulse.handler.perform stage = (.ok (), after)) :
      Course config table after
  /-- The consumer takes a fired task, or finds that there is none. -/
  | received
      {table : Timetable} {stage : Stage Core} {task : Option (Task TimerEvent)}
      {timers : Scheduler TimerEvent}
      (course : Course config table stage)
      (taken : stage.outside.timers.receive stage.outside.clockMs = .ok (task, timers)) :
      Course config table { stage with outside.timers := timers }
  | settled
      {table : Timetable} {stage : Stage Core}
      (course : Course config table stage)
      (intact : (stage.outside.timers.settle stage.outside.clockMs).intact = true) :
      Course config { table with settledMs := stage.outside.clockMs }
        { stage with outside.timers := stage.outside.timers.settle stage.outside.clockMs }
  /-- The subscribers fetch their news. -/
  | fetched
      {table : Timetable} {stage : Stage Core}
      (course : Course config table stage) :
      Course config table { stage with own.news := [] }
  /-- Time passes. -/
  | elapsed
      {table : Timetable} {stage : Stage Core} {outside : Outside}
      (course : Course config table stage)
      (timers_eq : outside.timers = stage.outside.timers)
      (later : stage.outside.clockMs ≤ outside.clockMs) :
      Course config table ⟨stage.own, outside⟩

namespace Course

variable {config : NodeConfig} {table : Timetable} {stage : Stage Core}

/-- The delays in use have been checked, and the timers are prepared for them. -/
theorem ready (course : Course config table stage) :
    stage.Ready (.excused table) stage.outside.clockMs (Core.Abides table.Admits) := by
  induction course with
  | begun valid own_eq clock_eq made =>
    subst clock_eq
    exact ⟨own_eq ▸ .of_validate valid rfl _, .of_start made, rfl⟩
  | handled _ answered ih =>
    have after := (Core.Abides.impulse _ _ _ ih).of_perform answered
    rwa [← after.clock_eq] at after
  | received _ taken ih =>
    have rest := ih.prepared.receive
    rw [taken] at rest
    refine { ih with prepared := ?_ }
    split at rest
    · next equation =>
      cases equation
      exact rest.2
    · next equation =>
      cases equation
      exact rest
    · next equation => cases equation
  | settled _ intact ih =>
    have abides := ih.admitted
    exact ⟨⟨{ abides.member with }, { abides.liveness with }⟩, ih.prepared.settle intact, rfl⟩
  | fetched _ ih =>
    exact { ih with admitted := { ih.admitted with } }
  | elapsed _ timers_eq later ih =>
    exact ⟨ih.admitted, timers_eq ▸ ih.prepared.elapsed later, rfl⟩

/-- A node with a valid configuration never loses a timeout to the capacity of its wheels.  Whatever
makes it act, its handler fails only if something is beyond its range, unless the clock is more than
one tick past the last settling.  As long as it is not, the consumer puts back every recurring task
that it takes. -/
theorem never_refused (course : Course config table stage) :
    (∀ (impulse : Impulse) failure,
      (impulse.handler.perform stage).1 = .error failure →
        table.Excuses stage.outside.clockMs failure) ∧
    (∀ task timers,
      stage.outside.timers.receive stage.outside.clockMs = .ok (some task, timers) →
        table.Fresh stage.outside.clockMs →
          stage.outside.timers.Delivers stage.outside.clockMs task timers) ∧
    ∀ cause,
      stage.outside.timers.receive stage.outside.clockMs = .error cause → cause = .overflow := by
  have ready := course.ready
  have received := ready.prepared.receive
  refine ⟨fun impulse failure failed => ?_, fun task timers taken fresh => ?_, fun cause lost => ?_⟩
  · exact (Core.Abides.impulse impulse _ _ ready).of_perform (Act.perform_eq failed)
  · rw [taken] at received
    exact received.1 fresh
  · rw [lost] at received
    exact received

end Course

namespace Tight

/-! ### Timeouts as long as the wheels can hold

The wheels span forty milliseconds, and the timeouts are one tick shorter than that.  The node is
alone, so that it leads as soon as its election timer fires. -/

def config : NodeConfig where
  heartbeatIntervalMs := 20
  heartbeatTimeoutMs := 30
  electionMinMs := 30
  electionMaxMs := 30
  timer := ⟨10, 2, 2⟩

def fresh : Stage Core where
  own := Core.ofConfig config 0
  outside := {
    clockMs := 0
    timers := (Scheduler.start config.timer 0).toOption.getD default
    draws := fun _ => 0 }

def later (stage : Stage Core) (clockMs : Nat) : Stage Core :=
  { stage with outside.clockMs := clockMs }

def started : Stage Core := Lull.told fresh .started

/-- The wheels were settled one tick ago, at the end of the slot in which they stand. -/
def late : Stage Core := later (Lull.settled started 19) 29

def election : Task TimerEvent := ⟨⟨0⟩, Delay.ofMs 30, none, 30, .electionTimeout⟩

def led : Stage Core := Lull.woken (Lull.settled late 40) election.payload

/-- The heartbeat has fired, and its turn comes one tick later. -/
def beating : Stage Core := later (Lull.settled led 70) 80

/-- The heartbeat of the leadership. -/
def beat : Task TimerEvent :=
  ⟨⟨2⟩, Delay.ofMs 20, some (Delay.ofMs 20), 60, .leaderHeartbeat⟩

theorem courses :
    Course config ⟨config.timer, 0, 19⟩ late ∧ Course config ⟨config.timer, 0, 70⟩ beating := by
  have elapse {table : Timetable} {stage : Stage Core} (course : Course config table stage)
      (clockMs : Nat) (reached : stage.outside.clockMs ≤ clockMs) :
      Course config table (later stage clockMs) :=
    course.elapsed rfl reached
  have settle {table : Timetable} {stage : Stage Core} (course : Course config table stage)
      (clockMs : Nat) (reached : stage.outside.clockMs ≤ clockMs)
      (intact : (stage.outside.timers.settle clockMs).intact = true) :
      Course config { table with settledMs := clockMs } (Lull.settled stage clockMs) :=
    (elapse course clockMs reached).settled intact
  have act {table : Timetable} {stage : Stage Core} (course : Course config table stage)
      (impulse : Impulse) (answers : (impulse.handler.perform stage).1 = .ok ()) :
      Course config table (impulse.handler.perform stage).2 :=
    course.handled (Act.perform_eq answers)
  have valid : config.validate = .ok () := by decide +kernel
  have made : Scheduler.start config.timer 0 = .ok fresh.outside.timers := by decide +kernel
  have begun : Course config ⟨config.timer, 0, 0⟩ fresh := .begun valid rfl rfl made
  have starts : Course config _ started := act begun (.told .started) (by decide +kernel)
  have settles := settle starts 19 (by decide +kernel) (by decide +kernel)
  have lags : Course config _ late := elapse settles 29 (by decide +kernel)
  have fires := settle lags 40 (by decide +kernel) (by decide +kernel)
  have taken : (Lull.settled late 40).outside.timers.receive 40 =
      .ok (some election, Lull.rest (Lull.settled late 40)) := by decide +kernel
  have leads : Course config _ led :=
    act (fires.received taken) (.timer election.payload) (by decide +kernel)
  have beats := settle leads 70 (by decide +kernel) (by decide +kernel)
  exact ⟨lags, elapse beats 80 (by decide +kernel)⟩

end Tight

/-- A timer with the longest delay is armed one tick after the wheels were settled, and the
heartbeat is put back one tick after it has fired. -/
theorem Course.never_refused_tight :
    (Course Tight.config ⟨Tight.config.timer, 0, 19⟩ Tight.late ∧
        Course Tight.config ⟨Tight.config.timer, 0, 70⟩ Tight.beating) ∧
      (∀ (impulse : Impulse) failure,
        (impulse.handler.perform Tight.late).1 = .error failure → failure.isRange = true) ∧
      ((Core.onAccepted ⟨1⟩).perform Tight.late).1 = .ok () ∧
      Tight.beating.outside.timers.Delivers 80 Tight.beat (Lull.rest Tight.beating) := by
  obtain ⟨lags, beats⟩ := Tight.courses
  refine ⟨⟨lags, beats⟩, fun impulse failure failed => ?_, by decide +kernel, ?_⟩
  · exact (lags.never_refused.1 impulse failure failed).isRange (by decide +kernel)
  · exact beats.never_refused.2.1 _ _ (by decide +kernel) (by decide +kernel)

/-- One millisecond later the same timer is refused. -/
example :
    ((Core.onAccepted ⟨1⟩).perform (Tight.later Tight.late 30)).1 =
      .error (.error (.capacityExceeded 30 40)) := by
  decide +kernel

end Quorum
