import Quorum.Proofs.Election.Turn
import Quorum.Proofs.Timing.Holdings

/-!
# The timers of a member

A member that does not lead keeps one election timer armed, and a member that leads keeps one
recurring heartbeat.  Only a few things decide about this, together the `Clockwork`: the standing of
the member, the handles it holds, the window of its delays, and the timers themselves.

Between two occasions the clockwork is `Armed` or it is `Leading`.  Within a handler it may also be
`Loose`: no live timer of an election is there that the member would not cancel with the handle it
holds, but there need not be one.  Every way to arm the election timer anew goes from a loose
clockwork to an armed one.
-/

namespace Quorum

open Act Member

/-- Whether a timer event belongs to the election. -/
def TimerEvent.isElection : TimerEvent → Bool
  | electionTimeout => true
  | leaderHeartbeat => true
  | _ => false

/-- The timers of the election that could still be received. -/
def Scheduler.elections (timers : Scheduler TimerEvent) : List (Task TimerEvent) :=
  timers.live.filter fun task => task.payload.isElection

/-- All that the timers of a member depend on. -/
structure Clockwork where
  standing : Standing
  window : Window
  electionTask : Option Handle
  electionDelay : Delay
  timers : Scheduler TimerEvent

def Stage.clockwork (stage : Stage Member) : Clockwork where
  standing := stage.own.standing
  window := stage.own.window
  electionTask := stage.own.electionTask
  electionDelay := stage.own.electionDelay
  timers := stage.outside.timers

/-- A delay of the window, in whole milliseconds. -/
def Window.Admits (window : Window) (delay : Delay) : Prop :=
  ∃ ms, window.minMs ≤ ms ∧ ms ≤ window.maxMs ∧ delay = Delay.ofMs ms

theorem Window.admits_sample (window : Window) (drawn : Nat) :
    window.Admits (window.sample drawn) :=
  ⟨_, window.minMs_le_timeoutMs drawn, window.timeoutMs_le_maxMs drawn, rfl⟩

theorem Window.admits_longest (window : Window) : window.Admits window.longest :=
  ⟨_, window.ordered, Nat.le_refl _, rfl⟩

namespace Clockwork

theorem candidate_leadsNot (votes : List NodeId) : (Standing.candidate votes).role ≠ .leader := by
  intro leads
  cases leads

/-- What holds throughout: the timers are sound, the delay is one of the configured window, and the
member holds no handle that has not been given out. -/
structure Orderly (config : NodeConfig) (clockwork : Clockwork) : Prop where
  sound : clockwork.timers.Sound
  window_eq : clockwork.window = Window.ofConfig config
  admitted : (Window.ofConfig config).Admits clockwork.electionDelay
  taskIssued : ∀ handle, clockwork.electionTask = some handle →
    handle.number < clockwork.timers.issued
  heartbeatIssued : ∀ handle, clockwork.standing = .leader handle →
    handle.number < clockwork.timers.issued

/-- The member does not lead, and can cancel every live timer of the election. -/
structure Loose (config : NodeConfig) (clockwork : Clockwork) : Prop
    extends Orderly config clockwork where
  leadsNot : clockwork.standing.role ≠ .leader
  owned : ∀ task ∈ clockwork.timers.elections, clockwork.electionTask = some task.handle

/-- The member does not lead, and its election timer is the only live timer of the election. -/
structure Armed (config : NodeConfig) (clockwork : Clockwork) : Prop
    extends Orderly config clockwork where
  leadsNot : clockwork.standing.role ≠ .leader
  alone : ∃ task, clockwork.timers.elections = [task] ∧
    task.payload = .electionTimeout ∧ task.period = none ∧
    task.delay = clockwork.electionDelay ∧ clockwork.electionTask = some task.handle

/-- The member leads, and its recurring heartbeat is the only live timer of the election. -/
structure Leading (config : NodeConfig) (clockwork : Clockwork) : Prop
    extends Orderly config clockwork where
  disarmed : clockwork.electionTask = none
  alone : ∃ task, clockwork.timers.elections = [task] ∧
    task.payload = .leaderHeartbeat ∧ task.isRecurring = true ∧
    clockwork.standing = .leader task.handle

/-- How the clockwork is between two occasions. -/
def Wound (config : NodeConfig) (clockwork : Clockwork) : Prop :=
  clockwork.Armed config ∨ clockwork.Leading config

variable {config : NodeConfig} {clockwork : Clockwork}

theorem Armed.loose (armed : clockwork.Armed config) : clockwork.Loose config := by
  obtain ⟨task, alone, _, _, _, held⟩ := armed.alone
  exact {
    toOrderly := armed.toOrderly
    leadsNot := armed.leadsNot
    owned := by
      rw [alone]
      exact List.forall_mem_singleton.mpr held }

/-- Without a live timer every clockwork of a member that does not lead is loose. -/
theorem Orderly.loose
    (orderly : clockwork.Orderly config)
    (leadsNot : clockwork.standing.role ≠ .leader)
    (silent : clockwork.timers.elections = []) :
    clockwork.Loose config where
  toOrderly := orderly
  leadsNot := leadsNot
  owned := by
    rw [silent]
    exact List.forall_mem_nil _

theorem Wound.orderly (wound : clockwork.Wound config) : clockwork.Orderly config := by
  rcases wound with armed | leading
  · exact armed.toOrderly
  · exact leading.toOrderly

theorem Wound.armed_of_leadsNot
    (wound : clockwork.Wound config)
    (leadsNot : clockwork.standing.role ≠ .leader) :
    clockwork.Armed config := by
  rcases wound with armed | leading
  · exact armed
  · obtain ⟨task, _, _, _, standing⟩ := leading.alone
    rw [standing] at leadsNot
    exact absurd rfl leadsNot

theorem Wound.armed_of_role
    {role : Role}
    (wound : clockwork.Wound config)
    (plays : clockwork.standing.role = role)
    (leadsNot : role ≠ .leader) :
    clockwork.Armed config :=
  wound.armed_of_leadsNot (plays ▸ leadsNot)

theorem Wound.leading_of_leads
    (wound : clockwork.Wound config)
    (leads : clockwork.standing.role = .leader) :
    clockwork.Leading config := by
  rcases wound with armed | leading
  · exact absurd leads armed.leadsNot
  · exact leading

end Clockwork

namespace Scheduler

variable {timers next : Scheduler TimerEvent}

theorem elections_cancel (timers : Scheduler TimerEvent) (handle : Handle) :
    (timers.cancel handle).elections =
      timers.elections.filter fun task => task.handle ≠ handle := by
  unfold elections
  rw [live_cancel, List.filter_filter, List.filter_filter]
  apply List.filter_congr
  intro task _
  exact Bool.and_comm ..

theorem elections_perm {tasks : List (Task TimerEvent)} (live : next.live.Perm tasks) :
    next.elections.Perm (tasks.filter fun task => task.payload.isElection) :=
  live.filter _

/-- Where there is no live timer of the election, a new one is the only one. -/
theorem elections_schedule
    {clockMs : Nat}
    {delay : Delay}
    {repeats : Bool}
    {event : TimerEvent}
    {handle : Handle}
    (sound : timers.Sound)
    (silent : timers.elections = [])
    (electoral : event.isElection = true)
    (scheduled : timers.schedule clockMs delay repeats event = .ok (handle, next)) :
    next.elections = [timers.appointment clockMs delay repeats event] := by
  have live := elections_perm (sound.schedule scheduled).2
  have chosen : ([timers.appointment clockMs delay repeats event].filter fun task =>
      task.payload.isElection) = [timers.appointment clockMs delay repeats event] :=
    List.filter_cons_of_pos electoral
  rw [List.filter_append, chosen, show (timers.live.filter _) = timers.elections from rfl, silent,
    List.nil_append] at live
  exact List.perm_singleton.mp live

end Scheduler

/-! ## Handlers that leave the clockwork alone -/

/-- A handler that answers with the clockwork as it was. -/
def Unwatched {α : Type} (act : Act Member α) : Prop :=
  ∀ stage, act.Ensures stage (fun _ after => after.clockwork = stage.clockwork) fun _ _ => True

namespace Unwatched

variable {α : Type} {stage : Stage Member}

/-- What holds of the clockwork still holds after such a handler. -/
theorem ensures
    {act : Act Member α}
    {post : Clockwork → Prop}
    (unwatched : Unwatched act)
    (held : post stage.clockwork) :
    act.Ensures stage (fun _ after => post after.clockwork) fun _ _ => True :=
  (unwatched stage).mono (fun _ _ same => same ▸ held) fun _ _ => id

theorem modifyLedger (change : Ledger → Ledger) : Unwatched (Member.modifyLedger change) :=
  fun _ => rfl

theorem draw (window : Window) : Unwatched (Act.draw window) :=
  fun _ => rfl

theorem sendRequest (conn : ConnId) (request : Request) :
    Unwatched (Act.sendRequest conn request) :=
  fun _ => rfl

theorem broadcast (registry : Registry) (request : Request) :
    Unwatched (Member.broadcast registry request) := by
  intro stage
  unfold Member.broadcast
  induction registry.connections generalizing stage with
  | nil => exact rfl
  | cons conn rest ih =>
      rw [List.forM, ensures_bind]
      refine (sendRequest conn request stage).mono ?_ fun _ _ => id
      intro _ sent same
      exact (ih sent).mono (fun _ _ same' => same'.trans same) fun _ _ => id

end Unwatched

/-! ## Arming, cancelling and changing the standing -/

section Steps

variable {config : NodeConfig} {stage : Stage Member}

/-- Disarming a loose clockwork leaves no live timer of the election. -/
theorem disarmElection_silences (loose : stage.clockwork.Loose config) :
    disarmElection.Ensures stage
      (fun _ after => after.clockwork.Loose config ∧ after.clockwork.timers.elections = [] ∧
        after.clockwork.electionTask = none)
      fun _ _ => True := by
  unfold disarmElection
  simp only [ensures_bind, ensures_own, ensures_modifyOwn]
  cases held : stage.own.electionTask with
  | none =>
      have silent : stage.clockwork.timers.elections = [] := by
        apply List.eq_nil_iff_forall_not_mem.mpr
        intro task listed
        have owned := loose.owned task listed
        rw [show stage.clockwork.electionTask = none from held] at owned
        cases owned
      refine ⟨?_, silent, rfl⟩
      have orderly : Clockwork.Orderly config { stage.clockwork with electionTask := none } :=
        { loose.toOrderly with
          taskIssued := by
            intro handle held
            cases held }
      exact orderly.loose loose.leadsNot silent
  | some handle =>
      have silent : (stage.clockwork.timers.cancel handle).elections = [] := by
        rw [Scheduler.elections_cancel]
        apply List.filter_eq_nil_iff.mpr
        intro task listed
        have owned := loose.owned task listed
        rw [show stage.clockwork.electionTask = some handle from held] at owned
        simp [Option.some.inj owned]
      refine ⟨?_, silent, rfl⟩
      have orderly : Clockwork.Orderly config
          { stage.clockwork with
            electionTask := none, timers := stage.clockwork.timers.cancel handle } :=
        { loose.toOrderly with
          sound := loose.sound.cancel (loose.taskIssued handle held)
          taskIssued := by
            intro handle held
            cases held }
      exact orderly.loose loose.leadsNot silent

/-- Arming the election timer anew makes it the only one. -/
theorem rearmElection_arms
    (loose : stage.clockwork.Loose config)
    {delay : Delay}
    (admitted : (Window.ofConfig config).Admits delay) :
    (rearmElection delay).Ensures stage
      (fun _ after => after.clockwork.Armed config)
      fun _ _ => True := by
  unfold rearmElection
  refine (disarmElection_silences loose).andThen ?_
  rintro _ disarmed ⟨loose, silent, _⟩
  rw [ensures_bind, ensures_arm]
  split
  · next handle timers scheduled =>
    obtain ⟨sound, _⟩ := loose.sound.schedule scheduled
    have alone := Scheduler.elections_schedule loose.sound silent rfl scheduled
    obtain ⟨rfl, _, tiers, _, rfl⟩ := Scheduler.schedule_eq_ok scheduled
    exact {
      sound := sound
      window_eq := loose.window_eq
      admitted := admitted
      taskIssued := fun handle held => Option.some.inj held ▸ Nat.lt_succ_self _
      heartbeatIssued := fun handle held => Nat.lt_succ_of_lt (loose.heartbeatIssued handle held)
      leadsNot := loose.leadsNot
      alone := ⟨_, alone, rfl, rfl, rfl, rfl⟩ }
  · trivial

theorem rearmElectionDrawn_arms (loose : stage.clockwork.Loose config) :
    rearmElectionDrawn.Ensures stage
      (fun _ after => after.clockwork.Armed config)
      fun _ _ => True := by
  unfold rearmElectionDrawn
  simp only [ensures_bind, ensures_own, ensures_draw]
  apply rearmElection_arms
  · exact loose
  · rw [← loose.window_eq]
    exact Window.admits_sample _ _

/-- The clockwork after the standing was replaced. -/
def Clockwork.become (clockwork : Clockwork) (next : Standing) : Clockwork :=
  { clockwork with
    standing := next
    timers :=
      match clockwork.standing with
      | .leader heartbeat => clockwork.timers.cancel heartbeat
      | _ => clockwork.timers }

theorem become_changes (next : Standing) (stage : Stage Member) :
    (become next).Ensures stage
      (fun _ after => after.clockwork = stage.clockwork.become next)
      fun _ _ => True := by
  unfold Member.become
  simp only [ensures_bind, ensures_own]
  cases standing : stage.own.standing with
  | leader heartbeat =>
      simp only [ensures_bind, ensures_cancel, ensures_modifyOwn]
      refine ensures_datedClockMs ?_ fun _ => trivial
      simp only [Clockwork.become, Stage.clockwork, standing]
  | follower | candidate votes | sync =>
      simp only [ensures_bind, ensures_modifyOwn]
      refine ensures_datedClockMs ?_ fun _ => trivial
      simp only [Clockwork.become, Stage.clockwork, standing]

namespace Clockwork

variable {clockwork : Clockwork} {next : Standing}

/-- A member that does not lead keeps its timers when it changes its part. -/
theorem become_of_leadsNot (leadsNot : clockwork.standing.role ≠ .leader) :
    clockwork.become next = { clockwork with standing := next } := by
  unfold become
  split
  · next heartbeat standing =>
    rw [standing] at leadsNot
    exact absurd rfl leadsNot
  · rfl

theorem Loose.become
    (loose : clockwork.Loose config)
    (leadsNot : next.role ≠ .leader) :
    (clockwork.become next).Loose config := by
  rw [become_of_leadsNot loose.leadsNot]
  exact { loose with
    heartbeatIssued := by
      rintro handle rfl
      exact absurd rfl leadsNot
    leadsNot := leadsNot }

theorem Armed.become
    (armed : clockwork.Armed config)
    (leadsNot : next.role ≠ .leader) :
    (clockwork.become next).Armed config := by
  have loose := armed.loose.become leadsNot
  rw [become_of_leadsNot armed.leadsNot] at loose ⊢
  exact { loose.toOrderly with leadsNot := leadsNot, alone := armed.alone }

/-- A leadership that ends takes its heartbeat along. -/
theorem Leading.become
    (leading : clockwork.Leading config)
    (leadsNot : next.role ≠ .leader) :
    (clockwork.become next).Loose config := by
  obtain ⟨task, alone, _, _, standing⟩ := leading.alone
  have changed : clockwork.become next =
      { clockwork with standing := next, timers := clockwork.timers.cancel task.handle } := by
    unfold Clockwork.become
    rw [standing]
  have silent : (clockwork.timers.cancel task.handle).elections = [] := by
    rw [Scheduler.elections_cancel, alone]
    simp
  have orderly : (clockwork.become next).Orderly config := by
    rw [changed]
    exact { leading.toOrderly with
      sound := leading.sound.cancel (leading.heartbeatIssued task.handle standing)
      heartbeatIssued := by
        rintro handle rfl
        exact absurd rfl leadsNot }
  exact orderly.loose leadsNot (changed ▸ silent)

theorem Wound.become
    (wound : clockwork.Wound config)
    (leadsNot : next.role ≠ .leader) :
    (clockwork.become next).Loose config := by
  rcases wound with armed | leading
  · exact armed.loose.become leadsNot
  · exact leading.become leadsNot

end Clockwork

/-- Taking over the leadership replaces the election timer by the heartbeat. -/
theorem takeOver_leads
    (registry : Registry)
    (loose : stage.clockwork.Loose config) :
    (takeOver registry).Ensures stage
      (fun _ after => after.clockwork.Leading config)
      fun _ _ => True := by
  unfold takeOver
  refine (disarmElection_silences loose).andThen ?_
  rintro _ disarmed ⟨loose, silent, disarmed_eq⟩
  simp only [ensures_bind, ensures_own, ensures_arm]
  split
  · next handle timers scheduled =>
    obtain ⟨sound, _⟩ := loose.sound.schedule scheduled
    have alone := Scheduler.elections_schedule loose.sound silent rfl scheduled
    obtain ⟨rfl, _, tiers, _, rfl⟩ := Scheduler.schedule_eq_ok scheduled
    refine (Unwatched.modifyLedger _ _).mono ?_ fun _ _ => id
    intro _ claimed same
    refine (become_changes _ _).mono ?_ fun _ _ => id
    intro _ led changed
    apply (Unwatched.broadcast _ _).ensures
    rw [changed, same, Clockwork.become_of_leadsNot (by exact loose.leadsNot)]
    exact {
      sound := sound
      window_eq := loose.window_eq
      admitted := loose.admitted
      taskIssued := fun handle held => Nat.lt_succ_of_lt (loose.taskIssued handle held)
      heartbeatIssued := by
        rintro handle ⟨⟩
        exact Nat.lt_succ_self _
      disarmed := disarmed_eq
      alone := ⟨_, alone, rfl, rfl, rfl⟩ }
  · trivial

end Steps

end Quorum
