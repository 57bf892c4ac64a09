import Quorum.Proofs.Election.Winding

/-!
# The vigil of a member

From its start on a member is called by others, and is woken by its timers.  A `Vigil` is a run of
one member together with the timers it uses: besides what the member itself does, time passes, the
wheels are settled, fired timers are received and handled at once, and other components use the same
timers for events of their own.  Every step in which the member acts is one that it answers, so the
scheduler has accepted whatever was scheduled in it.

In every stage of a vigil the member is `Watchful`: it keeps one election timer while it does not
lead, and one recurring heartbeat while it does.  Only the end of the wheels' own range can break
this, since wheels that cannot be moved any further lose what they hold.
-/

namespace Quorum

open Act Member

/-- The timers of an event that could still be received. -/
def Scheduler.liveOf (timers : Scheduler TimerEvent) (event : TimerEvent) :
    List (Task TimerEvent) :=
  timers.live.filter fun task => task.payload = event

/-- The same stage with other timers. -/
def Stage.withTimers (stage : Stage Member) (timers : Scheduler TimerEvent) : Stage Member :=
  { stage with outside.timers := timers }

/-- A member that does not lead keeps the election timer it holds, with a delay of its window, and
no other timer of the election.  A member that leads keeps the recurring heartbeat of its
leadership, and no other one. -/
structure Stage.Watchful (config : NodeConfig) (stage : Stage Member) : Prop where
  resting : stage.own.role ≠ .leader →
    stage.outside.timers.liveOf .leaderHeartbeat = [] ∧
    ∃ timer, stage.outside.timers.liveOf .electionTimeout = [timer] ∧
      stage.own.electionTask = some timer.handle ∧
      timer.delay = stage.own.electionDelay ∧
      (Window.ofConfig config).Admits stage.own.electionDelay
  leading : stage.own.role = .leader →
    stage.outside.timers.liveOf .electionTimeout = [] ∧
    ∃ heartbeat, stage.outside.timers.liveOf .leaderHeartbeat = [heartbeat] ∧
      heartbeat.isRecurring = true ∧
      stage.own.standing = .leader heartbeat.handle

/-- One step of a member and of the timers it uses. -/
inductive Shift : Stage Member → Stage Member → Prop where
  /-- The member is asked or told something. -/
  | called
      {stage after : Stage Member} {registry : Registry} {occasion : Occasion}
      {answer : Option Response}
      (call : occasion.isCall = true)
      (performed : (occasion.handler registry).perform stage = (.ok answer, after)) :
      Shift stage after
  /-- A fired timer is received, and the member handles it at once. -/
  | woken
      {stage after : Stage Member} {registry : Registry} {task : Task TimerEvent}
      {timers : Scheduler TimerEvent} {answer : Option Response}
      (delivers : stage.outside.timers.Delivers stage.outside.clockMs task timers)
      (performed : ((Occasion.timer task.payload).handler registry).perform
        (stage.withTimers timers) = (.ok answer, after)) :
      Shift stage after
  /-- Every fired timer turns out to be cancelled. -/
  | drained
      {stage : Stage Member} {timers : Scheduler TimerEvent}
      (received : stage.outside.timers.receive stage.outside.clockMs = .ok (none, timers)) :
      Shift stage (stage.withTimers timers)
  /-- The wheels are brought up to the clock. -/
  | settled
      {stage : Stage Member} :
      Shift stage (stage.withTimers (stage.outside.timers.settle stage.outside.clockMs))
  /-- Another component arms a timer. -/
  | armedElsewhere
      {stage : Stage Member} {delay : Delay} {repeats : Bool} {event : TimerEvent}
      {handle : Handle} {timers : Scheduler TimerEvent}
      (foreign : event.isElection = false)
      (scheduled : stage.outside.timers.schedule stage.outside.clockMs delay repeats event =
        .ok (handle, timers)) :
      Shift stage (stage.withTimers timers)
  /-- Another component cancels a timer of its own. -/
  | cancelledElsewhere
      {stage : Stage Member} {handle : Handle}
      (issued : handle.number < stage.outside.timers.issued)
      (foreign : ∀ task ∈ stage.outside.timers.held, task.handle = handle →
        task.payload.isElection = false) :
      Shift stage (stage.withTimers (stage.outside.timers.cancel handle))
  /-- Time passes, or something else happens outside. -/
  | elsewhere
      {stage : Stage Member} {outside : Outside}
      (kept : outside.timers = stage.outside.timers) :
      Shift stage { stage with outside }

/-- A run of a member from its start on, the newest stage first. -/
inductive Vigil (config : NodeConfig) : List (Stage Member) → Prop where
  | started
      {fresh after : Stage Member} {sinceMs : Nat}
      (own_eq : fresh.own = Member.ofConfig config sinceMs)
      (sound : fresh.outside.timers.Sound)
      (silent : fresh.outside.timers.elections = [])
      (performed : Member.start.perform fresh = (.ok (), after)) :
      Vigil config [after]
  | shifted
      {stage after : Stage Member} {earlier : List (Stage Member)}
      (vigil : Vigil config (stage :: earlier))
      (shift : Shift stage after) :
      Vigil config (after :: stage :: earlier)

/-! ## What the timers do on their own -/

namespace Scheduler

variable {timers next : Scheduler TimerEvent} {clockMs : Nat} {task : Task TimerEvent}

theorem liveOf_eq {event : TimerEvent} (electoral : event.isElection = true) :
    timers.liveOf event = timers.elections.filter fun task => task.payload = event := by
  unfold liveOf elections
  rw [List.filter_filter]
  apply List.filter_congr
  intro task _
  by_cases same : task.payload = event
  · simp [same, electoral]
  · simp [same]

/-- A timer of the election that is received leaves the others, and its next occurrence. -/
theorem elections_taken
    (sound : timers.Sound)
    (delivers : timers.Delivers clockMs task next)
    (electoral : task.payload.isElection = true) :
    ∃ others, timers.elections.Perm (task :: others) ∧
      next.elections.Perm (others ++ timers.renewal clockMs task) := by
  obtain ⟨_, _, others, before, after⟩ := sound.delivers delivers
  refine ⟨others.filter fun other => other.payload.isElection, ?_, ?_⟩
  · have chosen := elections_perm before
    rw [List.filter_cons_of_pos (by exact electoral)] at chosen
    exact chosen
  · have chosen := elections_perm after
    rw [List.filter_append, timers.filter_renewal, if_pos electoral] at chosen
    exact chosen

/-- Another timer that is received leaves those of the election. -/
theorem elections_kept
    (sound : timers.Sound)
    (delivers : timers.Delivers clockMs task next)
    (foreign : task.payload.isElection = false) :
    next.elections.Perm timers.elections := by
  obtain ⟨_, _, others, before, after⟩ := sound.delivers delivers
  have chosenBefore := elections_perm before
  have chosenAfter := elections_perm after
  rw [List.filter_cons_of_neg (by simp [foreign])] at chosenBefore
  rw [List.filter_append, timers.filter_renewal, if_neg (by simp [foreign]),
    List.append_nil] at chosenAfter
  exact chosenAfter.trans chosenBefore.symm

/-- Arming a timer of another component leaves those of the election. -/
theorem elections_armedElsewhere
    {delay : Delay}
    {repeats : Bool}
    {event : TimerEvent}
    {handle : Handle}
    (sound : timers.Sound)
    (foreign : event.isElection = false)
    (scheduled : timers.schedule clockMs delay repeats event = .ok (handle, next)) :
    next.elections.Perm timers.elections := by
  have chosen := elections_perm (sound.schedule scheduled).2
  have other : ([timers.appointment clockMs delay repeats event].filter fun task =>
      task.payload.isElection) = [] :=
    List.filter_cons_of_neg (by simp [appointment, foreign])
  rw [List.filter_append, other, List.append_nil] at chosen
  exact chosen

/-- Cancelling a timer of another component leaves those of the election. -/
theorem elections_cancelledElsewhere
    {handle : Handle}
    (foreign : ∀ task ∈ timers.held, task.handle = handle → task.payload.isElection = false) :
    (timers.cancel handle).elections = timers.elections := by
  rw [elections_cancel]
  apply List.filter_eq_self.mpr
  intro task listed
  obtain ⟨alive, electoral⟩ := List.mem_filter.mp listed
  apply decide_eq_true
  intro same
  have other := foreign task (mem_live.mp alive).1 same
  rw [electoral] at other
  cases other

end Scheduler

namespace Clockwork

variable {config : NodeConfig} {clockwork : Clockwork} {next : Scheduler TimerEvent}

theorem Orderly.withTimers
    (orderly : clockwork.Orderly config)
    (sound : next.Sound)
    (issued : clockwork.timers.issued ≤ next.issued) :
    Orderly config { clockwork with timers := next } where
  sound := sound
  window_eq := orderly.window_eq
  admitted := orderly.admitted
  taskIssued := fun handle held => Nat.lt_of_lt_of_le (orderly.taskIssued handle held) issued
  heartbeatIssued := fun handle leads =>
    Nat.lt_of_lt_of_le (orderly.heartbeatIssued handle leads) issued

/-- A member stays wound while its own timers stay. -/
theorem Wound.withTimers
    (wound : clockwork.Wound config)
    (sound : next.Sound)
    (issued : clockwork.timers.issued ≤ next.issued)
    (kept : next.elections.Perm clockwork.timers.elections) :
    Wound config { clockwork with timers := next } := by
  rcases wound with armed | leading
  · obtain ⟨timer, alone, known⟩ := armed.alone
    rw [alone] at kept
    exact .inl {
      toOrderly := armed.toOrderly.withTimers sound issued
      leadsNot := armed.leadsNot
      alone := ⟨timer, List.perm_singleton.mp kept, known⟩ }
  · obtain ⟨heartbeat, alone, known⟩ := leading.alone
    rw [alone] at kept
    exact .inr {
      toOrderly := leading.toOrderly.withTimers sound issued
      disarmed := leading.disarmed
      alone := ⟨heartbeat, List.perm_singleton.mp kept, known⟩ }

section Woken

variable {clockMs : Nat} {task : Task TimerEvent}

/-- An election timer that is received was the only one, and the member did not lead. -/
theorem Wound.timerTaken
    (wound : clockwork.Wound config)
    (delivers : clockwork.timers.Delivers clockMs task next)
    (timeout : task.payload = .electionTimeout) :
    Loose config { clockwork with timers := next } := by
  rcases wound with armed | leading
  · obtain ⟨sound, issued, _⟩ := armed.sound.delivers delivers
    obtain ⟨others, before, after⟩ :=
      Scheduler.elections_taken armed.sound delivers (by rw [timeout]; rfl)
    obtain ⟨timer, alone, _, once, _⟩ := armed.alone
    rw [alone] at before
    obtain ⟨rfl, rfl⟩ := List.cons.inj (List.perm_singleton.mp before.symm)
    rw [Scheduler.renewal_of_once _ _ once] at after
    have orderly := armed.toOrderly.withTimers sound (Nat.le_of_eq issued.symm)
    exact orderly.loose armed.leadsNot (List.perm_nil.mp after)
  · obtain ⟨others, before, _⟩ :=
      Scheduler.elections_taken leading.sound delivers (by rw [timeout]; rfl)
    obtain ⟨heartbeat, alone, beats, _⟩ := leading.alone
    rw [alone] at before
    obtain ⟨rfl, _⟩ := List.cons.inj (List.perm_singleton.mp before.symm)
    rw [timeout] at beats
    cases beats

/-- A heartbeat that is received was the only one, and its next occurrence is there. -/
theorem Wound.heartbeatTaken
    (wound : clockwork.Wound config)
    (delivers : clockwork.timers.Delivers clockMs task next)
    (beats : task.payload = .leaderHeartbeat) :
    Wound config { clockwork with timers := next } := by
  rcases wound with armed | leading
  · obtain ⟨others, before, _⟩ :=
      Scheduler.elections_taken armed.sound delivers (by rw [beats]; rfl)
    obtain ⟨timer, alone, timeout, _⟩ := armed.alone
    rw [alone] at before
    obtain ⟨rfl, _⟩ := List.cons.inj (List.perm_singleton.mp before.symm)
    rw [beats] at timeout
    cases timeout
  · obtain ⟨sound, issued, _⟩ := leading.sound.delivers delivers
    obtain ⟨others, before, after⟩ :=
      Scheduler.elections_taken leading.sound delivers (by rw [beats]; rfl)
    obtain ⟨heartbeat, alone, _, recurs, standing⟩ := leading.alone
    rw [alone] at before
    obtain ⟨rfl, rfl⟩ := List.cons.inj (List.perm_singleton.mp before.symm)
    obtain ⟨again, renewed, handle, payload, recursAgain⟩ :=
      Scheduler.renewal_of_recurring clockwork.timers clockMs recurs
    rw [renewed] at after
    exact .inr {
      toOrderly := leading.toOrderly.withTimers sound (Nat.le_of_eq issued.symm)
      disarmed := leading.disarmed
      alone := ⟨again, List.perm_singleton.mp after, payload.trans beats, recursAgain,
        by rw [handle]; exact standing⟩ }

/-- Another timer that is received changes nothing for the member. -/
theorem Wound.otherTaken
    (wound : clockwork.Wound config)
    (delivers : clockwork.timers.Delivers clockMs task next)
    (foreign : task.payload.isElection = false) :
    Wound config { clockwork with timers := next } := by
  obtain ⟨sound, issued, _⟩ := wound.orderly.sound.delivers delivers
  have kept := Scheduler.elections_kept wound.orderly.sound delivers foreign
  exact wound.withTimers sound (Nat.le_of_eq issued.symm) kept

end Woken

end Clockwork

section Runs

variable {config : NodeConfig} {stage after : Stage Member}

/-- A member that is woken by a timer is wound when it has handled it. -/
theorem woken_winds
    (registry : Registry)
    {task : Task TimerEvent}
    {timers : Scheduler TimerEvent}
    (wound : stage.clockwork.Wound config)
    (delivers : stage.outside.timers.Delivers stage.outside.clockMs task timers) :
    ((Occasion.timer task.payload).handler registry).Ensures (stage.withTimers timers)
      (fun _ after => after.clockwork.Wound config) fun _ _ => True := by
  unfold Occasion.handler
  rw [ensures_bind]
  have other (foreign : task.payload.isElection = false) :
      (stage.withTimers timers).clockwork.Wound config :=
    wound.otherTaken delivers foreign
  cases event : task.payload with
  | electionTimeout =>
      apply onElectionTimeout_winds
      exact wound.timerTaken delivers event
  | leaderHeartbeat =>
      apply onLeaderHeartbeat_winds
      exact wound.heartbeatTaken delivers event
  | peerKeepAlive id => exact other (by rw [event]; rfl)
  | peerTimeout id conn => exact other (by rw [event]; rfl)
  | connectionTimeout conn => exact other (by rw [event]; rfl)
  | reconnect id => exact other (by rw [event]; rfl)

/-- The start arms the first election timer. -/
theorem start_arms
    {sinceMs : Nat}
    (own_eq : stage.own = Member.ofConfig config sinceMs)
    (sound : stage.outside.timers.Sound)
    (silent : stage.outside.timers.elections = []) :
    Member.start.Ensures stage
      (fun _ after => after.clockwork.Armed config) fun _ _ => True := by
  have orderly : stage.clockwork.Orderly config := {
    sound := sound
    window_eq := by
      rw [Stage.clockwork, own_eq]
      rfl
    admitted := by
      rw [Stage.clockwork, own_eq]
      exact Window.admits_longest _
    taskIssued := by
      rw [Stage.clockwork, own_eq]
      intro handle held
      cases held
    heartbeatIssued := by
      rw [Stage.clockwork, own_eq]
      intro handle leads
      cases leads }
  apply rearmElectionDrawn_arms
  refine orderly.loose ?_ silent
  rw [Stage.clockwork, own_eq]
  intro leads
  cases leads

/-- One step leaves a wound member wound, unless the wheels came to their end. -/
theorem Shift.winds
    (shift : Shift stage after)
    (wound : stage.clockwork.Wound config)
    (intact : after.outside.timers.intact = true) :
    after.clockwork.Wound config := by
  have sound : stage.outside.timers.Sound := wound.orderly.sound
  cases shift with
  | called call performed => exact (handler_winds _ call wound).of_perform performed
  | woken delivers performed => exact (woken_winds _ wound delivers).of_perform performed
  | drained received =>
      obtain ⟨sound', live, issued⟩ := sound.drained received
      have kept := Scheduler.elections_perm (List.Perm.of_eq live)
      exact wound.withTimers sound' (Nat.le_of_eq issued.symm) kept
  | settled =>
      obtain ⟨sound', live⟩ := sound.settle intact
      have issued := Scheduler.issued_settle stage.outside.timers stage.outside.clockMs
      exact wound.withTimers sound' (Nat.le_of_eq issued.symm) (Scheduler.elections_perm live)
  | armedElsewhere foreign scheduled =>
      have kept := Scheduler.elections_armedElsewhere sound foreign scheduled
      obtain ⟨sound', _⟩ := sound.schedule scheduled
      obtain ⟨_, _, tiers, _, rfl⟩ := Scheduler.schedule_eq_ok scheduled
      exact wound.withTimers sound' (Nat.le_succ _) kept
  | cancelledElsewhere issued foreign =>
      have kept := Scheduler.elections_cancelledElsewhere foreign
      exact wound.withTimers (sound.cancel issued) (Nat.le_refl _) (kept ▸ List.Perm.refl _)
  | elsewhere kept =>
      rw [show Stage.clockwork _ = stage.clockwork by rw [Stage.clockwork, kept]; rfl]
      exact wound

theorem Clockwork.Wound.watchful (wound : stage.clockwork.Wound config) :
    stage.Watchful config where
  resting := by
    intro leadsNot
    have armed := wound.armed_of_leadsNot leadsNot
    obtain ⟨timer, alone, timeout, _, delay, held⟩ := armed.alone
    rw [Scheduler.liveOf_eq rfl, Scheduler.liveOf_eq rfl,
      show stage.outside.timers.elections = [timer] from alone]
    refine ⟨?_, timer, ?_, held, delay, armed.admitted⟩
    · exact List.filter_cons_of_neg (by simp [timeout])
    · exact List.filter_cons_of_pos (by simp [timeout])
  leading := by
    intro leads
    obtain ⟨heartbeat, alone, beats, recurs, standing⟩ := (wound.leading_of_leads leads).alone
    rw [Scheduler.liveOf_eq rfl, Scheduler.liveOf_eq rfl,
      show stage.outside.timers.elections = [heartbeat] from alone]
    refine ⟨?_, heartbeat, ?_, recurs, standing⟩
    · exact List.filter_cons_of_neg (by simp [beats])
    · exact List.filter_cons_of_pos (by simp [beats])

/-- As long as the wheels are intact a run winds the member. -/
theorem Vigil.winds
    {stages : List (Stage Member)}
    (vigil : Vigil config stages)
    (intact : ∀ stage ∈ stages, stage.outside.timers.intact = true) :
    ∀ stage, stages.head? = some stage → stage.clockwork.Wound config := by
  induction vigil with
  | started own_eq sound silent performed =>
      rintro _ ⟨⟩
      exact .inl ((start_arms own_eq sound silent).of_perform performed)
  | shifted vigil shift ih =>
      rintro _ ⟨⟩
      obtain ⟨intact, past⟩ := List.forall_mem_cons.mp intact
      exact shift.winds (ih past _ rfl) intact

/-- After every step of a run the member keeps exactly one timer of the election, as long as the
wheels have not come to the end of their range. -/
theorem Vigil.keeps_one_timer
    {earlier : List (Stage Member)}
    (vigil : Vigil config (stage :: earlier))
    (intact : ∀ past ∈ stage :: earlier, past.outside.timers.intact = true) :
    stage.Watchful config :=
  (vigil.winds intact stage rfl).watchful

end Runs

namespace Solitary

/-! ### A cluster of one

The election timer fires, and the member leads at once. -/

def config : NodeConfig := { timer := ⟨10000, 2, 2⟩ }

def timers : Scheduler TimerEvent := (Scheduler.start config.timer 0).toOption.getD default

def fresh : Stage Member where
  own := Member.ofConfig config 0
  outside := { clockMs := 0, timers, draws := fun _ => 0 }

def started : Stage Member := (Member.start.perform fresh).2

def elapsed : Stage Member := { started with outside.clockMs := 20000 }

def settled : Stage Member := elapsed.withTimers (elapsed.outside.timers.settle 20000)

/-- The election timer, and the timers once it has been received. -/
def timeout : Task TimerEvent := ⟨⟨0⟩, Delay.ofMs 10000, none, 10000, .electionTimeout⟩

def emptied : Scheduler TimerEvent := { settled.outside.timers with fired := [] }

def leading : Stage Member :=
  (((Occasion.timer timeout.payload).handler {}).perform (settled.withTimers emptied)).2

theorem vigil : Vigil config [leading, settled, elapsed, started] := by
  have made : Scheduler.start config.timer 0 = .ok timers := by decide +kernel
  obtain ⟨sound, _⟩ := Scheduler.start_sound made
  have silent : timers.elections = [] := by decide +kernel
  have starts : Vigil config [started] :=
    @Vigil.started config fresh started 0 rfl sound silent (perform_eq (by decide +kernel))
  have elapses : Shift started elapsed := .elsewhere rfl
  have settles : Shift elapsed settled := .settled
  have delivers : settled.outside.timers.Delivers settled.outside.clockMs timeout emptied := by
    constructor
    · decide +kernel
    · intro occurrence recurs
      cases recurs
  have answers : (((Occasion.timer timeout.payload).handler {}).perform
      (settled.withTimers emptied)).1 = .ok none := by
    decide +kernel
  have leads : Shift settled leading := .woken delivers (perform_eq answers)
  exact ((starts.shifted elapses).shifted settles).shifted leads

end Solitary

/-- A cluster of one replaces its election timer by a heartbeat when the timer fires. -/
theorem Vigil.keeps_one_timer_solitary :
    Solitary.leading.own.role = .leader ∧ Solitary.leading.Watchful Solitary.config := by
  refine ⟨by decide +kernel, ?_⟩
  apply Vigil.keeps_one_timer Solitary.vigil
  decide +kernel

namespace Brink

/-! ### The end of the range

The member starts in the last but one rotation that the wheels can make.  Its election timer goes
into the near wheel, and to hand it out the far wheel would have to move beyond the last word. -/

/-- Wheels with very long ticks. -/
def tickMs : Nat := 1152921504606846976

def config : NodeConfig where
  id := "2"
  peers := [⟨"1", "", 0⟩, ⟨"3", "", 0⟩]
  heartbeatIntervalMs := 50
  heartbeatTimeoutMs := 200
  electionMinMs := 300
  electionMaxMs := 300
  timer := ⟨tickMs, 1, 8⟩

def timers : Scheduler TimerEvent := (Scheduler.start config.timer 0).toOption.getD default

def fresh : Stage Member where
  own := Member.ofConfig config 0
  outside :=
    { clockMs := 14 * tickMs, timers := timers.settle (14 * tickMs), draws := fun _ => 0 }

def started : Stage Member := (Member.start.perform fresh).2

def elapsed : Stage Member := { started with outside.clockMs := 15 * tickMs }

def settled : Stage Member := elapsed.withTimers (elapsed.outside.timers.settle (15 * tickMs))

theorem vigil : Vigil config [settled, elapsed, started] := by
  have made : Scheduler.start config.timer 0 = .ok timers := by decide +kernel
  obtain ⟨sound, _⟩ := Scheduler.start_sound made
  have intact : (timers.settle (14 * tickMs)).intact = true := by decide +kernel
  obtain ⟨sound, _⟩ := sound.settle intact
  have silent : (timers.settle (14 * tickMs)).elections = [] := by decide +kernel
  have starts : Vigil config [started] :=
    @Vigil.started config fresh started 0 rfl sound silent (perform_eq (by decide +kernel))
  have elapses : Shift started elapsed := .elsewhere rfl
  have settles : Shift elapsed settled := .settled
  exact (starts.shifted elapses).shifted settles

end Brink

/-- Wheels that come to the end of their range lose the election timer. -/
theorem Vigil.loses_timer_at_brink :
    Brink.config.validate = .ok () ∧
      Vigil Brink.config [Brink.settled, Brink.elapsed, Brink.started] ∧
      ¬ Brink.settled.Watchful Brink.config := by
  refine ⟨by decide +kernel, Brink.vigil, ?_⟩
  intro watchful
  have rests : Brink.settled.own.role ≠ .leader := by decide +kernel
  have silent : Brink.settled.outside.timers.liveOf .electionTimeout = [] := by decide +kernel
  obtain ⟨_, timer, one, _⟩ := watchful.resting rests
  rw [silent] at one
  cases one

end Quorum
