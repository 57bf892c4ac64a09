import Quorum.Proofs.Node.Silence
import Quorum.Proofs.Peers.Attachment

/-!
# Peers that answer

On a connection that it has opened, a node asks its peer for a sign of life once per heartbeat
interval.  A peer that answers every request in the very millisecond in which it was sent is never
dropped, if the heartbeat timeout exceeds the interval by a tick or more
(`Service.keeps_attentive_peer`).

That it exceeds the interval at all, which is what a configuration is checked for, does not suffice.
Wheels hand out everything that becomes due in one tick together.  So the timeout can be among what
is handed out with the request, and then it is handled before any answer can arrive
(`Service.drops_attentive_peer`).
-/

namespace Quorum

open Act Liveness

/-- A request for a sign of life on a connection. -/
def Ask.probes (conn : ConnId) : Ask → Bool
  | send other (.request (.heartbeat _)) => decide (other = conn)
  | _ => false

/-- How often a sign of life has been asked for on a connection. -/
def Outside.probes (conn : ConnId) (outside : Outside) : Nat :=
  outside.asked.countP fun entry => entry.2.probes conn

/-- Every timer that is due has been handled. -/
def Stage.HasCaughtUp (stage : Stage Core) : Prop :=
  ∀ task ∈ (stage.outside.timers.settle stage.outside.clockMs).fired,
    stage.outside.timers.isCancelled task.handle = true

instance (stage : Stage Core) : Decidable stage.HasCaughtUp :=
  inferInstanceAs <| Decidable <|
    ∀ task ∈ (stage.outside.timers.settle stage.outside.clockMs).fired,
      stage.outside.timers.isCancelled task.handle = true

/-- Steps during which a peer answers every request on its connection while the clock stands still,
and nothing else is heard of the connection.  Timers that are due are handled before anything that
the network reports.  The flag tells whether an answer is owed. -/
inductive Attended (id : NodeId) (conn : ConnId) (origin : Stage Core) :
    Bool → Stage Core → Prop where
  | begun : Attended id conn origin false origin
  | answered
      {owed : Bool} {before after : Stage Core}
      (attended : Attended id conn origin owed before)
      (goes : Goes before (some (.reported (.received conn (.response .heartbeat)))) after)
      (caughtUp : before.HasCaughtUp) :
      Attended id conn origin false after
  | gone
      {owed : Bool} {cue : Option Cue} {before after : Stage Core}
      (attended : Attended id conn origin owed before)
      (goes : Goes before cue after)
      (calm : ∀ told ∈ cue, ∀ happening ∈ told.happening?,
        happening.conn? ≠ some conn ∧ ¬ happening.Disturbs before.own.liveness id conn)
      (caughtUp : ∀ event, cue = some (.reported event) → before.HasCaughtUp)
      (patient : before.outside.clockMs < after.outside.clockMs → owed = false) :
      Attended id conn origin
        (owed || decide (before.outside.probes conn < after.outside.probes conn)) after

/-- A peer says who it is on a connection that this node has opened and that nobody was bound to. -/
structure Meets
    (id : NodeId)
    (conn : ConnId)
    (cue : Cue)
    (before after : Stage Core) : Prop where
  performed : cue.handler.perform before = (.ok (), after)
  greets : ∃ happening, cue.happening? = some happening ∧
    happening.Greets before.own.liveness id conn
  dialled : (before.own.liveness.dialing.get? conn).isSome
  unbound : ∀ other, before.own.registry.get? other ≠ some conn
  identified : after.own.registry.peerOf? conn = some id

section Runs

variable
    {config : NodeConfig}
    {epochMs clockMs laterMs : Nat}
    {before after origin stage : Stage Core}
    {timers : Scheduler TimerEvent}
    {beat again watch watch' other : Task TimerEvent}
    {heard : Option Happening}
    {happening : Happening}
    {effect : Effect}
    {id : NodeId}
    {conn : ConnId}
    {link : PeerLink}
    {owed owed' : Bool}
    {cue : Option Cue}

/-! ## Requests on record -/

theorem Outside.Turns.probes_eq
    {before after : Outside}
    (turns : before.Turns effect after) :
    after.probes conn = effect.asks.countP (Ask.probes conn) + before.probes conn := by
  unfold Outside.probes
  rw [turns.asked_eq, List.countP_append, List.countP_reverse, List.countP_map]
  rfl

/-- When the recurring request is due, it is sent. -/
theorem Core.Acts.probes_lt
    (acts : Core.Acts before (some (.keepalive id)) after)
    (linked : before.own.liveness.links.get? id = some link) :
    before.outside.probes link.conn < after.outside.probes link.conn := by
  cases acts with
  | @watched _ _ effect effect' between after watches elects =>
      have sent : 0 < effect.asks.countP (Ask.probes link.conn) :=
        List.countP_pos_iff.mpr ⟨_, watches.moves.probes linked, decide_eq_true rfl⟩
      have asked : between.outside.probes link.conn = _ := watches.turns.probes_eq
      have asked' : after.outside.probes link.conn = _ := elects.turns.probes_eq
      show _ < after.outside.probes link.conn
      omega

theorem Core.Acts.settings_eq (acts : Core.Acts before heard after) :
    after.own.liveness.settings = before.own.liveness.settings := by
  cases acts with
  | elected elects => exact congrArg settings elects.liveness_eq
  | watched watches elects =>
      exact (congrArg settings elects.liveness_eq).trans watches.moves.settings_eq
  | started elects watches =>
      exact watches.moves.settings_eq.trans (congrArg settings elects.liveness_eq)

/-! ## A link with a recurring request -/

/-- A peer has a link on a connection that belongs to it, with a recurring request and a timeout
which can both be received. -/
structure Attends
    (id : NodeId)
    (conn : ConnId)
    (link : PeerLink)
    (beat watch : Task TimerEvent)
    (stage : Stage Core) : Prop where
  lingers : Lingers id conn watch (some link) stage
  attached : stage.own.liveness.Attached id conn
  keepalive : link.keepalive = some beat.handle
  deadline : beat.deadline = stage.own.liveness.beatDeadline id beat.handle
  alive : beat ∈ stage.outside.timers.live

namespace Attends

open Quorum.Core

/-- The recurring request is called for. -/
theorem wanted (attends : Attends id conn link beat watch stage) :
    beat.deadline ∈ stage.own.liveness.deadlines := by
  rw [attends.deadline]
  exact mem_deadlines_of_keepalive attends.lingers.linked attends.keepalive

theorem elected
    (attends : Attends id conn link beat watch before)
    (shared : Shared before)
    (elects : Elects before effect after) :
    Attends id conn link beat watch after where
  lingers := attends.lingers.elected shared elects
  attached := elects.liveness_eq ▸ attends.attached
  keepalive := attends.keepalive
  deadline := elects.liveness_eq ▸ attends.deadline
  alive := shared.mem_live_of_elects elects attends.alive rfl attends.wanted

/-- Whatever the core does, it leaves a peer alone whose connection nothing is heard of. -/
theorem acts
    (attends : Attends id conn link beat watch before)
    (shared : Shared before)
    (acts : Acts before heard after)
    (calm : ∀ happening ∈ heard,
      happening.conn? ≠ some conn ∧ ¬ happening.Disturbs before.own.liveness id conn)
    (lasting : heard ≠ some .shutdown)
    (unexpired : heard ≠ some (.peerTimeout id conn)) :
    Attends id conn link beat watch after ∧
      about id after.own.news = about id before.own.news := by
  obtain ⟨lingers, silent⟩ := attends.lingers.acts shared acts
    (fun happening means => (calm happening means).2) lasting fun _ _ => unexpired
  have attached : after.own.liveness.Attached id conn := by
    cases acts with
    | elected elects => exact elects.liveness_eq ▸ attends.attached
    | @watched happening _ _ _ between after watches elects =>
        obtain ⟨elsewhere, undisturbed⟩ := calm happening rfl
        have moved := watches.moves.attached attends.attached elsewhere undisturbed
          (fun shuts => lasting (congrArg some shuts))
          fun expires => unexpired (congrArg some expires)
        exact elects.liveness_eq ▸ moved
    | started elects watches =>
        exact watches.moves.attached (elects.liveness_eq ▸ attends.attached) nofun
          (fun disturbs => disturbs) nofun nofun
  have interval : after.own.liveness.heartbeatInterval = before.own.liveness.heartbeatInterval :=
    congrArg Settings.heartbeatInterval acts.settings_eq
  have deadline : beat.deadline = after.own.liveness.beatDeadline id beat.handle := by
    rw [attends.deadline, beatDeadline, beatDeadline, interval]
  have wanted := mem_deadlines_of_keepalive lingers.linked attends.keepalive
  rw [← deadline] at wanted
  refine ⟨?_, silent⟩
  exact {
    lingers, attached, deadline
    keepalive := attends.keepalive
    alive := shared.mem_live_of_acts acts lasting attends.alive rfl attends.wanted wanted }

/-- The timers have changed, but both timers of the link can still be received. -/
theorem withTimers
    (attends : Attends id conn link beat watch stage)
    (kept : ∀ task, task = beat ∨ task = watch → task ∈ stage.outside.timers.live →
      task ∈ timers.live) :
    Attends id conn link beat watch { stage with outside.timers := timers } :=
  { attends with
    lingers := attends.lingers.withTimers fun _ _ => kept watch (.inr rfl)
    alive := kept beat (.inl rfl) attends.alive }

/-- Another timer is received. -/
theorem delivers
    (attends : Attends id conn link beat watch stage)
    (shared : Shared stage)
    (delivers : stage.outside.timers.Delivers stage.outside.clockMs other timers)
    (apart : beat ≠ other)
    (apart' : watch ≠ other) :
    Attends id conn link beat watch { stage with outside.timers := timers } := by
  obtain ⟨_, _, books⟩ := shared.books
  obtain ⟨_, _, others, before, after⟩ := books.sound.delivers delivers
  refine attends.withTimers ?_
  rintro task (rfl | rfl) alive
  · have rest := (List.mem_cons.mp (before.mem_iff.mp alive)).resolve_left apart
    exact after.mem_iff.mpr (List.mem_append_left _ rest)
  · have rest := (List.mem_cons.mp (before.mem_iff.mp alive)).resolve_left apart'
    exact after.mem_iff.mpr (List.mem_append_left _ rest)

/-- When the recurring request is received it is armed again, one heartbeat interval ahead. -/
theorem renews
    (attends : Attends id conn link beat watch stage)
    (sound : stage.outside.timers.Sound)
    (delivers : stage.outside.timers.Delivers stage.outside.clockMs beat timers)
    (apart : watch ≠ beat) :
    ∃ again, Attends id conn link again watch { stage with outside.timers := timers } ∧
      again.fireAtMs = stage.outside.timers.nowMs stage.outside.clockMs +
        stage.own.liveness.heartbeatInterval.ms := by
  have recurs : beat.isRecurring = true := congrArg Deadline.recurs attends.deadline
  have delay : beat.deadline.delay = stage.own.liveness.heartbeatInterval :=
    congrArg Deadline.delay attends.deadline
  obtain ⟨again, alive, same, timed⟩ := sound.exists_live_of_recurring delivers recurs
  have handle : again.handle = beat.handle := congrArg Deadline.handle same
  obtain ⟨_, _, others, before, after⟩ := sound.delivers delivers
  have lingers : Lingers id conn watch (some link) { stage with outside.timers := timers } := by
    refine attends.lingers.withTimers fun _ _ held => ?_
    have rest := (List.mem_cons.mp (before.mem_iff.mp held)).resolve_left apart
    exact after.mem_iff.mpr (List.mem_append_left _ rest)
  refine ⟨again, ?_, by rw [timed, delay]⟩
  exact {
    lingers
    attached := attends.attached
    keepalive := handle ▸ attends.keepalive
    deadline := by
      rw [same, attends.deadline, handle]
    alive := alive }

/-- An answer of the peer arms its timeout anew, and leaves the recurring request alone. -/
theorem answers
    (attends : Attends id conn link beat watch before)
    (shared : Shared before)
    (acts : Acts before (some (.response conn)) after) :
    ∃ link' watch', Attends id conn link' beat watch' after ∧
      about id after.own.news = about id before.own.news ∧
      watch'.fireAtMs = before.outside.timers.nowMs before.outside.clockMs +
        before.own.liveness.heartbeatTimeout.ms := by
  cases acts with
  | @watched _ event effect _ between after watches elects =>
      have linked := attends.lingers.linked
      have current := (attends.lingers.timed link rfl).current
      obtain ⟨rfl, handle, armed, next_eq⟩ :=
        watches.moves.refreshes attends.attached linked current
      obtain ⟨watch', alive, deadline, timed⟩ := shared.exists_live_of_watches watches armed
      have fires : watch'.payload = .peerTimeout id conn := congrArg Deadline.event deadline
      have named : watch'.handle = handle := congrArg Deadline.handle deadline
      have relinked :
          between.own.liveness.links.get? id = some { link with timeout := some handle } := by
        rw [next_eq]
        exact Table.get?_insert_self ..
      have renewed : Attends id conn { link with timeout := some handle } beat watch' between := {
        lingers := {
          linked := relinked
          timed := by
            rintro _ ⟨⟩
            exact ⟨current, congrArg some named.symm, fires, alive⟩ }
        attached := by
          rw [next_eq]
          exact { attends.attached with }
        keepalive := attends.keepalive
        deadline := by
          rw [next_eq]
          exact attends.deadline
        alive := by
          refine shared.mem_live_of_watches watches attends.alive rfl attends.wanted ?_
          rw [attends.deadline]
          have wanted := mem_deadlines_of_keepalive relinked attends.keepalive
          rw [next_eq] at wanted ⊢
          exact wanted }
      have elected := renewed.elected (shared.watched watches nofun) elects
      refine ⟨_, watch', { elected with lingers := { elected.lingers with } }, ?_, timed⟩
      show about id after.own.news = _
      rw [elects.news_eq, watches.news_eq]

end Attends

/-- A peer that says who it is on a connection which this node has opened gets a link with a
recurring request and a timeout. -/
theorem Core.Acts.attends
    (acts : Core.Acts before (some happening) after)
    (shared : Shared before)
    (greets : happening.Greets before.own.liveness id conn)
    (dialled : (before.own.liveness.dialing.get? conn).isSome)
    (unbound : ∀ other, before.own.registry.get? other ≠ some conn)
    (identified : after.own.registry.peerOf? conn = some id) :
    ∃ link beat watch, Attends id conn link beat watch after ∧
      beat.fireAtMs = before.outside.timers.nowMs before.outside.clockMs +
        before.own.liveness.heartbeatInterval.ms ∧
      watch.fireAtMs = before.outside.timers.nowMs before.outside.clockMs +
        before.own.liveness.heartbeatTimeout.ms := by
  cases acts with
  | @watched _ _ _ _ between after watches elects =>
      have resolved : between.own.liveness.registry.peerOf? conn = some id := by
        rw [← elects.liveness_eq]
        exact identified
      obtain ⟨attached, keepalive, timeout, linked, beats, expires⟩ :=
        watches.moves.attaches shared.aligned.coherent greets dialled unbound resolved
      obtain ⟨beat, beating, beat_eq, soon⟩ := shared.exists_live_of_watches watches beats
      obtain ⟨watch, watching, watch_eq, late⟩ := shared.exists_live_of_watches watches expires
      have beat_handle : beat.handle = keepalive := congrArg Deadline.handle beat_eq
      have watch_handle : watch.handle = timeout := congrArg Deadline.handle watch_eq
      have interval : between.own.liveness.heartbeatInterval =
          before.own.liveness.heartbeatInterval :=
        congrArg Settings.heartbeatInterval watches.moves.settings_eq
      have attends : Attends id conn _ beat watch between := {
        lingers := {
          linked := linked
          timed := by
            rintro _ ⟨⟩
            exact ⟨rfl, congrArg some watch_handle.symm, congrArg Deadline.event watch_eq,
              watching⟩ }
        attached := attached
        keepalive := congrArg some beat_handle.symm
        deadline := by rw [beat_eq, beat_handle, beatDeadline, beatDeadline, interval]
        alive := beating }
      have lasting : happening ≠ .shutdown := by
        rintro rfl
        exact greets
      have elected := attends.elected (shared.watched watches lasting) elects
      exact ⟨_, beat, watch, { elected with lingers := { elected.lingers with } }, soon, late⟩
  | started => exact greets.elim

/-! ## The time that is left -/

/-- Neither the recurring request nor the timeout of a link is overdue, and the request is due
before the timeout, unless an answer is owed that puts the timeout off. -/
structure Paced
    (config : NodeConfig)
    (epochMs : Nat)
    (beat watch : Task TimerEvent)
    (owed : Bool)
    (clockMs : Nat) : Prop where
  waiting : clockMs ≤ beat.dueMs config.timer.tickMs epochMs
  soon : beat.fireAtMs ≤ clockMs - epochMs + config.heartbeatIntervalMs
  ordered :
    beat.dueMs config.timer.tickMs epochMs < watch.dueMs config.timer.tickMs epochMs ∨
      owed = true ∧ clockMs < watch.dueMs config.timer.tickMs epochMs

namespace Paced

/-- The timeout is not due. -/
theorem lt_watch (paced : Paced config epochMs beat watch owed clockMs) :
    clockMs < watch.dueMs config.timer.tickMs epochMs :=
  paced.ordered.elim (Nat.lt_of_le_of_lt paced.waiting) And.right

theorem owes
    (paced : Paced config epochMs beat watch owed clockMs)
    (more : owed = true → owed' = true) :
    Paced config epochMs beat watch owed' clockMs :=
  { paced with ordered := paced.ordered.imp_right (And.imp_left more) }

/-- The recurring request was sent, and armed again. -/
theorem asked
    (paced : Paced config epochMs beat watch owed clockMs)
    (ticking : 0 < config.timer.tickMs)
    (begun : epochMs ≤ clockMs)
    (timed : again.fireAtMs = clockMs - epochMs + config.heartbeatIntervalMs) :
    Paced config epochMs again watch true clockMs where
  waiting := by
    obtain ⟨beyond, _⟩ := Task.dueMs_bounds ticking begun timed
    omega
  soon := Nat.le_of_eq timed
  ordered := .inr ⟨rfl, paced.lt_watch⟩

/-- The timeout was armed anew. -/
theorem answered
    (paced : Paced config epochMs beat watch owed clockMs)
    (ticking : 0 < config.timer.tickMs)
    (ample : config.heartbeatIntervalMs + config.timer.tickMs ≤ config.heartbeatTimeoutMs)
    (timed : watch'.fireAtMs = clockMs - epochMs + config.heartbeatTimeoutMs) :
    Paced config epochMs beat watch' false clockMs where
  waiting := paced.waiting
  soon := paced.soon
  ordered := by
    have soon := paced.soon
    exact .inl (Task.dueMs_lt ticking (by omega))

/-- Time passes, while no answer is owed. -/
theorem elapsed
    (paced : Paced config epochMs beat watch false clockMs)
    (later : clockMs ≤ laterMs)
    (inTime : laterMs ≤ beat.dueMs config.timer.tickMs epochMs) :
    Paced config epochMs beat watch false laterMs where
  waiting := inTime
  soon := by
    have soon := paced.soon
    omega
  ordered := paced.ordered.imp_right nofun

end Paced

/-! ## One step -/

namespace Attends

/-- A fired timer is handled.  It is not the timeout of the peer; if it is the recurring request, an
answer is owed afterwards. -/
theorem woken
    (attends : Attends id conn link beat watch before)
    (paced : Paced config epochMs beat watch owed before.outside.clockMs)
    (kept : Kept config epochMs before)
    (valid : config.validate = .ok ())
    (delivers : before.outside.timers.Delivers before.outside.clockMs other timers)
    (acts : Core.Acts { before with outside.timers := timers } (Happening.ofTimer other.payload)
      after) :
    ∃ again, Attends id conn link again watch after ∧
      about id after.own.news = about id before.own.news ∧
      Paced config epochMs again watch
        (owed || decide (before.outside.probes conn < after.outside.probes conn))
        before.outside.clockMs := by
  have apart : watch ≠ other := by
    rintro rfl
    obtain ⟨_, _, queue, _⟩ := delivers.renewal
    have fired : watch ∈ before.outside.timers.fired := by
      rw [queue]
      exact List.mem_append_right _ List.mem_cons_self
    exact absurd (kept.punctual.dueMs_le fired) (Nat.not_le.mpr paced.lt_watch)
  have unexpired : Happening.ofTimer other.payload ≠ some (.peerTimeout id conn) := fun expires =>
    apart (attends.lingers.eq_of_peerTimeout kept delivers
      (Happening.eq_of_ofTimer_eq_peerTimeout expires)).symm
  have calm : ∀ happening ∈ Happening.ofTimer other.payload, happening.conn? ≠ some conn ∧
      ¬ happening.Disturbs before.own.liveness id conn := fun happening means =>
    ⟨by rw [Happening.conn?_of_ofTimer means]; exact nofun,
      Happening.not_disturbs_of_ofTimer means⟩
  have lasting : Happening.ofTimer other.payload ≠ some .shutdown := fun shuts =>
    Happening.ne_shutdown_of_ofTimer shuts rfl
  have shared := kept.shared.delivers delivers
  by_cases same : other = beat
  · subst same
    obtain ⟨again, renewed, timed⟩ := attends.renews kept.sound delivers apart
    obtain ⟨stays, silent⟩ := renewed.acts shared acts calm lasting unexpired
    have fires : other.payload = .peerKeepAlive id := congrArg Deadline.event attends.deadline
    rw [fires] at acts
    have sent : before.outside.probes conn < after.outside.probes conn := by
      rw [← (attends.lingers.timed link rfl).current]
      exact acts.probes_lt attends.lingers.linked
    refine ⟨again, stays, silent, ?_⟩
    rw [decide_eq_true sent, Bool.or_true]
    rw [kept.nowMs_eq, (kept.heartbeat_eq valid).1] at timed
    exact paced.asked (NodeConfig.tick_pos valid) kept.punctual.begun timed
  · have received := attends.delivers kept.shared delivers (Ne.symm same) apart
    obtain ⟨stays, silent⟩ := received.acts shared acts calm lasting unexpired
    exact ⟨beat, stays, silent, paced.owes fun owes => by rw [owes, Bool.true_or]⟩

/-- A step during which nothing is heard of the connection. -/
theorem goes
    (attends : Attends id conn link beat watch before)
    (paced : Paced config epochMs beat watch owed before.outside.clockMs)
    (kept : Kept config epochMs before)
    (valid : config.validate = .ok ())
    (goes : Goes before cue after)
    (calm : ∀ told ∈ cue, ∀ happening ∈ told.happening?,
      happening.conn? ≠ some conn ∧ ¬ happening.Disturbs before.own.liveness id conn)
    (patient : before.outside.clockMs < after.outside.clockMs → owed = false) :
    ∃ again, Attends id conn link again watch after ∧
      about id after.own.news = about id before.own.news ∧
      Paced config epochMs again watch
        (owed || decide (before.outside.probes conn < after.outside.probes conn))
        after.outside.clockMs := by
  have owes {asked : Bool} : owed = true → (owed || asked) = true := fun owes => by
    rw [owes, Bool.true_or]
  cases goes with
  | @told cue _ performed =>
      have acts := (Core.handler_acts cue).of_perform performed
      obtain ⟨stays, silent⟩ := attends.acts kept.shared acts (calm cue rfl)
        (fun shuts => (Cue.of_happening? shuts).2 rfl)
        (fun expires => by cases (Cue.of_happening? expires).1)
      exact ⟨beat, stays, silent, acts.clock_eq ▸ paced.owes owes⟩
  | @woken other timers _ delivers performed =>
      have acts := (Core.onTimer_acts other.payload).of_perform performed
      have clock_eq : after.outside.clockMs = before.outside.clockMs := acts.clock_eq
      rw [clock_eq]
      exact attends.woken paced kept valid delivers acts
  | drained received =>
      obtain ⟨_, live, _⟩ := kept.sound.drained received
      exact ⟨beat, attends.withTimers fun _ _ alive => live.symm ▸ alive, rfl, paced.owes owes⟩
  | settled intact =>
      obtain ⟨_, live⟩ := kept.sound.settle intact
      exact ⟨beat, attends.withTimers fun _ _ alive => live.mem_iff.mpr alive, rfl,
        paced.owes owes⟩
  | @elapsed laterMs wakeMs later handled wakes inTime =>
      refine ⟨beat, { attends with lingers := { attends.lingers with } }, rfl, ?_⟩
      rcases Nat.eq_or_lt_of_le later with same | passed
      · exact same ▸ paced.owes owes
      · obtain rfl := patient passed
        obtain ⟨held, running⟩ := Scheduler.mem_live.mp attends.alive
        -- A timer that has not been received is still in the wheels.
        have waiting : beat ∈ before.outside.timers.tiers.tasks := by
          refine (List.mem_append.mp held).resolve_left fun fired => ?_
          rw [handled beat fired] at running
          cases running
        have reached := Nat.le_trans inTime (kept.punctual.wake_le waiting wakes)
        exact (paced.elapsed later reached).owes owes

end Attends

/-! ## Attention -/

/-- A peer that answers in time keeps its link, and the timeout never becomes due. -/
theorem Attended.outcome
    (attended : Attended id conn origin owed stage)
    (kept : Kept config epochMs origin)
    (valid : config.validate = .ok ())
    (ample : config.heartbeatIntervalMs + config.timer.tickMs ≤ config.heartbeatTimeoutMs)
    (attends : Attends id conn link beat watch origin)
    (paced : Paced config epochMs beat watch false origin.outside.clockMs) :
    Kept config epochMs stage ∧ ∃ link beat watch,
      Attends id conn link beat watch stage ∧
      about id stage.own.news = about id origin.own.news ∧
      Paced config epochMs beat watch owed stage.outside.clockMs := by
  induction attended with
  | begun => exact ⟨kept, link, beat, watch, attends, rfl, paced⟩
  | @answered owed before after _ goes _ ih =>
      obtain ⟨kept, link, beat, watch, attends, told, paced⟩ := ih
      refine ⟨goes.kept kept, ?_⟩
      cases goes with
      | told performed =>
          have acts := (Core.handler_acts _).of_perform performed
          obtain ⟨link', watch', attends', silent, timed⟩ := attends.answers kept.shared acts
          rw [kept.nowMs_eq, (kept.heartbeat_eq valid).2] at timed
          have paced' := paced.answered (NodeConfig.tick_pos valid) ample timed
          exact ⟨link', beat, watch', attends', silent.trans told, acts.clock_eq ▸ paced'⟩
  | @gone owed cue before after _ goes calm _ patient ih =>
      obtain ⟨kept, link, beat, watch, attends, told, paced⟩ := ih
      obtain ⟨again, attends', silent, paced'⟩ :=
        attends.goes paced kept valid goes calm patient
      exact ⟨goes.kept kept, link, again, watch, attends', silent.trans told, paced'⟩

/-- If the heartbeat timeout exceeds the heartbeat interval by a tick or more, then a peer that this
node has dialled, and that answers every request in the millisecond in which it was sent, stays
connected, and nothing is told about it. -/
theorem Service.keeps_attentive_peer
    {cue : Cue}
    (service : Service config epochMs before)
    (ample : config.heartbeatIntervalMs + config.timer.tickMs ≤ config.heartbeatTimeoutMs)
    (meets : Meets id conn cue before origin)
    (attended : Attended id conn origin owed stage) :
    stage.Keeps id conn (about id origin.own.news) := by
  have kept := service.kept
  have acts := (Core.handler_acts cue).of_perform meets.performed
  have clock_eq : origin.outside.clockMs = before.outside.clockMs := acts.clock_eq
  obtain ⟨happening, heartbeat, greets⟩ := meets.greets
  rw [heartbeat] at acts
  obtain ⟨link, beat, watch, attends, soon, late⟩ :=
    acts.attends kept.shared greets meets.dialled meets.unbound meets.identified
  have ticking := NodeConfig.tick_pos service.valid
  obtain ⟨interval, timeout⟩ := kept.heartbeat_eq service.valid
  rw [kept.nowMs_eq, interval] at soon
  rw [kept.nowMs_eq, timeout] at late
  have paced : Paced config epochMs beat watch false origin.outside.clockMs := by
    rw [clock_eq]
    obtain ⟨beyond, _⟩ := Task.dueMs_bounds ticking kept.punctual.begun soon
    exact {
      waiting := by omega
      soon := Nat.le_of_eq soon
      ordered := .inl (Task.dueMs_lt ticking (by omega)) }
  have goes : Goes before (some cue) origin := .told meets.performed
  obtain ⟨held, _, _, _, stays, told, _⟩ :=
    attended.outcome (goes.kept kept) service.valid ample attends paced
  exact ⟨stays.lingers.bound held.shared, told⟩

end Runs

/-! ### A peer that answers twice

The node and the peer of `Lull`, except that the peer answers the request that it receives after two
seconds.  In `Echo` the timeout is two seconds, one tick more than the interval; in `Haste` it is
one millisecond less. -/

namespace Lull

variable {stage : Stage Core} {laterMs : Nat} {owed : Bool} {origin : Stage Core}

/-- The clock moves on, and the wheels are settled. -/
theorem attended_settled
    (attended : Attended "1" ⟨1⟩ origin false stage)
    (goes : Goes stage none { stage with outside.clockMs := laterMs })
    (intact : (stage.outside.timers.settle laterMs).intact = true) :
    Attended "1" ⟨1⟩ origin false (settled stage laterMs) := by
  have passes := attended.gone goes nofun nofun fun _ => rfl
  have settles := passes.gone (.settled intact) nofun nofun fun same =>
    absurd same (Nat.lt_irrefl _)
  simpa [Outside.probes, settled] using settles

/-- The next timer is received and handled. -/
theorem attended_woken
    (attended : Attended "1" ⟨1⟩ origin owed stage)
    (task : Task TimerEvent)
    (received : stage.outside.timers.receive stage.outside.clockMs = .ok (some task, rest stage))
    (accepted : ∀ occurrence, task.nextOccurrence = some occurrence →
      (stage.outside.timers.place stage.outside.clockMs occurrence).toOption.isSome)
    (answered : ((Core.onTimer task.payload).perform
      { stage with outside.timers := rest stage }).1 = .ok ()) :
    ∃ owed', Attended "1" ⟨1⟩ origin owed' (woken stage task.payload) := by
  have delivers : stage.outside.timers.Delivers stage.outside.clockMs task (rest stage) := by
    refine ⟨received, fun occurrence recurs => ?_⟩
    have fits := accepted occurrence recurs
    cases placed : stage.outside.timers.place stage.outside.clockMs occurrence with
    | error cause =>
        rw [placed] at fits
        cases fits
    | ok timers => exact ⟨timers, rfl⟩
  have performed := perform_eq answered
  have acts : Core.Acts { stage with outside.timers := rest stage } _ (woken stage task.payload) :=
    (Core.onTimer_acts task.payload).of_perform performed
  exact ⟨_, attended.gone (.woken delivers performed) nofun nofun fun passed =>
    absurd acts.clock_eq (Nat.ne_of_gt passed)⟩

theorem meets : Meets "1" ⟨1⟩ answer opened linked where
  performed := perform_eq (show (answer.handler.perform opened).1 = .ok () by decide +kernel)
  greets := ⟨_, rfl, rfl, by decide +kernel⟩
  dialled := by decide +kernel
  unbound := fun _ => nofun
  identified := by decide +kernel

end Lull

namespace Echo

open Lull

def answered : Stage Core := told nudged answer

def last : Stage Core := settled answered 3000

theorem attended : Attended "1" ⟨1⟩ linked false last := by
  have first := attended_settled (.begun : Attended "1" ⟨1⟩ linked false linked)
    (.elapsed (by decide +kernel) (by decide +kernel)
      (show linked.outside.timers.wakeMs = .ok (some 2000) by decide +kernel) (Nat.le_refl _))
    (by decide +kernel)
  obtain ⟨_, second⟩ := attended_woken first beat (by decide +kernel) (by decide +kernel)
    (by decide +kernel)
  have answers : Goes nudged (some answer) answered := goes_told (by decide +kernel)
  have third := second.answered answers (by decide +kernel)
  exact attended_settled third
    (.elapsed (by decide +kernel) (by decide +kernel)
      (show answered.outside.timers.wakeMs = .ok (some 3000) by decide +kernel) (Nat.le_refl _))
    (by decide +kernel)

end Echo

/-- The peer has answered at the end of the second second, and is still connected at the end of the
third, when it would have been dropped otherwise. -/
theorem Service.keeps_attentive_peer_echo :
    Lull.config.heartbeatIntervalMs + Lull.config.timer.tickMs ≤ Lull.config.heartbeatTimeoutMs ∧
      Service Lull.config 0 Lull.opened ∧
      Meets "1" ⟨1⟩ Lull.answer Lull.opened Lull.linked ∧
      Attended "1" ⟨1⟩ Lull.linked false Echo.last ∧
      Echo.last.Keeps "1" ⟨1⟩ [.connected "1"] := by
  have ample : Lull.config.heartbeatIntervalMs + Lull.config.timer.tickMs ≤
      Lull.config.heartbeatTimeoutMs := by decide
  have told : about "1" Lull.linked.own.news = [.connected "1"] := by decide +kernel
  have keeps := Service.keeps_attentive_peer Lull.service ample Lull.meets Echo.attended
  rw [told] at keeps
  exact ⟨ample, Lull.service, Lull.meets, Echo.attended, keeps⟩

namespace Haste

open Lull (answer beat told woken settled rest)

def config : NodeConfig := { Lull.config with heartbeatTimeoutMs := 1999 }

def fresh : Stage Core where
  own := Core.ofConfig config 0
  outside := { clockMs := 0, timers := Lull.timers, draws := fun _ => 0 }

def started : Stage Core := told fresh .started

def opened : Stage Core := told started (.reported (.connected ⟨1⟩ "1"))

def linked : Stage Core := told opened answer

def timeout : Task TimerEvent := ⟨⟨3⟩, Delay.ofMs 1999, none, 1999, .peerTimeout "1" ⟨1⟩⟩

def nudged : Stage Core := woken (settled linked 2000) beat.payload

def dropped : Stage Core := woken nudged timeout.payload

def last : Stage Core := told dropped answer

theorem service : Service config 0 opened := by
  have begun : Service config 0 fresh :=
    .begun (by decide +kernel) rfl rfl rfl (by decide +kernel)
  have starts := begun.gone (Lull.goes_told (show (Cue.started.handler.perform fresh).1 = .ok () by
    decide +kernel))
  exact starts.gone (Lull.goes_told (by decide +kernel))

theorem meets : Meets "1" ⟨1⟩ answer opened linked where
  performed := perform_eq (show (answer.handler.perform opened).1 = .ok () by decide +kernel)
  greets := ⟨_, rfl, rfl, by decide +kernel⟩
  dialled := by decide +kernel
  unbound := fun _ => nofun
  identified := by decide +kernel

theorem attended : Attended "1" ⟨1⟩ linked false last := by
  have first := Lull.attended_settled (.begun : Attended "1" ⟨1⟩ linked false linked)
    (.elapsed (by decide +kernel) (by decide +kernel)
      (show linked.outside.timers.wakeMs = .ok (some 2000) by decide +kernel) (Nat.le_refl _))
    (by decide +kernel)
  obtain ⟨_, second⟩ := Lull.attended_woken first beat (by decide +kernel) (by decide +kernel)
    (by decide +kernel)
  obtain ⟨_, third⟩ := Lull.attended_woken second timeout (by decide +kernel) (by decide +kernel)
    (by decide +kernel)
  have answers : Goes dropped (some answer) last := Lull.goes_told (by decide +kernel)
  exact third.answered answers (by decide +kernel)

end Haste

/-- A valid configuration whose heartbeat timeout exceeds the interval, though by less than a tick,
loses a peer that has answered every request. -/
theorem Service.drops_attentive_peer :
    Haste.config.validate = .ok () ∧
      Service Haste.config 0 Haste.opened ∧
      Meets "1" ⟨1⟩ Lull.answer Haste.opened Haste.linked ∧
      Attended "1" ⟨1⟩ Haste.linked false Haste.last ∧
      about "1" Haste.linked.own.news = [.connected "1"] ∧
      about "1" Haste.last.own.news = [.disconnected "1", .connected "1"] := by
  refine ⟨by decide +kernel, Haste.service, Haste.meets, Haste.attended, ?_, ?_⟩
  · decide +kernel
  · decide +kernel

end Quorum
