import Quorum.Proofs.Node.Service
import Quorum.Proofs.Peers.Undisturbed

/-!
# Peers that fall silent

A peer that is not heard of any longer is dropped when its timeout passes: more than one heartbeat
timeout after its last heartbeat was handled, and not more than one tick later.  Until then it stays
connected, and afterwards nothing more is told about it (`Service.drops_silent_peer`).  When this
happens is settled by that last heartbeat; neither what goes on among the other peers and in the
election nor the requests of this node can change it.
-/

namespace Quorum

open Act Liveness

/-- The news about a peer. -/
def about (id : NodeId) (news : List PeerEvent) : List PeerEvent :=
  news.filter fun event => event.peer = id

/-- Steps during which nothing is heard of a peer or of a connection. -/
inductive Hushed (id : NodeId) (conn : ConnId) (origin : Stage Core) : Stage Core → Prop where
  | begun : Hushed id conn origin origin
  | gone
      {cue : Option Cue} {before after : Stage Core}
      (hushed : Hushed id conn origin before)
      (goes : Goes before cue after)
      (calm : ∀ told ∈ cue, ∀ happening ∈ told.happening?,
        ¬ happening.Touches before.own.liveness id conn) :
      Hushed id conn origin after

/-- A peer is connected, and the news about it are as given. -/
structure Stage.Keeps
    (stage : Stage Core)
    (id : NodeId)
    (conn : ConnId)
    (told : List PeerEvent) : Prop where
  bound : stage.own.registry.get? id = some conn
  told_eq : about id stage.own.news = told

/-- A peer is no longer connected, its connection was closed at the given instant, and one thing
more has been told about it. -/
structure Stage.HasDropped
    (stage : Stage Core)
    (id : NodeId)
    (conn : ConnId)
    (dueMs : Nat)
    (told : List PeerEvent) : Prop where
  unbound : stage.own.registry.get? id = none
  closed : (dueMs, .close conn) ∈ stage.outside.asked
  told_eq : about id stage.own.news = .disconnected id :: told

section Runs

variable
    {config : NodeConfig}
    {epochMs : Nat}
    {before between after stage : Stage Core}
    {timers : Scheduler TimerEvent}
    {task other : Task TimerEvent}
    {heard : Option Happening}
    {happening : Happening}
    {event : Option PeerEvent}
    {effect : Effect}
    {id : NodeId}
    {conn : ConnId}
    {link : PeerLink}
    {link? : Option PeerLink}

theorem about_append_of_silent
    {news : List PeerEvent}
    (silent : ∀ told ∈ event, told.peer ≠ id) :
    about id (event.toList ++ news) = about id news := by
  unfold about
  rw [List.filter_append, List.filter_eq_nil_iff.mpr, List.nil_append]
  intro told listed
  simpa using silent told (Option.mem_toList.mp listed)

/-! ## Timers that stay

A timer that the protocol calls for stays, whatever the node does, as long as the protocol goes on
to call for it. -/

namespace Shared

open Quorum.Core

variable {deadline : Deadline TimerEvent}

theorem mem_live_of_elects
    (shared : Shared before)
    (elects : Elects before effect after)
    (alive : task ∈ before.outside.timers.live)
    (same : deadline.handle = task.handle)
    (wanted : deadline ∈ before.own.liveness.deadlines) :
    task ∈ after.outside.timers.live :=
  elects.turns.works.mem_live_of_spared alive (same ▸ shared.spared elects deadline wanted)

theorem mem_live_of_watches
    (shared : Shared before)
    (watches : Watches before happening event effect after)
    (alive : task ∈ before.outside.timers.live)
    (same : deadline.handle = task.handle)
    (wanted : deadline ∈ before.own.liveness.deadlines)
    (wanted' : deadline ∈ after.own.liveness.deadlines) :
    task ∈ after.outside.timers.live := by
  obtain ⟨_, _, books⟩ := shared.books
  have spared := watches.moves.spares books
    (fun armed listed => watches.turns.works.issued_le_of_mem listed) wanted wanted'
  exact watches.turns.works.mem_live_of_spared alive (same ▸ spared)

theorem mem_live_of_acts
    (shared : Shared before)
    (acts : Acts before heard after)
    (lasting : heard ≠ some .shutdown)
    (alive : task ∈ before.outside.timers.live)
    (same : deadline.handle = task.handle)
    (wanted : deadline ∈ before.own.liveness.deadlines)
    (wanted' : deadline ∈ after.own.liveness.deadlines) :
    task ∈ after.outside.timers.live := by
  cases acts with
  | elected elects => exact shared.mem_live_of_elects elects alive same wanted
  | @watched happening _ _ _ between after watches elects =>
      have lasts : happening ≠ .shutdown := fun shuts => lasting (congrArg some shuts)
      have wanted' : deadline ∈ between.own.liveness.deadlines := elects.liveness_eq ▸ wanted'
      have stays := shared.mem_live_of_watches watches alive same wanted wanted'
      have stays' : task ∈ after.outside.timers.live :=
        (shared.watched watches lasts).mem_live_of_elects elects stays same wanted'
      exact stays'
  | started elects watches =>
      have stays := shared.mem_live_of_elects elects alive same wanted
      exact (shared.elected elects).mem_live_of_watches watches stays same
        (elects.liveness_eq.symm ▸ wanted) wanted'

/-- What the protocol arms can be received afterwards, and has its fire time. -/
theorem exists_live_of_watches
    (shared : Shared before)
    (watches : Watches before happening event effect after)
    (armed : deadline ∈ effect.armed) :
    ∃ task ∈ after.outside.timers.live, task.deadline = deadline ∧
      task.fireAtMs =
        before.outside.timers.nowMs before.outside.clockMs + deadline.delay.ms := by
  obtain ⟨_, _, books⟩ := shared.books
  have works := watches.turns.works
  -- Only older timers are released.
  have spared : deadline.handle ∉ effect.released := fun gone =>
    absurd (watches.moves.released_lt books _ gone)
      (Nat.not_lt.mpr (works.issued_le_of_mem armed))
  exact works.exists_live_of_armed books.sound armed spared

end Shared

/-! ## A link that nothing disturbs -/

/-- The timeout of a link to a connection can still be received. -/
structure PeerLink.IsTimed
    (link : PeerLink)
    (id : NodeId)
    (conn : ConnId)
    (task : Task TimerEvent)
    (timers : Scheduler TimerEvent) : Prop where
  current : link.conn = conn
  timeout : link.timeout = some task.handle
  fires : task.payload = .peerTimeout id conn
  alive : task ∈ timers.live

/-- A peer has this link, and the timeout of it is running; or it has none. -/
structure Lingers
    (id : NodeId)
    (conn : ConnId)
    (task : Task TimerEvent)
    (link? : Option PeerLink)
    (stage : Stage Core) : Prop where
  linked : stage.own.liveness.links.get? id = link?
  timed : ∀ link ∈ link?, link.IsTimed id conn task stage.outside.timers

namespace Lingers

open Quorum.Core

/-- The timeout of the link is called for. -/
theorem wanted
    (lingers : Lingers id conn task (some link) stage) :
    stage.own.liveness.peerDeadline id conn task.handle ∈ stage.own.liveness.deadlines := by
  obtain ⟨rfl, timeout, _, _⟩ := lingers.timed link rfl
  exact mem_deadlines_of_timeout lingers.linked timeout

theorem bound
    (lingers : Lingers id conn task (some link) stage)
    (shared : Shared stage) :
    stage.own.registry.get? id = some conn := by
  rw [← (lingers.timed link rfl).current]
  exact shared.aligned.get?_of_link lingers.linked

theorem elected
    (lingers : Lingers id conn task link? before)
    (shared : Shared before)
    (elects : Elects before effect after) :
    Lingers id conn task link? after where
  linked := by
    rw [elects.liveness_eq]
    exact lingers.linked
  timed := by
    rintro link ⟨⟩
    obtain ⟨current, timeout, fires, alive⟩ := lingers.timed link rfl
    exact ⟨current, timeout, fires, shared.mem_live_of_elects elects alive rfl lingers.wanted⟩

/-- A move that does not disturb the peer leaves the link and its timeout alone. -/
theorem watched
    (lingers : Lingers id conn task link? before)
    (shared : Shared before)
    (watches : Watches before happening event effect after)
    (calm : ¬ happening.Disturbs before.own.liveness id conn)
    (lasting : happening ≠ .shutdown)
    (unexpired : ∀ link ∈ link?, happening ≠ .peerTimeout id conn) :
    Lingers id conn task link? after ∧ ∀ told ∈ event, told.peer ≠ id := by
  have bound (other : ConnId) (held : before.own.liveness.registry.get? id = some other) :
      other = conn ∧ ∃ link, link? = some link := by
    obtain ⟨link, linked, rfl⟩ := shared.aligned.exists_link held
    rw [lingers.linked] at linked
    exact ⟨(lingers.timed link linked).current, link, linked⟩
  have leaves := watches.moves.undisturbed shared.aligned.coherent
    (fun other held => (bound other held).1)
    (by
      intro link linked
      rw [lingers.linked] at linked
      obtain ⟨_, timeout, _, alive⟩ := lingers.timed link linked
      have running := (Scheduler.mem_live.mp alive).2
      exact ⟨task.handle, timeout, running⟩)
    calm lasting
    (by
      rintro other rfl held
      obtain ⟨rfl, link, linked⟩ := bound other held
      exact unexpired link linked rfl)
  refine ⟨⟨leaves.linked.trans lingers.linked, ?_⟩, leaves.silent⟩
  rintro link ⟨⟩
  obtain ⟨current, timeout, fires, alive⟩ := lingers.timed link rfl
  have after_wanted : before.own.liveness.peerDeadline id conn task.handle ∈
      after.own.liveness.deadlines := by
    have timeout_eq : after.own.liveness.heartbeatTimeout =
        before.own.liveness.heartbeatTimeout :=
      congrArg Settings.heartbeatTimeout watches.moves.settings_eq
    have wanted := mem_deadlines_of_timeout (leaves.linked.trans lingers.linked) timeout
    unfold peerDeadline at wanted ⊢
    rw [timeout_eq, current] at wanted
    exact wanted
  exact ⟨current, timeout, fires,
    shared.mem_live_of_watches watches alive rfl lingers.wanted after_wanted⟩

/-- Whatever the core does, it leaves a peer alone that is not disturbed. -/
theorem acts
    (lingers : Lingers id conn task link? before)
    (shared : Shared before)
    (acts : Acts before heard after)
    (calm : ∀ happening ∈ heard, ¬ happening.Disturbs before.own.liveness id conn)
    (lasting : heard ≠ some .shutdown)
    (unexpired : ∀ link ∈ link?, heard ≠ some (.peerTimeout id conn)) :
    Lingers id conn task link? after ∧ about id after.own.news = about id before.own.news := by
  cases acts with
  | elected elects => exact ⟨lingers.elected shared elects, by rw [elects.news_eq]⟩
  | @watched happening _ _ _ _ after watches elects =>
      have lasts : happening ≠ .shutdown := fun same => lasting (congrArg some same)
      obtain ⟨watched, silent⟩ := lingers.watched shared watches (calm happening rfl) lasts
        fun link linked same => unexpired link linked (congrArg some same)
      have elected := watched.elected (shared.watched watches lasts) elects
      refine ⟨⟨elected.linked, elected.timed⟩, ?_⟩
      rw [about_append_of_silent silent, elects.news_eq, watches.news_eq]
  | started elects watches =>
      have elected := lingers.elected shared elects
      obtain ⟨watched, _⟩ := elected.watched (shared.elected elects) watches
        (fun disturbs => disturbs) nofun fun _ _ => nofun
      exact ⟨watched, by rw [watches.news_eq, elects.news_eq]⟩

/-- The timers have changed, and the timeout of the link can still be received. -/
theorem withTimers
    (lingers : Lingers id conn task link? stage)
    (alive : ∀ link ∈ link?, task ∈ stage.outside.timers.live → task ∈ timers.live) :
    Lingers id conn task link? { stage with outside.timers := timers } where
  linked := lingers.linked
  timed := by
    intro link linked
    obtain ⟨current, timeout, fires, held⟩ := lingers.timed link linked
    exact ⟨current, timeout, fires, alive link linked held⟩

/-- Another timer is received. -/
theorem delivers
    (lingers : Lingers id conn task link? stage)
    (shared : Shared stage)
    (delivers : stage.outside.timers.Delivers stage.outside.clockMs other timers)
    (apart : ∀ link ∈ link?, task ≠ other) :
    Lingers id conn task link? { stage with outside.timers := timers } := by
  obtain ⟨_, _, books⟩ := shared.books
  obtain ⟨_, _, others, before, after⟩ := books.sound.delivers delivers
  refine lingers.withTimers fun link linked held => ?_
  have kept := (List.mem_cons.mp (before.mem_iff.mp held)).resolve_left (apart link linked)
  exact after.mem_iff.mpr (List.mem_append_left _ kept)

end Lingers

/-! ## One step -/

namespace Core.Acts

/-- The timeout of a connected peer drops it. -/
theorem expires
    (acts : Acts before (some (.peerTimeout id conn)) after)
    (bound : before.own.registry.get? id = some conn) :
    after.HasDropped id conn before.outside.clockMs (about id before.own.news) := by
  cases acts with
  | @watched _ _ _ _ between after watches elects =>
      have moves := watches.moves
      generalize peers : between.own.liveness = next at moves
      generalize expiry : before.own.liveness = own at moves
      cases moves with
      | superseded outdated => exact absurd (expiry ▸ bound) outdated
      | @expired id conn _ _ current pursues =>
          have asked : (before.outside.clockMs, Ask.close conn) ∈ between.outside.asked :=
            watches.turns.mem_asked.mpr (.inr ⟨rfl, by simp⟩)
          exact {
            unbound := by
              show after.own.liveness.registry.get? id = none
              obtain ⟨_, same⟩ := pursues.next_eq
              rw [elects.liveness_eq, peers, same, Registry.get?_removeIfCurrent current,
                if_pos rfl]
            closed := elects.turns.mem_asked.mpr (.inl asked)
            told_eq := by
              rw [elects.news_eq, watches.news_eq]
              simp [about, PeerEvent.peer] }

end Core.Acts

/-- A handle belongs to one task that can be received at most. -/
theorem Scheduler.Sound.eq_of_handle
    (sound : timers.Sound)
    (alive : task ∈ timers.live)
    (alive' : other ∈ timers.live)
    (same : task.handle = other.handle) :
    task = other :=
  sound.eq_of_held (mem_live.mp alive).1 (mem_live.mp alive').1 same

section Steps

variable {cue : Option Cue}

/-- The timeout of a link is the only timer that drops the peer. -/
theorem Lingers.eq_of_peerTimeout
    (lingers : Lingers id conn task (some link) before)
    (kept : Kept config epochMs before)
    (delivers : before.outside.timers.Delivers before.outside.clockMs other timers)
    (fires : other.payload = .peerTimeout id conn) :
    other = task := by
  obtain ⟨_, timeout, _, alive⟩ := lingers.timed link rfl
  obtain ⟨_, _, _, perm, _⟩ := kept.sound.delivers delivers
  have delivered := perm.mem_iff.mpr List.mem_cons_self
  have event : other.deadline.event = .peerTimeout id conn := fires
  have listed := kept.tended.mem_own (List.mem_map_of_mem delivered) (by rw [event]; rfl)
  obtain ⟨_, found, linked, _, held⟩ := of_peerTimeout listed event
  rw [lingers.linked] at linked
  obtain rfl := Option.some.inj linked
  rw [timeout] at held
  exact kept.sound.eq_of_handle delivered alive (Option.some.inj held).symm

/-- A fired timer that is handled leaves a silent peer alone, unless it is its timeout. -/
theorem Lingers.woken
    (lingers : Lingers id conn task link? before)
    (kept : Kept config epochMs before)
    (delivers : before.outside.timers.Delivers before.outside.clockMs other timers)
    (acts : Core.Acts { before with outside.timers := timers } (Happening.ofTimer other.payload)
      after) :
    (Lingers id conn task link? after ∧ about id after.own.news = about id before.own.news) ∨
    (link?.isSome ∧ task.dueMs config.timer.tickMs epochMs ≤ before.outside.clockMs ∧
      after.HasDropped id conn before.outside.clockMs (about id before.own.news)) := by
  by_cases due : link?.isSome ∧ other.payload = .peerTimeout id conn
  · obtain ⟨linked, fires⟩ := due
    obtain ⟨link, rfl⟩ := Option.isSome_iff_exists.mp linked
    obtain rfl := lingers.eq_of_peerTimeout kept delivers fires
    obtain ⟨_, _, queue, _⟩ := delivers.renewal
    have fired : other ∈ before.outside.timers.fired := by
      rw [queue]
      exact List.mem_append_right _ List.mem_cons_self
    rw [fires] at acts
    exact .inr ⟨rfl, kept.punctual.dueMs_le fired, acts.expires (lingers.bound kept.shared)⟩
  · have apart : ∀ link ∈ link?, other.payload ≠ .peerTimeout id conn :=
      fun link linked fires => due ⟨Option.isSome_of_mem linked, fires⟩
    have received := lingers.delivers kept.shared delivers fun link linked same =>
      apart link linked (same ▸ (lingers.timed link linked).fires)
    refine .inl (received.acts (kept.shared.delivers delivers) acts ?_ ?_ ?_)
    · exact fun happening meant => Happening.not_disturbs_of_ofTimer meant
    · exact fun shuts => Happening.ne_shutdown_of_ofTimer shuts rfl
    · exact fun link linked expires =>
        apart link linked (Happening.eq_of_ofTimer_eq_peerTimeout expires)

/-- A step that does not disturb a peer leaves it alone, and the clock does not pass the instant at
which its timeout is due; or it drops the peer, and then the timeout is due. -/
theorem Lingers.goes
    (lingers : Lingers id conn task link? before)
    (kept : Kept config epochMs before)
    (goes : Goes before cue after)
    (calm : ∀ told ∈ cue, ∀ happening ∈ told.happening?,
      ¬ happening.Disturbs before.own.liveness id conn) :
    (Lingers id conn task link? after ∧ about id after.own.news = about id before.own.news ∧
      ∀ link ∈ link?, before.outside.clockMs ≤ task.dueMs config.timer.tickMs epochMs →
        after.outside.clockMs ≤ task.dueMs config.timer.tickMs epochMs) ∨
    (link?.isSome ∧ task.dueMs config.timer.tickMs epochMs ≤ before.outside.clockMs ∧
      after.HasDropped id conn before.outside.clockMs (about id before.own.news)) := by
  cases goes with
  | @told cue _ performed =>
      have acts := (Core.handler_acts cue).of_perform performed
      obtain ⟨stays, silent⟩ := lingers.acts kept.shared acts (calm cue rfl)
        (fun shuts => (Cue.of_happening? shuts).2 rfl)
        (fun _ _ expires => by cases (Cue.of_happening? expires).1)
      exact .inl ⟨stays, silent, fun _ _ early => acts.clock_eq ▸ early⟩
  | @woken other timers _ delivers performed =>
      have acts : Core.Acts _ (Happening.ofTimer other.payload) after :=
        (Core.onTimer_acts other.payload).of_perform performed
      refine (lingers.woken kept delivers acts).imp_left ?_
      rintro ⟨stays, silent⟩
      exact ⟨stays, silent, fun _ _ early => acts.clock_eq ▸ early⟩
  | drained received =>
      obtain ⟨_, live, _⟩ := kept.sound.drained received
      have stays := lingers.withTimers fun _ _ alive => live.symm ▸ alive
      exact .inl ⟨stays, rfl, fun _ _ early => early⟩
  | settled intact =>
      obtain ⟨_, live⟩ := kept.sound.settle intact
      have stays := lingers.withTimers fun _ _ alive => live.mem_iff.mpr alive
      exact .inl ⟨stays, rfl, fun _ _ early => early⟩
  | elapsed later handled wakes inTime =>
      refine .inl ⟨{ lingers with }, rfl, fun link linked _ => ?_⟩
      obtain ⟨held, running⟩ := Scheduler.mem_live.mp (lingers.timed link linked).alive
      -- A timer that has not been received is still in the wheels.
      have waiting : task ∈ before.outside.timers.tiers.tasks := by
        refine (List.mem_append.mp held).resolve_left fun fired => ?_
        rw [handled task fired] at running
        cases running
      exact Nat.le_trans inTime (kept.punctual.wake_le waiting wakes)

end Steps

/-! ## Silence -/

/-- While nothing is heard of a peer it stays connected up to the instant at which its timeout is
due, and has been dropped at this instant afterwards. -/
theorem Hushed.outcome
    (hushed : Hushed id conn before stage)
    (kept : Kept config epochMs before)
    (lingers : Lingers id conn task (some link) before)
    (early : before.outside.clockMs ≤ task.dueMs config.timer.tickMs epochMs) :
    Kept config epochMs stage ∧
      ((Lingers id conn task (some link) stage ∧
          about id stage.own.news = about id before.own.news ∧
          stage.outside.clockMs ≤ task.dueMs config.timer.tickMs epochMs) ∨
        (stage.HasDropped id conn (task.dueMs config.timer.tickMs epochMs)
            (about id before.own.news) ∧
          task.dueMs config.timer.tickMs epochMs ≤ stage.outside.clockMs)) := by
  induction hushed with
  | begun => exact ⟨kept, .inl ⟨lingers, rfl, early⟩⟩
  | @gone cue between after _ goes calm ih =>
      obtain ⟨held, outcome⟩ := ih
      have calm : ∀ told ∈ cue, ∀ happening ∈ told.happening?,
          ¬ happening.Disturbs between.own.liveness id conn :=
        fun told heard happening means disturbs =>
          calm told heard happening means disturbs.touches
      refine ⟨goes.kept held, ?_⟩
      rcases outcome with ⟨stays, told, early⟩ | ⟨dropped, late⟩
      · rcases stays.goes held goes calm with ⟨stays, silent, inTime⟩ | ⟨_, due, drops⟩
        · exact .inl ⟨stays, silent.trans told, inTime link rfl early⟩
        · rw [told, Nat.le_antisymm early due] at drops
          exact .inr ⟨drops, Nat.le_trans due goes.clock_le⟩
      · have alone : between.own.liveness.links.get? id = none := by
          have same := held.shared.aligned.same id
          rw [show between.own.liveness.registry.get? id = none from dropped.unbound] at same
          exact Option.map_eq_none_iff.mp same
        have unlinked : Lingers id conn task none between := ⟨alone, nofun⟩
        rcases unlinked.goes held goes calm with ⟨stays, silent, _⟩ | ⟨linked, _⟩
        · refine .inr ⟨?_, Nat.le_trans late goes.clock_le⟩
          exact {
            unbound := by
              show after.own.liveness.registry.get? id = none
              rw [← (goes.kept held).shared.aligned.same, stays.linked]
              rfl
            closed := goes.mem_asked dropped.closed
            told_eq := silent.trans dropped.told_eq }
        · cases linked

/-- A heartbeat of an identified peer arms a timeout, which is due after one heartbeat timeout and
at most one tick later. -/
theorem Core.Acts.lingers_of_greets
    (acts : Core.Acts before (some happening) after)
    (kept : Kept config epochMs before)
    (greets : happening.Greets before.own.liveness id conn)
    (identified : after.own.registry.peerOf? conn = some id) :
    ∃ link task, Lingers id conn task (some link) after ∧
      task.fireAtMs =
        before.outside.clockMs - epochMs + before.own.liveness.heartbeatTimeout.ms := by
  cases acts with
  | @watched _ _ effect _ between after watches elects =>
      have resolved : between.own.liveness.registry.peerOf? conn = some id := by
        rw [← elects.liveness_eq]
        exact identified
      obtain ⟨link, handle, linked, current, timeout, armed⟩ :=
        watches.moves.rearms kept.shared.aligned greets resolved
      obtain ⟨task, alive, deadline, timed⟩ := kept.shared.exists_live_of_watches watches armed
      have fires : task.payload = .peerTimeout id conn := congrArg Deadline.event deadline
      have named : task.handle = handle := congrArg Deadline.handle deadline
      have lingers : Lingers id conn task (some link) between := {
        linked := linked
        timed := by
          rintro _ ⟨⟩
          exact ⟨current, named ▸ timeout, fires, alive⟩ }
      have lasting : happening ≠ .shutdown := by
        rintro rfl
        exact greets
      have elected := lingers.elected (kept.shared.watched watches lasting) elects
      refine ⟨link, task, ⟨elected.linked, elected.timed⟩, ?_⟩
      rw [timed, kept.nowMs_eq]
      rfl
  | started => exact greets.elim

/-- What the timings of a valid configuration have been checked for. -/
structure NodeConfig.Checked (config : NodeConfig) : Prop where
  ordered : config.electionMinMs ≤ config.electionMaxMs
  dimensions : config.timer.validate = .ok ()
  interval : config.timer.checkDelay config.heartbeatIntervalMs = .ok ()
  timeout : config.timer.checkDelay config.heartbeatTimeoutMs = .ok ()
  election : config.timer.checkDelay config.electionMaxMs = .ok ()

theorem NodeConfig.ordered_of_problem (sound : config.problem = none) :
    config.electionMinMs ≤ config.electionMaxMs := by
  by_contra inverted
  unfold problem at sound
  split at sound
  · cases sound
  split at sound
  · cases sound
  rw [if_pos (Nat.not_le.mp inverted)] at sound
  cases sound

theorem NodeConfig.checked_of_validate (valid : config.validate = .ok ()) : config.Checked := by
  unfold validate at valid
  split at valid
  · cases valid
  · next sound =>
    obtain ⟨_, dimensions, valid⟩ := bind_eq_ok_iff.mp valid
    obtain ⟨_, interval, valid⟩ := bind_eq_ok_iff.mp valid
    obtain ⟨_, timeout, election⟩ := bind_eq_ok_iff.mp valid
    exact {
      ordered := ordered_of_problem sound
      dimensions := mapError_eq_ok_iff.mp dimensions
      interval := interval
      timeout := timeout
      election := election }

theorem NodeConfig.tick_pos (valid : config.validate = .ok ()) : 0 < config.timer.tickMs :=
  (TwoTier.positive_of_validate (checked_of_validate valid).dimensions).1

/-- A node goes by the heartbeat interval and the heartbeat timeout of its configuration. -/
theorem Kept.heartbeat_eq
    (kept : Kept config epochMs stage)
    (valid : config.validate = .ok ()) :
    stage.own.liveness.heartbeatInterval.ms = config.heartbeatIntervalMs ∧
      stage.own.liveness.heartbeatTimeout.ms = config.heartbeatTimeoutMs := by
  have checked := NodeConfig.checked_of_validate valid
  have interval : stage.own.liveness.heartbeatInterval = Delay.ofMs config.heartbeatIntervalMs :=
    congrArg Settings.heartbeatInterval kept.settings_eq
  have timeout : stage.own.liveness.heartbeatTimeout = Delay.ofMs config.heartbeatTimeoutMs :=
    congrArg Settings.heartbeatTimeout kept.settings_eq
  rw [interval, timeout, Delay.ms_ofMs (Scheduler.lt_limit_of_checkDelay checked.interval),
    Delay.ms_ofMs (Scheduler.lt_limit_of_checkDelay checked.timeout)]
  exact ⟨rfl, rfl⟩

/-- A silent peer is dropped on time, and once.  The last heartbeat of an identified peer settles an
instant, which is more than one heartbeat timeout later, though not by more than one tick.  Until
then the peer stays connected; at that instant its connection is closed, it is removed, and told to
be disconnected.  Nothing else is told about it, before or afterwards. -/
theorem Service.drops_silent_peer
    {cue : Cue}
    (service : Service config epochMs before)
    (performed : cue.handler.perform before = (.ok (), after))
    (heartbeat : cue.happening? = some happening)
    (greets : happening.Greets before.own.liveness id conn)
    (identified : after.own.registry.peerOf? conn = some id) :
    ∃ dueMs,
      before.outside.clockMs + config.heartbeatTimeoutMs < dueMs ∧
      dueMs ≤ before.outside.clockMs + config.heartbeatTimeoutMs + config.timer.tickMs ∧
      ∀ later, Hushed id conn after later →
        (later.Keeps id conn (about id after.own.news) ∧ later.outside.clockMs ≤ dueMs) ∨
        (later.HasDropped id conn dueMs (about id after.own.news) ∧
          dueMs ≤ later.outside.clockMs) := by
  have kept := service.kept
  have acts := (Core.handler_acts cue).of_perform performed
  have clock_eq : after.outside.clockMs = before.outside.clockMs := acts.clock_eq
  simp only [heartbeat] at acts
  obtain ⟨link, task, lingers, timed⟩ := acts.lingers_of_greets kept greets identified
  have ticking := NodeConfig.tick_pos service.valid
  rw [(kept.heartbeat_eq service.valid).2] at timed
  obtain ⟨beyond, within⟩ := Task.dueMs_bounds ticking kept.punctual.begun timed
  refine ⟨task.dueMs config.timer.tickMs epochMs, beyond, within, fun later hushed => ?_⟩
  have goes : Goes before (some cue) after := .told performed
  have early : after.outside.clockMs ≤ task.dueMs config.timer.tickMs epochMs := by
    rw [clock_eq]
    omega
  obtain ⟨held, outcome⟩ := hushed.outcome (goes.kept kept) lingers early
  refine outcome.imp_left ?_
  rintro ⟨stays, told, inTime⟩
  exact ⟨⟨stays.bound held.shared, told⟩, inTime⟩

end Runs

namespace Lull

/-! ### A peer that answers once

The node dials its only peer, which answers and is not heard of any more. The node asks it for a
sign of life once before the timeout passes. -/

def config : NodeConfig where
  id := "2"
  peers := [⟨"1", "", 0⟩]
  heartbeatIntervalMs := 1000
  heartbeatTimeoutMs := 2000
  electionMinMs := 9000
  electionMaxMs := 9000
  timer := ⟨1000, 20, 20⟩

def timers : Scheduler TimerEvent := (Scheduler.start config.timer 0).toOption.getD default

def fresh : Stage Core where
  own := Core.ofConfig config 0
  outside := { clockMs := 0, timers, draws := fun _ => 0 }

/-- The stage after a node was told something. -/
def told (stage : Stage Core) (cue : Cue) : Stage Core := (cue.handler.perform stage).2

/-- The stage after the clock was moved and the wheels were settled. -/
def settled (stage : Stage Core) (clockMs : Nat) : Stage Core :=
  { stage with outside.clockMs := clockMs, outside.timers := stage.outside.timers.settle clockMs }

/-- The timers once the next fired one has been received. -/
def rest (stage : Stage Core) : Scheduler TimerEvent :=
  ((stage.outside.timers.receive stage.outside.clockMs).toOption.getD (none, default)).2

/-- The stage after the next fired timer was received and handled. -/
def woken (stage : Stage Core) (event : TimerEvent) : Stage Core :=
  ((Core.onTimer event).perform { stage with outside.timers := rest stage }).2

def started : Stage Core := told fresh .started

def opened : Stage Core := told started (.reported (.connected ⟨1⟩ "1"))

def answer : Cue := .reported (.received ⟨1⟩ (.response .heartbeat))

def linked : Stage Core := told opened answer

/-- The recurring request to the peer. -/
def beat : Task TimerEvent :=
  ⟨⟨2⟩, Delay.ofMs 1000, some (Delay.ofMs 1000), 1000, .peerKeepAlive "1"⟩

def nudged : Stage Core := woken (settled linked 2000) beat.payload

/-- The timeout of the peer. -/
def timeout : Task TimerEvent := ⟨⟨3⟩, Delay.ofMs 2000, none, 2000, .peerTimeout "1" ⟨1⟩⟩

def dropped : Stage Core := woken (settled nudged 3000) timeout.payload

def last : Stage Core := { dropped with outside.clockMs := 4000 }

theorem goes_told
    {stage : Stage Core}
    {cue : Cue}
    (answered : (cue.handler.perform stage).1 = .ok ()) :
    Goes stage (some cue) (told stage cue) :=
  .told (perform_eq answered)

theorem service : Service config 0 opened := by
  have begun : Service config 0 fresh :=
    .begun (by decide +kernel) rfl rfl rfl (by decide +kernel)
  have starts := begun.gone (goes_told (show (Cue.started.handler.perform fresh).1 = .ok () by
    decide +kernel))
  exact starts.gone (goes_told (by decide +kernel))

theorem hushed : Hushed "1" ⟨1⟩ linked last := by
  have elapse {stage : Stage Core} (hushed : Hushed "1" ⟨1⟩ linked stage) {laterMs : Nat}
      (goes : Goes stage none { stage with outside.clockMs := laterMs })
      (intact : (stage.outside.timers.settle laterMs).intact = true) :
      Hushed "1" ⟨1⟩ linked (settled stage laterMs) :=
    (hushed.gone goes nofun).gone (Goes.settled intact) nofun
  have wake {stage : Stage Core} (hushed : Hushed "1" ⟨1⟩ linked stage) (task : Task TimerEvent)
      (delivers : stage.outside.timers.Delivers stage.outside.clockMs task (rest stage))
      (answered : ((Core.onTimer task.payload).perform
        { stage with outside.timers := rest stage }).1 = .ok ()) :
      Hushed "1" ⟨1⟩ linked (woken stage task.payload) :=
    hushed.gone (.woken delivers (perform_eq answered)) nofun
  have first := elapse .begun (.elapsed (by decide +kernel) (by decide +kernel)
    (show linked.outside.timers.wakeMs = .ok (some 2000) by decide +kernel) (Nat.le_refl _))
    (by decide +kernel)
  have beats : (settled linked 2000).outside.timers.Delivers 2000 beat
      (rest (settled linked 2000)) := by
    constructor
    · decide +kernel
    · intro occurrence recurs
      obtain rfl : Task.recurring beat.handle beat.delay beat.payload = occurrence :=
        Option.some.inj recurs
      exact ⟨{ rest (settled linked 2000) with fired := [beat] }, by decide +kernel⟩
  have nudges := wake first beat beats (by decide +kernel)
  have second := elapse nudges (.elapsed (by decide +kernel) (by decide +kernel)
    (show nudged.outside.timers.wakeMs = .ok (some 3000) by decide +kernel) (Nat.le_refl _))
    (by decide +kernel)
  have drops := wake second timeout ⟨by decide +kernel, nofun⟩ (by decide +kernel)
  have passes : Goes dropped none last := .elapsed (by decide +kernel) (by decide +kernel)
    (show dropped.outside.timers.wakeMs = .ok (some 4000) by decide +kernel) (Nat.le_refl _)
  exact drops.gone passes nofun

end Lull

/-- The peer has answered at the beginning. It is dropped at the end of the third second. -/
theorem Service.drops_silent_peer_lull :
    Service Lull.config 0 Lull.opened ∧
      Hushed "1" ⟨1⟩ Lull.linked Lull.last ∧
      ∃ dueMs, 2000 < dueMs ∧ dueMs ≤ 3000 ∧
        Lull.last.HasDropped "1" ⟨1⟩ dueMs [.connected "1"] := by
  refine ⟨Lull.service, Lull.hushed, ?_⟩
  obtain ⟨dueMs, beyond, within, outcome⟩ := Service.drops_silent_peer Lull.service
    (perform_eq (show (Lull.answer.handler.perform Lull.opened).1 = .ok () by decide +kernel))
    rfl ⟨rfl, by decide +kernel⟩ (show Lull.linked.own.registry.peerOf? ⟨1⟩ = some "1" by
      decide +kernel)
  have began : Lull.opened.outside.clockMs = 0 := by decide +kernel
  rw [began] at beyond within
  refine ⟨dueMs, beyond, within, ?_⟩
  rcases outcome Lull.last Lull.hushed with ⟨_, early⟩ | ⟨dropped, _⟩
  · exact absurd (Nat.le_trans early within) (by decide +kernel)
  · have told : about "1" Lull.linked.own.news = [.connected "1"] := by decide +kernel
    exact told ▸ dropped

end Quorum
