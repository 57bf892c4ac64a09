import Quorum.Proofs.Node.Acting
import Quorum.Proofs.Peers.Watch
import Quorum.Proofs.Timing.Punctual

/-!
# A node in service

A `Service` is a run of the core of a node with its timers, in which every handler answers.  The
node is told something, or a fired timer is received and handled, or the wheels are settled, or time
passes.  The clock never passes an instant at which the wheels want to be settled, and it stands
still until every timer that has fired has been handled.

Election and peers share the timers.  They never take a timer from each other, so that every timer
of a link is there (`Service.kept`).
-/

namespace Quorum

open Act Liveness

/-- One step of a node in service, with what the node was told. -/
inductive Goes (before : Stage Core) : Option Cue → Stage Core → Prop where
  | told
      {cue : Cue} {after : Stage Core}
      (performed : cue.handler.perform before = (.ok (), after)) :
      Goes before (some cue) after
  /-- A fired timer is received and handled. -/
  | woken
      {task : Task TimerEvent} {timers : Scheduler TimerEvent} {after : Stage Core}
      (delivers : before.outside.timers.Delivers before.outside.clockMs task timers)
      (performed : (Core.onTimer task.payload).perform { before with outside.timers := timers } =
        (.ok (), after)) :
      Goes before none after
  /-- Every fired timer turns out to be cancelled. -/
  | drained
      {timers : Scheduler TimerEvent}
      (received : before.outside.timers.receive before.outside.clockMs = .ok (none, timers)) :
      Goes before none { before with outside.timers := timers }
  /-- The wheels are brought up to the clock, and have not come to their end. -/
  | settled
      (intact : (before.outside.timers.settle before.outside.clockMs).intact = true) :
      Goes before none
        { before with outside.timers := before.outside.timers.settle before.outside.clockMs }
  /-- Time passes, though not beyond the next instant at which the wheels are to be settled. -/
  | elapsed
      {laterMs wakeMs : Nat}
      (later : before.outside.clockMs ≤ laterMs)
      (handled : ∀ task ∈ before.outside.timers.fired,
        before.outside.timers.isCancelled task.handle = true)
      (wakes : before.outside.timers.wakeMs = .ok (some wakeMs))
      (inTime : laterMs ≤ wakeMs) :
      Goes before none { before with outside.clockMs := laterMs }

/-- A run of a node whose timers were started at `epochMs`. -/
inductive Service (config : NodeConfig) (epochMs : Nat) : Stage Core → Prop where
  | begun
      {stage : Stage Core} {sinceMs : Nat}
      (valid : config.validate = .ok ())
      (own_eq : stage.own = Core.ofConfig config sinceMs)
      (clock_eq : stage.outside.clockMs = epochMs)
      (unasked : stage.outside.asked = [])
      (made : Scheduler.start config.timer epochMs = .ok stage.outside.timers) :
      Service config epochMs stage
  | gone
      {cue : Option Cue} {before after : Stage Core}
      (service : Service config epochMs before)
      (goes : Goes before cue after) :
      Service config epochMs after

/-- The member and the peers share the timers, and none has a handle of the other. -/
structure Shared (stage : Stage Core) : Prop where
  books : ∃ missing orphans,
    Books stage.outside.timers stage.own.liveness missing orphans
  aligned : Aligned stage.own.liveness.registry stage.own.liveness.links
  apart : ∀ handle ∈ stage.own.member.handles, handle.number < stage.outside.timers.issued ∧
    ∀ deadline ∈ stage.own.liveness.deadlines, deadline.handle ≠ handle

/-- What holds of a node in service between two steps. -/
structure Kept (config : NodeConfig) (epochMs : Nat) (stage : Stage Core) : Prop where
  shared : Shared stage
  punctual : Scheduler.Punctual config.timer epochMs stage.outside.timers stage.outside.clockMs
  tended : Tended False stage.outside.timers stage.own.liveness
  settings_eq : stage.own.liveness.settings = (Liveness.ofConfig config).settings

variable
    {config : NodeConfig}
    {epochMs : Nat}
    {before after stage : Stage Core}
    {timers : Scheduler TimerEvent}
    {task : Task TimerEvent}
    {heard : Option Happening}
    {happening : Happening}
    {event : Option PeerEvent}
    {effect : Effect}

/-! ## Two parts with the same timers -/

namespace Shared

open Quorum.Core

/-- The election releases no timer of the peers. -/
theorem spared
    (shared : Shared before)
    (elects : Elects before effect after) :
    ∀ deadline ∈ before.own.liveness.deadlines, deadline.handle ∉ effect.released := by
  obtain ⟨_, _, books⟩ := shared.books
  intro deadline listed gone
  rcases elects.minds.released _ gone with held | given
  · exact (shared.apart _ held).2 deadline listed rfl
  · obtain ⟨armed, member, same⟩ := List.mem_map.mp given
    have above := elects.turns.works.issued_le_of_mem member
    rw [same] at above
    exact absurd (books.handle_lt listed) (Nat.not_lt.mpr above)

/-- What the election releases has been given out. -/
theorem released_lt
    (shared : Shared before)
    (elects : Elects before effect after) :
    ∀ handle ∈ effect.released, handle.number < after.outside.timers.issued := by
  intro handle gone
  rcases elects.minds.released handle gone with held | given
  · exact Nat.lt_of_lt_of_le (shared.apart handle held).1 elects.turns.works.issued_le
  · obtain ⟨armed, member, rfl⟩ := List.mem_map.mp given
    exact elects.turns.works.lt_issued_of_mem member

theorem elected
    (shared : Shared before)
    (elects : Elects before effect after) :
    Shared after where
  books := by
    obtain ⟨_, _, books⟩ := shared.books
    rw [elects.liveness_eq]
    exact ⟨_, _, books.aside elects.turns.works (shared.released_lt elects) (shared.spared elects)⟩
  aligned := elects.liveness_eq ▸ shared.aligned
  apart := by
    obtain ⟨_, _, books⟩ := shared.books
    rw [elects.liveness_eq]
    intro handle held
    rcases elects.minds.holds handle held with old | given
    · obtain ⟨below, apart⟩ := shared.apart handle old
      exact ⟨Nat.lt_of_lt_of_le below elects.turns.works.issued_le, apart⟩
    · obtain ⟨armed, member, rfl⟩ := List.mem_map.mp given
      refine ⟨elects.turns.works.lt_issued_of_mem member, fun deadline listed same => ?_⟩
      have above := elects.turns.works.issued_le_of_mem member
      rw [← same] at above
      exact absurd (books.handle_lt listed) (Nat.not_lt.mpr above)

theorem watched
    (shared : Shared before)
    (watches : Watches before happening event effect after)
    (lasting : happening ≠ .shutdown) :
    Shared after where
  books := by
    obtain ⟨_, _, books⟩ := shared.books
    obtain ⟨_, released, exchanges⟩ := watches.moves.exchanges
    exact ⟨_, _, books.turn watches.turns.works released exchanges⟩
  aligned := watches.moves.aligned shared.aligned fun shuts => absurd shuts lasting
  apart := by
    obtain ⟨dropped, _, rest, before_perm, after_perm⟩ := watches.moves.exchanges
    rw [watches.member_eq]
    intro handle held
    obtain ⟨below, apart⟩ := shared.apart handle held
    refine ⟨Nat.lt_of_lt_of_le below watches.turns.works.issued_le, fun deadline listed => ?_⟩
    rcases List.mem_append.mp (after_perm.mem_iff.mp listed) with armed | old
    · rintro rfl
      exact absurd below (Nat.not_lt.mpr (watches.turns.works.issued_le_of_mem armed))
    · exact apart deadline (before_perm.mem_iff.mpr (List.mem_append_right _ old))

/-- The timers have changed, but no handle has been given out. -/
theorem withTimers
    (shared : Shared stage)
    (books : ∃ missing orphans, Books timers stage.own.liveness missing orphans)
    (issued : timers.issued = stage.outside.timers.issued) :
    Shared { stage with outside.timers := timers } where
  books := books
  aligned := shared.aligned
  apart := by
    rw [issued]
    exact shared.apart

theorem delivers
    (shared : Shared stage)
    (delivers : stage.outside.timers.Delivers stage.outside.clockMs task timers) :
    Shared { stage with outside.timers := timers } := by
  obtain ⟨missing, orphans, books⟩ := shared.books
  obtain ⟨_, issued, _⟩ := books.sound.delivers delivers
  have delivered := books.delivers delivers
  split at delivered
  · exact shared.withTimers ⟨missing, orphans, delivered⟩ issued
  · exact shared.withTimers ⟨task.deadline :: missing, orphans, delivered⟩ issued

end Shared

/-! ## Between two steps -/

/-- The election has no timers of links. -/
theorem TimerEvent.isPinned_of_isElection
    {event : TimerEvent}
    (election : event.isElection = true) :
    event.isPinned = false := by
  cases event <;> first | rfl | cases election

namespace Kept

open Quorum.Core

theorem sound (kept : Kept config epochMs stage) : stage.outside.timers.Sound := kept.tended.sound

/-- The scheduler counts from the instant at which it was started. -/
theorem nowMs_eq (kept : Kept config epochMs stage) :
    stage.outside.timers.nowMs stage.outside.clockMs = stage.outside.clockMs - epochMs := by
  rw [Scheduler.nowMs, kept.punctual.epoch_eq]

theorem begun
    {sinceMs : Nat}
    (own_eq : stage.own = Core.ofConfig config sinceMs)
    (clock_eq : stage.outside.clockMs = epochMs)
    (made : Scheduler.start config.timer epochMs = .ok stage.outside.timers) :
    Kept config epochMs stage := by
  obtain ⟨sound, silent⟩ := Scheduler.start_sound made
  have liveness_eq : stage.own.liveness = Liveness.ofConfig config := by
    rw [own_eq]
    rfl
  have tended : Tended False stage.outside.timers stage.own.liveness :=
    @tended_ofConfig config False ⟨_, stage.outside⟩ liveness_eq sound silent
  exact {
    shared := {
      books := tended.books
      aligned := by
        rw [liveness_eq]
        exact aligned_ofConfig
      apart := by
        rw [own_eq]
        exact List.forall_mem_nil _ }
    punctual := by
      rw [clock_eq]
      exact .of_start made
    tended := tended
    settings_eq := by rw [liveness_eq] }

theorem elected
    (kept : Kept config epochMs before)
    (elects : Elects before effect after) :
    Kept config epochMs after where
  shared := kept.shared.elected elects
  punctual := by
    rw [elects.turns.clock_eq]
    exact kept.punctual.works elects.turns.works
  tended := by
    rw [elects.liveness_eq]
    refine kept.tended.aside elects.turns.works (kept.shared.released_lt elects)
      (kept.shared.spared elects) fun deadline armed => ?_
    exact TimerEvent.isPinned_of_isElection (elects.minds.electoral deadline armed)
  settings_eq := elects.liveness_eq ▸ kept.settings_eq

/-- The liveness protocol is told something. -/
theorem watched
    (kept : Kept config epochMs before)
    (watches : Watches before happening event effect after)
    (lasting : happening ≠ .shutdown) :
    Kept config epochMs after where
  shared := kept.shared.watched watches lasting
  punctual := by
    rw [watches.turns.clock_eq]
    exact kept.punctual.works watches.turns.works
  tended := kept.tended.moved watches.moves watches.turns.works False.elim
  settings_eq := watches.moves.settings_eq.trans kept.settings_eq

/-- What subscribers have been told does not matter. -/
theorem withNews
    (kept : Kept config epochMs stage)
    (news : List PeerEvent) :
    Kept config epochMs { stage with own.news := news } :=
  { kept with shared := { kept.shared with } }

theorem acts
    (kept : Kept config epochMs before)
    (acts : Acts before heard after)
    (lasting : heard ≠ some .shutdown) :
    Kept config epochMs after := by
  cases acts with
  | elected elects => exact kept.elected elects
  | watched watches elects =>
      have calm := fun shuts => lasting (congrArg some shuts)
      exact ((kept.watched watches calm).elected elects).withNews _
  | started elects watches => exact (kept.elected elects).watched watches nofun

/-- A timer is received and handled. -/
theorem woken
    (kept : Kept config epochMs before)
    (delivers : before.outside.timers.Delivers before.outside.clockMs task timers)
    (acts : Acts { before with outside.timers := timers } (Happening.ofTimer task.payload) after) :
    Kept config epochMs after := by
  have punctual := kept.punctual.delivers delivers
  have shared := kept.shared.delivers delivers
  generalize meant : Happening.ofTimer task.payload = heard at acts
  cases acts with
  | elected elects =>
      have received : Kept config epochMs { before with outside.timers := timers } :=
        { kept with shared, punctual, tended := kept.tended.unmeant delivers meant }
      exact received.elected elects
  | watched watches elects =>
      have moved : Kept config epochMs _ := {
        shared := shared.watched watches (Happening.ne_shutdown_of_ofTimer meant)
        punctual := by
          rw [watches.turns.clock_eq]
          exact punctual.works watches.turns.works
        tended := kept.tended.woken delivers watches.turns.works meant
          (fun _ _ => kept.shared.aligned.get?_of_link) False.elim watches.moves
        settings_eq := watches.moves.settings_eq.trans kept.settings_eq }
      exact (moved.elected elects).withNews _
  | started => cases fires : task.payload <;> rw [fires] at meant <;> cases meant

end Kept

/-- A step keeps the books. -/
theorem Goes.kept
    {cue : Option Cue}
    (goes : Goes before cue after)
    (kept : Kept config epochMs before) :
    Kept config epochMs after := by
  cases goes with
  | @told cue _ performed =>
      refine kept.acts ((Core.handler_acts cue).of_perform performed) fun shuts => ?_
      exact (Cue.of_happening? shuts).2 rfl
  | @woken task _ _ delivers performed =>
      exact kept.woken delivers ((Core.onTimer_acts task.payload).of_perform performed)
  | drained received =>
      have tended := kept.tended.drained received
      obtain ⟨_, _, issued⟩ := kept.sound.drained received
      exact { kept with
        shared := kept.shared.withTimers tended.books issued
        punctual := kept.punctual.drained received
        tended := tended }
  | settled intact =>
      have tended := kept.tended.settled intact
      exact { kept with
        shared := kept.shared.withTimers tended.books (Scheduler.issued_settle _ _)
        punctual := kept.punctual.settle intact
        tended := tended }
  | elapsed later _ _ _ =>
      exact { kept with
        shared := { kept.shared with }
        punctual := kept.punctual.elapsed later }

theorem Goes.clock_le
    {cue : Option Cue}
    (goes : Goes before cue after) :
    before.outside.clockMs ≤ after.outside.clockMs := by
  cases goes with
  | @told cue _ performed =>
      exact Nat.le_of_eq ((Core.handler_acts cue).of_perform performed).clock_eq.symm
  | @woken task _ _ _ performed =>
      exact Nat.le_of_eq ((Core.onTimer_acts task.payload).of_perform performed).clock_eq.symm
  | drained | settled => exact Nat.le_refl _
  | elapsed later => exact later

/-- What was asked for stays on record. -/
theorem Goes.mem_asked
    {cue : Option Cue}
    {entry : Nat × Ask}
    (goes : Goes before cue after)
    (asked : entry ∈ before.outside.asked) :
    entry ∈ after.outside.asked := by
  cases goes with
  | @told cue _ performed => exact ((Core.handler_acts cue).of_perform performed).mem_asked asked
  | @woken task _ _ _ performed =>
      exact ((Core.onTimer_acts task.payload).of_perform performed).mem_asked asked
  | drained | settled | elapsed => exact asked

/-- Whatever happens to a node in service, its books are kept. -/
theorem Service.kept (service : Service config epochMs stage) : Kept config epochMs stage := by
  induction service with
  | begun _ own_eq clock_eq _ made => exact .begun own_eq clock_eq made
  | gone _ goes ih => exact goes.kept ih

/-- A node is never stuck: once the wheels are settled and nothing is left to be handled, time can
pass. -/
theorem Service.goes_on
    (service : Service config epochMs stage)
    (intact : (stage.outside.timers.settle stage.outside.clockMs).intact = true)
    (handled : ∀ task ∈ (stage.outside.timers.settle stage.outside.clockMs).fired,
      stage.outside.timers.isCancelled task.handle = true) :
    ∃ settled after, Goes stage none settled ∧ Goes settled none after ∧
      stage.outside.clockMs < after.outside.clockMs := by
  obtain ⟨wakeMs, wakes, later⟩ := service.kept.punctual.exists_wake_of_settle intact
  refine ⟨_, { stage with
    outside.timers := stage.outside.timers.settle stage.outside.clockMs
    outside.clockMs := wakeMs }, .settled intact, ?_, later⟩
  refine .elapsed (Nat.le_of_lt later) (fun task fired => ?_) wakes (Nat.le_refl _)
  rw [Scheduler.isCancelled, Scheduler.cancelled_settle]
  exact handled task fired

theorem Service.valid (service : Service config epochMs stage) : config.validate = .ok () := by
  induction service with
  | begun valid => exact valid
  | gone _ _ ih => exact ih

end Quorum
