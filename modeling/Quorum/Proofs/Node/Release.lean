import Quorum.Proofs.Election.Custody
import Quorum.Proofs.Node.Acting
import Quorum.Proofs.Peers.Watch

/-!
# What a node holds, and how it lets go

A node is to be shut down at any time.  Its shutdown walks over the places where it keeps handles
and connections, and cancels and closes what it finds there.  So nothing is left over if every timer
that could still be received is known to the part of the node that it belongs to, the election or
the peers.  `Stage.Overseen` says this of a stage, and whatever the node does keeps it.  It says
nothing of the opposite direction: a timer that the node counts on may have been lost, together with
the wheels or with an occurrence that they refused.

`Stint.lets_go` sums up the shutdown of a node that has got anywhere from its start on.
-/

namespace Quorum

open Act

/-! ## Timers that are received -/

namespace Scheduler

variable
    {α : Type}
    {timers next after : Scheduler α}
    {clockMs : Nat}
    {task : Task α}
    {deadline : Deadline α}

/-- Receiving a task makes up no deadline, whether or not its next occurrence is refused, and a task
that does not recur is gone. -/
theorem Sound.deadlines_receive
    (sound : timers.Sound)
    (received : timers.receive clockMs = .ok (some task, next)) :
    task.deadline ∈ timers.deadlines ∧ next.deadlines ⊆ timers.deadlines ∧
      (task.isRecurring = false → task.deadline ∉ next.deadlines) := by
  obtain ⟨_, cancelled, here, _⟩ := held_of_receive received
  obtain ⟨_, _, _, _, alive, renewal⟩ := receive_eq_some received
  obtain ⟨skipped, _, kept⟩ := held_receive received
  have listed : task.deadline ∈ timers.deadlines :=
    List.mem_map_of_mem (mem_live.mpr ⟨here, alive⟩)
  have spared {other : Task α} (live : other ∈ next.live) :
      timers.isCancelled other.handle = false := by
    rw [isCancelled, ← cancelled]
    exact (mem_live.mp live).2
  refine ⟨listed, fun deadline member => ?_, fun once member => ?_⟩
  · obtain ⟨other, live, rfl⟩ := mem_deadlines.mp member
    have held := kept.mem_iff.mp (List.mem_append_left _ (mem_live.mp live).1)
    rcases List.mem_append.mp held with old | new
    · exact List.mem_map_of_mem (mem_live.mpr ⟨old, spared live⟩)
    · rw [Option.mem_toList] at new
      rw [new] at renewal
      obtain ⟨⟨period, recurs, rfl⟩, _⟩ := renewal
      have same : Task.deadline
          { task with delay := period, fireAtMs := timers.nowMs clockMs + period.ms } =
            task.deadline := by
        simp [Task.deadline, Task.isRecurring, recurs]
      rw [same]
      exact listed
  · obtain ⟨other, live, same⟩ := mem_deadlines.mp member
    have ended : timers.renewed clockMs task = none := by
      have unrepeated : task.nextOccurrence = none := by
        simpa [Task.nextOccurrence, Task.isRecurring] using once
      rw [renewed, unrepeated]
    rw [ended, Option.toList_none, List.append_nil, ← List.append_assoc] at kept
    have distinct := (kept.map Task.handle).nodup_iff.mpr sound.distinct
    rw [List.map_append] at distinct
    have handled := congrArg Deadline.handle same
    refine (List.nodup_append.mp distinct).2.2 other.handle ?_ task.handle (by simp) handled
    exact List.mem_map_of_mem (List.mem_append_left _ (mem_live.mp live).1)

theorem deadlines_settle (timers : Scheduler α) (clockMs : Nat) :
    (timers.settle clockMs).deadlines ⊆ timers.deadlines := by
  obtain ⟨lost, kept⟩ := timers.exists_lost clockMs
  intro deadline member
  obtain ⟨task, live, rfl⟩ := mem_deadlines.mp member
  obtain ⟨held, alive⟩ := mem_live.mp live
  rw [isCancelled, timers.cancelled_settle clockMs] at alive
  exact List.mem_map_of_mem
    (mem_live.mpr ⟨kept.mem_iff.mp (List.mem_append_left _ held), alive⟩)

/-- What happens to timers that nobody arms any longer. -/
inductive RunsDown (timers : Scheduler α) : Scheduler α → Prop where
  | here : RunsDown timers timers
  | received
      {next after : Scheduler α} {clockMs : Nat} {answer : Option (Task α)}
      (runs : RunsDown timers next)
      (received : next.receive clockMs = .ok (answer, after)) :
      RunsDown timers after
  | settled
      {next : Scheduler α}
      (clockMs : Nat)
      (runs : RunsDown timers next) :
      RunsDown timers (next.settle clockMs)
  | cancelled
      {next : Scheduler α}
      (handle : Handle)
      (runs : RunsDown timers next) :
      RunsDown timers (next.cancel handle)
  | stopped
      {next : Scheduler α}
      (runs : RunsDown timers next) :
      RunsDown timers next.shutdown
  | abandoned
      {next : Scheduler α}
      (runs : RunsDown timers next) :
      RunsDown timers next.abandon

/-- Where every task is cancelled, none is received. -/
theorem receive_of_silent (silent : timers.live = []) (clockMs : Nat) :
    timers.receive clockMs = .ok (none, { timers with fired := [] }) := by
  unfold receive
  split
  · rfl
  · next task rest first =>
    obtain ⟨alive, _, queue, _⟩ := firstLive_eq_some first
    have live : task ∈ timers.live := by
      refine mem_live.mpr ⟨?_, alive⟩
      unfold held
      rw [queue]
      simp
    rw [silent] at live
    cases live

/-- Timers that are silent stay so. -/
theorem RunsDown.silent
    (runs : timers.RunsDown next)
    (silent : timers.live = []) :
    next.live = [] := by
  -- What is held later was held before, and remains cancelled.
  have fewer {earlier later : Scheduler α} (silent : earlier.live = [])
      (held : ∀ task ∈ later.held, task ∈ earlier.held)
      (cancelled : later.cancelled = earlier.cancelled) : later.live = [] := by
    apply List.filter_eq_nil_iff.mpr
    intro task listed
    have dead := List.filter_eq_nil_iff.mp silent task (held task listed)
    rw [isCancelled, cancelled]
    exact dead
  induction runs with
  | here => exact silent
  | received _ received ih =>
      rw [receive_of_silent ih] at received
      cases received
      exact fewer ih (fun task listed => List.mem_append_right _ listed) rfl
  | @settled next clockMs _ ih =>
      obtain ⟨lost, kept⟩ := next.exists_lost clockMs
      exact fewer ih (fun task listed => kept.mem_iff.mp (List.mem_append_left _ listed))
        (next.cancelled_settle clockMs)
  | cancelled handle _ ih =>
      rw [live_cancel, ih]
      rfl
  | stopped _ ih => exact ih
  | abandoned _ ih =>
      exact fewer ih (fun task listed => List.mem_append_right _ listed) rfl

end Scheduler

/-! ## Timers that are known to their parts -/

/-- The election holds the handle of each of its live timers, and the peers call for theirs.  Every
connection is in one phase. -/
structure Stage.Overseen (past : List Happening) (stage : Stage Core) : Prop where
  hand : stage.outside.timers.Entrusted stage.own.member.handles
  issued : ∀ deadline ∈ stage.own.liveness.deadlines,
    deadline.handle.number < stage.outside.timers.issued
  wanted : ∀ deadline ∈ stage.outside.timers.deadlines, deadline.event.isElection = false →
    deadline ∈ stage.own.liveness.deadlines
  phased : ∃ history, happenings history = past ∧ Phased history stage.own.liveness
  noted : ∀ conn ∈ stage.own.registry.anonymous, (stage.own.liveness.anonymous.get? conn).isSome

namespace Stage.Overseen

open Quorum.Core

variable
    {past : List Happening}
    {stage before after : Stage Core}
    {timers : Scheduler TimerEvent}
    {clockMs : Nat}
    {task : Task TimerEvent}
    {happening : Happening}
    {event : Option PeerEvent}
    {effect : Effect}
    {occasion : Occasion}

theorem sound (overseen : stage.Overseen past) : stage.outside.timers.Sound :=
  overseen.hand.sound

/-- The timers have changed on their own, and no new deadline has come in. -/
theorem withTimers
    (overseen : stage.Overseen past)
    (runs : stage.outside.timers.Runs clockMs timers)
    (issued : timers.issued = stage.outside.timers.issued)
    (fewer : timers.deadlines ⊆ stage.outside.timers.deadlines) :
    Overseen past { stage with outside.timers := timers } :=
  { overseen with
    hand := overseen.hand.runs runs
    issued := fun deadline listed => issued ▸ overseen.issued deadline listed
    wanted := fun deadline live foreign => overseen.wanted deadline (fewer live) foreign }

/-- The member meets an occasion.  The peers have no part in it. -/
theorem meets
    (overseen : before.Overseen past)
    (meets : Core.Meets before occasion after) :
    after.Overseen past := by
  obtain ⟨effect, elects⟩ := meets.elects
  have hand : after.outside.timers.Entrusted after.own.member.handles := by
    obtain @⟨answer, met, conn, performed⟩ := meets
    have kept := (Member.Careful.manner.occasion before.own.registry occasion
      ⟨before.own.member, before.outside⟩ overseen.hand).of_perform performed
    cases answer <;> exact kept
  have liveness_eq := elects.liveness_eq
  have works := elects.turns.works
  exact {
    hand := hand
    issued := by
      rw [liveness_eq]
      exact fun deadline listed =>
        Nat.lt_of_lt_of_le (overseen.issued deadline listed) works.issued_le
    wanted := by
      intro deadline live foreign
      rw [liveness_eq]
      rcases List.mem_append.mp ((works.deadlines_perm overseen.sound).mem_iff.mp live) with
        old | new
      · exact overseen.wanted deadline (List.mem_filter.mp old).1 foreign
      · rw [elects.minds.electoral deadline (List.mem_filter.mp new).1] at foreign
        cases foreign
    phased := liveness_eq ▸ overseen.phased
    noted := by
      unfold Core.registry
      rw [liveness_eq]
      exact overseen.noted }

theorem bids
    {occasion : Option Occasion}
    (overseen : before.Overseen past)
    (bids : Bids before occasion after) :
    after.Overseen past := by
  cases bids with
  | idle => exact overseen
  | met meets => exact overseen.meets meets

/-- The timers that the peers arm are called for, and none of them belongs to the election. -/
theorem called_of_armed
    (watches : Watches before happening event effect after)
    {deadline : Deadline TimerEvent}
    (armed : deadline ∈ effect.armed) :
    deadline ∈ after.own.liveness.deadlines ∧ deadline.event.isElection = false := by
  obtain ⟨_, _, _, _, next_perm⟩ := watches.moves.exchanges
  have called := next_perm.mem_iff.mpr (List.mem_append_left _ armed)
  refine ⟨called, ?_⟩
  have meant := Liveness.isSome_ofTimer called
  cases fires : deadline.event <;> first | rfl | (rw [fires] at meant; cases meant)

/-- A move of the peers leaves the election with timers that it had. -/
theorem elections_of_watches
    (overseen : before.Overseen past)
    (watches : Watches before happening event effect after)
    (elected : task ∈ after.outside.timers.elections) :
    ∃ old ∈ before.outside.timers.elections, old.handle = task.handle := by
  obtain ⟨alive, electoral⟩ := List.mem_filter.mp elected
  have live := watches.turns.works.deadlines_perm overseen.sound
  have member : task.deadline ∈ after.outside.timers.deadlines := List.mem_map_of_mem alive
  rcases List.mem_append.mp (live.mem_iff.mp member) with old | new
  · obtain ⟨other, held, same⟩ := Scheduler.mem_deadlines.mp (List.mem_filter.mp old).1
    have payload : other.payload = task.payload := congrArg Deadline.event same
    refine ⟨other, List.mem_filter.mpr ⟨held, ?_⟩, congrArg Deadline.handle same⟩
    rw [payload]
    exact electoral
  · have foreign : task.payload.isElection = false :=
      (called_of_armed watches (List.mem_filter.mp new).1).2
    rw [foreign] at electoral
    cases electoral

/-- The protocol makes a move.  Whatever lapses with it must not be live any longer. -/
theorem watches
    (overseen : before.Overseen past)
    (watches : Watches before happening event effect after)
    (novel : happening.IsNovel past)
    (lasting : happening ≠ .shutdown)
    (lapsed : ∀ deadline ∈ before.own.liveness.lapses happening,
      deadline ∉ before.outside.timers.deadlines) :
    after.Overseen (happening :: past) := by
  obtain ⟨dropped, released, rest, own_perm, next_perm⟩ := watches.moves.exchanges
  have works := watches.turns.works
  have below (handle : Handle) (gone : handle ∈ effect.released) :
      handle.number < before.outside.timers.issued := by
    rw [← released] at gone
    obtain ⟨deadline, member, rfl⟩ := List.mem_map.mp gone
    refine overseen.issued deadline (own_perm.mem_iff.mpr ?_)
    exact List.mem_append_left _ (List.mem_append_left _ member)
  obtain ⟨history, told, phased⟩ := overseen.phased
  exact {
    hand := by
      rw [watches.member_eq]
      refine overseen.hand.of_elections ?_ works.issued_le fun task elected =>
        overseen.elections_of_watches watches elected
      exact works.sound overseen.sound fun handle gone =>
        Nat.lt_of_lt_of_le (below handle gone) works.issued_le
    issued := by
      intro deadline listed
      rcases List.mem_append.mp (next_perm.mem_iff.mp listed) with armed | kept
      · exact works.lt_issued_of_mem armed
      · have held := own_perm.mem_iff.mpr (List.mem_append_right _ kept)
        exact Nat.lt_of_lt_of_le (overseen.issued deadline held) works.issued_le
    wanted := by
      intro deadline member other
      rcases List.mem_append.mp ((works.deadlines_perm overseen.sound).mem_iff.mp member) with
        old | new
      · obtain ⟨was, spared⟩ := List.mem_filter.mp old
        have held := own_perm.mem_iff.mp (overseen.wanted deadline was other)
        rcases List.mem_append.mp held with given | kept
        · rcases List.mem_append.mp given with gone | lapse
          · refine absurd ?_ (of_decide_eq_true spared)
            exact released ▸ List.mem_map_of_mem gone
          · exact absurd was (lapsed deadline lapse)
        · exact next_perm.mem_iff.mpr (List.mem_append_right _ kept)
      · exact (called_of_armed watches (List.mem_filter.mp new).1).1
    phased := by
      subst told
      exact ⟨⟨⟨before.own.liveness, before.outside⟩, happening, false⟩ :: history, rfl,
        phased.moved novel watches.moves⟩
    noted := watches.moves.noted lasting overseen.noted }

/-- Whatever makes the node act. -/
theorem conducts
    {impulse : Impulse}
    (overseen : before.Overseen past)
    (conducts : Conducts before impulse after)
    (novel : ∀ happening ∈ impulse.happening?, happening.IsNovel past)
    (lapsed : ∀ happening ∈ impulse.happening?,
      ∀ deadline ∈ before.own.liveness.lapses happening,
        deadline ∉ before.outside.timers.deadlines) :
    after.Overseen (impulse.happening?.toList ++ past) := by
  cases conducts with
  | elected unheard bids =>
      rw [unheard]
      exact overseen.bids bids
  | @watched happening _ _ _ _ heard watches bids =>
      have lasting := Impulse.ne_shutdown_of_happening? heard
      rw [heard] at novel lapsed ⊢
      have moved := overseen.watches watches (novel happening rfl) lasting (lapsed happening rfl)
      exact { moved.bids bids with }
  | started begins meets watches =>
      subst begins
      exact (overseen.meets meets).watches watches trivial nofun (List.forall_mem_nil _)

/-- What a node is told makes nothing lapse: a connection that it has opened is new. -/
theorem lapses_of_called
    (overseen : stage.Overseen past)
    (call : happening.isCall = true)
    (novel : happening.IsNovel past) :
    stage.own.liveness.lapses happening = [] := by
  obtain ⟨history, rfl, phased⟩ := overseen.phased
  cases happening with
  | connected conn id =>
      have new : ¬ Liveness.Holds stage.own.liveness.registry stage.own.liveness.dialing conn :=
        phased.admits novel
      have absent : stage.own.liveness.dialing.get? conn = none :=
        Option.not_isSome_iff_eq_none.mp fun waiting => new (.inl waiting)
      simp [Liveness.lapses, Liveness.dialDue, Table.entriesAt, absent]
  | connectionTimeout conn | reconnect id => cases call
  | _ => rfl

/-- What lapses with a timer that was received is that timer, and it is not live any longer. -/
theorem lapsed_of_received
    (overseen : stage.Overseen past)
    (received : stage.outside.timers.receive stage.outside.clockMs = .ok (some task, timers))
    (owed : Happening.ofTimer task.payload = some happening) :
    ∀ deadline ∈ stage.own.liveness.lapses happening, deadline ∉ timers.deadlines := by
  obtain ⟨was, _, gone⟩ := overseen.sound.deadlines_receive received
  obtain ⟨_, _, phased⟩ := overseen.phased
  have known (other : task.payload.isElection = false) :
      task.deadline ∈ stage.own.liveness.deadlines :=
    overseen.wanted task.deadline was other
  have one {due : List (Deadline TimerEvent)} (alone : due = [task.deadline])
      (once : task.deadline.recurs = false) : ∀ deadline ∈ due, deadline ∉ timers.deadlines := by
    rw [alone]
    exact List.forall_mem_singleton.mpr (gone once)
  cases fires : task.payload with
  | electionTimeout | leaderHeartbeat =>
      rw [fires] at owed
      cases owed
  | peerKeepAlive id | peerTimeout id conn =>
      rw [fires] at owed
      cases owed
      exact List.forall_mem_nil _
  | connectionTimeout conn =>
      rw [fires] at owed known
      cases owed
      obtain ⟨once, due⟩ := Liveness.of_connectionTimeout (known rfl) fires
      refine one ?_ once
      rcases due with dialled | ⟨accepted, handle, held⟩
      · have waiting : (stage.own.liveness.dialing.get? conn).isSome := by
          cases waiting : stage.own.liveness.dialing.get? conn with
          | none => simp [Liveness.dialDue, Table.entriesAt, waiting] at dialled
          | some pending => rfl
        rw [Liveness.lapses, if_pos waiting]
        exact dialled
      · have quiet := phased.apart.quiet (Option.isSome_of_eq_some held)
        rw [Liveness.lapses, quiet]
        exact accepted
  | reconnect id =>
      rw [fires] at owed known
      cases owed
      obtain ⟨once, due⟩ := Liveness.of_reconnect (known rfl) fires
      exact one due once

end Stage.Overseen

/-! ## From the start to the shutdown -/

/-- A run of the core of a node, in which every handler answers, with what it means to the peers,
the newest happening first.  The start is one of the things that a node is told.  Timers are handled
once they have been received.  The wheels may refuse a next occurrence or come to their end. -/
inductive Stint (config : NodeConfig) : List Happening → Stage Core → Prop where
  | begun
      {stage : Stage Core} {sinceMs : Nat}
      (own_eq : stage.own = Core.ofConfig config sinceMs)
      (sound : stage.outside.timers.Sound)
      (silent : stage.outside.timers.live = []) :
      Stint config [] stage
  | told
      {past : List Happening} {stage after : Stage Core} {cue : Cue}
      (stint : Stint config past stage)
      (performed : cue.handler.perform stage = (.ok (), after)) :
      Stint config (cue.happening?.toList ++ past) after
  | woken
      {past : List Happening} {stage after : Stage Core} {task : Task TimerEvent}
      {timers : Scheduler TimerEvent}
      (stint : Stint config past stage)
      (received : stage.outside.timers.receive stage.outside.clockMs = .ok (some task, timers))
      (performed : (Core.onTimer task.payload).perform { stage with outside.timers := timers } =
        (.ok (), after)) :
      Stint config ((Happening.ofTimer task.payload).toList ++ past) after
  /-- Every fired timer turns out to be cancelled. -/
  | drained
      {past : List Happening} {stage : Stage Core} {timers : Scheduler TimerEvent}
      (stint : Stint config past stage)
      (received : stage.outside.timers.receive stage.outside.clockMs = .ok (none, timers)) :
      Stint config past { stage with outside.timers := timers }
  /-- The wheels are brought up to the clock. -/
  | settled
      {past : List Happening} {stage : Stage Core}
      (stint : Stint config past stage) :
      Stint config past
        { stage with outside.timers := stage.outside.timers.settle stage.outside.clockMs }
  /-- Time passes, and what was asked for and what is new is passed on. -/
  | elapsed
      {past : List Happening} {stage : Stage Core}
      (clockMs : Nat)
      (asked : List (Nat × Ask))
      (news : List PeerEvent)
      (stint : Stint config past stage) :
      Stint config past
        { stage with outside.clockMs := clockMs, outside.asked := asked, own.news := news }

section Runs

variable {config : NodeConfig} {past : List Happening} {stage : Stage Core}

/-- Before the start there are no timers and no connections. -/
theorem Stage.Overseen.begun
    {sinceMs : Nat}
    (own_eq : stage.own = Core.ofConfig config sinceMs)
    (sound : stage.outside.timers.Sound)
    (silent : stage.outside.timers.live = []) :
    stage.Overseen [] := by
  have liveness_eq : stage.own.liveness = Liveness.ofConfig config := by
    rw [own_eq]
    rfl
  have watch : Watch config [] ⟨stage.own.liveness, { stage.outside with asked := [] }⟩ :=
    .begun liveness_eq sound silent rfl
  exact {
    hand := {
      sound := sound
      issued := by
        rw [own_eq]
        exact List.forall_mem_nil _
      owned := by
        rw [Scheduler.elections, silent]
        exact List.forall_mem_nil _ }
    issued := by
      rw [liveness_eq]
      exact List.forall_mem_nil _
    wanted := by
      rw [Scheduler.deadlines, silent]
      exact List.forall_mem_nil _
    phased := ⟨[], rfl, watch.phased trivial⟩
    noted := by
      rw [own_eq]
      exact List.forall_mem_nil _ }

theorem Fresh.of_append
    {heard : Option Happening}
    (fresh : Fresh (heard.toList ++ past)) :
    (∀ happening ∈ heard, happening.IsNovel past) ∧ Fresh past := by
  cases heard with
  | none => exact ⟨nofun, fresh⟩
  | some happening =>
      refine ⟨?_, fresh.2⟩
      rintro _ ⟨⟩
      exact fresh.1

/-- Wherever a node has got to, its timers are known to their parts. -/
theorem Stint.overseen (stint : Stint config past stage) (fresh : Fresh past) :
    stage.Overseen past := by
  induction stint with
  | begun own_eq sound silent => exact .begun own_eq sound silent
  | @told past stage after cue _ performed ih =>
      obtain ⟨novel, fresh⟩ := fresh.of_append
      have overseen := ih fresh
      have conducts := (Core.impulse_conducts (.told cue)).of_perform performed
      refine overseen.conducts conducts novel fun happening heard => ?_
      rw [overseen.lapses_of_called (Cue.of_happening? heard).1 (novel happening heard)]
      exact List.forall_mem_nil _
  | @woken past stage after task timers _ received performed ih =>
      obtain ⟨novel, fresh⟩ := fresh.of_append
      have overseen := ih fresh
      obtain ⟨issued, _⟩ := Scheduler.held_of_receive received
      obtain ⟨_, fewer, _⟩ := overseen.sound.deadlines_receive received
      have conducts := (Core.impulse_conducts (.timer task.payload)).of_perform performed
      refine (overseen.withTimers (.received received) issued fewer).conducts conducts novel ?_
      exact fun happening heard => overseen.lapsed_of_received received heard
  | drained _ received ih =>
      obtain ⟨_, live, issued⟩ := (ih fresh).sound.drained received
      refine (ih fresh).withTimers (.received received) issued ?_
      rw [Scheduler.deadlines, live]
      exact List.Subset.refl _
  | settled _ ih =>
      exact (ih fresh).withTimers .settled (Scheduler.issued_settle _ _)
        (Scheduler.deadlines_settle _ _)
  | elapsed clockMs asked news _ ih => exact { ih fresh with }

end Runs

/-! ## The shutdown -/

namespace Member

theorem disarmElection_does {member : Member} {outside : Outside} :
    disarmElection.Does member outside () { released := member.electionTask.toList }
      { member with electionTask := none } := by
  unfold disarmElection
  apply yields_own
  refine (does_cancelIfAny member.electionTask).andThen fun outside => ?_
  exact (does_modifyOwn _).yields ⟨rfl, by simp, rfl⟩

/-- A member that stops releases all its timers. -/
theorem stop_does {member : Member} {outside : Outside} :
    stop.Does member outside () { released := member.handles }
      { member with electionTask := none } := by
  unfold stop handles
  refine disarmElection_does.andThen fun outside => ?_
  apply yields_own
  cases standing : member.standing with
  | leader heartbeat => exact (does_cancel heartbeat).yields ⟨rfl, rfl, rfl⟩
  | follower | candidate votes | sync => exact yields_pure ⟨rfl, rfl, rfl⟩

theorem stop_succeeds : stop.Succeeds := by
  refine .bind (.own_bind fun member => ?_) fun _ => .own_bind fun member => ?_
  · exact .bind (.cancelIfAny _) fun _ => .modifyOwn _
  · split
    · exact .cancel _
    · exact .pure ()

end Member

namespace Liveness

variable {own : Liveness}

/-- The connections that a shutdown closes. -/
def connections (own : Liveness) : List ConnId :=
  own.links.values.map PeerLink.conn ++ (own.dialing.keys ++ own.anonymous.keys)

theorem mem_connections
    {conn : ConnId}
    (aligned : Aligned own.registry own.links)
    (apart : Apart own.registry own.dialing own.anonymous)
    (noted : ∀ conn ∈ own.registry.anonymous, (own.anonymous.get? conn).isSome) :
    conn ∈ own.connections ↔ (∃ id, own.registry.get? id = some conn) ∨
      (own.dialing.get? conn).isSome ∨ conn ∈ own.registry.anonymous := by
  have linked : conn ∈ own.links.values.map PeerLink.conn ↔
      ∃ id, own.registry.get? id = some conn := by
    constructor
    · intro listed
      obtain ⟨link, held, rfl⟩ := List.mem_map.mp listed
      obtain ⟨id, linked⟩ := Table.mem_values_iff.mp held
      exact ⟨id, aligned.get?_of_link linked⟩
    · rintro ⟨id, bound⟩
      obtain ⟨link, linked, rfl⟩ := aligned.exists_link bound
      exact List.mem_map_of_mem (Table.mem_values_iff.mpr ⟨id, linked⟩)
  have nameless : conn ∈ own.anonymous.keys ↔ conn ∈ own.registry.anonymous :=
    Table.contains_iff_mem_keys.symm.trans ⟨apart.listed conn, noted conn⟩
  rw [connections, List.mem_append, List.mem_append, linked, nameless,
    ← Table.contains_iff_mem_keys, Table.contains]

theorem nodup_connections
    (aligned : Aligned own.registry own.links)
    (apart : Apart own.registry own.dialing own.anonymous) :
    own.connections.Nodup := by
  have linked : (own.links.values.map PeerLink.conn).Nodup := by
    unfold Table.values
    rw [List.map_map]
    refine own.links.nodup_entries.map_on ?_
    rintro ⟨id, link⟩ listed ⟨other, link'⟩ listed' same
    have linked := Table.mem_entries_iff.mp listed
    have linked' := Table.mem_entries_iff.mp listed'
    have bound' : own.registry.get? other = some link.conn :=
      (aligned.get?_of_link linked').trans (congrArg some same.symm)
    obtain rfl := apart.paired.unique (aligned.get?_of_link linked) bound'
    rw [linked] at linked'
    rw [Option.some.inj linked']
  refine List.nodup_append.mpr ⟨linked, List.nodup_append.mpr ⟨own.dialing.distinct,
    own.anonymous.distinct, ?_⟩, ?_⟩
  · rintro conn dialled _ waiting rfl
    have quiet := apart.quiet (Table.contains_iff_mem_keys.mpr waiting)
    have busy : (own.dialing.get? conn).isSome := Table.contains_iff_mem_keys.mpr dialled
    rw [quiet] at busy
    cases busy
  · rintro conn linked _ waiting rfl
    obtain ⟨link, held, rfl⟩ := List.mem_map.mp linked
    obtain ⟨id, linked⟩ := Table.mem_values_iff.mp held
    have bound := (apart.paired id link.conn).mp (aligned.get?_of_link linked)
    have nobody : own.registry.peerOf? link.conn = none := by
      rcases List.mem_append.mp waiting with dialled | nameless
      · exact apart.unbound _ (Table.contains_iff_mem_keys.mpr dialled)
      · exact aligned.coherent.named _ (apart.listed _ (Table.contains_iff_mem_keys.mpr nameless))
    rw [nobody] at bound
    cases bound

/-- A shutdown releases every timer that the state calls for, and arms none. -/
theorem Moves.releases_all
    {timers : Scheduler TimerEvent}
    {event : Option PeerEvent}
    {effect : Effect}
    {next : Liveness}
    (moves : own.Moves timers .shutdown event effect next) :
    effect.armed = [] ∧ ∀ deadline ∈ own.deadlines, deadline.handle ∈ effect.released := by
  obtain ⟨dropped, released, rest, own_perm, next_perm⟩ := moves.exchanges
  cases moves with
  | shut =>
      obtain rfl : rest = [] := List.nil_perm.mp next_perm
      refine ⟨rfl, fun deadline listed => ?_⟩
      have given := own_perm.mem_iff.mp listed
      rw [show own.lapses .shutdown = [] from rfl, List.append_nil, List.append_nil] at given
      rw [← released]
      exact List.mem_map_of_mem given

end Liveness

namespace Core

/-- What a shutdown does: nothing can be received any longer, every connection is closed once, and
no peer is left.  The ledger and the role stay. -/
structure Releases (before after : Stage Core) : Prop where
  cancelled : ∀ task ∈ after.outside.timers.held,
    after.outside.timers.isCancelled task.handle = true
  silent : ∀ timers, after.outside.timers.RunsDown timers → ∀ clockMs,
    timers.receive clockMs = .ok (none, { timers with fired := [] })
  closed : ∃ closed : List ConnId, closed.Nodup ∧
    (∀ conn, conn ∈ closed ↔ (∃ id, before.own.registry.get? id = some conn) ∨
      (before.own.liveness.dialing.get? conn).isSome ∨ conn ∈ before.own.registry.anonymous) ∧
    after.outside.asked =
      (closed.map fun conn => (before.outside.clockMs, .close conn)).reverse ++
        before.outside.asked
  unbound : ∀ id, after.own.registry.get? id = none
  nobody : ∀ conn, after.own.registry.peerOf? conn = none
  ledger_eq : after.own.member.ledger = before.own.member.ledger
  standing_eq : after.own.member.standing = before.own.member.standing

theorem shutdown_succeeds : shutdown.Succeeds :=
  .bind (.own_bind fun _ => .within Member.stop_succeeds) fun _ =>
    .within Liveness.shutdown_succeeds

/-- A shutdown stops the member, and then shuts the peers. -/
theorem shutdown_shuts (stage : Stage Core) :
    shutdown.Ensures stage
      (fun _ after => ∃ effect,
        stage.outside.Turns ({ released := stage.own.member.handles } ++ effect) after.outside ∧
        stage.own.liveness.Moves stage.outside.timers .shutdown none effect after.own.liveness ∧
        after.own.member = { stage.own.member with electionTask := none })
      fun _ _ => False := by
  have stopping : (elect fun _ => Member.stop).Ensures stage
      (fun _ between => stage.outside.Turns { released := stage.own.member.handles }
        between.outside ∧
        between.own = { stage.own with
          member := { stage.own.member with electionTask := none } })
      fun _ _ => False := by
    unfold elect
    rw [ensures_bind, ensures_own, ensures_within]
    refine Yields.ensures Member.stop_does Member.stop_succeeds ?_
    rintro _ _ _ outside turns ⟨_, rfl, rfl⟩
    exact ⟨turns, rfl⟩
  unfold shutdown
  rw [ensures_bind]
  refine stopping.mono ?_ fun _ _ => id
  rintro _ ⟨own, outside⟩ ⟨stopped, rfl⟩
  unfold watch
  rw [ensures_within]
  have shutting : Liveness.shutdown.Yields stage.own.liveness outside fun _ =>
      stage.own.liveness.Moves stage.outside.timers .shutdown none :=
    Liveness.shutdown_moves
  refine shutting.ensures Liveness.shutdown_succeeds ?_
  intro _ effect next outside' turns moves
  exact ⟨effect, stopped.trans turns, moves, rfl⟩

end Core

section Runs

variable
    {config : NodeConfig}
    {past : List Happening}
    {stage after : Stage Core}
    {effect : Effect}

/-- Nothing is live any longer once the handles of the election and of the peers are released. -/
theorem Stage.Overseen.silenced
    (overseen : stage.Overseen past)
    (turns : stage.outside.Turns ({ released := stage.own.member.handles } ++ effect) after.outside)
    (moves : stage.own.liveness.Moves stage.outside.timers .shutdown none effect
      after.own.liveness) :
    after.outside.timers.live = [] := by
  obtain ⟨unarmed, released⟩ := moves.releases_all
  have live := turns.works.deadlines_perm overseen.sound
  rw [Effect.armed_append, unarmed, List.append_nil, List.filter_nil, List.append_nil] at live
  apply List.eq_nil_iff_forall_not_mem.mpr
  intro task alive
  obtain ⟨was, spared⟩ := List.mem_filter.mp (live.mem_iff.mp (List.mem_map_of_mem alive))
  refine of_decide_eq_true spared (List.mem_append.mpr ?_)
  cases election : task.payload.isElection with
  | true =>
      obtain ⟨other, held, same⟩ := Scheduler.mem_deadlines.mp was
      have payload : other.payload = task.payload := congrArg Deadline.event same
      have handle : other.handle = task.handle := congrArg Deadline.handle same
      have electoral : other ∈ stage.outside.timers.elections :=
        List.mem_filter.mpr ⟨held, payload ▸ election⟩
      have handed := overseen.hand.owned other electoral
      rw [handle] at handed
      exact .inl handed
  | false => exact .inr (released task.deadline (overseen.wanted task.deadline was election))

/-- A node that has overseen its timers and connections lets go of them all. -/
theorem Stage.Overseen.releases
    (overseen : stage.Overseen past)
    (turns : stage.outside.Turns ({ released := stage.own.member.handles } ++ effect) after.outside)
    (moves : stage.own.liveness.Moves stage.outside.timers .shutdown none effect
      after.own.liveness)
    (member_eq : after.own.member = { stage.own.member with electionTask := none }) :
    Core.Releases stage after := by
  obtain ⟨_, _, phased⟩ := overseen.phased
  have silent := overseen.silenced turns moves
  have aligned := moves.aligned phased.aligned fun _ => phased.apart.paired
  have apart := moves.apart phased.apart trivial
  have asked := turns.asked_eq
  have ledger_eq := congrArg Member.ledger member_eq
  have standing_eq := congrArg Member.standing member_eq
  obtain ⟨⟨member, liveness, news⟩, outside⟩ := after
  cases moves with
  | shut =>
      have unbound (id : NodeId) :
          (stage.own.liveness.registry.connections.foldl Registry.removeConnection
            stage.own.liveness.registry).get? id = none :=
        Liveness.get?_removeAll phased.apart.paired
      exact {
        cancelled := by
          intro task held
          have dead := List.filter_eq_nil_iff.mp silent task held
          simpa using dead
        silent := fun timers runs clockMs =>
          Scheduler.receive_of_silent (runs.silent silent) clockMs
        closed := by
          refine ⟨stage.own.liveness.connections,
            Liveness.nodup_connections phased.aligned phased.apart,
            fun conn => Liveness.mem_connections phased.aligned phased.apart overseen.noted, ?_⟩
          rw [asked]
          simp [Liveness.connections, Function.comp_def]
        unbound := unbound
        nobody := by
          intro conn
          refine Option.eq_none_iff_forall_ne_some.mpr fun id bound => ?_
          have held := (apart.paired id conn).mpr bound
          cases (unbound id).symm.trans held
        ledger_eq := ledger_eq
        standing_eq := standing_eq }

/-- Wherever a node has got to, its shutdown goes through and releases everything: no timer is
received any longer, each connection is closed once, no peer is left, and term, vote and leader
stay. -/
theorem Stint.lets_go
    (stint : Stint config past stage)
    (fresh : Fresh past) :
    ∃ after, Core.shutdown.perform stage = (.ok (), after) ∧ Core.Releases stage after := by
  obtain ⟨_, after, performed⟩ := Core.shutdown_succeeds.perform stage
  obtain ⟨effect, turns, moves, member_eq⟩ := (Core.shutdown_shuts stage).of_perform performed
  exact ⟨after, performed, (stint.overseen fresh).releases turns moves member_eq⟩

/-- The node is told something. -/
theorem Stint.tell
    (stint : Stint config past stage)
    (cue : Cue)
    (answered : (cue.handler.perform stage).1 = .ok ()) :
    Stint config (cue.happening?.toList ++ past) (cue.handler.perform stage).2 :=
  stint.told (perform_eq answered)

end Runs

namespace Trio

/-! ### A node with a connection in each phase

One of the two peers that it dials has answered, the other one has not yet, and somebody else waits
to say who it is. -/

def idle : Stage Core where
  own := Core.ofConfig config 0
  outside := fresh.outside

def cues : List Cue :=
  [.started, .reported (.connected ⟨1⟩ "1"), .accepted ⟨2⟩,
    .reported (.received ⟨1⟩ (.response .heartbeat)), .reported (.connected ⟨3⟩ "2")]

def busy : Stage Core := cues.foldl (fun stage cue => (cue.handler.perform stage).2) idle

def past : List Happening :=
  [.connected ⟨3⟩ "2", .response ⟨1⟩, .accepted ⟨2⟩, .connected ⟨1⟩ "1", .start]

theorem stint : Stint config past busy := by
  have made : Scheduler.start config.timer 0 = .ok timers := by decide +kernel
  obtain ⟨sound, silent⟩ := Scheduler.start_sound made
  have begun : Stint config [] idle := .begun rfl sound silent
  have started := begun.tell .started (by decide +kernel)
  have opened := started.tell (.reported (.connected ⟨1⟩ "1")) (by decide +kernel)
  have greeted := opened.tell (.accepted ⟨2⟩) (by decide +kernel)
  have linked := greeted.tell (.reported (.received ⟨1⟩ (.response .heartbeat)))
    (by decide +kernel)
  exact linked.tell (.reported (.connected ⟨3⟩ "2")) (by decide +kernel)

end Trio

/-- The shutdown closes one connection in each phase. -/
theorem Stint.lets_go_trio :
    Stint Trio.config Trio.past Trio.busy ∧ Fresh Trio.past ∧
      ∃ after, Core.shutdown.perform Trio.busy = (.ok (), after) ∧
        Core.Releases Trio.busy after ∧
        (after.outside.asked.take 3).map Prod.snd = [.close ⟨2⟩, .close ⟨3⟩, .close ⟨1⟩] := by
  have fresh : Fresh Trio.past := by
    simp [Fresh, Trio.past, Happening.IsNovel, Happening.conn?]
  obtain ⟨after, performed, releases⟩ := Stint.lets_go Trio.stint fresh
  refine ⟨Trio.stint, fresh, after, performed, releases, ?_⟩
  have after_eq : after = (Core.shutdown.perform Trio.busy).2 := by rw [performed]
  rw [after_eq]
  decide +kernel

end Quorum
