import Quorum.Proofs.Election.Custody

/-!
# Answers to requests

A member answers a request in one of two ways.  It refuses, or gives no answer, and then nothing has
changed: neither the member nor its timers.  Or it agrees, and then it has given way, cancelled its
timers and armed a new election timer.  Either way the answer tells the term that the member is in
by then.

`Gives` follows a member that agrees up to the point where it arms the timer, and `Replies` is what
the handlers come to.  From a stage that was `Stage.Reached` the new timer is the only one of the
election that is left.
-/

namespace Quorum

open Act Member

/-- Whether an answer agrees to what was asked for. -/
def Response.agrees : Response → Bool
  | heartbeat => false
  | vote _ granted => granted
  | leaderHeartbeat _ accepted => accepted

/-- Why the handler of a request fails at a stage: the present time has no date, or the scheduler
refuses the election timer. -/
def Hindered (failure : Failure) (stage : Stage Member) : Prop :=
  (failure = .fault .undated ∧ lastInstantMs < stage.outside.clockMs) ∨
    ∃ delay, stage.own.window.Admits delay ∧
      stage.outside.timers.schedule stage.outside.clockMs delay false .electionTimeout =
        .error failure

/-- What a request leaves behind if it is answered with `answer`. -/
structure Stage.Responds
    (start : Stage Member)
    (answer : Option Response)
    (after : Stage Member) : Prop where
  /-- An answer tells the current term. -/
  told : ∀ response ∈ answer, response.term? = some after.own.ledger.currentTerm
  /-- A member that does not agree is as it was, and so are its timers. -/
  refused : (∀ response ∈ answer, response.agrees = false) →
    after.own = start.own ∧ after.outside.timers = start.outside.timers
  /-- A member that agrees follows, or goes on catching up.  The timers it held are cancelled, and
  only its new election timer could still be received. -/
  agreed : ∀ response ∈ answer, response.agrees = true →
    after.own.role = (if start.own.role = .sync then .sync else .follower) ∧
    (∀ handle ∈ start.own.handles, after.outside.timers.isCancelled handle = true) ∧
    ∃ handle, after.own.electionTask = some handle ∧
      start.outside.timers.issued ≤ handle.number ∧
      after.outside.timers.deadlines.filter (fun deadline => deadline.event.isElection) =
        [⟨handle, .electionTimeout, after.own.electionDelay, false⟩]

/-! ## Giving way -/

variable {start stage : Stage Member} {ledger : Ledger}

/-- The member has taken over a ledger and has given way, and its election timer is still to be
replaced. -/
structure Gives (start : Stage Member) (ledger : Ledger) (stage : Stage Member) : Prop where
  ledger_eq : stage.own.ledger = ledger
  standing_eq : stage.own.standing = start.own.standing.yielded
  task_eq : stage.own.electionTask = start.own.electionTask
  clock_eq : stage.outside.clockMs = start.outside.clockMs
  works : start.outside.timers.Works start.outside.clockMs
    start.own.standing.heartbeat?.toList [] stage.outside.timers

/-- A member that neither campaigns nor leads has given way already. -/
theorem Gives.of_resting
    (ledger : Ledger)
    (resting : start.own.standing.yielded = start.own.standing) :
    Gives start ledger { start with own.ledger := ledger } where
  ledger_eq := rfl
  standing_eq := resting.symm
  task_eq := rfl
  clock_eq := rfl
  works := by
    rw [Standing.heartbeat?_of_leadsNot (Standing.leadsNot_of_resting resting)]
    exact .idle

/-- A member that campaigns or leads becomes a follower, if the change can be dated. -/
theorem become_gives
    (start : Stage Member)
    (ledger : Ledger)
    (active : start.own.standing.yielded = .follower) :
    (become .follower).Ensures { start with own.ledger := ledger }
      (fun _ => Gives start ledger) Hindered := by
  unfold become
  rw [ensures_bind, ensures_own]
  cases standing : start.own.standing with
  | leader heartbeat =>
      simp only [standing, ensures_bind, ensures_cancel, ensures_modifyOwn,
        ensures_datedClockMs_iff]
      split
      · refine ⟨rfl, active.symm, rfl, rfl, ?_⟩
        rw [standing]
        exact Scheduler.Works.idle.cancelled heartbeat
      · next late => exact .inl ⟨rfl, Nat.not_le.mp late⟩
  | follower | candidate votes | sync =>
      simp only [standing, ensures_bind, ensures_modifyOwn, ensures_datedClockMs_iff]
      split
      · refine ⟨rfl, active.symm, rfl, rfl, ?_⟩
        rw [standing]
        exact .idle
      · next late => exact .inl ⟨rfl, Nat.not_le.mp late⟩

/-- A member gives way if it campaigns or leads, and goes on. -/
theorem yielding_gives
    {α : Type}
    {rest : Unit → Act Member α}
    {done : α → Stage Member → Prop}
    (start : Stage Member)
    (ledger : Ledger)
    (onRest : ∀ stage, Gives start ledger stage → (rest ()).Ensures stage done Hindered) :
    Ensures
      (match start.own.role with
        | .candidate => become .follower >>= rest
        | .leader => become .follower >>= rest
        | .follower => rest ()
        | .sync => rest ()) { start with own.ledger := ledger } done Hindered := by
  refine @ensures_yielding _ { start with own.ledger := ledger } rest done Hindered
    (fun active => ?_) fun resting => ?_
  · exact (ensures_bind _ _).mpr
      ((become_gives start ledger active).mono (fun _ => onRest) fun _ _ => id)
  · exact onRest _ (.of_resting ledger resting)

/-! ## Replies -/

/-- What the handler of a request comes to. -/
inductive Replies (start : Stage Member) : Option Response → Stage Member → Prop where
  | silent
      {after : Stage Member}
      (own_eq : after.own = start.own)
      (timers_eq : after.outside.timers = start.outside.timers) :
      Replies start none after
  | refused
      {response : Response} {after : Stage Member}
      (disagrees : response.agrees = false)
      (told : response.term? = some start.own.ledger.currentTerm)
      (own_eq : after.own = start.own)
      (timers_eq : after.outside.timers = start.outside.timers) :
      Replies start (some response) after
  | agreed
      {response : Response} {after : Stage Member} {handle : Handle}
      (agrees : response.agrees = true)
      (told : response.term? = some after.own.ledger.currentTerm)
      (standing_eq : after.own.standing = start.own.standing.yielded)
      (task_eq : after.own.electionTask = some handle)
      (works : start.outside.timers.Works start.outside.clockMs
        (start.own.standing.heartbeat?.toList ++ start.own.electionTask.toList)
        [⟨handle, .electionTimeout, after.own.electionDelay, false⟩] after.outside.timers) :
      Replies start (some response) after

namespace Gives

/-- The handler ends by arming the election timer anew, if the scheduler accepts it. -/
theorem rearms
    {delay : Delay}
    {response : Response}
    (gives : Gives start ledger stage)
    (admitted : stage.own.window.Admits delay)
    (agrees : response.agrees = true)
    (told : response.term? = some ledger.currentTerm) :
    (rearmElection delay).Ensures stage (fun _ => Replies start (some response)) Hindered := by
  have disarms : disarmElection.Ensures stage
      (fun _ after => after.own = { stage.own with electionTask := none } ∧
        after.outside.clockMs = start.outside.clockMs ∧
        start.outside.timers.Works start.outside.clockMs
          (start.own.standing.heartbeat?.toList ++ start.own.electionTask.toList) []
          after.outside.timers) Hindered := by
    unfold disarmElection
    simp only [ensures_bind, ensures_own, ensures_modifyOwn]
    rw [gives.task_eq]
    cases start.own.electionTask with
    | none =>
        rw [Option.toList_none, List.append_nil]
        exact ⟨rfl, gives.clock_eq, gives.works⟩
    | some task => exact ⟨rfl, gives.clock_eq, gives.works.cancelled task⟩
  unfold rearmElection
  rw [ensures_bind]
  refine disarms.mono ?_ fun _ _ => id
  rintro _ after ⟨own_eq, clock_eq, works⟩
  rw [ensures_bind, ensures_arm, clock_eq]
  split
  · next handle timers scheduled =>
    rw [ensures_modifyOwn, own_eq]
    refine .agreed agrees ?_ gives.standing_eq rfl (works.scheduled scheduled)
    rw [told]
    exact congrArg (fun ledger => some ledger.currentTerm) gives.ledger_eq.symm
  · next failure refused =>
    refine .inr ⟨delay, ?_, clock_eq ▸ refused⟩
    rw [own_eq]
    exact admitted

/-- The same with a drawn delay. -/
theorem rearmsDrawn
    {response : Response}
    (gives : Gives start ledger stage)
    (agrees : response.agrees = true)
    (told : response.term? = some ledger.currentTerm) :
    rearmElectionDrawn.Ensures stage (fun _ => Replies start (some response)) Hindered := by
  unfold rearmElectionDrawn
  simp only [ensures_bind, ensures_own, ensures_draw]
  have drawn : Gives start ledger { stage with outside.drawn := stage.outside.drawn + 1 } :=
    { gives with }
  exact drawn.rearms (Window.admits_sample _ _) agrees told

end Gives

theorem onVoteRequest_replies
    (candidate : NodeId)
    (term lastLogTerm lastLogIndex : Nat)
    (start : Stage Member) :
    (onVoteRequest candidate term lastLogTerm lastLogIndex).Ensures start
      (fun response => Replies start (some response)) Hindered := by
  unfold onVoteRequest
  simp only [ensures_bind, ensures_own]
  split
  · next grants =>
    have newer : start.own.ledger.currentTerm < term :=
      of_decide_eq_true (Bool.and_eq_true_iff.mp grants).1
    refine yielding_gives start ((start.own.ledger.advanceTerm term).voteFor candidate) ?_
    intro stage gives
    simp only [ensures_bind, ensures_own, ensures_pure]
    refine gives.rearms (Window.admits_longest _) ?_ ?_
    · rfl
    · simp [Response.term?, Nat.max_eq_right (Nat.le_of_lt newer)]
  · exact .refused rfl rfl rfl rfl

theorem onAssertionAsFollower_replies
    (term : Nat)
    (leader : NodeId)
    (resting : start.own.standing.yielded = start.own.standing) :
    (onAssertionAsFollower term leader).Ensures start (Replies start) Hindered := by
  have accepts (ledger : Ledger) (current : ledger.currentTerm = term) :
      (do rearmElectionDrawn; return some (.leaderHeartbeat term true) :
        Act Member (Option Response)).Ensures { start with own.ledger := ledger }
        (Replies start) Hindered := by
    rw [ensures_bind]
    exact (Gives.of_resting ledger resting).rearmsDrawn rfl (congrArg some current.symm)
  unfold onAssertionAsFollower acceptLeader
  simp only [ensures_bind, ensures_own]
  split
  · exact .refused rfl rfl rfl rfl
  next notStale =>
  split
  · next newer =>
    refine accepts ((start.own.ledger.advanceTerm term).setLeader (some leader)) ?_
    simp [Nat.max_eq_right (Nat.le_of_lt newer)]
  next notNewer =>
  have current : start.own.ledger.currentTerm = term := by omega
  split
  · exact accepts (start.own.ledger.setLeader (some leader)) current
  split
  · exact .silent rfl rfl
  · exact accepts start.own.ledger current

theorem yieldTo_replies
    (term : Nat)
    (leader : NodeId)
    (active : start.own.standing.yielded = .follower)
    (current : start.own.ledger.currentTerm ≤ term) :
    (yieldTo term leader).Ensures start (Replies start) Hindered := by
  unfold yieldTo acceptLeader modifyLedger
  simp only [ensures_bind, ensures_modifyOwn, ensures_pure]
  have gave := become_gives start ((start.own.ledger.advanceTerm term).setLeader (some leader))
    active
  refine gave.mono (fun _ stage gives => ?_) fun _ _ => id
  refine gives.rearmsDrawn ?_ ?_
  · rfl
  · simp [Response.term?, Nat.max_eq_right current]

theorem onAssertionAsCandidate_replies
    (term : Nat)
    (leader : NodeId)
    (active : start.own.standing.yielded = .follower) :
    (onAssertionAsCandidate term leader).Ensures start (Replies start) Hindered := by
  unfold onAssertionAsCandidate
  simp only [ensures_bind, ensures_own]
  split
  · exact .refused rfl rfl rfl rfl
  · next notStale => exact yieldTo_replies term leader active (Nat.not_lt.mp notStale)

theorem onAssertionAsLeader_replies
    (registry : Registry)
    (term : Nat)
    (leader : NodeId)
    (active : start.own.standing.yielded = .follower) :
    (onAssertionAsLeader registry term leader).Ensures start (Replies start) Hindered := by
  unfold onAssertionAsLeader
  simp only [ensures_bind, ensures_own]
  split
  · split
    · -- The outdated leader is told at once, which changes neither the member nor its timers.
      exact .refused rfl rfl rfl rfl
    · exact .refused rfl rfl rfl rfl
  next notStale =>
  split
  · exact .silent rfl rfl
  · exact yieldTo_replies term leader active (Nat.not_lt.mp notStale)

/-- Whatever is asked of a member, it replies in one of the two ways. -/
theorem onRequest_replies
    (registry : Registry)
    (sender : NodeId)
    (request : Request)
    (start : Stage Member) :
    (onRequest registry sender request).Ensures start (Replies start) Hindered := by
  unfold onRequest
  cases request with
  | heartbeat id => exact .silent rfl rfl
  | vote term lastLogTerm lastLogIndex =>
      simp only [ensures_bind, ensures_pure]
      exact onVoteRequest_replies sender term lastLogTerm lastLogIndex start
  | leaderHeartbeat term leader =>
      rw [ensures_bind, ensures_own]
      unfold role
      cases standing : start.own.standing with
      | follower => exact onAssertionAsFollower_replies term leader (by rw [standing]; rfl)
      | sync => exact onAssertionAsFollower_replies term leader (by rw [standing]; rfl)
      | candidate votes => exact onAssertionAsCandidate_replies term leader (by rw [standing]; rfl)
      | leader heartbeat =>
          exact onAssertionAsLeader_replies registry term leader (by rw [standing]; rfl)

/-! ## What is left of the timers -/

theorem Standing.role_yielded (standing : Standing) :
    standing.yielded.role = if standing.role = .sync then .sync else .follower := by
  cases standing <;> rfl

/-- Once all the timers in the hand of a member are released, what it has armed is all that is left
of the election. -/
theorem Stage.InHand.deadlines_of_works
    (hand : start.InHand)
    {released : List Handle}
    {deadline : Deadline TimerEvent}
    {next : Scheduler TimerEvent}
    (works : start.outside.timers.Works start.outside.clockMs released [deadline] next)
    (all : ∀ handle, handle ∈ released ↔ handle ∈ start.own.handles)
    (electoral : deadline.event.isElection = true) :
    next.deadlines.filter (fun deadline => deadline.event.isElection) = [deadline] := by
  have left := works.deadlines_perm_of_issued hand.sound fun handle listed =>
    hand.issued handle ((all handle).mp listed)
  have none_left : (start.outside.timers.deadlines.filter fun deadline =>
      deadline.handle ∉ released).filter (fun deadline => deadline.event.isElection) = [] := by
    apply List.filter_eq_nil_iff.mpr
    intro old listed electoral
    obtain ⟨present, spared⟩ := List.mem_filter.mp listed
    obtain ⟨task, alive, rfl⟩ := Scheduler.mem_deadlines.mp present
    have owned := hand.owned task (List.mem_filter.mpr ⟨alive, electoral⟩)
    exact of_decide_eq_true spared ((all task.handle).mpr owned)
  have chosen := left.filter fun deadline => deadline.event.isElection
  have kept : [deadline].filter (fun deadline => deadline.event.isElection) = [deadline] :=
    List.filter_eq_self.mpr (List.forall_mem_singleton.mpr electoral)
  rw [List.filter_append, none_left, List.nil_append, kept] at chosen
  exact List.perm_singleton.mp chosen

/-- A member that holds all its timers responds as it should. -/
theorem Replies.responds
    {answer : Option Response}
    {after : Stage Member}
    (replies : Replies start answer after)
    (hand : start.InHand) :
    start.Responds answer after := by
  cases replies with
  | silent own_eq timers_eq =>
      exact {
        told := nofun
        refused := fun _ => ⟨own_eq, timers_eq⟩
        agreed := nofun }
  | refused disagrees told own_eq timers_eq =>
      exact {
        told := by
          rintro _ ⟨⟩
          rw [own_eq]
          exact told
        refused := fun _ => ⟨own_eq, timers_eq⟩
        agreed := by
          rintro _ ⟨⟩ agrees
          rw [disagrees] at agrees
          cases agrees }
  | @agreed response _ handle agrees told standing_eq task_eq works =>
      have released (held : Handle) :
          held ∈ start.own.standing.heartbeat?.toList ++ start.own.electionTask.toList ↔
            held ∈ start.own.handles := by
        unfold handles
        rw [List.mem_append, List.mem_append, or_comm]
      exact {
        told := by
          rintro _ ⟨⟩
          exact told
        refused := by
          intro disagrees
          rw [disagrees response rfl] at agrees
          cases agrees
        agreed := by
          rintro _ ⟨⟩ _
          refine ⟨?_, fun held listed => ?_, handle, task_eq, ?_,
            hand.deadlines_of_works works released rfl⟩
          · unfold Member.role
            rw [standing_eq]
            exact start.own.standing.role_yielded
          · exact works.isCancelled_iff.mpr (.inr ((released held).mpr listed))
          · exact works.issued_le_of_mem List.mem_cons_self }

/-- Wherever a member has got to, it refuses a request without a change, or agrees to it and keeps no
timer of the election but a new one.  Its answer tells the term that it is in by then.  It fails
only if the time has no date or the scheduler refuses the timer. -/
theorem Stage.Reached.answers_request
    {config : NodeConfig}
    (reached : start.Reached config)
    (registry : Registry)
    (sender : NodeId)
    (request : Request) :
    (onRequest registry sender request).Ensures start start.Responds Hindered :=
  (onRequest_replies registry sender request start).mono
    (fun _ _ replies => replies.responds reached.inHand) fun _ _ => id

/-- The leader of a cluster of one gives its vote to a candidate of a later term. -/
theorem Stage.Reached.answers_request_solitary :
    Solitary.leading.Reached Solitary.config ∧
      ∃ after,
        (onRequest {} "2" (.vote 2 0 0)).perform Solitary.leading =
          (.ok (some (.vote 2 true)), after) ∧
        Solitary.leading.Responds (some (.vote 2 true)) after := by
  have reached : Solitary.leading.Reached Solitary.config := Solitary.vigil.reached
  have grants : ((onRequest {} "2" (.vote 2 0 0)).perform Solitary.leading).1 =
      .ok (some (.vote 2 true)) := by
    decide +kernel
  -- The stage has been computed, and is any stage from here on.
  generalize Solitary.leading = stage at reached grants ⊢
  have responds := Stage.Reached.answers_request reached {} "2" (.vote 2 0 0)
  exact ⟨reached, _, perform_eq grants, responds.of_perform (perform_eq grants)⟩

end Quorum
