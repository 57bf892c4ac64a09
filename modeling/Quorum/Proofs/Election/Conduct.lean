import Quorum.Proofs.Election.Turn

/-!
# Handlers take turns

Whatever a handler of a member does on whatever stage is a turn, also when a refused timer or a
fault stops it half way.  The main statement is `handler_turns`.  What holds of all turns therefore
holds of all handlers, and no later proof has to open a handler for it.
-/

namespace Quorum

open Act Member

/-! ## Giving way -/

theorem onVoteRequest_turns
    (candidate : NodeId)
    (term lastLogTerm lastLogIndex : Nat)
    (stage : Stage Member) :
    (onVoteRequest candidate term lastLogTerm lastLogIndex).Ensures stage
      (fun response after =>
        Turns (.request candidate (.vote term lastLogTerm lastLogIndex)) stage
          (.ok (some response)) after)
      (fun failure after =>
        Turns (.request candidate (.vote term lastLogTerm lastLogIndex)) stage
          (.error failure) after) := by
  unfold onVoteRequest
  simp only [ensures_bind, ensures_own]
  split
  · next granting =>
    obtain ⟨newer, recent⟩ := Bool.and_eq_true_iff.mp granting
    have newer := of_decide_eq_true newer
    rw [ensures_bind]
    refine (modifyLedger_shows _ (Shows.refl stage)).mono ?_ fun _ _ => False.elim
    intro _ voted shown
    simp only [ensures_bind, ensures_own]
    refine yielding_ensures shown ?_ ?_
    · intro yielded shown
      simp only [ensures_bind, ensures_own, ensures_pure]
      refine (Unnoticed.rearmElection _).turns shown ?_ fun failure => ?_
      all_goals exact Turn.granted (by simp) newer recent
    · intro failure after shown
      exact (Turn.granted (by simp) newer recent).turns shown
  · exact (Turn.unmoved (by simp)).turns (Shows.refl stage)

/-- A response of a newer term ends the matter; any other one changes nothing here. -/
theorem stepDownIfNewer_turns
    (sender : NodeId)
    {response : Response}
    {term : Nat}
    (told : response.term? = some term)
    (stage : Stage Member) :
    (stepDownIfNewer term).Ensures stage
      (fun stepped after =>
        if stepped then Turns (.response sender response) stage (.ok none) after
        else after = stage ∧ term ≤ stage.own.ledger.currentTerm)
      (fun failure after => Turns (.response sender response) stage (.error failure) after) := by
  unfold stepDownIfNewer
  simp only [ensures_bind, ensures_own]
  split
  · next newer =>
    have newer := of_decide_eq_true newer
    rw [ensures_bind]
    refine (modifyLedger_shows _ (Shows.refl stage)).mono ?_ fun _ _ => False.elim
    intro _ advanced shown
    simp only [ensures_bind, ensures_own]
    refine yielding_ensures shown ?_ ?_
    · intro yielded shown
      simp only [ensures_bind, ensures_pure, if_true]
      refine Unnoticed.rearmElectionDrawn.turns shown ?_ fun failure => ?_
      all_goals exact Turn.adopted (by simp) told newer
    · intro failure after shown
      exact (Turn.adopted (by simp) told newer).turns shown
  · next older =>
    simp only [Ledger.isNewer, decide_eq_true_eq, Nat.not_lt] at older
    simp [older]

/-! ## Accepting a leader -/

/-- What is left to do once the leader is noted. -/
theorem rearmed_turns
    {sender leader : NodeId}
    {term : Nat}
    {stage noted : Stage Member}
    {ledger : Ledger}
    (resting : stage.own.seat.standing.yielded = stage.own.seat.standing)
    (same : ledger = (stage.own.ledger.advanceTerm term).setLeader (some leader))
    (current : stage.own.ledger.currentTerm ≤ term)
    (shown : Shows stage [] { stage.own.seat with ledger } noted) :
    Ensures
      (do rearmElectionDrawn; return some (.leaderHeartbeat term true)) noted
      (fun reply after =>
        Turns (.request sender (.leaderHeartbeat term leader)) stage (.ok reply) after)
      (fun failure after =>
        Turns (.request sender (.leaderHeartbeat term leader)) stage (.error failure) after) := by
  subst same
  have leadsNot : ¬ stage.own.seat.leads := Standing.leadsNot_of_resting resting
  have turn
      (answer : Except Failure (Option Response))
      (refused : Refuses answer) :
      Turn (.request sender (.leaderHeartbeat term leader)) stage.own.seat answer []
        { stage.own.seat with
          ledger := (stage.own.ledger.advanceTerm term).setLeader (some leader) } := by
    have accepted := @Turn.accepted sender leader stage.own.seat answer term refused current
      fun leads => absurd leads leadsNot
    rwa [resting] at accepted
  rw [ensures_bind]
  exact Unnoticed.rearmElectionDrawn.turns shown (turn _ (by simp)) fun _ => turn _ (by simp)

theorem onAssertionAsFollower_turns
    (sender leader : NodeId)
    (term : Nat)
    (stage : Stage Member)
    (resting : stage.own.seat.standing.yielded = stage.own.seat.standing) :
    (onAssertionAsFollower term leader).Ensures stage
      (fun reply after =>
        Turns (.request sender (.leaderHeartbeat term leader)) stage (.ok reply) after)
      (fun failure after =>
        Turns (.request sender (.leaderHeartbeat term leader)) stage (.error failure) after) := by
  unfold onAssertionAsFollower
  simp only [ensures_bind, ensures_own]
  split
  · exact (Turn.unmoved (by simp)).turns (Shows.refl stage)
  next notStale =>
  split
  · next newer =>
    rw [ensures_bind]
    refine (modifyLedger_shows _ (Shows.refl stage)).mono ?_ fun _ _ => False.elim
    intro _ advanced shown
    rw [ensures_bind]
    refine (modifyLedger_shows _ shown).mono ?_ fun _ _ => False.elim
    intro _ noted shown
    exact rearmed_turns resting rfl (Nat.le_of_lt newer) shown
  next notNewer =>
  have current : stage.own.ledger.currentTerm = term := by omega
  have same : stage.own.ledger.advanceTerm term = stage.own.ledger := by
    simp [Ledger.advanceTerm, current]
  split
  · rw [ensures_bind]
    refine (modifyLedger_shows _ (Shows.refl stage)).mono ?_ fun _ _ => False.elim
    intro _ noted shown
    refine rearmed_turns resting ?_ (Nat.le_of_eq current) shown
    rw [same]
    rfl
  · next known knows =>
    split
    · exact (Turn.unmoved (by simp)).turns (Shows.refl stage)
    · next agrees =>
      have noted : stage.own.ledger =
          (stage.own.ledger.advanceTerm term).setLeader (some leader) := by
        rw [same, Ledger.setLeader, ← Decidable.not_not.mp agrees, ← knows]
      exact rearmed_turns resting noted (Nat.le_of_eq current) (Shows.refl stage)

theorem yieldTo_turns
    (sender leader : NodeId)
    (term : Nat)
    (stage : Stage Member)
    (current : stage.own.ledger.currentTerm ≤ term)
    (outranked : stage.own.seat.leads → stage.own.ledger.currentTerm < term)
    (active : stage.own.seat.standing.yielded = .follower) :
    (yieldTo term leader).Ensures stage
      (fun reply after =>
        Turns (.request sender (.leaderHeartbeat term leader)) stage (.ok reply) after)
      (fun failure after =>
        Turns (.request sender (.leaderHeartbeat term leader)) stage (.error failure) after) := by
  have turn
      (answer : Except Failure (Option Response))
      (refused : Refuses answer) :
      Turn (.request sender (.leaderHeartbeat term leader)) stage.own.seat answer []
        { stage.own.seat with
          ledger := (stage.own.ledger.advanceTerm term).setLeader (some leader)
          standing := .follower } := by
    have accepted := @Turn.accepted sender leader stage.own.seat answer term refused current
      outranked
    rwa [active] at accepted
  unfold yieldTo acceptLeader
  simp only [ensures_bind]
  refine (modifyLedger_shows _ (Shows.refl stage)).mono ?_ fun _ _ => False.elim
  intro _ advanced shown
  refine (modifyLedger_shows _ shown).mono ?_ fun _ _ => False.elim
  intro _ noted shown
  refine (become_shows .follower shown).mono ?_ ?_
  · intro _ followed shown
    exact Unnoticed.rearmElectionDrawn.turns shown (turn _ (by simp)) fun _ => turn _ (by simp)
  · intro failure after shown
    exact (turn _ (by simp)).turns shown

theorem onAssertionAsLeader_turns
    (registry : Registry)
    (sender leader : NodeId)
    (term : Nat)
    (stage : Stage Member)
    (leads : stage.own.seat.leads) :
    (onAssertionAsLeader registry term leader).Ensures stage
      (fun reply after =>
        Turns (.request sender (.leaderHeartbeat term leader)) stage (.ok reply) after)
      (fun failure after =>
        Turns (.request sender (.leaderHeartbeat term leader)) stage (.error failure) after) := by
  unfold onAssertionAsLeader
  simp only [ensures_bind, ensures_own]
  split
  · split
    · next conn _ =>
      rw [ensures_bind]
      refine (sendRequest_shows conn (List.mem_singleton_self _)
        ((Shows.refl stage).mono (List.nil_subset _))).mono ?_ fun _ _ => False.elim
      intro _ told shown
      exact (Turn.asserted leads (by simp)).turns shown
    · exact (Turn.unmoved (by simp)).turns (Shows.refl stage)
  next notStale =>
  split
  · exact (Turn.unmoved (by simp)).turns (Shows.refl stage)
  next notSame =>
  refine yieldTo_turns sender leader term stage (by omega) (fun _ => by omega) ?_
  revert leads
  unfold Seat.leads
  cases stage.own.seat.standing <;> simp [Standing.role, Standing.yielded]

theorem onRequest_turns
    (registry : Registry)
    (sender : NodeId)
    (request : Request)
    (stage : Stage Member) :
    (onRequest registry sender request).Ensures stage
      (fun reply after => Turns (.request sender request) stage (.ok reply) after)
      (fun failure after => Turns (.request sender request) stage (.error failure) after) := by
  have standing : stage.own.seat.standing = stage.own.standing := rfl
  unfold onRequest
  cases request with
  | heartbeat id => exact (Turn.unmoved (by simp)).turns (Shows.refl stage)
  | vote term lastLogTerm lastLogIndex =>
    simp only [ensures_bind, ensures_pure]
    exact onVoteRequest_turns sender term lastLogTerm lastLogIndex stage
  | leaderHeartbeat term leader =>
    simp only [ensures_bind, ensures_own, Member.role]
    cases held : stage.own.standing with
    | follower =>
      exact onAssertionAsFollower_turns sender leader term stage
        (by simp [standing, held, Standing.yielded])
    | sync =>
      exact onAssertionAsFollower_turns sender leader term stage
        (by simp [standing, held, Standing.yielded])
    | candidate votes =>
      simp only [Standing.role, onAssertionAsCandidate, ensures_bind, ensures_own]
      split
      · exact (Turn.unmoved (by simp)).turns (Shows.refl stage)
      · next notStale =>
        refine yieldTo_turns sender leader term stage (Nat.not_lt.mp notStale) ?_ ?_
        · simp [Seat.leads, standing, held, Standing.role]
        · simp [standing, held, Standing.yielded]
    | leader heartbeat =>
      exact onAssertionAsLeader_turns registry sender leader term stage
        (by simp [Seat.leads, standing, held, Standing.role])

/-! ## Campaigning and leading -/

theorem leads_seat_iff (member : Member) : member.seat.leads ↔ member.isLeader = true := by
  rw [Member.isLeader, decide_eq_true_iff]
  rfl

/-- Taking over the leadership is noticed as a whole, or not at all if the heartbeat is refused. -/
theorem takeOver_shows
    {start stage : Stage Member}
    {said : List Request}
    {seat : Seat}
    (registry : Registry)
    (shown : Shows start said seat stage) :
    (takeOver registry).Ensures stage
      (fun _ after => ∃ heartbeat, ∃ led : Seat,
        led = { seat with
          ledger := seat.ledger.setLeader (some seat.id), standing := .leader heartbeat } ∧
          Shows start (said ++ [led.assertion]) led after)
      (fun _ after =>
        Shows start said seat after ∨ ∃ heartbeat, ∃ led : Seat,
          led = { seat with
            ledger := seat.ledger.setLeader (some seat.id), standing := .leader heartbeat } ∧
            Shows start (said ++ [led.assertion]) led after) := by
  unfold takeOver
  simp only [ensures_bind, ensures_own]
  refine (Unnoticed.disarmElection.keeps_shown shown).mono ?_ fun _ _ shown => .inl shown
  intro _ disarmed shown
  refine ((Unnoticed.arm _ _ _).keeps_shown shown).mono ?_ fun _ _ shown => .inl shown
  have self : disarmed.own.id = seat.id := congrArg Seat.id shown.seat
  intro heartbeat armed shown
  refine (modifyLedger_shows _ shown).mono ?_ fun _ _ => False.elim
  intro _ claimed shown
  rw [self] at shown
  refine (become_shows (.leader heartbeat) shown).mono ?_ ?_
  · intro _ led leading
    have voicing := leading.mono (List.subset_append_left said [led.own.seat.assertion])
    have voiced : led.own.seat.assertion ∈ said ++ [led.own.seat.assertion] := by simp
    refine (broadcast_shows registry voiced voicing).mono ?_ fun _ _ => False.elim
    intro _ after shown
    exact ⟨heartbeat, _, rfl, leading.seat ▸ shown⟩
  · intro _ after shown
    exact .inr ⟨heartbeat, _, rfl, shown.mono (List.subset_append_left _ _)⟩

/-- What every election comes to: a new term with a vote for oneself, and the requests for votes.
Where one vote is a quorum, the member takes over then. -/
theorem startElection_ensures
    {registry : Registry}
    {stage : Stage Member}
    {ledger : Ledger}
    {candidate : Seat}
    {done : Unit → Stage Member → Prop}
    {failed : Failure → Stage Member → Prop}
    (begun : stage.own.ledger.nextTerm = .ok ledger)
    (becomes : candidate =
      { stage.own.seat with
        ledger := ledger.voteFor stage.own.id
        standing := .candidate [stage.own.id] })
    (onArmed : ∀ armed, Shows stage [candidate.campaign] candidate armed →
      (if ledger.quorum ≤ 1 then takeOver registry else pure () : Act Member Unit).Ensures
        armed done failed)
    (onFailed : ∀ failure after, Shows stage [candidate.campaign] candidate after →
      failed failure after) :
    (startElection registry).Ensures stage done failed := by
  subst becomes
  unfold startElection
  simp only [ensures_bind, ensures_own, begun]
  refine (modifyLedger_shows _ (Shows.refl stage)).mono ?_ fun _ _ => False.elim
  intro _ voted shown
  refine (become_shows (.candidate [stage.own.id]) shown).mono ?_ ?_
  · intro _ standing shown
    have voicing := shown.mono (List.nil_subset [standing.own.seat.campaign])
    refine (broadcast_shows registry (List.mem_singleton_self _) voicing).mono ?_
      fun _ _ => False.elim
    rw [shown.seat]
    intro _ sent shown
    refine (Unnoticed.rearmElectionDrawn.keeps_shown shown).mono ?_ onFailed
    intro _ armed shown
    have quorum : armed.own.ledger.quorum = ledger.quorum := by
      apply Ledger.quorum_eq_of_membershipSize
      have voted : armed.own.ledger = ledger.voteFor stage.own.id :=
        congrArg Seat.ledger shown.seat
      rw [voted, Ledger.membershipSize_voteFor]
    rw [quorum]
    exact onArmed armed shown
  · intro failure after shown
    exact onFailed failure after (shown.mono (List.nil_subset _))

theorem startElection_turns
    (registry : Registry)
    (stage : Stage Member)
    (leadsNot : ¬ stage.own.seat.leads) :
    (startElection registry).Ensures stage
      (fun _ after => Turns (.timer .electionTimeout) stage (.ok none) after)
      (fun failure after => Turns (.timer .electionTimeout) stage (.error failure) after) := by
  cases begun : stage.own.ledger.nextTerm with
  | error cause =>
    unfold startElection
    simp only [ensures_bind, ensures_own, begun, ensures_throw]
    exact (Turn.unmoved (by simp)).turns (Shows.refl stage)
  | ok ledger =>
    have campaigned
        (failure : Failure) :=
      @Turn.campaigned stage.own.seat _ (.error failure) ledger (by simp) leadsNot begun (by simp)
        rfl
    refine startElection_ensures begun rfl ?_ fun failure _ => (campaigned failure).turns
    intro armed shown
    split
    · next alone =>
      have carried
          (answer : Except Failure (Option Response))
          (refused : Refuses answer)
          (heartbeat : Handle) :=
        @Turn.carried _ _ answer ledger heartbeat refused leadsNot begun alone rfl
      refine (takeOver_shows registry shown).mono ?_ ?_
      · rintro _ after ⟨heartbeat, led, rfl, shown⟩
        exact (carried _ (by simp) heartbeat).turns shown
      · rintro failure after (shown | ⟨heartbeat, led, rfl, shown⟩)
        · exact (campaigned failure).turns shown
        · exact (carried _ (by simp) heartbeat).turns shown
    · next contested =>
      exact (Turn.campaigned (by simp) leadsNot begun (fun _ => Nat.not_le.mp contested)
        rfl).turns shown

theorem onElectionTimeout_turns
    (registry : Registry)
    (stage : Stage Member) :
    (onElectionTimeout registry).Ensures stage
      (fun _ after => Turns (.timer .electionTimeout) stage (.ok none) after)
      (fun failure after => Turns (.timer .electionTimeout) stage (.error failure) after) := by
  unfold onElectionTimeout
  simp only [ensures_bind, ensures_own]
  split
  · exact (Turn.unmoved (by simp)).turns (Shows.refl stage)
  next leadsNot =>
  rw [← leads_seat_iff] at leadsNot
  split
  · exact startElection_turns registry stage leadsNot
  split
  · have rested
        (answer : Except Failure (Option Response))
        (refused : Refuses answer) :=
      @Turn.rested (.timer .electionTimeout) _ answer _ refused (.inl rfl) leadsNot
    rw [ensures_bind]
    refine (become_shows .follower (Shows.refl stage)).mono ?_ ?_
    · intro _ followed shown
      exact (Unnoticed.rearmElection _).turns shown (rested _ (by simp)) fun _ => rested _ (by simp)
    · intro failure after shown
      exact (rested _ (by simp)).turns shown
  · exact (Unnoticed.rearmElection _).turns (Shows.refl stage) (Turn.unmoved (by simp))
      fun _ => Turn.unmoved (by simp)

/-- Giving up the leadership is noticed as just that, even if the election timer is refused. -/
theorem stepDownWithoutQuorum_shows (stage : Stage Member) :
    let resigned :=
      { stage.own.seat with ledger := stage.own.ledger.setLeader none, standing := .follower }
    stepDownWithoutQuorum.Ensures stage
      (fun _ after => Shows stage [] resigned after)
      (fun _ after => Shows stage [] resigned after) := by
  intro resigned
  unfold stepDownWithoutQuorum
  rw [ensures_bind]
  refine (modifyLedger_shows _ (Shows.refl stage)).mono ?_ fun _ _ => False.elim
  intro _ cleared shown
  rw [ensures_bind]
  refine (become_shows .follower shown).mono ?_ fun _ _ => id
  exact fun _ followed shown => Unnoticed.rearmElectionDrawn.keeps_shown shown

theorem stepDownWithoutQuorum_turns
    {occasion : Occasion}
    (stage : Stage Member)
    (leads : stage.own.seat.leads) :
    stepDownWithoutQuorum.Ensures stage
      (fun _ after => Turns occasion stage (.ok none) after)
      (fun failure after => Turns occasion stage (.error failure) after) :=
  (stepDownWithoutQuorum_shows stage).mono
    (fun _ _ => (Turn.abdicated (by simp) leads).turns)
    fun _ _ => (Turn.abdicated (by simp) leads).turns

theorem onLeaderHeartbeat_turns
    (registry : Registry)
    (stage : Stage Member) :
    (onLeaderHeartbeat registry).Ensures stage
      (fun _ after => Turns (.timer .leaderHeartbeat) stage (.ok none) after)
      (fun failure after => Turns (.timer .leaderHeartbeat) stage (.error failure) after) := by
  unfold onLeaderHeartbeat
  simp only [ensures_bind, ensures_own]
  split
  · exact (Turn.unmoved (by simp)).turns (Shows.refl stage)
  next leading =>
  have leads : stage.own.seat.leads := by
    rw [leads_seat_iff]
    simpa using leading
  split
  · have voicing := (Shows.refl stage).mono (List.nil_subset [stage.own.seat.assertion])
    refine (broadcast_shows registry (List.mem_singleton_self _) voicing).mono ?_
      fun _ _ => False.elim
    intro _ after shown
    exact (Turn.asserted leads (by simp)).turns shown
  · exact stepDownWithoutQuorum_turns stage leads

/-! ## Answers and notifications -/

theorem onVoteResponse_turns
    (registry : Registry)
    (sender : NodeId)
    (term : Nat)
    (granted : Bool)
    (stage : Stage Member) :
    (onVoteResponse registry sender term granted).Ensures stage
      (fun _ after => Turns (.response sender (.vote term granted)) stage (.ok none) after)
      (fun failure after =>
        Turns (.response sender (.vote term granted)) stage (.error failure) after) := by
  unfold onVoteResponse
  rw [ensures_bind]
  refine (stepDownIfNewer_turns sender rfl stage).mono ?_ fun _ _ turn => turn
  intro stepped after outcome
  cases stepped with
  | true => exact outcome
  | false =>
    obtain ⟨rfl, notNewer⟩ := outcome
    simp only [Bool.false_eq_true, if_false, ensures_bind, ensures_own]
    split
    · next votes held =>
      split
      · next counting =>
        obtain ⟨current, rfl⟩ := counting
        have counted
            (answer : Except Failure (Option Response))
            (refused : Refuses answer) :=
          @Turn.counted sender after.own.seat answer term votes refused held current
        have shown :
            Shows after [] { after.own.seat with standing := .candidate (votes.insert sender) }
              { after with own.standing := .candidate (votes.insert sender) } :=
          ⟨rfl, Says.refl after⟩
        rw [ensures_bind, ensures_modifyOwn]
        split
        · next enough =>
          have won
              (answer : Except Failure (Option Response))
              (refused : Refuses answer)
              (heartbeat : Handle) :=
            @Turn.won sender after.own.seat _ answer term votes heartbeat refused held current
              enough rfl
          refine (takeOver_shows registry shown).mono ?_ ?_
          · rintro _ led ⟨heartbeat, _, rfl, shown⟩
            exact (won _ (by simp) heartbeat).turns shown
          · rintro failure led (shown | ⟨heartbeat, _, rfl, shown⟩)
            · exact (counted _ (by simp) (by simp)).turns shown
            · exact (won _ (by simp) heartbeat).turns shown
        · next short =>
          exact (counted _ (by simp) fun _ => Nat.not_le.mp short).turns shown
      · exact (Turn.unmoved (by simp)).turns (Shows.refl after)
    · exact (Turn.unmoved (by simp)).turns (Shows.refl after)

theorem onResponse_turns
    (registry : Registry)
    (sender : NodeId)
    (response : Response)
    (stage : Stage Member) :
    (onResponse registry sender response).Ensures stage
      (fun _ after => Turns (.response sender response) stage (.ok none) after)
      (fun failure after => Turns (.response sender response) stage (.error failure) after) := by
  unfold onResponse
  cases response with
  | heartbeat => exact (Turn.unmoved (by simp)).turns (Shows.refl stage)
  | vote term granted => exact onVoteResponse_turns registry sender term granted stage
  | leaderHeartbeat term accepted =>
    rw [ensures_bind]
    refine (stepDownIfNewer_turns sender rfl stage).mono ?_ fun _ _ turn => turn
    intro stepped after outcome
    cases stepped with
    | true => exact outcome
    | false =>
      obtain ⟨rfl, _⟩ := outcome
      exact (Turn.unmoved (by simp)).turns (Shows.refl after)

theorem onTimer_turns
    (registry : Registry)
    (event : TimerEvent)
    (stage : Stage Member) :
    (onTimer registry event).Ensures stage
      (fun _ after => Turns (.timer event) stage (.ok none) after)
      (fun failure after => Turns (.timer event) stage (.error failure) after) := by
  cases event with
  | electionTimeout => exact onElectionTimeout_turns registry stage
  | leaderHeartbeat => exact onLeaderHeartbeat_turns registry stage
  | peerKeepAlive id => exact (Turn.unmoved (by simp)).turns (Shows.refl stage)
  | peerTimeout id conn => exact (Turn.unmoved (by simp)).turns (Shows.refl stage)
  | connectionTimeout conn => exact (Turn.unmoved (by simp)).turns (Shows.refl stage)
  | reconnect id => exact (Turn.unmoved (by simp)).turns (Shows.refl stage)

theorem onPeerConnected_turns
    (registry : Registry)
    (peer : NodeId)
    (stage : Stage Member) :
    (onPeerConnected registry peer).Ensures stage
      (fun _ after => Turns (.peerConnected peer) stage (.ok none) after)
      (fun failure after => Turns (.peerConnected peer) stage (.error failure) after) := by
  unfold onPeerConnected
  rw [ensures_bind, ensures_own]
  split
  · next leading =>
    rw [← leads_seat_iff] at leading
    split
    · next conn _ =>
      have voicing := (Shows.refl stage).mono (List.nil_subset [stage.own.seat.assertion])
      refine (sendRequest_shows conn (List.mem_singleton_self _) voicing).mono ?_
        fun _ _ => False.elim
      intro _ after shown
      exact (Turn.asserted leading (by simp)).turns shown
    · exact (Turn.unmoved (by simp)).turns (Shows.refl stage)
  · exact (Turn.unmoved (by simp)).turns (Shows.refl stage)

theorem onPeerDisconnected_turns
    (registry : Registry)
    (stage : Stage Member) :
    (onPeerDisconnected registry).Ensures stage
      (fun _ after => Turns .peerDisconnected stage (.ok none) after)
      (fun failure after => Turns .peerDisconnected stage (.error failure) after) := by
  unfold onPeerDisconnected
  rw [ensures_bind, ensures_own]
  split
  · next stranded =>
    have leads := (leads_seat_iff stage.own).mpr (Bool.and_eq_true_iff.mp stranded).1
    exact stepDownWithoutQuorum_turns stage leads
  · exact (Turn.unmoved (by simp)).turns (Shows.refl stage)

theorem beginSync_turns (stage : Stage Member) :
    Member.beginSync.Ensures stage
      (fun _ after => Turns .beginSync stage (.ok none) after)
      (fun failure after => Turns .beginSync stage (.error failure) after) := by
  unfold Member.beginSync
  rw [ensures_bind, ensures_own]
  split
  · next following =>
    have rested
        (answer : Except Failure (Option Response))
        (refused : Refuses answer) :=
      @Turn.rested .beginSync stage.own.seat answer _ refused (.inr rfl)
        (by rw [leads_seat_iff]; simp [Member.isLeader, following])
    rw [ensures_bind]
    refine (become_shows .sync (Shows.refl stage)).mono ?_ ?_
    · intro _ after shown
      exact (rested _ (by simp)).turns shown
    · intro failure after shown
      exact (rested _ (by simp)).turns shown
  · exact (Turn.unmoved (by simp)).turns (Shows.refl stage)

theorem endSync_turns (stage : Stage Member) :
    Member.endSync.Ensures stage
      (fun _ after => Turns .endSync stage (.ok none) after)
      (fun failure after => Turns .endSync stage (.error failure) after) := by
  unfold Member.endSync
  rw [ensures_bind, ensures_own]
  split
  · next catchingUp =>
    have rested
        (answer : Except Failure (Option Response))
        (refused : Refuses answer) :=
      @Turn.rested .endSync stage.own.seat answer _ refused (.inl rfl)
        (by rw [leads_seat_iff]; simp [Member.isLeader, catchingUp])
    refine (become_shows .follower (Shows.refl stage)).mono ?_ ?_
    · intro _ after shown
      exact (rested _ (by simp)).turns shown
    · intro failure after shown
      exact (rested _ (by simp)).turns shown
  · exact (Turn.unmoved (by simp)).turns (Shows.refl stage)

/-- Every handler takes a turn, whatever stage it meets and whichever way it goes. -/
theorem handler_turns
    (registry : Registry)
    (occasion : Occasion)
    (stage : Stage Member) :
    Turns occasion stage
      ((occasion.handler registry).perform stage).1
      ((occasion.handler registry).perform stage).2 := by
  suffices ensured : (occasion.handler registry).Ensures stage
      (fun reply after => Turns occasion stage (.ok reply) after)
      (fun failure after => Turns occasion stage (.error failure) after) by
    unfold Ensures at ensured
    split at ensured
    · next performed => simpa only [performed] using ensured
    · next performed => simpa only [performed] using ensured
  cases occasion with
  | start =>
    exact (ensures_bind _ _).mpr (Unnoticed.rearmElectionDrawn.turns (Shows.refl stage)
      (Turn.unmoved (by simp)) fun _ => Turn.unmoved (by simp))
  | timer event => exact (ensures_bind _ _).mpr (onTimer_turns registry event stage)
  | request sender asked => exact onRequest_turns registry sender asked stage
  | response sender told =>
    exact (ensures_bind _ _).mpr (onResponse_turns registry sender told stage)
  | peerConnected peer =>
    exact (ensures_bind _ _).mpr (onPeerConnected_turns registry peer stage)
  | peerDisconnected =>
    exact (ensures_bind _ _).mpr (onPeerDisconnected_turns registry stage)
  | beginSync => exact (ensures_bind _ _).mpr (beginSync_turns stage)
  | endSync => exact (ensures_bind _ _).mpr (endSync_turns stage)
  | recordLog term index =>
    exact (Turn.recorded (by simp)).turns ⟨rfl, Says.refl stage⟩

end Quorum
