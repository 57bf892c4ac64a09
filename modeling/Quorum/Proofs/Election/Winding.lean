import Quorum.Proofs.Election.Clockwork

/-!
# Handlers keep the timers wound

Every handler of a member that answers leaves the clockwork `Wound`: armed or leading.  From there a
run of a member is followed step by step.  When a fired election timer is received it leaves the
timers before its handler runs, so that this one handler starts from a loose clockwork.
-/

namespace Quorum

open Act Member

/-- Whether an occasion comes from outside: not from the timers, and not the start. -/
def Occasion.isCall : Occasion → Bool
  | start => false
  | timer _ => false
  | _ => true

section Handling

variable {config : NodeConfig} {stage : Stage Member}

/-- What arms the election timer winds the clockwork. -/
theorem winds_of_arms
    {α : Type}
    {act : Act Member α}
    (arms : act.Ensures stage (fun _ after => after.clockwork.Armed config) fun _ _ => True) :
    act.Ensures stage (fun _ after => after.clockwork.Wound config) fun _ _ => True :=
  arms.mono (fun _ _ => .inl) fun _ _ => id

/-- A member that gives way goes on with a loose clockwork. -/
theorem yielding_loosens
    {α : Type}
    {rest : Unit → Act Member α}
    {done : α → Stage Member → Prop}
    (wound : stage.clockwork.Wound config)
    (onRest : ∀ after, after.clockwork.Loose config →
      (rest ()).Ensures after done fun _ _ => True) :
    Ensures
      (match stage.own.role with
        | .candidate => become .follower >>= rest
        | .leader => become .follower >>= rest
        | .follower => rest ()
        | .sync => rest ()) stage done fun _ _ => True := by
  refine ensures_yielding (fun _ => ?_) fun resting => ?_
  · refine (become_changes .follower stage).andThen ?_
    intro _ after changed
    exact onRest after (changed ▸ wound.become (by decide))
  · have leadsNot : stage.clockwork.standing.role ≠ .leader := Standing.leadsNot_of_resting resting
    exact onRest stage (wound.armed_of_leadsNot leadsNot).loose

theorem onVoteRequest_winds
    (candidate : NodeId)
    (term lastLogTerm lastLogIndex : Nat)
    (wound : stage.clockwork.Wound config) :
    (onVoteRequest candidate term lastLogTerm lastLogIndex).Ensures stage
      (fun _ after => after.clockwork.Wound config) fun _ _ => True := by
  unfold onVoteRequest
  simp only [ensures_bind, ensures_own]
  split
  · refine ((Unwatched.modifyLedger _).ensures wound).andThen ?_
    intro _ voted wound
    simp only [ensures_bind, ensures_own]
    refine yielding_loosens wound ?_
    intro yielded loose
    simp only [ensures_bind, ensures_own, ensures_pure]
    refine winds_of_arms (rearmElection_arms loose ?_)
    rw [← loose.window_eq]
    exact Window.admits_longest _
  · exact wound

/-- A response of a newer term arms the election timer anew; any other one changes nothing. -/
theorem stepDownIfNewer_winds
    (term : Nat)
    (wound : stage.clockwork.Wound config) :
    (stepDownIfNewer term).Ensures stage
      (fun _ after => after.clockwork.Wound config) fun _ _ => True := by
  unfold stepDownIfNewer
  simp only [ensures_bind, ensures_own]
  split
  · refine ((Unwatched.modifyLedger _).ensures wound).andThen ?_
    intro _ advanced wound
    simp only [ensures_bind, ensures_own]
    refine yielding_loosens wound ?_
    intro yielded loose
    simp only [ensures_bind, ensures_pure]
    exact winds_of_arms (rearmElectionDrawn_arms loose)
  · exact wound

theorem onAssertionAsFollower_winds
    (term : Nat)
    (leader : NodeId)
    (armed : stage.clockwork.Armed config) :
    (onAssertionAsFollower term leader).Ensures stage
      (fun _ after => after.clockwork.Wound config) fun _ _ => True := by
  have accepts (after : Stage Member) (same : after.clockwork.Armed config) :
      (do rearmElectionDrawn; return some (.leaderHeartbeat term true) :
        Act Member (Option Response)).Ensures after
          (fun _ after => after.clockwork.Wound config) fun _ _ => True := by
    simp only [ensures_bind, ensures_pure]
    exact winds_of_arms (rearmElectionDrawn_arms same.loose)
  unfold onAssertionAsFollower acceptLeader
  simp only [ensures_bind, ensures_own]
  split
  · exact .inl armed
  split
  · refine ((Unwatched.modifyLedger _).ensures armed).andThen ?_
    intro _ advanced armed
    refine ((Unwatched.modifyLedger _).ensures armed).andThen ?_
    intro _ noted armed
    exact accepts noted armed
  split
  · refine ((Unwatched.modifyLedger _).ensures armed).andThen ?_
    intro _ noted armed
    exact accepts noted armed
  split
  · exact .inl armed
  · exact accepts stage armed

theorem yieldTo_winds
    (term : Nat)
    (leader : NodeId)
    (wound : stage.clockwork.Wound config) :
    (yieldTo term leader).Ensures stage
      (fun _ after => after.clockwork.Wound config) fun _ _ => True := by
  unfold yieldTo acceptLeader
  refine ((Unwatched.modifyLedger _).ensures wound).andThen ?_
  intro _ advanced wound
  refine ((Unwatched.modifyLedger _).ensures wound).andThen ?_
  intro _ noted wound
  refine (become_changes .follower noted).andThen ?_
  intro _ followed changed
  have loose : followed.clockwork.Loose config := changed ▸ wound.become (by decide)
  rw [ensures_bind]
  exact winds_of_arms (rearmElectionDrawn_arms loose)

theorem onAssertionAsLeader_winds
    (registry : Registry)
    (term : Nat)
    (leader : NodeId)
    (wound : stage.clockwork.Wound config) :
    (onAssertionAsLeader registry term leader).Ensures stage
      (fun _ after => after.clockwork.Wound config) fun _ _ => True := by
  unfold onAssertionAsLeader
  simp only [ensures_bind, ensures_own]
  split
  · split
    · refine ((Unwatched.sendRequest _ _).ensures wound).andThen ?_
      intro _ sent wound
      exact wound
    · exact wound
  split
  · exact wound
  · exact yieldTo_winds term leader wound

theorem onRequest_winds
    (registry : Registry)
    (sender : NodeId)
    (request : Request)
    (wound : stage.clockwork.Wound config) :
    (onRequest registry sender request).Ensures stage
      (fun _ after => after.clockwork.Wound config) fun _ _ => True := by
  unfold onRequest
  cases request with
  | heartbeat id => exact wound
  | vote term lastLogTerm lastLogIndex =>
      simp only [ensures_bind, ensures_pure]
      exact onVoteRequest_winds sender term lastLogTerm lastLogIndex wound
  | leaderHeartbeat term leader =>
      simp only [ensures_bind, ensures_own]
      split
      · next follows =>
        exact onAssertionAsFollower_winds term leader (wound.armed_of_role follows (by decide))
      · next syncs =>
        exact onAssertionAsFollower_winds term leader (wound.armed_of_role syncs (by decide))
      · unfold onAssertionAsCandidate
        simp only [ensures_bind, ensures_own]
        split
        · exact wound
        · exact yieldTo_winds term leader wound
      · exact onAssertionAsLeader_winds registry term leader wound

theorem startElection_winds
    (registry : Registry)
    (loose : stage.clockwork.Loose config) :
    (startElection registry).Ensures stage
      (fun _ after => after.clockwork.Wound config) fun _ _ => True := by
  unfold startElection
  simp only [ensures_bind, ensures_own]
  split
  · trivial
  refine ((Unwatched.modifyLedger _).ensures loose).andThen ?_
  intro _ voted loose
  refine (become_changes (.candidate [stage.own.id]) voted).andThen ?_
  intro _ standing changed
  have loose : standing.clockwork.Loose config :=
    changed ▸ loose.become (Clockwork.candidate_leadsNot _)
  rw [ensures_bind, ensures_own]
  refine ((Unwatched.broadcast registry _).ensures loose).andThen ?_
  intro _ sent loose
  refine (rearmElectionDrawn_arms loose).andThen ?_
  intro _ rearmed armed
  rw [ensures_bind, ensures_own]
  split
  · exact (takeOver_leads registry armed.loose).mono (fun _ _ => .inr) fun _ _ => id
  · exact .inl armed

/-- The handler of a fired election timer arms a new one, or leads.  It does not need the old one to
be there. -/
theorem onElectionTimeout_winds
    (registry : Registry)
    (loose : stage.clockwork.Loose config) :
    (onElectionTimeout registry).Ensures stage
      (fun _ after => after.clockwork.Wound config) fun _ _ => True := by
  unfold onElectionTimeout
  simp only [ensures_bind, ensures_own]
  split
  · next leads => exact absurd (of_decide_eq_true leads) loose.leadsNot
  split
  · exact startElection_winds registry loose
  split
  · refine (become_changes .follower stage).andThen ?_
    intro _ followed changed
    have rested : followed.clockwork.Loose config := changed ▸ loose.become (by decide)
    exact winds_of_arms (rearmElection_arms rested loose.admitted)
  · exact winds_of_arms (rearmElection_arms loose loose.admitted)

theorem stepDownWithoutQuorum_winds (wound : stage.clockwork.Wound config) :
    stepDownWithoutQuorum.Ensures stage
      (fun _ after => after.clockwork.Wound config) fun _ _ => True := by
  unfold stepDownWithoutQuorum
  refine ((Unwatched.modifyLedger _).ensures wound).andThen ?_
  intro _ cleared wound
  refine (become_changes .follower cleared).andThen ?_
  intro _ followed changed
  have loose : followed.clockwork.Loose config := changed ▸ wound.become (by decide)
  exact winds_of_arms (rearmElectionDrawn_arms loose)

theorem onLeaderHeartbeat_winds
    (registry : Registry)
    (wound : stage.clockwork.Wound config) :
    (onLeaderHeartbeat registry).Ensures stage
      (fun _ after => after.clockwork.Wound config) fun _ _ => True := by
  unfold onLeaderHeartbeat
  simp only [ensures_bind, ensures_own]
  split
  · exact wound
  split
  · exact (Unwatched.broadcast registry _).ensures wound
  · exact stepDownWithoutQuorum_winds wound

theorem onVoteResponse_winds
    (registry : Registry)
    (sender : NodeId)
    (term : Nat)
    (granted : Bool)
    (wound : stage.clockwork.Wound config) :
    (onVoteResponse registry sender term granted).Ensures stage
      (fun _ after => after.clockwork.Wound config) fun _ _ => True := by
  unfold onVoteResponse
  refine (stepDownIfNewer_winds term wound).andThen ?_
  intro stepped after wound
  cases stepped with
  | true => exact wound
  | false =>
      simp only [Bool.false_eq_true, if_false, ensures_bind, ensures_own]
      split
      · next votes standing =>
        split
        · have leadsNot : after.clockwork.standing.role ≠ .leader := by
            rw [show after.clockwork.standing = _ from standing]
            exact Clockwork.candidate_leadsNot votes
          have counted : Clockwork.Armed config
              { after.clockwork with standing := .candidate (votes.insert sender) } := by
            have armed := (wound.armed_of_leadsNot leadsNot).become
              (Clockwork.candidate_leadsNot (votes.insert sender))
            rw [Clockwork.become_of_leadsNot leadsNot] at armed
            exact armed
          rw [ensures_bind, ensures_modifyOwn]
          split
          · apply (takeOver_leads registry _).mono (fun _ _ => .inr) fun _ _ => id
            exact counted.loose
          · exact .inl counted
        · exact wound
      · exact wound

theorem onResponse_winds
    (registry : Registry)
    (sender : NodeId)
    (response : Response)
    (wound : stage.clockwork.Wound config) :
    (onResponse registry sender response).Ensures stage
      (fun _ after => after.clockwork.Wound config) fun _ _ => True := by
  unfold onResponse
  cases response with
  | heartbeat => exact wound
  | vote term granted => exact onVoteResponse_winds registry sender term granted wound
  | leaderHeartbeat term accepted =>
      simp only [ensures_bind, ensures_pure]
      exact stepDownIfNewer_winds term wound

theorem onPeerConnected_winds
    (registry : Registry)
    (peer : NodeId)
    (wound : stage.clockwork.Wound config) :
    (onPeerConnected registry peer).Ensures stage
      (fun _ after => after.clockwork.Wound config) fun _ _ => True := by
  unfold onPeerConnected
  simp only [ensures_bind, ensures_own]
  split
  · split
    · exact (Unwatched.sendRequest _ _).ensures wound
    · exact wound
  · exact wound

theorem onPeerDisconnected_winds
    (registry : Registry)
    (wound : stage.clockwork.Wound config) :
    (onPeerDisconnected registry).Ensures stage
      (fun _ after => after.clockwork.Wound config) fun _ _ => True := by
  unfold onPeerDisconnected
  simp only [ensures_bind, ensures_own]
  split
  · exact stepDownWithoutQuorum_winds wound
  · exact wound

/-- A follower that begins to catch up, or goes back, keeps its timer. -/
theorem become_keeps
    {next : Standing}
    {role : Role}
    (wound : stage.clockwork.Wound config)
    (plays : stage.own.role = role)
    (leadsNot : role ≠ .leader)
    (rests : next.role ≠ .leader) :
    (become next).Ensures stage
      (fun _ after => after.clockwork.Wound config) fun _ _ => True := by
  refine (become_changes next stage).mono ?_ fun _ _ => id
  intro _ after changed
  rw [changed]
  exact .inl ((wound.armed_of_role plays leadsNot).become rests)

theorem beginSync_winds (wound : stage.clockwork.Wound config) :
    beginSync.Ensures stage
      (fun _ after => after.clockwork.Wound config) fun _ _ => True := by
  unfold beginSync
  simp only [ensures_bind, ensures_own]
  split
  · next follows =>
    rw [ensures_bind]
    exact become_keeps wound follows (by decide) (by decide)
  · exact wound

theorem endSync_winds (wound : stage.clockwork.Wound config) :
    endSync.Ensures stage
      (fun _ after => after.clockwork.Wound config) fun _ _ => True := by
  unfold endSync
  simp only [ensures_bind, ensures_own]
  split
  · next syncs => exact become_keeps wound syncs (by decide) (by decide)
  · exact wound

/-- Whatever a member is asked to do by others, it stays wound. -/
theorem handler_winds
    (registry : Registry)
    {occasion : Occasion}
    (called : occasion.isCall = true)
    (wound : stage.clockwork.Wound config) :
    (occasion.handler registry).Ensures stage
      (fun _ after => after.clockwork.Wound config) fun _ _ => True := by
  cases occasion with
  | start => cases called
  | timer event => cases called
  | request sender asked => exact onRequest_winds registry sender asked wound
  | response sender told =>
      unfold Occasion.handler
      rw [ensures_bind]
      exact onResponse_winds registry sender told wound
  | peerConnected peer =>
      unfold Occasion.handler
      rw [ensures_bind]
      exact onPeerConnected_winds registry peer wound
  | peerDisconnected =>
      unfold Occasion.handler
      rw [ensures_bind]
      exact onPeerDisconnected_winds registry wound
  | beginSync =>
      unfold Occasion.handler
      rw [ensures_bind]
      exact beginSync_winds wound
  | endSync =>
      unfold Occasion.handler
      rw [ensures_bind]
      exact endSync_winds wound
  | recordLog term index =>
      unfold Occasion.handler
      rw [ensures_bind]
      exact (Unwatched.modifyLedger _).ensures wound

end Handling

end Quorum
