import Quorum.Proofs.Election.Clockwork
import Quorum.Proofs.Election.Turn

/-!
# Manners of a member

Most handlers of a member are put together from a few parts, which change the ledger or the
standing, arm the election timer, or send something.  What holds of these parts and is passed on
when they are put together is a `Bearing`, and then it holds of every handler but one.  The election
timer begins a new term, and this is lost if there is none.  A `Manner` puts up with that as well,
and holds of every handler.

Both may rest on what is known of a member whenever it is looked at, and on what is known of the
delays that the election timer is armed with.
-/

namespace Quorum

/-- A message other than the request by which a node tells who it is.  An election asks for nothing
else. -/
def Ask.isTalk : Ask → Bool
  | send _ (.request (.heartbeat _)) => false
  | send _ _ => true
  | connect _ | close _ => false

namespace Member

open Act

/-- A candidate counts a vote that was granted in its term. -/
def countVote (registry : Registry) (sender : NodeId) (term : Nat) (granted : Bool) :
    Act Member Unit := do
  let member ← own
  match member.standing with
  | .candidate votes =>
    if term = member.ledger.currentTerm ∧ granted then
      let counted := votes.insert sender
      modifyOwn fun held => { held with standing := .candidate counted }
      if member.ledger.quorum ≤ counted.length then
        takeOver registry
  | _ => return

/-- What the parts of the handlers have in common, and what is put together from them. -/
structure Bearing
    (keeps : {α : Type} → Act Member α → Prop)
    (known : Member → Prop)
    (suits : Delay → Prop) : Prop where
  pure : ∀ {α : Type} (value : α), keeps (Pure.pure value)
  bind : ∀ {α β : Type} {act : Act Member α} {next : α → Act Member β},
    keeps act → (∀ value, keeps (next value)) → keeps (act >>= next)
  own_bind : ∀ {α : Type} {next : Member → Act Member α},
    (∀ member, known member → keeps (next member)) → keeps (Act.own >>= next)
  ask : ∀ {wish : Ask}, wish.isTalk = true → keeps (Act.ask wish)
  modifyLedger : ∀ change, keeps (Member.modifyLedger change)
  /-- Becoming anything but a leader. -/
  become : ∀ {standing : Standing}, standing.role ≠ .leader → keeps (Member.become standing)
  rearmElection : ∀ {delay}, suits delay → keeps (Member.rearmElection delay)
  rearmElectionDrawn : keeps Member.rearmElectionDrawn
  takeOver : ∀ registry, keeps (Member.takeOver registry)
  countVote : ∀ registry sender term granted,
    keeps (Member.countVote registry sender term granted)
  longest : ∀ {member}, known member → suits member.window.longest
  present : ∀ {member}, known member → suits member.electionDelay

/-- The same, and the fault with which an election ends if there is no next term. -/
structure Manner
    (keeps : {α : Type} → Act Member α → Prop)
    (known : Member → Prop)
    (suits : Delay → Prop) : Prop extends Bearing keeps known suits where
  overflow : ∀ {α : Type}, keeps (throw (.fault .overflow) : Act Member α)

namespace Bearing

variable
    {keeps : {α : Type} → Act Member α → Prop}
    {known : Member → Prop}
    {suits : Delay → Prop}
    (bearing : Bearing keeps known suits)

include bearing

theorem broadcast
    (registry : Registry)
    {request : Request}
    (talks : ∀ conn, (Ask.send conn (.request request)).isTalk = true) :
    keeps (Member.broadcast registry request) := by
  unfold Member.broadcast
  induction registry.connections with
  | nil => exact bearing.pure ()
  | cons conn rest ih => exact bearing.bind (bearing.ask (talks conn)) fun _ => ih

theorem stepDownWithoutQuorum : keeps Member.stepDownWithoutQuorum :=
  bearing.bind (bearing.modifyLedger _) fun _ =>
    bearing.bind (bearing.become nofun) fun _ => bearing.rearmElectionDrawn

/-- A member gives way if it campaigns or leads, and goes on. -/
theorem yielding
    {α : Type}
    {rest : Unit → Act Member α}
    (role : Role)
    (onward : keeps (rest ())) :
    keeps
      (match role with
        | .candidate => Member.become .follower >>= rest
        | .leader => Member.become .follower >>= rest
        | .follower => rest ()
        | .sync => rest ()) := by
  have yields : keeps (Member.become .follower >>= rest) :=
    bearing.bind (bearing.become nofun) fun _ => onward
  cases role with
  | candidate | leader => exact yields
  | follower | sync => exact onward

theorem stepDownIfNewer (term : Nat) : keeps (Member.stepDownIfNewer term) := by
  refine bearing.own_bind fun member _ => ?_
  split
  · refine bearing.bind (bearing.modifyLedger _) fun _ => bearing.own_bind fun advanced _ => ?_
    exact bearing.yielding _ (bearing.bind bearing.rearmElectionDrawn fun _ => bearing.pure true)
  · exact bearing.pure false

/-- A campaign in the term that has been begun. -/
theorem campaign (registry : Registry) (votes : List NodeId) :
    keeps (do
      Member.become (.candidate votes)
      Member.broadcast registry (← Act.own).campaign
      Member.rearmElectionDrawn
      if (← Act.own).ledger.quorum ≤ 1 then
        Member.takeOver registry) := by
  refine bearing.bind (bearing.become nofun) fun _ => bearing.own_bind fun member _ => ?_
  refine bearing.bind (bearing.broadcast registry fun _ => rfl) fun _ => ?_
  refine bearing.bind bearing.rearmElectionDrawn fun _ => bearing.own_bind fun member _ => ?_
  split
  · exact bearing.takeOver registry
  · exact bearing.pure ()

theorem onLeaderHeartbeat (registry : Registry) : keeps (Member.onLeaderHeartbeat registry) := by
  refine bearing.own_bind fun member _ => ?_
  split
  · exact bearing.pure ()
  split
  · exact bearing.broadcast registry fun _ => rfl
  · exact bearing.stepDownWithoutQuorum

theorem onVoteRequest (candidate : NodeId) (term lastLogTerm lastLogIndex : Nat) :
    keeps (Member.onVoteRequest candidate term lastLogTerm lastLogIndex) := by
  refine bearing.own_bind fun member _ => ?_
  dsimp only
  split
  · refine bearing.bind (bearing.modifyLedger _) fun _ => bearing.own_bind fun voted _ => ?_
    refine bearing.yielding _ (bearing.own_bind fun _ knows => ?_)
    exact bearing.bind (bearing.rearmElection (bearing.longest knows)) fun _ => bearing.pure _
  · exact bearing.pure _

theorem onAssertionAsFollower (term : Nat) (leader : NodeId) :
    keeps (Member.onAssertionAsFollower term leader) := by
  have accepts : keeps (do
      Member.rearmElectionDrawn
      return some (.leaderHeartbeat term true) : Act Member (Option Response)) :=
    bearing.bind bearing.rearmElectionDrawn fun _ => bearing.pure _
  refine bearing.own_bind fun member _ => ?_
  dsimp only
  split
  · exact bearing.pure _
  split
  · refine bearing.bind (bearing.modifyLedger _) fun _ => ?_
    exact bearing.bind (bearing.modifyLedger _) fun _ => accepts
  split
  · exact bearing.bind (bearing.modifyLedger _) fun _ => accepts
  split
  · exact bearing.pure _
  · exact accepts

theorem yieldTo (term : Nat) (leader : NodeId) : keeps (Member.yieldTo term leader) := by
  refine bearing.bind (bearing.modifyLedger _) fun _ => ?_
  refine bearing.bind (bearing.modifyLedger _) fun _ => ?_
  refine bearing.bind (bearing.become nofun) fun _ => ?_
  exact bearing.bind bearing.rearmElectionDrawn fun _ => bearing.pure _

theorem onAssertionAsCandidate (term : Nat) (leader : NodeId) :
    keeps (Member.onAssertionAsCandidate term leader) := by
  refine bearing.own_bind fun member _ => ?_
  dsimp only
  split
  · exact bearing.pure _
  · exact bearing.yieldTo term leader

theorem onAssertionAsLeader (registry : Registry) (term : Nat) (leader : NodeId) :
    keeps (Member.onAssertionAsLeader registry term leader) := by
  refine bearing.own_bind fun member _ => ?_
  split
  · split
    · exact bearing.bind (bearing.ask rfl) fun _ => bearing.pure _
    · exact bearing.pure _
  split
  · exact bearing.pure _
  · exact bearing.yieldTo term leader

theorem onRequest (registry : Registry) (sender : NodeId) (request : Request) :
    keeps (Member.onRequest registry sender request) := by
  cases request with
  | heartbeat id => exact bearing.pure _
  | vote term lastLogTerm lastLogIndex =>
      exact bearing.bind (bearing.onVoteRequest sender term lastLogTerm lastLogIndex) fun _ =>
        bearing.pure _
  | leaderHeartbeat term leader =>
      refine bearing.own_bind fun member _ => ?_
      split
      · exact bearing.onAssertionAsFollower term leader
      · exact bearing.onAssertionAsFollower term leader
      · exact bearing.onAssertionAsCandidate term leader
      · exact bearing.onAssertionAsLeader registry term leader

theorem onVoteResponse (registry : Registry) (sender : NodeId) (term : Nat) (granted : Bool) :
    keeps (Member.onVoteResponse registry sender term granted) := by
  refine bearing.bind (bearing.stepDownIfNewer term) fun stepped => ?_
  split
  · exact bearing.pure ()
  · exact bearing.countVote registry sender term granted

theorem onResponse (registry : Registry) (sender : NodeId) (response : Response) :
    keeps (Member.onResponse registry sender response) := by
  cases response with
  | heartbeat => exact bearing.pure ()
  | vote term granted => exact bearing.onVoteResponse registry sender term granted
  | leaderHeartbeat term accepted =>
      exact bearing.bind (bearing.stepDownIfNewer term) fun _ => bearing.pure ()

/-- Every timer but that of the election. -/
theorem onTimer
    (registry : Registry)
    {event : TimerEvent}
    (other : event ≠ .electionTimeout) :
    keeps (Member.onTimer registry event) := by
  cases event with
  | electionTimeout => exact absurd rfl other
  | leaderHeartbeat => exact bearing.onLeaderHeartbeat registry
  | peerKeepAlive | peerTimeout | connectionTimeout | reconnect => exact bearing.pure ()

theorem onPeerConnected (registry : Registry) (peer : NodeId) :
    keeps (Member.onPeerConnected registry peer) := by
  refine bearing.own_bind fun member _ => ?_
  split
  · split
    · exact bearing.ask rfl
    · exact bearing.pure ()
  · exact bearing.pure ()

theorem onPeerDisconnected (registry : Registry) :
    keeps (Member.onPeerDisconnected registry) := by
  refine bearing.own_bind fun member _ => ?_
  split
  · exact bearing.stepDownWithoutQuorum
  · exact bearing.pure ()

end Bearing

namespace Manner

variable
    {keeps : {α : Type} → Act Member α → Prop}
    {known : Member → Prop}
    {suits : Delay → Prop}
    (manner : Manner keeps known suits)

include manner

theorem startElection (registry : Registry) : keeps (Member.startElection registry) := by
  refine manner.own_bind fun member _ => ?_
  split
  · next cause lost =>
    have overflow : cause = .overflow := by
      rcases bind_eq_error_iff.mp lost with sum | ⟨_, _, begun⟩
      · exact (Word.add_eq_error sum).2
      · cases begun
    subst overflow
    exact manner.bind manner.overflow fun _ => manner.campaign registry _
  · exact manner.bind (manner.modifyLedger _) fun _ => manner.campaign registry _

theorem onElectionTimeout (registry : Registry) : keeps (Member.onElectionTimeout registry) := by
  refine manner.own_bind fun member knows => ?_
  have rearms := manner.rearmElection (manner.present knows)
  split
  · exact manner.pure ()
  split
  · exact manner.startElection registry
  split
  · exact manner.bind (manner.become nofun) fun _ => rearms
  · exact rearms

theorem onTimer (registry : Registry) (event : TimerEvent) :
    keeps (Member.onTimer registry event) := by
  by_cases electoral : event = .electionTimeout
  · subst electoral
    exact manner.onElectionTimeout registry
  · exact manner.toBearing.onTimer registry electoral

/-- Whatever the occasion is. -/
theorem occasion (registry : Registry) (occasion : Occasion) :
    keeps (occasion.handler registry) := by
  have silently {α : Type} {act : Act Member α} (kept : keeps act) :
      keeps (do let _ ← act; return (none : Option Response)) :=
    manner.bind kept fun _ => manner.pure none
  cases occasion with
  | start => exact silently manner.rearmElectionDrawn
  | timer event => exact silently (manner.onTimer registry event)
  | request sender request => exact manner.onRequest registry sender request
  | response sender response => exact silently (manner.onResponse registry sender response)
  | peerConnected peer => exact silently (manner.onPeerConnected registry peer)
  | peerDisconnected => exact silently (manner.onPeerDisconnected registry)
  | beginSync =>
      refine silently (manner.own_bind fun member _ => ?_)
      split
      · exact manner.bind (manner.become nofun) fun _ => manner.pure true
      · exact manner.pure false
  | endSync =>
      refine silently (manner.own_bind fun member _ => ?_)
      split
      · exact manner.become nofun
      · exact manner.pure ()
  | recordLog term index => exact silently (manner.modifyLedger _)

end Manner

/-! ## Elementary acts -/

/-- What the elementary acts of a member have in common.  The member may change in every respect but
the delays that it was given, and may come to use another delay that suits. -/
structure Habit
    (keeps : {α : Type} → Act Member α → Prop)
    (known : Member → Prop)
    (suits : Delay → Prop) : Prop where
  pure : ∀ {α : Type} (value : α), keeps (Pure.pure value)
  bind : ∀ {α β : Type} {act : Act Member α} {next : α → Act Member β},
    keeps act → (∀ value, keeps (next value)) → keeps (act >>= next)
  own_bind : ∀ {α : Type} {next : Member → Act Member α},
    (∀ member, known member → keeps (next member)) → keeps (Act.own >>= next)
  modifyOwn : ∀ {change : Member → Member},
    (∀ own, known own → known (change own)) → keeps (Act.modifyOwn change)
  ask : ∀ wish, keeps (Act.ask wish)
  cancel : ∀ handle, keeps (Act.cancel handle)
  draw_bind : ∀ {α : Type} {window : Window} {next : Delay → Act Member α},
    (∀ delay, window.Admits delay → keeps (next delay)) → keeps (Act.draw window >>= next)
  datedClockMs : keeps Act.datedClockMs
  arm : ∀ {delay}, suits delay → ∀ event repeats, keeps (Act.arm delay event repeats)
  kept : ∀ {own next : Member}, known own → next.window = own.window →
    next.heartbeatInterval = own.heartbeatInterval → suits next.electionDelay → known next
  window : ∀ {member}, known member → ∀ delay, member.window.Admits delay → suits delay
  heartbeat : ∀ {member}, known member → suits member.heartbeatInterval
  election : ∀ {member}, known member → suits member.electionDelay

namespace Habit

variable
    {keeps : {α : Type} → Act Member α → Prop}
    {known : Member → Prop}
    {suits : Delay → Prop}
    (habit : Habit keeps known suits)

include habit

/-- Changing anything but the delays. -/
theorem change
    {change : Member → Member}
    (window_eq : ∀ own, (change own).window = own.window)
    (heartbeat_eq : ∀ own, (change own).heartbeatInterval = own.heartbeatInterval)
    (election_eq : ∀ own, (change own).electionDelay = own.electionDelay) :
    keeps (Act.modifyOwn change) := by
  refine habit.modifyOwn fun own knows => habit.kept knows (window_eq own) (heartbeat_eq own) ?_
  rw [election_eq]
  exact habit.election knows

theorem modifyLedger (change : Ledger → Ledger) : keeps (Member.modifyLedger change) :=
  habit.change (fun _ => rfl) (fun _ => rfl) fun _ => rfl

theorem become (standing : Standing) : keeps (Member.become standing) := by
  have dated : keeps (do
      Act.modifyOwn fun member => { member with standing }
      let sinceMs ← Act.datedClockMs
      Act.modifyOwn fun member => { member with sinceMs }) := by
    refine habit.bind (habit.change (fun _ => rfl) (fun _ => rfl) fun _ => rfl) fun _ => ?_
    refine habit.bind habit.datedClockMs fun _ => ?_
    exact habit.change (fun _ => rfl) (fun _ => rfl) fun _ => rfl
  refine habit.own_bind fun member _ => ?_
  split
  · exact habit.bind (habit.cancel _) fun _ => dated
  · exact dated

theorem disarmElection : keeps Member.disarmElection := by
  have cancels (task : Option Handle) : keeps (Act.cancelIfAny task) := by
    cases task with
    | none => exact habit.pure ()
    | some held => exact habit.cancel held
  refine habit.own_bind fun _ _ => habit.bind (cancels _) fun _ => ?_
  exact habit.change (fun _ => rfl) (fun _ => rfl) fun _ => rfl

/-- The delay suits, and so it does when it is used again. -/
theorem rearmElection {delay : Delay} (suited : suits delay) :
    keeps (Member.rearmElection delay) := by
  refine habit.bind habit.disarmElection fun _ => habit.bind (habit.arm suited _ _) fun _ => ?_
  exact habit.modifyOwn fun _ knows => habit.kept knows rfl rfl suited

theorem rearmElectionDrawn : keeps Member.rearmElectionDrawn :=
  habit.own_bind fun _ knows => habit.draw_bind fun delay admitted =>
    habit.rearmElection (habit.window knows delay admitted)

theorem broadcast (registry : Registry) (request : Request) :
    keeps (Member.broadcast registry request) := by
  unfold Member.broadcast
  induction registry.connections with
  | nil => exact habit.pure ()
  | cons conn rest ih => exact habit.bind (habit.ask _) fun _ => ih

theorem takeOver (registry : Registry) : keeps (Member.takeOver registry) := by
  refine habit.bind habit.disarmElection fun _ => habit.own_bind fun member knows => ?_
  refine habit.bind (habit.arm (habit.heartbeat knows) _ _) fun heartbeat => ?_
  refine habit.bind (habit.modifyLedger _) fun _ => habit.bind (habit.become _) fun _ => ?_
  exact habit.own_bind fun leader _ => habit.broadcast registry leader.assertion

theorem countVote (registry : Registry) (sender : NodeId) (term : Nat) (granted : Bool) :
    keeps (Member.countVote registry sender term granted) := by
  refine habit.own_bind fun member _ => ?_
  split
  · split
    · refine habit.bind (habit.change (fun _ => rfl) (fun _ => rfl) fun _ => rfl) fun _ => ?_
      split
      · exact habit.takeOver registry
      · exact habit.pure ()
    · exact habit.pure ()
  · exact habit.pure ()

/-- A habit is a bearing. -/
theorem bearing : Bearing keeps known suits where
  pure := habit.pure
  bind := habit.bind
  own_bind := habit.own_bind
  ask := fun _ => habit.ask _
  modifyLedger := habit.modifyLedger
  become := fun _ => habit.become _
  rearmElection := habit.rearmElection
  rearmElectionDrawn := habit.rearmElectionDrawn
  takeOver := habit.takeOver
  countVote := habit.countVote
  longest := fun knows => habit.window knows _ (Window.admits_longest _)
  present := habit.election

end Habit

end Member

end Quorum
