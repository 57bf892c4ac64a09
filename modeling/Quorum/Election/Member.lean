import Quorum.Act
import Quorum.Election.Ledger
import Quorum.Peers.Registry

/-!
# The election

A member follows a leader, campaigns for leadership, or leads. It keeps one election timer armed
while it does not lead, and one recurring heartbeat while it does.

- When the election timer fires and enough peers are connected, the member begins a new term, votes
  for itself and asks all connected peers for their votes.
- It grants a vote in a newer term to a candidate whose log is at least as recent as its own, and
  then gives that candidate the longest election timeout to finish.
- With a quorum of votes it leads: it asserts itself at once and then once per heartbeat interval,
  and steps down when it can no longer reach a quorum or sees a newer term.

A member that is catching up on its log (`Standing.sync`) answers like a follower.

The handlers read the registry of connected peers and never change it.
-/

namespace Quorum

/-- The part a member plays. -/
inductive Role where
  | follower
  | candidate
  | leader
  | sync
  deriving DecidableEq, Repr, Inhabited

def Role.name : Role → String
  | follower => "follower"
  | candidate => "candidate"
  | leader => "leader"
  | sync => "sync"

/-- The role of a member with the data that only this role has. -/
inductive Standing where
  | follower
  /-- `votes` are the members that granted their vote in the current term, the candidate included,
  without repetition. -/
  | candidate (votes : List NodeId)
  /-- `heartbeat` is the recurring timer of the leadership. -/
  | leader (heartbeat : Handle)
  | sync
  deriving DecidableEq, Repr, Inhabited

def Standing.role : Standing → Role
  | follower => .follower
  | candidate _ => .candidate
  | leader _ => .leader
  | sync => .sync

/-- One member of the cluster, as far as elections are concerned. -/
structure Member where
  id : NodeId
  ledger : Ledger
  standing : Standing
  /-- When the standing was last replaced. -/
  sinceMs : Nat
  window : Window
  heartbeatInterval : Delay
  /-- The armed election timer. -/
  electionTask : Option Handle
  /-- The delay with which the election timer was armed last. -/
  electionDelay : Delay
  deriving DecidableEq, Repr

namespace Member

/-- A member that has not started yet. -/
def ofConfig (config : NodeConfig) (clockMs : Nat) : Member where
  id := config.id
  ledger := Ledger.ofSize config.membershipSize
  standing := .follower
  sinceMs := clockMs
  window := Window.ofConfig config
  heartbeatInterval := Delay.ofMs config.heartbeatIntervalMs
  electionTask := none
  electionDelay := (Window.ofConfig config).longest

def role (member : Member) : Role := member.standing.role

def isLeader (member : Member) : Bool := decide (member.role = .leader)

/-- Whether the member, together with the connected peers, is a quorum. -/
def hasQuorum (member : Member) (registry : Registry) : Bool :=
  decide (member.ledger.quorum ≤ registry.connectedCount + 1)

/-- Whether the member and the connected peers are more than half of the cluster, so that an
election can be won. -/
def canCampaign (member : Member) (registry : Registry) : Bool :=
  decide (member.ledger.membershipSize / 2 < registry.connectedCount + 1)

/-- The assertion of leadership in the current term. -/
def assertion (member : Member) : Request :=
  .leaderHeartbeat member.ledger.currentTerm member.id

/-- The request for votes in the current term. -/
def campaign (member : Member) : Request :=
  .vote member.ledger.currentTerm member.ledger.lastLogTerm member.ledger.lastLogIndex

open Act

/-- Change the ledger. -/
def modifyLedger (change : Ledger → Ledger) : Act Member Unit :=
  modifyOwn fun member => { member with ledger := change member.ledger }

/-- Replace the standing, and note the date of the change. A leadership that ends takes its
heartbeat along. -/
def become (next : Standing) : Act Member Unit := do
  match (← own).standing with
  | .leader heartbeat => cancel heartbeat
  | _ => pure ()
  modifyOwn fun member => { member with standing := next }
  let sinceMs ← datedClockMs
  modifyOwn fun member => { member with sinceMs }

/-- Cancel the election timer. -/
def disarmElection : Act Member Unit := do
  cancelIfAny (← own).electionTask
  modifyOwn fun member => { member with electionTask := none }

/-- Cancel the election timer and arm it anew. -/
def rearmElection (delay : Delay) : Act Member Unit := do
  disarmElection
  let task ← arm delay .electionTimeout
  modifyOwn fun member => { member with electionTask := some task, electionDelay := delay }

/-- Arm the election timer anew with a drawn delay. -/
def rearmElectionDrawn : Act Member Unit := do
  rearmElection (← draw (← own).window)

/-- Send a request on every connection of the registry. -/
def broadcast (registry : Registry) (request : Request) : Act Member Unit :=
  registry.connections.forM fun conn => sendRequest conn request

/-- Arm the first election timer. -/
def start : Act Member Unit := rearmElectionDrawn

/-- Begin to catch up on the log. Only a follower can. -/
def beginSync : Act Member Bool := do
  if (← own).role = .follower then
    become .sync
    return true
  else
    return false

/-- Go back from catching up to following. -/
def endSync : Act Member Unit := do
  if (← own).role = .sync then
    become .follower

/-- Take over the leadership of the current term. -/
def takeOver (registry : Registry) : Act Member Unit := do
  disarmElection
  let member ← own
  let heartbeat ← arm member.heartbeatInterval .leaderHeartbeat true
  modifyLedger fun ledger => ledger.setLeader (some member.id)
  become (.leader heartbeat)
  broadcast registry (← own).assertion

/-- Give up the leadership because too few peers are left. -/
def stepDownWithoutQuorum : Act Member Unit := do
  modifyLedger fun ledger => ledger.setLeader none
  become .follower
  rearmElectionDrawn

/-- Adopt a newer term seen in a response. Answers whether there was one. -/
def stepDownIfNewer (term : Nat) : Act Member Bool := do
  if (← own).ledger.isNewer term then
    modifyLedger fun ledger => ledger.advanceTerm term
    match (← own).role with
    | .candidate | .leader => become .follower
    | .follower | .sync => pure ()
    rearmElectionDrawn
    return true
  else
    return false

/-- Begin a new term, vote for oneself and ask for votes. In a cluster of one that is all. -/
def startElection (registry : Registry) : Act Member Unit := do
  let member ← own
  match member.ledger.nextTerm with
  | .error cause => throw (.fault cause)
  | .ok ledger => modifyLedger fun _ => ledger.voteFor member.id
  become (.candidate [member.id])
  broadcast registry (← own).campaign
  rearmElectionDrawn
  if (← own).ledger.quorum ≤ 1 then
    takeOver registry

/-- The election timer fired. -/
def onElectionTimeout (registry : Registry) : Act Member Unit := do
  let member ← own
  if member.isLeader then
    return
  if member.canCampaign registry then
    startElection registry
  else
    if member.role = .candidate then
      become .follower
    rearmElection member.electionDelay

/-- The heartbeat of the leadership is due. -/
def onLeaderHeartbeat (registry : Registry) : Act Member Unit := do
  let member ← own
  if !member.isLeader then
    return
  if member.hasQuorum registry then
    broadcast registry member.assertion
  else
    stepDownWithoutQuorum

/-- A candidate asks for a vote. -/
def onVoteRequest (candidate : NodeId) (term lastLogTerm lastLogIndex : Nat) :
    Act Member Response := do
  let ledger := (← own).ledger
  if ledger.isNewer term && ledger.isUpToDate lastLogTerm lastLogIndex then
    modifyLedger fun held => (held.advanceTerm term).voteFor candidate
    match (← own).role with
    | .candidate | .leader => become .follower
    | .follower | .sync => pure ()
    rearmElection (← own).window.longest
    return .vote term true
  else
    return .vote ledger.currentTerm false

/-- Accept a leader for the current term. -/
def acceptLeader (leader : NodeId) : Act Member Unit :=
  modifyLedger fun ledger => ledger.setLeader (some leader)

/-- A leader asserts itself to a member that follows or catches up. -/
def onAssertionAsFollower (term : Nat) (leader : NodeId) : Act Member (Option Response) := do
  let ledger := (← own).ledger
  if term < ledger.currentTerm then
    return some (.leaderHeartbeat ledger.currentTerm false)
  if ledger.currentTerm < term then
    modifyLedger fun held => held.advanceTerm term
    acceptLeader leader
  else
    match ledger.leaderId with
    | none => acceptLeader leader
    | some known =>
      -- Two leaders of one term deserve no answer.
      if known ≠ leader then
        return none
  rearmElectionDrawn
  return some (.leaderHeartbeat term true)

/-- A leader of this term or a later one asserts itself to a candidate or to an outdated leader. -/
def yieldTo (term : Nat) (leader : NodeId) : Act Member (Option Response) := do
  modifyLedger fun ledger => ledger.advanceTerm term
  acceptLeader leader
  become .follower
  rearmElectionDrawn
  return some (.leaderHeartbeat term true)

/-- A leader asserts itself to a candidate. -/
def onAssertionAsCandidate (term : Nat) (leader : NodeId) : Act Member (Option Response) := do
  let ledger := (← own).ledger
  if term < ledger.currentTerm then
    return some (.leaderHeartbeat ledger.currentTerm false)
  else
    yieldTo term leader

/-- Another leader asserts itself to a leader. An outdated one learns about this one at once. -/
def onAssertionAsLeader (registry : Registry) (term : Nat) (leader : NodeId) :
    Act Member (Option Response) := do
  let member ← own
  if term < member.ledger.currentTerm then
    match registry.get? leader with
    | some conn => sendRequest conn member.assertion
    | none => pure ()
    return some (.leaderHeartbeat member.ledger.currentTerm false)
  else if term = member.ledger.currentTerm then
    -- Another leader of the same term deserves no answer.
    return none
  else
    yieldTo term leader

/-- Handle a request of the identified peer `sender`. The answer goes back on the same connection;
`none` is no answer at all. -/
def onRequest (registry : Registry) (sender : NodeId) (request : Request) :
    Act Member (Option Response) := do
  match request with
  | .heartbeat _ => return none
  | .vote term lastLogTerm lastLogIndex =>
      return some (← onVoteRequest sender term lastLogTerm lastLogIndex)
  | .leaderHeartbeat term leader =>
    match (← own).role with
    | .follower | .sync => onAssertionAsFollower term leader
    | .candidate => onAssertionAsCandidate term leader
    | .leader => onAssertionAsLeader registry term leader

/-- A peer answered a request for its vote. -/
def onVoteResponse (registry : Registry) (sender : NodeId) (term : Nat) (granted : Bool) :
    Act Member Unit := do
  if ← stepDownIfNewer term then
    return
  let member ← own
  match member.standing with
  | .candidate votes =>
    if term = member.ledger.currentTerm ∧ granted then
      let counted := votes.insert sender
      modifyOwn fun held => { held with standing := .candidate counted }
      if member.ledger.quorum ≤ counted.length then
        takeOver registry
  | _ => return

/-- Handle a response of the identified peer `sender`. -/
def onResponse (registry : Registry) (sender : NodeId) (response : Response) :
    Act Member Unit := do
  match response with
  | .heartbeat => return
  | .vote term granted => onVoteResponse registry sender term granted
  | .leaderHeartbeat term _ => do
    let _ ← stepDownIfNewer term

/-- Handle a fired timer. Timers of other concerns are ignored. -/
def onTimer (registry : Registry) (event : TimerEvent) : Act Member Unit :=
  match event with
  | .electionTimeout => onElectionTimeout registry
  | .leaderHeartbeat => onLeaderHeartbeat registry
  | _ => pure ()

/-- A peer has identified itself. A leader does not let the newcomer wait for the next heartbeat. -/
def onPeerConnected (registry : Registry) (peer : NodeId) : Act Member Unit := do
  let member ← own
  if member.isLeader then
    match registry.get? peer with
    | some conn => sendRequest conn member.assertion
    | none => pure ()

/-- A peer has left the registry. A leader that cannot reach a quorum any more steps down. -/
def onPeerDisconnected (registry : Registry) : Act Member Unit := do
  let member ← own
  if member.isLeader && !member.hasQuorum registry then
    stepDownWithoutQuorum

/-- Cancel every timer of the member. -/
def stop : Act Member Unit := do
  disarmElection
  match (← own).standing with
  | .leader heartbeat => cancel heartbeat
  | _ => pure ()

end Member

end Quorum
