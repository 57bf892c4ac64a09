import Quorum.Election.Member
import Quorum.Peers.Liveness

/-!
# The core of a node

The core joins the election and the liveness of peers. It sends every event to the part it belongs
to, tells the election which peers come and go, and passes the same news on to subscribers.

Only heartbeats are heard on a connection whose peer is not known. Any other message on it is
dropped.
-/

namespace Quorum

/-- The public view of a node. -/
structure Status where
  id : NodeId
  role : Role
  term : Nat
  votedFor : Option NodeId
  leaderId : Option NodeId
  connectedPeers : List NodeId
  sinceMs : Nat
  deriving DecidableEq, Repr, Inhabited

def Status.isLeader (status : Status) : Bool := decide (status.role = .leader)

/-- The state that the loop of a node owns. -/
structure Core where
  member : Member
  liveness : Liveness
  /-- The peer events told to subscribers and not yet fetched, newest first. -/
  news : List PeerEvent := []

namespace Core

/-- The core of a node that has not started. -/
def ofConfig (config : NodeConfig) (clockMs : Nat) : Core where
  member := Member.ofConfig config clockMs
  liveness := Liveness.ofConfig config

def registry (core : Core) : Registry := core.liveness.registry

def status (core : Core) : Status where
  id := core.member.id
  role := core.member.role
  term := core.member.ledger.currentTerm
  votedFor := core.member.ledger.votedFor
  leaderId := core.member.ledger.leaderId
  connectedPeers := core.registry.connectedIds
  sinceMs := core.member.sinceMs

open Act

/-- Run a handler of the election. It reads the registry as it is now. -/
def elect {α : Type} (handler : Registry → Act Member α) : Act Core α := do
  let registry := (← own).registry
  within Core.member (fun member core => { core with member }) (handler registry)

/-- Run a handler of the liveness protocol. -/
def watch {α : Type} (handler : Act Liveness α) : Act Core α :=
  within Core.liveness (fun liveness core => { core with liveness }) handler

/-- Arm the first election timer and dial the peers. -/
def start : Act Core Unit := do
  elect fun _ => Member.start
  watch Liveness.start

/-- Let the election know about a change among the peers, and then the subscribers. -/
def announce (event : Option PeerEvent) : Act Core Unit := do
  match event with
  | none => pure ()
  | some news =>
    match news with
    | .connected id => elect fun registry => Member.onPeerConnected registry id
    | .disconnected _ => elect Member.onPeerDisconnected
    modifyOwn fun core => { core with news := news :: core.news }

/-- A connection was handed off. -/
def onAccepted (conn : ConnId) : Act Core Unit := watch (Liveness.onAccepted conn)

/-- A message arrived on a connection. -/
def onMessage (conn : ConnId) (message : Message) : Act Core Unit := do
  match message with
  | .request (.heartbeat id) => announce (← watch (Liveness.onHeartbeatRequest conn id))
  | .response .heartbeat => announce (← watch (Liveness.onHeartbeatResponse conn))
  | .request request =>
    match (← own).registry.peerOf? conn with
    | none => pure ()
    | some sender =>
      match ← elect fun registry => Member.onRequest registry sender request with
      | some response => sendResponse conn response
      | none => pure ()
  | .response response =>
    match (← own).registry.peerOf? conn with
    | none => pure ()
    | some sender => elect fun registry => Member.onResponse registry sender response

/-- The network reported something. -/
def onNetwork (event : NetworkEvent) : Act Core Unit := do
  match event with
  | .connected conn id => watch (Liveness.onOutboundConnected conn id)
  | .connectFailed id => watch (Liveness.onConnectFailed id)
  | .received conn message => onMessage conn message
  | .closed conn => announce (← watch (Liveness.onConnectionClosed conn))

/-- A timer fired. -/
def onTimer (event : TimerEvent) : Act Core Unit := do
  match event with
  | .electionTimeout | .leaderHeartbeat => elect fun registry => Member.onTimer registry event
  | .peerKeepAlive id => watch (Liveness.onKeepalive id)
  | .peerTimeout id conn => announce (← watch (Liveness.onPeerTimeout id conn))
  | .connectionTimeout conn => watch (Liveness.onConnectionTimeout conn)
  | .reconnect id => watch (Liveness.onReconnect id)

/-- Cancel all timers and close all connections. Role and term stay. -/
def shutdown : Act Core Unit := do
  elect fun _ => Member.stop
  watch Liveness.shutdown

end Core

end Quorum
