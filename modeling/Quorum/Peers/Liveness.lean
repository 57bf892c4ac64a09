import Quorum.Act
import Quorum.Peers.Registry

/-!
# Liveness of peers

Of each pair of members one dials the other. The dialling side opens the connection, says who it is
with a heartbeat request, and repeats the request once per heartbeat interval. Both sides drop a
peer whose heartbeats stop for longer than the heartbeat timeout, and the dialling side dials again
one interval later.

A connection is in one of these phases, each with a timer of its own:

- *dialling*: opened by this node, waiting for the peer's answer;
- *anonymous*: accepted from outside, waiting for the first heartbeat request;
- *linked*: bound to a peer, waiting for the next heartbeat.

A peer to be dialled that has no connection is either *in flight*, while the transport connects, or
*reconnecting*, while a timer runs until the next attempt.
-/

namespace Quorum

/-- The connection of an identified peer and its timers. -/
structure PeerLink where
  conn : ConnId
  /-- The recurring request of the dialling side. -/
  keepalive : Option Handle
  timeout : Option Handle
  deriving DecidableEq, Repr, Inhabited

/-- A connection opened by this node that waits for the peer's answer. -/
structure PendingDial where
  id : NodeId
  timeout : Handle
  deriving DecidableEq, Repr, Inhabited

/-- Everything a node knows about its connections. -/
structure Liveness where
  localId : NodeId
  /-- The peers this node dials; the others dial it. -/
  dialTargets : List Peer
  /-- The other members of the cluster. -/
  members : List NodeId
  heartbeatInterval : Delay
  heartbeatTimeout : Delay
  registry : Registry := {}
  links : Table NodeId PeerLink := ∅
  dialing : Table ConnId PendingDial := ∅
  /-- The peers with a connect that has not been answered. -/
  inFlight : List NodeId := []
  reconnecting : Table NodeId Handle := ∅
  anonymous : Table ConnId Handle := ∅

namespace Liveness

/-- The state before any connection. -/
def ofConfig (config : NodeConfig) : Liveness where
  localId := config.id
  dialTargets := config.dialTargets
  members := config.peers.map Peer.id
  heartbeatInterval := Delay.ofMs config.heartbeatIntervalMs
  heartbeatTimeout := Delay.ofMs config.heartbeatTimeoutMs

/-- How to reach a peer, if this node is the one that dials it. -/
def target? (liveness : Liveness) (id : NodeId) : Option Peer :=
  liveness.dialTargets.find? fun peer => peer.id = id

/-- Whether a connection to this peer waits for its answer. -/
def isHandshaking (liveness : Liveness) (id : NodeId) : Bool :=
  liveness.dialing.values.any fun pending => pending.id = id

open Act

/-- Change the registry. -/
def modifyRegistry (change : Registry → Registry) : Act Liveness Unit :=
  modifyOwn fun liveness => { liveness with registry := change liveness.registry }

/-- Cancel the timers of a link. -/
def cancelLink (link : PeerLink) : Act Liveness Unit := do
  cancelIfAny link.keepalive
  cancelIfAny link.timeout

/-- Remove the link of a peer with its timers, if it has one. -/
def dropLink (id : NodeId) : Act Liveness Unit := do
  match (← own).links.get? id with
  | none => pure ()
  | some link =>
    modifyOwn fun liveness => { liveness with links := liveness.links.erase id }
    cancelLink link

/-- Forget the timer of an anonymous connection, if it has one. -/
def dropAnonymous (conn : ConnId) : Act Liveness Unit := do
  match (← own).anonymous.get? conn with
  | none => pure ()
  | some timeout =>
    modifyOwn fun liveness => { liveness with anonymous := liveness.anonymous.erase conn }
    cancel timeout

/-- Take a connection out of the dialling phase, if it is in it. -/
def takeDial (conn : ConnId) : Act Liveness (Option PendingDial) := do
  match (← own).dialing.get? conn with
  | none => return none
  | some pending =>
    modifyOwn fun liveness => { liveness with dialing := liveness.dialing.erase conn }
    return some pending

/-- End the handshake of a connection, if it is in one, and cancel its timer. -/
def endDial (conn : ConnId) : Act Liveness (Option PendingDial) := do
  let ended ← takeDial conn
  cancelIfAny (ended.map PendingDial.timeout)
  return ended

/-- Disarm the next attempt to dial a peer, if one is armed. -/
def dropReconnect (id : NodeId) : Act Liveness Unit := do
  match (← own).reconnecting.get? id with
  | none => pure ()
  | some task =>
    modifyOwn fun liveness => { liveness with reconnecting := liveness.reconnecting.erase id }
    cancel task

/-- A connect to a peer has been answered. -/
def landed (id : NodeId) : Act Liveness Unit :=
  modifyOwn fun liveness =>
    { liveness with inFlight := liveness.inFlight.filter (· ≠ id) }

/-- Ask for a connection to a peer, unless one has been asked for already. -/
def dial (id : NodeId) : Act Liveness Unit := do
  let liveness ← own
  match liveness.target? id with
  | none => pure ()
  | some peer =>
    if id ∉ liveness.inFlight then
      modifyOwn fun held => { held with inFlight := held.inFlight.insert id }
      connect peer

/-- Dial every peer this node is responsible for. -/
def start : Act Liveness Unit := do
  (← own).dialTargets.forM fun peer => dial peer.id

/-- Dial again after one heartbeat interval, if this node is the dialling side and no attempt is
armed yet. -/
def scheduleReconnect (id : NodeId) : Act Liveness Unit := do
  let liveness ← own
  if (liveness.target? id).isSome && !liveness.reconnecting.contains id then
    let task ← arm liveness.heartbeatInterval (.reconnect id)
    modifyOwn fun held => { held with reconnecting := held.reconnecting.insert id task }

/-- Cancel the timeout of a linked peer and arm it anew. Nothing happens if the peer has moved to
another connection. -/
def refreshTimeout (id : NodeId) (conn : ConnId) : Act Liveness Unit := do
  match (← own).links.get? id with
  | none => pure ()
  | some link =>
    if link.conn = conn then
      let disarmed := { link with timeout := none }
      modifyOwn fun held => { held with links := held.links.insert id disarmed }
      cancelIfAny link.timeout
      let timeout ← arm (← own).heartbeatTimeout (.peerTimeout id conn)
      let rearmed := { link with timeout := some timeout }
      modifyOwn fun held => { held with links := held.links.insert id rearmed }

/-- A connection to a peer is open. Say who is calling and wait for the answer. -/
def onOutboundConnected (conn : ConnId) (id : NodeId) : Act Liveness Unit := do
  landed id
  let liveness ← own
  let timeout ← arm liveness.heartbeatTimeout (.connectionTimeout conn)
  modifyOwn fun held => { held with dialing := held.dialing.insert conn ⟨id, timeout⟩ }
  sendRequest conn (.heartbeat liveness.localId)

/-- A connect to a peer failed. -/
def onConnectFailed (id : NodeId) : Act Liveness Unit := do
  landed id
  scheduleReconnect id

/-- A connection was accepted. It stays anonymous until its first heartbeat request, and no longer
than one heartbeat timeout. The request may have come first. -/
def onAccepted (conn : ConnId) : Act Liveness Unit := do
  if ((← own).registry.peerOf? conn).isSome then
    return
  modifyRegistry fun registry => registry.addAnonymous conn
  let timeout ← arm (← own).heartbeatTimeout (.connectionTimeout conn)
  let previous := (← own).anonymous.get? conn
  modifyOwn fun held => { held with anonymous := held.anonymous.insert conn timeout }
  cancelIfAny previous

/-- The other side closed a connection. -/
def onConnectionClosed (conn : ConnId) : Act Liveness (Option PeerEvent) := do
  match ← endDial conn with
  | some pending =>
    scheduleReconnect pending.id
    return none
  | none =>
    dropAnonymous conn
    let peer := (← own).registry.peerOf? conn
    modifyRegistry fun registry => registry.removeConnection conn
    match peer with
    | none => return none
    | some id =>
      dropLink id
      scheduleReconnect id
      return some (.disconnected id)

/-- Bind a connection to a peer in the registry, and close the connection it replaces. -/
def bindPeer (conn : ConnId) (id : NodeId) : Act Liveness (Option PeerEvent) := do
  let binding := (← own).registry.bindingOf id conn
  modifyRegistry fun registry => registry.bind id conn
  match binding with
  | .fresh => return some (.connected id)
  | .unchanged => return none
  | .replaced previous =>
    close previous
    return none

/-- The recurring request of the dialling side; the other side needs none. -/
def armKeepalive (id : NodeId) (dialled : Bool) : Act Liveness (Option Handle) := do
  if dialled then
    return some (← arm (← own).heartbeatInterval (.peerKeepAlive id) true)
  else
    return none

/-- Bind a connection to a peer in place of an older one. `dialled` tells whether this node opened
it; a connection that is still in the dialling phase was opened by this node in any case. -/
def identify (conn : ConnId) (id : NodeId) (dialled : Bool) :
    Act Liveness (Option PeerEvent) := do
  let pending ← endDial conn
  let event ← bindPeer conn id
  dropLink id
  let keepalive ← armKeepalive id (dialled || pending.isSome)
  modifyOwn fun held => { held with links := held.links.insert id ⟨conn, keepalive, none⟩ }
  dropReconnect id
  return event

/-- A peer sent a heartbeat request. The first one on a connection tells who is calling. A
connection that changes its mind, or whose caller is no member, is closed. -/
def onHeartbeatRequest (conn : ConnId) (id : NodeId) : Act Liveness (Option PeerEvent) := do
  match (← own).registry.peerOf? conn with
  | some bound =>
    if bound = id then
      refreshTimeout id conn
      sendResponse conn .heartbeat
      return none
    else
      close conn
      onConnectionClosed conn
  | none =>
    dropAnonymous conn
    if id ∈ (← own).members then
      let event ← identify conn id false
      refreshTimeout id conn
      sendResponse conn .heartbeat
      return event
    else
      modifyRegistry fun registry => registry.removeConnection conn
      close conn
      return none

/-- A heartbeat response arrived. It completes the handshake of a dialled connection, and is a sign
of life afterwards. -/
def onHeartbeatResponse (conn : ConnId) : Act Liveness (Option PeerEvent) := do
  match ← endDial conn with
  | some pending =>
    let event ← identify conn pending.id true
    refreshTimeout pending.id conn
    return event
  | none =>
    match (← own).registry.peerOf? conn with
    | some id => refreshTimeout id conn
    | none => pure ()
    return none

/-- Whether the deadline of a link is still running. -/
def isTimed (link : PeerLink) : Act Liveness Bool := do
  match link.timeout with
  | none => return false
  | some timeout => return !(← isCancelled timeout)

/-- The dialling side keeps its connection alive. A deadline that is still running stays as it
is. -/
def onKeepalive (id : NodeId) : Act Liveness Unit := do
  let liveness ← own
  match liveness.links.get? id with
  | none => pure ()
  | some link =>
    let timed ← isTimed link
    sendRequest link.conn (.heartbeat liveness.localId)
    if !timed then
      refreshTimeout id link.conn

/-- The deadline of a peer on a connection has passed. Nothing happens if the peer has moved to
another connection since. -/
def onPeerTimeout (id : NodeId) (conn : ConnId) : Act Liveness (Option PeerEvent) := do
  if (← own).registry.isCurrent id conn then
    modifyRegistry fun registry => registry.removeIfCurrent id conn
    dropLink id
    close conn
    scheduleReconnect id
    return some (.disconnected id)
  else
    return none

/-- A connection did not identify itself in time. -/
def onConnectionTimeout (conn : ConnId) : Act Liveness Unit := do
  match ← takeDial conn with
  | some pending =>
    close conn
    scheduleReconnect pending.id
  | none =>
    modifyOwn fun held => { held with anonymous := held.anonymous.erase conn }
    if (← own).registry.isAnonymous conn then
      modifyRegistry fun registry => registry.removeAnonymous conn
      close conn

/-- It is time to dial a peer again, unless it has come by another way. -/
def onReconnect (id : NodeId) : Act Liveness Unit := do
  modifyOwn fun held => { held with reconnecting := held.reconnecting.erase id }
  let liveness ← own
  if !liveness.registry.isConnected id && !liveness.isHandshaking id then
    dial id

/-- Close every connection and cancel every timer. -/
def shutdown : Act Liveness Unit := do
  let liveness ← own
  liveness.links.values.forM fun link => do
    cancelLink link
    close link.conn
  liveness.dialing.entries.forM fun (conn, pending) => do
    cancel pending.timeout
    close conn
  liveness.anonymous.entries.forM fun (conn, timeout) => do
    cancel timeout
    close conn
  liveness.reconnecting.values.forM cancel
  setOwn { liveness with
    links := ∅, dialing := ∅, anonymous := ∅, reconnecting := ∅
    registry := liveness.registry.connections.foldl Registry.removeConnection liveness.registry }

end Liveness

end Quorum
