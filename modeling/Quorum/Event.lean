import Quorum.Message.Basic

/-!
# Events and requests to the transport

The vocabulary between a node and what surrounds it: what its timers report, what the network
reports, what the node asks of the transport, and what it tells its subscribers.
-/

namespace Quorum

/-- One end of a connection. -/
structure ConnId where
  number : Nat
  deriving DecidableEq, Repr, Inhabited

/-- What a fired timer of a node means. -/
inductive TimerEvent where
  /-- No sign of a leader and no granted vote within the election timeout. -/
  | electionTimeout
  /-- The leader has to assert itself again. -/
  | leaderHeartbeat
  /-- The dialling side has to keep its connection to a peer alive. -/
  | peerKeepAlive (id : NodeId)
  /-- An identified peer has been silent on its connection for too long. -/
  | peerTimeout (id : NodeId) (conn : ConnId)
  /-- A connection has not identified itself in time. -/
  | connectionTimeout (conn : ConnId)
  /-- A peer is to be dialled again. -/
  | reconnect (id : NodeId)
  deriving DecidableEq, Repr, Inhabited

/-- What subscribers are told about the peers. -/
inductive PeerEvent where
  | connected (id : NodeId)
  | disconnected (id : NodeId)
  deriving DecidableEq, Repr, Inhabited

/-- The peer an event is about. -/
def PeerEvent.peer : PeerEvent → NodeId
  | connected id => id
  | disconnected id => id

/-- What the network reports to a node. -/
inductive NetworkEvent where
  /-- A connection to a peer is open; the peer has not confirmed it yet. -/
  | connected (conn : ConnId) (id : NodeId)
  | connectFailed (id : NodeId)
  | received (conn : ConnId) (message : Message)
  /-- The other side closed the connection. -/
  | closed (conn : ConnId)
  deriving DecidableEq, Repr, Inhabited

/-- What a node asks of the transport. Nothing is answered at once: a lost message shows as a
heartbeat timeout later, a failed connect as an event. -/
inductive Ask where
  | send (conn : ConnId) (message : Message)
  | connect (peer : Peer)
  | close (conn : ConnId)
  deriving DecidableEq, Repr, Inhabited

end Quorum
