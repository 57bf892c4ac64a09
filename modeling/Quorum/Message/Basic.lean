import Quorum.Config.Node

/-!
# Messages

What members say to each other. A heartbeat keeps a connection alive, and the first one on it tells
who is calling; a vote request asks for a vote in a term; a leader heartbeat asserts leadership of a
term. Each request has a response of the same kind.
-/

namespace Quorum

/-- A question or an assertion sent to a peer. -/
inductive Request where
  | heartbeat (id : NodeId)
  /-- The candidate is the peer the connection belongs to. -/
  | vote (term lastLogTerm lastLogIndex : Nat)
  | leaderHeartbeat (term : Nat) (id : NodeId)
  deriving DecidableEq, Repr, Inhabited

/-- An answer. Terms are the current term of the responder after it handled the request. -/
inductive Response where
  | heartbeat
  | vote (term : Nat) (granted : Bool)
  | leaderHeartbeat (term : Nat) (accepted : Bool)
  deriving DecidableEq, Repr, Inhabited

/-- What travels on a connection. -/
inductive Message where
  | request (request : Request)
  | response (response : Response)
  deriving DecidableEq, Repr, Inhabited

/-- The three kinds of exchange. -/
inductive Exchange where
  | heartbeat
  | vote
  | leaderHeartbeat
  deriving DecidableEq, Repr

/-- The number by which a framing layer knows an exchange. -/
def Exchange.number : Exchange → Nat
  | heartbeat => 0
  | vote => 1
  | leaderHeartbeat => 2

def Exchange.label : Exchange → String
  | heartbeat => "heartbeat"
  | vote => "vote"
  | leaderHeartbeat => "leader heartbeat"

def Request.exchange : Request → Exchange
  | heartbeat _ => .heartbeat
  | vote _ _ _ => .vote
  | leaderHeartbeat _ _ => .leaderHeartbeat

def Response.exchange : Response → Exchange
  | heartbeat => .heartbeat
  | vote _ _ => .vote
  | leaderHeartbeat _ _ => .leaderHeartbeat

def Message.exchange : Message → Exchange
  | request sent => sent.exchange
  | response sent => sent.exchange

end Quorum
