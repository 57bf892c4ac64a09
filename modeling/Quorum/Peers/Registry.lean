import Quorum.Event
import Quorum.Table

/-!
# The registry of peers

Which peers are connected, on which connection, and which connections have not told yet who is on
the other side. The binding is kept in both directions, from node ids to connections and back. A
peer has one connection at a time: the last one that identified itself as this peer.
-/

namespace Quorum

/-- What binding a connection to a peer meant. -/
inductive Binding where
  /-- The peer had no connection before. -/
  | fresh
  /-- The peer was bound to this connection already. -/
  | unchanged
  /-- The peer was bound to another connection, which has to be closed. -/
  | replaced (previous : ConnId)
  deriving DecidableEq, Repr

/-- The connected peers and the anonymous connections. -/
structure Registry where
  connected : Table NodeId ConnId := ∅
  byConnection : Table ConnId NodeId := ∅
  anonymous : List ConnId := []
  deriving Inhabited

namespace Registry

/-- Note a connection whose peer is not known yet. -/
def addAnonymous (registry : Registry) (conn : ConnId) : Registry :=
  if registry.byConnection.contains conn then registry
  else { registry with anonymous := registry.anonymous.insert conn }

def isAnonymous (registry : Registry) (conn : ConnId) : Bool :=
  decide (conn ∈ registry.anonymous)

def removeAnonymous (registry : Registry) (conn : ConnId) : Registry :=
  { registry with anonymous := registry.anonymous.filter (· ≠ conn) }

/-- What `bind` would mean. -/
def bindingOf (registry : Registry) (id : NodeId) (conn : ConnId) : Binding :=
  match registry.connected.get? id with
  | none => .fresh
  | some previous => if previous = conn then .unchanged else .replaced previous

/-- Bind a connection to a peer. The last binding wins. -/
def bind (registry : Registry) (id : NodeId) (conn : ConnId) : Registry :=
  let named := registry.removeAnonymous conn
  let connected := named.connected.insert id conn
  match registry.bindingOf id conn with
  | .fresh => { named with connected, byConnection := named.byConnection.insert conn id }
  | .unchanged => { named with connected }
  | .replaced previous =>
      { named with connected, byConnection := (named.byConnection.erase previous).insert conn id }

/-- The connection of a peer. -/
def get? (registry : Registry) (id : NodeId) : Option ConnId := registry.connected.get? id

/-- The peer of a connection. -/
def peerOf? (registry : Registry) (conn : ConnId) : Option NodeId :=
  registry.byConnection.get? conn

def isConnected (registry : Registry) (id : NodeId) : Bool := registry.connected.contains id

/-- Whether a peer is bound to exactly this connection. -/
def isCurrent (registry : Registry) (id : NodeId) (conn : ConnId) : Bool :=
  decide (registry.get? id = some conn)

/-- Remove a peer, provided it is still bound to this connection. A timeout that was armed for an
older connection does not evict a newer one. -/
def removeIfCurrent (registry : Registry) (id : NodeId) (conn : ConnId) : Registry :=
  if registry.isCurrent id conn then
    { registry with
      connected := registry.connected.erase id
      byConnection := registry.byConnection.erase conn }
  else
    registry

/-- Drop a connection, whatever it was registered as. -/
def removeConnection (registry : Registry) (conn : ConnId) : Registry :=
  let named := registry.removeAnonymous conn
  match registry.peerOf? conn with
  | none => named
  | some id =>
      { named with
        connected := named.connected.erase id
        byConnection := named.byConnection.erase conn }

/-- The number of identified peers. -/
def connectedCount (registry : Registry) : Nat := registry.connected.size

def anonymousCount (registry : Registry) : Nat := registry.anonymous.length

/-- The connections of the identified peers. -/
def connections (registry : Registry) : List ConnId := registry.connected.values

/-- The ids of the identified peers, in order. -/
def connectedIds (registry : Registry) : List NodeId :=
  registry.connected.keys.mergeSort fun left right => decide (left ≤ right)

end Registry

end Quorum
