import Quorum.Network.Handoff
import Quorum.Table

/-!
# The network inside one process

A hub links the nodes of one process. Every connection is a pair of ends, one per side; an end knows
the node that owns it and the other end. What a node asks of the transport takes effect at once: a
message goes into the mailbox of the node that owns the other end, behind whatever waits there.

A node can be isolated, which drops its traffic and closes nothing, and it can be removed, which
closes all of its connections.

Mailboxes and hand-off queues have names of their own, apart from the node they belong to. A node
that is registered a second time gets a new mailbox, and whoever reads the first one reads what was
put there before and then meets its end.
-/

namespace Quorum

/-- Names the mailbox of one registration. -/
structure MailboxId where
  number : Nat
  deriving DecidableEq, Repr, Inhabited

/-- Names a hand-off queue. -/
structure QueueId where
  number : Nat
  deriving DecidableEq, Repr, Inhabited

/-- The events that wait for a node, oldest first. -/
structure Mailbox where
  events : List NetworkEvent := []
  /-- Cleared when nobody receives any more. -/
  receiving : Bool := true
  deriving DecidableEq, Repr, Inhabited

namespace Mailbox

/-- Put an event behind the others, unless nobody receives it. -/
def put (mailbox : Mailbox) (event : NetworkEvent) : Mailbox :=
  if mailbox.receiving then { mailbox with events := mailbox.events ++ [event] } else mailbox

/-- The mailbox without its oldest event. -/
def dropOldest (mailbox : Mailbox) : Mailbox := { mailbox with events := mailbox.events.drop 1 }

def emptied (mailbox : Mailbox) : Mailbox := { mailbox with events := [] }

/-- The mailbox after the receiving side is gone. -/
def closed : Mailbox where
  receiving := false

end Mailbox

/-- A node that the network knows. -/
structure Endpoint where
  mailbox : MailboxId
  /-- Where accepted connections are handed off. A node without it accepts none. -/
  acceptor : Option QueueId := none
  deriving DecidableEq, Repr, Inhabited

/-- What is known about one end of an open connection. -/
structure Link where
  owner : NodeId
  remote : ConnId
  deriving DecidableEq, Repr, Inhabited

/-- All nodes and open connections of one process. -/
structure Hub where
  endpoints : Table NodeId Endpoint := ∅
  links : Table ConnId Link := ∅
  isolated : List NodeId := []
  mailboxes : Table MailboxId Mailbox := ∅
  queues : Table QueueId HandoffQueue := ∅
  /-- How many ids have been given out. Every id is fresh when it is given out. -/
  issued : Nat := 0

namespace Hub

/-- A connection id that was not in use before. -/
def issue (hub : Hub) : ConnId × Hub := (⟨hub.issued⟩, { hub with issued := hub.issued + 1 })

/-- Make a node known under a fresh mailbox. A node of that id known before is forgotten. -/
def register (hub : Hub) (id : NodeId) : MailboxId × Hub :=
  let mailbox : MailboxId := ⟨hub.issued⟩
  (mailbox, { hub with
    endpoints := hub.endpoints.insert id { mailbox }
    mailboxes := hub.mailboxes.insert mailbox {}
    issued := hub.issued + 1 })

/-- Make a hand-off queue. -/
def openQueue (hub : Hub) (capacity : Nat) : Except Fault (QueueId × Hub) := do
  let queue : QueueId := ⟨hub.issued⟩
  let empty ← HandoffQueue.ofCapacity capacity
  return (queue, { hub with
    queues := hub.queues.insert queue empty
    issued := hub.issued + 1 })

/-- Let a known node accept connections, from now on into the given queue. -/
def attach (hub : Hub) (id : NodeId) (queue : QueueId) : Hub :=
  { hub with
    endpoints := hub.endpoints.modify id fun endpoint => { endpoint with acceptor := some queue } }

/-- Drop all traffic of a node without closing anything. -/
def isolate (hub : Hub) (id : NodeId) : Hub := { hub with isolated := hub.isolated.insert id }

def heal (hub : Hub) (id : NodeId) : Hub :=
  { hub with isolated := hub.isolated.filter fun other => other ≠ id }

/-- Put an event into the mailbox of a node. Nothing happens if the node is not known. -/
def deliver (hub : Hub) (id : NodeId) (event : NetworkEvent) : Hub :=
  match hub.endpoints.get? id with
  | some endpoint =>
    { hub with mailboxes := hub.mailboxes.modify endpoint.mailbox fun box => box.put event }
  | none => hub

/-- Whether traffic passes between two nodes. -/
def passes (hub : Hub) (one other : NodeId) : Bool :=
  decide (one ∉ hub.isolated) && decide (other ∉ hub.isolated)

/-- The queue that takes the next connection between the two nodes, if there is one. -/
def acceptorFor? (hub : Hub) (dialler target : NodeId) : Option QueueId := do
  let endpoint ← hub.endpoints.get? target
  let name ← endpoint.acceptor
  let queue ← hub.queues.get? name
  if hub.passes dialler target && queue.accepts then some name else none

/-- Add both ends of a connection. -/
def link (hub : Hub) (near : ConnId) (dialler : NodeId) (far : ConnId) (target : NodeId) : Hub :=
  { hub with
    links := (hub.links.insert near ⟨dialler, far⟩).insert far ⟨target, near⟩ }

/-- Connect one node to another. Either the far end is handed off to the target and the dialling
node is told its near end, or there is no connection and it is told that. -/
def connect (hub : Hub) (dialler target : NodeId) : Hub :=
  let (near, hub) := hub.issue
  let (far, hub) := hub.issue
  match hub.acceptorFor? dialler target with
  | some name =>
    let handedOff := { hub with queues := hub.queues.modify name fun queue => queue.offer far }
    (handedOff.link near dialler far target).deliver dialler (.connected near target)
  | none => hub.deliver dialler (.connectFailed target)

/-- Send a message on an end that the sender owns. It is lost if the connection is not open, or if
one of its two nodes is isolated. -/
def send (hub : Hub) (sender : NodeId) (conn : ConnId) (message : Message) : Hub :=
  match hub.links.get? conn with
  | none => hub
  | some near =>
    match hub.links.get? near.remote with
    | none => hub
    | some far =>
      if near.owner = sender && hub.passes sender far.owner then
        hub.deliver far.owner (.received near.remote message)
      else
        hub

/-- Take away both ends of the connection with the given end, and tell the owner of the other end.
An end without a partner is taken away alone. -/
def hangUp (hub : Hub) (conn : ConnId) : Hub :=
  match hub.links.get? conn with
  | none => hub
  | some near =>
    let alone := { hub with links := hub.links.erase conn }
    match alone.links.get? near.remote with
    | none => alone
    | some far =>
      { alone with links := alone.links.erase near.remote }.deliver far.owner (.closed near.remote)

/-- Close a connection at an end that the node owns. -/
def close (hub : Hub) (id : NodeId) (conn : ConnId) : Hub :=
  match hub.links.get? conn with
  | some near => if near.owner = id then hub.hangUp conn else hub
  | none => hub

/-- The ends that a node owns. -/
def endsOf (hub : Hub) (id : NodeId) : List ConnId :=
  (hub.links.entries.filter fun entry => entry.2.owner = id).map Prod.fst

/-- How many open connections a node has. -/
def connectionCount (hub : Hub) (id : NodeId) : Nat := (hub.endsOf id).length

/-- Take a node off the network and close all of its connections. -/
def remove (hub : Hub) (id : NodeId) : Hub :=
  let forgotten := { hub with endpoints := hub.endpoints.erase id }
  (forgotten.endsOf id).foldl hangUp forgotten

/-- Do what a node asks of the transport. -/
def carryOut (hub : Hub) (id : NodeId) : Ask → Hub
  | .send conn message => hub.send id conn message
  | .connect peer => hub.connect id peer.id
  | .close conn => hub.close id conn

/-! ### Receiving -/

/-- The events that wait in a mailbox, oldest first. -/
def eventsIn (hub : Hub) (mailbox : MailboxId) : List NetworkEvent :=
  match hub.mailboxes.get? mailbox with
  | some box => box.events
  | none => []

/-- Whether more events can still come into a mailbox. -/
def isAddressed (hub : Hub) (mailbox : MailboxId) : Bool :=
  hub.endpoints.values.any fun endpoint => decide (endpoint.mailbox = mailbox)

/-- Take the oldest event out of a mailbox. -/
def takeEvent (hub : Hub) (mailbox : MailboxId) : Option NetworkEvent × Hub :=
  ((hub.eventsIn mailbox).head?,
    { hub with mailboxes := hub.mailboxes.modify mailbox Mailbox.dropOldest })

/-- Take everything out of a mailbox. -/
def takeEvents (hub : Hub) (mailbox : MailboxId) : List NetworkEvent × Hub :=
  (hub.eventsIn mailbox, { hub with mailboxes := hub.mailboxes.modify mailbox Mailbox.emptied })

/-- The connections that wait in a hand-off queue, oldest first. -/
def handedOffIn (hub : Hub) (queue : QueueId) : List ConnId :=
  match hub.queues.get? queue with
  | some held => held.waiting
  | none => []

/-- Take everything out of a hand-off queue. -/
def takeHandedOff (hub : Hub) (queue : QueueId) : List ConnId × Hub :=
  (hub.handedOffIn queue, { hub with queues := hub.queues.modify queue HandoffQueue.drained })

/-- Stop reading a mailbox. What waits there is lost. -/
def closeMailbox (hub : Hub) (mailbox : MailboxId) : Hub :=
  { hub with mailboxes := hub.mailboxes.modify mailbox fun _ => .closed }

/-- Stop reading a hand-off queue. It takes no connections any more. -/
def closeQueue (hub : Hub) (queue : QueueId) : Hub :=
  { hub with queues := hub.queues.modify queue HandoffQueue.closed }

/-! ### What the operations leave alone -/

variable (hub : Hub) (id : NodeId) (event : NetworkEvent)

@[simp]
theorem links_deliver : (hub.deliver id event).links = hub.links := by
  unfold deliver
  split <;> rfl

@[simp]
theorem endpoints_deliver : (hub.deliver id event).endpoints = hub.endpoints := by
  unfold deliver
  split <;> rfl

@[simp]
theorem queues_deliver : (hub.deliver id event).queues = hub.queues := by
  unfold deliver
  split <;> rfl

@[simp]
theorem issued_deliver : (hub.deliver id event).issued = hub.issued := by
  unfold deliver
  split <;> rfl

end Hub

end Quorum
