import Quorum.Peers.Liveness
import Quorum.Proofs.Effects

/-!
# What the liveness protocol can do

A `Happening` is anything the protocol is told: by the transport, by its timers, or by the node it
belongs to.  `Liveness.Moves` lists what it can do about it, one constructor for each way through a
handler: what is answered, asked for, released and armed, and the state that is left.

Every statement about runs of the protocol is read off from this list.  That it is complete, that is
that every handler which answers makes one of these moves, is `Happening.handler_moves`.
-/

namespace Quorum

open Act

/-- What the liveness protocol can be told. -/
inductive Happening where
  | start
  /-- A connection to a peer is open. -/
  | connected (conn : ConnId) (id : NodeId)
  | connectFailed (id : NodeId)
  | accepted (conn : ConnId)
  /-- A heartbeat request, with the name that the other side gives itself. -/
  | request (conn : ConnId) (id : NodeId)
  | response (conn : ConnId)
  /-- The other side closed a connection. -/
  | closed (conn : ConnId)
  | keepalive (id : NodeId)
  | peerTimeout (id : NodeId) (conn : ConnId)
  | connectionTimeout (conn : ConnId)
  | reconnect (id : NodeId)
  | shutdown
  deriving DecidableEq, Repr

namespace Happening

/-- The connection that the transport reports something about. -/
def conn? : Happening → Option ConnId
  | connected conn _ | accepted conn | request conn _ | response conn | closed conn => some conn
  | _ => none

/-- Whether it comes from the transport or from the node, and not from a timer. -/
def isCall : Happening → Bool
  | keepalive _ | peerTimeout _ _ | connectionTimeout _ | reconnect _ => false
  | _ => true

/-- The handler in charge. -/
def handler : Happening → Act Liveness (Option PeerEvent)
  | start => do
    Liveness.start
    return none
  | connected conn id => do
    Liveness.onOutboundConnected conn id
    return none
  | connectFailed id => do
    Liveness.onConnectFailed id
    return none
  | accepted conn => do
    Liveness.onAccepted conn
    return none
  | request conn id => Liveness.onHeartbeatRequest conn id
  | response conn => Liveness.onHeartbeatResponse conn
  | closed conn => Liveness.onConnectionClosed conn
  | keepalive id => do
    Liveness.onKeepalive id
    return none
  | peerTimeout id conn => Liveness.onPeerTimeout id conn
  | connectionTimeout conn => do
    Liveness.onConnectionTimeout conn
    return none
  | reconnect id => do
    Liveness.onReconnect id
    return none
  | shutdown => do
    Liveness.shutdown
    return none

/-- What a fired timer means to the protocol; the timers of the election mean nothing to it. -/
def ofTimer : TimerEvent → Option Happening
  | .electionTimeout => none
  | .leaderHeartbeat => none
  | .peerKeepAlive id => some (keepalive id)
  | .peerTimeout id conn => some (peerTimeout id conn)
  | .connectionTimeout conn => some (connectionTimeout conn)
  | .reconnect id => some (reconnect id)

theorem ne_shutdown_of_ofTimer
    {event : TimerEvent}
    {happening : Happening}
    (meant : ofTimer event = some happening) :
    happening ≠ shutdown := by
  cases event <;> cases meant <;> exact nofun

theorem conn?_of_ofTimer
    {event : TimerEvent}
    {happening : Happening}
    (meant : ofTimer event = some happening) :
    happening.conn? = none := by
  cases event <;> cases meant <;> rfl

theorem not_isCall_of_ofTimer
    {event : TimerEvent}
    {happening : Happening}
    (meant : ofTimer event = some happening) :
    happening.isCall = false := by
  cases event <;> cases meant <;> rfl

theorem eq_of_ofTimer_eq_peerTimeout
    {event : TimerEvent}
    {id : NodeId}
    {conn : ConnId}
    (meant : ofTimer event = some (peerTimeout id conn)) :
    event = .peerTimeout id conn := by
  cases event <;> cases meant
  rfl

end Happening

namespace Registry

/-- What is told about a new binding: a peer that had no connection is connected now. -/
def announced (registry : Registry) (id : NodeId) (conn : ConnId) : Option PeerEvent :=
  match registry.bindingOf id conn with
  | .fresh => some (.connected id)
  | _ => none

/-- What is asked for a new binding: the connection it replaces is closed. -/
def evicted (registry : Registry) (id : NodeId) (conn : ConnId) : List Ask :=
  match registry.bindingOf id conn with
  | .replaced previous => [.close previous]
  | _ => []

variable {registry : Registry} {id : NodeId} {conn : ConnId}

theorem announced_eq :
    registry.announced id conn =
      if registry.get? id = none then some (.connected id) else none := by
  have known : registry.get? id = registry.connected.get? id := rfl
  unfold announced bindingOf
  cases held : registry.connected.get? id with
  | none => simp [known, held]
  | some previous =>
      by_cases same : previous = conn
      · simp [known, held, same]
      · simp [known, held, same]

theorem mem_evicted {ask : Ask} :
    ask ∈ registry.evicted id conn ↔
      ∃ previous, registry.get? id = some previous ∧ previous ≠ conn ∧ ask = .close previous := by
  have known : registry.get? id = registry.connected.get? id := rfl
  unfold evicted bindingOf
  cases held : registry.connected.get? id with
  | none => simp [known, held]
  | some previous =>
      by_cases same : previous = conn
      · simp [known, held, same]
      · simp [known, held, same]

end Registry

/-- The handles of the timers of a link. -/
def PeerLink.handles (link : PeerLink) : List Handle :=
  link.keepalive.toList ++ link.timeout.toList

namespace Liveness

/-! ## The timers of the protocol -/

/-- A linked peer may be silent for one heartbeat timeout. -/
def peerDeadline
    (own : Liveness)
    (id : NodeId)
    (conn : ConnId)
    (handle : Handle) : Deadline TimerEvent :=
  ⟨handle, .peerTimeout id conn, own.heartbeatTimeout, false⟩

/-- The dialling side of a link says something once per heartbeat interval. -/
def beatDeadline (own : Liveness) (id : NodeId) (handle : Handle) : Deadline TimerEvent :=
  ⟨handle, .peerKeepAlive id, own.heartbeatInterval, true⟩

/-- A connection has one heartbeat timeout to tell who is on the other side. -/
def handshakeDeadline (own : Liveness) (conn : ConnId) (handle : Handle) : Deadline TimerEvent :=
  ⟨handle, .connectionTimeout conn, own.heartbeatTimeout, false⟩

/-- A peer is dialled again after one heartbeat interval. -/
def redialDeadline (own : Liveness) (id : NodeId) (handle : Handle) : Deadline TimerEvent :=
  ⟨handle, .reconnect id, own.heartbeatInterval, false⟩

/-- The handles of the timers of a peer that is linked. -/
def linkHandles (own : Liveness) (id : NodeId) : List Handle :=
  (own.links.entriesAt id).flatMap fun entry => entry.2.handles

/-- The handle of the timer of a connection in the dialling phase. -/
def dialHandles (own : Liveness) (conn : ConnId) : List Handle :=
  (own.dialing.entriesAt conn).map fun entry => entry.2.timeout

/-- The handle of the timer of an anonymous connection. -/
def anonymousHandles (own : Liveness) (conn : ConnId) : List Handle :=
  (own.anonymous.entriesAt conn).map Prod.snd

/-- The handle of the timer of a peer that waits to be dialled again. -/
def redialHandles (own : Liveness) (id : NodeId) : List Handle :=
  (own.reconnecting.entriesAt id).map Prod.snd

/-! ## Parts of a move -/

/-- A peer is dialled, unless it is not to be dialled or has been already. -/
inductive Dials (own : Liveness) (id : NodeId) : Effect → Liveness → Prop where
  | dialled
      {peer : Peer}
      (target : own.target? id = some peer)
      (grounded : id ∉ own.inFlight) :
      Dials own id { asks := [.connect peer] } { own with inFlight := own.inFlight.insert id }
  | spared
      (needless : own.target? id = none ∨ id ∈ own.inFlight) :
      Dials own id {} own

/-- The peers on a list are dialled, one after the other. -/
inductive DialsEach : Liveness → List Peer → Effect → Liveness → Prop where
  | nil {own : Liveness} : DialsEach own [] {} own
  | cons
      {own between next : Liveness} {peer : Peer} {rest : List Peer} {effect effect' : Effect}
      (dials : Dials own peer.id effect between)
      (others : DialsEach between rest effect' next) :
      DialsEach own (peer :: rest) (effect ++ effect') next

/-- A peer is to be dialled again later, unless it is not to be dialled or waits for it already. -/
inductive Pursues (own : Liveness) (id : NodeId) : Effect → Liveness → Prop where
  | scheduled
      {handle : Handle}
      (target : (own.target? id).isSome)
      (idle : own.reconnecting.get? id = none) :
      Pursues own id { armed := [own.redialDeadline id handle] }
        { own with reconnecting := own.reconnecting.insert id handle }
  | spared
      (needless : own.target? id = none ∨ (own.reconnecting.get? id).isSome) :
      Pursues own id {} own

/-- The timeout of a link is armed anew, unless the peer has moved to another connection. -/
inductive Rearms (own : Liveness) (id : NodeId) (conn : ConnId) : Effect → Liveness → Prop where
  | rearmed
      {link : PeerLink} {handle : Handle}
      (linked : own.links.get? id = some link)
      (current : link.conn = conn) :
      Rearms own id conn
        { released := link.timeout.toList, armed := [own.peerDeadline id conn handle] }
        { own with links := own.links.insert id { link with timeout := some handle } }
  | moved
      (elsewhere : ∀ link, own.links.get? id = some link → link.conn ≠ conn) :
      Rearms own id conn {} own

/-- A connection is bound to a peer in place of an older one.  The link is kept alive by this node
if the connection was in the dialling phase. -/
inductive Identifies (own : Liveness) (conn : ConnId) (id : NodeId) : Effect → Liveness → Prop where
  | bound
      {keepalive : Option Handle} {handle : Handle}
      (dialled : keepalive.isSome = (own.dialing.get? conn).isSome) :
      Identifies own conn id
        { asks := own.registry.evicted id conn
          released := own.dialHandles conn ++ own.linkHandles id ++ own.redialHandles id
          armed := keepalive.toList.map (own.beatDeadline id) ++ [own.peerDeadline id conn handle] }
        { own with
          registry := own.registry.bind id conn
          dialing := own.dialing.erase conn
          links := (own.links.erase id).insert id ⟨conn, keepalive, some handle⟩
          reconnecting := own.reconnecting.erase id }

/-- A connection has come to its end. -/
inductive Ends (own : Liveness) (conn : ConnId) : Option PeerEvent → Effect → Liveness → Prop where
  /-- It waited for the answer of the peer it was opened to. -/
  | unanswered
      {pending : PendingDial} {effect : Effect} {next : Liveness}
      (waiting : own.dialing.get? conn = some pending)
      (pursues : Pursues { own with dialing := own.dialing.erase conn } pending.id effect next) :
      Ends own conn none ({ released := own.dialHandles conn } ++ effect) next
  /-- Nobody was bound to it. -/
  | unbound
      (quiet : own.dialing.get? conn = none)
      (nobody : own.registry.peerOf? conn = none) :
      Ends own conn none { released := own.anonymousHandles conn }
        { own with
          anonymous := own.anonymous.erase conn
          registry := own.registry.removeConnection conn }
  | parted
      {id : NodeId} {effect : Effect} {next : Liveness}
      (quiet : own.dialing.get? conn = none)
      (bound : own.registry.peerOf? conn = some id)
      (pursues : Pursues
        { own with
          anonymous := own.anonymous.erase conn
          registry := own.registry.removeConnection conn
          links := own.links.erase id }
        id effect next) :
      Ends own conn (some (.disconnected id))
        ({ released := own.anonymousHandles conn ++ own.linkHandles id } ++ effect) next

/-! ## The moves -/

/-- What the protocol can do when it is told something: the answer, the effect, and the state that
is left.  Only one decision depends on the timers, namely whether a link is still timed. -/
inductive Moves (timers : Scheduler TimerEvent) (own : Liveness) :
    Happening → Option PeerEvent → Effect → Liveness → Prop where
  | started
      {asks : List Ask} {inFlight : List NodeId}
      (dials : own.DialsEach own.dialTargets { asks } { own with inFlight }) :
      Moves timers own .start none { asks } { own with inFlight }
  | opened
      {conn : ConnId} {id : NodeId} {handle : Handle} :
      Moves timers own (.connected conn id) none
        { asks := [.send conn (.request (.heartbeat own.localId))]
          armed := [own.handshakeDeadline conn handle] }
        { own with
          inFlight := own.inFlight.filter (· ≠ id)
          dialing := own.dialing.insert conn ⟨id, handle⟩ }
  | failed
      {id : NodeId} {effect : Effect} {next : Liveness}
      (pursues : Pursues { own with inFlight := own.inFlight.filter (· ≠ id) } id effect next) :
      Moves timers own (.connectFailed id) none effect next
  /-- An accepted connection has told already who is calling. -/
  | known
      {conn : ConnId}
      (bound : (own.registry.peerOf? conn).isSome) :
      Moves timers own (.accepted conn) none {} own
  | greeted
      {conn : ConnId} {handle : Handle}
      (nobody : own.registry.peerOf? conn = none) :
      Moves timers own (.accepted conn) none
        { released := own.anonymousHandles conn
          armed := [own.handshakeDeadline conn handle] }
        { own with
          registry := own.registry.addAnonymous conn
          anonymous := own.anonymous.insert conn handle }
  /-- A peer asked for a sign of life. -/
  | answered
      {conn : ConnId} {id : NodeId} {effect : Effect} {next : Liveness}
      (bound : own.registry.peerOf? conn = some id)
      (rearms : own.Rearms id conn effect next) :
      Moves timers own (.request conn id) none
        (effect ++ { asks := [.send conn (.response .heartbeat)] }) next
  /-- A peer gave another name than before. -/
  | recanted
      {conn : ConnId} {id former : NodeId} {event : Option PeerEvent} {effect : Effect}
      {next : Liveness}
      (bound : own.registry.peerOf? conn = some former)
      (changed : former ≠ id)
      (ends : own.Ends conn event effect next) :
      Moves timers own (.request conn id) event ({ asks := [.close conn] } ++ effect) next
  /-- A caller told who it is. -/
  | identified
      {conn : ConnId} {id : NodeId} {effect : Effect} {next : Liveness}
      (nobody : own.registry.peerOf? conn = none)
      (member : id ∈ own.members)
      (identifies :
        Identifies { own with anonymous := own.anonymous.erase conn } conn id effect next) :
      Moves timers own (.request conn id) (own.registry.announced id conn)
        ({ released := own.anonymousHandles conn } ++
          (effect ++ { asks := [.send conn (.response .heartbeat)] })) next
  | refused
      {conn : ConnId} {id : NodeId}
      (nobody : own.registry.peerOf? conn = none)
      (stranger : id ∉ own.members) :
      Moves timers own (.request conn id) none
        { asks := [.close conn], released := own.anonymousHandles conn }
        { own with
          anonymous := own.anonymous.erase conn
          registry := own.registry.removeConnection conn }
  /-- The peer answered that this node has dialled. -/
  | acknowledged
      {conn : ConnId} {pending : PendingDial} {effect : Effect} {next : Liveness}
      (waiting : own.dialing.get? conn = some pending)
      (identifies : own.Identifies conn pending.id effect next) :
      Moves timers own (.response conn) (own.registry.announced pending.id conn) effect next
  | heard
      {conn : ConnId} {id : NodeId} {effect : Effect} {next : Liveness}
      (quiet : own.dialing.get? conn = none)
      (bound : own.registry.peerOf? conn = some id)
      (rearms : own.Rearms id conn effect next) :
      Moves timers own (.response conn) none effect next
  | ignored
      {conn : ConnId}
      (quiet : own.dialing.get? conn = none)
      (nobody : own.registry.peerOf? conn = none) :
      Moves timers own (.response conn) none {} own
  | ended
      {conn : ConnId} {event : Option PeerEvent} {effect : Effect} {next : Liveness}
      (ends : own.Ends conn event effect next) :
      Moves timers own (.closed conn) event effect next
  | unlinked
      {id : NodeId}
      (alone : own.links.get? id = none) :
      Moves timers own (.keepalive id) none {} own
  /-- The request of the dialling side; the timeout of the link runs on. -/
  | nudged
      {id : NodeId} {link : PeerLink}
      (linked : own.links.get? id = some link)
      (timed : ∃ handle, link.timeout = some handle ∧ timers.isCancelled handle = false) :
      Moves timers own (.keepalive id) none
        { asks := [.send link.conn (.request (.heartbeat own.localId))] } own
  /-- The request of the dialling side on a link without a timeout, which gets one. -/
  | revived
      {id : NodeId} {link : PeerLink} {effect : Effect} {next : Liveness}
      (linked : own.links.get? id = some link)
      (untimed : ∀ handle, link.timeout = some handle → timers.isCancelled handle = true)
      (rearms : own.Rearms id link.conn effect next) :
      Moves timers own (.keepalive id) none
        ({ asks := [.send link.conn (.request (.heartbeat own.localId))] } ++ effect) next
  | expired
      {id : NodeId} {conn : ConnId} {effect : Effect} {next : Liveness}
      (current : own.registry.get? id = some conn)
      (pursues : Pursues
        { own with
          registry := own.registry.removeIfCurrent id conn
          links := own.links.erase id }
        id effect next) :
      Moves timers own (.peerTimeout id conn) (some (.disconnected id))
        ({ released := own.linkHandles id } ++ ({ asks := [.close conn] } ++ effect)) next
  /-- The peer has moved to another connection, or is gone. -/
  | superseded
      {id : NodeId} {conn : ConnId}
      (outdated : own.registry.get? id ≠ some conn) :
      Moves timers own (.peerTimeout id conn) none {} own
  /-- The peer did not answer in time. -/
  | lapsed
      {conn : ConnId} {pending : PendingDial} {effect : Effect} {next : Liveness}
      (waiting : own.dialing.get? conn = some pending)
      (pursues : Pursues { own with dialing := own.dialing.erase conn } pending.id effect next) :
      Moves timers own (.connectionTimeout conn) none ({ asks := [.close conn] } ++ effect) next
  /-- The caller did not tell in time who it is. -/
  | dismissed
      {conn : ConnId}
      (quiet : own.dialing.get? conn = none)
      (listed : conn ∈ own.registry.anonymous) :
      Moves timers own (.connectionTimeout conn) none { asks := [.close conn] }
        { own with
          anonymous := own.anonymous.erase conn
          registry := own.registry.removeAnonymous conn }
  | forgotten
      {conn : ConnId}
      (quiet : own.dialing.get? conn = none)
      (unlisted : conn ∉ own.registry.anonymous) :
      Moves timers own (.connectionTimeout conn) none {}
        { own with anonymous := own.anonymous.erase conn }
  | redialled
      {id : NodeId} {effect : Effect} {next : Liveness}
      (gone : own.registry.get? id = none)
      (unanswered : ∀ conn pending, own.dialing.get? conn = some pending → pending.id ≠ id)
      (dials : Dials { own with reconnecting := own.reconnecting.erase id } id effect next) :
      Moves timers own (.reconnect id) none effect next
  | reunited
      {id : NodeId}
      (met : (own.registry.get? id).isSome ∨
        ∃ conn pending, own.dialing.get? conn = some pending ∧ pending.id = id) :
      Moves timers own (.reconnect id) none {}
        { own with reconnecting := own.reconnecting.erase id }
  | shut :
      Moves timers own .shutdown none
        { asks := (own.links.values.map fun link => .close link.conn) ++
            own.dialing.keys.map .close ++ own.anonymous.keys.map .close
          released := own.links.values.flatMap PeerLink.handles ++
            own.dialing.values.map PendingDial.timeout ++ own.anonymous.values ++
            own.reconnecting.values }
        { own with
          links := ∅
          dialing := ∅
          anonymous := ∅
          reconnecting := ∅
          registry := own.registry.connections.foldl Registry.removeConnection own.registry }

end Liveness

end Quorum
