import Quorum.Peers.Liveness

/-!
# Manners of the liveness protocol

The handlers of the protocol are put together from few parts.  They read and change the tables, but
not the delays, look at the timers, arm them with one of the two delays, cancel them, and ask the
transport.  What holds of these parts and is passed on when they are put together is a `Manner`, and
then it holds of every handler.

A manner may rest on what is known of the protocol whenever it is looked at, and on what is known of
the delays that the timers are armed with.
-/

namespace Quorum.Liveness

open Act

/-- What the parts of the handlers have in common, and what is put together from them. -/
structure Manner
    (keeps : {α : Type} → Act Liveness α → Prop)
    (known : Liveness → Prop)
    (suits : Delay → Prop) : Prop where
  pure : ∀ {α : Type} (value : α), keeps (Pure.pure value)
  bind : ∀ {α β : Type} {act : Act Liveness α} {next : α → Act Liveness β},
    keeps act → (∀ value, keeps (next value)) → keeps (act >>= next)
  own_bind : ∀ {α : Type} {next : Liveness → Act Liveness α},
    (∀ liveness, known liveness → keeps (next liveness)) → keeps (Act.own >>= next)
  /-- Changing anything but the delays. -/
  modifyOwn : ∀ {change : Liveness → Liveness},
    (∀ own, (change own).heartbeatInterval = own.heartbeatInterval) →
      (∀ own, (change own).heartbeatTimeout = own.heartbeatTimeout) →
        keeps (Act.modifyOwn change)
  ask : ∀ wish, keeps (Act.ask wish)
  cancel : ∀ handle, keeps (Act.cancel handle)
  isCancelled : ∀ handle, keeps (Act.isCancelled handle)
  arm : ∀ {delay}, suits delay → ∀ event repeats, keeps (Act.arm delay event repeats)
  interval : ∀ {liveness}, known liveness → suits liveness.heartbeatInterval
  timeout : ∀ {liveness}, known liveness → suits liveness.heartbeatTimeout

namespace Manner

variable
    {keeps : {α : Type} → Act Liveness α → Prop}
    {known : Liveness → Prop}
    {suits : Delay → Prop}
    (manner : Manner keeps known suits)

include manner

/-! ## Tables and timers -/

theorem cancelIfAny (handle : Option Handle) : keeps (Act.cancelIfAny handle) := by
  cases handle with
  | none => exact manner.pure ()
  | some held => exact manner.cancel held

theorem modifyRegistry (change : Registry → Registry) : keeps (Liveness.modifyRegistry change) :=
  manner.modifyOwn (fun _ => rfl) fun _ => rfl

theorem cancelLink (link : PeerLink) : keeps (Liveness.cancelLink link) :=
  manner.bind (manner.cancelIfAny _) fun _ => manner.cancelIfAny _

theorem dropLink (id : NodeId) : keeps (Liveness.dropLink id) := by
  refine manner.own_bind fun liveness _ => ?_
  split
  · exact manner.pure ()
  · exact manner.bind (manner.modifyOwn (fun _ => rfl) fun _ => rfl) fun _ => manner.cancelLink _

theorem dropAnonymous (conn : ConnId) : keeps (Liveness.dropAnonymous conn) := by
  refine manner.own_bind fun liveness _ => ?_
  split
  · exact manner.pure ()
  · exact manner.bind (manner.modifyOwn (fun _ => rfl) fun _ => rfl) fun _ => manner.cancel _

theorem takeDial (conn : ConnId) : keeps (Liveness.takeDial conn) := by
  refine manner.own_bind fun liveness _ => ?_
  split
  · exact manner.pure none
  · exact manner.bind (manner.modifyOwn (fun _ => rfl) fun _ => rfl) fun _ => manner.pure _

theorem endDial (conn : ConnId) : keeps (Liveness.endDial conn) :=
  manner.bind (manner.takeDial conn) fun _ =>
    manner.bind (manner.cancelIfAny _) fun _ => manner.pure _

theorem dropReconnect (id : NodeId) : keeps (Liveness.dropReconnect id) := by
  refine manner.own_bind fun liveness _ => ?_
  split
  · exact manner.pure ()
  · exact manner.bind (manner.modifyOwn (fun _ => rfl) fun _ => rfl) fun _ => manner.cancel _

theorem landed (id : NodeId) : keeps (Liveness.landed id) :=
  manner.modifyOwn (fun _ => rfl) fun _ => rfl

theorem dial (id : NodeId) : keeps (Liveness.dial id) := by
  refine manner.own_bind fun liveness _ => ?_
  split
  · exact manner.pure ()
  split
  · exact manner.bind (manner.modifyOwn (fun _ => rfl) fun _ => rfl) fun _ => manner.ask _
  · exact manner.pure ()

theorem scheduleReconnect (id : NodeId) : keeps (Liveness.scheduleReconnect id) := by
  refine manner.own_bind fun liveness knows => ?_
  split
  · exact manner.bind (manner.arm (manner.interval knows) _ _) fun _ =>
      manner.modifyOwn (fun _ => rfl) fun _ => rfl
  · exact manner.pure ()

theorem refreshTimeout (id : NodeId) (conn : ConnId) : keeps (Liveness.refreshTimeout id conn) := by
  refine manner.own_bind fun liveness _ => ?_
  split
  · exact manner.pure ()
  split
  · refine manner.bind (manner.modifyOwn (fun _ => rfl) fun _ => rfl) fun _ => ?_
    refine manner.bind (manner.cancelIfAny _) fun _ => manner.own_bind fun _ knows => ?_
    exact manner.bind (manner.arm (manner.timeout knows) _ _) fun _ =>
      manner.modifyOwn (fun _ => rfl) fun _ => rfl
  · exact manner.pure ()

theorem armKeepalive (id : NodeId) (dialled : Bool) : keeps (Liveness.armKeepalive id dialled) := by
  unfold Liveness.armKeepalive
  split
  · exact manner.own_bind fun _ knows =>
      manner.bind (manner.arm (manner.interval knows) _ _) fun _ => manner.pure _
  · exact manner.pure none

/-! ## The handlers -/

theorem start : keeps Liveness.start := by
  refine manner.own_bind fun liveness _ => ?_
  induction liveness.dialTargets with
  | nil => exact manner.pure ()
  | cons peer rest ih => exact manner.bind (manner.dial peer.id) fun _ => ih

theorem onOutboundConnected (conn : ConnId) (id : NodeId) :
    keeps (Liveness.onOutboundConnected conn id) := by
  refine manner.bind (manner.landed id) fun _ => manner.own_bind fun liveness knows => ?_
  refine manner.bind (manner.arm (manner.timeout knows) _ _) fun timeout => ?_
  exact manner.bind (manner.modifyOwn (fun _ => rfl) fun _ => rfl) fun _ => manner.ask _

theorem onConnectFailed (id : NodeId) : keeps (Liveness.onConnectFailed id) :=
  manner.bind (manner.landed id) fun _ => manner.scheduleReconnect id

theorem onAccepted (conn : ConnId) : keeps (Liveness.onAccepted conn) := by
  refine manner.own_bind fun liveness _ => ?_
  split
  · exact manner.pure ()
  · refine manner.bind (manner.modifyRegistry _) fun _ => manner.own_bind fun _ knows => ?_
    refine manner.bind (manner.arm (manner.timeout knows) _ _) fun timeout => ?_
    refine manner.own_bind fun _ _ => ?_
    exact manner.bind (manner.modifyOwn (fun _ => rfl) fun _ => rfl) fun _ =>
      manner.cancelIfAny _

theorem onConnectionClosed (conn : ConnId) : keeps (Liveness.onConnectionClosed conn) := by
  refine manner.bind (manner.endDial conn) fun ended => ?_
  split
  · exact manner.bind (manner.scheduleReconnect _) fun _ => manner.pure none
  · refine manner.bind (manner.dropAnonymous conn) fun _ => manner.own_bind fun liveness _ => ?_
    refine manner.bind (manner.modifyRegistry _) fun _ => ?_
    split
    · exact manner.pure none
    · exact manner.bind (manner.dropLink _) fun _ =>
        manner.bind (manner.scheduleReconnect _) fun _ => manner.pure _

theorem bindPeer (conn : ConnId) (id : NodeId) : keeps (Liveness.bindPeer conn id) := by
  refine manner.own_bind fun liveness _ => manner.bind (manner.modifyRegistry _) fun _ => ?_
  split
  · exact manner.pure _
  · exact manner.pure none
  · exact manner.bind (manner.ask _) fun _ => manner.pure none

theorem identify (conn : ConnId) (id : NodeId) (dialled : Bool) :
    keeps (Liveness.identify conn id dialled) := by
  refine manner.bind (manner.endDial conn) fun pending => ?_
  refine manner.bind (manner.bindPeer conn id) fun event => ?_
  refine manner.bind (manner.dropLink id) fun _ => ?_
  refine manner.bind (manner.armKeepalive id _) fun keepalive => ?_
  refine manner.bind (manner.modifyOwn (fun _ => rfl) fun _ => rfl) fun _ => ?_
  exact manner.bind (manner.dropReconnect id) fun _ => manner.pure event

theorem onHeartbeatRequest (conn : ConnId) (id : NodeId) :
    keeps (Liveness.onHeartbeatRequest conn id) := by
  refine manner.own_bind fun liveness _ => ?_
  split
  · split
    · exact manner.bind (manner.refreshTimeout id conn) fun _ =>
        manner.bind (manner.ask _) fun _ => manner.pure none
    · exact manner.bind (manner.ask _) fun _ => manner.onConnectionClosed conn
  · refine manner.bind (manner.dropAnonymous conn) fun _ => manner.own_bind fun _ _ => ?_
    split
    · refine manner.bind (manner.identify conn id false) fun event => ?_
      refine manner.bind (manner.refreshTimeout id conn) fun _ => ?_
      exact manner.bind (manner.ask _) fun _ => manner.pure event
    · exact manner.bind (manner.modifyRegistry _) fun _ =>
        manner.bind (manner.ask _) fun _ => manner.pure none

theorem onHeartbeatResponse (conn : ConnId) : keeps (Liveness.onHeartbeatResponse conn) := by
  refine manner.bind (manner.endDial conn) fun ended => ?_
  split
  · next pending =>
    exact manner.bind (manner.identify conn pending.id true) fun event =>
      manner.bind (manner.refreshTimeout pending.id conn) fun _ => manner.pure event
  · refine manner.own_bind fun liveness _ => ?_
    split
    · exact manner.bind (manner.refreshTimeout _ conn) fun _ => manner.pure none
    · exact manner.pure none

theorem isTimed (link : PeerLink) : keeps (Liveness.isTimed link) := by
  unfold Liveness.isTimed
  split
  · exact manner.pure false
  · exact manner.bind (manner.isCancelled _) fun _ => manner.pure _

theorem onKeepalive (id : NodeId) : keeps (Liveness.onKeepalive id) := by
  refine manner.own_bind fun liveness _ => ?_
  split
  · exact manner.pure ()
  · refine manner.bind (manner.isTimed _) fun timed => manner.bind (manner.ask _) fun _ => ?_
    split
    · exact manner.refreshTimeout id _
    · exact manner.pure ()

theorem onPeerTimeout (id : NodeId) (conn : ConnId) : keeps (Liveness.onPeerTimeout id conn) := by
  refine manner.own_bind fun liveness _ => ?_
  split
  · refine manner.bind (manner.modifyRegistry _) fun _ => ?_
    refine manner.bind (manner.dropLink id) fun _ => manner.bind (manner.ask _) fun _ => ?_
    exact manner.bind (manner.scheduleReconnect id) fun _ => manner.pure _
  · exact manner.pure none

theorem onConnectionTimeout (conn : ConnId) : keeps (Liveness.onConnectionTimeout conn) := by
  refine manner.bind (manner.takeDial conn) fun taken => ?_
  split
  · exact manner.bind (manner.ask _) fun _ => manner.scheduleReconnect _
  · refine manner.bind (manner.modifyOwn (fun _ => rfl) fun _ => rfl) fun _ => ?_
    refine manner.own_bind fun liveness _ => ?_
    split
    · exact manner.bind (manner.modifyRegistry _) fun _ => manner.ask _
    · exact manner.pure ()

theorem onReconnect (id : NodeId) : keeps (Liveness.onReconnect id) := by
  refine manner.bind (manner.modifyOwn (fun _ => rfl) fun _ => rfl) fun _ => ?_
  refine manner.own_bind fun liveness _ => ?_
  split
  · exact manner.dial id
  · exact manner.pure ()

end Manner

end Quorum.Liveness
