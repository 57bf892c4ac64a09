import Quorum.Proofs.Election.Manners
import Quorum.Proofs.Node.Acting
import Quorum.Proofs.Peers.Manners

/-!
# Manners of a node

Whatever makes a node act, it runs handlers of the election and of the liveness protocol, asks the
transport, and tells subscribers.  So what the handlers of both parts have in common, and what is
passed on to the node, every handler of the node has (`Core.Manner.impulse`).  If the handler that
begins a term does not have it, then the others still do (`Core.Manner.routine`).
-/

namespace Quorum.Core

/-- What the handlers of a node have in common, provided that those of its parts do. -/
structure Manner
    (keeps : {α : Type} → Act Core α → Prop)
    (electing : {α : Type} → Act Member α → Prop)
    (watching : {α : Type} → Act Liveness α → Prop) : Prop where
  pure : ∀ {α : Type} (value : α), keeps (Pure.pure value)
  bind : ∀ {α β : Type} {act : Act Core α} {next : α → Act Core β},
    keeps act → (∀ value, keeps (next value)) → keeps (act >>= next)
  own_bind : ∀ {α : Type} {next : Core → Act Core α},
    (∀ core, keeps (next core)) → keeps (Act.own >>= next)
  ask : ∀ wish, keeps (Act.ask wish)
  tell : ∀ news : PeerEvent,
    keeps (Act.modifyOwn fun core : Core => { core with news := news :: core.news })
  elect : ∀ {α : Type} {handler : Registry → Act Member α},
    (∀ registry, electing (handler registry)) → keeps (Core.elect handler)
  watch : ∀ {α : Type} {handler : Act Liveness α}, watching handler → keeps (Core.watch handler)

namespace Manner

variable
    {keeps : {α : Type} → Act Core α → Prop}
    {electing : {α : Type} → Act Member α → Prop}
    {watching : {α : Type} → Act Liveness α → Prop}
    {knownMember : Member → Prop}
    {knownPeers : Liveness → Prop}
    {electoral vital : Delay → Prop}
    (manner : Manner keeps electing watching)
    (elections : Member.Bearing electing knownMember electoral)
    (protocol : Liveness.Manner watching knownPeers vital)

include manner elections

theorem announce (event : Option PeerEvent) : keeps (Core.announce event) := by
  match event with
  | none => exact manner.pure ()
  | some (.connected id) =>
      refine manner.bind (manner.elect fun registry => ?_) fun _ => manner.tell _
      exact elections.onPeerConnected registry id
  | some (.disconnected id) =>
      exact manner.bind (manner.elect elections.onPeerDisconnected) fun _ => manner.tell _

include protocol

theorem start : keeps Core.start :=
  manner.bind (manner.elect fun _ => elections.rearmElectionDrawn) fun _ =>
    manner.watch protocol.start

theorem onMessage (conn : ConnId) (message : Message) : keeps (Core.onMessage conn message) := by
  have announces := manner.announce elections
  cases message with
  | request request =>
      cases request with
      | heartbeat id =>
          exact manner.bind (manner.watch (protocol.onHeartbeatRequest conn id)) announces
      | vote | leaderHeartbeat =>
          refine manner.own_bind fun core => ?_
          split
          · exact manner.pure ()
          · refine manner.bind (manner.elect fun registry => ?_) fun answer => ?_
            · exact elections.onRequest registry _ _
            split
            · exact manner.ask _
            · exact manner.pure ()
  | response response =>
      cases response with
      | heartbeat => exact manner.bind (manner.watch (protocol.onHeartbeatResponse conn)) announces
      | vote | leaderHeartbeat =>
          refine manner.own_bind fun core => ?_
          split
          · exact manner.pure ()
          · exact manner.elect fun registry => elections.onResponse registry _ _

/-- Whatever makes a node act, apart from the election timer. -/
theorem routine
    {impulse : Impulse}
    (other : impulse ≠ .timer .electionTimeout) :
    keeps impulse.handler := by
  have announces := manner.announce elections
  have beats : keeps (Core.elect fun registry => Member.onTimer registry .leaderHeartbeat) :=
    manner.elect fun registry => elections.onTimer registry nofun
  match impulse with
  | .told .started => exact manner.start elections protocol
  | .told (.accepted conn) => exact manner.watch (protocol.onAccepted conn)
  | .told (.reported (.connected conn id)) =>
      exact manner.watch (protocol.onOutboundConnected conn id)
  | .told (.reported (.connectFailed id)) => exact manner.watch (protocol.onConnectFailed id)
  | .told (.reported (.received conn message)) =>
      exact manner.onMessage elections protocol conn message
  | .told (.reported (.closed conn)) =>
      exact manner.bind (manner.watch (protocol.onConnectionClosed conn)) announces
  | .timer .electionTimeout => exact absurd rfl other
  | .timer .leaderHeartbeat => exact beats
  | .timer (.peerKeepAlive id) => exact manner.watch (protocol.onKeepalive id)
  | .timer (.peerTimeout id conn) =>
      exact manner.bind (manner.watch (protocol.onPeerTimeout id conn)) announces
  | .timer (.connectionTimeout conn) => exact manner.watch (protocol.onConnectionTimeout conn)
  | .timer (.reconnect id) => exact manner.watch (protocol.onReconnect id)

omit elections in
/-- Whatever makes a node act. -/
theorem impulse
    (elections : Member.Manner electing knownMember electoral)
    (impulse : Impulse) :
    keeps impulse.handler := by
  by_cases electoral : impulse = .timer .electionTimeout
  · subst electoral
    exact manner.elect elections.onElectionTimeout
  · exact manner.routine elections.toBearing protocol electoral

end Manner

end Quorum.Core
