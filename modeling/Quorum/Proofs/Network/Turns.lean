import Quorum.Proofs.Network.Carrying
import Quorum.Proofs.Node.Severity
import Quorum.Proofs.Timing.Setbacks

/-!
# The turn of a node

What makes a node act is an event that it takes out of its mailbox, a timer that it receives, a
connection that was handed off, or its start.  In a mesh each of them is backed by what has happened
on the network (`Prompted.posted`, `Prompted.timed`).  So the mesh is kept when a node has had its
turn, before anything that it has asked for is carried out (`Hub.Meshed.hears`, `Hub.Meshed.wakes`,
`Hub.Meshed.starts`).
-/

namespace Quorum

open Liveness

variable
    {roster : Roster}
    {origins : Origins}
    {scene : Scene}
    {links : Table ConnId Link}
    {id : NodeId}
    {event : NetworkEvent}
    {taken rest : List NetworkEvent}
    {heard : Option Happening}
    {before after : Stage Core}
    {shard : Shard}
    {accepted : List ConnId}

/-! ## What makes a node act -/

/-- Nothing has been taken out of a mailbox. -/
theorem Prompted.unposted
    (backed : ∀ happening ∈ heard, origins.Backs roster id happening)
    (other : ∀ happening ∈ heard, ∀ peer, happening.answers peer = false) :
    Prompted roster origins id heard [] where
  backed := backed
  counted := by
    intro peer
    cases heard with
    | none => rfl
    | some happening =>
        rw [Option.any_some, other happening rfl peer]
        rfl
  opened := nofun

/-- What the events of the network mean to the liveness protocol. -/
inductive NetworkEvent.Means : NetworkEvent → Happening → Prop where
  | connected {conn : ConnId} {peer : NodeId} : Means (.connected conn peer) (.connected conn peer)
  | connectFailed {peer : NodeId} : Means (.connectFailed peer) (.connectFailed peer)
  | request {conn : ConnId} {name : NodeId} :
      Means (.received conn (.request (.heartbeat name))) (.request conn name)
  | response {conn : ConnId} : Means (.received conn (.response .heartbeat)) (.response conn)
  | closed {conn : ConnId} : Means (.closed conn) (.closed conn)

theorem NetworkEvent.means
    {happening : Happening}
    (told : (Cue.reported event).happening? = some happening) :
    event.Means happening := by
  cases event with
  | connected | connectFailed | closed =>
      cases told
      constructor
  | received conn message =>
      cases message with
      | request request =>
          cases request <;> cases told
          exact .request
      | response response =>
          cases response <;> cases told
          exact .response

/-- An event answers a connect just if its meaning does. -/
theorem NetworkEvent.any_answers (event : NetworkEvent) (peer : NodeId) :
    (Cue.reported event).happening?.any (Happening.answers peer) = event.answers peer := by
  cases event with
  | connected | connectFailed | closed => rfl
  | received conn message =>
      cases message with
      | request request => cases request <;> rfl
      | response response => cases response <;> rfl

/-- The event that has been taken out of a mailbox is true. -/
theorem Prompted.posted (vouch : origins.Vouch links id event) :
    Prompted roster origins id (Cue.reported event).happening? [event] where
  backed := by
    intro happening told
    cases NetworkEvent.means told with
    | connected | request => exact vouch
    | connectFailed | response | closed => trivial
  counted := by
    intro peer
    rw [List.countP_singleton, NetworkEvent.any_answers]
  opened := by
    intro conn peer listed
    rw [← List.mem_singleton.mp listed]
    rfl

/-- A connection is closed if a node is told so. -/
theorem Origins.Vouch.closed
    {conn : ConnId}
    (vouch : origins.Vouch links id event)
    (told : (Cue.reported event).happening? = some (.closed conn)) :
    links.get? conn = none := by
  cases NetworkEvent.means told
  exact vouch.2

/-- A timer is no event of the network. -/
theorem Prompted.timed
    {event : TimerEvent}
    (beats : ∀ peer, event = .peerKeepAlive peer → roster.Dials id peer) :
    Prompted roster origins id (Happening.ofTimer event) [] := by
  refine .unposted ?_ ?_
  · intro happening means
    cases event with
    | peerKeepAlive peer =>
        cases means
        exact beats peer rfl
    | electionTimeout | leaderHeartbeat => cases means
    | peerTimeout peer conn | connectionTimeout conn | reconnect peer =>
        cases means
        trivial
  · intro happening means peer
    cases event with
    | electionTimeout | leaderHeartbeat => cases means
    | peerKeepAlive peer | peerTimeout peer conn | connectionTimeout conn | reconnect peer =>
        cases means
        rfl

/-! ## The turn of a node -/

namespace Mesh

/-- A node takes connections that were handed off. -/
theorem accepts
    (mesh : Mesh roster origins scene)
    (seated : scene.parties id = some before.party)
    (answered : Answered before (Shard.handOffs accepted) after) :
    Mesh roster origins (scene.seat id after.party) := by
  induction accepted generalizing scene before with
  | nil =>
      cases answered
      have same : scene.seat id after.party = scene := by
        unfold Scene.seat
        rw [← seated, Function.update_eq_self]
      exact same.symm ▸ mesh
  | cons conn rest ih =>
      cases answered with
      | @handled _ between _ _ _ performed answered =>
          have acts := (Core.handler_acts (.accepted conn)).of_perform performed
          have prompted : Prompted roster origins id (some (.accepted conn)) [] :=
            .unposted (fun _ same => Option.some.inj same ▸ trivial) fun _ same _ =>
              Option.some.inj same ▸ rfl
          have moved := mesh.acts seated (List.nil_append _).symm prompted nofun nofun acts
          rw [Scene.leave_self] at moved
          have accepted := ih moved Scene.parties_seat_self answered
          rwa [Scene.seat_seat] at accepted

/-- A node handles something, and takes connections that were handed off. -/
theorem handles
    (mesh : Mesh roster origins scene)
    (impulse : Impulse)
    (seated : scene.parties id = some before.party)
    (waiting : scene.inbox id = taken ++ rest)
    (prompted : Prompted roster origins id impulse.happening? taken)
    (going : impulse.happening? ≠ some .start)
    (closed : ∀ conn, impulse.happening? = some (.closed conn) → scene.links.get? conn = none)
    (answered : Answered before (.handled impulse :: Shard.handOffs accepted) after) :
    Mesh roster origins ((scene.leave id rest).seat id after.party) := by
  cases answered with
  | handled performed answered =>
      have acts := (Core.impulse_acts impulse).of_perform performed
      have moved := mesh.acts seated waiting prompted going closed acts
      have accepted := moved.accepts Scene.parties_seat_self answered
      rwa [Scene.seat_seat] at accepted

/-- The timers of a node have changed, and nothing new was armed. -/
theorem retimed
    {timers : Scheduler TimerEvent}
    (mesh : Mesh roster origins scene)
    (seated : scene.parties id = some before.party)
    (kept : ∀ task ∈ timers.held, ∃ old ∈ before.outside.timers.held,
      old.payload = task.payload) :
    Mesh roster origins (scene.seat id
      ({ before with outside.timers := timers } : Stage Core).party) :=
  mesh.seat seated ((mesh.sound id _ seated).withTimers kept) rfl fun _ _ _ _ asked => asked

end Mesh

namespace Hub.Meshed

variable
    {hub hub' : Hub}
    {parties : NodeId → Option Party}
    {name : MailboxId}
    {event : NetworkEvent}

/-- The hand-off queues do not matter. -/
theorem withQueues
    {queues : Table QueueId HandoffQueue}
    (meshed : hub.Meshed roster origins parties) :
    ({ hub with queues } : Hub).Meshed roster origins parties where
  posted := meshed.posted.of_eq (fun _ => rfl) rfl (Nat.le_refl _)
  known := meshed.known
  mesh := meshed.mesh

/-- A node takes the oldest event out of its mailbox and handles it, and then it takes connections
that were handed off. -/
theorem hears
    (meshed : hub.Meshed roster origins parties)
    (seated : parties id = some before.party)
    (owned : hub.mailboxOf? id = some name)
    (taken : hub.takeEvent name = (some event, hub'))
    (answered : Answered before
      (.handled (.told (.reported event)) :: Shard.handOffs accepted) after) :
    hub'.Meshed roster origins (Function.update parties id (some after.party)) := by
  obtain ⟨event_eq, rfl⟩ := Prod.mk.inj taken
  obtain ⟨rest, waiting, left⟩ := meshed.posted.inbox_takeEvent owned event_eq
  have waiting : (hub.scene parties).inbox id = [event] ++ rest := waiting
  have vouch : origins.Vouch hub.links id event := by
    refine meshed.mesh.vouched id event ?_
    rw [waiting]
    exact List.mem_cons_self
  have handled := meshed.mesh.handles (.told (.reported event)) seated waiting (.posted vouch)
    (fun starts => nomatch NetworkEvent.means starts) (fun _ => vouch.closed) answered
  have left_eq : (hub.takeEvent name).2.scene (Function.update parties id (some after.party)) =
      ((hub.scene parties).leave id rest).seat id after.party := by
    unfold Hub.scene
    rw [left]
    rfl
  exact {
    posted := meshed.posted.takeEvent
    known := meshed.known_seat seated fun _ => rfl
    mesh := left_eq.symm ▸ handled }

/-- A node acts, and leaves its mailbox alone. -/
theorem seat
    {party party' : Party}
    (meshed : hub.Meshed roster origins parties)
    (seated : parties id = some party)
    (mesh : Mesh roster origins ((hub.scene parties).seat id party')) :
    hub.Meshed roster origins (Function.update parties id (some party')) where
  posted := meshed.posted
  known := meshed.known_seat seated fun _ => rfl
  mesh := mesh

/-- A node receives a fired timer and handles it, and then it takes connections that were handed
off. -/
theorem wakes
    {task : Task TimerEvent}
    {timers : Scheduler TimerEvent}
    {clockMs : Nat}
    (meshed : hub.Meshed roster origins parties)
    (seated : parties id = some before.party)
    (received : before.outside.timers.receive clockMs = .ok (some task, timers))
    (answered : Answered { before with outside.timers := timers }
      (.handled (.timer task.payload) :: Shard.handOffs accepted) after) :
    hub.Meshed roster origins (Function.update parties id (some after.party)) := by
  obtain ⟨held, kept⟩ := Scheduler.payload_of_receive received
  have retimed := meshed.mesh.retimed seated kept
  have handled := retimed.handles (.timer task.payload) Scene.parties_seat_self
    (List.nil_append _).symm
    (.timed fun peer beat => (meshed.mesh.sound id _ seated).beats task held peer beat)
    (fun starts => nomatch Happening.not_isCall_of_ofTimer starts)
    (fun _ gone => nomatch Happening.not_isCall_of_ofTimer gone) answered
  rw [Scene.leave_self, Scene.seat_seat] at handled
  exact meshed.seat seated handled

/-- A node is made known. -/
theorem wires
    {queue : QueueId}
    {capacity : Nat}
    (meshed : hub.Meshed roster origins parties)
    (unknown : hub.mailboxOf? id = none)
    (opened : (hub.register id).2.openQueue capacity = .ok (queue, hub')) :
    (hub'.attach id queue).Meshed roster origins parties := by
  obtain ⟨posted, inbox_eq⟩ := meshed.posted.wired unknown opened
  have scene_eq : (hub'.attach id queue).scene parties =
      { hub.scene parties with issued := hub.issued + 2 } := by
    unfold Hub.scene
    rw [inbox_eq, links_wired opened, issued_wired opened]
  refine ⟨posted, fun other seated => ?_, ?_⟩
  · rw [mailboxOf?_wired opened]
    split
    · rfl
    · exact meshed.known other seated
  · rw [scene_eq]
    exact meshed.mesh.issue (Nat.le_add_right _ 2)

/-- A node that is known starts. -/
theorem starts
    {sinceMs : Nat}
    (meshed : hub.Meshed roster origins parties)
    (unseated : parties id = none)
    (owned : (hub.mailboxOf? id).isSome)
    (enrolled : id ∈ roster.ids)
    (own_eq : before.own = Core.ofConfig (roster.configOf id) sinceMs)
    (unasked : before.outside.asked = [])
    (unarmed : before.outside.timers.held = [])
    (acts : Core.Acts before (some .start) after) :
    hub.Meshed roster origins (Function.update parties id (some after.party)) where
  posted := meshed.posted
  known := by
    intro other seated
    by_cases same : other = id
    · exact same ▸ owned
    · rw [Function.update_of_ne same] at seated
      exact meshed.known other seated
  mesh := meshed.mesh.joins unseated enrolled own_eq unasked unarmed acts

end Hub.Meshed

namespace Shard

/-- What a shard is before it does anything. -/
theorem create_eq_ok
    {config : NodeConfig}
    {clockMs : Nat}
    {draws : Nat → Nat}
    (made : create config clockMs draws = .ok shard) :
    ∃ timers sinceMs, Scheduler.start config.timer clockMs = .ok timers ∧
      shard.stage = ⟨Core.ofConfig config sinceMs, { clockMs, timers, draws }⟩ ∧
      shard.isRunning = true := by
  obtain ⟨timers, started, made⟩ := bind_eq_ok_iff.mp made
  obtain ⟨sinceMs, _, made⟩ := bind_eq_ok_iff.mp made
  cases made
  exact ⟨timers, sinceMs, started, rfl, rfl⟩

variable {shard' : Shard}

/-- A shard that goes on after its start has started its core. -/
theorem begin_acts
    (fresh : shard.isRunning = true)
    (running : (shard.begin []).isRunning = true) :
    Core.Acts shard.stage (some .start) (shard.begin []).stage := by
  have answered : Answered shard.stage [.handled (.told .started)] (shard.begin []).stage :=
    (begin_takes fresh []).answered_of_running running
  cases answered with
  | handled performed answered =>
      cases answered
      exact (Core.impulse_acts (.told .started)).of_perform performed

theorem receive_eq_some
    {event : TimerEvent}
    (received : shard.receive = (some event, shard')) :
    ∃ task timers, shard.stage.outside.timers.receive shard.clockMs = .ok (some task, timers) ∧
      task.payload = event ∧ shard' = shard.modifyTimers fun _ => timers := by
  unfold receive at received
  split at received
  · next task timers found =>
    cases task with
    | none => cases received
    | some task =>
        cases received
        exact ⟨task, timers, found, rfl, rfl⟩
  · cases received

theorem receive_eq_none
    (received : shard.receive = (none, shard'))
    (running : shard'.isRunning = true) :
    ∃ timers, shard.stage.outside.timers.receive shard.clockMs = .ok (none, timers) ∧
      shard' = shard.modifyTimers fun _ => timers := by
  unfold receive at received
  split at received
  · next task timers found =>
    cases task with
    | none =>
        cases received
        exact ⟨timers, found, rfl⟩
    | some task => cases received
  · cases received
    cases running

end Shard

end Quorum
