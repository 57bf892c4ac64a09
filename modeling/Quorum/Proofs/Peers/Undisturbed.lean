import Quorum.Proofs.Peers.Phases
import Quorum.Proofs.Peers.Tending

/-!
# A peer that nothing is heard of

A heartbeat of a peer arms its timeout anew (`Moves.rearms`).  As long as nothing else is heard of
its connection, the peer does not turn up on another one, and the timeout is still running, whatever
else happens leaves its binding, its link and its timeout alone, and is no news about it
(`Moves.undisturbed`, `Moves.spares`).  In particular the requests that this node itself sends to
keep the connection alive do not touch the timeout.
-/

namespace Quorum

/-- Whom a response on a connection is taken to come from: the peer that the connection was opened
to, while that is waited for, and after that the peer it is bound to. -/
def Liveness.speaker? (own : Liveness) (conn : ConnId) : Option NodeId :=
  ((own.dialing.get? conn).map PendingDial.id).or (own.registry.peerOf? conn)

namespace Happening

/-- A heartbeat comes from a peer on a connection. -/
def Greets (own : Liveness) (id : NodeId) (conn : ConnId) : Happening → Prop
  | request other claimed => other = conn ∧ claimed = id
  | response other => other = conn ∧ own.speaker? conn = some id
  | _ => False

/-- Something is heard of a peer, or of a connection. -/
def Touches (own : Liveness) (id : NodeId) (conn : ConnId) : Happening → Prop
  | request other claimed => other = conn ∨ claimed = id
  | response other => other = conn ∨ own.speaker? other = some id
  | closed other => other = conn
  | _ => False

/-- Something is heard of a connection, or a peer says who it is on one that nobody is bound to. -/
def Disturbs (own : Liveness) (id : NodeId) (conn : ConnId) : Happening → Prop
  | request other claimed => other = conn ∨ claimed = id ∧ own.registry.peerOf? other = none
  | response other => other = conn ∨ (own.dialing.get? other).map PendingDial.id = some id
  | closed other => other = conn
  | _ => False

/-- What disturbs a peer is heard of it or of its connection. -/
theorem Disturbs.touches
    {happening : Happening}
    {own : Liveness}
    {id : NodeId}
    {conn : ConnId}
    (disturbs : happening.Disturbs own id conn) :
    happening.Touches own id conn := by
  cases happening with
  | request other claimed => exact disturbs.imp_right And.left
  | response other =>
      refine disturbs.imp_right fun waiting => ?_
      unfold Liveness.speaker?
      rw [waiting, Option.some_or]
  | closed other => exact disturbs
  | _ => exact disturbs.elim

/-- Nobody is disturbed when a timer fires. -/
theorem not_disturbs_of_ofTimer
    {event : TimerEvent}
    {happening : Happening}
    {own : Liveness}
    {id : NodeId}
    {conn : ConnId}
    (meant : ofTimer event = some happening) :
    ¬ happening.Disturbs own id conn := by
  intro disturbs
  cases event <;> cases meant <;> exact disturbs

end Happening

namespace Liveness

variable
    {timers : Scheduler TimerEvent}
    {own next : Liveness}
    {happening : Happening}
    {event : Option PeerEvent}
    {effect : Effect}
    {conn other : ConnId}
    {id another : NodeId}
    {missing orphans : List (Deadline TimerEvent)}

/-- The binding and the link of a peer are as before, and there are no news about it. -/
structure Leaves
    (own : Liveness)
    (id : NodeId)
    (event : Option PeerEvent)
    (next : Liveness) : Prop where
  bound : next.registry.get? id = own.registry.get? id
  linked : next.links.get? id = own.links.get? id
  silent : ∀ news ∈ event, news.peer ≠ id

/-- Without any news, binding and link are all there is to look at. -/
theorem Leaves.silently
    (bound : next.registry.get? id = own.registry.get? id)
    (linked : next.links.get? id = own.links.get? id) :
    own.Leaves id none next :=
  ⟨bound, linked, nofun⟩

/-- Dialling a peer again changes neither bindings nor links. -/
theorem Pursues.leaves
    {between : Liveness}
    (pursues : between.Pursues another effect next)
    (leaves : own.Leaves id event between) :
    own.Leaves id event next := by
  obtain ⟨_, rfl⟩ := pursues.next_eq
  exact { leaves with }

/-- Arming the timeout of another peer. -/
theorem Rearms.leaves
    (rearms : own.Rearms another conn effect next)
    (apart : another ≠ id) :
    own.Leaves id none next := by
  cases rearms with
  | rearmed _ _ => exact .silently rfl (by rw [Table.get?_insert, if_neg apart.symm])
  | moved _ => exact .silently rfl rfl

/-- Another peer is identified. -/
theorem Identifies.leaves
    (identifies : own.Identifies conn another effect next)
    (apart : another ≠ id) :
    own.Leaves id none next := by
  cases identifies with
  | bound _ =>
      refine .silently (by rw [Registry.get?_bind, if_neg apart.symm]) ?_
      rw [Table.get?_insert, if_neg apart.symm, Table.get?_erase, if_neg apart.symm]

/-- What is told about a binding is about the peer that is bound. -/
theorem peer_announced
    {registry : Registry}
    {news : PeerEvent}
    (announced : news ∈ registry.announced another conn) :
    news.peer = another := by
  rw [Registry.announced_eq] at announced
  split at announced
  · cases announced
    rfl
  · cases announced

/-- A connection ends that is not bound to the peer. -/
theorem Ends.leaves
    (ends : own.Ends other event effect next)
    (apart : own.registry.peerOf? other ≠ some id) :
    own.Leaves id event next := by
  cases ends with
  | unanswered _ pursues => exact pursues.leaves (.silently rfl rfl)
  | unbound _ _ => exact .silently (by rw [Registry.get?_removeConnection, if_neg apart]) rfl
  | @parted another _ _ _ bound pursues =>
      have others : another ≠ id := by
        rintro rfl
        exact apart bound
      refine pursues.leaves ?_
      exact {
        bound := by rw [Registry.get?_removeConnection, if_neg apart]
        linked := by rw [Table.get?_erase, if_neg others.symm]
        silent := by
          rintro _ ⟨⟩
          exact others }

/-- While its timeout is running, a peer that nothing disturbs stays as it is. -/
theorem Moves.undisturbed
    (moves : own.Moves timers happening event effect next)
    (coherent : own.registry.Coherent)
    (here : ∀ other, own.registry.get? id = some other → other = conn)
    (timed : ∀ link, own.links.get? id = some link →
      ∃ handle, link.timeout = some handle ∧ timers.isCancelled handle = false)
    (calm : ¬ happening.Disturbs own id conn)
    (lasting : happening ≠ .shutdown)
    (unexpired : ∀ other, happening = .peerTimeout id other → own.registry.get? id ≠ some other) :
    own.Leaves id event next := by
  -- A connection that resolves to the peer is the one that nothing arrives on.
  have elsewhere {other : ConnId} (apart : other ≠ conn) : own.registry.peerOf? other ≠ some id :=
    fun resolved => apart (here other (coherent.bound other id resolved))
  cases moves with
  | failed pursues | lapsed _ pursues => exact pursues.leaves (.silently rfl rfl)
  | greeted _ => exact .silently Registry.get?_addAnonymous rfl
  | @answered other another _ _ bound rearms =>
      refine rearms.leaves ?_
      rintro rfl
      exact elsewhere (not_or.mp calm).1 bound
  | recanted _ _ ends => exact ends.leaves (elsewhere (not_or.mp calm).1)
  | @identified other another _ _ nobody _ identifies =>
      have apart : another ≠ id := fun same => (not_or.mp calm).2 ⟨same, nobody⟩
      have leaves := identifies.leaves apart
      exact {
        bound := leaves.bound
        linked := leaves.linked
        silent := fun news announced same => apart (peer_announced announced ▸ same) }
  | refused nobody _ =>
      refine .silently ?_ rfl
      rw [Registry.get?_removeConnection, nobody, if_neg nofun]
  | @acknowledged other pending _ _ waiting identifies =>
      have apart : pending.id ≠ id := by
        rintro rfl
        exact (not_or.mp calm).2 (by rw [waiting, Option.map_some])
      have leaves := identifies.leaves apart
      exact {
        bound := leaves.bound
        linked := leaves.linked
        silent := fun news announced same => apart (peer_announced announced ▸ same) }
  | heard _ bound rearms =>
      refine rearms.leaves ?_
      rintro rfl
      exact elsewhere (not_or.mp calm).1 bound
  | ended ends => exact ends.leaves (elsewhere calm)
  | @revived another link _ _ linked untimed rearms =>
      refine rearms.leaves ?_
      rintro rfl
      obtain ⟨handle, held, running⟩ := timed link linked
      rw [untimed handle held] at running
      cases running
  | @expired another other _ _ current pursues =>
      have apart : another ≠ id := by
        rintro rfl
        exact unexpired other rfl current
      refine pursues.leaves ?_
      exact {
        bound := by rw [Registry.get?_removeIfCurrent current, if_neg apart.symm]
        linked := by rw [Table.get?_erase, if_neg apart.symm]
        silent := by
          rintro _ ⟨⟩
          exact apart }
  | redialled _ _ dials =>
      obtain ⟨_, rfl⟩ := dials.next_eq
      exact .silently rfl rfl
  | shut => exact absurd rfl lasting
  | started | opened | known | ignored | unlinked | nudged | superseded | dismissed | forgotten
  | reunited => exact .silently rfl rfl

section Released

variable
    (moves : own.Moves timers happening event effect next)
    (books : Books timers own missing orphans)

include moves books

/-- Only timers that the state calls for are released. -/
theorem Moves.released_lt : ∀ handle ∈ effect.released, handle.number < timers.issued := by
  obtain ⟨_, released, exchanges⟩ := moves.exchanges
  exact books.released_lt released exchanges

/-- A timer that is called for before and after a move is not released by it. -/
theorem Moves.spares
    {deadline : Deadline TimerEvent}
    (fresh : ∀ armed ∈ effect.armed, timers.issued ≤ armed.handle.number)
    (before : deadline ∈ own.deadlines)
    (after : deadline ∈ next.deadlines) :
    deadline.handle ∉ effect.released := by
  obtain ⟨dropped, released, rest, own_perm, next_perm⟩ := moves.exchanges
  have distinct := books.nodup_own
  rw [List.map_append] at distinct
  have distinct := (own_perm.map Deadline.handle).nodup_iff.mp (List.nodup_append.mp distinct).2.1
  rw [List.map_append, List.map_append, List.append_assoc] at distinct
  have apart := (List.nodup_append.mp distinct).2.2
  rw [← released]
  intro gone
  rcases List.mem_append.mp (next_perm.mem_iff.mp after) with armed | kept
  · exact absurd (books.handle_lt before) (Nat.not_lt.mpr (fresh deadline armed))
  · exact apart _ gone _ (List.mem_append_right _ (List.mem_map_of_mem kept)) rfl

end Released

/-- A heartbeat of an identified peer arms its timeout anew. -/
theorem Moves.rearms
    (moves : own.Moves timers happening event effect next)
    (aligned : Aligned own.registry own.links)
    (greets : happening.Greets own id conn)
    (identified : next.registry.peerOf? conn = some id) :
    ∃ link handle, next.links.get? id = some link ∧ link.conn = conn ∧
      link.timeout = some handle ∧ own.peerDeadline id conn handle ∈ effect.armed := by
  have rearmed {effect : Effect} (bound : own.registry.peerOf? conn = some id)
      (rearms : own.Rearms id conn effect next) :
      ∃ link handle, next.links.get? id = some link ∧ link.conn = conn ∧
        link.timeout = some handle ∧ own.peerDeadline id conn handle ∈ effect.armed := by
    cases rearms with
    | @rearmed link handle linked current =>
        exact ⟨_, handle, Table.get?_insert_self .., current, rfl, List.mem_cons_self⟩
    | moved elsewhere =>
        obtain ⟨link, linked, current⟩ := aligned.exists_link_of_peerOf? bound
        exact absurd current (elsewhere link linked)
  cases moves with
  | @answered other claimed _ _ bound rearms =>
      obtain ⟨rfl, rfl⟩ := greets
      obtain ⟨link, handle, linked, current, timeout, armed⟩ := rearmed bound rearms
      exact ⟨link, handle, linked, current, timeout, List.mem_append_left _ armed⟩
  | @recanted other claimed former _ _ _ bound changed ends =>
      obtain ⟨rfl, rfl⟩ := greets
      cases ends with
      | unanswered _ pursues =>
          obtain ⟨_, rfl⟩ := pursues.next_eq
          rw [show own.registry.peerOf? other = some claimed from identified] at bound
          exact absurd (Option.some.inj bound).symm changed
      | unbound _ nobody =>
          rw [nobody] at bound
          cases bound
      | parted _ _ pursues =>
          obtain ⟨_, rfl⟩ := pursues.next_eq
          rw [Registry.peerOf?_removeConnection, if_pos rfl] at identified
          cases identified
  | @identified other claimed _ _ _ _ identifies =>
      obtain ⟨rfl, rfl⟩ := greets
      cases identifies with
      | @bound keepalive handle _ =>
          refine ⟨_, handle, Table.get?_insert_self .., rfl, rfl, ?_⟩
          simp [peerDeadline]
  | @refused other claimed _ _ =>
      obtain ⟨rfl, rfl⟩ := greets
      rw [Registry.peerOf?_removeConnection, if_pos rfl] at identified
      cases identified
  | @acknowledged other pending _ _ waiting identifies =>
      obtain ⟨rfl, speaks⟩ := greets
      have same : pending.id = id := by simpa [speaker?, waiting] using speaks
      subst same
      cases identifies with
      | @bound keepalive handle _ =>
          refine ⟨_, handle, Table.get?_insert_self .., rfl, rfl, ?_⟩
          simp
  | @heard other another _ _ quiet bound rearms =>
      obtain ⟨rfl, speaks⟩ := greets
      have same : another = id := by simpa [speaker?, quiet, bound] using speaks
      subst same
      exact rearmed bound rearms
  | @ignored other quiet nobody =>
      obtain ⟨rfl, speaks⟩ := greets
      simp [speaker?, quiet, nobody] at speaks
  | _ => cases greets

end Liveness

end Quorum
