import Quorum.Proofs.Peers.Closings
import Quorum.Proofs.Peers.Undisturbed

/-!
# Connections that belong to a peer

When a peer says who it is on a connection that this node has opened, the connection belongs to that
peer: it resolves to the peer, nobody else is bound to it, and its handshake is over.  The link of
the peer then has a recurring request besides its timeout (`Moves.attaches`).

As long as nothing is heard of the connection and the peer does not turn up on another one, only the
timeout of the link takes it away (`Moves.attached`).  An answer on the connection arms the timeout
anew and does nothing else (`Moves.refreshes`), and whenever the recurring request is due it is sent
(`Moves.probes`).
-/

namespace Quorum

namespace Registry

variable {registry : Registry} {id another : NodeId} {conn other : ConnId}

/-- A connection is bound to a peer, and to nobody else. -/
structure Exclusive (registry : Registry) (id : NodeId) (conn : ConnId) : Prop where
  resolved : registry.peerOf? conn = some id
  sole : ∀ another, registry.get? another = some conn → another = id

namespace Exclusive

theorem addAnonymous (exclusive : registry.Exclusive id conn) :
    (registry.addAnonymous other).Exclusive id conn where
  resolved := by
    rw [peerOf?_addAnonymous]
    exact exclusive.resolved
  sole := by
    intro another held
    rw [get?_addAnonymous] at held
    exact exclusive.sole another held

theorem removeConnection
    (exclusive : registry.Exclusive id conn)
    (apart : other ≠ conn) :
    (registry.removeConnection other).Exclusive id conn where
  resolved := by
    rw [peerOf?_removeConnection, if_neg apart.symm]
    exact exclusive.resolved
  sole := by
    intro another held
    rw [get?_removeConnection] at held
    split at held
    · cases held
    · exact exclusive.sole another held

theorem removeIfCurrent
    (exclusive : registry.Exclusive id conn)
    (current : registry.get? another = some other)
    (apart : other ≠ conn) :
    (registry.removeIfCurrent another other).Exclusive id conn where
  resolved := by
    rw [peerOf?_removeIfCurrent current, if_neg apart.symm]
    exact exclusive.resolved
  sole := by
    intro third held
    rw [get?_removeIfCurrent current] at held
    split at held
    · cases held
    · exact exclusive.sole third held

/-- Another peer is bound to another connection. -/
theorem bind
    (exclusive : registry.Exclusive id conn)
    (peer : another ≠ id)
    (apart : other ≠ conn) :
    (registry.bind another other).Exclusive id conn where
  resolved := by
    have older : registry.get? another ≠ some conn := fun held => peer (exclusive.sole another held)
    rw [peerOf?_bind, if_neg apart.symm, if_neg older, ite_self]
    exact exclusive.resolved
  sole := by
    intro third held
    rw [get?_bind] at held
    split at held
    · exact absurd (Option.some.inj held) apart
    · exact exclusive.sole third held

end Exclusive

end Registry

namespace Liveness

variable
    {timers : Scheduler TimerEvent}
    {own next : Liveness}
    {happening : Happening}
    {event : Option PeerEvent}
    {effect : Effect}
    {conn other : ConnId}
    {id : NodeId}
    {link : PeerLink}

/-- A connection belongs to a peer, and its handshake is over. -/
structure Attached (own : Liveness) (id : NodeId) (conn : ConnId) : Prop where
  exclusive : own.registry.Exclusive id conn
  quiet : own.dialing.get? conn = none

/-- Another connection ends. -/
theorem Ends.exclusive
    (ends : own.Ends other event effect next)
    (exclusive : own.registry.Exclusive id conn)
    (apart : other ≠ conn) :
    next.registry.Exclusive id conn := by
  cases ends with
  | unanswered _ pursues =>
      obtain ⟨_, rfl⟩ := pursues.next_eq
      exact exclusive
  | unbound _ _ => exact exclusive.removeConnection apart
  | parted _ _ pursues =>
      obtain ⟨_, rfl⟩ := pursues.next_eq
      exact exclusive.removeConnection apart

/-- A connection that nothing is heard of stays with its peer, unless the timeout passes. -/
theorem Moves.attached
    (moves : own.Moves timers happening event effect next)
    (attached : own.Attached id conn)
    (elsewhere : happening.conn? ≠ some conn)
    (calm : ¬ happening.Disturbs own id conn)
    (lasting : happening ≠ .shutdown)
    (unexpired : happening ≠ .peerTimeout id conn) :
    next.Attached id conn where
  quiet := by
    refine Option.not_isSome_iff_eq_none.mp fun waiting => ?_
    rcases moves.isSome_dialing waiting with old | ⟨_, rfl⟩
    · rw [attached.quiet] at old
      cases old
    · exact elsewhere rfl
  exclusive := by
    have exclusive := attached.exclusive
    have apart {other : ConnId} (reported : happening.conn? = some other) : other ≠ conn := by
      rintro rfl
      exact elsewhere reported
    cases moves with
    | failed pursues | lapsed _ pursues =>
        obtain ⟨_, rfl⟩ := pursues.next_eq
        exact exclusive
    | redialled _ _ dials =>
        obtain ⟨_, rfl⟩ := dials.next_eq
        exact exclusive
    | answered _ rearms | heard _ _ rearms | revived _ _ rearms =>
        rw [rearms.registry_eq]
        exact exclusive
    | recanted _ _ ends | ended ends => exact ends.exclusive exclusive (apart rfl)
    | identified nobody _ identifies =>
        cases identifies with
        | bound _ => exact exclusive.bind (fun same => calm (.inr ⟨same, nobody⟩)) (apart rfl)
    | acknowledged waiting identifies =>
        cases identifies with
        | bound _ =>
            refine exclusive.bind (fun same => calm (.inr ?_)) (apart rfl)
            rw [waiting, Option.map_some, same]
    | @expired another other _ _ current pursues =>
        obtain ⟨_, rfl⟩ := pursues.next_eq
        refine exclusive.removeIfCurrent current ?_
        rintro rfl
        obtain rfl := exclusive.sole another current
        exact unexpired rfl
    | greeted _ => exact exclusive.addAnonymous
    | refused _ _ => exact exclusive.removeConnection (apart rfl)
    | dismissed _ _ => exact ⟨exclusive.resolved, exclusive.sole⟩
    | shut => exact absurd rfl lasting
    | _ => exact exclusive

/-- A connection that this node has opened, and that nobody was bound to, is bound to a peer. -/
theorem Identifies.attaches
    (identifies : own.Identifies conn id effect next)
    (dialled : (own.dialing.get? conn).isSome)
    (unbound : ∀ another, own.registry.get? another ≠ some conn)
    (identified : next.registry.peerOf? conn = some id) :
    next.Attached id conn ∧ ∃ beat watch,
      next.links.get? id = some ⟨conn, some beat, some watch⟩ ∧
      own.beatDeadline id beat ∈ effect.armed ∧ own.peerDeadline id conn watch ∈ effect.armed := by
  cases identifies with
  | @bound keepalive watch same =>
      obtain ⟨beat, rfl⟩ := Option.isSome_iff_exists.mp (same.trans dialled)
      have attached : Attached _ id conn := {
        exclusive := {
          resolved := identified
          sole := by
            intro another held
            rw [Registry.get?_bind] at held
            split at held
            · assumption
            · exact absurd held (unbound another) }
        quiet := Table.get?_erase_self .. }
      exact ⟨attached, beat, watch, Table.get?_insert_self .., List.mem_cons_self,
        List.mem_cons_of_mem _ List.mem_cons_self⟩

/-- A peer that says who it is on a connection which this node has opened gets the connection, and
a link with a recurring request and a timeout. -/
theorem Moves.attaches
    (moves : own.Moves timers happening event effect next)
    (coherent : own.registry.Coherent)
    (greets : happening.Greets own id conn)
    (dialled : (own.dialing.get? conn).isSome)
    (unbound : ∀ another, own.registry.get? another ≠ some conn)
    (identified : next.registry.peerOf? conn = some id) :
    next.Attached id conn ∧ ∃ beat watch,
      next.links.get? id = some ⟨conn, some beat, some watch⟩ ∧
      own.beatDeadline id beat ∈ effect.armed ∧ own.peerDeadline id conn watch ∈ effect.armed := by
  have nobody (another : NodeId) : own.registry.peerOf? conn ≠ some another :=
    fun resolved => unbound another (coherent.bound conn another resolved)
  cases moves with
  | answered bound _ | recanted bound _ _ =>
      obtain ⟨rfl, rfl⟩ := greets
      exact absurd bound (nobody _)
  | @identified _ _ effect _ _ _ identifies =>
      obtain ⟨rfl, rfl⟩ := greets
      obtain ⟨attached, beat, watch, linked, beats, watches⟩ :=
        identifies.attaches dialled unbound identified
      exact ⟨attached, beat, watch, linked,
        List.mem_append_right _ (List.mem_append_left _ beats),
        List.mem_append_right _ (List.mem_append_left _ watches)⟩
  | refused _ _ =>
      obtain ⟨rfl, rfl⟩ := greets
      rw [Registry.peerOf?_removeConnection, if_pos rfl] at identified
      cases identified
  | @acknowledged _ pending _ _ waiting identifies =>
      obtain ⟨rfl, speaks⟩ := greets
      have same : pending.id = id := by simpa [speaker?, waiting] using speaks
      subst same
      exact identifies.attaches dialled unbound identified
  | heard quiet _ _ | ignored quiet _ =>
      obtain ⟨rfl, _⟩ := greets
      rw [quiet] at dialled
      cases dialled
  | _ => cases greets

/-- An answer on the connection of a peer arms its timeout anew. -/
theorem Moves.refreshes
    (moves : own.Moves timers (.response conn) event effect next)
    (attached : own.Attached id conn)
    (linked : own.links.get? id = some link)
    (current : link.conn = conn) :
    event = none ∧ ∃ handle, own.peerDeadline id conn handle ∈ effect.armed ∧
      next = { own with links := own.links.insert id { link with timeout := some handle } } := by
  have resolved := attached.exclusive.resolved
  cases moves with
  | acknowledged waiting _ =>
      rw [attached.quiet] at waiting
      cases waiting
  | heard _ bound rearms =>
      rw [resolved] at bound
      obtain rfl := Option.some.inj bound
      cases rearms with
      | @rearmed link' handle linked' _ =>
          rw [linked] at linked'
          obtain rfl := Option.some.inj linked'
          exact ⟨rfl, handle, List.mem_cons_self, rfl⟩
      | moved elsewhere => exact absurd current (elsewhere link linked)
  | ignored _ nobody =>
      rw [resolved] at nobody
      cases nobody

/-- Whenever the recurring request on a link is due, it is sent. -/
theorem Moves.probes
    (moves : own.Moves timers (.keepalive id) event effect next)
    (linked : own.links.get? id = some link) :
    .send link.conn (.request (.heartbeat own.localId)) ∈ effect.asks := by
  cases moves with
  | unlinked alone =>
      rw [alone] at linked
      cases linked
  | nudged linked' _ | revived linked' _ _ =>
      rw [linked] at linked'
      obtain rfl := Option.some.inj linked'
      exact List.mem_cons_self

end Liveness

end Quorum
