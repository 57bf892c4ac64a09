import Quorum.Proofs.Peers.Bindings
import Quorum.Proofs.Peers.Moves

/-!
# The phases of a connection

Whatever happens, the links of the protocol agree with the registry, and every link has a timeout
(`Aligned`).  That a connection is in one phase at a time (`Apart`) needs more: it has to be new
when it is reported as opened by this node, and must not be handed over as an accepted one later.
-/

namespace Quorum.Liveness

variable
    {timers : Scheduler TimerEvent}
    {own next : Liveness}
    {happening : Happening}
    {event : Option PeerEvent}
    {effect : Effect}
    {registry : Registry}
    {links : Table NodeId PeerLink}
    {dialing : Table ConnId PendingDial}
    {anonymous : Table ConnId Handle}
    {conn another : ConnId}
    {id : NodeId}

/-! ## What a move leaves alone -/

theorem Pursues.next_eq (pursues : own.Pursues id effect next) :
    ∃ reconnecting, next = { own with reconnecting } := by
  cases pursues with
  | scheduled _ _ => exact ⟨_, rfl⟩
  | spared _ => exact ⟨_, rfl⟩

theorem Dials.next_eq (dials : own.Dials id effect next) :
    ∃ inFlight, next = { own with inFlight } := by
  cases dials with
  | dialled _ _ => exact ⟨_, rfl⟩
  | spared _ => exact ⟨_, rfl⟩

namespace DialsEach

variable {peers : List Peer}

theorem next_eq (each : own.DialsEach peers effect next) :
    ∃ inFlight, next = { own with inFlight } := by
  induction each with
  | nil => exact ⟨_, rfl⟩
  | cons dials _ ih =>
      obtain ⟨_, rfl⟩ := dials.next_eq
      exact ih

theorem connects (each : own.DialsEach peers effect next) :
    ∀ ask ∈ effect.asks, ∃ peer, ask = .connect peer := by
  induction each with
  | nil => exact List.forall_mem_nil _
  | cons dials _ ih =>
      refine List.forall_mem_append.mpr ⟨?_, ih⟩
      cases dials with
      | dialled _ _ => exact List.forall_mem_singleton.mpr ⟨_, rfl⟩
      | spared _ => exact List.forall_mem_nil _

theorem kept (each : own.DialsEach peers effect next) : own.inFlight ⊆ next.inFlight := by
  induction each with
  | nil => exact List.Subset.refl _
  | cons dials _ ih =>
      cases dials with
      | dialled _ _ => exact fun _ flies => ih (List.mem_insert_of_mem flies)
      | spared _ => exact ih

/-- A connect is in flight to everyone on the list, as far as this node dials them. -/
theorem dialled
    (each : own.DialsEach peers effect next)
    {peer : Peer}
    (listed : peer ∈ peers)
    (target : (own.target? peer.id).isSome) :
    peer.id ∈ next.inFlight := by
  induction each with
  | nil => cases listed
  | cons dials others ih =>
      rcases List.mem_cons.mp listed with rfl | later
      · apply others.kept
        cases dials with
        | dialled _ _ => exact List.mem_insert_self
        | spared needless =>
            refine needless.resolve_left fun unknown => ?_
            rw [unknown] at target
            cases target
      · obtain ⟨_, rfl⟩ := dials.next_eq
        exact ih later target

end DialsEach

theorem target?_isSome {peer : Peer} (listed : peer ∈ own.dialTargets) :
    (own.target? peer.id).isSome :=
  List.find?_isSome.mpr ⟨peer, listed, decide_eq_true rfl⟩

/-- What a protocol is told before it starts. -/
structure Settings where
  localId : NodeId
  dialTargets : List Peer
  members : List NodeId
  heartbeatInterval : Delay
  heartbeatTimeout : Delay

def settings (own : Liveness) : Settings where
  localId := own.localId
  dialTargets := own.dialTargets
  members := own.members
  heartbeatInterval := own.heartbeatInterval
  heartbeatTimeout := own.heartbeatTimeout

/-- The settings never change. -/
theorem Moves.settings_eq (moves : own.Moves timers happening event effect next) :
    next.settings = own.settings := by
  have rearming {own next : Liveness} {id : NodeId} {conn : ConnId} {effect : Effect}
      (rearms : own.Rearms id conn effect next) : next.settings = own.settings := by
    cases rearms <;> rfl
  have ending {own next : Liveness} {conn : ConnId} {event : Option PeerEvent} {effect : Effect}
      (ends : own.Ends conn event effect next) : next.settings = own.settings := by
    cases ends with
    | unanswered _ pursues =>
        obtain ⟨_, rfl⟩ := pursues.next_eq
        rfl
    | unbound _ _ => rfl
    | parted _ _ pursues =>
        obtain ⟨_, rfl⟩ := pursues.next_eq
        rfl
  cases moves with
  | failed pursues | expired _ pursues | lapsed _ pursues =>
      obtain ⟨_, rfl⟩ := pursues.next_eq
      rfl
  | redialled _ _ dials =>
      obtain ⟨_, rfl⟩ := dials.next_eq
      rfl
  | answered _ rearms | heard _ _ rearms | revived _ _ rearms => exact rearming rearms
  | recanted _ _ ends | ended ends => exact ending ends
  | identified _ _ identifies | acknowledged _ identifies => cases identifies; rfl
  | _ => rfl

/-! ## Links and registry -/

/-- A peer is linked if it is bound, and to the same connection; and every link has a timeout. -/
structure Aligned (registry : Registry) (links : Table NodeId PeerLink) : Prop where
  coherent : registry.Coherent
  same : ∀ id, (links.get? id).map PeerLink.conn = registry.get? id
  timed : ∀ id link, links.get? id = some link → link.timeout.isSome

namespace Aligned

variable {link : PeerLink}

theorem get?_of_link
    (aligned : Aligned registry links)
    (linked : links.get? id = some link) :
    registry.get? id = some link.conn := by
  rw [← aligned.same, linked]
  rfl

theorem exists_link
    (aligned : Aligned registry links)
    (bound : registry.get? id = some conn) :
    ∃ link, links.get? id = some link ∧ link.conn = conn := by
  rw [← aligned.same] at bound
  exact Option.map_eq_some_iff.mp bound

theorem exists_link_of_peerOf?
    (aligned : Aligned registry links)
    (bound : registry.peerOf? conn = some id) :
    ∃ link, links.get? id = some link ∧ link.conn = conn :=
  aligned.exists_link (aligned.coherent.bound conn id bound)

theorem addAnonymous (aligned : Aligned registry links) :
    Aligned (registry.addAnonymous conn) links where
  coherent := aligned.coherent.addAnonymous
  same := by simpa using aligned.same
  timed := aligned.timed

theorem removeAnonymous (aligned : Aligned registry links) :
    Aligned (registry.removeAnonymous conn) links where
  coherent := aligned.coherent.removeAnonymous
  same := aligned.same
  timed := aligned.timed

/-- A link and a binding go together. -/
theorem unlink
    {registry' : Registry}
    (aligned : Aligned registry links)
    (coherent : registry'.Coherent)
    (unbound : ∀ other, registry'.get? other = if other = id then none else registry.get? other) :
    Aligned registry' (links.erase id) where
  coherent := coherent
  same := by
    intro other
    rw [Table.get?_erase, unbound other, ← aligned.same other]
    split <;> rfl
  timed := by
    intro other link linked
    rw [Table.get?_erase] at linked
    split at linked
    · cases linked
    · exact aligned.timed other link linked

theorem removeConnection
    (aligned : Aligned registry links)
    (bound : registry.peerOf? conn = some id) :
    Aligned (registry.removeConnection conn) (links.erase id) := by
  refine aligned.unlink aligned.coherent.removeConnection fun other => ?_
  rw [Registry.get?_removeConnection, bound]
  simp only [Option.some.injEq, eq_comm (a := id)]

theorem removeConnection_of_nobody
    (aligned : Aligned registry links)
    (nobody : registry.peerOf? conn = none) :
    Aligned (registry.removeConnection conn) links where
  coherent := aligned.coherent.removeConnection
  same := by
    intro other
    rw [Registry.get?_removeConnection, nobody, if_neg nofun]
    exact aligned.same other
  timed := aligned.timed

theorem removeIfCurrent
    (aligned : Aligned registry links)
    (current : registry.get? id = some conn) :
    Aligned (registry.removeIfCurrent id conn) (links.erase id) :=
  aligned.unlink aligned.coherent.removeIfCurrent fun _ => Registry.get?_removeIfCurrent current

/-- A new link takes the place of an old one. -/
theorem insert
    {registry' : Registry}
    {links' : Table NodeId PeerLink}
    (aligned : Aligned registry links)
    (coherent : registry'.Coherent)
    (linked : ∀ other, links'.get? other = if other = id then some link else links.get? other)
    (bound : ∀ other, registry'.get? other =
      if other = id then some link.conn else registry.get? other)
    (timed : link.timeout.isSome) :
    Aligned registry' links' where
  coherent := coherent
  same := by
    intro other
    rw [linked other, bound other, ← aligned.same other]
    split <;> rfl
  timed := by
    intro other link' linked'
    rw [linked other] at linked'
    split at linked'
    · cases linked'
      exact timed
    · exact aligned.timed other link' linked'

theorem rearms
    (aligned : Aligned own.registry own.links)
    (rearms : own.Rearms id conn effect next) :
    Aligned next.registry next.links := by
  cases rearms with
  | @rearmed link handle linked current =>
      refine aligned.insert aligned.coherent (fun other => Table.get?_insert ..) ?_ rfl
      intro other
      split
      · next same =>
        have held := aligned.get?_of_link linked
        rw [same]
        exact held
      · rfl
  | moved _ => exact aligned

theorem identifies
    (aligned : Aligned own.registry own.links)
    (identifies : own.Identifies conn id effect next) :
    Aligned next.registry next.links := by
  cases identifies with
  | @bound keepalive handle _ =>
      refine aligned.insert aligned.coherent.bind ?_ (fun other => Registry.get?_bind)
        (show (PeerLink.mk conn keepalive (some handle)).timeout.isSome from rfl)
      intro other
      rw [Table.get?_insert, Table.get?_erase]
      split <;> simp [*]

theorem ends
    (aligned : Aligned own.registry own.links)
    (ends : own.Ends conn event effect next) :
    Aligned next.registry next.links := by
  cases ends with
  | unanswered _ pursues =>
      obtain ⟨_, rfl⟩ := pursues.next_eq
      exact aligned
  | unbound _ nobody => exact aligned.removeConnection_of_nobody nobody
  | parted _ bound pursues =>
      obtain ⟨_, rfl⟩ := pursues.next_eq
      exact aligned.removeConnection bound

end Aligned

theorem paired_foldl
    (conns : List ConnId)
    (paired : registry.Paired) :
    (conns.foldl Registry.removeConnection registry).Paired := by
  induction conns generalizing registry with
  | nil => exact paired
  | cons conn rest ih => exact ih paired.removeConnection

/-- Removing some connections, one after the other, removes the peers that are bound to them. -/
theorem get?_foldl
    (conns : List ConnId)
    (paired : registry.Paired) :
    (conns.foldl Registry.removeConnection registry).get? id =
      (registry.get? id).filter fun conn => conn ∉ conns := by
  induction conns generalizing registry with
  | nil =>
      rw [List.foldl_nil]
      cases registry.get? id <;> simp [Option.filter_some]
  | cons conn rest ih =>
      rw [List.foldl_cons, ih paired.removeConnection, Registry.get?_removeConnection]
      by_cases bound : registry.peerOf? conn = some id
      · rw [if_pos bound, (paired id conn).mpr bound]
        simp [Option.filter_some]
      · rw [if_neg bound]
        cases held : registry.get? id with
        | none => rfl
        | some other =>
            have apart : other ≠ conn := by
              rintro rfl
              exact bound ((paired id other).mp held)
            simp [Option.filter_some, apart]

theorem coherent_foldl
    (conns : List ConnId)
    (coherent : registry.Coherent) :
    (conns.foldl Registry.removeConnection registry).Coherent := by
  induction conns generalizing registry with
  | nil => exact coherent
  | cons conn rest ih => exact ih coherent.removeConnection

/-- When all connections are removed, no peer is bound any longer. -/
theorem get?_removeAll (paired : registry.Paired) :
    (registry.connections.foldl Registry.removeConnection registry).get? id = none := by
  rw [get?_foldl _ paired]
  cases held : registry.get? id with
  | none => rfl
  | some conn =>
      have listed : conn ∈ registry.connections := Table.mem_values_iff.mpr ⟨id, held⟩
      simp [Option.filter_some, listed]

/-- The links stay aligned with the registry; the shutdown needs the bindings to be one to one. -/
theorem Moves.aligned
    (moves : own.Moves timers happening event effect next)
    (aligned : Aligned own.registry own.links)
    (ordered : happening = .shutdown → own.registry.Paired) :
    Aligned next.registry next.links := by
  cases moves with
  | failed pursues | lapsed _ pursues =>
      obtain ⟨_, rfl⟩ := pursues.next_eq
      exact aligned
  | expired current pursues =>
      obtain ⟨_, rfl⟩ := pursues.next_eq
      exact aligned.removeIfCurrent current
  | redialled _ _ dials =>
      obtain ⟨_, rfl⟩ := dials.next_eq
      exact aligned
  | answered _ rearms | heard _ _ rearms | revived _ _ rearms => exact aligned.rearms rearms
  | recanted _ _ ends | ended ends => exact aligned.ends ends
  | @identified conn _ _ _ _ _ identifies =>
      have unlisted : Aligned
          ({ own with anonymous := own.anonymous.erase conn } : Liveness).registry
          ({ own with anonymous := own.anonymous.erase conn } : Liveness).links := aligned
      exact unlisted.identifies identifies
  | acknowledged _ identifies => exact aligned.identifies identifies
  | greeted _ => exact aligned.addAnonymous
  | refused nobody _ => exact aligned.removeConnection_of_nobody nobody
  | dismissed _ _ => exact aligned.removeAnonymous
  | shut =>
      exact {
        coherent := coherent_foldl _ aligned.coherent
        same := fun id => (get?_removeAll (ordered rfl)).symm
        timed := by
          intro id link linked
          cases linked }
  | _ => exact aligned

/-! ## One phase at a time -/

/-- Peers and connections are bound one to one, and no connection is in two phases: one that waits
for an answer is neither bound nor anonymous, and one with the timer of an anonymous connection is
anonymous. -/
structure Apart
    (registry : Registry)
    (dialing : Table ConnId PendingDial)
    (anonymous : Table ConnId Handle) : Prop where
  paired : registry.Paired
  unbound : ∀ conn, (dialing.get? conn).isSome → registry.peerOf? conn = none
  unlisted : ∀ conn, (dialing.get? conn).isSome → conn ∉ registry.anonymous
  listed : ∀ conn, (anonymous.get? conn).isSome → conn ∈ registry.anonymous

namespace Apart

theorem quiet
    (apart : Apart registry dialing anonymous)
    (held : (anonymous.get? conn).isSome) :
    dialing.get? conn = none := by
  cases waiting : dialing.get? conn with
  | none => rfl
  | some pending => exact absurd (apart.listed conn held) (apart.unlisted conn (by simp [waiting]))

theorem not_anonymous
    (apart : Apart registry dialing anonymous)
    (waiting : (dialing.get? conn).isSome) :
    anonymous.get? conn = none := by
  cases held : anonymous.get? conn with
  | none => rfl
  | some handle => exact absurd (apart.listed conn (by simp [held])) (apart.unlisted conn waiting)

/-- What is erased from a table was there for none of its keys. -/
theorem isSome_of_erase
    {κ α : Type}
    [DecidableEq κ]
    {table : Table κ α}
    {key other : κ}
    (held : ((table.erase key).get? other).isSome) :
    other ≠ key ∧ (table.get? other).isSome := by
  rw [Table.get?_erase] at held
  split at held
  · cases held
  · next apart => exact ⟨apart, held⟩

theorem undial (apart : Apart registry dialing anonymous) :
    Apart registry (dialing.erase conn) anonymous where
  paired := apart.paired
  unbound := fun another waiting => apart.unbound another (isSome_of_erase waiting).2
  unlisted := fun another waiting => apart.unlisted another (isSome_of_erase waiting).2
  listed := apart.listed

theorem unlist (apart : Apart registry dialing anonymous) :
    Apart registry dialing (anonymous.erase conn) where
  paired := apart.paired
  unbound := apart.unbound
  unlisted := apart.unlisted
  listed := fun another held => apart.listed another (isSome_of_erase held).2

theorem removeAnonymous (apart : Apart registry dialing anonymous) :
    Apart (registry.removeAnonymous conn) dialing (anonymous.erase conn) where
  paired := apart.paired
  unbound := apart.unbound
  unlisted := fun another waiting listed =>
    apart.unlisted another waiting (Registry.mem_anonymous_removeAnonymous.mp listed).1
  listed := by
    intro another held
    obtain ⟨other, held⟩ := isSome_of_erase held
    exact Registry.mem_anonymous_removeAnonymous.mpr ⟨apart.listed another held, other⟩

theorem removeConnection (apart : Apart registry dialing anonymous) :
    Apart (registry.removeConnection conn) dialing (anonymous.erase conn) where
  paired := apart.paired.removeConnection
  unbound := by
    intro another waiting
    rw [Registry.peerOf?_removeConnection, apart.unbound another waiting, ite_self]
  unlisted := by
    rw [Registry.anonymous_removeConnection]
    exact apart.removeAnonymous.unlisted
  listed := by
    rw [Registry.anonymous_removeConnection]
    exact apart.removeAnonymous.listed

theorem removeIfCurrent
    (apart : Apart registry dialing anonymous)
    (current : registry.get? id = some conn) :
    Apart (registry.removeIfCurrent id conn) dialing anonymous where
  paired := apart.paired.removeIfCurrent current
  unbound := by
    intro another waiting
    rw [Registry.peerOf?_removeIfCurrent current, apart.unbound another waiting, ite_self]
  unlisted := by
    rw [Registry.anonymous_removeIfCurrent]
    exact apart.unlisted
  listed := by
    rw [Registry.anonymous_removeIfCurrent]
    exact apart.listed

/-- A connection that nobody has is bound; it leaves the other phases. -/
theorem bind
    (apart : Apart registry dialing anonymous)
    (nobody : registry.peerOf? conn = none) :
    Apart (registry.bind id conn) (dialing.erase conn) (anonymous.erase conn) where
  paired := apart.paired.bind nobody
  unbound := by
    intro another waiting
    obtain ⟨other, waiting⟩ := isSome_of_erase waiting
    rw [Registry.peerOf?_bind, if_neg other, apart.unbound another waiting, ite_self, ite_self]
  unlisted := by
    rw [Registry.anonymous_bind]
    exact apart.removeAnonymous.undial.unlisted
  listed := by
    rw [Registry.anonymous_bind]
    exact apart.removeAnonymous.listed

theorem greet
    {handle : Handle}
    (apart : Apart registry dialing anonymous)
    (nobody : registry.peerOf? conn = none)
    (quiet : dialing.get? conn = none) :
    Apart (registry.addAnonymous conn) dialing (anonymous.insert conn handle) where
  paired := by
    intro other another
    rw [Registry.get?_addAnonymous, Registry.peerOf?_addAnonymous]
    exact apart.paired other another
  unbound := by
    intro another waiting
    rw [Registry.peerOf?_addAnonymous]
    exact apart.unbound another waiting
  unlisted := by
    intro another waiting listed
    rcases Registry.mem_anonymous_addAnonymous.mp listed with old | ⟨rfl, _⟩
    · exact apart.unlisted another waiting old
    · rw [quiet] at waiting
      cases waiting
  listed := by
    intro another held
    rw [Table.get?_insert] at held
    apply Registry.mem_anonymous_addAnonymous.mpr
    split at held
    · next same => exact .inr ⟨same, nobody⟩
    · exact .inl (apart.listed another held)

theorem dial
    {pending : PendingDial}
    (apart : Apart registry dialing anonymous)
    (nobody : registry.peerOf? conn = none)
    (unlisted : conn ∉ registry.anonymous) :
    Apart registry (dialing.insert conn pending) anonymous where
  paired := apart.paired
  unbound := by
    intro another waiting
    rw [Table.get?_insert] at waiting
    split at waiting
    · next same =>
      rw [same]
      exact nobody
    · exact apart.unbound another waiting
  unlisted := by
    intro another waiting
    rw [Table.get?_insert] at waiting
    split at waiting
    · next same =>
      rw [same]
      exact unlisted
    · exact apart.unlisted another waiting
  listed := apart.listed

theorem identifies
    (apart : Apart own.registry own.dialing own.anonymous)
    (nobody : own.registry.peerOf? conn = none)
    (cleared : own.anonymous.get? conn = none)
    (identifies : own.Identifies conn id effect next) :
    Apart next.registry next.dialing next.anonymous := by
  cases identifies with
  | bound _ =>
      have bound : Apart (own.registry.bind id conn) _ _ := apart.bind nobody
      rw [Table.erase_eq_self cleared] at bound
      exact bound

theorem ends
    (apart : Apart own.registry own.dialing own.anonymous)
    (ends : own.Ends conn event effect next) :
    Apart next.registry next.dialing next.anonymous := by
  cases ends with
  | unanswered _ pursues =>
      obtain ⟨_, rfl⟩ := pursues.next_eq
      exact apart.undial
  | unbound _ _ => exact apart.removeConnection
  | parted _ _ pursues =>
      obtain ⟨_, rfl⟩ := pursues.next_eq
      exact apart.removeConnection

end Apart

/-- A connection is in one of the phases. -/
def Holds (registry : Registry) (dialing : Table ConnId PendingDial) (conn : ConnId) : Prop :=
  (dialing.get? conn).isSome ∨ (registry.peerOf? conn).isSome ∨ conn ∈ registry.anonymous

/-- A connection that is opened by this node is new, and one that is handed over was not opened by
this node. -/
def Admits (own : Liveness) : Happening → Prop
  | .connected conn _ => ¬ Holds own.registry own.dialing conn
  | .accepted conn => own.dialing.get? conn = none
  | _ => True

theorem Moves.apart
    (moves : own.Moves timers happening event effect next)
    (apart : Apart own.registry own.dialing own.anonymous)
    (admits : own.Admits happening) :
    Apart next.registry next.dialing next.anonymous := by
  cases moves with
  | opened =>
      unfold Admits Holds at admits
      simp only [not_or, Option.not_isSome_iff_eq_none] at admits
      exact apart.dial admits.2.1 admits.2.2
  | failed pursues =>
      obtain ⟨_, rfl⟩ := pursues.next_eq
      exact apart
  | lapsed _ pursues =>
      obtain ⟨_, rfl⟩ := pursues.next_eq
      exact apart.undial
  | expired current pursues =>
      obtain ⟨_, rfl⟩ := pursues.next_eq
      exact apart.removeIfCurrent current
  | redialled _ _ dials =>
      obtain ⟨_, rfl⟩ := dials.next_eq
      exact apart
  | answered _ rearms | heard _ _ rearms | revived _ _ rearms => cases rearms <;> exact apart
  | recanted _ _ ends | ended ends => exact apart.ends ends
  | @identified conn _ _ _ nobody _ identifies =>
      have unlisted : Apart
          ({ own with anonymous := own.anonymous.erase conn } : Liveness).registry
          ({ own with anonymous := own.anonymous.erase conn } : Liveness).dialing
          (own.anonymous.erase conn) := apart.unlist
      exact unlisted.identifies nobody (Table.get?_erase_self ..) identifies
  | acknowledged waiting identifies =>
      have dialled := Option.isSome_of_eq_some waiting
      exact apart.identifies (apart.unbound _ dialled) (apart.not_anonymous dialled) identifies
  | greeted nobody => exact apart.greet nobody admits
  | refused _ _ => exact apart.removeConnection
  | dismissed _ _ => exact apart.removeAnonymous
  | forgotten _ _ => exact apart.unlist
  | shut =>
      exact {
        paired := paired_foldl _ apart.paired
        unbound := fun _ waiting => absurd waiting Bool.false_ne_true
        unlisted := fun _ waiting => absurd waiting Bool.false_ne_true
        listed := fun _ held => absurd held Bool.false_ne_true }
  | _ => exact apart

namespace Holds

theorem of_removeConnection (held : Holds (registry.removeConnection conn) dialing another) :
    Holds registry dialing another := by
  unfold Holds at held ⊢
  rw [Registry.peerOf?_removeConnection, Registry.anonymous_removeConnection,
    Registry.mem_anonymous_removeAnonymous] at held
  split at held
  · refine held.imp_right fun rest => rest.elim (absurd · Bool.false_ne_true) ?_
    exact fun listed => .inr listed.1
  · exact held.imp_right (Or.imp_right And.left)

theorem of_bind (held : Holds (registry.bind id conn) (dialing.erase conn) another) :
    another = conn ∨ Holds registry dialing another := by
  by_cases same : another = conn
  · exact .inl same
  · refine .inr ?_
    unfold Holds at held ⊢
    rw [Registry.peerOf?_bind, Registry.anonymous_bind, Registry.mem_anonymous_removeAnonymous,
      Table.get?_erase, if_neg same, if_neg same] at held
    split at held
    · exact held.imp_right (Or.imp_right And.left)
    · split at held
      · refine held.imp_right fun rest => rest.elim (absurd · Bool.false_ne_true) ?_
        exact fun listed => .inr listed.1
      · exact held.imp_right (Or.imp_right And.left)

theorem of_undial (held : Holds registry (dialing.erase conn) another) :
    Holds registry dialing another :=
  held.imp_left fun waiting => (Apart.isSome_of_erase waiting).2

theorem of_ends
    (ends : own.Ends conn event effect next)
    (held : Holds next.registry next.dialing another) :
    Holds own.registry own.dialing another := by
  cases ends with
  | unanswered _ pursues =>
      obtain ⟨_, rfl⟩ := pursues.next_eq
      exact held.of_undial
  | unbound _ _ => exact held.of_removeConnection
  | parted _ _ pursues =>
      obtain ⟨_, rfl⟩ := pursues.next_eq
      exact held.of_removeConnection

end Holds

/-- A connection comes into a phase only when the transport reports something about it. -/
theorem Moves.holds
    (moves : own.Moves timers happening event effect next)
    (held : Holds next.registry next.dialing conn) :
    Holds own.registry own.dialing conn ∨ happening.conn? = some conn := by
  cases moves with
  | @opened another _ _ =>
      by_cases same : conn = another
      · exact .inr (congrArg some same.symm)
      · unfold Holds at held
        rw [Table.get?_insert, if_neg same] at held
        exact .inl held
  | failed pursues =>
      obtain ⟨_, rfl⟩ := pursues.next_eq
      exact .inl held
  | lapsed _ pursues =>
      obtain ⟨_, rfl⟩ := pursues.next_eq
      exact .inl held.of_undial
  | expired current pursues =>
      obtain ⟨_, rfl⟩ := pursues.next_eq
      unfold Holds at held ⊢
      rw [Registry.peerOf?_removeIfCurrent current, Registry.anonymous_removeIfCurrent] at held
      split at held
      · exact .inl (held.imp_right fun rest => rest.elim (absurd · Bool.false_ne_true) .inr)
      · exact .inl held
  | redialled _ _ dials =>
      obtain ⟨_, rfl⟩ := dials.next_eq
      exact .inl held
  | answered _ rearms | heard _ _ rearms | revived _ _ rearms => cases rearms <;> exact .inl held
  | recanted _ _ ends | ended ends => exact .inl (Holds.of_ends ends held)
  | identified _ _ identifies | acknowledged _ identifies =>
      cases identifies with
      | bound _ =>
          rcases held.of_bind with rfl | old
          · exact .inr rfl
          · exact .inl old
  | @greeted another _ _ =>
      unfold Holds at held ⊢
      rw [Registry.peerOf?_addAnonymous, Registry.mem_anonymous_addAnonymous] at held
      rcases held with waiting | bound | listed | ⟨rfl, _⟩
      · exact .inl (.inl waiting)
      · exact .inl (.inr (.inl bound))
      · exact .inl (.inr (.inr listed))
      · exact .inr rfl
  | refused _ _ => exact .inl held.of_removeConnection
  | dismissed _ _ =>
      refine .inl (held.imp_right (Or.imp_right fun listed => ?_))
      exact (Registry.mem_anonymous_removeAnonymous.mp listed).1
  | shut =>
      refine .inl ?_
      have all {conns : List ConnId} {registry : Registry}
          (held : Holds (conns.foldl Registry.removeConnection registry) own.dialing conn) :
          Holds registry own.dialing conn := by
        induction conns generalizing registry with
        | nil => exact held
        | cons another rest ih => exact (ih held).of_removeConnection
      exact all (held.imp_left (absurd · Bool.false_ne_true))
  | _ => exact .inl held

/-- A connection comes into the dialling phase only when it is reported as opened. -/
theorem Moves.isSome_dialing
    (moves : own.Moves timers happening event effect next)
    (waiting : (next.dialing.get? conn).isSome) :
    (own.dialing.get? conn).isSome ∨ ∃ id, happening = .connected conn id := by
  cases moves with
  | @opened another id _ =>
      rw [Table.get?_insert] at waiting
      split at waiting
      · next same => exact .inr ⟨id, by rw [same]⟩
      · exact .inl waiting
  | failed pursues | expired _ pursues =>
      obtain ⟨_, rfl⟩ := pursues.next_eq
      exact .inl waiting
  | lapsed _ pursues =>
      obtain ⟨_, rfl⟩ := pursues.next_eq
      exact .inl (Apart.isSome_of_erase waiting).2
  | redialled _ _ dials =>
      obtain ⟨_, rfl⟩ := dials.next_eq
      exact .inl waiting
  | answered _ rearms | heard _ _ rearms | revived _ _ rearms =>
      cases rearms <;> exact .inl waiting
  | recanted _ _ ends | ended ends =>
      cases ends with
      | unanswered _ pursues =>
          obtain ⟨_, rfl⟩ := pursues.next_eq
          exact .inl (Apart.isSome_of_erase waiting).2
      | unbound _ _ => exact .inl waiting
      | parted _ _ pursues =>
          obtain ⟨_, rfl⟩ := pursues.next_eq
          exact .inl waiting
  | identified _ _ identifies | acknowledged _ identifies =>
      cases identifies with
      | bound _ => exact .inl (Apart.isSome_of_erase waiting).2
  | shut => cases waiting
  | _ => exact .inl waiting

/-- Until the shutdown every anonymous connection of the registry has a timer. -/
theorem Moves.noted
    (moves : own.Moves timers happening event effect next)
    (running : happening ≠ .shutdown)
    (noted : ∀ conn ∈ own.registry.anonymous, (own.anonymous.get? conn).isSome) :
    ∀ conn ∈ next.registry.anonymous, (next.anonymous.get? conn).isSome := by
  -- Whatever leaves the anonymous connections of the registry may lose its timer.
  have erased {own : Liveness} {conn : ConnId}
      (noted : ∀ conn ∈ own.registry.anonymous, (own.anonymous.get? conn).isSome) :
      ∀ another ∈ (own.registry.removeAnonymous conn).anonymous,
        ((own.anonymous.erase conn).get? another).isSome := by
    intro another listed
    obtain ⟨listed, other⟩ := Registry.mem_anonymous_removeAnonymous.mp listed
    rw [Table.get?_erase, if_neg other]
    exact noted another listed
  have kept {own : Liveness} {conn : ConnId}
      (noted : ∀ conn ∈ own.registry.anonymous, (own.anonymous.get? conn).isSome) :
      ∀ another ∈ (own.registry.removeAnonymous conn).anonymous,
        (own.anonymous.get? another).isSome := by
    intro another listed
    exact noted another (Registry.mem_anonymous_removeAnonymous.mp listed).1
  have ending {conn : ConnId} {event : Option PeerEvent} {effect : Effect} {next : Liveness}
      (ends : own.Ends conn event effect next) :
      ∀ another ∈ next.registry.anonymous, (next.anonymous.get? another).isSome := by
    cases ends with
    | unanswered _ pursues =>
        obtain ⟨_, rfl⟩ := pursues.next_eq
        exact noted
    | unbound _ _ =>
        rw [Registry.anonymous_removeConnection]
        exact erased noted
    | parted _ _ pursues =>
        obtain ⟨_, rfl⟩ := pursues.next_eq
        rw [Registry.anonymous_removeConnection]
        exact erased noted
  cases moves with
  | failed pursues | lapsed _ pursues =>
      obtain ⟨_, rfl⟩ := pursues.next_eq
      exact noted
  | expired _ pursues =>
      obtain ⟨_, rfl⟩ := pursues.next_eq
      rw [Registry.anonymous_removeIfCurrent]
      exact noted
  | redialled _ _ dials =>
      obtain ⟨_, rfl⟩ := dials.next_eq
      exact noted
  | answered _ rearms | heard _ _ rearms | revived _ _ rearms => cases rearms <;> exact noted
  | recanted _ _ ends | ended ends => exact ending ends
  | identified _ _ identifies =>
      cases identifies with
      | bound _ =>
          rw [Registry.anonymous_bind]
          exact erased noted
  | acknowledged _ identifies =>
      cases identifies with
      | bound _ =>
          rw [Registry.anonymous_bind]
          exact kept noted
  | @greeted conn _ _ =>
      intro another listed
      rw [Table.get?_insert]
      split
      · rfl
      · next other =>
        rcases Registry.mem_anonymous_addAnonymous.mp listed with old | ⟨same, _⟩
        · exact noted another old
        · exact absurd same other
  | refused _ _ =>
      rw [Registry.anonymous_removeConnection]
      exact erased noted
  | dismissed _ _ => exact erased noted
  | @forgotten conn _ unlisted =>
      intro another listed
      rw [Table.get?_erase, if_neg (by rintro rfl; exact unlisted listed)]
      exact noted another listed
  | shut => exact absurd rfl running
  | _ => exact noted

end Quorum.Liveness
