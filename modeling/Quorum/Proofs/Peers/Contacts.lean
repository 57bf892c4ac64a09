import Quorum.Proofs.Peers.Phases

/-!
# Contact with a peer

The books of a node hold four things about a peer that it dials: the connects in flight, the
connections that wait for an answer, the identified peers, and the attempts that are armed.  Each of
them can stand for a state of contact, a `Contact`, and a node is in contact in one way only
(`Liveness.SoleContact`).

Whatever happens, as long as it is something that the books let the node expect, the peer goes from
one state of contact to another, and the connection that belongs to the old one is kept, closed, or
closed by the other side (`Liveness.Moves.contact_leads`).
-/

namespace Quorum

/-- How far a node has got with a peer. -/
inductive Contact where
  /-- A connect has been asked for and not been answered. -/
  | inFlight
  /-- A connection has been opened, and the peer has not answered on it. -/
  | handshaking (conn : ConnId)
  /-- The peer is bound to a connection. -/
  | identified (conn : ConnId)
  /-- The peer is to be dialled again. -/
  | reconnecting
  deriving DecidableEq, Repr

/-- The connection to the peer, if there is one. -/
def Contact.conn? : Contact → Option ConnId
  | handshaking conn | identified conn => some conn
  | inFlight | reconnecting => none

namespace Liveness

variable
    {timers : Scheduler TimerEvent}
    {own between next : Liveness}
    {happening : Happening}
    {event : Option PeerEvent}
    {effect : Effect}
    {registry : Registry}
    {links : Table NodeId PeerLink}
    {anonymous : Table ConnId Handle}
    {conn : ConnId}
    {id peer : NodeId}
    {contact : Contact}

/-- What the books of a node say about its contact with a peer. -/
def InContact (own : Liveness) (peer : NodeId) : Contact → Prop
  | .inFlight => peer ∈ own.inFlight
  | .handshaking conn => ∃ pending, own.dialing.get? conn = some pending ∧ pending.id = peer
  | .identified conn => own.registry.get? peer = some conn
  | .reconnecting => (own.reconnecting.get? peer).isSome

theorem inContact_reconnecting :
    own.InContact peer .reconnecting ↔ (own.reconnecting.get? peer).isSome :=
  Iff.rfl

/-- The books say just this about a peer. -/
def SoleContact (own : Liveness) (peer : NodeId) (contact : Contact) : Prop :=
  ∀ other, own.InContact peer other ↔ other = contact

/-- The books say nothing about a peer. -/
def OutOfContact (own : Liveness) (peer : NodeId) : Prop :=
  ∀ contact, ¬ own.InContact peer contact

/-- Two states of the books say the same about a peer. -/
def AgreesOn (own next : Liveness) (peer : NodeId) : Prop :=
  ∀ contact, next.InContact peer contact ↔ own.InContact peer contact

/-! ## What does not concern a peer -/

namespace AgreesOn

theorem refl (own : Liveness) (peer : NodeId) : own.AgreesOn own peer :=
  fun _ => Iff.rfl

theorem trans
    (agrees : own.AgreesOn between peer)
    (agrees' : between.AgreesOn next peer) :
    own.AgreesOn next peer :=
  fun contact => (agrees' contact).trans (agrees contact)

theorem sole
    (agrees : own.AgreesOn next peer)
    (sole : own.SoleContact peer contact) :
    next.SoleContact peer contact :=
  fun other => (agrees other).trans (sole other)

/-- Another registry does not matter, as long as the peer keeps its connection. -/
theorem withRegistry (kept : registry.get? peer = own.registry.get? peer) :
    own.AgreesOn { own with registry, links, anonymous } peer := by
  intro contact
  cases contact with
  | identified conn => exact Eq.congr_left kept
  | inFlight | handshaking _ | reconnecting => exact Iff.rfl

/-- The end of a wait matters only to the peer that was waited for. -/
theorem undial (other : ∀ pending, own.dialing.get? conn = some pending → pending.id ≠ peer) :
    own.AgreesOn { own with dialing := own.dialing.erase conn } peer := by
  intro contact
  cases contact with
  | handshaking another =>
      refine exists_congr fun pending => and_congr_left fun awaited => ?_
      rw [Table.get?_erase]
      split
      · next same =>
        subst same
        exact iff_of_false (Option.some_ne_none _).symm fun waiting =>
          other pending waiting awaited
      · exact Iff.rfl
  | inFlight | identified _ | reconnecting => exact Iff.rfl

/-- A connection that is opened matters only to the peer that it leads to. -/
theorem dial
    {pending : PendingDial}
    (quiet : own.dialing.get? conn = none)
    (other : pending.id ≠ peer) :
    own.AgreesOn { own with dialing := own.dialing.insert conn pending } peer := by
  intro contact
  cases contact with
  | handshaking another =>
      refine exists_congr fun waiting => and_congr_left fun awaited => ?_
      rw [Table.get?_insert]
      split
      · next same =>
        subst same
        rw [quiet]
        exact iff_of_false (fun held => (Option.some.inj held ▸ other) awaited)
          (Option.some_ne_none _).symm
      · exact Iff.rfl
  | inFlight | identified _ | reconnecting => exact Iff.rfl

/-- A connect that has been answered matters only to the peer that it was for. -/
theorem landed (other : id ≠ peer) :
    own.AgreesOn { own with inFlight := own.inFlight.filter (· ≠ id) } peer := by
  intro contact
  cases contact with
  | inFlight => simp [InContact, other.symm]
  | handshaking _ | identified _ | reconnecting => exact Iff.rfl

/-- The end of a delay matters only to a peer that was to be dialled after it. -/
theorem unschedule (idle : id = peer → own.reconnecting.get? peer = none) :
    own.AgreesOn { own with reconnecting := own.reconnecting.erase id } peer := by
  intro contact
  cases contact with
  | reconnecting =>
      rw [inContact_reconnecting, inContact_reconnecting, Table.get?_erase]
      split
      · next same => rw [idle same.symm]
      · exact Iff.rfl
  | inFlight | handshaking _ | identified _ => exact Iff.rfl

theorem pursues
    (pursues : own.Pursues id effect next)
    (other : id ≠ peer) :
    own.AgreesOn next peer := by
  cases pursues with
  | scheduled _ _ =>
      intro contact
      cases contact with
      | reconnecting => simp [InContact, Table.get?_insert, other.symm]
      | inFlight | handshaking _ | identified _ => exact Iff.rfl
  | spared _ => exact .refl own peer

theorem dials
    (dials : own.Dials id effect next)
    (other : id ≠ peer) :
    own.AgreesOn next peer := by
  cases dials with
  | dialled _ _ =>
      intro contact
      cases contact with
      | inFlight => simp [InContact, other.symm]
      | handshaking _ | identified _ | reconnecting => exact Iff.rfl
  | spared _ => exact .refl own peer

theorem rearms (rearms : own.Rearms id conn effect next) : own.AgreesOn next peer := by
  cases rearms <;> exact .refl own peer

/-- A peer that is identified matters to nobody else, if nobody else was waited for on the
connection. -/
theorem identifies
    (identifies : own.Identifies conn id effect next)
    (other : id ≠ peer)
    (unawaited : ∀ pending, own.dialing.get? conn = some pending → pending.id ≠ peer) :
    own.AgreesOn next peer := by
  cases identifies with
  | bound _ =>
      have unbound : (own.registry.bind id conn).get? peer = own.registry.get? peer := by
        rw [Registry.get?_bind, if_neg other.symm]
      exact (undial unawaited).trans ((unschedule fun same => absurd same other).trans
        (withRegistry unbound))

end AgreesOn

/-! ## From one state of contact to another -/

namespace SoleContact

theorem here (sole : own.SoleContact peer contact) : own.InContact peer contact :=
  (sole contact).mpr rfl

/-- There is no second state of contact. -/
theorem eq
    (sole : own.SoleContact peer contact)
    (other : Contact)
    (held : own.InContact peer other) :
    other = contact :=
  (sole other).mp held

theorem existsUnique (sole : own.SoleContact peer contact) :
    ∃! other, own.InContact peer other :=
  ⟨contact, sole.here, sole.eq⟩

theorem grounded (sole : own.SoleContact peer contact) (other : contact ≠ .inFlight) :
    peer ∉ own.inFlight :=
  fun flies => other (sole.eq .inFlight flies).symm

theorem idle (sole : own.SoleContact peer contact) (other : contact ≠ .reconnecting) :
    own.reconnecting.get? peer = none := by
  rw [← Option.not_isSome_iff_eq_none]
  exact fun armed => other (sole.eq .reconnecting armed).symm

/-! ### The end of a contact -/

/-- The answer to a connect leaves nothing behind. -/
theorem landed (sole : own.SoleContact peer .inFlight) :
    ({ own with inFlight := own.inFlight.filter (· ≠ peer) } : Liveness).OutOfContact peer := by
  intro contact held
  cases contact with
  | inFlight => simp [InContact] at held
  | handshaking another => cases sole.eq (.handshaking another) held
  | identified another => cases sole.eq (.identified another) held
  | reconnecting => cases sole.eq .reconnecting held

theorem undial (sole : own.SoleContact peer (.handshaking conn)) :
    ({ own with dialing := own.dialing.erase conn } : Liveness).OutOfContact peer := by
  intro contact held
  cases contact with
  | handshaking another =>
      obtain ⟨pending, waiting, awaited⟩ := held
      rw [Table.get?_erase] at waiting
      split at waiting
      · cases waiting
      · next apart => exact apart (Contact.handshaking.inj (sole.eq _ ⟨pending, waiting, awaited⟩))
  | inFlight => cases sole.eq .inFlight held
  | identified another => cases sole.eq (.identified another) held
  | reconnecting => cases sole.eq .reconnecting held

theorem unbind
    (sole : own.SoleContact peer (.identified conn))
    (gone : registry.get? peer = none) :
    ({ own with registry, links, anonymous } : Liveness).OutOfContact peer := by
  intro contact held
  cases contact with
  | identified another =>
      rw [show registry.get? peer = some another from held] at gone
      cases gone
  | inFlight => cases sole.eq .inFlight held
  | handshaking another => cases sole.eq (.handshaking another) held
  | reconnecting => cases sole.eq .reconnecting held

theorem unschedule (sole : own.SoleContact peer .reconnecting) :
    ({ own with reconnecting := own.reconnecting.erase peer } : Liveness).OutOfContact peer := by
  intro contact held
  cases contact with
  | reconnecting => simp [InContact] at held
  | inFlight => cases sole.eq .inFlight held
  | handshaking another => cases sole.eq (.handshaking another) held
  | identified another => cases sole.eq (.identified another) held

end SoleContact

/-! ### The beginning of a contact -/

namespace OutOfContact

theorem opened {handle : Handle} (out : own.OutOfContact peer) :
    ({ own with dialing := own.dialing.insert conn ⟨peer, handle⟩ } : Liveness).SoleContact peer
      (.handshaking conn) := by
  intro contact
  cases contact with
  | handshaking another =>
      simp only [InContact, Table.get?_insert, Contact.handshaking.injEq]
      constructor
      · rintro ⟨pending, waiting, awaited⟩
        split at waiting
        · next same => exact same
        · exact (out (.handshaking another) ⟨pending, waiting, awaited⟩).elim
      · rintro rfl
        exact ⟨⟨peer, handle⟩, by rw [if_pos rfl], rfl⟩
  | inFlight => exact iff_of_false (out .inFlight) (by simp)
  | identified another => exact iff_of_false (out (.identified another)) (by simp)
  | reconnecting => exact iff_of_false (out .reconnecting) (by simp)

theorem dials
    (out : own.OutOfContact peer)
    (dials : own.Dials peer effect next)
    (target : (own.target? peer).isSome) :
    next.SoleContact peer .inFlight := by
  cases dials with
  | dialled _ _ =>
      intro contact
      cases contact with
      | inFlight => simp [InContact]
      | handshaking another => exact iff_of_false (out (.handshaking another)) (by simp)
      | identified another => exact iff_of_false (out (.identified another)) (by simp)
      | reconnecting => exact iff_of_false (out .reconnecting) (by simp)
  | spared needless =>
      rcases needless with unknown | flies
      · rw [unknown] at target
        cases target
      · exact (out .inFlight flies).elim

theorem pursues
    (out : own.OutOfContact peer)
    (pursues : own.Pursues peer effect next)
    (target : (own.target? peer).isSome) :
    next.SoleContact peer .reconnecting := by
  cases pursues with
  | scheduled _ _ =>
      intro contact
      cases contact with
      | reconnecting => simp [InContact]
      | inFlight => exact iff_of_false (out .inFlight) (by simp)
      | handshaking another => exact iff_of_false (out (.handshaking another)) (by simp)
      | identified another => exact iff_of_false (out (.identified another)) (by simp)
  | spared needless =>
      rcases needless with unknown | armed
      · rw [unknown] at target
        cases target
      · exact (out .reconnecting armed).elim

end OutOfContact

/-- A peer that is identified is in no other state of contact any more. -/
theorem SoleContact.identifies
    (sole : own.SoleContact peer (.handshaking conn))
    (identifies : own.Identifies conn peer effect next) :
    next.SoleContact peer (.identified conn) := by
  cases identifies with
  | bound _ =>
      intro contact
      cases contact with
      | identified another =>
          simp [InContact, Registry.get?_bind, eq_comm (a := conn)]
      | inFlight => exact iff_of_false (sole.grounded nofun) nofun
      | handshaking another => exact iff_of_false (sole.undial (.handshaking another)) nofun
      | reconnecting => exact iff_of_false (by simp [InContact]) nofun

/-- The end of a connection changes the contact with the peer that it led to, if any. -/
theorem SoleContact.ends
    (sole : own.SoleContact peer contact)
    (ends : own.Ends conn event effect next)
    (coherent : own.registry.Coherent)
    (target : (own.target? peer).isSome) :
    ∃ after, next.SoleContact peer after ∧ (after = contact ∨ contact.conn? = some conn) := by
  cases ends with
  | @unanswered pending _ _ waiting pursues =>
      by_cases same : pending.id = peer
      · obtain rfl := sole.eq (.handshaking conn) ⟨pending, waiting, same⟩
        rw [same] at pursues
        exact ⟨_, sole.undial.pursues pursues target, .inr rfl⟩
      · have unawaited (pending' : PendingDial) (waiting' : own.dialing.get? conn = some pending') :
            pending'.id ≠ peer := by
          rw [waiting] at waiting'
          exact Option.some.inj waiting' ▸ same
        exact ⟨contact, ((AgreesOn.undial unawaited).trans (.pursues pursues same)).sole sole,
          .inl rfl⟩
  | unbound _ nobody =>
      refine ⟨contact, (AgreesOn.withRegistry ?_).sole sole, .inl rfl⟩
      rw [Registry.get?_removeConnection, nobody, if_neg nofun]
  | @parted former _ _ _ bound pursues =>
      by_cases same : former = peer
      · subst same
        obtain rfl := sole.eq (.identified conn) (coherent.bound conn former bound)
        refine ⟨_, OutOfContact.pursues (sole.unbind ?_) pursues target, .inr rfl⟩
        rw [Registry.get?_removeConnection, if_pos bound]
      · have kept : (own.registry.removeConnection conn).get? peer = own.registry.get? peer := by
          rw [Registry.get?_removeConnection, bound, if_neg (by simpa using same)]
        exact ⟨contact, ((AgreesOn.withRegistry kept).trans (.pursues pursues same)).sole sole,
          .inl rfl⟩

/-! ## What the books let a node expect -/

/-- Something that the books of a node are prepared for: a connect is answered if it is in flight,
and who is dialled by this node does not call. -/
def Expects (own : Liveness) : Happening → Prop
  | .connected conn id => id ∈ own.inFlight ∧ own.dialing.get? conn = none
  | .connectFailed id => id ∈ own.inFlight
  | .request conn id => own.dialing.get? conn = none ∧ own.target? id = none
  | .start | .shutdown => False
  | _ => True

end Liveness

/-- How one state of contact with a peer follows on another one.  A connection is given up only when
it is closed, and one that has been opened is taken up. -/
structure Contact.Leads
    (contact : Contact)
    (peer : NodeId)
    (happening : Happening)
    (asks : List Ask)
    (after : Contact) : Prop where
  kept : ∀ conn, contact.conn? = some conn →
    after.conn? = some conn ∨ .close conn ∈ asks ∨ happening = .closed conn
  taken : ∀ conn, happening = .connected conn peer → after.conn? = some conn

namespace Contact.Leads

variable {contact after : Contact} {peer : NodeId} {happening : Happening} {asks : List Ask}

/-- The contact stays as it is, or goes on with its connection. -/
theorem of_conn?_eq
    (same : after.conn? = contact.conn?)
    (other : ∀ conn, happening ≠ .connected conn peer) :
    contact.Leads peer happening asks after where
  kept := fun _ held => .inl (same.trans held)
  taken := fun conn opened => absurd opened (other conn)

/-- The contact ends with its connection. -/
theorem of_closed
    {conn : ConnId}
    (held : contact.conn? = some conn)
    (closed : .close conn ∈ asks ∨ happening = .closed conn)
    (other : ∀ conn, happening ≠ .connected conn peer) :
    contact.Leads peer happening asks after where
  kept := by
    intro another held'
    obtain rfl := Option.some.inj (held.symm.trans held')
    exact .inr closed
  taken := fun conn opened => absurd opened (other conn)

end Contact.Leads

namespace Liveness

variable
    {timers : Scheduler TimerEvent}
    {own next : Liveness}
    {happening : Happening}
    {event : Option PeerEvent}
    {effect : Effect}
    {conn : ConnId}
    {peer : NodeId}
    {contact : Contact}

theorem SoleContact.leads_of_ends
    {asks : List Ask}
    (sole : own.SoleContact peer contact)
    (ends : own.Ends conn event effect next)
    (coherent : own.registry.Coherent)
    (target : (own.target? peer).isSome)
    (closed : .close conn ∈ asks ∨ happening = .closed conn)
    (other : ∀ conn, happening ≠ .connected conn peer) :
    ∃ after, next.SoleContact peer after ∧ contact.Leads peer happening asks after := by
  obtain ⟨after, sole', rfl | held⟩ := sole.ends ends coherent target
  · exact ⟨_, sole', .of_conn?_eq rfl other⟩
  · exact ⟨_, sole', .of_closed held closed other⟩

/-- A node is in one state of contact with a peer that it dials, before a move and after it. -/
theorem Moves.contact_leads
    (moves : own.Moves timers happening event effect next)
    (expected : own.Expects happening)
    (coherent : own.registry.Coherent)
    (target : (own.target? peer).isSome)
    (sole : own.SoleContact peer contact) :
    ∃ after, next.SoleContact peer after ∧ contact.Leads peer happening effect.asks after := by
  -- Most moves do not concern the contact with the peer.
  have unmoved (agrees : own.AgreesOn next peer)
      (other : ∀ conn, happening ≠ .connected conn peer) :
      ∃ after, next.SoleContact peer after ∧ contact.Leads peer happening effect.asks after :=
    ⟨contact, agrees.sole sole, .of_conn?_eq rfl other⟩
  cases moves with
  | started _ | shut => exact expected.elim
  | @opened conn id handle =>
      obtain ⟨flies, quiet⟩ := expected
      by_cases same : id = peer
      · subst same
        obtain rfl := sole.eq .inFlight flies
        refine ⟨.handshaking conn, sole.landed.opened, nofun, ?_⟩
        rintro _ ⟨⟩
        rfl
      · refine unmoved ((AgreesOn.landed same).trans (.dial quiet same)) ?_
        rintro _ ⟨⟩
        exact same rfl
  | @failed id _ _ pursues =>
      by_cases same : id = peer
      · subst same
        obtain rfl := sole.eq .inFlight expected
        exact ⟨_, sole.landed.pursues pursues target, .of_conn?_eq rfl nofun⟩
      · exact unmoved ((AgreesOn.landed same).trans (.pursues pursues same)) nofun
  | answered _ rearms | heard _ _ rearms | revived _ _ rearms =>
      exact unmoved (.rearms rearms) nofun
  | recanted _ _ ends => exact sole.leads_of_ends ends coherent target (.inl (by simp)) nofun
  | ended ends => exact sole.leads_of_ends ends coherent target (.inr rfl) nofun
  | @identified conn id _ _ _ _ identifies =>
      obtain ⟨quiet, caller⟩ := expected
      have other : id ≠ peer := by
        rintro rfl
        rw [caller] at target
        cases target
      refine unmoved (AgreesOn.trans (AgreesOn.withRegistry rfl) (.identifies identifies other ?_))
        nofun
      intro pending waiting
      rw [show own.dialing.get? conn = some pending from waiting] at quiet
      cases quiet
  | @acknowledged conn pending _ _ waiting identifies =>
      by_cases same : pending.id = peer
      · obtain rfl := sole.eq (.handshaking conn) ⟨pending, waiting, same⟩
        rw [same] at identifies
        exact ⟨_, sole.identifies identifies, .of_conn?_eq rfl nofun⟩
      · refine unmoved (.identifies identifies same fun pending' waiting' => ?_) nofun
        rw [waiting] at waiting'
        exact Option.some.inj waiting' ▸ same
  | greeted _ => exact unmoved (.withRegistry Registry.get?_addAnonymous) nofun
  | refused nobody _ =>
      refine unmoved (.withRegistry ?_) nofun
      rw [Registry.get?_removeConnection, nobody, if_neg nofun]
  | @expired id conn _ _ current pursues =>
      by_cases same : id = peer
      · subst same
        obtain rfl := sole.eq (.identified conn) current
        refine ⟨_, OutOfContact.pursues (sole.unbind ?_) pursues target,
          .of_closed rfl (.inl (by simp)) nofun⟩
        rw [Registry.get?_removeIfCurrent current, if_pos rfl]
      · refine unmoved (.trans (.withRegistry ?_) (.pursues pursues same)) nofun
        rw [Registry.get?_removeIfCurrent current, if_neg (Ne.symm same)]
  | @lapsed conn pending _ _ waiting pursues =>
      by_cases same : pending.id = peer
      · obtain rfl := sole.eq (.handshaking conn) ⟨pending, waiting, same⟩
        rw [same] at pursues
        exact ⟨_, sole.undial.pursues pursues target, .of_closed rfl (.inl (by simp)) nofun⟩
      · refine unmoved (.trans (.undial fun pending' waiting' => ?_) (.pursues pursues same)) nofun
        rw [waiting] at waiting'
        exact Option.some.inj waiting' ▸ same
  | @redialled id _ _ gone unanswered dials =>
      by_cases same : id = peer
      · subst same
        cases contact with
        | inFlight =>
            -- The delay was over already, and the connect that is in flight is enough.
            have agrees : own.AgreesOn { own with reconnecting := own.reconnecting.erase id } id :=
              .unschedule fun _ => sole.idle nofun
            have flies := (agrees.sole sole).here
            cases dials with
            | dialled _ grounded => exact absurd flies grounded
            | spared _ => exact unmoved agrees nofun
        | handshaking conn =>
            obtain ⟨pending, waiting, awaited⟩ := sole.here
            exact absurd awaited (unanswered conn pending waiting)
        | identified conn =>
            rw [show own.registry.get? id = some conn from sole.here] at gone
            cases gone
        | reconnecting =>
            exact ⟨_, sole.unschedule.dials dials target, .of_conn?_eq rfl nofun⟩
      · refine unmoved (.trans (.unschedule fun same' => absurd same' same) (.dials dials same))
          nofun
  | @reunited id met =>
      refine unmoved (.unschedule ?_) nofun
      rintro rfl
      refine sole.idle ?_
      rintro rfl
      rcases met with connected | ⟨conn, pending, waiting, awaited⟩
      · obtain ⟨conn, bound⟩ := Option.isSome_iff_exists.mp connected
        cases sole.eq (.identified conn) bound
      · cases sole.eq (.handshaking conn) ⟨pending, waiting, awaited⟩
  | _ => exact unmoved (.refl own peer) nofun

/-- After the start a connect is in flight to every peer that is to be dialled. -/
theorem Moves.contact_of_start
    (moves : own.Moves timers .start event effect next)
    (target : (own.target? peer).isSome)
    (out : own.OutOfContact peer) :
    next.SoleContact peer .inFlight := by
  cases moves with
  | started dials =>
      intro contact
      cases contact with
      | inFlight =>
          obtain ⟨found, known⟩ := Option.isSome_iff_exists.mp target
          obtain rfl : found.id = peer := by simpa using List.find?_some known
          exact iff_of_true (dials.dialled (List.mem_of_find?_eq_some known) target) rfl
      | handshaking another => exact iff_of_false (out (.handshaking another)) nofun
      | identified another => exact iff_of_false (out (.identified another)) nofun
      | reconnecting => exact iff_of_false (out .reconnecting) nofun

end Liveness

end Quorum
