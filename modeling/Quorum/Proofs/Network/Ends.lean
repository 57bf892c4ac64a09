import Quorum.Proofs.Network.Mailboxes

/-!
# The two ends of a connection

The open ends on a hub come in pairs (`Hub.Coupled`).  What is heard at an end (`Hub.heard`) is what
mailboxes hold about it: an end that is not open hears nothing, and an open one hears what is sent
at the other end, or that the other end has been closed.

`Hub.Linked` says that two ends are the ends of one connection.  As long as neither of them is hung
up the connection stays open (`Hub.Linked.hangUp_of_ne`), and where it is hung up at the other end,
the owner of this end is told (`Hub.Linked.hangUp_far`).  A node that is removed hangs up all of its
ends, one after the other, and is told nothing itself (`Hub.Linked.remove_cut`).
-/

namespace Quorum

/-- Whether an event is about an end of a connection. -/
def NetworkEvent.isAbout (conn : ConnId) : NetworkEvent → Bool
  | connected other _ | received other _ | closed other => decide (other = conn)
  | connectFailed _ => false

/-- One side of a connection: its end, and the node that owns it. -/
structure Side where
  conn : ConnId
  owner : NodeId
  deriving DecidableEq, Repr

namespace Hub

variable
    {hub hub' : Hub}
    {id actor dialler target : NodeId}
    {conn other : ConnId}
    {box : MailboxId}
    {name : QueueId}
    {event : NetworkEvent}
    {message : Message}
    {link : Link}
    {conns : List ConnId}
    {here there : Side}

/-! ### What the operations change at most -/

theorem hangUpAll_eq_with (hub : Hub) (conns : List ConnId) :
    ∃ links mailboxes, conns.foldl hangUp hub = { hub with links, mailboxes } := by
  induction conns generalizing hub with
  | nil => exact ⟨_, _, rfl⟩
  | cons conn conns ih =>
      obtain ⟨links, mailboxes, first⟩ := hub.hangUp_eq_with conn
      obtain ⟨links', mailboxes', rest⟩ := ih (hub.hangUp conn)
      refine ⟨links', mailboxes', ?_⟩
      rw [List.foldl_cons, rest, first]

/-- The hub after a node has been forgotten, with all of its ends still open. -/
def forget (hub : Hub) (id : NodeId) : Hub := { hub with endpoints := hub.endpoints.erase id }

theorem remove_eq : hub.remove id = (hub.endsOf id).foldl hangUp (hub.forget id) := rfl

theorem remove_eq_with (hub : Hub) (id : NodeId) :
    ∃ links mailboxes, hub.remove id = { hub.forget id with links, mailboxes } := by
  rw [remove_eq]
  exact hangUpAll_eq_with ..

theorem mailboxOf?_forget :
    (hub.forget id).mailboxOf? actor = if actor = id then none else hub.mailboxOf? actor := by
  unfold mailboxOf? forget
  rw [Table.get?_erase]
  split <;> rfl

theorem mailboxOf?_remove :
    (hub.remove id).mailboxOf? actor = if actor = id then none else hub.mailboxOf? actor := by
  obtain ⟨_, _, removed⟩ := hub.remove_eq_with id
  rw [removed]
  exact mailboxOf?_forget

theorem mem_endsOf_iff :
    conn ∈ hub.endsOf id ↔ ∃ link, hub.links.get? conn = some link ∧ link.owner = id := by
  unfold endsOf
  rw [List.mem_map]
  constructor
  · rintro ⟨⟨conn, link⟩, listed, rfl⟩
    obtain ⟨listed, owned⟩ := List.mem_filter.mp listed
    exact ⟨link, Table.mem_entries_iff.mp listed, of_decide_eq_true owned⟩
  · rintro ⟨link, held, owned⟩
    exact ⟨(conn, link),
      List.mem_filter.mpr ⟨Table.mem_entries_iff.mpr held, decide_eq_true owned⟩, rfl⟩

theorem hangUp_of_unlinked (unlinked : hub.links.get? conn = none) : hub.hangUp conn = hub := by
  unfold hangUp
  rw [unlinked]

theorem close_of_owner (held : hub.links.get? conn = some link) :
    hub.close link.owner conn = hub.hangUp conn := by
  unfold close
  rw [held]
  exact if_pos rfl

/-- Nobody but its owner can close an end. -/
theorem close_of_other (other : ∀ link, hub.links.get? conn = some link → link.owner ≠ id) :
    hub.close id conn = hub := by
  unfold close
  split
  · next link held => exact if_neg (other link held)
  · rfl

/-- Nobody but its owner can send on an end. -/
theorem send_of_other (other : ∀ link, hub.links.get? conn = some link → link.owner ≠ id) :
    hub.send id conn message = hub := by
  unfold send
  split
  · rfl
  · next link held =>
    split
    · rfl
    · next far partner =>
      rw [decide_eq_false (other link held), Bool.false_and]
      rfl

/-- Only a known node accepts connections. -/
theorem isSome_mailboxOf?_of_accepted (accepted : hub.acceptorFor? dialler target = some name) :
    (hub.mailboxOf? target).isSome = true := by
  obtain ⟨endpoint, known, _⟩ := Option.bind_eq_some_iff.mp accepted
  unfold mailboxOf?
  rw [known]
  rfl

theorem connect_of_refused (refused : hub.acceptorFor? dialler target = none) :
    hub.connect dialler target =
      ({ hub with issued := hub.issued + 2 } : Hub).deliver dialler (.connectFailed target) := by
  have refused' :
      ({ hub with issued := hub.issued + 1 + 1 } : Hub).acceptorFor? dialler target = none :=
    refused
  unfold connect issue
  dsimp only
  rw [refused']

/-- The side of the dialling node in the connection that is made next. -/
def nextNear (hub : Hub) (dialler : NodeId) : Side := ⟨⟨hub.issued⟩, dialler⟩

/-- The other side of it. -/
def nextFar (hub : Hub) (target : NodeId) : Side := ⟨⟨hub.issued + 1⟩, target⟩

theorem nextNear_ne_nextFar : (hub.nextNear dialler).conn ≠ (hub.nextFar target).conn :=
  fun same => Nat.succ_ne_self _ (congrArg ConnId.number same).symm

/-- No other end is one of the two. -/
theorem ne_next (settled : conn.number < hub.issued ∨ hub.issued + 2 ≤ conn.number) :
    conn ≠ (hub.nextNear dialler).conn ∧ conn ≠ (hub.nextFar target).conn := by
  constructor
  · rintro rfl
    rcases settled with old | new
    · exact Nat.lt_irrefl _ old
    · exact Nat.lt_irrefl _ (Nat.lt_of_succ_lt new)
  · rintro rfl
    rcases settled with old | new
    · exact Nat.lt_irrefl _ (Nat.lt_of_succ_lt old)
    · exact Nat.lt_irrefl _ new

theorem get?_link {near far : ConnId} :
    (hub.link near dialler far target).links.get? conn =
      if conn = far then some ⟨target, near⟩
      else if conn = near then some ⟨dialler, far⟩
      else hub.links.get? conn := by
  unfold link
  rw [Table.get?_insert, Table.get?_insert]

/-- A connect that is accepted hands the far end off, and tells the dialling node the near one. -/
theorem connect_eq_of_accepted (accepted : hub.acceptorFor? dialler target = some name) :
    hub.connect dialler target =
      (({ hub with
          queues := hub.queues.modify name fun queue => queue.offer (hub.nextFar target).conn
          issued := hub.issued + 2 } : Hub).link
        (hub.nextNear dialler).conn dialler (hub.nextFar target).conn target).deliver dialler
          (.connected (hub.nextNear dialler).conn target) := by
  have accepted' :
      ({ hub with issued := hub.issued + 1 + 1 } : Hub).acceptorFor? dialler target = some name :=
    accepted
  unfold connect issue
  dsimp only
  rw [accepted']
  rfl

/-- A connect that is accepted makes a connection out of two fresh ends. -/
theorem connect_of_accepted (accepted : hub.acceptorFor? dialler target = some name) :
    ∃ queues, hub.connect dialler target =
      (({ hub with queues, issued := hub.issued + 2 } : Hub).link
        (hub.nextNear dialler).conn dialler (hub.nextFar target).conn target).deliver dialler
          (.connected (hub.nextNear dialler).conn target) :=
  ⟨_, connect_eq_of_accepted accepted⟩

/-! ### What is heard -/

/-- What waits in a mailbox about an end of a connection, oldest first. -/
def heard (hub : Hub) (conn : ConnId) (box : MailboxId) : List NetworkEvent :=
  (hub.eventsIn box).filter fun event => event.isAbout conn

namespace Posted

theorem eventsIn_deliver (posted : hub.Posted) :
    (hub.deliver id event).eventsIn box =
      hub.eventsIn box ++ if hub.mailboxOf? id = some box then [event] else [] := by
  cases known : hub.mailboxOf? id with
  | none =>
      rw [deliver_of_unknown known, if_neg nofun, List.append_nil]
  | some name =>
      obtain ⟨held, there, receiving⟩ := posted.read id name known
      rw [deliver_eq known]
      unfold eventsIn
      rw [Table.get?_modify]
      by_cases same : box = name
      · subst same
        rw [if_pos rfl, if_pos rfl, there]
        unfold Mailbox.put
        dsimp only [Option.map_some]
        rw [if_pos receiving]
      · rw [if_neg same, if_neg fun same' => same (Option.some.inj same').symm, List.append_nil]

theorem heard_deliver (posted : hub.Posted) (about : event.isAbout conn = true) :
    (hub.deliver id event).heard conn box =
      hub.heard conn box ++ if hub.mailboxOf? id = some box then [event] else [] := by
  unfold heard
  rw [posted.eventsIn_deliver, List.filter_append]
  congr 1
  split
  · exact List.filter_cons_of_pos about
  · rfl

theorem heard_deliver_of_other (posted : hub.Posted) (other : event.isAbout conn = false) :
    (hub.deliver id event).heard conn box = hub.heard conn box := by
  unfold heard
  rw [posted.eventsIn_deliver, List.filter_append]
  split
  · rw [List.filter_cons_of_neg (Bool.eq_false_iff.mp other), List.filter_nil, List.append_nil]
  · exact List.append_nil _

/-- Nothing waits in a new mailbox. -/
theorem eventsIn_register (posted : hub.Posted) :
    (hub.register id).2.eventsIn box = hub.eventsIn box := by
  unfold eventsIn Hub.register
  rw [Table.get?_insert]
  by_cases same : box = ⟨hub.issued⟩
  · subst same
    rw [if_pos rfl]
    cases held : hub.mailboxes.get? ⟨hub.issued⟩ with
    | none => rfl
    | some mailbox => exact (Nat.lt_irrefl _ (posted.issued _ mailbox held)).elim
  · rw [if_neg same]

/-- Ids are given out to the ends of a connection. -/
theorem issueTwo
    {links : Table ConnId Link}
    {queues : Table QueueId HandoffQueue}
    (posted : hub.Posted) :
    ({ hub with links, queues, issued := hub.issued + 2 } : Hub).Posted :=
  posted.of_eq (fun _ => rfl) rfl (Nat.le_add_right ..)

theorem forget (posted : hub.Posted) : (hub.forget id).Posted where
  read := by
    intro actor name owned
    rw [mailboxOf?_forget] at owned
    split at owned
    · cases owned
    · exact posted.read actor name owned
  own := by
    intro actor other name owned owned'
    rw [mailboxOf?_forget] at owned owned'
    split at owned
    · cases owned
    · split at owned'
      · cases owned'
      · exact posted.own actor other name owned owned'
  issued := posted.issued

end Posted

/-! ### Pairs of ends -/

/-- Every open end has a partner, whose partner it is, and all of them have been given out. -/
structure Coupled (hub : Hub) : Prop where
  posted : hub.Posted
  partner : ∀ conn link, hub.links.get? conn = some link →
    ∃ owner, hub.links.get? link.remote = some ⟨owner, conn⟩
  apart : ∀ conn link, hub.links.get? conn = some link → link.remote ≠ conn
  given : ∀ conn link, hub.links.get? conn = some link → conn.number < hub.issued

/-- A look-up in what is left when two ends are taken away. -/
theorem get?_unlinked {links : Table ConnId Link} {one two : ConnId} :
    ((links.erase one).erase two).get? conn =
      if conn = one ∨ conn = two then none else links.get? conn := by
  rw [Table.get?_erase, Table.get?_erase]
  by_cases first : conn = one
  · rw [if_pos first, ite_self, if_pos (.inl first)]
  · by_cases second : conn = two
    · rw [if_pos second, if_pos (.inr second)]
    · rw [if_neg second, if_neg first, if_neg (not_or.mpr ⟨first, second⟩)]

namespace Coupled

theorem empty : ({} : Hub).Coupled where
  posted := .empty
  partner := fun _ _ held => nomatch held
  apart := fun _ _ held => nomatch held
  given := fun _ _ held => nomatch held

theorem of_eq
    (coupled : hub.Coupled)
    (posted : hub'.Posted)
    (links : hub'.links = hub.links)
    (issued : hub.issued ≤ hub'.issued) :
    hub'.Coupled where
  posted := posted
  partner := links ▸ coupled.partner
  apart := links ▸ coupled.apart
  given := fun conn link held =>
    Nat.lt_of_lt_of_le (coupled.given conn link (links ▸ held)) issued

theorem deliver (coupled : hub.Coupled) : (hub.deliver id event).Coupled :=
  coupled.of_eq coupled.posted.deliver (links_deliver ..) (Nat.le_of_eq (issued_deliver ..).symm)

theorem unlink (coupled : hub.Coupled) (held : hub.links.get? conn = some link) :
    ({ hub with links := (hub.links.erase conn).erase link.remote } : Hub).Coupled := by
  obtain ⟨owner, partner⟩ := coupled.partner conn link held
  have left {other : ConnId} {between : Link}
      (kept : ((hub.links.erase conn).erase link.remote).get? other = some between) :
      (other ≠ conn ∧ other ≠ link.remote) ∧ hub.links.get? other = some between := by
    rw [get?_unlinked] at kept
    split at kept
    · cases kept
    · next apart => exact ⟨not_or.mp apart, kept⟩
  refine ⟨coupled.posted.of_eq (fun _ => rfl) rfl (Nat.le_refl _), ?_, ?_, ?_⟩
  · intro other between kept
    obtain ⟨⟨apart, apart'⟩, held'⟩ := left kept
    obtain ⟨owner', partner'⟩ := coupled.partner other between held'
    refine ⟨owner', ?_⟩
    rw [get?_unlinked, if_neg]
    · exact partner'
    -- An end has one partner only, so that of another end is neither of the two.
    · rintro (same | same)
      · rw [same, held] at partner'
        exact apart' (congrArg Link.remote (Option.some.inj partner')).symm
      · rw [same, partner] at partner'
        exact apart (congrArg Link.remote (Option.some.inj partner')).symm
  · exact fun other between kept => coupled.apart other between (left kept).2
  · exact fun other between kept => coupled.given other between (left kept).2

/-- An end that is open is hung up together with its partner, whose owner is told. -/
theorem hangUp_eq (coupled : hub.Coupled) (held : hub.links.get? conn = some link) :
    ∃ owner, hub.links.get? link.remote = some ⟨owner, conn⟩ ∧
      hub.hangUp conn =
        ({ hub with links := (hub.links.erase conn).erase link.remote } : Hub).deliver owner
          (.closed link.remote) := by
  obtain ⟨owner, partner⟩ := coupled.partner conn link held
  refine ⟨owner, partner, ?_⟩
  have left : (hub.links.erase conn).get? link.remote = some ⟨owner, conn⟩ := by
    rw [Table.get?_erase, if_neg (coupled.apart conn link held)]
    exact partner
  unfold Hub.hangUp
  rw [held]
  dsimp only
  rw [left]

theorem hangUp (coupled : hub.Coupled) : (hub.hangUp conn).Coupled := by
  cases held : hub.links.get? conn with
  | none =>
      rw [hangUp_of_unlinked held]
      exact coupled
  | some link =>
      obtain ⟨owner, _, hungUp⟩ := coupled.hangUp_eq held
      rw [hungUp]
      exact (coupled.unlink held).deliver

theorem hangUpAll (coupled : hub.Coupled) : (conns.foldl Hub.hangUp hub).Coupled := by
  induction conns generalizing hub with
  | nil => exact coupled
  | cons conn conns ih => exact ih coupled.hangUp

theorem close (coupled : hub.Coupled) : (hub.close id conn).Coupled := by
  unfold Hub.close
  split
  · split
    · exact coupled.hangUp
    · exact coupled
  · exact coupled

theorem forget (coupled : hub.Coupled) : (hub.forget id).Coupled :=
  coupled.of_eq coupled.posted.forget rfl (Nat.le_refl _)

theorem remove (coupled : hub.Coupled) : (hub.remove id).Coupled := coupled.forget.hangUpAll

theorem send (coupled : hub.Coupled) : (hub.send id conn message).Coupled := by
  unfold Hub.send
  split
  · exact coupled
  · split
    · exact coupled
    · split
      · exact coupled.deliver
      · exact coupled

/-- The connection that is made next has two fresh ends. -/
theorem link_next
    {queues : Table QueueId HandoffQueue}
    (coupled : hub.Coupled) :
    (({ hub with queues, issued := hub.issued + 2 } : Hub).link
      (hub.nextNear dialler).conn dialler (hub.nextFar target).conn target).Coupled := by
  have fresh {other : ConnId} {between : Link} (held : hub.links.get? other = some between) :
      other ≠ (hub.nextNear dialler).conn ∧ other ≠ (hub.nextFar target).conn :=
    ne_next (.inl (coupled.given other between held))
  have apart : (hub.nextNear dialler).conn ≠ (hub.nextFar target).conn := nextNear_ne_nextFar
  refine ⟨coupled.posted.issueTwo, ?_, ?_, ?_⟩
  · intro conn link held
    rw [get?_link] at held
    split at held
    · next same =>
      cases held
      refine ⟨dialler, ?_⟩
      rw [same, get?_link, if_neg apart, if_pos rfl]
    split at held
    · next same =>
      cases held
      refine ⟨target, ?_⟩
      rw [same, get?_link, if_pos rfl]
    · obtain ⟨owner, partner⟩ := coupled.partner conn link held
      refine ⟨owner, ?_⟩
      rw [get?_link, if_neg (fresh partner).2, if_neg (fresh partner).1]
      exact partner
  · intro conn link held
    rw [get?_link] at held
    split at held
    · next same =>
      cases held
      exact same ▸ apart
    split at held
    · next same =>
      cases held
      exact same ▸ apart.symm
    · exact coupled.apart conn link held
  · intro conn link held
    rw [get?_link] at held
    split at held
    · next same =>
      rw [same]
      exact Nat.lt_succ_self _
    split at held
    · next same =>
      rw [same]
      exact Nat.lt_add_of_pos_right Nat.two_pos
    · exact Nat.lt_add_right 2 (coupled.given conn link held)

theorem connect (coupled : hub.Coupled) : (hub.connect dialler target).Coupled := by
  cases accepted : hub.acceptorFor? dialler target with
  | none =>
      rw [connect_of_refused accepted]
      exact (coupled.of_eq coupled.posted.issueTwo rfl (Nat.le_add_right ..)).deliver
  | some name =>
      obtain ⟨queues, made⟩ := connect_of_accepted accepted
      rw [made]
      exact coupled.link_next.deliver

end Coupled

/-- A connect makes two new ends at most, and leaves the others alone. -/
theorem Posted.connect_settled
    (posted : hub.Posted)
    (settled : conn.number < hub.issued ∨ hub.issued + 2 ≤ conn.number) :
    (hub.connect dialler target).links.get? conn = hub.links.get? conn ∧
      ∀ box, (hub.connect dialler target).heard conn box = hub.heard conn box := by
  cases accepted : hub.acceptorFor? dialler target with
  | none =>
      rw [connect_of_refused accepted]
      refine ⟨congrArg (Table.get? · conn) (links_deliver ..), fun box => ?_⟩
      exact posted.issueTwo.heard_deliver_of_other rfl
  | some name =>
      obtain ⟨queues, made⟩ := connect_of_accepted accepted
      obtain ⟨near, far⟩ : conn ≠ (hub.nextNear dialler).conn ∧ conn ≠ (hub.nextFar target).conn :=
        ne_next settled
      rw [made]
      refine ⟨?_, fun box => ?_⟩
      · rw [links_deliver, get?_link, if_neg far, if_neg near]
      · exact posted.issueTwo.heard_deliver_of_other (decide_eq_false near.symm)

/-! ### An end that is not open -/

theorem heard_send_of_unlinked (posted : hub.Posted) (unlinked : hub.links.get? conn = none) :
    (hub.send id other message).heard conn box = hub.heard conn box := by
  unfold send
  split
  · rfl
  · split
    · rfl
    · next far partner =>
      split
      · refine posted.heard_deliver_of_other (decide_eq_false fun same => ?_)
        rw [same, unlinked] at partner
        cases partner
      · rfl

namespace Coupled

/-- Another end is hung up. -/
theorem hangUp_unlinked
    (coupled : hub.Coupled)
    (unlinked : hub.links.get? conn = none)
    (other : ConnId) :
    (hub.hangUp other).links.get? conn = none ∧
      ∀ box, (hub.hangUp other).heard conn box = hub.heard conn box := by
  cases held : hub.links.get? other with
  | none =>
      rw [hangUp_of_unlinked held]
      exact ⟨unlinked, fun _ => rfl⟩
  | some link =>
      obtain ⟨owner, partner, hungUp⟩ := coupled.hangUp_eq held
      have apart : link.remote ≠ conn := by
        intro same
        rw [same, unlinked] at partner
        cases partner
      rw [hungUp]
      refine ⟨?_, fun box => ?_⟩
      · rw [links_deliver, get?_unlinked, unlinked, ite_self]
      · exact (coupled.unlink held).posted.heard_deliver_of_other (decide_eq_false apart)

theorem close_unlinked (coupled : hub.Coupled) (unlinked : hub.links.get? conn = none) :
    (hub.close id other).links.get? conn = none ∧
      ∀ box, (hub.close id other).heard conn box = hub.heard conn box := by
  unfold Hub.close
  split
  · split
    · exact coupled.hangUp_unlinked unlinked _
    · exact ⟨unlinked, fun _ => rfl⟩
  · exact ⟨unlinked, fun _ => rfl⟩

theorem hangUpAll_unlinked
    (coupled : hub.Coupled)
    (unlinked : hub.links.get? conn = none)
    (conns : List ConnId) :
    (conns.foldl Hub.hangUp hub).links.get? conn = none ∧
      ∀ box, (conns.foldl Hub.hangUp hub).heard conn box = hub.heard conn box := by
  induction conns generalizing hub with
  | nil => exact ⟨unlinked, fun _ => rfl⟩
  | cons other conns ih =>
      obtain ⟨unlinked', same⟩ := coupled.hangUp_unlinked unlinked other
      obtain ⟨closed, same'⟩ := ih coupled.hangUp unlinked'
      exact ⟨closed, fun box => (same' box).trans (same box)⟩

theorem remove_unlinked (coupled : hub.Coupled) (unlinked : hub.links.get? conn = none) :
    (hub.remove id).links.get? conn = none ∧
      ∀ box, (hub.remove id).heard conn box = hub.heard conn box :=
  coupled.forget.hangUpAll_unlinked unlinked _

end Coupled

/-! ### The ends of one connection -/

/-- Two sides of one connection, which is open. -/
structure Linked (hub : Hub) (here there : Side) : Prop where
  near : hub.links.get? here.conn = some ⟨here.owner, there.conn⟩
  far : hub.links.get? there.conn = some ⟨there.owner, here.conn⟩

namespace Linked

theorem symm (linked : hub.Linked here there) : hub.Linked there here := ⟨linked.far, linked.near⟩

theorem of_eq (linked : hub.Linked here there) (links : hub'.links = hub.links) :
    hub'.Linked here there :=
  ⟨links ▸ linked.near, links ▸ linked.far⟩

/-- A third end is hung up. -/
theorem hangUp_of_ne
    (linked : hub.Linked here there)
    (coupled : hub.Coupled)
    (apart : conn ≠ here.conn)
    (apart' : conn ≠ there.conn) :
    (hub.hangUp conn).Linked here there ∧
      ∀ box, (hub.hangUp conn).heard here.conn box = hub.heard here.conn box := by
  cases held : hub.links.get? conn with
  | none =>
      rw [hangUp_of_unlinked held]
      exact ⟨linked, fun _ => rfl⟩
  | some link =>
      obtain ⟨owner, partner, hungUp⟩ := coupled.hangUp_eq held
      have other : link.remote ≠ here.conn := by
        intro same
        rw [same, linked.near] at partner
        exact apart' (congrArg Link.remote (Option.some.inj partner)).symm
      have other' : link.remote ≠ there.conn := by
        intro same
        rw [same, linked.far] at partner
        exact apart (congrArg Link.remote (Option.some.inj partner)).symm
      rw [hungUp]
      refine ⟨⟨?_, ?_⟩, fun box => ?_⟩
      · rw [links_deliver, get?_unlinked, if_neg (not_or.mpr ⟨apart.symm, other.symm⟩)]
        exact linked.near
      · rw [links_deliver, get?_unlinked, if_neg (not_or.mpr ⟨apart'.symm, other'.symm⟩)]
        exact linked.far
      · exact (coupled.unlink held).posted.heard_deliver_of_other (decide_eq_false other)

/-- The other end is hung up, and the owner of this one is told. -/
theorem hangUp_far (linked : hub.Linked here there) (coupled : hub.Coupled) :
    (hub.hangUp there.conn).links.get? here.conn = none ∧
      ∀ box, (hub.hangUp there.conn).heard here.conn box = hub.heard here.conn box ++
        if hub.mailboxOf? here.owner = some box then [.closed here.conn] else [] := by
  obtain ⟨owner, partner, hungUp⟩ := coupled.hangUp_eq linked.far
  obtain rfl : here.owner = owner :=
    congrArg Link.owner (Option.some.inj (linked.near.symm.trans partner))
  rw [hungUp]
  refine ⟨?_, fun box => ?_⟩
  · rw [links_deliver, get?_unlinked, if_pos (.inr rfl)]
  · exact (coupled.unlink linked.far).posted.heard_deliver (decide_eq_true rfl)

/-- This end is hung up.  Its owner knows. -/
theorem hangUp_near (linked : hub.Linked here there) (coupled : hub.Coupled) :
    (hub.hangUp here.conn).links.get? here.conn = none ∧
      ∀ box, (hub.hangUp here.conn).heard here.conn box = hub.heard here.conn box := by
  obtain ⟨owner, _, hungUp⟩ := coupled.hangUp_eq linked.near
  have apart : there.conn ≠ here.conn := coupled.apart _ _ linked.near
  rw [hungUp]
  refine ⟨?_, fun box => ?_⟩
  · rw [links_deliver, get?_unlinked, if_pos (.inl rfl)]
  · exact (coupled.unlink linked.near).posted.heard_deliver_of_other (decide_eq_false apart)

/-- Nobody closes the connection who is not at one of its ends. -/
theorem close_of_other
    (linked : hub.Linked here there)
    (coupled : hub.Coupled)
    (other : ¬(id = here.owner ∧ conn = here.conn))
    (other' : ¬(id = there.owner ∧ conn = there.conn)) :
    (hub.close id conn).Linked here there ∧
      ∀ box, (hub.close id conn).heard here.conn box = hub.heard here.conn box := by
  cases held : hub.links.get? conn with
  | none =>
      rw [Hub.close_of_other fun link held' => by rw [held] at held'; cases held']
      exact ⟨linked, fun _ => rfl⟩
  | some link =>
      by_cases owned : link.owner = id
      · obtain rfl := owned
        have apart : conn ≠ here.conn := by
          rintro rfl
          exact other ⟨congrArg Link.owner (Option.some.inj (held.symm.trans linked.near)), rfl⟩
        have apart' : conn ≠ there.conn := by
          rintro rfl
          exact other' ⟨congrArg Link.owner (Option.some.inj (held.symm.trans linked.far)), rfl⟩
        rw [close_of_owner held]
        exact linked.hangUp_of_ne coupled apart apart'
      · rw [Hub.close_of_other fun link' held' => Option.some.inj (held.symm.trans held') ▸ owned]
        exact ⟨linked, fun _ => rfl⟩

/-- A connect that is accepted opens a connection, which the dialling node is told. -/
theorem connect
    (posted : hub.Posted)
    (accepted : hub.acceptorFor? dialler target = some name) :
    (hub.connect dialler target).Linked (hub.nextNear dialler) (hub.nextFar target) ∧
      (∀ box, (hub.connect dialler target).heard (hub.nextNear dialler).conn box =
        hub.heard (hub.nextNear dialler).conn box ++
          if hub.mailboxOf? dialler = some box then
            [.connected (hub.nextNear dialler).conn target]
          else []) ∧
      ∀ box, (hub.connect dialler target).heard (hub.nextFar target).conn box =
        hub.heard (hub.nextFar target).conn box := by
  obtain ⟨queues, made⟩ := connect_of_accepted accepted
  rw [made]
  refine ⟨⟨?_, ?_⟩, fun box => ?_, fun box => ?_⟩
  · rw [links_deliver, get?_link, if_neg nextNear_ne_nextFar, if_pos rfl]
    rfl
  · rw [links_deliver, get?_link, if_pos rfl]
    rfl
  · exact posted.issueTwo.heard_deliver (decide_eq_true rfl)
  · exact posted.issueTwo.heard_deliver_of_other (decide_eq_false nextNear_ne_nextFar)

/-! #### Removal of a node -/

theorem hangUpAll_of_not_mem
    (linked : hub.Linked here there)
    (coupled : hub.Coupled)
    (apart : here.conn ∉ conns)
    (apart' : there.conn ∉ conns) :
    (conns.foldl hangUp hub).Linked here there ∧
      ∀ box, (conns.foldl hangUp hub).heard here.conn box = hub.heard here.conn box := by
  induction conns generalizing hub with
  | nil => exact ⟨linked, fun _ => rfl⟩
  | cons conn conns ih =>
      obtain ⟨other, apart⟩ := not_or.mp (List.mem_cons.not.mp apart)
      obtain ⟨other', apart'⟩ := not_or.mp (List.mem_cons.not.mp apart')
      obtain ⟨linked', same⟩ := linked.hangUp_of_ne coupled (Ne.symm other) (Ne.symm other')
      obtain ⟨linked'', same'⟩ := ih linked' coupled.hangUp apart apart'
      exact ⟨linked'', fun box => (same' box).trans (same box)⟩

/-- Of the two ends, the one that comes first takes the other one with it.  If that is this end, its
owner has been forgotten and is not told. -/
theorem hangUpAll_cut
    (linked : hub.Linked here there)
    (coupled : hub.Coupled)
    (cut : here.conn ∈ conns ∨ there.conn ∈ conns)
    (forgotten : here.conn ∈ conns → hub.mailboxOf? here.owner = none) :
    (conns.foldl hangUp hub).links.get? here.conn = none ∧
      ∀ box, (conns.foldl hangUp hub).heard here.conn box = hub.heard here.conn box ++
        if hub.mailboxOf? here.owner = some box then [.closed here.conn] else [] := by
  induction conns generalizing hub with
  | nil => rcases cut with cut | cut <;> cases cut
  | cons conn conns ih =>
      by_cases first : conn = there.conn
      · subst first
        obtain ⟨unlinked, told⟩ := linked.hangUp_far coupled
        obtain ⟨unlinked', same⟩ := coupled.hangUp.hangUpAll_unlinked unlinked conns
        exact ⟨unlinked', fun box => (same box).trans (told box)⟩
      by_cases first' : conn = here.conn
      · subst first'
        obtain ⟨unlinked, same⟩ := linked.hangUp_near coupled
        obtain ⟨unlinked', same'⟩ := coupled.hangUp.hangUpAll_unlinked unlinked conns
        refine ⟨unlinked', fun box => ?_⟩
        rw [forgotten List.mem_cons_self, if_neg nofun, List.append_nil]
        exact (same' box).trans (same box)
      · obtain ⟨linked', same⟩ := linked.hangUp_of_ne coupled first' first
        have known : (hub.hangUp conn).mailboxOf? here.owner = hub.mailboxOf? here.owner :=
          mailboxOf?_hangUp
        have cut' : here.conn ∈ conns ∨ there.conn ∈ conns :=
          cut.imp (List.mem_of_ne_of_mem (Ne.symm first')) (List.mem_of_ne_of_mem (Ne.symm first))
        obtain ⟨unlinked, told⟩ := ih linked' coupled.hangUp cut' fun listed =>
          known.trans (forgotten (List.mem_cons_of_mem _ listed))
        rw [known] at told
        exact ⟨unlinked, fun box => same box ▸ told box⟩

theorem mem_endsOf_iff (linked : hub.Linked here there) :
    here.conn ∈ hub.endsOf id ↔ here.owner = id := by
  rw [Hub.mem_endsOf_iff, linked.near]
  constructor
  · rintro ⟨_, ⟨⟩, owned⟩
    exact owned
  · exact fun owned => ⟨_, rfl, owned⟩

/-- A third node is removed. -/
theorem remove_of_ne
    (linked : hub.Linked here there)
    (coupled : hub.Coupled)
    (apart : here.owner ≠ id)
    (apart' : there.owner ≠ id) :
    (hub.remove id).Linked here there ∧
      ∀ box, (hub.remove id).heard here.conn box = hub.heard here.conn box :=
  have linked' : (hub.forget id).Linked here there := linked.of_eq rfl
  linked'.hangUpAll_of_not_mem coupled.forget (linked.mem_endsOf_iff.not.mpr apart)
    (linked.symm.mem_endsOf_iff.not.mpr apart')

/-- The owner of an end is removed, which the other one is told. -/
theorem remove_cut
    (linked : hub.Linked here there)
    (coupled : hub.Coupled)
    (cut : here.owner = id ∨ there.owner = id) :
    (hub.remove id).links.get? here.conn = none ∧
      ∀ box, (hub.remove id).heard here.conn box = hub.heard here.conn box ++
        if (hub.forget id).mailboxOf? here.owner = some box then [.closed here.conn] else [] := by
  have linked' : (hub.forget id).Linked here there := linked.of_eq rfl
  refine linked'.hangUpAll_cut coupled.forget ?_ fun listed => ?_
  · exact cut.imp linked.mem_endsOf_iff.mpr linked.symm.mem_endsOf_iff.mpr
  · exact mailboxOf?_forget.trans (if_pos (linked.mem_endsOf_iff.mp listed))

/-! #### Messages -/

/-- What is sent at the other end is heard at this one. -/
theorem heard_send
    (linked : hub.Linked here there)
    (posted : hub.Posted)
    (passes : hub.passes there.owner here.owner = true) :
    (hub.send there.owner there.conn message).heard here.conn box =
      hub.heard here.conn box ++
        if hub.mailboxOf? here.owner = some box then [.received here.conn message] else [] := by
  unfold send
  rw [linked.far]
  dsimp only
  rw [linked.near]
  dsimp only
  rw [passes, decide_eq_true rfl, Bool.true_and, if_pos rfl]
  exact posted.heard_deliver (decide_eq_true rfl)

theorem send_of_blocked
    (linked : hub.Linked here there)
    (blocked : hub.passes there.owner here.owner = false) :
    hub.send there.owner there.conn message = hub := by
  unfold send
  rw [linked.far]
  dsimp only
  rw [linked.near]
  dsimp only
  rw [blocked, Bool.and_false]
  rfl

/-- Nothing is heard from anybody else. -/
theorem heard_send_of_other
    (linked : hub.Linked here there)
    (coupled : hub.Coupled)
    (other : ¬(id = there.owner ∧ conn = there.conn)) :
    (hub.send id conn message).heard here.conn box = hub.heard here.conn box := by
  unfold send
  split
  · rfl
  · next near held =>
    split
    · rfl
    · next far partner =>
      split
      · next allowed =>
        have owned : near.owner = id := of_decide_eq_true (Bool.and_eq_true_iff.mp allowed).1
        refine coupled.posted.heard_deliver_of_other (decide_eq_false fun same => ?_)
        -- The partner of the end that is sent on would be this end.
        obtain ⟨owner, back⟩ := coupled.partner conn near held
        rw [same, linked.near] at back
        obtain rfl : there.conn = conn := congrArg Link.remote (Option.some.inj back)
        rw [linked.far] at held
        exact other ⟨owned ▸ congrArg Link.owner (Option.some.inj held).symm, rfl⟩
      · rfl

end Linked

end Hub

end Quorum
