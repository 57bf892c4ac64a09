import Quorum.Proofs.Network.Reliability

/-!
# Ends come and go in pairs

On every network the open ends are paired.  A connect adds one pair or none: it adds one if the
target takes the connection in (`Hub.TakesIn`), and then the far end is handed off and the near end
is what the dialling node is told of (`Hub.Joins`).  Otherwise nothing is handed off and the
dialling node is told of the failure (`Hub.Refuses`).  A connection that is closed, or one of whose
nodes is removed, goes with both of its ends (`Hub.Unpairs`).

A node may connect to itself, and then both ends are its own.
-/

namespace Quorum

namespace Hub

variable
    {hub : Hub}
    {id dialler target : NodeId}
    {conn : ConnId}
    {home : MailboxId}
    {name : QueueId}
    {link : Link}

/-! ## Connecting -/

/-- A node takes a connection into a queue: neither of the two is isolated, the node is known
and has its connections handed off there, and the queue is read and has room. -/
structure TakesIn (hub : Hub) (dialler target : NodeId) (name : QueueId) : Prop where
  reached : dialler ∉ hub.isolated
  reachable : target ∉ hub.isolated
  accepts : ∃ endpoint queue, hub.endpoints.get? target = some endpoint ∧
    endpoint.acceptor = some name ∧ hub.queues.get? name = some queue ∧
    queue.receiving = true ∧ queue.waiting.length < queue.capacity

/-- A connection is made out of two fresh ends.  The far one is handed off, and the dialling node is
told of the near one. -/
structure Joins
    (before : Hub)
    (dialler target : NodeId)
    (home : MailboxId)
    (name : QueueId)
    (near far : ConnId)
    (after : Hub) : Prop where
  apart : near ≠ far
  freshNear : before.links.get? near = none
  freshFar : before.links.get? far = none
  linked : ∀ conn, after.links.get? conn =
    if conn = near then some ⟨dialler, far⟩
    else if conn = far then some ⟨target, near⟩
    else before.links.get? conn
  handedOff : ∀ queue, after.handedOffIn queue =
    before.handedOffIn queue ++ if queue = name then [far] else []
  told : ∀ box, after.eventsIn box =
    before.eventsIn box ++ if box = home then [.connected near target] else []

/-- There is no connection, and the dialling node is told that. -/
structure Refuses (before : Hub) (target : NodeId) (home : MailboxId) (after : Hub) : Prop where
  links_eq : after.links = before.links
  queues_eq : after.queues = before.queues
  told : ∀ box, after.eventsIn box =
    before.eventsIn box ++ if box = home then [.connectFailed target] else []

theorem acceptorFor?_eq_some_iff :
    hub.acceptorFor? dialler target = some name ↔ hub.TakesIn dialler target name := by
  unfold acceptorFor? passes HandoffQueue.accepts
  constructor
  · intro accepted
    obtain ⟨endpoint, known, accepted⟩ := Option.bind_eq_some_iff.mp accepted
    obtain ⟨found, acceptor, accepted⟩ := Option.bind_eq_some_iff.mp accepted
    obtain ⟨queue, held, accepted⟩ := Option.bind_eq_some_iff.mp accepted
    split at accepted
    · next allowed =>
      cases accepted
      simp only [Bool.and_eq_true, decide_eq_true_eq] at allowed
      exact ⟨allowed.1.1, allowed.1.2, endpoint, queue, known, acceptor, held, allowed.2⟩
    · cases accepted
  · rintro ⟨reached, reachable, endpoint, queue, known, acceptor, held, receiving, room⟩
    simp [known, acceptor, held, reached, reachable, receiving, room]

theorem handedOffIn_deliver {event : NetworkEvent} {queue : QueueId} :
    (hub.deliver id event).handedOffIn queue = hub.handedOffIn queue := by
  unfold handedOffIn
  rw [queues_deliver]

/-- A queue with room takes what it is offered. -/
theorem handedOffIn_offer
    {queue : QueueId}
    (takes : hub.TakesIn dialler target name) :
    ({ hub with queues := hub.queues.modify name fun queue => queue.offer conn } : Hub).handedOffIn
        queue =
      hub.handedOffIn queue ++ if queue = name then [conn] else [] := by
  obtain ⟨_, held, _, _, there, receiving, room⟩ := takes.accepts
  unfold handedOffIn
  rw [Table.get?_modify]
  by_cases same : queue = name
  · subst same
    rw [if_pos rfl, if_pos rfl, there]
    simp [HandoffQueue.offer, HandoffQueue.accepts, receiving, room]
  · rw [if_neg same, if_neg same, List.append_nil]

/-! ## Taking connections down -/

/-- Connections are taken down, with both of their ends: those one of whose sides is chosen. -/
structure Unpairs (before : Hub) (chosen : Side → Prop) (after : Hub) : Prop where
  taken : ∀ here there, before.Linked here there → chosen here →
    after.links.get? here.conn = none ∧ after.links.get? there.conn = none
  kept : ∀ here there, before.Linked here there → ¬ chosen here → ¬ chosen there →
    after.Linked here there
  unlinked : ∀ conn, before.links.get? conn = none → after.links.get? conn = none

namespace Coupled

/-- Ends that have not been given out are not open. -/
theorem get?_of_issued_le
    (coupled : hub.Coupled)
    (new : hub.issued ≤ conn.number) :
    hub.links.get? conn = none := by
  cases held : hub.links.get? conn with
  | none => rfl
  | some link => exact absurd (coupled.given conn link held) (Nat.not_lt.mpr new)

theorem joins
    (coupled : hub.Coupled)
    (registered : hub.mailboxOf? dialler = some home)
    (takes : hub.TakesIn dialler target name) :
    hub.Joins dialler target home name (hub.nextNear dialler).conn (hub.nextFar target).conn
      (hub.connect dialler target) := by
  rw [connect_eq_of_accepted (acceptorFor?_eq_some_iff.mpr takes)]
  exact {
    apart := nextNear_ne_nextFar
    freshNear := coupled.get?_of_issued_le (Nat.le_refl _)
    freshFar := coupled.get?_of_issued_le (Nat.le_succ _)
    linked := by
      intro conn
      rw [links_deliver, get?_link]
      by_cases near : conn = (hub.nextNear dialler).conn
      · rw [if_pos near, if_neg (near ▸ nextNear_ne_nextFar), if_pos near]
      · rw [if_neg near, if_neg near]
    handedOff := by
      intro queue
      rw [handedOffIn_deliver]
      exact handedOffIn_offer takes
    told := by
      intro box
      refine coupled.link_next.posted.eventsIn_deliver.trans (congrArg _ ?_)
      exact Traffic.ite_addressed registered }

theorem refuses
    (coupled : hub.Coupled)
    (registered : hub.mailboxOf? dialler = some home)
    (refused : ∀ name, ¬ hub.TakesIn dialler target name) :
    hub.Refuses target home (hub.connect dialler target) := by
  have nobody : hub.acceptorFor? dialler target = none := by
    refine Option.eq_none_iff_forall_ne_some.mpr fun name accepted => ?_
    exact refused name (acceptorFor?_eq_some_iff.mp accepted)
  rw [connect_of_refused nobody]
  exact {
    links_eq := links_deliver ..
    queues_eq := queues_deliver ..
    told := by
      intro box
      refine coupled.posted.issueTwo.eventsIn_deliver.trans (congrArg _ ?_)
      exact Traffic.ite_addressed registered }

/-- An open end belongs to a connection. -/
theorem linked (coupled : hub.Coupled) (held : hub.links.get? conn = some link) :
    ∃ owner, hub.Linked ⟨conn, link.owner⟩ ⟨link.remote, owner⟩ := by
  obtain ⟨owner, partner⟩ := coupled.partner conn link held
  exact ⟨owner, held, partner⟩

end Coupled

end Hub

namespace Traffic

variable
    {hub : Hub}
    {traffic : Traffic}
    {id : NodeId}
    {conn : ConnId}
    {here there : Side}

/-! ## Taking connections down -/

/-- A connection that is taken down at either side goes with both of its ends. -/
theorem gone_of_cuts
    (linked : hub.Linked here there)
    (coupled : hub.Coupled)
    (cut : traffic.cuts here = true ∨ traffic.cuts there = true) :
    (traffic.change hub).links.get? here.conn = none := by
  cases cut' : traffic.cuts here with
  | true => exact (linked_change_cut_near linked coupled cut').1
  | false =>
      have far := cut.resolve_left (Bool.eq_false_iff.mp cut')
      exact (linked_change_cut_far linked coupled cut' far).1

/-- Whatever opens no end takes whole connections down, those that it takes down at a side. -/
theorem unpairs
    {chosen : Side → Prop}
    (coupled : hub.Coupled)
    (cuts : ∀ side, traffic.cuts side = true ↔ chosen side)
    (opensNone : ∀ conn, hub.links.get? conn = none →
      (traffic.change hub).links.get? conn = none) :
    hub.Unpairs chosen (traffic.change hub) where
  taken := by
    intro here there linked taken
    have cut := (cuts here).mpr taken
    exact ⟨gone_of_cuts linked coupled (.inl cut), gone_of_cuts linked.symm coupled (.inr cut)⟩
  kept := by
    intro here there linked unchosen unchosen'
    have whole := Bool.eq_false_iff.mpr ((cuts here).not.mpr unchosen)
    have whole' := Bool.eq_false_iff.mpr ((cuts there).not.mpr unchosen')
    exact (linked_change linked coupled whole whole').1
  unlinked := opensNone

theorem close_unpairs (coupled : hub.Coupled) (id : NodeId) (conn : ConnId) :
    hub.Unpairs (fun side => side = ⟨conn, id⟩) ((asks id (.close conn)).change hub) := by
  refine unpairs coupled (fun side => cuts_iff.trans ?_) fun _ unlinked =>
    (coupled.close_unlinked unlinked).1
  constructor
  · rintro (same | same)
    · cases same
      rfl
    · cases same
  · rintro rfl
    exact .inl rfl

theorem remove_unpairs (coupled : hub.Coupled) (id : NodeId) :
    hub.Unpairs (fun side => side.owner = id) ((remove id).change hub) := by
  refine unpairs coupled (fun side => cuts_iff.trans ?_) fun _ unlinked =>
    (coupled.remove_unlinked unlinked).1
  constructor
  · rintro (same | same)
    · cases same
    · cases same
      rfl
  · rintro rfl
    exact .inr rfl

/-- No end that is open belongs to the node that has just been removed. -/
theorem owner_ne_of_removed
    {link : Link}
    (coupled : hub.Coupled)
    (held : ((remove id).change hub).links.get? conn = some link) :
    link.owner ≠ id := by
  have unpairs := remove_unpairs coupled id
  cases before : hub.links.get? conn with
  | none =>
      rw [unpairs.unlinked conn before] at held
      cases held
  | some link' =>
      obtain ⟨owner, linked⟩ := coupled.linked before
      by_cases taken : link'.owner = id
      · rw [(unpairs.taken _ _ linked taken).1] at held
        cases held
      by_cases taken' : owner = id
      · rw [(unpairs.taken _ _ linked.symm taken').2] at held
        cases held
      · rw [(unpairs.kept _ _ linked taken taken').near] at held
        cases held
        exact taken

/-! ## Every network -/

/-- Whatever has happened on a network, its open ends are paired.  A connect of a node that is
registered makes a connection, or is refused and leaves everything as it is.  To close an end, or
to remove a node, takes whole connections down. -/
theorem stays_paired (past : List Traffic) :
    let hub := (network past).hub
    (∀ conn link, hub.links.get? conn = some link →
      link.remote ≠ conn ∧ ∃ owner, hub.links.get? link.remote = some ⟨owner, conn⟩) ∧
    (∀ dialler peer home, hub.mailboxOf? dialler = some home →
      let after := (asks dialler (.connect peer)).change hub
      (∃ name near far, hub.TakesIn dialler peer.id name ∧
        hub.Joins dialler peer.id home name near far after) ∨
      (∀ name, ¬ hub.TakesIn dialler peer.id name) ∧ hub.Refuses peer.id home after) ∧
    (∀ id conn, hub.Unpairs (fun side => side = ⟨conn, id⟩)
      ((asks id (.close conn)).change hub)) ∧
    ∀ id, hub.Unpairs (fun side => side.owner = id) ((remove id).change hub) ∧
      ∀ conn link, ((remove id).change hub).links.get? conn = some link → link.owner ≠ id := by
  intro hub
  have coupled : hub.Coupled := coupled_network past
  refine ⟨fun conn link held => ?_, fun dialler peer home registered => ?_, ?_, fun id => ?_⟩
  · exact ⟨coupled.apart conn link held, coupled.partner conn link held⟩
  · by_cases taken : ∃ name, hub.TakesIn dialler peer.id name
    · obtain ⟨name, takes⟩ := taken
      exact .inl ⟨name, _, _, takes, coupled.joins registered takes⟩
    · have refused := not_exists.mp taken
      exact .inr ⟨refused, coupled.refuses registered refused⟩
  · exact close_unpairs coupled
  · exact ⟨remove_unpairs coupled id, fun _ _ => owner_ne_of_removed coupled⟩

/-! ### A node that connects to itself

Both ends are its own.  Nobody takes the first connection out of the queue, so there is no second
one, and when the node is removed both ends are gone. -/

def listeningAlone : List Traffic := [register "a", openQueue 1, attach "a" ⟨1⟩]

def itself : Peer := ⟨"a", "", 0⟩

theorem stays_paired_alone :
    let hub := (network listeningAlone).hub
    let joined := (network (listeningAlone ++ [asks "a" (.connect itself)])).hub
    hub.mailboxOf? "a" = some ⟨0⟩ ∧ joined.mailboxOf? "a" = some ⟨0⟩ ∧
      (∃ name near far, hub.Joins "a" "a" ⟨0⟩ name near far joined) ∧
      joined.Refuses "a" ⟨0⟩ ((asks "a" (.connect itself)).change joined) ∧
      joined.Linked ⟨⟨2⟩, "a"⟩ ⟨⟨3⟩, "a"⟩ ∧
      ((remove "a").change joined).links.get? ⟨2⟩ = none ∧
      ((remove "a").change joined).links.get? ⟨3⟩ = none := by
  intro hub joined
  have registered : hub.mailboxOf? "a" = some ⟨0⟩ := by decide +kernel
  have registered' : joined.mailboxOf? "a" = some ⟨0⟩ := by decide +kernel
  have room : hub.acceptorFor? "a" "a" = some ⟨1⟩ := by decide +kernel
  have full : joined.acceptorFor? "a" "a" = none := by decide +kernel
  have linked : joined.Linked ⟨⟨2⟩, "a"⟩ ⟨⟨3⟩, "a"⟩ := ⟨by decide +kernel, by decide +kernel⟩
  obtain ⟨_, connects, _, _⟩ := stays_paired listeningAlone
  obtain ⟨_, connects', _, removes⟩ :=
    stays_paired (listeningAlone ++ [asks "a" (.connect itself)])
  refine ⟨registered, registered', ?_, ?_, linked, (removes "a").1.taken _ _ linked rfl⟩
  · rcases connects "a" itself ⟨0⟩ registered with ⟨name, near, far, _, joins⟩ | ⟨refused, _⟩
    · rw [← hub_concat] at joins
      exact ⟨name, near, far, joins⟩
    · exact (refused ⟨1⟩ (Hub.acceptorFor?_eq_some_iff.mp room)).elim
  · rcases connects' "a" itself ⟨0⟩ registered' with ⟨name, _, _, takes, _⟩ | ⟨_, refuses⟩
    · have taken := Hub.acceptorFor?_eq_some_iff.mpr takes
      cases full.symm.trans taken
    · exact refuses

end Traffic

end Quorum
