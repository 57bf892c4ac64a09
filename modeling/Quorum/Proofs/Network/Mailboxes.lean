import Mathlib.Logic.Function.Basic
import Quorum.Network.Hub

/-!
# The mailboxes of a hub

A node is known to a hub by the mailbox that it reads.  As long as every known node has a mailbox of
its own, and reads it (`Hub.Posted`), what is delivered to a node is put behind the events that wait
for it, and behind those of nobody else, and a node takes its events one by one.

What an operation changes at most is said once for each of them (`Hub.carryOut_eq_with`).
-/

namespace Quorum.Hub

variable {hub : Hub} {id : NodeId} {name : MailboxId} {event : NetworkEvent}

/-- The mailbox that a node is known by. -/
def mailboxOf? (hub : Hub) (id : NodeId) : Option MailboxId :=
  (hub.endpoints.get? id).map Endpoint.mailbox

/-- The events that wait for a node, oldest first. -/
def inbox (hub : Hub) (id : NodeId) : List NetworkEvent :=
  match hub.mailboxOf? id with
  | some name => hub.eventsIn name
  | none => []

/-- Every known node has a mailbox of its own, and reads it. -/
structure Posted (hub : Hub) : Prop where
  read : ∀ id name, hub.mailboxOf? id = some name →
    ∃ box, hub.mailboxes.get? name = some box ∧ box.receiving = true
  own : ∀ id other name, hub.mailboxOf? id = some name → hub.mailboxOf? other = some name →
    id = other
  issued : ∀ name box, hub.mailboxes.get? name = some box → name.number < hub.issued

theorem inbox_eq (owned : hub.mailboxOf? id = some name) : hub.inbox id = hub.eventsIn name := by
  unfold inbox
  rw [owned]

theorem deliver_eq (owned : hub.mailboxOf? id = some name) :
    hub.deliver id event =
      { hub with mailboxes := hub.mailboxes.modify name fun box => box.put event } := by
  obtain ⟨endpoint, known, rfl⟩ := Option.map_eq_some_iff.mp owned
  unfold deliver
  rw [known]

theorem deliver_of_unknown (unknown : hub.mailboxOf? id = none) : hub.deliver id event = hub := by
  unfold deliver
  rw [Option.map_eq_none_iff.mp unknown]

/-! ### What the operations change at most -/

theorem deliver_eq_with : ∃ mailboxes, hub.deliver id event = { hub with mailboxes } := by
  unfold deliver
  split
  · exact ⟨_, rfl⟩
  · exact ⟨_, rfl⟩

theorem send_eq_with (hub : Hub) (id : NodeId) (conn : ConnId) (message : Message) :
    ∃ mailboxes, hub.send id conn message = { hub with mailboxes } := by
  unfold send
  split
  · exact ⟨_, rfl⟩
  · split
    · exact ⟨_, rfl⟩
    · split
      · exact deliver_eq_with
      · exact ⟨_, rfl⟩

theorem hangUp_eq_with (hub : Hub) (conn : ConnId) :
    ∃ links mailboxes, hub.hangUp conn = { hub with links, mailboxes } := by
  unfold hangUp
  split
  · exact ⟨_, _, rfl⟩
  · dsimp only
    split
    · exact ⟨_, _, rfl⟩
    · obtain ⟨mailboxes, told⟩ := deliver_eq_with
      exact ⟨_, mailboxes, told⟩

theorem close_eq_with (hub : Hub) (id : NodeId) (conn : ConnId) :
    ∃ links mailboxes, hub.close id conn = { hub with links, mailboxes } := by
  unfold close
  split
  · split
    · exact hangUp_eq_with ..
    · exact ⟨_, _, rfl⟩
  · exact ⟨_, _, rfl⟩

theorem connect_eq_with (hub : Hub) (dialler target : NodeId) :
    ∃ links mailboxes queues,
      hub.connect dialler target =
        { hub with links, mailboxes, queues, issued := hub.issued + 2 } := by
  unfold connect issue
  dsimp only
  split
  · obtain ⟨mailboxes, told⟩ := deliver_eq_with
    exact ⟨_, mailboxes, _, told⟩
  · obtain ⟨mailboxes, told⟩ := deliver_eq_with
    exact ⟨_, mailboxes, _, told⟩

theorem carryOut_eq_with (hub : Hub) (id : NodeId) (ask : Ask) :
    ∃ links mailboxes queues issued, hub.issued ≤ issued ∧
      hub.carryOut id ask = { hub with links, mailboxes, queues, issued } := by
  cases ask with
  | send conn message =>
      obtain ⟨mailboxes, sent⟩ := hub.send_eq_with id conn message
      exact ⟨_, mailboxes, _, _, Nat.le_refl _, sent⟩
  | connect peer =>
      obtain ⟨links, mailboxes, queues, made⟩ := hub.connect_eq_with id peer.id
      exact ⟨links, mailboxes, queues, _, Nat.le_add_right .., made⟩
  | close conn =>
      obtain ⟨links, mailboxes, closed⟩ := hub.close_eq_with id conn
      exact ⟨links, mailboxes, _, _, Nat.le_refl _, closed⟩

theorem links_send {conn : ConnId} {message : Message} :
    (hub.send id conn message).links = hub.links := by
  obtain ⟨_, sent⟩ := hub.send_eq_with id conn message
  rw [sent]

@[simp]
theorem mailboxOf?_deliver {other : NodeId} :
    (hub.deliver id event).mailboxOf? other = hub.mailboxOf? other := by
  unfold mailboxOf?
  rw [endpoints_deliver]

theorem mailboxOf?_hangUp {conn : ConnId} :
    (hub.hangUp conn).mailboxOf? id = hub.mailboxOf? id := by
  obtain ⟨_, _, hungUp⟩ := hub.hangUp_eq_with conn
  rw [hungUp]
  rfl

/-- Nothing that a node asks for makes another node known. -/
theorem mailboxOf?_carryOut {actor : NodeId} {ask : Ask} :
    (hub.carryOut actor ask).mailboxOf? id = hub.mailboxOf? id := by
  obtain ⟨_, _, _, _, _, served⟩ := hub.carryOut_eq_with actor ask
  rw [served]
  rfl

theorem mailboxOf?_carryOutAll {actor : NodeId} {wishes : List (Nat × Ask)} :
    (wishes.foldl (fun hub wish => hub.carryOut actor wish.2) hub).mailboxOf? id =
      hub.mailboxOf? id := by
  induction wishes generalizing hub with
  | nil => rfl
  | cons _ _ ih => exact ih.trans mailboxOf?_carryOut

namespace Posted

/-- Nobody is known yet. -/
theorem empty : ({} : Hub).Posted where
  read := fun _ _ owned => nomatch owned
  own := fun _ _ _ owned => nomatch owned
  issued := fun _ _ held => nomatch held

/-- The events of one node have changed, and nobody has stopped reading. -/
theorem modify
    {change : Mailbox → Mailbox}
    (posted : hub.Posted)
    (reading : ∀ box, (change box).receiving = box.receiving) :
    ({ hub with mailboxes := hub.mailboxes.modify name change } : Hub).Posted where
  read := by
    intro id other owned
    obtain ⟨box, held, receiving⟩ := posted.read id other owned
    rw [Table.get?_modify]
    split
    · next same =>
      subst same
      rw [held]
      exact ⟨change box, rfl, (reading box).trans receiving⟩
    · exact ⟨box, held, receiving⟩
  own := posted.own
  issued := by
    intro other box held
    rw [Table.get?_modify] at held
    split at held
    · next same =>
      obtain ⟨old, held, _⟩ := Option.map_eq_some_iff.mp held
      exact same ▸ posted.issued name old held
    · exact posted.issued other box held

/-- What waits for the others is not touched. -/
theorem inbox_modify
    {change : Mailbox → Mailbox}
    {box : Mailbox}
    (posted : hub.Posted)
    (owned : hub.mailboxOf? id = some name)
    (held : hub.mailboxes.get? name = some box) :
    ({ hub with mailboxes := hub.mailboxes.modify name change } : Hub).inbox =
      Function.update hub.inbox id (change box).events := by
  funext other
  have same (another : NodeId) :
      ({ hub with mailboxes := hub.mailboxes.modify name change } : Hub).mailboxOf? another =
        hub.mailboxOf? another := rfl
  by_cases here : other = id
  · subst here
    rw [Function.update_self, inbox_eq ((same other).trans owned)]
    unfold eventsIn
    rw [Table.get?_modify, if_pos rfl, held]
    rfl
  · rw [Function.update_of_ne here]
    cases known : hub.mailboxOf? other with
    | none =>
        unfold inbox
        rw [(same other).trans known, known]
    | some name' =>
        have apart : name' ≠ name := by
          rintro rfl
          exact here (posted.own other id _ known owned)
        rw [inbox_eq ((same other).trans known), inbox_eq known]
        unfold eventsIn
        rw [Table.get?_modify, if_neg apart]

theorem deliver (posted : hub.Posted) : (hub.deliver id event).Posted := by
  cases known : hub.mailboxOf? id with
  | none =>
      rw [deliver_of_unknown known]
      exact posted
  | some name =>
      rw [deliver_eq known]
      refine posted.modify fun box => ?_
      unfold Mailbox.put
      split <;> rfl

/-- What is delivered to a node waits behind everything else. -/
theorem inbox_deliver
    (posted : hub.Posted)
    (known : (hub.mailboxOf? id).isSome) :
    (hub.deliver id event).inbox = Function.update hub.inbox id (hub.inbox id ++ [event]) := by
  obtain ⟨name, owned⟩ := Option.isSome_iff_exists.mp known
  obtain ⟨box, held, receiving⟩ := posted.read id name owned
  have waiting : hub.inbox id = box.events := by
    rw [inbox_eq owned]
    unfold eventsIn
    rw [held]
  have behind : (box.put event).events = box.events ++ [event] := by
    unfold Mailbox.put
    rw [if_pos receiving]
  rw [deliver_eq owned, posted.inbox_modify owned held, behind, waiting]

theorem takeEvent (posted : hub.Posted) : (hub.takeEvent name).2.Posted :=
  posted.modify fun _ => rfl

/-- A node takes the event that has waited longest. -/
theorem inbox_takeEvent
    (posted : hub.Posted)
    (owned : hub.mailboxOf? id = some name)
    (taken : (hub.takeEvent name).1 = some event) :
    ∃ rest, hub.inbox id = event :: rest ∧
      (hub.takeEvent name).2.inbox = Function.update hub.inbox id rest := by
  obtain ⟨box, held, _⟩ := posted.read id name owned
  have waiting : hub.inbox id = box.events := by
    rw [inbox_eq owned]
    unfold eventsIn
    rw [held]
  have oldest : box.events.head? = some event := by
    rw [← waiting, inbox_eq owned]
    exact taken
  obtain ⟨rest, events⟩ := List.head?_eq_some_iff.mp oldest
  refine ⟨rest, waiting.trans events, ?_⟩
  have left : (Mailbox.dropOldest box).events = rest := by
    unfold Mailbox.dropOldest
    rw [events]
    rfl
  rw [← left]
  exact posted.inbox_modify owned held

/-! ### Making a node known -/

variable {other : NodeId}

theorem mailboxOf?_register :
    (hub.register id).2.mailboxOf? other =
      if other = id then some (hub.register id).1 else hub.mailboxOf? other := by
  unfold mailboxOf? register
  dsimp only
  rw [Table.get?_insert]
  split <;> rfl

/-- A new mailbox has a new name. -/
theorem register (posted : hub.Posted) : (hub.register id).2.Posted where
  read := by
    intro another name owned
    rw [mailboxOf?_register] at owned
    unfold Hub.register
    rw [Table.get?_insert]
    split at owned
    · cases owned
      exact ⟨{}, if_pos rfl, rfl⟩
    · obtain ⟨box, held, receiving⟩ := posted.read another name owned
      refine ⟨box, ?_, receiving⟩
      rw [if_neg]
      · exact held
      · rintro rfl
        exact Nat.lt_irrefl _ (posted.issued _ box held)
  own := by
    have apart {another : NodeId} (owned : hub.mailboxOf? another = some (hub.register id).1) :
        False := by
      obtain ⟨box, held, _⟩ := posted.read another _ owned
      exact Nat.lt_irrefl _ (posted.issued _ box held)
    intro left right name owned owned'
    rw [mailboxOf?_register] at owned owned'
    split at owned
    · next same =>
      split at owned'
      · next same' => rw [same, same']
      · cases owned
        exact (apart owned').elim
    · split at owned'
      · cases owned'
        exact (apart owned).elim
      · exact posted.own left right name owned owned'
  issued := by
    intro name box held
    unfold Hub.register at held
    rw [Table.get?_insert] at held
    split at held
    · next same =>
      rw [same]
      exact Nat.lt_succ_self _
    · exact Nat.lt_succ_of_lt (posted.issued name box held)

/-- Nothing waits in a new mailbox, and the others are not touched. -/
theorem inbox_register (posted : hub.Posted) :
    (hub.register id).2.inbox = Function.update hub.inbox id [] := by
  funext other
  by_cases here : other = id
  · subst here
    rw [Function.update_self, inbox_eq (mailboxOf?_register.trans (if_pos rfl))]
    unfold eventsIn Hub.register
    rw [Table.get?_insert_self]
  · rw [Function.update_of_ne here]
    have kept : (hub.register id).2.mailboxOf? other = hub.mailboxOf? other :=
      mailboxOf?_register.trans (if_neg here)
    cases known : hub.mailboxOf? other with
    | none =>
        unfold inbox
        rw [kept, known]
    | some name =>
        obtain ⟨box, held, _⟩ := posted.read other name known
        rw [inbox_eq (kept.trans known), inbox_eq known]
        unfold eventsIn Hub.register
        rw [Table.get?_insert, if_neg]
        rintro rfl
        exact Nat.lt_irrefl _ (posted.issued _ box held)

/-- A hub is posted whatever else there is on it. -/
theorem of_eq
    {hub' : Hub}
    (posted : hub.Posted)
    (known : ∀ id, hub'.mailboxOf? id = hub.mailboxOf? id)
    (mailboxes : hub'.mailboxes = hub.mailboxes)
    (issued : hub.issued ≤ hub'.issued) :
    hub'.Posted where
  read := by
    intro id name owned
    rw [mailboxes]
    exact posted.read id name ((known id).symm.trans owned)
  own := fun id other name owned owned' =>
    posted.own id other name ((known id).symm.trans owned) ((known other).symm.trans owned')
  issued := by
    intro name box held
    rw [mailboxes] at held
    exact Nat.lt_of_lt_of_le (posted.issued name box held) issued

end Posted

theorem inbox_congr
    {hub' : Hub}
    (known : ∀ id, hub'.mailboxOf? id = hub.mailboxOf? id)
    (mailboxes : hub'.mailboxes = hub.mailboxes) :
    hub'.inbox = hub.inbox := by
  funext id
  unfold inbox eventsIn
  rw [known, mailboxes]

/-- A queue is no mailbox. -/
theorem openQueue_eq_ok
    {hub' : Hub}
    {queue : QueueId}
    {capacity : Nat}
    (opened : hub.openQueue capacity = .ok (queue, hub')) :
    ∃ queues, hub' = { hub with queues, issued := hub.issued + 1 } := by
  obtain ⟨_, _, made⟩ := bind_eq_ok_iff.mp opened
  exact ⟨_, (Prod.mk.inj (Except.ok.inj made)).2.symm⟩

theorem mailboxOf?_attach {queue : QueueId} {other : NodeId} :
    (hub.attach id queue).mailboxOf? other = hub.mailboxOf? other := by
  unfold mailboxOf? attach
  rw [Table.get?_modify]
  split
  · next same =>
    subst same
    rw [Option.map_map]
    rfl
  · rfl

section Wired

/-! ### A node that is made known -/

variable {hub' : Hub} {queue : QueueId} {capacity : Nat} {other : NodeId}

/-- The node reads a new mailbox. -/
theorem mailboxOf?_wired (opened : (hub.register id).2.openQueue capacity = .ok (queue, hub')) :
    (hub'.attach id queue).mailboxOf? other =
      if other = id then some (hub.register id).1 else hub.mailboxOf? other := by
  obtain ⟨queues, rfl⟩ := openQueue_eq_ok opened
  exact mailboxOf?_attach.trans Posted.mailboxOf?_register

theorem links_wired (opened : (hub.register id).2.openQueue capacity = .ok (queue, hub')) :
    (hub'.attach id queue).links = hub.links := by
  obtain ⟨queues, rfl⟩ := openQueue_eq_ok opened
  rfl

theorem issued_wired (opened : (hub.register id).2.openQueue capacity = .ok (queue, hub')) :
    (hub'.attach id queue).issued = hub.issued + 2 := by
  obtain ⟨queues, rfl⟩ := openQueue_eq_ok opened
  rfl

/-- It is known by its new mailbox and its new queue. -/
theorem get?_endpoints_wired
    (opened : (hub.register id).2.openQueue capacity = .ok (queue, hub')) :
    (hub'.attach id queue).endpoints.get? id = some ⟨(hub.register id).1, some queue⟩ := by
  obtain ⟨queues, rfl⟩ := openQueue_eq_ok opened
  unfold attach register
  rw [Table.get?_modify, if_pos rfl, Table.get?_insert_self]
  rfl

/-- Nothing waits for it, as nothing did before. -/
theorem Posted.wired
    (posted : hub.Posted)
    (unknown : hub.mailboxOf? id = none)
    (opened : (hub.register id).2.openQueue capacity = .ok (queue, hub')) :
    (hub'.attach id queue).Posted ∧ (hub'.attach id queue).inbox = hub.inbox := by
  have empty : hub.inbox id = [] := by
    unfold inbox
    rw [unknown]
  obtain ⟨queues, rfl⟩ := openQueue_eq_ok opened
  refine ⟨posted.register.of_eq (fun _ => mailboxOf?_attach) rfl (Nat.le_succ _), ?_⟩
  refine ((inbox_congr (fun _ => mailboxOf?_attach) rfl).trans posted.inbox_register).trans ?_
  rw [← empty, Function.update_eq_self]

end Wired

end Quorum.Hub
