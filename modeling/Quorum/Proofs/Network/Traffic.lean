import Quorum.Proofs.Network.Ends

/-!
# The traffic on a network

Nodes are registered and removed, isolated and healed, they ask the transport for something, and
their mailboxes are read (`Traffic`).  Each of these leaves the ends paired (`coupled_change`).  As
for an open connection, it carries a message from one end to the other or does nothing
(`linked_change`), or else it takes the connection down, at this side (`linked_change_cut_near`) or
at the other one (`linked_change_cut_far`).  At an end that is not open nothing is heard
(`unlinked_change`).
-/

namespace Quorum

/-- What can happen on a network. -/
inductive Traffic where
  | register (id : NodeId)
  | openQueue (capacity : Nat)
  | attach (id : NodeId) (queue : QueueId)
  | isolate (id : NodeId)
  | heal (id : NodeId)
  | remove (id : NodeId)
  /-- A node asks the transport for something, which is carried out. -/
  | asks (id : NodeId) (ask : Ask)
  | takeEvent (box : MailboxId)
  | takeEvents (box : MailboxId)
  | takeHandedOff (queue : QueueId)
  | closeQueue (queue : QueueId)
  deriving DecidableEq

/-- A network, and what has been read from its mailboxes so far. -/
structure Ether where
  hub : Hub := {}
  read : MailboxId → List NetworkEvent := fun _ => []

/-- What has come into a mailbox so far about an end of a connection, oldest first. -/
def Ether.heard (ether : Ether) (conn : ConnId) (box : MailboxId) : List NetworkEvent :=
  (ether.read box ++ ether.hub.eventsIn box).filter fun event => event.isAbout conn

namespace Traffic

/-! ## What happens -/

/-- The network afterwards.  A queue of a capacity that is refused is not made. -/
def change (hub : Hub) : Traffic → Hub
  | register id => (hub.register id).2
  | openQueue capacity =>
      match hub.openQueue capacity with
      | .ok (_, made) => made
      | .error _ => hub
  | attach id queue => hub.attach id queue
  | isolate id => hub.isolate id
  | heal id => hub.heal id
  | remove id => hub.remove id
  | asks id ask => hub.carryOut id ask
  | takeEvent box => (hub.takeEvent box).2
  | takeEvents box => (hub.takeEvents box).2
  | takeHandedOff queue => (hub.takeHandedOff queue).2
  | closeQueue queue => hub.closeQueue queue

/-- What is read from a mailbox. -/
def taken (hub : Hub) (box : MailboxId) : Traffic → List NetworkEvent
  | takeEvent other => if other = box then (hub.takeEvent other).1.toList else []
  | takeEvents other => if other = box then (hub.takeEvents other).1 else []
  | _ => []

def perform (ether : Ether) (traffic : Traffic) : Ether where
  hub := traffic.change ether.hub
  read := fun box => ether.read box ++ traffic.taken ether.hub box

/-- Whether a connection is taken down at one of its sides: the owner of the end closes it, or is
removed. -/
def cuts (side : Side) (traffic : Traffic) : Bool :=
  decide (traffic = asks side.owner (.close side.conn)) || decide (traffic = remove side.owner)

/-- What is sent at the other side of a connection, unless one of the two nodes is isolated. -/
def carries (here there : Side) (isolated : NodeId → Bool) : Traffic → List Message
  | asks id (.send conn message) =>
      if (id = there.owner ∧ conn = there.conn) ∧
          isolated there.owner = false ∧ isolated here.owner = false then
        [message]
      else
        []
  | _ => []

/-! ## One step -/

variable
    {hub : Hub}
    {ether : Ether}
    {traffic : Traffic}
    {id : NodeId}
    {conn : ConnId}
    {box : MailboxId}
    {here there : Side}
    {news : List NetworkEvent}

/-- What is read from a mailbox about an end, and what waits there about it afterwards. -/
def heard (hub : Hub) (conn : ConnId) (box : MailboxId) (traffic : Traffic) : List NetworkEvent :=
  (traffic.taken hub box ++ (traffic.change hub).eventsIn box).filter fun event =>
    event.isAbout conn

theorem heard_perform (told : traffic.heard ether.hub conn box = ether.hub.heard conn box ++ news) :
    (traffic.perform ether).heard conn box = ether.heard conn box ++ news := by
  unfold heard at told
  unfold Ether.heard perform
  rw [List.append_assoc, List.filter_append, told, List.filter_append, List.append_assoc]
  rfl

/-- Whether no end is closed, and nothing is sent. -/
def isQuiet : Traffic → Bool
  | remove _ | asks _ (.send ..) | asks _ (.close _) => false
  | _ => true

theorem kinds (traffic : Traffic) :
    traffic.isQuiet = true ∨ (∃ id, traffic = remove id) ∨
      (∃ id conn message, traffic = asks id (.send conn message)) ∨
      ∃ id conn, traffic = asks id (.close conn) := by
  cases traffic with
  | remove id => exact .inr (.inl ⟨id, rfl⟩)
  | asks id ask =>
      cases ask with
      | send conn message => exact .inr (.inr (.inl ⟨id, conn, message, rfl⟩))
      | close conn => exact .inr (.inr (.inr ⟨id, conn, rfl⟩))
      | connect peer => exact .inl rfl
  | _ => exact .inl rfl

/-! ### Things that leave the connections alone -/

/-- What is taken out of a mailbox, and what is left there, is what was there. -/
theorem taken_append
    {other : MailboxId}
    (reading : List NetworkEvent → List NetworkEvent)
    (left : Mailbox → Mailbox)
    (whole : ∀ mailbox, reading mailbox.events ++ (left mailbox).events = mailbox.events)
    (nothing : reading [] = []) :
    (if other = box then reading (hub.eventsIn other) else []) ++
        ({ hub with mailboxes := hub.mailboxes.modify other left } : Hub).eventsIn box =
      hub.eventsIn box := by
  unfold Hub.eventsIn
  rw [Table.get?_modify]
  by_cases here : other = box
  · subst here
    rw [if_pos rfl, if_pos rfl]
    cases hub.mailboxes.get? other with
    | none => exact congrArg (· ++ []) nothing
    | some mailbox => exact whole mailbox
  · rw [if_neg here, if_neg (Ne.symm here), List.nil_append]

theorem head?_append_drop (events : List NetworkEvent) :
    events.head?.toList ++ events.drop 1 = events := by
  cases events with
  | nil => rfl
  | cons _ _ => rfl

theorem change_openQueue (hub : Hub) (capacity : Nat) :
    ∃ queues issued, hub.issued ≤ issued ∧
      (openQueue capacity).change hub = { hub with queues, issued } := by
  unfold change
  dsimp only
  cases opened : hub.openQueue capacity with
  | error _ => exact ⟨_, _, Nat.le_refl _, rfl⟩
  | ok made =>
      obtain ⟨queues, same⟩ := Hub.openQueue_eq_ok opened
      exact ⟨queues, _, Nat.le_succ _, same⟩

theorem quiet_settled
    (posted : hub.Posted)
    (quiet : traffic.isQuiet = true)
    (settled : conn.number < hub.issued ∨ (traffic.change hub).issued ≤ conn.number) :
    (traffic.change hub).links.get? conn = hub.links.get? conn ∧
      ∀ box, traffic.heard hub conn box = hub.heard conn box := by
  cases traffic with
  | register id => exact ⟨rfl, fun box => congrArg _ posted.eventsIn_register⟩
  | openQueue capacity =>
      obtain ⟨queues, issued, _, made⟩ := change_openQueue hub capacity
      unfold heard
      rw [made]
      exact ⟨rfl, fun _ => rfl⟩
  | asks id ask =>
      cases ask with
      | connect peer =>
          obtain ⟨links, mailboxes, queues, made⟩ := hub.connect_eq_with id peer.id
          have issued : (hub.connect id peer.id).issued = hub.issued + 2 := congrArg Hub.issued made
          exact posted.connect_settled (issued ▸ settled)
      | send | close => cases quiet
  | takeEvent other =>
      refine ⟨rfl, fun box => ?_⟩
      have whole : (takeEvent other).taken hub box ++ (hub.takeEvent other).2.eventsIn box =
          hub.eventsIn box :=
        taken_append (fun events => events.head?.toList) Mailbox.dropOldest
          (fun mailbox => head?_append_drop mailbox.events) rfl
      exact congrArg _ whole
  | takeEvents other =>
      refine ⟨rfl, fun box => ?_⟩
      have whole : (takeEvents other).taken hub box ++ (hub.takeEvents other).2.eventsIn box =
          hub.eventsIn box :=
        taken_append id Mailbox.emptied (fun _ => List.append_nil _) rfl
      exact congrArg _ whole
  | remove => cases quiet
  | attach | isolate | heal | takeHandedOff | closeQueue => exact ⟨rfl, fun _ => rfl⟩

/-! ### Every step -/

theorem coupled_change (coupled : hub.Coupled) : (traffic.change hub).Coupled := by
  have posted := coupled.posted
  cases traffic with
  | register id => exact coupled.of_eq posted.register rfl (Nat.le_succ _)
  | openQueue capacity =>
      obtain ⟨queues, issued, later, made⟩ := change_openQueue hub capacity
      rw [made]
      exact coupled.of_eq (posted.of_eq (fun _ => rfl) rfl later) rfl later
  | attach id queue =>
      exact coupled.of_eq (posted.of_eq (fun _ => Hub.mailboxOf?_attach) rfl (Nat.le_refl _)) rfl
        (Nat.le_refl _)
  | remove id => exact coupled.remove
  | asks id ask =>
      cases ask with
      | send conn message => exact coupled.send
      | connect peer => exact coupled.connect
      | close conn => exact coupled.close
  | takeEvent box => exact coupled.of_eq posted.takeEvent rfl (Nat.le_refl _)
  | takeEvents box => exact coupled.of_eq (posted.modify fun _ => rfl) rfl (Nat.le_refl _)
  | isolate | heal | takeHandedOff | closeQueue =>
      exact coupled.of_eq (posted.of_eq (fun _ => rfl) rfl (Nat.le_refl _)) rfl (Nat.le_refl _)

theorem issued_le_change : hub.issued ≤ (traffic.change hub).issued := by
  cases traffic with
  | register => exact Nat.le_succ _
  | openQueue capacity =>
      obtain ⟨_, _, later, made⟩ := change_openQueue hub capacity
      rw [made]
      exact later
  | remove id =>
      obtain ⟨_, _, removed⟩ := hub.remove_eq_with id
      exact Nat.le_of_eq (congrArg Hub.issued removed).symm
  | asks id ask =>
      obtain ⟨_, _, _, _, later, served⟩ := hub.carryOut_eq_with id ask
      exact Nat.le_trans later (Nat.le_of_eq (congrArg Hub.issued served).symm)
  | attach | takeEvent | takeEvents | isolate | heal | takeHandedOff | closeQueue =>
      exact Nat.le_refl _

/-- Nobody becomes known, and nobody is forgotten, in another way. -/
theorem mailboxOf?_change (other : traffic ≠ register id) (other' : traffic ≠ remove id) :
    (traffic.change hub).mailboxOf? id = hub.mailboxOf? id := by
  cases traffic with
  | register actor =>
      refine Hub.Posted.mailboxOf?_register.trans (if_neg ?_)
      rintro rfl
      exact other rfl
  | openQueue capacity =>
      obtain ⟨_, _, _, made⟩ := change_openQueue hub capacity
      rw [made]
      rfl
  | attach => exact Hub.mailboxOf?_attach
  | remove actor =>
      refine Hub.mailboxOf?_remove.trans (if_neg ?_)
      rintro rfl
      exact other' rfl
  | asks => exact Hub.mailboxOf?_carryOut
  | takeEvent | takeEvents | isolate | heal | takeHandedOff | closeQueue => rfl

/-- Nobody is isolated or healed in another way. -/
theorem mem_isolated_change (other : traffic ≠ isolate id) (other' : traffic ≠ heal id) :
    id ∈ (traffic.change hub).isolated ↔ id ∈ hub.isolated := by
  cases traffic with
  | isolate actor =>
      refine List.mem_insert_iff.trans (or_iff_right ?_)
      rintro rfl
      exact other rfl
  | heal actor =>
      refine List.mem_filter.trans (and_iff_left (decide_eq_true ?_))
      rintro rfl
      exact other' rfl
  | openQueue capacity =>
      obtain ⟨_, _, _, made⟩ := change_openQueue hub capacity
      rw [made]
  | remove actor =>
      obtain ⟨_, _, removed⟩ := hub.remove_eq_with actor
      have kept : (hub.remove actor).isolated = hub.isolated := by
        rw [removed]
        rfl
      exact Iff.of_eq (congrArg (id ∈ ·) kept)
  | asks actor ask =>
      obtain ⟨_, _, _, _, _, served⟩ := hub.carryOut_eq_with actor ask
      have kept : (hub.carryOut actor ask).isolated = hub.isolated := by rw [served]
      exact Iff.of_eq (congrArg (id ∈ ·) kept)
  | register | attach | takeEvent | takeEvents | takeHandedOff | closeQueue => exact Iff.rfl

/-- An end that is not open does not hear anything. -/
theorem unlinked_change
    (coupled : hub.Coupled)
    (unlinked : hub.links.get? conn = none)
    (settled : conn.number < hub.issued ∨ (traffic.change hub).issued ≤ conn.number) :
    (traffic.change hub).links.get? conn = none ∧
      ∀ box, traffic.heard hub conn box = hub.heard conn box := by
  rcases traffic.kinds with quiet | ⟨id, rfl⟩ | ⟨id, other, message, rfl⟩ | ⟨id, other, rfl⟩
  · obtain ⟨same, unheard⟩ := quiet_settled coupled.posted quiet settled
    exact ⟨same.trans unlinked, unheard⟩
  · exact coupled.remove_unlinked unlinked
  · refine ⟨(congrArg (Table.get? · conn) (Hub.links_send)).trans unlinked, fun box => ?_⟩
    exact Hub.heard_send_of_unlinked coupled.posted unlinked
  · exact coupled.close_unlinked unlinked

/-! ### A step on an open connection -/

theorem cuts_iff {side : Side} :
    traffic.cuts side = true ↔
      traffic = asks side.owner (.close side.conn) ∨ traffic = remove side.owner := by
  unfold cuts
  rw [Bool.or_eq_true, decide_eq_true_iff, decide_eq_true_iff]

theorem carries_of_other
    {isolated : NodeId → Bool}
    (other : ∀ message, traffic ≠ asks there.owner (.send there.conn message)) :
    traffic.carries here there isolated = [] := by
  unfold carries
  split
  · next message =>
    refine if_neg ?_
    rintro ⟨⟨rfl, rfl⟩, _⟩
    exact other message rfl
  · rfl

theorem carries_send {message : Message} :
    (asks there.owner (.send there.conn message)).carries here there
        (fun id => decide (id ∈ hub.isolated)) =
      if hub.passes there.owner here.owner then [message] else [] := by
  unfold carries Hub.passes
  simp only [true_and, and_true, decide_eq_false_iff_not, Bool.and_eq_true, decide_eq_true_eq]

/-- As long as nobody takes it down, a connection is open, and nothing is heard at one end but what
is sent at the other. -/
theorem linked_change_of_other
    (linked : hub.Linked here there)
    (coupled : hub.Coupled)
    (whole : traffic.cuts here = false)
    (whole' : traffic.cuts there = false)
    (other : ∀ message, traffic ≠ asks there.owner (.send there.conn message)) :
    (traffic.change hub).Linked here there ∧
      ∀ box, traffic.heard hub here.conn box = hub.heard here.conn box := by
  obtain ⟨unclosed, kept⟩ := not_or.mp (cuts_iff.not.mp (Bool.eq_false_iff.mp whole))
  obtain ⟨unclosed', kept'⟩ := not_or.mp (cuts_iff.not.mp (Bool.eq_false_iff.mp whole'))
  rcases traffic.kinds with quiet | ⟨id, rfl⟩ | ⟨id, conn, message, rfl⟩ | ⟨id, conn, rfl⟩
  · have settled := coupled.given _ _ linked.near
    have settled' := coupled.given _ _ linked.far
    obtain ⟨same, unheard⟩ := quiet_settled coupled.posted quiet (.inl settled)
    obtain ⟨same', _⟩ := quiet_settled coupled.posted quiet (.inl settled')
    exact ⟨⟨same.trans linked.near, same'.trans linked.far⟩, unheard⟩
  · refine linked.remove_of_ne coupled ?_ ?_
    · rintro rfl
      exact kept rfl
    · rintro rfl
      exact kept' rfl
  · have links : (hub.send id conn message).links = hub.links := Hub.links_send
    refine ⟨linked.of_eq links, fun box => linked.heard_send_of_other coupled ?_⟩
    rintro ⟨rfl, rfl⟩
    exact other message rfl
  · refine linked.close_of_other coupled ?_ ?_
    · rintro ⟨rfl, rfl⟩
      exact unclosed rfl
    · rintro ⟨rfl, rfl⟩
      exact unclosed' rfl

/-- What is sent at the other end is heard, unless it is blocked. -/
theorem linked_change
    (linked : hub.Linked here there)
    (coupled : hub.Coupled)
    (whole : traffic.cuts here = false)
    (whole' : traffic.cuts there = false) :
    (traffic.change hub).Linked here there ∧
      ∀ box, traffic.heard hub here.conn box = hub.heard here.conn box ++
        if hub.mailboxOf? here.owner = some box then
          (traffic.carries here there fun id => decide (id ∈ hub.isolated)).map
            (.received here.conn)
        else [] := by
  by_cases sent : ∃ message, traffic = asks there.owner (.send there.conn message)
  · obtain ⟨message, rfl⟩ := sent
    have links : (hub.send there.owner there.conn message).links = hub.links := Hub.links_send
    refine ⟨linked.of_eq links, fun box => ?_⟩
    rw [carries_send]
    cases passes : hub.passes there.owner here.owner with
    | true => exact linked.heard_send coupled.posted passes
    | false =>
        rw [if_neg Bool.false_ne_true, List.map_nil, ite_self, List.append_nil]
        exact congrArg (Hub.heard · here.conn box) (linked.send_of_blocked passes)
  · have other := not_exists.mp sent
    obtain ⟨linked', unheard⟩ := linked_change_of_other linked coupled whole whole' other
    refine ⟨linked', fun box => ?_⟩
    rw [carries_of_other other, List.map_nil, ite_self, List.append_nil]
    exact unheard box

/-- When this side takes the connection down, its owner hears nothing about it. -/
theorem linked_change_cut_near
    (linked : hub.Linked here there)
    (coupled : hub.Coupled)
    (cut : traffic.cuts here = true) :
    (traffic.change hub).links.get? here.conn = none ∧
      ∀ box, traffic.heard hub here.conn box = hub.heard here.conn box := by
  rcases cuts_iff.mp cut with rfl | rfl
  · have closed : hub.close here.owner here.conn = hub.hangUp here.conn :=
      Hub.close_of_owner linked.near
    show (hub.close here.owner here.conn).links.get? here.conn = none ∧
      ∀ box, (hub.close here.owner here.conn).heard here.conn box = hub.heard here.conn box
    rw [closed]
    exact linked.hangUp_near coupled
  · obtain ⟨unlinked, told⟩ := linked.remove_cut coupled (.inl rfl)
    refine ⟨unlinked, fun box => (told box).trans ?_⟩
    rw [Hub.mailboxOf?_forget, if_pos rfl, if_neg nofun, List.append_nil]

/-- When the other side takes the connection down, this one is told. -/
theorem linked_change_cut_far
    (linked : hub.Linked here there)
    (coupled : hub.Coupled)
    (whole : traffic.cuts here = false)
    (cut : traffic.cuts there = true) :
    (traffic.change hub).links.get? here.conn = none ∧
      ∀ box, traffic.heard hub here.conn box = hub.heard here.conn box ++
        if hub.mailboxOf? here.owner = some box then [.closed here.conn] else [] := by
  rcases cuts_iff.mp cut with rfl | rfl
  · have closed : hub.close there.owner there.conn = hub.hangUp there.conn :=
      Hub.close_of_owner linked.far
    show (hub.close there.owner there.conn).links.get? here.conn = none ∧
      ∀ box, (hub.close there.owner there.conn).heard here.conn box = _
    rw [closed]
    exact linked.hangUp_far coupled
  · have kept : here.owner ≠ there.owner := by
      intro same
      exact Bool.eq_false_iff.mp whole (cuts_iff.mpr (.inr (congrArg remove same).symm))
    obtain ⟨unlinked, told⟩ := linked.remove_cut coupled (.inr rfl)
    refine ⟨unlinked, fun box => (told box).trans ?_⟩
    rw [Hub.mailboxOf?_forget, if_neg kept]

end Traffic

end Quorum
