import Mathlib.Data.List.Induction
import Quorum.Proofs.Network.Traffic

/-!
# Connections are reliable

Whatever happens on a network, of a connection that has been made each end hears what is sent at the
other one, in order and once, except for what is sent while one of the two nodes is isolated.  It
hears nothing any more once one of the sides has closed the connection or has been removed, and it
hears of that only if it was the other side (`Traffic.reliable_link`).
-/

namespace Quorum.Traffic

/-- A new network on which all of this has happened, one thing after the other. -/
def network (past : List Traffic) : Ether := past.foldl perform {}

/-- Whether one thing has happened, and the other one not since. -/
def isOn (switch back : Traffic) (past : List Traffic) : Bool :=
  past.foldl
    (fun on traffic => if traffic = switch then true else if traffic = back then false else on)
    false

/-- Whether a node is registered, and has not been removed. -/
def isPresent (past : List Traffic) (id : NodeId) : Bool := isOn (register id) (remove id) past

/-- Whether a node is isolated, and has not been healed. -/
def isIsolated (past : List Traffic) (id : NodeId) : Bool := isOn (isolate id) (heal id) past

/-- A node is registered only if it is not yet, and whoever asks for something is registered. -/
def isAllowed (past : List Traffic) : Traffic → Bool
  | register id => !isPresent past id
  | asks id _ => isPresent past id
  | _ => true

/-- Whether everything that happens later, after all of the past, is allowed. -/
def isLawful (past : List Traffic) : List Traffic → Bool
  | [] => true
  | traffic :: later => traffic.isAllowed past && isLawful (past ++ [traffic]) later

/-- What is sent at the other side later, until the connection is taken down, without what is sent
while one of the two nodes is isolated. -/
def carried (here there : Side) (past : List Traffic) : List Traffic → List Message
  | [] => []
  | traffic :: later =>
      if traffic.cuts here || traffic.cuts there then []
      else traffic.carries here there (isIsolated past) ++
        carried here there (past ++ [traffic]) later

/-- The closing of the connection, if it has been taken down at the other side. -/
def closing (here there : Side) : List Traffic → List NetworkEvent
  | [] => []
  | traffic :: later =>
      if traffic.cuts here then []
      else if traffic.cuts there then [.closed here.conn]
      else closing here there later

variable
    {traffic switch back : Traffic}
    {past later : List Traffic}
    {id : NodeId}
    {conn : ConnId}
    {box home : MailboxId}
    {here there : Side}
    {news : List NetworkEvent}

/-! ## What holds of every network -/

theorem network_concat : network (past ++ [traffic]) = traffic.perform (network past) :=
  List.foldl_append

theorem hub_concat :
    (network (past ++ [traffic])).hub = traffic.change (network past).hub := by
  rw [network_concat]
  rfl

theorem heard_concat
    (told : traffic.heard (network past).hub conn box = (network past).hub.heard conn box ++ news) :
    (network (past ++ [traffic])).heard conn box = (network past).heard conn box ++ news := by
  rw [network_concat]
  exact heard_perform told

theorem heard_concat_of_eq
    (unheard : traffic.heard (network past).hub conn box = (network past).hub.heard conn box) :
    (network (past ++ [traffic])).heard conn box = (network past).heard conn box :=
  (heard_concat (unheard.trans (List.append_nil _).symm)).trans (List.append_nil _)

theorem isOn_concat :
    isOn switch back (past ++ [traffic]) =
      if traffic = switch then true else if traffic = back then false
      else isOn switch back past := by
  unfold isOn
  rw [List.foldl_append]
  rfl

/-- A node is known as long as it is registered. -/
theorem isPresent_eq (past : List Traffic) (id : NodeId) :
    isPresent past id = ((network past).hub.mailboxOf? id).isSome := by
  induction past using List.reverseRecOn with
  | nil => rfl
  | append_singleton past traffic ih =>
      unfold isPresent at ih ⊢
      rw [isOn_concat, hub_concat]
      by_cases registered : traffic = register id
      · subst registered
        rw [if_pos rfl]
        exact (congrArg Option.isSome (Hub.Posted.mailboxOf?_register.trans (if_pos rfl))).symm
      by_cases removed : traffic = remove id
      · subst removed
        rw [if_neg registered, if_pos rfl]
        exact (congrArg Option.isSome (Hub.mailboxOf?_remove.trans (if_pos rfl))).symm
      · rw [if_neg registered, if_neg removed, ih, mailboxOf?_change registered removed]

/-- The network drops the traffic of those who are isolated. -/
theorem isIsolated_eq (past : List Traffic) :
    isIsolated past = fun id => decide (id ∈ (network past).hub.isolated) := by
  funext id
  induction past using List.reverseRecOn with
  | nil => rfl
  | append_singleton past traffic ih =>
      unfold isIsolated at ih ⊢
      rw [isOn_concat, hub_concat]
      by_cases isolated : traffic = isolate id
      · subst isolated
        rw [if_pos rfl]
        exact (decide_eq_true List.mem_insert_self).symm
      by_cases healed : traffic = heal id
      · subst healed
        rw [if_neg isolated, if_pos rfl]
        refine (decide_eq_false fun listed => ?_).symm
        exact of_decide_eq_true (List.mem_filter.mp listed).2 rfl
      · rw [if_neg isolated, if_neg healed, ih]
        exact decide_eq_decide.mpr (mem_isolated_change isolated healed).symm

theorem coupled_network (past : List Traffic) : (network past).hub.Coupled := by
  induction past using List.reverseRecOn with
  | nil => exact .empty
  | append_singleton past traffic ih =>
      rw [hub_concat]
      exact coupled_change ih

/-- Nothing is heard about an end that has not been given out. -/
theorem heard_of_issued_le (new : (network past).hub.issued ≤ conn.number) :
    (network past).heard conn box = [] := by
  induction past using List.reverseRecOn with
  | nil => rfl
  | append_singleton past traffic ih =>
      rw [hub_concat] at new
      have new' := Nat.le_trans issued_le_change new
      have unlinked : (network past).hub.links.get? conn = none := by
        cases held : (network past).hub.links.get? conn with
        | none => rfl
        | some link =>
            exact (Nat.not_lt_of_le new' ((coupled_network past).given conn link held)).elim
      obtain ⟨_, unheard⟩ := unlinked_change (coupled_network past) unlinked (.inr new)
      exact (heard_concat_of_eq (unheard box)).trans (ih new')

/-- An end that is gone stays so, and nothing is heard about it any more. -/
theorem unlinked_network
    (given : conn.number < (network past).hub.issued)
    (unlinked : (network past).hub.links.get? conn = none)
    (later : List Traffic) :
    (network (past ++ later)).hub.links.get? conn = none ∧
      ∀ box, (network (past ++ later)).heard conn box = (network past).heard conn box := by
  induction later generalizing past with
  | nil =>
      rw [List.append_nil]
      exact ⟨unlinked, fun _ => rfl⟩
  | cons traffic later ih =>
      rw [List.append_cons]
      obtain ⟨unlinked', unheard⟩ := unlinked_change (coupled_network past) unlinked (.inl given)
      have given' : conn.number < (traffic.change (network past).hub).issued :=
        Nat.lt_of_lt_of_le given issued_le_change
      rw [← hub_concat] at unlinked' given'
      obtain ⟨gone, unheard'⟩ := ih given' unlinked'
      exact ⟨gone, fun box => (unheard' box).trans (heard_concat_of_eq (unheard box))⟩

theorem isLawful_append (past traffics later : List Traffic) :
    isLawful past (traffics ++ later) =
      (isLawful past traffics && isLawful (past ++ traffics) later) := by
  induction traffics generalizing past with
  | nil => rw [List.nil_append, List.append_nil, isLawful, Bool.true_and]
  | cons traffic traffics ih =>
      rw [List.cons_append, isLawful, ih, isLawful, Bool.and_assoc, List.append_assoc past,
        List.singleton_append]

/-! ## An open connection -/

theorem ite_addressed
    {hub : Hub}
    (addressed : hub.mailboxOf? id = some home) :
    (if hub.mailboxOf? id = some box then news else []) = if box = home then news else [] :=
  if_congr (by rw [addressed, Option.some_inj, eq_comm]) rfl rfl

/-- Just after it has been made, a connection is open, and the dialling node has been told. -/
theorem network_connect
    {dialler : NodeId}
    {peer : Peer}
    {name : QueueId}
    (accepted : (network past).hub.acceptorFor? dialler peer.id = some name)
    (addressed : (network past).hub.mailboxOf? dialler = some home) :
    let near := (network past).hub.nextNear dialler
    let far := (network past).hub.nextFar peer.id
    let ether := network (past ++ [asks dialler (.connect peer)])
    ether.hub.Linked near far ∧
      (∀ box, ether.heard near.conn box =
        if box = home then [.connected near.conn peer.id] else []) ∧
      ∀ box, ether.heard far.conn box = [] := by
  intro near far ether
  obtain ⟨linked, told, unheard⟩ := Hub.Linked.connect (coupled_network past).posted accepted
  have told' (box : MailboxId) :
      (asks dialler (.connect peer)).heard (network past).hub near.conn box = _ := told box
  have unheard' (box : MailboxId) :
      (asks dialler (.connect peer)).heard (network past).hub far.conn box = _ := unheard box
  refine ⟨?_, fun box => ?_, fun box => ?_⟩
  · rw [show ether.hub = _ from hub_concat]
    exact linked
  · rw [heard_concat (told' box), heard_of_issued_le (Nat.le_refl _), List.nil_append]
    exact ite_addressed addressed
  · rw [heard_concat_of_eq (unheard' box)]
    exact heard_of_issued_le (Nat.le_succ _)

/-- What is heard at an end of an open connection from now on. -/
theorem linked_network
    (linked : (network past).hub.Linked here there)
    (addressed : (network past).hub.mailboxOf? here.owner = some home)
    (lawful : isLawful past later = true) :
    (∀ link, (network (past ++ later)).hub.links.get? here.conn = some link →
        link.owner = here.owner) ∧
      ∀ box, (network (past ++ later)).heard here.conn box = (network past).heard here.conn box ++
        if box = home then
          (carried here there past later).map (.received here.conn) ++ closing here there later
        else [] := by
  induction later generalizing past with
  | nil =>
      rw [List.append_nil]
      refine ⟨fun link held => ?_, fun box => ?_⟩
      · rw [linked.near] at held
        cases held
        rfl
      · rw [carried, closing, List.map_nil, List.append_nil, ite_self, List.append_nil]
  | cons traffic later ih =>
      obtain ⟨allowed, lawful⟩ := Bool.and_eq_true_iff.mp lawful
      have coupled := coupled_network past
      have given : here.conn.number < (network (past ++ [traffic])).hub.issued := by
        rw [hub_concat]
        exact Nat.lt_of_lt_of_le (coupled.given _ _ linked.near) issued_le_change
      rw [List.append_cons, carried, closing]
      cases cut : traffic.cuts here with
      | true =>
          obtain ⟨unlinked, unheard⟩ := linked_change_cut_near linked coupled cut
          rw [← hub_concat] at unlinked
          obtain ⟨gone, unheard'⟩ := unlinked_network given unlinked later
          refine ⟨fun link held => ?_, fun box => ?_⟩
          · rw [gone] at held
            cases held
          · rw [Bool.true_or, if_pos rfl, if_pos rfl, List.map_nil, List.append_nil, ite_self,
              List.append_nil]
            exact (unheard' box).trans (heard_concat_of_eq (unheard box))
      | false =>
          rw [Bool.false_or, if_neg Bool.false_ne_true]
          cases cut' : traffic.cuts there with
          | true =>
              obtain ⟨unlinked, told⟩ := linked_change_cut_far linked coupled cut cut'
              rw [← hub_concat] at unlinked
              obtain ⟨gone, unheard⟩ := unlinked_network given unlinked later
              refine ⟨fun link held => ?_, fun box => ?_⟩
              · rw [gone] at held
                cases held
              · rw [if_pos rfl, if_pos rfl, List.map_nil, List.nil_append, unheard box,
                  heard_concat (told box), ite_addressed addressed]
          | false =>
              obtain ⟨linked', told⟩ := linked_change linked coupled cut cut'
              have addressed' : (traffic.change (network past).hub).mailboxOf? here.owner =
                  some home := by
                refine (mailboxOf?_change ?_ ?_).trans addressed
                · rintro rfl
                  rw [isAllowed, isPresent_eq, addressed] at allowed
                  cases allowed
                · rintro rfl
                  exact Bool.eq_false_iff.mp cut (cuts_iff.mpr (.inr rfl))
              rw [← hub_concat] at linked' addressed'
              obtain ⟨owned, told'⟩ := ih linked' addressed' lawful
              refine ⟨owned, fun box => (told' box).trans ?_⟩
              rw [heard_concat (told box), ite_addressed addressed, isIsolated_eq,
                List.append_assoc, if_neg Bool.false_ne_true, if_neg Bool.false_ne_true,
                List.map_append]
              split
              · rw [List.append_assoc]
              · rfl

/-- An end is of no use to anybody but its owner. -/
theorem useless_of_other
    {hub : Hub}
    {owner : NodeId}
    {message : Message}
    (owned : ∀ link, hub.links.get? conn = some link → link.owner = owner)
    (other : id ≠ owner) :
    hub.send id conn message = hub ∧ hub.close id conn = hub :=
  have foreign (link : Link) (held : hub.links.get? conn = some link) : link.owner ≠ id :=
    fun same => other (same.symm.trans (owned link held))
  ⟨Hub.send_of_other foreign, Hub.close_of_other foreign⟩

/-- Of a connection that has been made, whatever happens before and afterwards, each end hears what
is sent at the other one until the connection is taken down, and then that it has been closed, if it
was not its own side that did it; the dialling node hears of the connection before that.  Nobody
else hears anything about the two ends, and nobody else can use them. -/
theorem reliable_link
    {before later : List Traffic}
    {dialler : NodeId}
    {peer : Peer}
    (lawful : isLawful [] (before ++ asks dialler (.connect peer) :: later) = true)
    (accepted : ((network before).hub.acceptorFor? dialler peer.id).isSome = true) :
    let hub := (network before).hub
    let near := hub.nextNear dialler
    let far := hub.nextFar peer.id
    let past := before ++ [asks dialler (.connect peer)]
    let ether := network (past ++ later)
    ∃ home abroad, hub.mailboxOf? dialler = some home ∧ hub.mailboxOf? peer.id = some abroad ∧
      (∀ box, ether.heard near.conn box =
        if box = home then
          .connected near.conn peer.id ::
            ((carried near far past later).map (.received near.conn) ++ closing near far later)
        else []) ∧
      (∀ box, ether.heard far.conn box =
        if box = abroad then
          (carried far near past later).map (.received far.conn) ++ closing far near later
        else []) ∧
      (∀ id message, id ≠ dialler →
        ether.hub.send id near.conn message = ether.hub ∧
          ether.hub.close id near.conn = ether.hub) ∧
      ∀ id message, id ≠ peer.id →
        ether.hub.send id far.conn message = ether.hub ∧
          ether.hub.close id far.conn = ether.hub := by
  intro hub near far past ether
  rw [isLawful_append, isLawful] at lawful
  obtain ⟨_, lawful⟩ := Bool.and_eq_true_iff.mp lawful
  obtain ⟨calls, lawful⟩ := Bool.and_eq_true_iff.mp lawful
  rw [List.nil_append] at calls lawful
  obtain ⟨name, accepted⟩ := Option.isSome_iff_exists.mp accepted
  rw [isAllowed, isPresent_eq] at calls
  obtain ⟨home, dials⟩ := Option.isSome_iff_exists.mp calls
  obtain ⟨abroad, accepts⟩ :=
    Option.isSome_iff_exists.mp (Hub.isSome_mailboxOf?_of_accepted accepted)
  have known (id : NodeId) : (network past).hub.mailboxOf? id = hub.mailboxOf? id := by
    rw [show (network past).hub = _ from hub_concat]
    exact mailboxOf?_change nofun nofun
  obtain ⟨linked, begins, begins'⟩ := network_connect accepted dials
  obtain ⟨owned, heard⟩ := linked_network linked ((known dialler).trans dials) lawful
  obtain ⟨owned', heard'⟩ := linked_network linked.symm ((known peer.id).trans accepts) lawful
  refine ⟨home, abroad, dials, accepts, fun box => ?_, fun box => ?_, ?_, ?_⟩
  · refine ((heard box).trans (congrArg (· ++ _) (begins box))).trans ?_
    split
    · rfl
    · rfl
  · exact (heard' box).trans (congrArg (· ++ _) (begins' box))
  · exact fun id message other => useless_of_other owned other
  · exact fun id message other => useless_of_other owned' other

/-! ### A conversation that is interrupted

Node `a` connects to node `b`.  What is said while `b` is isolated is lost, and when `a` is removed
`b` is told that the connection has been closed. -/

def listening : List Traffic := [register "a", register "b", openQueue 4, attach "b" ⟨2⟩]

def called : Peer := ⟨"b", "", 0⟩

def conversation : List Traffic :=
  [asks "a" (.send ⟨3⟩ (.request (.vote 1 0 0))),
    isolate "b",
    asks "a" (.send ⟨3⟩ (.request (.vote 2 0 0))),
    asks "b" (.send ⟨4⟩ (.response (.vote 1 true))),
    heal "b",
    takeEvents ⟨1⟩,
    asks "b" (.send ⟨4⟩ (.response (.vote 2 true))),
    asks "a" (.send ⟨3⟩ (.request (.leaderHeartbeat 2 "a"))),
    remove "a",
    asks "b" (.send ⟨4⟩ (.response (.leaderHeartbeat 2 true)))]

theorem reliable_link_conversation :
    isLawful [] (listening ++ asks "a" (.connect called) :: conversation) = true ∧
      ((network listening).hub.acceptorFor? "a" called.id).isSome = true ∧
      let ether := network (listening ++ [asks "a" (.connect called)] ++ conversation)
      ether.heard ⟨3⟩ ⟨0⟩ =
        [.connected ⟨3⟩ "b", .received ⟨3⟩ (.response (.vote 2 true))] ∧
      ether.heard ⟨4⟩ ⟨1⟩ =
        [.received ⟨4⟩ (.request (.vote 1 0 0)),
          .received ⟨4⟩ (.request (.leaderHeartbeat 2 "a")), .closed ⟨4⟩] := by
  have lawful : isLawful [] (listening ++ asks "a" (.connect called) :: conversation) = true := by
    decide +kernel
  have accepted : ((network listening).hub.acceptorFor? "a" called.id).isSome = true := by
    decide +kernel
  obtain ⟨home, abroad, dials, accepts, near, far, _⟩ := reliable_link lawful accepted
  have first : (network listening).hub.mailboxOf? "a" = some ⟨0⟩ := by decide +kernel
  have second : (network listening).hub.mailboxOf? called.id = some ⟨1⟩ := by decide +kernel
  obtain rfl := Option.some.inj (first.symm.trans dials)
  obtain rfl := Option.some.inj (second.symm.trans accepts)
  refine ⟨lawful, accepted, (near _).trans ?_, (far _).trans ?_⟩
  · decide +kernel
  · decide +kernel

end Quorum.Traffic
