import Quorum.Proofs.Election.Conduct

/-!
# A cluster and its runs

An `Assembly` holds the members of a cluster and everything that was ever sent between them.  The
network may drop, delay, reorder and duplicate messages without bound, so the only thing it cannot
do is to deliver what was never sent: a member may meet any message addressed to it at any time, and
any number of times.  What surrounds a member, its clock, its timers and its drawn numbers, may be
anything at any step, and a handler may be stopped half way by a refused timer or a fault.

A `Chronicle` is a run of an assembly with all its states, the newest one first.
-/

namespace Quorum

/-- The configurations of a cluster: every member lists exactly the others. -/
structure Roster where
  ids : List NodeId
  configOf : NodeId → NodeConfig
  distinct : ids.Nodup
  named : ∀ id ∈ ids, (configOf id).id = id
  shared : ∀ id ∈ ids, (id :: (configOf id).peers.map Peer.id).Perm ids

namespace Roster

/-- The votes needed to win an election: more than half of the members. -/
def quorum (roster : Roster) : Nat := roster.ids.length / 2 + 1

/-- A registry of a member names only other members. -/
def Admits (roster : Roster) (actor : NodeId) (registry : Registry) : Prop :=
  ∀ entry ∈ registry.connected.entries, entry.1 ∈ roster.ids ∧ entry.1 ≠ actor

instance (roster : Roster) (actor : NodeId) (registry : Registry) :
    Decidable (roster.Admits actor registry) :=
  inferInstanceAs (Decidable (∀ entry ∈ registry.connected.entries, _ ∧ _))

theorem length_peers
    (roster : Roster)
    {id : NodeId}
    (enrolled : id ∈ roster.ids) :
    (roster.configOf id).peers.length + 1 = roster.ids.length := by
  simpa using (roster.shared id enrolled).length_eq

/-- Two lists of members that are both a quorum share a member. -/
theorem quorums_meet
    (roster : Roster)
    {left right : List NodeId}
    (leftDistinct : left.Nodup)
    (rightDistinct : right.Nodup)
    (leftEnrolled : left ⊆ roster.ids)
    (rightEnrolled : right ⊆ roster.ids)
    (leftEnough : roster.quorum ≤ left.length)
    (rightEnough : roster.quorum ≤ right.length) :
    ∃ id ∈ left, id ∈ right := by
  apply Classical.byContradiction
  intro apart
  have disjoint : ∀ id ∈ left, ∀ other ∈ right, id ≠ other := by
    rintro id inLeft other inRight rfl
    exact apart ⟨id, inLeft, inRight⟩
  have distinct : (left ++ right).Nodup :=
    List.nodup_append.mpr ⟨leftDistinct, rightDistinct, disjoint⟩
  have bounded : (left ++ right).length ≤ roster.ids.length :=
    distinct.length_le_of_subset (List.append_subset.mpr ⟨leftEnrolled, rightEnrolled⟩)
  rw [List.length_append] at bounded
  unfold quorum at leftEnough rightEnough
  omega

end Roster

/-- A message with the member that sent it and the member it is for. -/
structure Dispatch where
  sender : NodeId
  addressee : NodeId
  message : Message
  deriving DecidableEq, Repr

/-- What a wish of a member puts on the network.  A message goes to whoever the registry names on
the connection. -/
def Ask.dispatches (registry : Registry) (actor : NodeId) : Ask → List Dispatch
  | send conn message =>
      (registry.connected.entries.filter fun entry => entry.2 = conn).map fun entry =>
        ⟨actor, entry.1, message⟩
  | connect _ => []
  | close _ => []

/-- An answer goes back to whoever sent the request. -/
def Occasion.answerDispatch
    (actor : NodeId)
    (answer : Except Failure (Option Response)) : Occasion → List Dispatch
  | .request asker _ =>
      match answer with
      | .ok (some told) => [⟨actor, asker, .response told⟩]
      | _ => []
  | _ => []

/-- The members of a cluster and everything ever sent between them. -/
structure Assembly where
  members : NodeId → Member
  sent : List Dispatch

namespace Assembly

/-- What can happen to a member.  Messages have to have been sent to it; anything else can happen
at any time, and so can heartbeats, which do not concern the election. -/
def Allows (assembly : Assembly) (actor : NodeId) : Occasion → Prop
  | .request _ (.heartbeat _) => True
  | .request sender request => ⟨sender, actor, .request request⟩ ∈ assembly.sent
  | .response _ .heartbeat => True
  | .response sender response => ⟨sender, actor, .response response⟩ ∈ assembly.sent
  | _ => True

instance (assembly : Assembly) (actor : NodeId) :
    (occasion : Occasion) → Decidable (assembly.Allows actor occasion)
  | .request _ (.heartbeat _) => isTrue trivial
  | .request _ (.vote _ _ _) => inferInstanceAs (Decidable (_ ∈ assembly.sent))
  | .request _ (.leaderHeartbeat _ _) => inferInstanceAs (Decidable (_ ∈ assembly.sent))
  | .response _ .heartbeat => isTrue trivial
  | .response _ (.vote _ _) => inferInstanceAs (Decidable (_ ∈ assembly.sent))
  | .response _ (.leaderHeartbeat _ _) => inferInstanceAs (Decidable (_ ∈ assembly.sent))
  | .start | .timer _ | .peerConnected _ | .peerDisconnected => isTrue trivial
  | .beginSync | .endSync | .recordLog _ _ => isTrue trivial

/-- The answer of a member to an occasion, and its stage afterwards. -/
def outcome
    (assembly : Assembly)
    (actor : NodeId)
    (occasion : Occasion)
    (registry : Registry)
    (outside : Outside) : Except Failure (Option Response) × Stage Member :=
  (occasion.handler registry).perform ⟨assembly.members actor, outside⟩

/-- The assembly after a member has acted. -/
def after
    (assembly : Assembly)
    (actor : NodeId)
    (occasion : Occasion)
    (registry : Registry)
    (outside : Outside) : Assembly :=
  let (answer, stage) := assembly.outcome actor occasion registry outside
  { members := fun id => if id = actor then stage.own else assembly.members id
    sent := assembly.sent ++
      stage.outside.asked.flatMap (fun entry => entry.2.dispatches registry actor) ++
      occasion.answerDispatch actor answer }

/-- All members are as they were made, and nothing has been sent. -/
structure Begins (roster : Roster) (assembly : Assembly) : Prop where
  members : ∀ id ∈ roster.ids, ∃ clockMs,
    assembly.members id = Member.ofConfig (roster.configOf id) clockMs
  sent : assembly.sent = []

/-- One member acts.  Everything it asked of the transport before has been passed on. -/
inductive Step (roster : Roster) : Assembly → Assembly → Prop where
  | act
      {assembly : Assembly} {actor : NodeId} {occasion : Occasion} {registry : Registry}
      {outside : Outside}
      (enrolled : actor ∈ roster.ids)
      (allowed : assembly.Allows actor occasion)
      (admitted : roster.Admits actor registry)
      (passedOn : outside.asked = []) :
      Step roster assembly (assembly.after actor occasion registry outside)

/-- A member is the leader of a term. -/
def Leads (assembly : Assembly) (id : NodeId) (term : Nat) : Prop :=
  (assembly.members id).role = .leader ∧ (assembly.members id).ledger.currentTerm = term

instance (assembly : Assembly) (id : NodeId) (term : Nat) : Decidable (assembly.Leads id term) :=
  inferInstanceAs (Decidable (_ ∧ _))

end Assembly

/-- The states of a run, the newest one first. -/
inductive Chronicle (roster : Roster) : List Assembly → Prop where
  | begun
      {assembly : Assembly}
      (begins : assembly.Begins roster) :
      Chronicle roster [assembly]
  | step
      {now next : Assembly} {past : List Assembly}
      (run : Chronicle roster (now :: past))
      (step : Assembly.Step roster now next) :
      Chronicle roster (next :: now :: past)

namespace Assembly

/-- What a step comes to.  A member takes a turn; no other member changes; and what is sent anew is
either said in that turn to another member, or the answer of it. -/
structure Acts
    (roster : Roster)
    (now next : Assembly)
    (actor : NodeId)
    (occasion : Occasion)
    (answer : Except Failure (Option Response))
    (said : List Request) : Prop where
  enrolled : actor ∈ roster.ids
  allowed : now.Allows actor occasion
  turn : Turn occasion (now.members actor).seat answer said (next.members actor).seat
  others : ∀ id, id ≠ actor → next.members id = now.members id
  keeps : now.sent ⊆ next.sent
  adds : ∀ dispatch ∈ next.sent, dispatch ∈ now.sent ∨
    (∃ peer ∈ roster.ids, peer ≠ actor ∧ ∃ request ∈ said,
      dispatch = ⟨actor, peer, .request request⟩) ∨
    ∃ asker request response, occasion = .request asker request ∧ answer = .ok (some response) ∧
      dispatch = ⟨actor, asker, .response response⟩

theorem mem_dispatches
    {roster : Roster}
    {registry : Registry}
    {actor : NodeId}
    {dispatch : Dispatch}
    {conn : ConnId}
    {request : Request}
    (admitted : roster.Admits actor registry)
    (sent : dispatch ∈ (Ask.send conn (.request request)).dispatches registry actor) :
    ∃ peer ∈ roster.ids, peer ≠ actor ∧ dispatch = ⟨actor, peer, .request request⟩ := by
  simp only [Ask.dispatches, List.mem_map, List.mem_filter] at sent
  obtain ⟨entry, ⟨listed, _⟩, rfl⟩ := sent
  obtain ⟨enrolled, other⟩ := admitted entry listed
  exact ⟨entry.1, enrolled, other, rfl⟩

theorem mem_answerDispatch
    {actor : NodeId}
    {occasion : Occasion}
    {answer : Except Failure (Option Response)}
    {dispatch : Dispatch}
    (sent : dispatch ∈ occasion.answerDispatch actor answer) :
    ∃ asker request response, occasion = .request asker request ∧ answer = .ok (some response) ∧
      dispatch = ⟨actor, asker, .response response⟩ := by
  unfold Occasion.answerDispatch at sent
  split at sent
  · next asker request =>
    split at sent
    · next response =>
      exact ⟨asker, request, response, rfl, rfl, List.mem_singleton.mp sent⟩
    · cases sent
  · cases sent

theorem Step.acts
    {roster : Roster}
    {now next : Assembly}
    (step : Step roster now next) :
    ∃ actor occasion answer said, Acts roster now next actor occasion answer said := by
  cases step with
  | @act actor occasion registry outside enrolled allowed admitted passedOn =>
    obtain ⟨said, turn, spoken⟩ := handler_turns registry occasion ⟨now.members actor, outside⟩
    refine ⟨actor, occasion, (now.outcome actor occasion registry outside).1, said, enrolled,
      allowed, ?_, ?_, ?_, ?_⟩
    · simpa [after, outcome] using turn
    · intro id other
      simp [after, other]
    · intro dispatch old
      exact List.mem_append_left _ (List.mem_append_left _ old)
    · intro dispatch sent
      simp only [after, List.mem_append, List.mem_flatMap] at sent
      rcases sent with (old | ⟨entry, asked, dispatched⟩) | answered
      · exact .inl old
      · rcases spoken entry asked with old | ⟨conn, request, voiced, same⟩
        · simp [passedOn] at old
        · rw [same] at dispatched
          obtain ⟨peer, listed, other, sent⟩ := mem_dispatches admitted dispatched
          exact .inr (.inl ⟨peer, listed, other, request, voiced, sent⟩)
      · exact .inr (.inr (mem_answerDispatch answered))

end Assembly

namespace Trio

/-! ### A cluster of three

Member `3` campaigns, is granted the vote of member `1`, and asserts its leadership to it. -/

/-- Three members, called `1`, `2` and `3`. -/
def roster : Roster where
  ids := ["1", "2", "3"]
  configOf id :=
    { id, peers := (["1", "2", "3"].filter fun other => other ≠ id).map fun other =>
        ⟨other, "", 0⟩ }
  distinct := by decide
  named := fun _ _ => rfl
  shared := by decide

/-- Nothing asked, and timers with little room that are still empty. -/
def calm : Outside where
  clockMs := 0
  timers :=
    { config := ⟨10000, 2, 2⟩, epochMs := 0
      tiers := ⟨⟨10000, [[], []], 0, 0⟩, ⟨20000, [[], []], 20000, 0⟩⟩
      fired := [], cancelled := {}, issued := 0, running := true, attended := true, intact := true }
  draws _ := 0

/-- The registry of a member that is connected to one other member. -/
def linkedTo (id : NodeId) (number : Nat) : Registry := ({} : Registry).bind id ⟨number⟩

def begun : Assembly := ⟨fun id => Member.ofConfig (roster.configOf id) 0, []⟩

def campaigned : Assembly := begun.after "3" (.timer .electionTimeout) (linkedTo "1" 0) calm

def granted : Assembly := campaigned.after "1" (.request "3" (.vote 1 0 0)) (linkedTo "3" 1) calm

def won : Assembly := granted.after "3" (.response "1" (.vote 1 true)) (linkedTo "1" 0) calm

def followed : Assembly :=
  won.after "1" (.request "3" (.leaderHeartbeat 1 "3")) (linkedTo "3" 1) calm

theorem chronicle : Chronicle roster [followed, won, granted, campaigned, begun] := by
  have begins : begun.Begins roster := ⟨fun id _ => ⟨0, rfl⟩, rfl⟩
  have campaigns : Assembly.Step roster begun campaigned :=
    .act (by decide) trivial (by decide) rfl
  have grants : Assembly.Step roster campaigned granted :=
    .act (by decide) (by decide) (by decide) rfl
  have wins : Assembly.Step roster granted won :=
    .act (by decide) (by decide) (by decide) rfl
  have follows : Assembly.Step roster won followed :=
    .act (by decide) (by decide) (by decide) rfl
  exact ((((Chronicle.begun begins).step campaigns).step grants).step wins).step follows

end Trio

end Quorum
