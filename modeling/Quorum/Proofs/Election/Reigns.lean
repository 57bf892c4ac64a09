import Quorum.Proofs.Election.Ballots

/-!
# Reigns

What a member believes about the leader of its term goes back to the leader itself.  A member notes
a leader when it takes over, or when the leader asserts itself; and an assertion, however long it
was on its way, was sent by a member that led the term it names.  Together with the uniqueness of
the leader this is `Chronicle.concord`: nobody ever meets two leaders of one term.
-/

namespace Quorum

open Act Member

/-! ## What a turn does to the known leader -/

namespace Turn

variable
    {occasion : Occasion}
    {seat after : Seat}
    {answer : Except Failure (Option Response)}
    {said : List Request}
    {term : Nat}
    {leader : NodeId}

/-- The leader a member knows was known before in the same term, or is the member itself, or has
just asserted itself. -/
theorem leaderId_known
    (turn : Turn occasion seat answer said after)
    (known : after.ledger.leaderId = some leader) :
    (seat.ledger.leaderId = some leader ∧
        after.ledger.currentTerm = seat.ledger.currentTerm) ∨
      (after.leads ∧ leader = seat.id) ∨
      ∃ sender, occasion = .request sender (.leaderHeartbeat after.ledger.currentTerm leader) := by
  cases turn with
  | unmoved => exact .inl ⟨known, rfl⟩
  | asserted => exact .inl ⟨known, rfl⟩
  | rested => exact .inl ⟨known, rfl⟩
  | abdicated => cases known
  | adopted _ _ newer =>
    rw [Ledger.advanceTerm_of_lt newer] at known
    cases known
  | granted _ newer =>
    rw [Ledger.advanceTerm_of_lt newer, Ledger.voteFor_of_free rfl] at known
    cases known
  | @accepted sender claimed _ _ term _ current =>
    obtain rfl := Option.some.inj known
    refine .inr (.inr ⟨sender, ?_⟩)
    have term' : (seat.ledger.advanceTerm term).currentTerm = term := by
      rcases Nat.lt_or_eq_of_le current with newer | same
      · rw [Ledger.advanceTerm_of_lt newer]
      · rw [Ledger.advanceTerm_of_le (Nat.le_of_eq same.symm), same]
    rw [Ledger.setLeader, term']
  | campaigned _ _ begun _ becomes =>
    obtain ⟨_, rfl⟩ := Ledger.nextTerm_eq_ok_iff.mp begun
    rw [becomes, Ledger.advanceTerm_of_lt (Nat.lt_succ_self _), Ledger.voteFor_of_free rfl] at known
    cases known
  | carried _ _ _ _ becomes =>
    subst becomes
    exact .inr (.inl ⟨rfl, (Option.some.inj known).symm⟩)
  | counted => exact .inl ⟨known, rfl⟩
  | won _ _ _ _ becomes =>
    subst becomes
    exact .inr (.inl ⟨rfl, (Option.some.inj known).symm⟩)
  | recorded =>
    refine .inl ?_
    revert known
    unfold Ledger.recordLog
    split <;> exact fun known => ⟨known, rfl⟩

/-- Only a leader asserts leadership, and it tells its own id and term. -/
theorem leads_of_asserts
    (turn : Turn occasion seat answer said after)
    (asserts : Request.leaderHeartbeat term leader ∈ said) :
    after.leads ∧ leader = after.id ∧ term = after.ledger.currentTerm := by
  cases turn with
  | asserted leads =>
    obtain ⟨rfl, rfl⟩ := Request.leaderHeartbeat.inj (List.mem_singleton.mp asserts)
    exact ⟨leads, rfl, rfl⟩
  | campaigned =>
    simp [Seat.campaign] at asserts
  | carried _ _ _ _ becomes =>
    subst becomes
    simp only [Seat.campaign, Seat.assertion, List.mem_cons, List.not_mem_nil, or_false,
      reduceCtorEq, false_or] at asserts
    obtain ⟨rfl, rfl⟩ := Request.leaderHeartbeat.inj asserts
    exact ⟨rfl, rfl, rfl⟩
  | won _ _ _ _ becomes =>
    subst becomes
    obtain ⟨rfl, rfl⟩ := Request.leaderHeartbeat.inj (List.mem_singleton.mp asserts)
    exact ⟨rfl, rfl, rfl⟩
  | _ => cases asserts

end Turn

/-! ## Leaders of a run -/

/-- At some moment of a run a member led a term. -/
def Reigned (history : List Assembly) (id : NodeId) (term : Nat) : Prop :=
  ∃ assembly ∈ history, assembly.Leads id term

theorem Reigned.cons
    {history : List Assembly}
    {id : NodeId}
    {term : Nat}
    (next : Assembly)
    (reigned : Reigned history id term) :
    Reigned (next :: history) id term := by
  obtain ⟨assembly, member, leads⟩ := reigned
  exact ⟨assembly, List.mem_cons_of_mem next member, leads⟩

/-- The step of a run in which a message was first sent, with the states before and after it. -/
def SentBetween
    (history : List Assembly)
    (dispatch : Dispatch)
    (before after : Assembly) : Prop :=
  (∃ newer older, history = newer ++ after :: before :: older) ∧
    dispatch ∉ before.sent ∧ dispatch ∈ after.sent

theorem SentBetween.cons
    {history : List Assembly}
    {dispatch : Dispatch}
    {before after : Assembly}
    (next : Assembly)
    (sent : SentBetween history dispatch before after) :
    SentBetween (next :: history) dispatch before after := by
  obtain ⟨⟨newer, older, rfl⟩, first⟩ := sent
  exact ⟨⟨next :: newer, older, rfl⟩, first⟩

theorem SentBetween.mem
    {history : List Assembly}
    {dispatch : Dispatch}
    {before after : Assembly}
    (sent : SentBetween history dispatch before after) :
    after ∈ history := by
  obtain ⟨⟨newer, older, rfl⟩, _⟩ := sent
  simp

/-- An assertion on its way is from the member it names to another one, and was sent while that
member led the term. -/
structure Honest
    (roster : Roster)
    (history : List Assembly)
    (sender addressee : NodeId)
    (term : Nat)
    (leader : NodeId) : Prop where
  signed : leader = sender
  enrolled : sender ∈ roster.ids
  addressed : addressee ∈ roster.ids
  other : addressee ≠ sender
  led : ∃ before after,
    SentBetween history ⟨sender, addressee, .request (.leaderHeartbeat term leader)⟩ before after ∧
      after.Leads sender term

section Histories

variable
    {roster : Roster}
    {history : List Assembly}
    {sender addressee leader : NodeId}
    {term : Nat}

theorem Honest.cons
    (next : Assembly)
    (honest : Honest roster history sender addressee term leader) :
    Honest roster (next :: history) sender addressee term leader where
  signed := honest.signed
  enrolled := honest.enrolled
  addressed := honest.addressed
  other := honest.other
  led := by
    obtain ⟨before, after, sent, leads⟩ := honest.led
    exact ⟨before, after, sent.cons next, leads⟩

theorem Honest.reigned
    (honest : Honest roster history sender addressee term leader) :
    Reigned history sender term := by
  obtain ⟨before, after, sent, leads⟩ := honest.led
  exact ⟨after, sent.mem, leads⟩

/-- In a run a term has one leader. -/
theorem Chronicle.reigned_unique
    {left right : NodeId}
    (run : Chronicle roster history)
    (leftEnrolled : left ∈ roster.ids)
    (rightEnrolled : right ∈ roster.ids)
    (one : Reigned history left term)
    (other : Reigned history right term) :
    left = right := by
  obtain ⟨first, firstMember, firstLeads⟩ := one
  obtain ⟨second, secondMember, secondLeads⟩ := other
  exact run.won_unique (run.won_of_leads firstMember leftEnrolled firstLeads)
    (run.won_of_leads secondMember rightEnrolled secondLeads)

end Histories

/-- What is known of leaders, by the members and by the messages on their way, is true. -/
structure Reigns (roster : Roster) (now : Assembly) (past : List Assembly) : Prop where
  known : ∀ id ∈ roster.ids, ∀ leader, (now.members id).ledger.leaderId = some leader →
    leader ∈ roster.ids ∧ Reigned (now :: past) leader (now.members id).ledger.currentTerm
  honest : ∀ sender addressee term leader,
    ⟨sender, addressee, .request (.leaderHeartbeat term leader)⟩ ∈ now.sent →
      Honest roster (now :: past) sender addressee term leader

namespace Reigns

variable
    {roster : Roster}
    {now next : Assembly}
    {past : List Assembly}
    {actor : NodeId}
    {occasion : Occasion}
    {answer : Except Failure (Option Response)}
    {said : List Request}

theorem of_begins (begins : now.Begins roster) : Reigns roster now [] where
  known := by
    intro id enrolled leader known
    obtain ⟨clockMs, made⟩ := begins.members id enrolled
    simp [made, Member.ofConfig, Ledger.ofSize] at known
  honest := by
    intro sender addressee term leader sent
    simp [begins.sent] at sent

theorem known_step
    (named : (now.members actor).id = actor)
    (reigns : Reigns roster now past)
    (acts : Assembly.Acts roster now next actor occasion answer said)
    {leader : NodeId}
    (known : (next.members actor).ledger.leaderId = some leader) :
    leader ∈ roster.ids ∧
      Reigned (next :: now :: past) leader (next.members actor).ledger.currentTerm := by
  have allowed := acts.allowed
  rcases acts.turn.leaderId_known known with ⟨before, same⟩ | ⟨leads, rfl⟩ | ⟨sender, rfl⟩
  · obtain ⟨enrolled, reigned⟩ := reigns.known actor acts.enrolled leader before
    have term : (next.members actor).ledger.currentTerm =
        (now.members actor).ledger.currentTerm := same
    rw [term]
    exact ⟨enrolled, reigned.cons next⟩
  · have actor' : (now.members actor).seat.id = actor := named
    rw [actor']
    exact ⟨acts.enrolled, next, List.mem_cons_self, leads, rfl⟩
  · have honest := reigns.honest _ _ _ _ allowed
    rw [honest.signed]
    exact ⟨honest.enrolled, honest.reigned.cons next⟩

theorem honest_step
    (named : (now.members actor).id = actor)
    (reigns : Reigns roster now past)
    (acts : Assembly.Acts roster now next actor occasion answer said)
    {sender addressee leader : NodeId}
    {term : Nat}
    (sent : ⟨sender, addressee, .request (.leaderHeartbeat term leader)⟩ ∈ next.sent) :
    Honest roster (next :: now :: past) sender addressee term leader := by
  by_cases old : ⟨sender, addressee, .request (.leaderHeartbeat term leader)⟩ ∈ now.sent
  · exact (reigns.honest _ _ _ _ old).cons next
  rcases acts.adds _ sent with old' | ⟨peer, enrolled, other, request, voiced, same⟩ |
    ⟨_, _, _, _, _, same⟩
  · exact absurd old' old
  · simp only [Dispatch.mk.injEq, Message.request.injEq] at same
    obtain ⟨rfl, rfl, rfl⟩ := same
    obtain ⟨leads, signed, current⟩ := acts.turn.leads_of_asserts voiced
    exact {
      signed := (signed.trans acts.turn.id_eq).trans named
      enrolled := acts.enrolled
      addressed := enrolled
      other := other
      led := ⟨now, next, ⟨⟨[], past, rfl⟩, old, sent⟩, leads, current.symm⟩ }
  · simp at same

theorem step
    (named : ∀ id ∈ roster.ids, (now.members id).id = id)
    (reigns : Reigns roster now past)
    (acts : Assembly.Acts roster now next actor occasion answer said) :
    Reigns roster next (now :: past) where
  known := by
    intro id enrolled leader known
    by_cases acting : id = actor
    · subst acting
      exact reigns.known_step (named id enrolled) acts known
    · rw [acts.others id acting] at known ⊢
      obtain ⟨enrolled', reigned⟩ := reigns.known id enrolled leader known
      exact ⟨enrolled', reigned.cons next⟩
  honest := fun _ _ _ _ sent => reigns.honest_step (named actor acts.enrolled) acts sent

end Reigns

theorem Chronicle.reigns
    {roster : Roster}
    {now : Assembly}
    {past : List Assembly}
    (run : Chronicle roster (now :: past)) :
    Reigns roster now past := by
  generalize same : now :: past = history at run
  induction run generalizing now past with
  | begun begins =>
    obtain ⟨rfl, rfl⟩ := List.cons.inj same
    exact .of_begins begins
  | step run step ih =>
    obtain ⟨rfl, rfl⟩ := List.cons.inj same
    obtain ⟨actor, occasion, answer, said, acts⟩ := step.acts
    exact (ih rfl).step run.ballots.named acts

/-! ## Assertions are answered -/

/-- A handler that ends with an answer does not end without one. -/
theorem answers_bind
    {α : Type}
    (act : Act Member α)
    (response : Response)
    (stage : Stage Member) :
    Ensures (do let _ ← act; return some response) stage
      (fun reply _ => reply ≠ none) fun _ _ => True := by
  rw [ensures_bind]
  exact ensures_of_forall (fun _ _ => by simp) fun _ _ => trivial

theorem yieldTo_answers (term : Nat) (leader : NodeId) (stage : Stage Member) :
    (yieldTo term leader).Ensures stage (fun reply _ => reply ≠ none) fun _ _ => True := by
  unfold yieldTo
  rw [ensures_bind]
  refine ensures_of_forall (fun _ advanced => ?_) fun _ _ => trivial
  rw [ensures_bind]
  refine ensures_of_forall (fun _ noted => ?_) fun _ _ => trivial
  rw [ensures_bind]
  exact ensures_of_forall (fun _ followed => answers_bind _ _ followed) fun _ _ => trivial

theorem onAssertionAsFollower_answers
    (term : Nat)
    (leader : NodeId)
    (stage : Stage Member)
    (agrees : ∀ known, stage.own.ledger.currentTerm = term →
      stage.own.ledger.leaderId = some known → known = leader) :
    (onAssertionAsFollower term leader).Ensures stage
      (fun reply _ => reply ≠ none) fun _ _ => True := by
  unfold onAssertionAsFollower
  simp only [ensures_bind, ensures_own]
  split
  · simp
  next notStale =>
  split
  · rw [ensures_bind]
    refine ensures_of_forall (fun _ advanced => ?_) fun _ _ => trivial
    rw [ensures_bind]
    exact ensures_of_forall (fun _ noted => answers_bind _ _ noted) fun _ _ => trivial
  next notNewer =>
  split
  · rw [ensures_bind]
    exact ensures_of_forall (fun _ noted => answers_bind _ _ noted) fun _ _ => trivial
  · next known knows =>
    split
    · next differs => exact absurd (agrees known (by omega) knows) differs
    · exact answers_bind _ _ stage

/-- A member that knows of no other leader of the term answers an assertion, unless it fails. -/
theorem onRequest_answers
    (registry : Registry)
    (sender leader : NodeId)
    (term : Nat)
    (stage : Stage Member)
    (outranked : stage.own.role = .leader → term ≠ stage.own.ledger.currentTerm)
    (agrees : ∀ known, stage.own.ledger.currentTerm = term →
      stage.own.ledger.leaderId = some known → known = leader) :
    (onRequest registry sender (.leaderHeartbeat term leader)).Ensures stage
      (fun reply _ => reply ≠ none) fun _ _ => True := by
  unfold onRequest
  simp only [ensures_bind, ensures_own]
  split
  · exact onAssertionAsFollower_answers term leader stage agrees
  · exact onAssertionAsFollower_answers term leader stage agrees
  · unfold onAssertionAsCandidate
    simp only [ensures_bind, ensures_own]
    split
    · simp
    · exact yieldTo_answers term leader stage
  · next leads =>
    unfold onAssertionAsLeader
    simp only [ensures_bind, ensures_own]
    split
    · split
      · exact answers_bind _ _ stage
      · simp
    split
    · next same => exact absurd same (outranked leads)
    · exact yieldTo_answers term leader stage

/-- The members of a run agree on who leads, and no assertion contradicts them. -/
structure Concord (roster : Roster) (now : Assembly) (history : List Assembly) : Prop where
  /-- The leader that a member knows has led its term. -/
  known : ∀ id ∈ roster.ids, ∀ leader,
    (now.members id).ledger.leaderId = some leader →
      leader ∈ roster.ids ∧ Reigned history leader (now.members id).ledger.currentTerm
  /-- Members of one term that know a leader know the same one. -/
  agreed : ∀ id ∈ roster.ids, ∀ other ∈ roster.ids, ∀ leader leader',
    (now.members id).ledger.currentTerm = (now.members other).ledger.currentTerm →
      (now.members id).ledger.leaderId = some leader →
        (now.members other).ledger.leaderId = some leader' → leader = leader'
  /-- Every assertion on its way was sent by the leader of its term. -/
  honest : ∀ sender addressee term leader,
    ⟨sender, addressee, .request (.leaderHeartbeat term leader)⟩ ∈ now.sent →
      Honest roster history sender addressee term leader
  /-- No leader meets an assertion of its own term. -/
  unrivalled : ∀ sender addressee term leader,
    ⟨sender, addressee, .request (.leaderHeartbeat term leader)⟩ ∈ now.sent →
      ¬ now.Leads addressee term
  /-- No member that knows the leader of its term meets an assertion of another one. -/
  undisputed : ∀ sender addressee term leader known,
    ⟨sender, addressee, .request (.leaderHeartbeat term leader)⟩ ∈ now.sent →
      (now.members addressee).ledger.currentTerm = term →
        (now.members addressee).ledger.leaderId = some known → known = leader
  /-- No assertion is left without an answer by a member that handles it to the end. -/
  answered : ∀ sender addressee term leader registry outside,
    ⟨sender, addressee, .request (.leaderHeartbeat term leader)⟩ ∈ now.sent →
      (now.outcome addressee (.request sender (.leaderHeartbeat term leader)) registry
        outside).1 ≠ .ok none

/-- However the network treats the messages, the members of a run agree on who leads a term, and
nobody ever meets a second leader of it. -/
theorem Chronicle.concord
    {roster : Roster}
    {now : Assembly}
    {past : List Assembly}
    (run : Chronicle roster (now :: past)) :
    Concord roster now (now :: past) := by
  have reigns := run.reigns
  have unrivalled : ∀ sender addressee term leader,
      ⟨sender, addressee, .request (.leaderHeartbeat term leader)⟩ ∈ now.sent →
        ¬ now.Leads addressee term := by
    intro sender addressee term leader sent leads
    have honest := reigns.honest sender addressee term leader sent
    exact honest.other (run.reigned_unique honest.addressed honest.enrolled
      ⟨now, List.mem_cons_self, leads⟩ honest.reigned)
  have undisputed : ∀ sender addressee term leader known,
      ⟨sender, addressee, .request (.leaderHeartbeat term leader)⟩ ∈ now.sent →
        (now.members addressee).ledger.currentTerm = term →
          (now.members addressee).ledger.leaderId = some known → known = leader := by
    rintro sender addressee _ leader known sent rfl knows
    have honest := reigns.honest _ _ _ _ sent
    obtain ⟨enrolled, reigned⟩ := reigns.known addressee honest.addressed known knows
    rw [honest.signed]
    exact run.reigned_unique enrolled honest.enrolled reigned honest.reigned
  refine ⟨reigns.known, ?_, reigns.honest, unrivalled, undisputed, ?_⟩
  · intro id enrolled other enrolled' leader leader' term knows knows'
    obtain ⟨listed, reigned⟩ := reigns.known id enrolled leader knows
    obtain ⟨listed', reigned'⟩ := reigns.known other enrolled' leader' knows'
    exact run.reigned_unique listed listed' (term ▸ reigned) reigned'
  · intro sender addressee term leader registry outside sent answer
    have answers := onRequest_answers registry sender leader term
      ⟨now.members addressee, outside⟩
      (fun leads same => unrivalled sender addressee term leader sent ⟨leads, same.symm⟩)
      fun known => undisputed sender addressee term leader known sent
    exact answers.of_perform (Prod.ext answer rfl) rfl

/-- Two members know the leader of the first term, and its assertion is still on its way. -/
theorem Chronicle.concord_trio :
    (∀ id ∈ ["1", "3"], (Trio.followed.members id).ledger.leaderId = some "3") ∧
      (⟨"3", "1", .request (.leaderHeartbeat 1 "3")⟩ : Dispatch) ∈ Trio.followed.sent ∧
      Concord Trio.roster Trio.followed
        [Trio.followed, Trio.won, Trio.granted, Trio.campaigned, Trio.begun] := by
  refine ⟨?_, ?_, Trio.chronicle.concord⟩
  · decide
  · decide

end Quorum
