import Mathlib.Data.List.Nodup
import Quorum.Proofs.Election.Assembly

/-!
# Ballots

A member votes once in a term, and this vote is backed by its ledger from then on.  The ledger of a
member at one moment therefore `Precedes` its ledgers at all later moments, and what a member voted
can be read off any state of a run in which it was in that term.

Votes that are granted in a message, counted by a candidate or that have made a leader were all cast
in this sense.  Since two quorums share a voter, a term has one leader at most.
-/

namespace Quorum

/-! ## What a turn does to the ballot -/

/-- A candidate and a leader stand for election in the current term. -/
def Standing.contests : Standing → Bool
  | candidate _ | leader _ => true
  | follower | sync => false

/-- A ledger that can come later has a newer term, or the same term and the same vote if there was
one. -/
def Ledger.Precedes (earlier later : Ledger) : Prop :=
  earlier.currentTerm < later.currentTerm ∨
    (earlier.currentTerm = later.currentTerm ∧
      ∀ candidate, earlier.votedFor = some candidate → later.votedFor = some candidate)

namespace Ledger

theorem Precedes.refl (ledger : Ledger) : ledger.Precedes ledger :=
  .inr ⟨rfl, fun _ => id⟩

theorem Precedes.trans
    {first second third : Ledger}
    (left : first.Precedes second)
    (right : second.Precedes third) :
    first.Precedes third := by
  rcases left with newer | ⟨same, kept⟩
  · rcases right with newer' | ⟨same', _⟩
    · exact .inl (Nat.lt_trans newer newer')
    · exact .inl (same' ▸ newer)
  · rcases right with newer' | ⟨same', kept'⟩
    · exact .inl (same ▸ newer')
    · exact .inr ⟨same.trans same', fun candidate voted => kept' candidate (kept candidate voted)⟩

theorem Precedes.of_same
    {earlier later : Ledger}
    (term : later.currentTerm = earlier.currentTerm)
    (vote : later.votedFor = earlier.votedFor) :
    earlier.Precedes later :=
  .inr ⟨term.symm, fun _ voted => vote.trans voted⟩

theorem Precedes.term_le
    {earlier later : Ledger}
    (precedes : earlier.Precedes later) :
    earlier.currentTerm ≤ later.currentTerm := by
  rcases precedes with newer | ⟨same, _⟩
  · exact Nat.le_of_lt newer
  · exact Nat.le_of_eq same

theorem Precedes.vote_kept
    {earlier later : Ledger}
    (precedes : earlier.Precedes later)
    (same : earlier.currentTerm = later.currentTerm) :
    ∀ candidate, earlier.votedFor = some candidate → later.votedFor = some candidate := by
  rcases precedes with newer | ⟨_, kept⟩
  · exact absurd same (Nat.ne_of_lt newer)
  · exact kept

/-- Of two ledgers in the same term one of which precedes the other, both votes agree. -/
theorem Precedes.votes_agree
    {earlier later : Ledger}
    {one other : NodeId}
    (precedes : earlier.Precedes later)
    (term : earlier.currentTerm = later.currentTerm)
    (voted : earlier.votedFor = some one)
    (voted' : later.votedFor = some other) :
    one = other := by
  rcases precedes with newer | ⟨_, kept⟩
  · omega
  · exact Option.some.inj ((kept one voted).symm.trans voted')

end Ledger

namespace Ledger

variable (ledger : Ledger)

theorem precedes_advanceTerm (term : Nat) : ledger.Precedes (ledger.advanceTerm term) := by
  by_cases newer : ledger.currentTerm < term
  · rw [advanceTerm_of_lt newer]
    exact .inl newer
  · rw [advanceTerm_of_le (Nat.not_lt.mp newer)]
    exact .refl ledger

theorem precedes_voteFor (candidate : NodeId) : ledger.Precedes (ledger.voteFor candidate) := by
  cases voted : ledger.votedFor with
  | none =>
    rw [voteFor_of_free voted]
    exact .inr ⟨rfl, fun chosen taken => by simp [voted] at taken⟩
  | some chosen =>
    by_cases same : chosen = candidate
    · have kept : ledger.voteFor candidate = { ledger with votedFor := some candidate } := by
        simp [voteFor, canVoteFor, voted, same]
      rw [kept]
      exact .of_same rfl (by rw [voted, same])
    · have kept : ledger.voteFor candidate = ledger := by
        simp [voteFor, canVoteFor, voted, same]
      rw [kept]
      exact .refl ledger

theorem precedes_setLeader (leader : Option NodeId) : ledger.Precedes (ledger.setLeader leader) :=
  .of_same rfl rfl

theorem precedes_recordLog (term index : Nat) : ledger.Precedes (ledger.recordLog term index) := by
  unfold recordLog
  split
  · exact .of_same rfl rfl
  · exact .refl ledger

theorem precedes_nextTerm {next : Ledger} (begun : ledger.nextTerm = .ok next) :
    ledger.Precedes next := by
  obtain ⟨_, rfl⟩ := nextTerm_eq_ok_iff.mp begun
  exact precedes_advanceTerm _ _

/-- Who begins a term is in a newer one and can vote freely in it. -/
theorem voteFor_nextTerm {next : Ledger} (actor : NodeId)
    (begun : ledger.nextTerm = .ok next) :
    ledger.currentTerm < (next.voteFor actor).currentTerm ∧
      (next.voteFor actor).votedFor = some actor := by
  obtain ⟨_, rfl⟩ := nextTerm_eq_ok_iff.mp begun
  rw [advanceTerm_of_lt (Nat.lt_succ_self _), voteFor_of_free rfl]
  exact ⟨Nat.lt_succ_self _, rfl⟩

end Ledger

namespace Turn

variable
    {occasion : Occasion}
    {seat after : Seat}
    {answer : Except Failure (Option Response)}
    {said : List Request}

theorem id_eq (turn : Turn occasion seat answer said after) : after.id = seat.id := by
  cases turn
  case campaigned becomes => rw [becomes]
  case carried becomes => rw [becomes]
  case won becomes => rw [becomes]
  all_goals rfl

theorem membershipSize_eq (turn : Turn occasion seat answer said after) :
    after.ledger.membershipSize = seat.ledger.membershipSize := by
  cases turn with
  | campaigned _ _ begun _ becomes =>
    obtain ⟨_, rfl⟩ := Ledger.nextTerm_eq_ok_iff.mp begun
    simp [becomes]
  | carried _ _ begun _ becomes =>
    obtain ⟨_, rfl⟩ := Ledger.nextTerm_eq_ok_iff.mp begun
    simp [becomes]
  | won _ _ _ _ becomes => simp [becomes]
  | _ => simp

/-- No turn takes a term or a vote back. -/
theorem precedes (turn : Turn occasion seat answer said after) :
    seat.ledger.Precedes after.ledger := by
  cases turn with
  | unmoved => exact .refl _
  | asserted => exact .refl _
  | rested => exact .refl _
  | abdicated => exact Ledger.precedes_setLeader _ _
  | adopted => exact Ledger.precedes_advanceTerm _ _
  | granted => exact (Ledger.precedes_advanceTerm _ _).trans (Ledger.precedes_voteFor _ _)
  | accepted => exact (Ledger.precedes_advanceTerm _ _).trans (Ledger.precedes_setLeader _ _)
  | campaigned _ _ begun _ becomes =>
    rw [becomes]
    exact (Ledger.precedes_nextTerm _ begun).trans (Ledger.precedes_voteFor _ _)
  | carried _ _ begun _ becomes =>
    rw [becomes]
    exact ((Ledger.precedes_nextTerm _ begun).trans (Ledger.precedes_voteFor _ _)).trans
      (Ledger.precedes_setLeader _ _)
  | counted => exact .refl _
  | won _ _ _ _ becomes =>
    rw [becomes]
    exact Ledger.precedes_setLeader _ _
  | recorded => exact Ledger.precedes_recordLog _ _ _

/-- A vote is given away in an answer only to a candidate that asked for it, in a newer term and
with a log that is recent enough. -/
theorem grant
    {term : Nat}
    (turn : Turn occasion seat answer said after)
    (grants : Grants term answer) :
    ∃ candidate lastLogTerm lastLogIndex,
      occasion = .request candidate (.vote term lastLogTerm lastLogIndex) ∧
        seat.ledger.currentTerm < term ∧
        seat.ledger.isUpToDate lastLogTerm lastLogIndex = true ∧
        after.ledger = (seat.ledger.advanceTerm term).voteFor candidate := by
  cases turn with
  | @granted candidate _ _ given lastLogTerm lastLogIndex granting newer recent =>
    obtain rfl := granting term grants
    exact ⟨candidate, lastLogTerm, lastLogIndex, rfl, newer, recent, rfl⟩
  | unmoved refused => exact absurd grants (refused term)
  | asserted _ refused => exact absurd grants (refused term)
  | rested refused => exact absurd grants (refused term)
  | abdicated refused => exact absurd grants (refused term)
  | adopted refused => exact absurd grants (refused term)
  | accepted refused => exact absurd grants (refused term)
  | campaigned refused => exact absurd grants (refused term)
  | carried refused => exact absurd grants (refused term)
  | counted refused => exact absurd grants (refused term)
  | won refused => exact absurd grants (refused term)
  | recorded refused => exact absurd grants (refused term)

/-- A vote is given away in an answer only together with the ledger. -/
theorem voted_of_grants
    {term : Nat}
    (turn : Turn occasion seat answer said after)
    (grants : Grants term answer) :
    ∃ candidate lastLogTerm lastLogIndex,
      occasion = .request candidate (.vote term lastLogTerm lastLogIndex) ∧
        after.ledger.currentTerm = term ∧ after.ledger.votedFor = some candidate := by
  obtain ⟨candidate, lastLogTerm, lastLogIndex, asked, newer, _, becomes⟩ := turn.grant grants
  rw [becomes, Ledger.advanceTerm_of_lt newer, Ledger.voteFor_of_free rfl]
  exact ⟨candidate, lastLogTerm, lastLogIndex, asked, rfl, rfl⟩

/-- The votes of a candidate are those it had before, or its own alone in a term just begun, or one
more that an answer grants in the current term. -/
theorem candidacy
    {votes : List NodeId}
    (turn : Turn occasion seat answer said after)
    (candidate : after.standing = .candidate votes) :
    (seat.standing = .candidate votes ∧
        after.ledger.currentTerm = seat.ledger.currentTerm) ∨
      (votes = [seat.id] ∧ seat.ledger.currentTerm < after.ledger.currentTerm ∧
        after.ledger.votedFor = some seat.id) ∨
      ∃ sender earlier,
        occasion = .response sender (.vote seat.ledger.currentTerm true) ∧
          seat.standing = .candidate earlier ∧ votes = earlier.insert sender ∧
          after.ledger.currentTerm = seat.ledger.currentTerm := by
  have notYielded (standing : Standing) : standing.yielded ≠ .candidate votes := by
    cases standing <;> simp [Standing.yielded]
  cases turn with
  | unmoved => exact .inl ⟨candidate, rfl⟩
  | asserted => exact .inl ⟨candidate, rfl⟩
  | rested _ resting =>
    rcases resting with rfl | rfl <;> cases candidate
  | abdicated => cases candidate
  | adopted => exact absurd candidate (notYielded _)
  | granted => exact absurd candidate (notYielded _)
  | accepted => exact absurd candidate (notYielded _)
  | campaigned _ _ begun _ becomes =>
    subst becomes
    obtain rfl := Standing.candidate.inj candidate
    exact .inr (.inl ⟨rfl, Ledger.voteFor_nextTerm _ seat.id begun⟩)
  | carried _ _ _ _ becomes =>
    rw [becomes] at candidate
    cases candidate
  | @counted sender _ _ term earlier _ held current =>
    obtain rfl := Standing.candidate.inj candidate
    exact .inr (.inr ⟨sender, earlier, by rw [current], held, rfl, rfl⟩)
  | won _ _ _ _ becomes =>
    rw [becomes] at candidate
    cases candidate
  | recorded =>
    refine .inl ⟨candidate, ?_⟩
    unfold Ledger.recordLog
    split <;> rfl

/-- A member leads because it did so before, or with its own vote alone, or because an answer
completes a quorum in the current term. -/
theorem leadership
    (turn : Turn occasion seat answer said after)
    (leads : after.leads) :
    (seat.leads ∧ after.ledger.currentTerm = seat.ledger.currentTerm) ∨
      (seat.ledger.currentTerm < after.ledger.currentTerm ∧
        after.ledger.votedFor = some seat.id ∧ after.ledger.quorum ≤ 1) ∨
      ∃ sender votes,
        occasion = .response sender (.vote seat.ledger.currentTerm true) ∧
          seat.standing = .candidate votes ∧
          seat.ledger.quorum ≤ (votes.insert sender).length ∧
          after.ledger.currentTerm = seat.ledger.currentTerm := by
  have notYielded (standing : Standing) : standing.yielded.role ≠ .leader := by
    cases standing <;> simp [Standing.yielded, Standing.role]
  cases turn with
  | unmoved => exact .inl ⟨leads, rfl⟩
  | asserted => exact .inl ⟨leads, rfl⟩
  | rested _ resting =>
    rcases resting with rfl | rfl <;> cases leads
  | abdicated => cases leads
  | adopted => exact absurd leads (notYielded _)
  | granted => exact absurd leads (notYielded _)
  | accepted => exact absurd leads (notYielded _)
  | campaigned _ _ _ _ becomes =>
    rw [becomes] at leads
    cases leads
  | carried _ _ begun alone becomes =>
    subst becomes
    obtain ⟨newer, voted⟩ := Ledger.voteFor_nextTerm _ seat.id begun
    refine .inr (.inl ⟨newer, voted, ?_⟩)
    rwa [Ledger.quorum_eq_of_membershipSize
      ((Ledger.membershipSize_setLeader _ _).trans (Ledger.membershipSize_voteFor _ _))]
  | counted => cases leads
  | @won sender _ _ _ term votes _ _ held current enough becomes =>
    subst becomes
    exact .inr (.inr ⟨sender, votes, by rw [current], held, enough, rfl⟩)
  | recorded =>
    refine .inl ⟨leads, ?_⟩
    unfold Ledger.recordLog
    split <;> rfl

/-- A member stands for election because it did so before in this term, or because it has just begun
a newer term with a vote for itself. -/
theorem contest
    (turn : Turn occasion seat answer said after)
    (contests : after.standing.contests = true) :
    (seat.standing.contests = true ∧
        after.ledger.currentTerm = seat.ledger.currentTerm) ∨
      (seat.ledger.currentTerm < after.ledger.currentTerm ∧
        after.ledger.votedFor = some seat.id) := by
  cases stands : after.standing with
  | candidate votes =>
    rcases turn.candidacy stands with ⟨stood, same⟩ | ⟨_, newer, voted⟩ | ⟨_, _, _, stood, _, same⟩
    · exact .inl ⟨by rw [stood]; rfl, same⟩
    · exact .inr ⟨newer, voted⟩
    · exact .inl ⟨by rw [stood]; rfl, same⟩
  | leader heartbeat =>
    have leads : after.leads := by rw [Seat.leads, stands]; rfl
    rcases turn.leadership leads with ⟨led, same⟩ | ⟨newer, voted, _⟩ | ⟨_, _, _, stood, _, same⟩
    · refine .inl ⟨?_, same⟩
      revert led
      unfold Seat.leads
      cases seat.standing <;> simp [Standing.role, Standing.contests]
    · exact .inr ⟨newer, voted⟩
    · exact .inl ⟨by rw [stood]; rfl, same⟩
  | follower => rw [stands] at contests; cases contests
  | sync => rw [stands] at contests; cases contests

end Turn

/-! ## Votes cast in a run -/

/-- At some moment of a run a member was in a term and had voted for a candidate. -/
def VotedIn
    (history : List Assembly)
    (voter : NodeId)
    (term : Nat)
    (candidate : NodeId) : Prop :=
  ∃ assembly ∈ history,
    (assembly.members voter).ledger.currentTerm = term ∧
      (assembly.members voter).ledger.votedFor = some candidate

/-- Different members that voted for a candidate. -/
structure Backed
    (roster : Roster)
    (history : List Assembly)
    (votes : List NodeId)
    (term : Nat)
    (candidate : NodeId) : Prop where
  distinct : votes.Nodup
  enrolled : votes ⊆ roster.ids
  cast : ∀ voter ∈ votes, VotedIn history voter term candidate

/-- A quorum voted for a candidate. -/
def Won
    (roster : Roster)
    (history : List Assembly)
    (term : Nat)
    (candidate : NodeId) : Prop :=
  ∃ votes, Backed roster history votes term candidate ∧ roster.quorum ≤ votes.length

section Histories

variable
    {roster : Roster}
    {history : List Assembly}
    {votes : List NodeId}
    {term : Nat}
    {voter candidate : NodeId}

theorem VotedIn.cons (next : Assembly) (voted : VotedIn history voter term candidate) :
    VotedIn (next :: history) voter term candidate := by
  obtain ⟨assembly, member, ballot⟩ := voted
  exact ⟨assembly, List.mem_cons_of_mem next member, ballot⟩

theorem Backed.cons (next : Assembly) (backed : Backed roster history votes term candidate) :
    Backed roster (next :: history) votes term candidate :=
  ⟨backed.distinct, backed.enrolled, fun voter member => (backed.cast voter member).cons next⟩

theorem Backed.insert
    (backed : Backed roster history votes term candidate)
    (enrolled : voter ∈ roster.ids)
    (voted : VotedIn history voter term candidate) :
    Backed roster history (votes.insert voter) term candidate where
  distinct := backed.distinct.insert
  enrolled := by
    intro id member
    rcases List.mem_insert_iff.mp member with rfl | old
    · exact enrolled
    · exact backed.enrolled old
  cast := by
    intro id member
    rcases List.mem_insert_iff.mp member with rfl | old
    · exact voted
    · exact backed.cast id old

theorem Backed.single
    (enrolled : voter ∈ roster.ids)
    (voted : VotedIn history voter term candidate) :
    Backed roster history [voter] term candidate where
  distinct := List.nodup_singleton voter
  enrolled := by simpa using enrolled
  cast := by
    intro id member
    rwa [List.mem_singleton.mp member]

theorem Won.cons (next : Assembly) (won : Won roster history term candidate) :
    Won roster (next :: history) term candidate := by
  obtain ⟨votes, backed, enough⟩ := won
  exact ⟨votes, backed.cons next, enough⟩

end Histories

/-- What votes and the states of members have to do with each other in a run. -/
structure Ballots (roster : Roster) (now : Assembly) (past : List Assembly) : Prop where
  named : ∀ id ∈ roster.ids, (now.members id).id = id
  sized : ∀ id ∈ roster.ids, (now.members id).ledger.quorum = roster.quorum
  precede : ∀ id, ∀ earlier ∈ now :: past,
    (earlier.members id).ledger.Precedes (now.members id).ledger
  granted : ∀ voter candidate term,
    ⟨voter, candidate, .response (.vote term true)⟩ ∈ now.sent →
      voter ∈ roster.ids ∧ VotedIn (now :: past) voter term candidate
  backed : ∀ id ∈ roster.ids, ∀ votes, (now.members id).standing = .candidate votes →
    Backed roster (now :: past) votes (now.members id).ledger.currentTerm id
  won : ∀ id ∈ roster.ids, ∀ term, now.Leads id term → Won roster (now :: past) term id

namespace Ballots

variable
    {roster : Roster}
    {now next : Assembly}
    {past : List Assembly}
    {actor : NodeId}
    {occasion : Occasion}
    {answer : Except Failure (Option Response)}
    {said : List Request}

theorem of_begins (begins : now.Begins roster) : Ballots roster now [] where
  named := by
    intro id enrolled
    obtain ⟨clockMs, made⟩ := begins.members id enrolled
    rw [made]
    exact roster.named id enrolled
  sized := by
    intro id enrolled
    obtain ⟨clockMs, made⟩ := begins.members id enrolled
    have size : (roster.configOf id).membershipSize = roster.ids.length :=
      roster.length_peers enrolled
    rw [made]
    simp only [Member.ofConfig, Ledger.ofSize, Ledger.quorum, Roster.quorum, size]
    have := List.length_pos_of_mem enrolled
    rw [Nat.max_eq_left this]
  precede := by
    intro id earlier member
    rw [List.mem_singleton.mp member]
    exact .refl _
  granted := by
    intro voter candidate term sent
    simp [begins.sent] at sent
  backed := by
    intro id enrolled votes candidate
    obtain ⟨clockMs, made⟩ := begins.members id enrolled
    simp [made, Member.ofConfig] at candidate
  won := by
    intro id enrolled term leads
    obtain ⟨clockMs, made⟩ := begins.members id enrolled
    simp [Assembly.Leads, made, Member.ofConfig, Member.role, Standing.role] at leads

/-- The vote of a member in its current term was cast in the run. -/
theorem votedIn_now
    {assembly : Assembly}
    {history : List Assembly}
    {voter candidate : NodeId}
    (voted : (assembly.members voter).ledger.votedFor = some candidate) :
    VotedIn (assembly :: history) voter (assembly.members voter).ledger.currentTerm candidate :=
  ⟨assembly, List.mem_cons_self, rfl, voted⟩

theorem granted_step
    (ballots : Ballots roster now past)
    (acts : Assembly.Acts roster now next actor occasion answer said)
    {voter candidate : NodeId}
    {term : Nat}
    (sent : ⟨voter, candidate, .response (.vote term true)⟩ ∈ next.sent) :
    voter ∈ roster.ids ∧ VotedIn (next :: now :: past) voter term candidate := by
  rcases acts.adds _ sent with old | ⟨peer, _, _, request, _, same⟩ |
    ⟨asker, request, response, asked, answered, same⟩
  · obtain ⟨enrolled, voted⟩ := ballots.granted voter candidate term old
    exact ⟨enrolled, voted.cons next⟩
  · simp at same
  · simp only [Dispatch.mk.injEq, Message.response.injEq] at same
    obtain ⟨rfl, rfl, rfl⟩ := same
    obtain ⟨asker, _, _, asked', current, voted⟩ := acts.turn.voted_of_grants answered
    rw [asked] at asked'
    obtain ⟨rfl, _⟩ := Occasion.request.inj asked'
    exact ⟨acts.enrolled, next, List.mem_cons_self, current, voted⟩

/-- An answer that grants a vote comes from a member that has cast it. -/
theorem granted_of_allowed
    (ballots : Ballots roster now past)
    {sender : NodeId}
    {term : Nat}
    (allowed : now.Allows actor (.response sender (.vote term true))) :
    sender ∈ roster.ids ∧ VotedIn (now :: past) sender term actor :=
  ballots.granted sender actor term allowed

theorem backed_step
    (ballots : Ballots roster now past)
    (acts : Assembly.Acts roster now next actor occasion answer said)
    {votes : List NodeId}
    (candidate : (next.members actor).standing = .candidate votes) :
    Backed roster (next :: now :: past) votes (next.members actor).ledger.currentTerm actor := by
  have named := ballots.named actor acts.enrolled
  have allowed := acts.allowed
  rcases acts.turn.candidacy candidate with ⟨held, same⟩ | ⟨rfl, _, voted⟩ |
    ⟨sender, earlier, rfl, held, rfl, same⟩
  · have term : (next.members actor).ledger.currentTerm = (now.members actor).ledger.currentTerm :=
      same
    rw [term]
    exact (ballots.backed actor acts.enrolled votes held).cons next
  · have actor' : (now.members actor).seat.id = actor := named
    rw [actor'] at voted ⊢
    exact .single acts.enrolled (votedIn_now voted)
  · have term : (next.members actor).ledger.currentTerm = (now.members actor).ledger.currentTerm :=
      same
    obtain ⟨enrolled, voted⟩ := ballots.granted_of_allowed allowed
    rw [term]
    exact ((ballots.backed actor acts.enrolled earlier held).cons next).insert enrolled
      (voted.cons next)

theorem won_step
    (ballots : Ballots roster now past)
    (acts : Assembly.Acts roster now next actor occasion answer said)
    (leads : (next.members actor).seat.leads) :
    Won roster (next :: now :: past) (next.members actor).ledger.currentTerm actor := by
  have named := ballots.named actor acts.enrolled
  have sized := ballots.sized actor acts.enrolled
  have allowed := acts.allowed
  rcases acts.turn.leadership leads with ⟨led, same⟩ | ⟨_, voted, alone⟩ |
    ⟨sender, votes, rfl, held, enough, same⟩
  · have term : (next.members actor).ledger.currentTerm = (now.members actor).ledger.currentTerm :=
      same
    rw [term]
    exact (ballots.won actor acts.enrolled _ ⟨led, rfl⟩).cons next
  · have actor' : (now.members actor).seat.id = actor := named
    rw [actor'] at voted
    refine ⟨[actor], .single acts.enrolled (votedIn_now voted), ?_⟩
    rw [← sized, List.length_singleton]
    exact (Ledger.quorum_eq_of_membershipSize acts.turn.membershipSize_eq) ▸ alone
  · have term : (next.members actor).ledger.currentTerm = (now.members actor).ledger.currentTerm :=
      same
    obtain ⟨enrolled, voted⟩ := ballots.granted_of_allowed allowed
    rw [term]
    refine ⟨votes.insert sender, ?_, ?_⟩
    · exact ((ballots.backed actor acts.enrolled votes held).cons next).insert enrolled
        (voted.cons next)
    · rw [← sized]
      exact enough

theorem step
    (ballots : Ballots roster now past)
    (acts : Assembly.Acts roster now next actor occasion answer said) :
    Ballots roster next (now :: past) where
  named := by
    intro id enrolled
    by_cases acting : id = actor
    · subst acting
      exact acts.turn.id_eq.trans (ballots.named id enrolled)
    · rw [acts.others id acting]
      exact ballots.named id enrolled
  sized := by
    intro id enrolled
    by_cases acting : id = actor
    · subst acting
      exact (Ledger.quorum_eq_of_membershipSize acts.turn.membershipSize_eq).trans
        (ballots.sized id enrolled)
    · rw [acts.others id acting]
      exact ballots.sized id enrolled
  precede := by
    intro id earlier member
    have now_next : (now.members id).ledger.Precedes (next.members id).ledger := by
      by_cases acting : id = actor
      · subst acting
        exact acts.turn.precedes
      · rw [acts.others id acting]
        exact .refl _
    rcases List.mem_cons.mp member with rfl | old
    · exact .refl _
    · exact (ballots.precede id earlier old).trans now_next
  granted := fun voter candidate term sent => ballots.granted_step acts sent
  backed := by
    intro id enrolled votes candidate
    by_cases acting : id = actor
    · subst acting
      exact ballots.backed_step acts candidate
    · rw [acts.others id acting] at candidate ⊢
      exact (ballots.backed id enrolled votes candidate).cons next
  won := by
    rintro id enrolled term ⟨leads, rfl⟩
    by_cases acting : id = actor
    · subst acting
      exact ballots.won_step acts leads
    · rw [acts.others id acting] at leads ⊢
      exact (ballots.won id enrolled _ ⟨leads, rfl⟩).cons next

end Ballots

namespace Chronicle

variable
    {roster : Roster}
    {now : Assembly}
    {past history : List Assembly}

theorem ballots (run : Chronicle roster (now :: past)) : Ballots roster now past := by
  generalize same : now :: past = history at run
  induction run generalizing now past with
  | begun begins =>
    obtain ⟨rfl, rfl⟩ := List.cons.inj same
    exact .of_begins begins
  | step run step ih =>
    obtain ⟨rfl, rfl⟩ := List.cons.inj same
    obtain ⟨actor, occasion, answer, said, acts⟩ := step.acts
    exact (ih rfl).step acts

/-- In a run a member has one vote in a term. -/
theorem votes_agree
    {voter left right : NodeId}
    {term : Nat}
    (run : Chronicle roster history)
    (one : VotedIn history voter term left)
    (other : VotedIn history voter term right) :
    left = right := by
  obtain ⟨first, firstMember, firstTerm, firstVote⟩ := one
  obtain ⟨second, secondMember, secondTerm, secondVote⟩ := other
  have terms := firstTerm.trans secondTerm.symm
  induction run with
  | begun begins =>
    rw [List.mem_singleton] at firstMember secondMember
    subst firstMember secondMember
    exact Option.some.inj (firstVote.symm.trans secondVote)
  | @step now next past run step ih =>
    have precede := (run.step step).ballots.precede voter
    rcases List.mem_cons.mp firstMember with rfl | firstOld
    · exact ((precede second secondMember).votes_agree terms.symm secondVote firstVote).symm
    · rcases List.mem_cons.mp secondMember with rfl | secondOld
      · exact (precede first firstMember).votes_agree terms firstVote secondVote
      · exact ih firstOld secondOld

/-- In a run a term is won by one member at most. -/
theorem won_unique
    {left right : NodeId}
    {term : Nat}
    (run : Chronicle roster history)
    (one : Won roster history term left)
    (other : Won roster history term right) :
    left = right := by
  obtain ⟨leftVotes, leftBacked, leftEnough⟩ := one
  obtain ⟨rightVotes, rightBacked, rightEnough⟩ := other
  obtain ⟨voter, inLeft, inRight⟩ := roster.quorums_meet leftBacked.distinct rightBacked.distinct
    leftBacked.enrolled rightBacked.enrolled leftEnough rightEnough
  exact run.votes_agree (leftBacked.cast voter inLeft) (rightBacked.cast voter inRight)

/-- Whoever led a term at some moment of a run had won it. -/
theorem won_of_leads
    {assembly : Assembly}
    {id : NodeId}
    {term : Nat}
    (run : Chronicle roster history)
    (member : assembly ∈ history)
    (enrolled : id ∈ roster.ids)
    (leads : assembly.Leads id term) :
    Won roster history term id := by
  induction run with
  | begun begins =>
    obtain rfl := List.mem_singleton.mp member
    exact (Ballots.of_begins begins).won id enrolled term leads
  | step run step ih =>
    rcases List.mem_cons.mp member with rfl | old
    · exact (run.step step).ballots.won id enrolled term leads
    · exact (ih old).cons _

/-- Over a whole run, however the network treats the messages, at most one member ever leads a
term. -/
theorem leader_unique
    {first second : Assembly}
    {left right : NodeId}
    {term : Nat}
    (run : Chronicle roster history)
    (firstMember : first ∈ history)
    (secondMember : second ∈ history)
    (leftEnrolled : left ∈ roster.ids)
    (rightEnrolled : right ∈ roster.ids)
    (leftLeads : first.Leads left term)
    (rightLeads : second.Leads right term) :
    left = right :=
  run.won_unique (run.won_of_leads firstMember leftEnrolled leftLeads)
    (run.won_of_leads secondMember rightEnrolled rightLeads)

/-- Member `3` leads the first term at two moments of one run. -/
theorem leader_unique_trio :
    Trio.won.Leads "3" 1 ∧ Trio.followed.Leads "3" 1 ∧ "3" = "3" := by
  have wins : Trio.won.Leads "3" 1 := by decide
  have stays : Trio.followed.Leads "3" 1 := by decide
  exact ⟨wins, stays, Trio.chronicle.leader_unique (by simp) (by simp) (by decide) (by decide)
    wins stays⟩

end Chronicle

end Quorum
