import Mathlib.Data.Prod.Lex
import Quorum.Proofs.Election.Ballots

/-!
# The log of a new leader

A voter compares its log with the position that a request for votes names.  This position was the
candidate's when it asked, and by the time the vote is counted both logs may have moved.  Since the
position of a log only grows, the comparison still holds for the candidate's newest position, and
the voter's position is taken at the moment at which it cast the vote.

`Mandates` keeps this for requests and votes on their way and for the votes that a candidate has
counted.  A leader therefore takes over with a log that is as recent as those of a whole quorum were
when they voted for it, which is `Chronicle.elected_up_to_date`.
-/

namespace Quorum

/-! ## Positions of a log -/

namespace Ledger

/-- The position of the newest log entry.  It is compared by the term first and then by the
index. -/
def position (ledger : Ledger) : Nat ×ₗ Nat := toLex (ledger.lastLogTerm, ledger.lastLogIndex)

theorem isUpToDate_iff {ledger : Ledger} {lastLogTerm lastLogIndex : Nat} :
    ledger.isUpToDate lastLogTerm lastLogIndex = true ↔
      ledger.position ≤ toLex (lastLogTerm, lastLogIndex) := by
  unfold isUpToDate position
  rw [Prod.Lex.toLex_le_toLex]
  split
  · next same => simp [same]
  · next other => simp [Ne.symm other]

@[simp]
theorem position_advanceTerm (ledger : Ledger) (term : Nat) :
    (ledger.advanceTerm term).position = ledger.position := by
  unfold advanceTerm
  split <;> rfl

@[simp]
theorem position_voteFor (ledger : Ledger) (candidate : NodeId) :
    (ledger.voteFor candidate).position = ledger.position := by
  unfold voteFor
  split <;> rfl

@[simp]
theorem position_setLeader (ledger : Ledger) (leader : Option NodeId) :
    (ledger.setLeader leader).position = ledger.position := rfl

theorem position_nextTerm {ledger next : Ledger} (begun : ledger.nextTerm = .ok next) :
    next.position = ledger.position := by
  obtain ⟨_, rfl⟩ := nextTerm_eq_ok_iff.mp begun
  exact position_advanceTerm _ _

/-- Noting a position keeps the more recent one of the two. -/
theorem position_recordLog (ledger : Ledger) (term index : Nat) :
    (ledger.recordLog term index).position = max ledger.position (toLex (term, index)) := by
  have newer : ledger.position < toLex (term, index) ↔
      ledger.lastLogTerm < term ∨ (ledger.lastLogTerm = term ∧ ledger.lastLogIndex < index) :=
    Prod.Lex.toLex_lt_toLex
  unfold recordLog
  split
  · next moves => exact (max_eq_right (newer.mpr moves).le).symm
  · next stays => exact (max_eq_left (not_lt.mp fun moves => stays (newer.mp moves))).symm

end Ledger

namespace Turn

variable
    {occasion : Occasion}
    {seat after : Seat}
    {answer : Except Failure (Option Response)}
    {said : List Request}

/-- Only the log layer moves the position, and it leaves the term alone. -/
theorem position_kept_or_noted (turn : Turn occasion seat answer said after) :
    after.ledger.position = seat.ledger.position ∨
      (seat.ledger.position ≤ after.ledger.position ∧
        after.ledger.currentTerm = seat.ledger.currentTerm) := by
  cases turn with
  | campaigned _ _ begun _ becomes =>
    subst becomes
    exact .inl (by simp [Ledger.position_nextTerm begun])
  | carried _ _ begun _ becomes =>
    subst becomes
    exact .inl (by simp [Ledger.position_nextTerm begun])
  | won _ _ _ _ becomes =>
    subst becomes
    exact .inl (by simp)
  | recorded =>
    refine .inr ⟨?_, ?_⟩
    · rw [Ledger.position_recordLog]
      exact le_max_left _ _
    · unfold Ledger.recordLog
      split <;> rfl
  | _ => exact .inl (by simp)

/-- The position never moves backwards. -/
theorem position_le (turn : Turn occasion seat answer said after) :
    seat.ledger.position ≤ after.ledger.position := by
  rcases turn.position_kept_or_noted with kept | ⟨noted, _⟩
  · exact kept.ge
  · exact noted

/-- A turn that begins a newer term leaves the position alone. -/
theorem position_eq_of_newer
    (turn : Turn occasion seat answer said after)
    (newer : seat.ledger.currentTerm < after.ledger.currentTerm) :
    after.ledger.position = seat.ledger.position := by
  rcases turn.position_kept_or_noted with kept | ⟨_, same⟩
  · exact kept
  · exact absurd same newer.ne'

/-- A request for votes names the position of the candidate. -/
theorem position_of_asks
    {term lastLogTerm lastLogIndex : Nat}
    (turn : Turn occasion seat answer said after)
    (asks : Request.vote term lastLogTerm lastLogIndex ∈ said) :
    toLex (lastLogTerm, lastLogIndex) = after.ledger.position := by
  have own (asks : Request.vote term lastLogTerm lastLogIndex = after.campaign) :
      toLex (lastLogTerm, lastLogIndex) = after.ledger.position := by
    obtain ⟨_, rfl, rfl⟩ := Request.vote.inj asks
    rfl
  cases turn with
  | asserted => simp [Seat.assertion] at asks
  | campaigned => exact own (List.mem_singleton.mp asks)
  | carried => exact own (by simpa [Seat.assertion] using asks)
  | won => simp [Seat.assertion] at asks
  | _ => cases asks

end Turn

/-! ## Votes with the position of the voter -/

/-- The step of a run in which a member cast its vote of a term for a candidate, with the states
before and after it.  The log of the voter does not move in this step. -/
structure CastBetween
    (history : List Assembly)
    (voter : NodeId)
    (term : Nat)
    (candidate : NodeId)
    (before after : Assembly) : Prop where
  successive : ∃ newer older, history = newer ++ after :: before :: older
  free : (before.members voter).ledger.currentTerm < term
  current : (after.members voter).ledger.currentTerm = term
  voted : (after.members voter).ledger.votedFor = some candidate
  still : (after.members voter).ledger.position = (before.members voter).ledger.position

/-- A member voted for a candidate when its own log reached a given position at most. -/
def Supported
    (history : List Assembly)
    (voter : NodeId)
    (term : Nat)
    (candidate : NodeId)
    (position : Nat ×ₗ Nat) : Prop :=
  ∃ before after, CastBetween history voter term candidate before after ∧
    (after.members voter).ledger.position ≤ position

/-- Different members, the candidate among them, that voted for it when none of their logs was more
recent than a given position. -/
structure Mandate
    (roster : Roster)
    (history : List Assembly)
    (votes : List NodeId)
    (term : Nat)
    (candidate : NodeId)
    (position : Nat ×ₗ Nat) : Prop where
  distinct : votes.Nodup
  enrolled : votes ⊆ roster.ids
  own : candidate ∈ votes
  supported : ∀ voter ∈ votes, Supported history voter term candidate position

section Histories

variable
    {roster : Roster}
    {history : List Assembly}
    {votes : List NodeId}
    {term : Nat}
    {voter candidate : NodeId}
    {position later : Nat ×ₗ Nat}

theorem Supported.cons
    (next : Assembly)
    (supported : Supported history voter term candidate position)
    (grown : position ≤ later) :
    Supported (next :: history) voter term candidate later := by
  obtain ⟨before, after, cast, reached⟩ := supported
  obtain ⟨newer, older, rfl⟩ := cast.successive
  exact ⟨before, after, { cast with successive := ⟨next :: newer, older, rfl⟩ },
    reached.trans grown⟩

theorem Mandate.cons
    (next : Assembly)
    (mandate : Mandate roster history votes term candidate position)
    (grown : position ≤ later) :
    Mandate roster (next :: history) votes term candidate later :=
  { mandate with
    supported := fun voter listed => (mandate.supported voter listed).cons next grown }

theorem Mandate.insert
    (mandate : Mandate roster history votes term candidate position)
    (enrolled : voter ∈ roster.ids)
    (supported : Supported history voter term candidate position) :
    Mandate roster history (votes.insert voter) term candidate position where
  distinct := mandate.distinct.insert
  enrolled := by
    intro id listed
    rcases List.mem_insert_iff.mp listed with rfl | old
    · exact enrolled
    · exact mandate.enrolled old
  own := List.mem_insert_of_mem mandate.own
  supported := by
    intro id listed
    rcases List.mem_insert_iff.mp listed with rfl | old
    · exact supported
    · exact mandate.supported id old

theorem Mandate.single
    (enrolled : candidate ∈ roster.ids)
    (supported : Supported history candidate term candidate position) :
    Mandate roster history [candidate] term candidate position where
  distinct := List.nodup_singleton candidate
  enrolled := by simpa using enrolled
  own := List.mem_singleton_self candidate
  supported := by
    intro id listed
    rwa [List.mem_singleton.mp listed]

end Histories

/-! ## The invariant of a run -/

/-- How requests for votes, granted votes and counted votes relate to the log of the candidate. -/
structure Mandates (roster : Roster) (now : Assembly) (past : List Assembly) : Prop where
  requested : ∀ candidate voter term lastLogTerm lastLogIndex,
    ⟨candidate, voter, .request (.vote term lastLogTerm lastLogIndex)⟩ ∈ now.sent →
      toLex (lastLogTerm, lastLogIndex) ≤ (now.members candidate).ledger.position
  granted : ∀ voter candidate term,
    ⟨voter, candidate, .response (.vote term true)⟩ ∈ now.sent →
      voter ∈ roster.ids ∧
        Supported (now :: past) voter term candidate (now.members candidate).ledger.position
  counted : ∀ id ∈ roster.ids, ∀ votes, (now.members id).standing = .candidate votes →
    Mandate roster (now :: past) votes (now.members id).ledger.currentTerm id
      (now.members id).ledger.position

namespace Assembly.Acts

variable
    {roster : Roster}
    {now next : Assembly}
    {past : List Assembly}
    {actor : NodeId}
    {occasion : Occasion}
    {answer : Except Failure (Option Response)}
    {said : List Request}

/-- No step takes the position of any log back. -/
theorem position_le
    (acts : Assembly.Acts roster now next actor occasion answer said)
    (id : NodeId) :
    (now.members id).ledger.position ≤ (next.members id).ledger.position := by
  by_cases acting : id = actor
  · subst acting
    exact acts.turn.position_le
  · rw [acts.others id acting]

/-- A member that votes in a newer term casts its vote in this very step. -/
theorem castBetween
    {candidate : NodeId}
    (acts : Assembly.Acts roster now next actor occasion answer said)
    (newer : (now.members actor).ledger.currentTerm < (next.members actor).ledger.currentTerm)
    (voted : (next.members actor).ledger.votedFor = some candidate) :
    CastBetween (next :: now :: past) actor (next.members actor).ledger.currentTerm candidate
      now next where
  successive := ⟨[], past, rfl⟩
  free := newer
  current := rfl
  voted := voted
  still := acts.turn.position_eq_of_newer newer

/-- A member that votes for itself in a newer term has its own support. -/
theorem supported_self
    (acts : Assembly.Acts roster now next actor occasion answer said)
    (newer : (now.members actor).ledger.currentTerm < (next.members actor).ledger.currentTerm)
    (voted : (next.members actor).ledger.votedFor = some actor) :
    Supported (next :: now :: past) actor (next.members actor).ledger.currentTerm actor
      (next.members actor).ledger.position :=
  ⟨now, next, acts.castBetween newer voted, le_rfl⟩

end Assembly.Acts

namespace Mandates

variable
    {roster : Roster}
    {now next : Assembly}
    {past : List Assembly}
    {actor : NodeId}
    {occasion : Occasion}
    {answer : Except Failure (Option Response)}
    {said : List Request}

theorem of_begins (begins : now.Begins roster) : Mandates roster now [] where
  requested := by
    intro candidate voter term lastLogTerm lastLogIndex sent
    simp [begins.sent] at sent
  granted := by
    intro voter candidate term sent
    simp [begins.sent] at sent
  counted := by
    intro id enrolled votes candidate
    obtain ⟨clockMs, made⟩ := begins.members id enrolled
    simp [made, Member.ofConfig] at candidate

theorem requested_step
    (mandates : Mandates roster now past)
    (acts : Assembly.Acts roster now next actor occasion answer said)
    {candidate voter : NodeId}
    {term lastLogTerm lastLogIndex : Nat}
    (sent : ⟨candidate, voter, .request (.vote term lastLogTerm lastLogIndex)⟩ ∈ next.sent) :
    toLex (lastLogTerm, lastLogIndex) ≤ (next.members candidate).ledger.position := by
  rcases acts.adds _ sent with old | ⟨peer, _, _, request, asks, same⟩ | ⟨_, _, _, _, _, same⟩
  · exact (mandates.requested _ _ _ _ _ old).trans (acts.position_le candidate)
  · simp only [Dispatch.mk.injEq, Message.request.injEq] at same
    obtain ⟨rfl, _, rfl⟩ := same
    exact (acts.turn.position_of_asks asks).le
  · simp at same

/-- A vote is granted to a candidate whose log is as recent as the voter's, and stays so. -/
theorem granted_step
    (mandates : Mandates roster now past)
    (acts : Assembly.Acts roster now next actor occasion answer said)
    {voter candidate : NodeId}
    {term : Nat}
    (sent : ⟨voter, candidate, .response (.vote term true)⟩ ∈ next.sent) :
    voter ∈ roster.ids ∧
      Supported (next :: now :: past) voter term candidate
        (next.members candidate).ledger.position := by
  rcases acts.adds _ sent with old | ⟨_, _, _, _, _, same⟩ |
    ⟨asker, request, response, asked, answered, same⟩
  · obtain ⟨enrolled, supported⟩ := mandates.granted voter candidate term old
    exact ⟨enrolled, supported.cons next (acts.position_le candidate)⟩
  · simp at same
  · simp only [Dispatch.mk.injEq, Message.response.injEq] at same
    obtain ⟨rfl, rfl, rfl⟩ := same
    obtain ⟨asker, lastLogTerm, lastLogIndex, asked', newer, recent, becomes⟩ :=
      acts.turn.grant answered
    obtain ⟨rfl, rfl⟩ := Occasion.request.inj (asked.symm.trans asked')
    have allowed := acts.allowed
    rw [asked] at allowed
    have votes : (next.members voter).ledger.currentTerm = term ∧
        (next.members voter).ledger.votedFor = some candidate := by
      change (next.members voter).seat.ledger.currentTerm = term ∧
        (next.members voter).seat.ledger.votedFor = some candidate
      rw [becomes, Ledger.advanceTerm_of_lt newer, Ledger.voteFor_of_free rfl]
      exact ⟨rfl, rfl⟩
    obtain ⟨rfl, voted⟩ := votes
    have cast : CastBetween (next :: now :: past) voter (next.members voter).ledger.currentTerm
        candidate now next := acts.castBetween newer voted
    refine ⟨acts.enrolled, now, next, cast, ?_⟩
    calc (next.members voter).ledger.position
        = (now.members voter).ledger.position := cast.still
      _ ≤ toLex (lastLogTerm, lastLogIndex) := Ledger.isUpToDate_iff.mp recent
      _ ≤ (now.members candidate).ledger.position :=
          mandates.requested candidate voter _ lastLogTerm lastLogIndex allowed
      _ ≤ (next.members candidate).ledger.position := acts.position_le candidate

/-- Counting a granted vote adds its support to that of the votes counted before. -/
theorem counted_insert
    (mandates : Mandates roster now past)
    (acts : Assembly.Acts roster now next actor occasion answer said)
    {sender : NodeId}
    {votes : List NodeId}
    (answers : occasion = .response sender (.vote (now.members actor).ledger.currentTerm true))
    (held : (now.members actor).standing = .candidate votes) :
    Mandate roster (next :: now :: past) (votes.insert sender)
      (now.members actor).ledger.currentTerm actor (next.members actor).ledger.position := by
  have allowed := acts.allowed
  rw [answers] at allowed
  obtain ⟨enrolled, supported⟩ := mandates.granted sender actor _ allowed
  exact ((mandates.counted actor acts.enrolled votes held).insert enrolled supported).cons next
    (acts.position_le actor)

theorem counted_step
    (mandates : Mandates roster now past)
    (acts : Assembly.Acts roster now next actor occasion answer said)
    (named : (now.members actor).id = actor)
    {votes : List NodeId}
    (candidate : (next.members actor).standing = .candidate votes) :
    Mandate roster (next :: now :: past) votes (next.members actor).ledger.currentTerm actor
      (next.members actor).ledger.position := by
  have self : (now.members actor).seat.id = actor := named
  rcases acts.turn.candidacy candidate with ⟨held, same⟩ | ⟨rfl, newer, voted⟩ |
    ⟨sender, earlier, answers, held, rfl, same⟩
  · have term : (next.members actor).ledger.currentTerm = (now.members actor).ledger.currentTerm :=
      same
    rw [term]
    exact (mandates.counted actor acts.enrolled votes held).cons next (acts.position_le actor)
  · rw [self] at voted ⊢
    exact .single acts.enrolled (acts.supported_self newer voted)
  · have term : (next.members actor).ledger.currentTerm = (now.members actor).ledger.currentTerm :=
      same
    rw [term]
    exact mandates.counted_insert acts answers held

theorem step
    (mandates : Mandates roster now past)
    (acts : Assembly.Acts roster now next actor occasion answer said)
    (named : (now.members actor).id = actor) :
    Mandates roster next (now :: past) where
  requested := fun _ _ _ _ _ sent => mandates.requested_step acts sent
  granted := fun _ _ _ sent => mandates.granted_step acts sent
  counted := by
    intro id enrolled votes candidate
    by_cases acting : id = actor
    · subst acting
      exact mandates.counted_step acts named candidate
    · rw [acts.others id acting] at candidate ⊢
      exact (mandates.counted id enrolled votes candidate).cons next le_rfl

/-- A member that begins to lead has a mandate of a quorum. -/
theorem won_step
    (mandates : Mandates roster now past)
    (acts : Assembly.Acts roster now next actor occasion answer said)
    (named : (now.members actor).id = actor)
    (leads : (next.members actor).seat.leads)
    (fresh : ¬ now.Leads actor (next.members actor).ledger.currentTerm) :
    ∃ votes,
      Mandate roster (next :: now :: past) votes (next.members actor).ledger.currentTerm actor
        (next.members actor).ledger.position ∧
      (next.members actor).ledger.quorum ≤ votes.length := by
  have self : (now.members actor).seat.id = actor := named
  have size : (next.members actor).ledger.quorum = (now.members actor).ledger.quorum :=
    Ledger.quorum_eq_of_membershipSize acts.turn.membershipSize_eq
  rcases acts.turn.leadership leads with ⟨led, same⟩ | ⟨newer, voted, alone⟩ |
    ⟨sender, votes, answers, held, enough, same⟩
  · exact absurd ⟨led, same.symm⟩ fresh
  · rw [self] at voted
    exact ⟨[actor], .single acts.enrolled (acts.supported_self newer voted), alone⟩
  · have term : (next.members actor).ledger.currentTerm = (now.members actor).ledger.currentTerm :=
      same
    rw [term, size]
    exact ⟨votes.insert sender, mandates.counted_insert acts answers held, enough⟩

end Mandates

namespace Chronicle

variable
    {roster : Roster}
    {now next : Assembly}
    {past : List Assembly}

theorem mandates (run : Chronicle roster (now :: past)) : Mandates roster now past := by
  generalize same : now :: past = history at run
  induction run generalizing now past with
  | begun begins =>
    obtain ⟨rfl, rfl⟩ := List.cons.inj same
    exact .of_begins begins
  | @step before after earlier run step ih =>
    obtain ⟨rfl, rfl⟩ := List.cons.inj same
    obtain ⟨actor, occasion, answer, said, acts⟩ := step.acts
    exact (ih rfl).step acts (run.ballots.named actor acts.enrolled)

/-- Whoever begins to lead a term has the votes of a quorum, itself included, and each of these
members had a log that was no more recent than the new leader's is now when it cast its vote. -/
theorem elected_up_to_date
    {id : NodeId}
    {term : Nat}
    (run : Chronicle roster (next :: now :: past))
    (leads : next.Leads id term)
    (fresh : ¬ now.Leads id term) :
    ∃ votes,
      Mandate roster (next :: now :: past) votes term id (next.members id).ledger.position ∧
        (next.members id).ledger.quorum ≤ votes.length := by
  obtain ⟨leading, rfl⟩ := leads
  cases run with
  | step run step =>
    obtain ⟨actor, occasion, answer, said, acts⟩ := step.acts
    have acting : id = actor := by
      apply Classical.byContradiction
      intro other
      rw [acts.others id other] at leading fresh
      exact fresh ⟨leading, rfl⟩
    subst acting
    exact run.mandates.won_step acts (run.ballots.named id acts.enrolled) leading fresh

end Chronicle

namespace Overtaken

/-! ### A voter whose log moves on

Member `1` of the trio votes for member `3` with a log that is older than the one named in the
request.  Its log overtakes that of member `3` before the vote is counted. -/

open Trio

def noted : Assembly := Trio.begun.after "1" (.recordLog 0 3) {} calm

def preparing : Assembly := noted.after "3" (.recordLog 1 5) {} calm

def asking : Assembly := preparing.after "3" (.timer .electionTimeout) (linkedTo "1" 0) calm

def voting : Assembly := asking.after "1" (.request "3" (.vote 1 1 5)) (linkedTo "3" 1) calm

def overtaking : Assembly := voting.after "1" (.recordLog 9 9) {} calm

def leading : Assembly := overtaking.after "3" (.response "1" (.vote 1 true)) (linkedTo "1" 0) calm

def past : List Assembly := [voting, asking, preparing, noted, Trio.begun]

theorem chronicle : Chronicle roster (leading :: overtaking :: past) := by
  have begins : Trio.begun.Begins roster := ⟨fun id _ => ⟨0, rfl⟩, rfl⟩
  have notes : Assembly.Step roster Trio.begun noted := .act (by decide) trivial (by decide) rfl
  have prepares : Assembly.Step roster noted preparing := .act (by decide) trivial (by decide) rfl
  have asks : Assembly.Step roster preparing asking := .act (by decide) trivial (by decide) rfl
  have votes : Assembly.Step roster asking voting := .act (by decide) (by decide) (by decide) rfl
  have overtakes : Assembly.Step roster voting overtaking :=
    .act (by decide) trivial (by decide) rfl
  have wins : Assembly.Step roster overtaking leading :=
    .act (by decide) (by decide) (by decide) rfl
  exact ((((((Chronicle.begun begins).step notes).step prepares).step asks).step votes).step
    overtakes).step wins

end Overtaken

open Overtaken in
/-- Member `3` is elected by a member whose log is the more recent one by then. -/
theorem Chronicle.elected_up_to_date_overtaken :
    leading.Leads "3" 1 ∧ ¬ overtaking.Leads "3" 1 ∧
      (leading.members "3").ledger.position < (leading.members "1").ledger.position ∧
      ∃ votes,
        Mandate Trio.roster (leading :: overtaking :: past) votes 1 "3"
            (leading.members "3").ledger.position ∧
          (leading.members "3").ledger.quorum ≤ votes.length := by
  have leads : leading.Leads "3" 1 := by decide
  have fresh : ¬ overtaking.Leads "3" 1 := by decide
  exact ⟨leads, fresh, Prod.Lex.toLex_lt_toLex.mpr (by decide),
    Overtaken.chronicle.elected_up_to_date leads fresh⟩

end Quorum
