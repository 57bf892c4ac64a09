import Quorum.Config.Node

/-!
# The ledger of a member

Term, vote, known leader and log positions. The vote and the leader belong to the current term and
are cleared when the term advances, so a member votes once in a term. The positions keep the order
`lastAppliedIndex ≤ lastCommittedIndex ≤ lastLogIndex`.
-/

namespace Quorum

/-- Term, vote and log positions of one member. -/
structure Ledger where
  currentTerm : Nat := 0
  votedFor : Option NodeId := none
  leaderId : Option NodeId := none
  lastLogTerm : Nat := 0
  lastLogIndex : Nat := 0
  lastCommittedTerm : Nat := 0
  lastCommittedIndex : Nat := 0
  lastAppliedIndex : Nat := 0
  membershipSize : Nat := 1
  deriving DecidableEq, Repr, Inhabited

namespace Ledger

/-- The ledger of a member that has not taken part in anything yet. A cluster has one member at
least. -/
def ofSize (membershipSize : Nat) : Ledger := { membershipSize := max membershipSize 1 }

/-- The votes needed to win an election: more than half of the members. -/
def quorum (ledger : Ledger) : Nat := ledger.membershipSize / 2 + 1

/-- Whether a term is newer than the current one. -/
def isNewer (ledger : Ledger) (term : Nat) : Bool := decide (ledger.currentTerm < term)

/-- Move to a newer term, forgetting vote and leader. An older or equal term changes nothing. -/
def advanceTerm (ledger : Ledger) (term : Nat) : Ledger :=
  if ledger.currentTerm < term then
    { ledger with currentTerm := term, votedFor := none, leaderId := none }
  else
    ledger

/-- Begin the next term, as a candidate does. There is none after the last word. -/
def nextTerm (ledger : Ledger) : Except Fault Ledger := do
  return ledger.advanceTerm (← Word.add ledger.currentTerm 1)

/-- Whether the vote of the current term is still free, or went to this candidate already. -/
def canVoteFor (ledger : Ledger) (candidate : NodeId) : Bool :=
  match ledger.votedFor with
  | none => true
  | some chosen => decide (chosen = candidate)

/-- Vote in the current term. A vote that went to someone else stays there. -/
def voteFor (ledger : Ledger) (candidate : NodeId) : Ledger :=
  if ledger.canVoteFor candidate then { ledger with votedFor := some candidate } else ledger

def setLeader (ledger : Ledger) (leader : Option NodeId) : Ledger :=
  { ledger with leaderId := leader }

/-- Whether a log that ends at the given position is at least as recent as this one: by the term of
its last entry first, then by its length. -/
def isUpToDate (ledger : Ledger) (lastLogTerm lastLogIndex : Nat) : Bool :=
  if lastLogTerm = ledger.lastLogTerm then decide (ledger.lastLogIndex ≤ lastLogIndex)
  else decide (ledger.lastLogTerm < lastLogTerm)

/-- Note the position of the newest log entry. A position that is no newer is ignored. -/
def recordLog (ledger : Ledger) (term index : Nat) : Ledger :=
  if ledger.lastLogTerm < term ∨ (ledger.lastLogTerm = term ∧ ledger.lastLogIndex < index) then
    { ledger with lastLogTerm := term, lastLogIndex := index }
  else
    ledger

/-- Note a commit, as far as the log reaches. It never moves backwards. -/
def recordCommit (ledger : Ledger) (term index : Nat) : Ledger :=
  let reached := min index ledger.lastLogIndex
  if ledger.lastCommittedIndex < reached then
    { ledger with
      lastCommittedTerm := min term ledger.lastLogTerm
      lastCommittedIndex := reached }
  else
    ledger

/-- Note what has been applied, as far as it is committed. It never moves backwards. -/
def recordApplied (ledger : Ledger) (index : Nat) : Ledger :=
  let reached := min index ledger.lastCommittedIndex
  if ledger.lastAppliedIndex < reached then { ledger with lastAppliedIndex := reached } else ledger

theorem advanceTerm_of_lt {ledger : Ledger} {term : Nat} (newer : ledger.currentTerm < term) :
    ledger.advanceTerm term =
      { ledger with currentTerm := term, votedFor := none, leaderId := none } := by
  simp [advanceTerm, newer]

theorem advanceTerm_of_le {ledger : Ledger} {term : Nat} (older : term ≤ ledger.currentTerm) :
    ledger.advanceTerm term = ledger := by
  simp [advanceTerm, Nat.not_lt.mpr older]

theorem nextTerm_eq_ok_iff {ledger next : Ledger} :
    ledger.nextTerm = .ok next ↔
      ledger.currentTerm + 1 < Word.limit ∧ next = ledger.advanceTerm (ledger.currentTerm + 1) := by
  by_cases fits : ledger.currentTerm + 1 < Word.limit
  · simp [nextTerm, Word.add, fits, bind, Except.bind, pure, Except.pure, eq_comm]
  · simp [nextTerm, Word.add, fits, bind, Except.bind]

theorem voteFor_of_free {ledger : Ledger} {candidate : NodeId} (free : ledger.votedFor = none) :
    ledger.voteFor candidate = { ledger with votedFor := some candidate } := by
  simp [voteFor, canVoteFor, free]

@[simp]
theorem membershipSize_advanceTerm (ledger : Ledger) (term : Nat) :
    (ledger.advanceTerm term).membershipSize = ledger.membershipSize := by
  unfold advanceTerm
  split <;> rfl

@[simp]
theorem membershipSize_voteFor (ledger : Ledger) (candidate : NodeId) :
    (ledger.voteFor candidate).membershipSize = ledger.membershipSize := by
  unfold voteFor
  split <;> rfl

@[simp]
theorem membershipSize_setLeader (ledger : Ledger) (leader : Option NodeId) :
    (ledger.setLeader leader).membershipSize = ledger.membershipSize := rfl

@[simp]
theorem membershipSize_recordLog (ledger : Ledger) (term index : Nat) :
    (ledger.recordLog term index).membershipSize = ledger.membershipSize := by
  unfold recordLog
  split <;> rfl

@[simp]
theorem currentTerm_advanceTerm (ledger : Ledger) (term : Nat) :
    (ledger.advanceTerm term).currentTerm = max ledger.currentTerm term := by
  unfold advanceTerm
  split
  · next newer => exact (Nat.max_eq_right (Nat.le_of_lt newer)).symm
  · next older => exact (Nat.max_eq_left (Nat.not_lt.mp older)).symm

@[simp]
theorem currentTerm_voteFor (ledger : Ledger) (candidate : NodeId) :
    (ledger.voteFor candidate).currentTerm = ledger.currentTerm := by
  unfold voteFor
  split <;> rfl

@[simp]
theorem currentTerm_setLeader (ledger : Ledger) (leader : Option NodeId) :
    (ledger.setLeader leader).currentTerm = ledger.currentTerm := rfl

@[simp]
theorem currentTerm_recordLog (ledger : Ledger) (term index : Nat) :
    (ledger.recordLog term index).currentTerm = ledger.currentTerm := by
  unfold recordLog
  split <;> rfl

theorem currentTerm_of_nextTerm {ledger next : Ledger} (begun : ledger.nextTerm = .ok next) :
    next.currentTerm = ledger.currentTerm + 1 := by
  obtain ⟨_, rfl⟩ := nextTerm_eq_ok_iff.mp begun
  rw [currentTerm_advanceTerm, Nat.max_eq_right (Nat.le_succ _)]

theorem quorum_eq_of_membershipSize {ledger other : Ledger}
    (same : ledger.membershipSize = other.membershipSize) : ledger.quorum = other.quorum := by
  rw [quorum, quorum, same]

end Ledger

end Quorum
