import Mathlib.Data.List.Induction
import Mathlib.Order.Nat
import Quorum.Election.Ledger

/-!
# The order of the log positions

Three positions are noted in a ledger: where the log ends, how far it is committed, and how far it
is applied.  The application follows the commit, and neither of the two ever moves back.

The commit does not always follow the log.  The end of the log is compared by the term before the
index, so an entry of a newer term becomes the end of the log wherever it lies, also before an entry
that is committed already.  A log that begins a new term in this way ends before the commit until it
has grown again, and nothing else brings it there (`Ledger.positions_in_order`).
-/

namespace Quorum

namespace Ledger

/-! ## What can be entered in a ledger -/

/-- One thing that is noted in a ledger. -/
inductive Record where
  | log (term index : Nat)
  | commit (term index : Nat)
  | application (index : Nat)
  | term (term : Nat)
  | nextTerm
  | vote (candidate : NodeId)
  | leader (leader : Option NodeId)
  deriving DecidableEq

/-- Enter a record.  Only the term after the last word cannot be entered. -/
def enter (ledger : Ledger) : Record → Except Fault Ledger
  | .log term index => .ok (ledger.recordLog term index)
  | .commit term index => .ok (ledger.recordCommit term index)
  | .application index => .ok (ledger.recordApplied index)
  | .term term => .ok (ledger.advanceTerm term)
  | .nextTerm => ledger.nextTerm
  | .vote candidate => .ok (ledger.voteFor candidate)
  | .leader leader => .ok (ledger.setLeader leader)

/-- Enter some records, one after the other. -/
def enterAll (ledger : Ledger) (records : List Record) : Except Fault Ledger :=
  records.foldlM enter ledger

variable {ledger after : Ledger} {record : Record} {records later : List Record}

theorem enterAll_cons_eq_ok_iff :
    ledger.enterAll (record :: records) = .ok after ↔
      ∃ next, ledger.enter record = .ok next ∧ next.enterAll records = .ok after := by
  rw [enterAll, List.foldlM_cons]
  exact bind_eq_ok_iff

theorem enterAll_concat_eq_ok_iff :
    ledger.enterAll (records ++ [record]) = .ok after ↔
      ∃ next, ledger.enterAll records = .ok next ∧ next.enter record = .ok after := by
  rw [enterAll, List.foldlM_append]
  simp only [List.foldlM_cons, List.foldlM_nil, bind_pure]
  exact bind_eq_ok_iff

/-! ## What a record does to the positions -/

/-- The positions of a log: the term and the index of its last entry, and how far it is committed
and applied. -/
structure Positions where
  lastLogTerm : Nat
  lastLogIndex : Nat
  lastCommittedIndex : Nat
  lastAppliedIndex : Nat
  deriving DecidableEq

def positions (ledger : Ledger) : Positions where
  lastLogTerm := ledger.lastLogTerm
  lastLogIndex := ledger.lastLogIndex
  lastCommittedIndex := ledger.lastCommittedIndex
  lastAppliedIndex := ledger.lastAppliedIndex

/-- What a record may do to the positions.  The commit moves as far as the log reaches, and the
application as far as the commit, and both move forwards.  The end of the log moves to a newer
entry, and the term counts before the index. -/
inductive Shifts (before after : Positions) : Record → Prop where
  | kept (record : Record) (same : after = before) : Shifts before after record
  | ended (term index : Nat)
      (newer : before.lastLogTerm < term ∨
        (before.lastLogTerm = term ∧ before.lastLogIndex < index))
      (moved : after = { before with lastLogTerm := term, lastLogIndex := index }) :
      Shifts before after (.log term index)
  | committed (term index reached : Nat)
      (forwards : before.lastCommittedIndex < reached)
      (within : reached ≤ before.lastLogIndex)
      (moved : after = { before with lastCommittedIndex := reached }) :
      Shifts before after (.commit term index)
  | applied (index reached : Nat)
      (forwards : before.lastAppliedIndex < reached)
      (within : reached ≤ before.lastCommittedIndex)
      (moved : after = { before with lastAppliedIndex := reached }) :
      Shifts before after (.application index)

@[simp]
theorem positions_advanceTerm (term : Nat) :
    (ledger.advanceTerm term).positions = ledger.positions := by
  unfold advanceTerm
  split <;> rfl

@[simp]
theorem positions_voteFor (candidate : NodeId) :
    (ledger.voteFor candidate).positions = ledger.positions := by
  unfold voteFor
  split <;> rfl

theorem shifts_recordLog (term index : Nat) :
    Shifts ledger.positions (ledger.recordLog term index).positions (.log term index) := by
  unfold recordLog
  split
  · next newer => exact .ended term index newer rfl
  · exact .kept _ rfl

theorem shifts_recordCommit (term index : Nat) :
    Shifts ledger.positions (ledger.recordCommit term index).positions (.commit term index) := by
  unfold recordCommit
  dsimp only
  split
  · next forwards => exact .committed term index _ forwards (Nat.min_le_right _ _) rfl
  · exact .kept _ rfl

theorem shifts_recordApplied (index : Nat) :
    Shifts ledger.positions (ledger.recordApplied index).positions (.application index) := by
  unfold recordApplied
  dsimp only
  split
  · next forwards => exact .applied index _ forwards (Nat.min_le_right _ _) rfl
  · exact .kept _ rfl

theorem enter_shifts (entered : ledger.enter record = .ok after) :
    Shifts ledger.positions after.positions record := by
  cases record with
  | log term index =>
    cases entered
    exact shifts_recordLog term index
  | commit term index =>
    cases entered
    exact shifts_recordCommit term index
  | application index =>
    cases entered
    exact shifts_recordApplied index
  | term term =>
    cases entered
    exact .kept _ (positions_advanceTerm term)
  | nextTerm =>
    obtain ⟨_, rfl⟩ := nextTerm_eq_ok_iff.mp entered
    exact .kept _ (positions_advanceTerm _)
  | vote candidate =>
    cases entered
    exact .kept _ (positions_voteFor candidate)
  | leader leader =>
    cases entered
    exact .kept _ rfl

namespace Shifts

variable {before after : Positions} {record : Record}

theorem committed_le (shifts : Shifts before after record) :
    before.lastCommittedIndex ≤ after.lastCommittedIndex := by
  cases shifts with
  | kept _ same => exact same ▸ le_rfl
  | ended _ _ _ moved => exact moved ▸ le_rfl
  | committed _ _ _ forwards _ moved => exact moved ▸ forwards.le
  | applied _ _ _ _ moved => exact moved ▸ le_rfl

theorem applied_le (shifts : Shifts before after record) :
    before.lastAppliedIndex ≤ after.lastAppliedIndex := by
  cases shifts with
  | kept _ same => exact same ▸ le_rfl
  | ended _ _ _ moved => exact moved ▸ le_rfl
  | committed _ _ _ _ _ moved => exact moved ▸ le_rfl
  | applied _ _ forwards _ moved => exact moved ▸ forwards.le

theorem applied_within
    (shifts : Shifts before after record)
    (follows : before.lastAppliedIndex ≤ before.lastCommittedIndex) :
    after.lastAppliedIndex ≤ after.lastCommittedIndex := by
  cases shifts with
  | kept _ same => exact same ▸ follows
  | ended _ _ _ moved => exact moved ▸ follows
  | committed _ _ _ forwards _ moved => exact moved ▸ follows.trans forwards.le
  | applied _ _ _ within moved => exact moved ▸ within

/-- A log ends before its commit only if it did so before, in the same term and without having grown
past the commit, or if it has just begun a new term there. -/
theorem cut
    (shifts : Shifts before after record)
    (short : after.lastLogIndex < after.lastCommittedIndex) :
    after.lastCommittedIndex = before.lastCommittedIndex ∧
      ((before.lastLogIndex < before.lastCommittedIndex ∧
          before.lastLogTerm = after.lastLogTerm) ∨
        ∃ index, record = .log after.lastLogTerm index ∧
          before.lastLogTerm < after.lastLogTerm) := by
  cases shifts with
  | kept _ same =>
    subst same
    exact ⟨rfl, .inl ⟨short, rfl⟩⟩
  | ended term index newer moved =>
    subst moved
    refine ⟨rfl, ?_⟩
    rcases newer with newer | ⟨sameTerm, longer⟩
    · exact .inr ⟨index, rfl, newer⟩
    · exact .inl ⟨longer.trans short, sameTerm⟩
  | committed _ _ _ _ within moved =>
    subst moved
    exact absurd short within.not_gt
  | applied _ _ _ _ moved =>
    subst moved
    exact ⟨rfl, .inl ⟨short, rfl⟩⟩

end Shifts

/-! ## What many records do -/

/-- Commit and application only move forwards. -/
theorem enterAll_forwards (entered : ledger.enterAll records = .ok after) :
    ledger.lastCommittedIndex ≤ after.lastCommittedIndex ∧
      ledger.lastAppliedIndex ≤ after.lastAppliedIndex := by
  induction records generalizing ledger with
  | nil =>
    cases entered
    exact ⟨le_rfl, le_rfl⟩
  | cons record records ih =>
    obtain ⟨next, first, rest⟩ := enterAll_cons_eq_ok_iff.mp entered
    have shifts := enter_shifts first
    exact ⟨shifts.committed_le.trans (ih rest).1, shifts.applied_le.trans (ih rest).2⟩

theorem enterAll_applied_within
    (entered : ledger.enterAll records = .ok after)
    (follows : ledger.lastAppliedIndex ≤ ledger.lastCommittedIndex) :
    after.lastAppliedIndex ≤ after.lastCommittedIndex := by
  induction records generalizing ledger with
  | nil =>
    cases entered
    exact follows
  | cons record records ih =>
    obtain ⟨next, first, rest⟩ := enterAll_cons_eq_ok_iff.mp entered
    exact ih rest ((enter_shifts first).applied_within follows)

/-- The log of a ledger came to its present term with one of the records, and replaced the log of
another ledger, which was of an older term. -/
def Replaces (start ledger : Ledger) (records : List Record) (replaced : Ledger) : Prop :=
  ∃ earlier index later,
    records = earlier ++ .log ledger.lastLogTerm index :: later ∧
      start.enterAll earlier = .ok replaced ∧ replaced.lastLogTerm < ledger.lastLogTerm

/-- A log that ends before the commit has replaced one that was committed as far already. -/
theorem exists_replaced_of_short
    (follows : ledger.lastCommittedIndex ≤ ledger.lastLogIndex)
    (entered : ledger.enterAll records = .ok after)
    (short : after.lastLogIndex < after.lastCommittedIndex) :
    ∃ replaced, Replaces ledger after records replaced ∧
      replaced.lastCommittedIndex = after.lastCommittedIndex := by
  induction records using List.reverseRecOn generalizing after with
  | nil =>
    cases entered
    exact absurd short follows.not_gt
  | append_singleton records record ih =>
    obtain ⟨next, first, last⟩ := enterAll_concat_eq_ok_iff.mp entered
    obtain ⟨committed_eq, ⟨shortBefore, sameTerm⟩ | ⟨index, rfl, older⟩⟩ :=
      (enter_shifts last).cut short
    · have term_eq : next.lastLogTerm = after.lastLogTerm := sameTerm
      obtain ⟨replaced, ⟨earlier, index, later, rfl, reached, older⟩, same⟩ := ih first shortBefore
      rw [term_eq] at older ⊢
      exact ⟨replaced, ⟨earlier, index, later ++ [record], by simp, reached, older⟩,
        same.trans committed_eq.symm⟩
    · exact ⟨next, ⟨records, index, [], rfl, first, older⟩, committed_eq.symm⟩

/-- Whatever is entered in the ledger of a new member: what is applied is committed, and commit and
application never move back.  The log ends before the commit exactly if it has replaced one of an
older term, of which more was committed than it holds itself. -/
theorem positions_in_order
    {membershipSize : Nat}
    (reached : (ofSize membershipSize).enterAll records = .ok ledger)
    (continued : ledger.enterAll later = .ok after) :
    ledger.lastAppliedIndex ≤ ledger.lastCommittedIndex ∧
      (ledger.lastLogIndex < ledger.lastCommittedIndex ↔
        ∃ replaced, Replaces (ofSize membershipSize) ledger records replaced ∧
          ledger.lastLogIndex < replaced.lastCommittedIndex) ∧
      ledger.lastCommittedIndex ≤ after.lastCommittedIndex ∧
      ledger.lastAppliedIndex ≤ after.lastAppliedIndex := by
  refine ⟨enterAll_applied_within reached le_rfl, ⟨fun short => ?_, ?_⟩,
    enterAll_forwards continued⟩
  · obtain ⟨replaced, replaces, same⟩ := exists_replaced_of_short le_rfl reached short
    exact ⟨replaced, replaces, same ▸ short⟩
  · rintro ⟨replaced, ⟨earlier, index, rest, rfl, before, -⟩, short⟩
    rw [enterAll, List.foldlM_append] at reached
    obtain ⟨_, again, onward⟩ := bind_eq_ok_iff.mp reached
    obtain rfl := Except.ok.inj (before.symm.trans again)
    exact short.trans_le (enterAll_forwards onward).1

end Ledger

/-! ## A log that is replaced -/

namespace Replaced

/-- Five entries of the first term, all committed and applied, and then a third entry of the second
term. -/
def records : List Ledger.Record := [.log 1 5, .commit 1 5, .application 5, .log 2 3]

def ledger : Ledger where
  lastLogTerm := 2
  lastLogIndex := 3
  lastCommittedTerm := 1
  lastCommittedIndex := 5
  lastAppliedIndex := 5
  membershipSize := 3

def regrown : Ledger :=
  { ledger with lastLogIndex := 6, lastCommittedTerm := 2, lastCommittedIndex := 6 }

theorem reached : (Ledger.ofSize 3).enterAll records = .ok ledger := rfl

theorem continued : ledger.enterAll [.log 2 6, .commit 2 9] = .ok regrown := rfl

end Replaced

open Replaced in
theorem Ledger.positions_in_order_replaced :
    ((Ledger.ofSize 3).enterAll records = .ok ledger ∧
        ledger.enterAll [.log 2 6, .commit 2 9] = .ok regrown) ∧
      (∃ replaced, Ledger.Replaces (Ledger.ofSize 3) ledger records replaced ∧
        ledger.lastLogIndex < replaced.lastCommittedIndex) ∧
      5 ≤ regrown.lastCommittedIndex := by
  obtain ⟨-, cut, forwards, -⟩ := Ledger.positions_in_order reached continued
  exact ⟨⟨reached, continued⟩, cut.mp (by decide), forwards⟩

open Replaced in
/-- What is committed does not stay behind the log. -/
theorem Ledger.commit_overtakes_log :
    ∃ (size : Nat) (records : List Ledger.Record) (ledger : Ledger),
      (Ledger.ofSize size).enterAll records = .ok ledger ∧
        ¬ ledger.lastCommittedIndex ≤ ledger.lastLogIndex :=
  ⟨3, records, ledger, reached, by decide⟩

end Quorum
