import Mathlib.Data.List.Dedup
import Quorum.Proofs.Election.Career

/-!
# The accounts of a member

The role of a member, its vote, the leader that it knows and the votes that it has counted are kept
apart, and change in different places and in different orders.  Between two things that the member
meets they agree.  A candidate and a leader have voted for themselves, a candidate knows no leader
and a leader knows itself, and the votes that a candidate has counted are those of its `supporters`:
its own, and each that was granted by an answer in the present term after the candidacy had begun
(`Tenure.accounts`).

A candidate has always less than a quorum of supporters.  It takes over in the episode that makes
them a quorum, and in no other one.  What the supporters are is told by the episodes alone, not by
what the member has noted.
-/

namespace Quorum

open Act Member

/-! ## What a ledger says apart from the log -/

/-- Term, vote and leader, and how many members there are. -/
structure Office where
  currentTerm : Nat
  votedFor : Option NodeId
  leaderId : Option NodeId
  membershipSize : Nat
  deriving DecidableEq

namespace Ledger

variable {ledger other : Ledger}

def office (ledger : Ledger) : Office where
  currentTerm := ledger.currentTerm
  votedFor := ledger.votedFor
  leaderId := ledger.leaderId
  membershipSize := ledger.membershipSize

theorem quorum_eq_of_office (same : ledger.office = other.office) :
    ledger.quorum = other.quorum :=
  quorum_eq_of_membershipSize (congrArg Office.membershipSize same)

@[simp]
theorem office_recordLog (term index : Nat) :
    (ledger.recordLog term index).office = ledger.office := by
  unfold recordLog
  split <;> rfl

/-- What the log layer notes about entries that are there already. -/
inductive Notes (ledger : Ledger) : Ledger → Prop where
  | committed (term index : Nat) : Notes ledger (ledger.recordCommit term index)
  | applied (index : Nat) : Notes ledger (ledger.recordApplied index)

/-- The positions of the log are of no concern to the election. -/
theorem Notes.office_eq (notes : ledger.Notes other) : other.office = ledger.office := by
  cases notes with
  | committed term index =>
      unfold recordCommit
      dsimp only
      split <;> rfl
  | applied index =>
      unfold recordApplied
      dsimp only
      split <;> rfl

/-- A term that is begun knows no vote but one's own, and no leader. -/
theorem office_voteFor_nextTerm
    {next : Ledger}
    (actor : NodeId)
    (begun : ledger.nextTerm = .ok next) :
    (next.voteFor actor).votedFor = some actor ∧ (next.voteFor actor).leaderId = none ∧
      (next.voteFor actor).quorum = next.quorum := by
  obtain ⟨_, rfl⟩ := nextTerm_eq_ok_iff.mp begun
  rw [advanceTerm_of_lt (Nat.lt_succ_self _), voteFor_of_free rfl]
  exact ⟨rfl, rfl, rfl⟩

end Ledger

/-! ## What a turn that is answered does to the accounts -/

namespace Turn

variable
    {occasion : Occasion}
    {seat after : Seat}
    {reply : Option Response}
    {said : List Request}
    {votes : List NodeId}

/-- A candidate was one before, or has just begun a term in which its own vote is not enough, or has
counted one more vote and needs others. -/
theorem stands
    (turn : Turn occasion seat (.ok reply) said after)
    (candidate : after.standing = .candidate votes) :
    (seat.standing = .candidate votes ∧ after.ledger.office = seat.ledger.office) ∨
      (votes = [seat.id] ∧ seat.ledger.currentTerm < after.ledger.currentTerm ∧
        after.ledger.votedFor = some seat.id ∧ after.ledger.leaderId = none ∧
        1 < after.ledger.quorum) ∨
      ∃ sender earlier,
        occasion = .response sender (.vote seat.ledger.currentTerm true) ∧
          seat.standing = .candidate earlier ∧ votes = earlier.insert sender ∧
          after.ledger = seat.ledger ∧ votes.length < seat.ledger.quorum := by
  have notYielded (standing : Standing) : standing.yielded ≠ .candidate votes := by
    cases standing <;> simp [Standing.yielded]
  cases turn with
  | unmoved => exact .inl ⟨candidate, rfl⟩
  | asserted => exact .inl ⟨candidate, rfl⟩
  | rested _ resting =>
    rcases resting with rfl | rfl <;> cases candidate
  | abdicated => cases candidate
  | adopted => exact absurd candidate (notYielded _)
  | granted => exact absurd candidate (notYielded _)
  | accepted => exact absurd candidate (notYielded _)
  | campaigned _ _ begun contested becomes =>
    subst becomes
    obtain rfl := Standing.candidate.inj candidate
    obtain ⟨voted, leaderless, quorum_eq⟩ := Ledger.office_voteFor_nextTerm seat.id begun
    have newer := (Ledger.voteFor_nextTerm _ seat.id begun).1
    refine .inr (.inl ⟨rfl, newer, voted, leaderless, ?_⟩)
    rw [quorum_eq]
    exact contested ⟨reply, rfl⟩
  | carried _ _ _ _ becomes =>
    rw [becomes] at candidate
    cases candidate
  | @counted sender _ _ term earlier _ held current short =>
    obtain rfl := Standing.candidate.inj candidate
    refine .inr (.inr ⟨sender, earlier, by rw [current], held, rfl, rfl, ?_⟩)
    exact short ⟨reply, rfl⟩
  | won _ _ _ _ becomes =>
    rw [becomes] at candidate
    cases candidate
  | recorded => exact .inl ⟨candidate, Ledger.office_recordLog _ _⟩

/-- A leader was one before, or needs no vote but its own, or takes over with the vote that
completes a quorum. -/
theorem presides
    (turn : Turn occasion seat (.ok reply) said after)
    (leads : after.leads) :
    (seat.leads ∧ after.ledger.office = seat.ledger.office) ∨
      (occasion = .timer .electionTimeout ∧ ¬ seat.leads ∧ after.ledger.votedFor = some seat.id ∧
        after.ledger.leaderId = some seat.id ∧ after.ledger.quorum ≤ 1) ∨
      ∃ sender votes,
        occasion = .response sender (.vote seat.ledger.currentTerm true) ∧
          seat.standing = .candidate votes ∧
          seat.ledger.quorum ≤ (votes.insert sender).length ∧
          after.ledger = seat.ledger.setLeader (some seat.id) := by
  have notYielded (standing : Standing) : standing.yielded.role ≠ .leader := by
    cases standing <;> simp [Standing.yielded, Standing.role]
  cases turn with
  | unmoved => exact .inl ⟨leads, rfl⟩
  | asserted => exact .inl ⟨leads, rfl⟩
  | rested _ resting =>
    rcases resting with rfl | rfl <;> cases leads
  | abdicated => cases leads
  | adopted => exact absurd leads (notYielded _)
  | granted => exact absurd leads (notYielded _)
  | accepted => exact absurd leads (notYielded _)
  | campaigned _ _ _ _ becomes =>
    rw [becomes] at leads
    cases leads
  | carried _ leadsNot begun alone becomes =>
    subst becomes
    obtain ⟨voted, _, quorum_eq⟩ := Ledger.office_voteFor_nextTerm seat.id begun
    refine .inr (.inl ⟨rfl, leadsNot, voted, rfl, ?_⟩)
    exact Nat.le_trans (Nat.le_of_eq quorum_eq) alone
  | counted => cases leads
  | @won sender _ _ _ term votes _ _ held current enough becomes =>
    subst becomes
    exact .inr (.inr ⟨sender, votes, by rw [current], held, enough, rfl⟩)
  | recorded => exact .inl ⟨leads, Ledger.office_recordLog _ _⟩

end Turn

/-! ## The vote that completes a quorum -/

namespace Member

variable {stage : Stage Member} {registry : Registry}

theorem takeOver_leads :
    (takeOver registry).Ensures stage (fun _ after => after.own.role = .leader)
      fun _ _ => True := by
  refine (takeOver_shows registry (Shows.refl stage)).mono ?_ fun _ _ _ => trivial
  rintro _ after ⟨heartbeat, led, rfl, shown⟩
  exact congrArg (fun seat : Seat => seat.standing.role) shown.seat

/-- A vote that is granted in the current term is counted.  If it completes a quorum, it makes the
candidate the leader. -/
theorem onVoteResponse_counts
    {sender : NodeId}
    {votes : List NodeId}
    (candidate : stage.own.standing = .candidate votes) :
    (onVoteResponse registry sender stage.own.ledger.currentTerm true).Ensures stage
      (fun _ after =>
        if stage.own.ledger.quorum ≤ (votes.insert sender).length then after.own.role = .leader
        else after.own.standing = .candidate (votes.insert sender))
      fun _ _ => True := by
  have current : (stepDownIfNewer stage.own.ledger.currentTerm).Ensures stage
      (fun stepped after => stepped = false ∧ after = stage) fun _ _ => False := by
    have old : stage.own.ledger.isNewer stage.own.ledger.currentTerm = false := by
      simp [Ledger.isNewer]
    unfold stepDownIfNewer
    rw [ensures_bind, ensures_own, old]
    exact ⟨rfl, rfl⟩
  unfold onVoteResponse
  rw [ensures_bind]
  refine current.mono ?_ fun _ _ => False.elim
  rintro stepped after ⟨rfl, rfl⟩
  rw [if_neg (by simp), ensures_bind, ensures_own, candidate]
  dsimp only
  rw [if_pos ⟨rfl, rfl⟩, ensures_bind, ensures_modifyOwn]
  by_cases enough : after.own.ledger.quorum ≤ (votes.insert sender).length
  · simp only [if_pos enough]
    exact takeOver_leads
  · simp only [if_neg enough]
    exact rfl

/-- Where one vote is a quorum, a campaign is won at once. -/
theorem startElection_leads (alone : stage.own.ledger.quorum ≤ 1) :
    (startElection registry).Ensures stage (fun _ after => after.own.role = .leader)
      fun _ _ => True := by
  cases begun : stage.own.ledger.nextTerm with
  | error cause =>
    unfold startElection
    simp only [ensures_bind, ensures_own, begun, ensures_throw]
  | ok ledger =>
    have quorum_eq : ledger.quorum = stage.own.ledger.quorum := by
      obtain ⟨_, rfl⟩ := Ledger.nextTerm_eq_ok_iff.mp begun
      exact Ledger.quorum_eq_of_membershipSize (Ledger.membershipSize_advanceTerm _ _)
    refine startElection_ensures begun rfl ?_ fun _ _ _ => trivial
    intro armed _
    rw [if_pos (quorum_eq ▸ alone)]
    exact takeOver_leads

/-- The member takes over then as soon as its election timer fires. -/
theorem onElectionTimeout_leads
    (resting : stage.own.role ≠ .leader)
    (alone : stage.own.ledger.quorum ≤ 1) :
    (onElectionTimeout registry).Ensures stage (fun _ after => after.own.role = .leader)
      fun _ _ => True := by
  have leadsNot : stage.own.isLeader = false := decide_eq_false resting
  have campaigns : stage.own.canCampaign registry = true := by
    unfold Ledger.quorum at alone
    exact decide_eq_true (by omega)
  unfold onElectionTimeout
  rw [ensures_bind, ensures_own, leadsNot, if_neg Bool.false_ne_true, campaigns, if_pos rfl]
  exact startElection_leads alone

end Member

/-! ## Tenures -/

/-- What a member has met since it was made, the newest episode first, and the member now.  Every
handler has answered.  Beside the newest entry of the log, its layer may note commits. -/
inductive Tenure (config : NodeConfig) : List Episode → Member → Prop where
  | made
      {sinceMs : Nat} :
      Tenure config [] (Member.ofConfig config sinceMs)
  | met
      {episodes : List Episode} {member : Member} {occasion : Occasion}
      {registry : Registry} {outside : Outside} {reply : Option Response}
      (tenure : Tenure config episodes member)
      (answered : (member.meets occasion registry outside).answer = .ok reply) :
      Tenure config
        (member.meets occasion registry outside :: episodes)
        (member.meets occasion registry outside).after
  | noted
      {episodes : List Episode} {member : Member} {ledger : Ledger}
      (tenure : Tenure config episodes member)
      (notes : member.ledger.Notes ledger) :
      Tenure config episodes { member with ledger }

/-- The member is a candidate in a term. -/
def Member.standsIn (term : Nat) (member : Member) : Bool :=
  decide (member.role = .candidate ∧ member.ledger.currentTerm = term)

/-- What a member has met since it has stood for election in a term. -/
def candidacy (term : Nat) (episodes : List Episode) : List Episode :=
  episodes.takeWhile fun episode => episode.before.standsIn term

/-- Who grants its vote in a term by an answer, if the episode brings one. -/
def Episode.supporter? (term : Nat) (episode : Episode) : Option NodeId :=
  match episode.occasion with
  | .response sender (.vote answered true) => if answered = term then some sender else none
  | _ => none

/-- The members that have voted for a member in its present term: itself, and all that granted their
vote by an answer since it has stood for election in this term, each of them once. -/
def supporters (episodes : List Episode) (member : Member) : List NodeId :=
  (member.id :: (candidacy member.ledger.currentTerm episodes).filterMap
    (Episode.supporter? member.ledger.currentTerm)).dedup

/-- The supporters of a member become a quorum in an episode: those of a candidate were too few
before it and are enough with it, or the member is a quorum by itself and it is time for an
election. -/
inductive Episode.Completes (earlier : List Episode) (episode : Episode) : Prop where
  | counted
      (candidate : episode.before.role = .candidate)
      (short : (supporters earlier episode.before).length < episode.before.ledger.quorum)
      (enough :
        episode.before.ledger.quorum ≤ (supporters (episode :: earlier) episode.before).length)
  | alone
      (fired : episode.occasion = .timer .electionTimeout)
      (enough : episode.before.ledger.quorum ≤ 1)

/-- The books of a candidate. -/
structure Candidacy (episodes : List Episode) (now : Member) (votes : List NodeId) : Prop where
  voted : now.ledger.votedFor = some now.id
  leaderless : now.ledger.leaderId = none
  own : now.id ∈ votes
  distinct : votes.Nodup
  short : votes.length < now.ledger.quorum
  /-- Every other vote was granted by an answer in the present term since the candidacy has begun,
  and every vote that was granted so is there. -/
  counted : ∀ voter, voter ∈ votes ↔
    voter = now.id ∨ ∃ episode ∈ candidacy now.ledger.currentTerm episodes,
      episode.occasion = .response voter (.vote now.ledger.currentTerm true)

/-- How a leader has come to lead: by the votes of its supporters in the episode `takeover`.  Since
then it has met the episodes of `reign`. -/
structure Takeover
    (episodes : List Episode)
    (now : Member)
    (reign : List Episode)
    (takeover : Episode)
    (earlier : List Episode) : Prop where
  episodes_eq : episodes = reign ++ takeover :: earlier
  reigned : ∀ episode ∈ reign, episode.before.role = .leader
  rested : takeover.before.role ≠ .leader
  rose : takeover.after.role = .leader
  term_eq : takeover.after.ledger.currentTerm = now.ledger.currentTerm
  enough : now.ledger.quorum ≤ (supporters (takeover :: earlier) now).length

/-- The books of a leader. -/
structure Leadership (episodes : List Episode) (now : Member) : Prop where
  voted : now.ledger.votedFor = some now.id
  leads : now.ledger.leaderId = some now.id
  elected : ∃ reign takeover earlier, Takeover episodes now reign takeover earlier

/-- The role of a member agrees with its other books, and it takes over just when its supporters
become a quorum. -/
structure Accounts (episodes : List Episode) (now : Member) : Prop where
  candidate : ∀ votes, now.standing = .candidate votes → Candidacy episodes now votes
  leader : now.role = .leader → Leadership episodes now
  takeovers : ∀ episode earlier, episode :: earlier <:+ episodes →
    episode.before.role ≠ .leader →
      (episode.after.role = .leader ↔ episode.Completes earlier)

section Steps

variable
    {config : NodeConfig}
    {episodes : List Episode}
    {episode : Episode}
    {now next : Member}
    {votes earlier : List NodeId}
    {sender voter : NodeId}
    {term : Nat}
    {occasion : Occasion}
    {registry : Registry}
    {outside : Outside}
    {reply : Option Response}
    {said : List Request}

/-! ### Supporters -/

theorem Episode.supporter?_eq_some_iff :
    episode.supporter? term = some voter ↔ episode.occasion = .response voter (.vote term true) := by
  unfold Episode.supporter?
  split
  · next sender answered granted =>
    by_cases current : answered = term
    · simp [granted, current]
    · simp [granted, current]
  · next others => exact ⟨nofun, fun granted => absurd granted (others voter term)⟩

theorem nodup_supporters (episodes : List Episode) (member : Member) :
    (supporters episodes member).Nodup :=
  List.nodup_dedup _

theorem mem_supporters :
    voter ∈ supporters episodes now ↔
      voter = now.id ∨ ∃ episode ∈ candidacy now.ledger.currentTerm episodes,
        episode.occasion = .response voter (.vote now.ledger.currentTerm true) := by
  simp only [supporters, List.mem_dedup, List.mem_cons, List.mem_filterMap,
    Episode.supporter?_eq_some_iff]

theorem supporters_pos (episodes : List Episode) (member : Member) :
    0 < (supporters episodes member).length :=
  List.length_pos_of_mem (mem_supporters.mpr (.inl rfl))

/-- Only the id and the term of a member matter. -/
theorem supporters_congr
    (id_eq : next.id = now.id)
    (term_eq : next.ledger.currentTerm = now.ledger.currentTerm) :
    supporters episodes next = supporters episodes now := by
  unfold supporters
  rw [id_eq, term_eq]

theorem standsIn_of_candidate
    (candidate : now.standing = .candidate votes)
    (current : now.ledger.currentTerm = term) :
    now.standsIn term = true := by
  unfold Member.standsIn Member.role
  rw [candidate]
  exact decide_eq_true ⟨rfl, current⟩

theorem exists_votes_of_candidate (candidate : now.role = .candidate) :
    ∃ votes, now.standing = .candidate votes := by
  unfold Member.role at candidate
  cases held : now.standing with
  | candidate votes => exact ⟨votes, rfl⟩
  | follower | leader heartbeat | sync =>
    rw [held] at candidate
    cases candidate

theorem candidacy_cons (stands : episode.before.standsIn term = true) :
    candidacy term (episode :: episodes) = episode :: candidacy term episodes :=
  List.takeWhile_cons_of_pos stands

/-- Each episode of a candidacy can bring one supporter. -/
theorem mem_supporters_cons
    (stands : episode.before.standsIn now.ledger.currentTerm = true) :
    voter ∈ supporters (episode :: episodes) now ↔
      voter ∈ supporters episodes now ∨
        episode.occasion = .response voter (.vote now.ledger.currentTerm true) := by
  rw [mem_supporters, mem_supporters, candidacy_cons stands, List.exists_mem_cons_iff, or_assoc]
  exact or_congr_right or_comm

/-- A vote that is granted brings its sender. -/
theorem mem_supporters_granted
    (stands : episode.before.standsIn now.ledger.currentTerm = true)
    (granted : episode.occasion = .response sender (.vote now.ledger.currentTerm true)) :
    voter ∈ supporters (episode :: episodes) now ↔
      voter = sender ∨ voter ∈ supporters episodes now := by
  rw [mem_supporters_cons stands, granted, or_comm]
  refine or_congr_left ?_
  simp [eq_comm]

/-- Whatever grants no vote in the present term brings nobody. -/
theorem supporters_cons_of_none
    (stands : episode.before.standsIn now.ledger.currentTerm = true)
    (none : episode.supporter? now.ledger.currentTerm = none) :
    supporters (episode :: episodes) now = supporters episodes now := by
  unfold supporters
  rw [candidacy_cons stands, List.filterMap_cons_none none]

/-- Who has not stood for election in its term before has no supporter but itself. -/
theorem mem_supporters_of_newer
    (newer : episode.before.ledger.currentTerm < now.ledger.currentTerm) :
    voter ∈ supporters (episode :: episodes) now ↔ voter = now.id := by
  have begins : candidacy now.ledger.currentTerm (episode :: episodes) = [] := by
    apply List.takeWhile_cons_of_neg
    simp [Member.standsIn, Nat.ne_of_lt newer]
  rw [mem_supporters, begins]
  simp

/-- The supporters are counted by any list of them without repetition. -/
theorem length_supporters_of_mem_iff
    (distinct : votes.Nodup)
    (same : ∀ voter, voter ∈ votes ↔ voter ∈ supporters episodes now) :
    (supporters episodes now).length = votes.length :=
  ((List.perm_ext_iff_of_nodup (nodup_supporters _ _) distinct).mpr fun voter =>
    (same voter).symm).length_eq

/-- The votes of a candidate are those of its supporters. -/
theorem Candidacy.mem_iff (candidacy : Candidacy episodes now votes) :
    voter ∈ votes ↔ voter ∈ supporters episodes now :=
  (candidacy.counted voter).trans mem_supporters.symm

theorem Candidacy.length_supporters (candidacy : Candidacy episodes now votes) :
    (supporters episodes now).length = votes.length :=
  length_supporters_of_mem_iff candidacy.distinct fun _ => candidacy.mem_iff

/-- A vote that is granted to a candidate is one of its supporters afterwards. -/
theorem Candidacy.length_supporters_granted
    (candidacy : Candidacy episodes episode.before votes)
    (candidate : episode.before.standing = .candidate votes)
    (granted :
      episode.occasion = .response sender (.vote episode.before.ledger.currentTerm true)) :
    (supporters (episode :: episodes) episode.before).length = (votes.insert sender).length := by
  refine length_supporters_of_mem_iff candidacy.distinct.insert fun voter => ?_
  rw [List.mem_insert_iff, candidacy.mem_iff,
    mem_supporters_granted (standsIn_of_candidate candidate rfl) granted]

/-! ### What is on record stays there -/

/-- Books that are right for a member are right for another one with the same id and the same
office. -/
theorem Candidacy.transfer
    (candidacy : Candidacy episodes now votes)
    (id_eq : next.id = now.id)
    (office_eq : next.ledger.office = now.ledger.office) :
    Candidacy episodes next votes where
  voted := by
    rw [id_eq]
    exact (congrArg Office.votedFor office_eq).trans candidacy.voted
  leaderless := (congrArg Office.leaderId office_eq).trans candidacy.leaderless
  own := id_eq ▸ candidacy.own
  distinct := candidacy.distinct
  short := by
    rw [Ledger.quorum_eq_of_office office_eq]
    exact candidacy.short
  counted := by
    have term_eq : next.ledger.currentTerm = now.ledger.currentTerm :=
      congrArg Office.currentTerm office_eq
    rw [id_eq, term_eq]
    exact candidacy.counted

theorem Leadership.transfer
    (leadership : Leadership episodes now)
    (id_eq : next.id = now.id)
    (office_eq : next.ledger.office = now.ledger.office) :
    Leadership episodes next where
  voted := by
    rw [id_eq]
    exact (congrArg Office.votedFor office_eq).trans leadership.voted
  leads := by
    rw [id_eq]
    exact (congrArg Office.leaderId office_eq).trans leadership.leads
  elected := by
    have term_eq : next.ledger.currentTerm = now.ledger.currentTerm :=
      congrArg Office.currentTerm office_eq
    obtain ⟨reign, takeover, earlier, elected⟩ := leadership.elected
    refine ⟨reign, takeover, earlier, { elected with
      term_eq := elected.term_eq.trans term_eq.symm
      enough := ?_ }⟩
    rw [Ledger.quorum_eq_of_office office_eq, supporters_congr id_eq term_eq]
    exact elected.enough

/-- A leader goes on leading. -/
theorem Leadership.cons
    (leadership : Leadership episodes now)
    (leads : episode.before.role = .leader) :
    Leadership (episode :: episodes) now where
  voted := leadership.voted
  leads := leadership.leads
  elected := by
    obtain ⟨reign, takeover, earlier, elected⟩ := leadership.elected
    exact ⟨episode :: reign, takeover, earlier, { elected with
      episodes_eq := by rw [elected.episodes_eq, List.cons_append]
      reigned := List.forall_mem_cons.mpr ⟨leads, elected.reigned⟩ }⟩

/-! ### What a turn does to the books -/

/-- A vote that is granted to a candidate is counted, and makes it the leader if it completes a
quorum. -/
def Episode.Counts (episode : Episode) : Prop :=
  ∀ sender votes, episode.before.standing = .candidate votes →
    episode.occasion = .response sender (.vote episode.before.ledger.currentTerm true) →
      if episode.before.ledger.quorum ≤ (votes.insert sender).length then
        episode.after.role = .leader
      else episode.after.standing = .candidate (votes.insert sender)

theorem Episode.Counts.eq_insert
    (counts : episode.Counts)
    (held : episode.before.standing = .candidate earlier)
    (granted :
      episode.occasion = .response sender (.vote episode.before.ledger.currentTerm true))
    (candidate : episode.after.standing = .candidate votes) :
    votes = earlier.insert sender := by
  have counted := counts sender earlier held granted
  split at counted
  · unfold Member.role at counted
    rw [candidate] at counted
    cases counted
  · exact Standing.candidate.inj (candidate.symm.trans counted)

/-- If the supporters of a candidate become a quorum, the vote that brings the last of them makes it
the leader. -/
theorem Episode.Counts.leads
    (counts : episode.Counts)
    (candidates : ∀ votes, episode.before.standing = .candidate votes →
      Candidacy episodes episode.before votes)
    (candidate : episode.before.role = .candidate)
    (short : (supporters episodes episode.before).length < episode.before.ledger.quorum)
    (enough :
      episode.before.ledger.quorum ≤ (supporters (episode :: episodes) episode.before).length) :
    episode.after.role = .leader := by
  obtain ⟨votes, held⟩ := exists_votes_of_candidate candidate
  cases supports : episode.supporter? episode.before.ledger.currentTerm with
  | none =>
    rw [supporters_cons_of_none (standsIn_of_candidate held rfl) supports] at enough
    exact absurd enough (Nat.not_le.mpr short)
  | some sender =>
    have granted := Episode.supporter?_eq_some_iff.mp supports
    have counted := counts sender votes held granted
    rw [(candidates votes held).length_supporters_granted held granted] at enough
    rwa [if_pos enough] at counted

/-- The books of a candidate after a turn. -/
theorem Candidacy.of_turn
    (turn : Turn episode.occasion episode.before.seat (.ok reply) said episode.after.seat)
    (counts : episode.Counts)
    (candidates : ∀ earlier, episode.before.standing = .candidate earlier →
      Candidacy episodes episode.before earlier)
    (candidate : episode.after.standing = .candidate votes) :
    Candidacy (episode :: episodes) episode.after votes := by
  have id_eq : episode.after.id = episode.before.id := turn.id_eq
  rcases turn.stands candidate with
    ⟨held, office_eq⟩ | ⟨rfl, newer, voted, leaderless, others⟩ |
    ⟨sender, earlier, granted, held, rfl, ledger_eq, short⟩
  · have books := (candidates votes held).transfer id_eq office_eq
    have stands := standsIn_of_candidate held (congrArg Office.currentTerm office_eq).symm
    refine { books with counted := fun voter => ?_ }
    rw [← mem_supporters, mem_supporters_cons stands, ← books.mem_iff]
    refine ⟨.inl, fun known => known.elim id fun granted => ?_⟩
    -- A repeated vote leaves the votes as they are only because it is among them already.
    have term_eq : episode.after.ledger.currentTerm = episode.before.ledger.currentTerm :=
      congrArg Office.currentTerm office_eq
    rw [counts.eq_insert held (term_eq ▸ granted) candidate]
    exact List.mem_insert_self ..
  · exact {
      voted := id_eq ▸ voted
      leaderless := leaderless
      own := List.mem_singleton.mpr id_eq
      distinct := List.nodup_singleton _
      short := others
      counted := by
        intro voter
        rw [← mem_supporters, mem_supporters_of_newer newer, id_eq]
        exact List.mem_singleton }
  · have ledger_eq : episode.after.ledger = episode.before.ledger := ledger_eq
    have term_eq := congrArg Ledger.currentTerm ledger_eq
    have books := (candidates earlier held).transfer id_eq (congrArg Ledger.office ledger_eq)
    exact {
      voted := books.voted
      leaderless := books.leaderless
      own := List.mem_insert_of_mem books.own
      distinct := books.distinct.insert
      short := ledger_eq ▸ short
      counted := by
        intro voter
        rw [← mem_supporters, mem_supporters_granted
          (standsIn_of_candidate held term_eq.symm) (term_eq ▸ granted), ← books.mem_iff,
          List.mem_insert_iff] }

/-- The books of a leader after a turn. -/
theorem Leadership.of_turn
    (turn : Turn episode.occasion episode.before.seat (.ok reply) said episode.after.seat)
    (candidates : ∀ earlier, episode.before.standing = .candidate earlier →
      Candidacy episodes episode.before earlier)
    (leadership : episode.before.role = .leader → Leadership episodes episode.before)
    (leads : episode.after.role = .leader) :
    Leadership (episode :: episodes) episode.after := by
  have id_eq : episode.after.id = episode.before.id := turn.id_eq
  have quorum_eq : episode.after.ledger.quorum = episode.before.ledger.quorum :=
    Ledger.quorum_eq_of_membershipSize turn.membershipSize_eq
  rcases turn.presides leads with
    ⟨led, office_eq⟩ | ⟨_, rested, voted, known, alone⟩ |
    ⟨sender, votes, granted, held, enough, ledger_eq⟩
  · exact ((leadership led).transfer id_eq office_eq).cons led
  · refine ⟨id_eq ▸ voted, id_eq ▸ known, [], episode, episodes, ?_⟩
    exact {
      episodes_eq := rfl
      reigned := List.forall_mem_nil _
      rested := rested
      rose := leads
      term_eq := rfl
      enough := Nat.le_trans alone (supporters_pos _ _) }
  · have ledger_eq : episode.after.ledger =
        episode.before.ledger.setLeader (some episode.before.id) := ledger_eq
    have held : episode.before.standing = .candidate votes := held
    have term_eq : episode.after.ledger.currentTerm = episode.before.ledger.currentTerm := by
      rw [ledger_eq]
      rfl
    have books := candidates votes held
    refine ⟨?_, ?_, [], episode, episodes, ?_⟩
    · rw [ledger_eq, id_eq]
      exact books.voted
    · rw [ledger_eq, id_eq]
      rfl
    · exact {
        episodes_eq := rfl
        reigned := List.forall_mem_nil _
        rested := fun led => by
          unfold Member.role at led
          rw [held] at led
          cases led
        rose := leads
        term_eq := rfl
        enough := by
          rw [quorum_eq, supporters_congr id_eq term_eq,
            books.length_supporters_granted held granted]
          exact enough }

/-- Who takes over has completed a quorum. -/
theorem Episode.completes_of_turn
    (turn : Turn episode.occasion episode.before.seat (.ok reply) said episode.after.seat)
    (candidates : ∀ earlier, episode.before.standing = .candidate earlier →
      Candidacy episodes episode.before earlier)
    (rested : episode.before.role ≠ .leader)
    (leads : episode.after.role = .leader) :
    episode.Completes episodes := by
  rcases turn.presides leads with
    ⟨led, _⟩ | ⟨fired, _, _, _, alone⟩ | ⟨sender, votes, granted, held, enough, _⟩
  · exact absurd led rested
  · have quorum_eq := Ledger.quorum_eq_of_membershipSize turn.membershipSize_eq
    exact .alone fired (Nat.le_trans (Nat.le_of_eq quorum_eq.symm) alone)
  · have held : episode.before.standing = .candidate votes := held
    have books := candidates votes held
    refine .counted (congrArg Standing.role held) ?_ ?_
    · rw [books.length_supporters]
      exact books.short
    · rw [books.length_supporters_granted held granted]
      exact enough

/-- What the handler of an occasion ensures holds of the member that has met it. -/
theorem Member.meets_ensures
    (holds : Member → Prop)
    (answered : (now.meets occasion registry outside).answer = .ok reply)
    (ensures : (occasion.handler registry).Ensures ⟨now, outside⟩
      (fun _ met => holds met.own) fun _ _ => True) :
    holds (now.meets occasion registry outside).after :=
  ensures.of_perform (perform_eq answered)

theorem Member.counts_meets
    (answered : (now.meets occasion registry outside).answer = .ok reply) :
    (now.meets occasion registry outside).Counts := by
  intro sender votes candidate granted
  have granted : occasion = .response sender (.vote now.ledger.currentTerm true) := granted
  subst granted
  refine Member.meets_ensures
    (fun met =>
      if now.ledger.quorum ≤ (votes.insert sender).length then met.role = .leader
      else met.standing = .candidate (votes.insert sender)) answered ?_
  unfold Occasion.handler Member.onResponse
  dsimp only
  rw [ensures_bind]
  exact @Member.onVoteResponse_counts ⟨now, outside⟩ registry sender votes candidate

/-- Who completes a quorum takes over. -/
theorem Episode.Completes.leads
    (completes : (now.meets occasion registry outside).Completes episodes)
    (answered : (now.meets occasion registry outside).answer = .ok reply)
    (candidates : ∀ votes, now.standing = .candidate votes → Candidacy episodes now votes)
    (rested : now.role ≠ .leader) :
    (now.meets occasion registry outside).after.role = .leader := by
  cases completes with
  | counted candidate short enough =>
      exact (Member.counts_meets answered).leads candidates candidate short enough
  | alone fired enough =>
      have fired : occasion = .timer .electionTimeout := fired
      subst fired
      refine Member.meets_ensures (fun met => met.role = .leader) answered ?_
      exact (ensures_bind _ _).mpr (Member.onElectionTimeout_leads rested enough)

/-! ## The books over a tenure -/

/-- The role of a member agrees with its vote, the leader that it knows and the votes that it has
counted, whatever it has met. -/
theorem Tenure.accounts (tenure : Tenure config episodes now) : Accounts episodes now := by
  induction tenure with
  | made =>
      exact {
        candidate := fun votes candidate => by cases candidate
        leader := fun leads => by cases leads
        takeovers := fun _ _ among => absurd (List.suffix_nil.mp among) (List.cons_ne_nil _ _) }
  | @met episodes member occasion registry outside reply tenure answered ih =>
      have counts := Member.counts_meets answered
      obtain ⟨said, turn⟩ := Episode.turned_meets member occasion registry outside
      rw [answered] at turn
      refine ⟨fun votes => .of_turn turn counts ih.candidate,
        .of_turn turn ih.candidate ih.leader, ?_⟩
      intro episode earlier among rested
      rcases List.suffix_cons_iff.mp among with newest | older
      · obtain ⟨rfl, rfl⟩ := List.cons.inj newest
        exact ⟨Episode.completes_of_turn turn ih.candidate rested, fun completes =>
          completes.leads answered ih.candidate rested⟩
      · exact ih.takeovers episode earlier older rested
  | @noted episodes member ledger tenure notes ih =>
      exact {
        candidate := fun votes held => (ih.candidate votes held).transfer rfl notes.office_eq
        leader := fun leads => (ih.leader leads).transfer rfl notes.office_eq
        takeovers := ih.takeovers }

end Steps

namespace Quintet

/-! ### A candidate that needs three votes of five

Member `1` is granted the vote of member `2`, twice, and then that of member `3`. -/

def config : NodeConfig where
  id := "1"
  peers := [⟨"2", "", 0⟩, ⟨"3", "", 0⟩, ⟨"4", "", 0⟩, ⟨"5", "", 0⟩]

def registry : Registry := (Trio.linkedTo "2" 2).bind "3" ⟨3⟩

def meets (member : Member) (occasion : Occasion) : Episode :=
  member.meets occasion registry Trio.calm

def started : Episode := meets (Member.ofConfig config 0) .start

def campaigned : Episode := meets started.after (.timer .electionTimeout)

def granted : Episode := meets campaigned.after (.response "2" (.vote 1 true))

def repeated : Episode := meets granted.after (.response "2" (.vote 1 true))

def candidate : Member := repeated.after

def won : Episode := meets candidate (.response "3" (.vote 1 true))

/-- The log layer notes a commit in the end. -/
def leader : Member := { won.after with ledger := won.after.ledger.recordCommit 0 0 }

def candidacy : List Episode := [repeated, granted, campaigned, started]

theorem tenures : Tenure config candidacy candidate ∧ Tenure config (won :: candidacy) leader := by
  have meet {episodes : List Episode} {member : Member} (tenure : Tenure config episodes member)
      (occasion : Occasion) {reply : Option Response}
      (answered : (meets member occasion).answer = .ok reply) :
      Tenure config (meets member occasion :: episodes) (meets member occasion).after :=
    tenure.met answered
  have starts := meet .made .start (show started.answer = .ok none by decide +kernel)
  have campaigns := meet starts (.timer .electionTimeout)
    (show campaigned.answer = .ok none by decide +kernel)
  have counts := meet campaigns (.response "2" (.vote 1 true))
    (show granted.answer = .ok none by decide +kernel)
  have stands : Tenure config candidacy candidate :=
    meet counts (.response "2" (.vote 1 true)) (show repeated.answer = .ok none by decide +kernel)
  have wins : Tenure config (won :: candidacy) won.after :=
    meet stands (.response "3" (.vote 1 true)) (show won.answer = .ok none by decide +kernel)
  have leads : Tenure config (won :: candidacy) leader := by
    unfold leader
    exact wins.noted (.committed 0 0)
  exact ⟨stands, leads⟩

end Quintet

/-- The repeated vote counts once, and the third one makes the candidate the leader. -/
theorem Tenure.accounts_quintet :
    (Tenure Quintet.config Quintet.candidacy Quintet.candidate ∧
        supporters Quintet.candidacy Quintet.candidate = ["1", "2"] ∧
        Candidacy Quintet.candidacy Quintet.candidate ["2", "1"]) ∧
      (Tenure Quintet.config (Quintet.won :: Quintet.candidacy) Quintet.leader ∧
        supporters (Quintet.won :: Quintet.candidacy) Quintet.leader = ["1", "3", "2"] ∧
        Leadership (Quintet.won :: Quintet.candidacy) Quintet.leader) ∧
      Quintet.won.Completes Quintet.candidacy := by
  obtain ⟨stands, leads⟩ := Quintet.tenures
  have candidate : Quintet.candidate.standing = .candidate ["2", "1"] := by decide +kernel
  have taken : Quintet.won.after.role = .leader := by decide +kernel
  have rose : Quintet.leader.role = .leader := by decide +kernel
  have rested : Quintet.won.before.role ≠ .leader := by decide +kernel
  refine ⟨⟨stands, by decide +kernel, stands.accounts.candidate _ candidate⟩,
    ⟨leads, by decide +kernel, ?_⟩, ?_⟩
  · exact leads.accounts.leader rose
  · exact (leads.accounts.takeovers _ _ (List.suffix_refl _) rested).mp taken

end Quorum
