import Quorum.Proofs.Election.Ballots

/-!
# The career of a member

A member may meet anything: requests and responses of any sender and in any term, timers, changes
among its peers, and a refused timer or a fault in the middle of a handler.  A `Career` is what one
member has met since it was made, as a list of `Episode`s with the newest one first.

Nothing is known here about the other members.  Still the votes that can be read off the episodes,
those that were answered and those that the member gave itself as a candidate, are cast in terms
that only grow, so there is one of them in a term at most.  A candidacy is seen from the member
before and after an episode; it is there exactly when the member was called to an election
(`Episode.candidacy?_meets_eq_some_iff`).
-/

namespace Quorum

/-! ## Episodes -/

/-- One thing that a member met among the peers of a registry, with the member before and after
it. -/
structure Episode where
  occasion : Occasion
  registry : Registry
  before : Member
  answer : Except Failure (Option Response)
  after : Member

/-- A member meets an occasion with the given surroundings. -/
def Member.meets
    (member : Member)
    (occasion : Occasion)
    (registry : Registry)
    (outside : Outside) : Episode :=
  let (answer, stage) := (occasion.handler registry).perform ⟨member, outside⟩
  ⟨occasion, registry, member, answer, stage.own⟩

namespace Episode

/-- The term in which the answer grants a vote, if it does. -/
def granted? (episode : Episode) : Option Nat :=
  match episode.answer with
  | .ok (some (.vote term true)) => some term
  | _ => none

/-- The term in which the member has begun to stand for election, if it has. -/
def candidacy? (episode : Episode) : Option Nat :=
  if episode.after.standing.contests = true ∧
      ¬ (episode.before.standing.contests = true ∧
        episode.before.ledger.currentTerm = episode.after.ledger.currentTerm) then
    some episode.after.ledger.currentTerm
  else
    none

/-- The member is called to an election: its timer fires, it does not lead, enough peers are
connected, and there is a next term to stand in. -/
def Campaigns (episode : Episode) (term : Nat) : Prop :=
  episode.occasion = .timer .electionTimeout ∧ episode.before.role ≠ .leader ∧
    episode.before.canCampaign episode.registry = true ∧
    term = episode.before.ledger.currentTerm + 1 ∧ term < Word.limit

/-- The term in which the member casts a vote, for another member or for itself. -/
def cast? (episode : Episode) : Option Nat :=
  episode.granted?.or episode.candidacy?

variable {episode : Episode} {term : Nat}

theorem granted?_eq_some : episode.granted? = some term ↔ Grants term episode.answer := by
  unfold granted?
  split
  · next given answered => simp [answered]
  · next other => simpa using fun answered => other term answered

/-- The episode is a turn of the member. -/
def Turned (episode : Episode) : Prop :=
  ∃ said, Turn episode.occasion episode.before.seat episode.answer said episode.after.seat

theorem turned_meets
    (member : Member)
    (occasion : Occasion)
    (registry : Registry)
    (outside : Outside) :
    (member.meets occasion registry outside).Turned := by
  obtain ⟨said, turn, _⟩ := handler_turns registry occasion ⟨member, outside⟩
  exact ⟨said, turn⟩

theorem Turned.precedes (turned : episode.Turned) :
    episode.before.ledger.Precedes episode.after.ledger :=
  turned.elim fun _ turn => turn.precedes

/-- Who begins to stand for election does so in a newer term, and with its own vote. -/
theorem Turned.candidacy
    (turned : episode.Turned)
    (stands : episode.candidacy? = some term) :
    episode.before.ledger.currentTerm < term ∧ episode.after.ledger.currentTerm = term ∧
      episode.after.ledger.votedFor = some episode.after.id := by
  obtain ⟨said, turn⟩ := turned
  unfold candidacy? at stands
  split at stands
  · next begins =>
    obtain rfl := Option.some.inj stands
    rcases turn.contest begins.1 with ⟨stood, same⟩ | ⟨newer, voted⟩
    · exact absurd ⟨stood, same.symm⟩ begins.2
    · exact ⟨newer, rfl, voted.trans (congrArg some turn.id_eq.symm)⟩
  · cases stands

/-- A vote is cast in a newer term, which is the current one afterwards. -/
theorem Turned.cast
    (turned : episode.Turned)
    (cast : episode.cast? = some term) :
    episode.before.ledger.currentTerm < term ∧ episode.after.ledger.currentTerm = term := by
  rcases Option.or_eq_some_iff.mp cast with granted | ⟨_, stands⟩
  · obtain ⟨said, turn⟩ := turned
    have grants := granted?_eq_some.mp granted
    obtain ⟨_, _, _, _, newer, _⟩ := turn.grant grants
    obtain ⟨_, _, _, _, current, _⟩ := turn.voted_of_grants grants
    exact ⟨newer, current⟩
  · exact ⟨(turned.candidacy stands).1, (turned.candidacy stands).2.1⟩

end Episode

/-! ## Elections -/

/-- Who comes to stand for election in another term does so when the election timer fires, and in
the next term. -/
theorem Turn.campaign
    {occasion : Occasion}
    {seat after : Seat}
    {answer : Except Failure (Option Response)}
    {said : List Request}
    (turn : Turn occasion seat answer said after)
    (contests : after.standing.contests = true)
    (moved : after.ledger.currentTerm ≠ seat.ledger.currentTerm) :
    occasion = .timer .electionTimeout ∧ ¬ seat.leads ∧
      after.ledger.currentTerm = seat.ledger.currentTerm + 1 ∧
      seat.ledger.currentTerm + 1 < Word.limit := by
  have notYielded (standing : Standing) : standing.yielded.contests ≠ true := by
    cases standing <;> simp [Standing.yielded, Standing.contests]
  cases turn with
  | unmoved => exact absurd rfl moved
  | asserted => exact absurd rfl moved
  | rested => exact absurd rfl moved
  | abdicated => cases contests
  | adopted => exact absurd contests (notYielded _)
  | granted => exact absurd contests (notYielded _)
  | accepted => exact absurd contests (notYielded _)
  | campaigned _ leadsNot begun _ becomes =>
    subst becomes
    refine ⟨rfl, leadsNot, ?_, (Ledger.nextTerm_eq_ok_iff.mp begun).1⟩
    exact (Ledger.currentTerm_voteFor _ _).trans (Ledger.currentTerm_of_nextTerm begun)
  | carried _ leadsNot begun _ becomes =>
    subst becomes
    refine ⟨rfl, leadsNot, ?_, (Ledger.nextTerm_eq_ok_iff.mp begun).1⟩
    exact (Ledger.currentTerm_voteFor _ _).trans (Ledger.currentTerm_of_nextTerm begun)
  | counted => exact absurd rfl moved
  | won _ _ _ _ becomes =>
    rw [becomes] at moved
    exact absurd (Ledger.currentTerm_setLeader _ _) moved
  | recorded => exact absurd (Ledger.currentTerm_recordLog _ _ _) moved

namespace Member

open Act

variable {stage : Stage Member} {registry : Registry}

/-- With too few peers the member stays in its term. -/
theorem onElectionTimeout_stays (few : stage.own.canCampaign registry = false) :
    (onElectionTimeout registry).Ensures stage
      (fun _ after => after.own.ledger = stage.own.ledger)
      (fun _ after => after.own.ledger = stage.own.ledger) := by
  unfold onElectionTimeout
  rw [ensures_bind, ensures_own, few]
  split
  · exact rfl
  rw [if_neg Bool.false_ne_true]
  have kept {said : List Request} {standing : Standing} (after : Stage Member)
      (shown : Shows stage said { stage.own.seat with standing } after) :
      after.own.ledger = stage.own.ledger := congrArg Seat.ledger shown.seat
  split
  · rw [ensures_bind]
    refine (become_shows .follower (Shows.refl stage)).mono ?_ fun _ => kept
    intro _ resting shown
    exact ((Unnoticed.rearmElection _).keeps_shown shown).mono (fun _ => kept) fun _ => kept
  · exact ((Unnoticed.rearmElection _).keeps_shown (Shows.refl stage)).mono
      (fun _ => kept) fun _ => kept

/-- Otherwise it stands for election in the next term, even if a timer is refused to it. -/
theorem onElectionTimeout_stands
    (leadsNot : stage.own.role ≠ .leader)
    (enough : stage.own.canCampaign registry = true)
    (fits : stage.own.ledger.currentTerm + 1 < Word.limit) :
    (onElectionTimeout registry).Ensures stage
      (fun _ after => after.own.standing.contests = true ∧
        after.own.ledger.currentTerm = stage.own.ledger.currentTerm + 1)
      (fun _ after => after.own.standing.contests = true ∧
        after.own.ledger.currentTerm = stage.own.ledger.currentTerm + 1) := by
  have stands {said : List Request} {seat : Seat} (contests : seat.standing.contests = true)
      (next : seat.ledger.currentTerm = stage.own.ledger.currentTerm + 1) (after : Stage Member)
      (shown : Shows stage said seat after) :
      after.own.standing.contests = true ∧
        after.own.ledger.currentTerm = stage.own.ledger.currentTerm + 1 := by
    obtain ⟨rfl, _⟩ := shown
    exact ⟨contests, next⟩
  have begun := Ledger.nextTerm_eq_ok_iff.mpr ⟨fits, rfl⟩
  have voted := (Ledger.currentTerm_voteFor _ stage.own.id).trans
    (Ledger.currentTerm_of_nextTerm begun)
  have resting : stage.own.isLeader = false := decide_eq_false leadsNot
  unfold onElectionTimeout
  rw [ensures_bind, ensures_own, resting, if_neg Bool.false_ne_true, enough, if_pos rfl]
  refine startElection_ensures begun rfl ?_ fun _ => stands rfl voted
  intro armed shown
  split
  · refine (takeOver_shows registry shown).mono ?_ ?_
    · rintro _ after ⟨heartbeat, led, rfl, shown⟩
      exact stands rfl voted after shown
    · rintro _ after (shown | ⟨heartbeat, led, rfl, shown⟩)
      · exact stands rfl voted after shown
      · exact stands rfl voted after shown
  · exact stands rfl voted armed shown

/-- What a handler ensures either way holds of the member that has met its occasion. -/
theorem after_meets
    {member : Member}
    {occasion : Occasion}
    {outside : Outside}
    (holds : Member → Prop)
    (ensures : (occasion.handler registry).Ensures ⟨member, outside⟩
      (fun _ met => holds met.own) fun _ met => holds met.own) :
    holds (member.meets occasion registry outside).after := by
  unfold Ensures at ensures
  unfold meets
  split at ensures
  · next performed => simpa only [performed] using ensures
  · next performed => simpa only [performed] using ensures

end Member

/-- The candidacies that can be read off the members are the elections that they are called to: none
is missed, and none is seen where there is no election. -/
theorem Episode.candidacy?_meets_eq_some_iff
    {member : Member}
    {occasion : Occasion}
    {registry : Registry}
    {outside : Outside}
    {term : Nat} :
    (member.meets occasion registry outside).candidacy? = some term ↔
      (member.meets occasion registry outside).Campaigns term := by
  constructor
  · intro stands
    obtain ⟨said, turn⟩ := turned_meets member occasion registry outside
    unfold candidacy? at stands
    split at stands
    · next begins =>
      obtain rfl := Option.some.inj stands
      have moved : (member.meets occasion registry outside).after.ledger.currentTerm ≠
          member.ledger.currentTerm := by
        intro same
        rcases turn.contest begins.1 with ⟨stood, _⟩ | ⟨newer, _⟩
        · exact begins.2 ⟨stood, same.symm⟩
        · exact absurd same.symm (Nat.ne_of_lt newer)
      obtain ⟨fired, leadsNot, next, fits⟩ := turn.campaign begins.1 moved
      refine ⟨fired, leadsNot, ?_, next, next ▸ fits⟩
      cases enough : member.canCampaign registry with
      | true => exact enough
      | false =>
        have fired : occasion = .timer .electionTimeout := fired
        subst fired
        refine absurd (Member.after_meets (fun met => met.ledger = member.ledger) ?_)
          (mt (congrArg Ledger.currentTerm) moved)
        exact (Act.ensures_bind _ _).mpr (Member.onElectionTimeout_stays enough)
    · cases stands
  · rintro ⟨fired, leadsNot, enough, next, fits⟩
    have fired : occasion = .timer .electionTimeout := fired
    subst fired next
    obtain ⟨contests, next⟩ :
        (member.meets (.timer .electionTimeout) registry outside).after.standing.contests = true ∧
          (member.meets (.timer .electionTimeout) registry outside).after.ledger.currentTerm =
            member.ledger.currentTerm + 1 := by
      refine Member.after_meets (fun met => met.standing.contests = true ∧
        met.ledger.currentTerm = member.ledger.currentTerm + 1) ?_
      exact (Act.ensures_bind _ _).mpr (Member.onElectionTimeout_stands leadsNot enough fits)
    unfold candidacy?
    rw [next, if_pos ⟨contests, fun stood => absurd stood.2 (Nat.ne_of_lt (Nat.lt_succ_self _))⟩]
    rfl

/-! ## Careers -/

/-- What a member has met since it was made, the newest episode first, and the member now. -/
inductive Career (config : NodeConfig) : List Episode → Member → Prop where
  | made
      {sinceMs : Nat} :
      Career config [] (Member.ofConfig config sinceMs)
  | met
      {episodes : List Episode} {member : Member}
      (occasion : Occasion)
      (registry : Registry)
      (outside : Outside)
      (career : Career config episodes member) :
      Career config
        (member.meets occasion registry outside :: episodes)
        (member.meets occasion registry outside).after

/-- The ledgers of a member over its career, the newest one first. -/
def ledgers (episodes : List Episode) (now : Member) : List Ledger :=
  now.ledger :: episodes.map fun episode => episode.before.ledger

/-- The terms in which a member cast a vote, the newest one first. -/
def casts (episodes : List Episode) : List Nat := episodes.filterMap Episode.cast?

/-- What can be said of the terms and the votes of a member. -/
structure Faithful (episodes : List Episode) (now : Member) : Prop where
  /-- No term is taken back. -/
  terms : (ledgers episodes now).Pairwise fun later earlier =>
    earlier.currentTerm ≤ later.currentTerm
  /-- A vote stays with its candidate as long as the term lasts. -/
  ballots : (ledgers episodes now).Pairwise fun later earlier =>
    earlier.currentTerm = later.currentTerm →
      ∀ candidate, earlier.votedFor = some candidate → later.votedFor = some candidate
  /-- Every vote is cast in a newer term than all the votes before. -/
  casts : (casts episodes).Pairwise fun later earlier => earlier < later
  /-- A vote is granted to who asks for it, and in the term it is granted in. -/
  granted : ∀ episode ∈ episodes, ∀ term, Grants term episode.answer →
    ∃ candidate lastLogTerm lastLogIndex,
      episode.occasion = .request candidate (.vote term lastLogTerm lastLogIndex) ∧
        episode.after.ledger.currentTerm = term ∧
        episode.after.ledger.votedFor = some candidate
  /-- A candidate votes for itself. -/
  candidacies : ∀ episode ∈ episodes, ∀ term, episode.candidacy? = some term →
    episode.after.ledger.currentTerm = term ∧
      episode.after.ledger.votedFor = some episode.after.id
  /-- Every election that it is called to counts as a candidacy, and nothing else does. -/
  elections : ∀ episode ∈ episodes, ∀ term,
    episode.candidacy? = some term ↔ episode.Campaigns term

namespace Trio

/-- Member `1` grants a vote. -/
def granting : Episode :=
  (Member.ofConfig (roster.configOf "1") 0).meets (.request "3" (.vote 1 0 0)) (linkedTo "3" 1) calm

/-- It campaigns itself later. -/
def usurping : Episode :=
  granting.after.meets (.timer .electionTimeout) (linkedTo "3" 1) calm

def episodes : List Episode := [usurping, granting]

def usurper : Member := usurping.after

end Trio

namespace Career

variable
    {config : NodeConfig}
    {episodes : List Episode}
    {now : Member}

/-- What holds whenever a member meets something holds of a whole career. -/
theorem forall_mem
    (career : Career config episodes now)
    {holds : Episode → Prop}
    (each : ∀ (member : Member) (occasion : Occasion) (registry : Registry) (outside : Outside),
      holds (member.meets occasion registry outside)) :
    ∀ episode ∈ episodes, holds episode := by
  induction career with
  | made => exact List.forall_mem_nil _
  | met occasion registry outside _ ih =>
    exact List.forall_mem_cons.mpr ⟨each _ occasion registry outside, ih⟩

theorem turned (career : Career config episodes now) : ∀ episode ∈ episodes, episode.Turned :=
  career.forall_mem Episode.turned_meets

/-- Every ledger of a career precedes all that come after it. -/
theorem precedes (career : Career config episodes now) :
    (ledgers episodes now).Pairwise fun later earlier => earlier.Precedes later := by
  induction career with
  | made => exact List.pairwise_singleton _ _
  | @met episodes member occasion registry outside _ ih =>
    have turned := Episode.turned_meets member occasion registry outside
    refine List.pairwise_cons.mpr ⟨?_, ih⟩
    intro earlier listed
    rcases List.mem_cons.mp listed with rfl | old
    · exact turned.precedes
    · exact ((List.pairwise_cons.mp ih).1 earlier old).trans turned.precedes

/-- The member has reached every term in which it cast a vote. -/
theorem casts_le (career : Career config episodes now) :
    ∀ term ∈ casts episodes, term ≤ now.ledger.currentTerm := by
  induction career with
  | made => simp [casts]
  | @met episodes member occasion registry outside _ ih =>
    have turned := Episode.turned_meets member occasion registry outside
    have advances := turned.precedes.term_le
    intro term cast
    obtain ⟨episode, listed, cast⟩ := List.mem_filterMap.mp cast
    rcases List.mem_cons.mp listed with rfl | old
    · exact Nat.le_of_eq (turned.cast cast).2.symm
    · exact Nat.le_trans (ih term (List.mem_filterMap.mpr ⟨episode, old, cast⟩)) advances

theorem casts_decreasing (career : Career config episodes now) :
    (casts episodes).Pairwise fun later earlier => earlier < later := by
  induction career with
  | made => exact .nil
  | @met episodes member occasion registry outside career ih =>
    have turned := Episode.turned_meets member occasion registry outside
    cases cast : (member.meets occasion registry outside).cast? with
    | none =>
      rw [casts, List.filterMap_cons_none cast]
      exact ih
    | some term =>
      rw [casts, List.filterMap_cons_some cast]
      refine List.pairwise_cons.mpr ⟨?_, ih⟩
      intro earlier older
      exact Nat.lt_of_le_of_lt (career.casts_le earlier older) (turned.cast cast).1

/-- Whatever a member meets, its terms never decrease, its vote stays the same within a term, and
every vote that it casts is cast in a newer term than all before; no election is left out. -/
theorem faithful (career : Career config episodes now) : Faithful episodes now where
  terms := career.precedes.imp Ledger.Precedes.term_le
  ballots := career.precedes.imp Ledger.Precedes.vote_kept
  casts := career.casts_decreasing
  granted := by
    intro episode listed term grants
    obtain ⟨said, turn⟩ := career.turned episode listed
    exact turn.voted_of_grants grants
  candidacies := by
    intro episode listed term stands
    exact ((career.turned episode listed).candidacy stands).2
  elections := career.forall_mem fun _ _ _ _ _ => Episode.candidacy?_meets_eq_some_iff

/-- Member `1` of the trio grants its vote to member `3` in the first term and campaigns in the
second one. -/
theorem faithful_trio :
    Career (Trio.roster.configOf "1") Trio.episodes Trio.usurper ∧
      casts Trio.episodes = [2, 1] ∧ Faithful Trio.episodes Trio.usurper := by
  have career : Career (Trio.roster.configOf "1") Trio.episodes Trio.usurper :=
    .met _ _ _ (.met _ _ _ .made)
  exact ⟨career, by decide, career.faithful⟩

end Career

end Quorum
