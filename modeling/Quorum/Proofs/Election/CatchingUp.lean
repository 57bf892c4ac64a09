import Quorum.Proofs.Election.Assembly
import Quorum.Proofs.Election.Manners

/-!
# Catching up and following

A member that catches up on its log (`Standing.sync`) does whatever a follower would do.  Two
members that are the same but for this, and meet the same, are observed side by side: a pair of
stages is `Beside` each other as long as the one follows and the other catches up, and again once
both have left to campaign, from when on they are equal.

Most parts of the handlers are `Impartial`: they lead from such a pair to such a pair, and answer
the same.  Whole handlers are so at rest only, since a candidate or a leader that gives way becomes
a follower, and does not catch up.  The last theorem follows the pair through everything that may
be met.
-/

namespace Quorum

open Act

/-- The same member, if it were catching up. -/
def Member.dozing (member : Member) : Member := { member with standing := .sync }

/-- The same stage, if the member were catching up. -/
def Stage.dozing (stage : Stage Member) : Stage Member := { stage with own := stage.own.dozing }

/-- Neither following nor catching up. -/
def Standing.IsAway (standing : Standing) : Prop :=
  standing.role ≠ .follower ∧ standing.role ≠ .sync

theorem Standing.IsAway.candidate (votes : List NodeId) : (Standing.candidate votes).IsAway :=
  ⟨nofun, nofun⟩

theorem Standing.IsAway.leader (heartbeat : Handle) : (Standing.leader heartbeat).IsAway :=
  ⟨nofun, nofun⟩

/-- A follower beside the same member catching up, or a member that campaigns or leads beside
itself. -/
inductive Stage.Beside : Stage Member → Stage Member → Prop where
  | resting {stage : Stage Member} (follows : stage.own.standing = .follower) :
      Beside stage stage.dozing
  | departed {stage : Stage Member} (away : stage.own.standing.IsAway) : Beside stage stage

namespace Member

variable
    {α β : Type}
    {act act' : Act Member α}
    {next next' : α → Act Member β}
    {stage stage' : Stage Member}

/-- Two handlers, each from its own stage, answer the same and lead to stages beside each other. -/
structure Agree (act act' : Act Member α) (stage stage' : Stage Member) : Prop where
  answer : (act'.perform stage').1 = (act.perform stage).1
  beside : (act.perform stage).2.Beside (act'.perform stage').2

/-- A handler that makes no difference between following and catching up. -/
def Impartial (act : Act Member α) : Prop :=
  ∀ ⦃stage stage'⦄, stage.Beside stage' → Agree act act stage stage'

namespace Agree

theorem bind
    (first : Agree act act' stage stage')
    (second : ∀ value after after', after.Beside after' →
      Agree (next value) (next' value) after after') :
    Agree (act >>= next) (act' >>= next') stage stage' := by
  obtain ⟨answer, beside⟩ := first
  have one := perform_bind act next stage
  have other := perform_bind act' next' stage'
  rcases performed : act.perform stage with ⟨found, after⟩
  rcases performed' : act'.perform stage' with ⟨found', after'⟩
  rw [performed] at one answer beside
  rw [performed'] at other answer beside
  obtain rfl : found' = found := answer
  cases found' with
  | error failure => exact ⟨by rw [one, other], by rw [one, other]; exact beside⟩
  | ok value =>
      obtain ⟨answered, besides⟩ := second value after after' beside
      exact ⟨by rw [one, other]; exact answered, by rw [one, other]; exact besides⟩

/-- The two members are looked at, each from its own side. -/
theorem own_bind
    {next next' : Member → Act Member α}
    (continues : Agree (next stage.own) (next' stage'.own) stage stage') :
    Agree (own >>= next) (own >>= next') stage stage' :=
  ⟨continues.answer, continues.beside⟩

end Agree

namespace Impartial

theorem pure (value : α) : Impartial (Pure.pure value) :=
  fun _ _ beside => ⟨rfl, beside⟩

theorem throw (failure : Failure) : Impartial (throw failure : Act Member α) :=
  fun _ _ beside => ⟨rfl, beside⟩

theorem bind (first : Impartial act) (second : ∀ value, Impartial (next value)) :
    Impartial (act >>= next) :=
  fun _ _ beside => (first beside).bind fun value _ _ besides => second value besides

/-- Something is read of the member that is the same in both. -/
theorem own_bind
    {next : Member → Act Member α}
    (same : ∀ member : Member, next member.dozing = next member)
    (continues : ∀ member, Impartial (next member)) :
    Impartial (own >>= next) := by
  intro stage stage' beside
  refine .own_bind ?_
  have agree := continues stage.own beside
  cases beside with
  | resting follows =>
      have read : next stage.dozing.own = next stage.own := same stage.own
      rw [read]
      exact agree
  | departed away => exact agree

/-- Anything but the standing is changed. -/
theorem modifyOwn
    {change : Member → Member}
    (kept : ∀ member, (change member).standing = member.standing)
    (same : ∀ member, change member.dozing = (change member).dozing) :
    Impartial (Act.modifyOwn change) := by
  intro stage stage' beside
  refine ⟨rfl, ?_⟩
  cases beside with
  | resting follows =>
      have changed : ((Act.modifyOwn change).perform stage.dozing).2 =
          Stage.dozing ⟨change stage.own, stage.outside⟩ :=
        congrArg (Stage.mk · stage.outside) (same stage.own)
      rw [changed]
      exact .resting ((kept stage.own).trans follows)
  | departed away =>
      refine .departed ?_
      have standing : (change stage.own).standing.IsAway := (kept stage.own).symm ▸ away
      exact standing

/-- What lies outside is looked at and changed alone. -/
theorem of_outside
    (result : Outside → Except Failure α × Outside)
    (performed : ∀ stage : Stage Member,
      act.perform stage = ((result stage.outside).1, ⟨stage.own, (result stage.outside).2⟩)) :
    Impartial act := by
  intro stage stage' beside
  cases beside with
  | resting follows =>
      refine ⟨by rw [performed, performed]; rfl, ?_⟩
      rw [performed, performed]
      exact .resting follows
  | departed away =>
      refine ⟨rfl, ?_⟩
      rw [performed]
      exact .departed away

theorem ask (wish : Ask) : Impartial (Act.ask wish) :=
  of_outside
    (fun outside => (.ok (), { outside with asked := (outside.clockMs, wish) :: outside.asked }))
    fun _ => rfl

theorem cancel (handle : Handle) : Impartial (Act.cancel handle) :=
  of_outside (fun outside => (.ok (), { outside with timers := outside.timers.cancel handle }))
    fun _ => rfl

theorem cancelIfAny (handle : Option Handle) : Impartial (Act.cancelIfAny handle) := by
  cases handle with
  | none => exact pure ()
  | some held => exact cancel held

theorem draw (window : Window) : Impartial (Act.draw window) :=
  of_outside
    (fun outside => (.ok (window.sample (outside.draws outside.drawn)),
      { outside with drawn := outside.drawn + 1 }))
    fun _ => rfl

theorem datedClockMs : Impartial Act.datedClockMs := by
  refine of_outside
    (fun outside => ((datedInstant outside.clockMs).mapError Failure.fault, outside))
    fun stage => ?_
  have looked : (Act.clockMs : Act Member Nat).perform stage = (.ok stage.outside.clockMs, stage) :=
    rfl
  unfold Act.datedClockMs
  rw [perform_bind, looked]
  dsimp only
  cases datedInstant stage.outside.clockMs <;> rfl

theorem arm (delay : Delay) (event : TimerEvent) (repeats : Bool) :
    Impartial (Act.arm delay event repeats) := by
  let armed (outside : Outside) : Except Failure (Handle × Scheduler TimerEvent) :=
    outside.timers.schedule outside.clockMs delay repeats event
  refine of_outside
    (fun outside =>
      ((armed outside).map Prod.fst,
        { outside with timers := ((armed outside).toOption.map Prod.snd).getD outside.timers }))
    fun stage => ?_
  have looked : (Act.arm delay event repeats).perform stage =
      (do
        let made ← Act.ofExcept (armed stage.outside)
        set { stage with outside.timers := made.2 }
        return made.1 : Act Member Handle).perform stage := rfl
  rw [looked, perform_bind]
  cases armed stage.outside <;> rfl

/-! ## The parts of the handlers -/

variable {registry : Registry}

theorem modifyLedger (change : Ledger → Ledger) : Impartial (Member.modifyLedger change) :=
  modifyOwn (fun _ => rfl) fun _ => rfl

theorem disarmElection : Impartial Member.disarmElection :=
  own_bind (fun _ => rfl) fun member => (cancelIfAny member.electionTask).bind fun _ =>
    modifyOwn (fun _ => rfl) fun _ => rfl

theorem rearmElection (delay : Delay) : Impartial (Member.rearmElection delay) :=
  disarmElection.bind fun _ => (arm delay .electionTimeout false).bind fun _ =>
    modifyOwn (fun _ => rfl) fun _ => rfl

theorem rearmElectionDrawn : Impartial Member.rearmElectionDrawn :=
  own_bind (fun _ => rfl) fun member => (draw member.window).bind rearmElection

theorem broadcast (request : Request) : Impartial (Member.broadcast registry request) := by
  unfold Member.broadcast
  induction registry.connections with
  | nil => exact pure ()
  | cons conn rest ih => exact (ask _).bind fun _ => ih

/-- Who begins to campaign or to lead is the same afterwards. -/
theorem restand {standing : Standing} (away : standing.IsAway) :
    Impartial (Act.modifyOwn fun member : Member => { member with standing }) := by
  intro stage stage' beside
  refine ⟨rfl, ?_⟩
  cases beside with
  | resting | departed => exact .departed away

theorem become {standing : Standing} (away : standing.IsAway) :
    Impartial (Member.become standing) := by
  have dated : Impartial (do
      Act.modifyOwn fun member : Member => { member with standing }
      let sinceMs ← Act.datedClockMs
      Act.modifyOwn fun member : Member => { member with sinceMs }) :=
    (restand away).bind fun _ => datedClockMs.bind fun _ => modifyOwn (fun _ => rfl) fun _ => rfl
  intro stage stage' beside
  refine .own_bind ?_
  have same := dated beside
  cases beside with
  | resting follows =>
      rw [follows]
      exact same
  | departed _ =>
      split
      · next heartbeat _ => exact ((cancel heartbeat).bind fun _ => dated) (.departed ‹_›)
      · exact same

theorem takeOver : Impartial (Member.takeOver registry) := by
  refine disarmElection.bind fun _ => own_bind (fun _ => rfl) fun member => ?_
  refine (arm member.heartbeatInterval .leaderHeartbeat true).bind fun heartbeat => ?_
  refine (modifyLedger _).bind fun _ => (become (.leader heartbeat)).bind fun _ => ?_
  exact own_bind (fun _ => rfl) fun leader => broadcast leader.assertion

theorem startElection : Impartial (Member.startElection registry) := by
  have campaigns (id : NodeId) : Impartial (do
      Member.become (.candidate [id])
      Member.broadcast registry (← Act.own).campaign
      Member.rearmElectionDrawn
      if (← Act.own).ledger.quorum ≤ 1 then
        Member.takeOver registry) := by
    refine (become (.candidate _)).bind fun _ => own_bind (fun _ => rfl) fun member => ?_
    refine (broadcast member.campaign).bind fun _ => rearmElectionDrawn.bind fun _ => ?_
    refine own_bind (fun _ => rfl) fun member => ?_
    split
    · exact takeOver
    · exact pure ()
  refine own_bind (fun _ => rfl) fun member => ?_
  split
  · exact (throw _).bind fun _ => campaigns member.id
  · exact (modifyLedger _).bind fun _ => campaigns member.id

theorem onAssertionAsFollower (term : Nat) (leader : NodeId) :
    Impartial (Member.onAssertionAsFollower term leader) := by
  have accepts : Impartial (do
      Member.rearmElectionDrawn
      return some (.leaderHeartbeat term true) : Act Member (Option Response)) :=
    rearmElectionDrawn.bind fun _ => pure _
  refine own_bind (fun _ => rfl) fun member => ?_
  dsimp only
  split
  · exact pure _
  split
  · exact (modifyLedger _).bind fun _ => (modifyLedger _).bind fun _ => accepts
  split
  · exact (modifyLedger _).bind fun _ => accepts
  split
  · exact pure _
  · exact accepts

/-- Votes are counted by candidates only. -/
theorem countVote (sender : NodeId) (term : Nat) (granted : Bool) :
    Impartial (Member.countVote registry sender term granted) := by
  intro stage stage' beside
  refine .own_bind ?_
  cases beside with
  | resting follows =>
      rw [follows]
      exact ⟨rfl, .resting follows⟩
  | departed away =>
      refine (?_ : Impartial _) (.departed away)
      split
      · split
        · refine (restand (.candidate _)).bind fun _ => ?_
          split
          · exact takeOver
          · exact pure ()
        · exact pure ()
      · exact pure ()

end Impartial

/-! ## Whole handlers at rest -/

namespace Agree

variable {registry : Registry}

theorem of_impartial (impartial : Impartial act) (follows : stage.own.standing = .follower) :
    Agree act act stage stage.dozing :=
  impartial (.resting follows)

/-- Something is read of the member that is the same in both. -/
theorem read
    {next : Member → Act Member α}
    (same : next stage.own.dozing = next stage.own)
    (continues : Agree (next stage.own) (next stage.own) stage stage.dozing) :
    Agree (own >>= next) (own >>= next) stage stage.dozing := by
  refine .own_bind ?_
  have read : next stage.dozing.own = next stage.own := same
  rw [read]
  exact continues

theorem modifyLedger_bind
    {change : Ledger → Ledger}
    {next : Unit → Act Member α}
    (follows : stage.own.standing = .follower)
    (continues : ∀ {after : Stage Member}, after.own.standing = .follower →
      Agree (next ()) (next ()) after after.dozing) :
    Agree (Member.modifyLedger change >>= next) (Member.modifyLedger change >>= next)
      stage stage.dozing := by
  have changed : Agree (next ()) (next ())
      ⟨{ stage.own with ledger := change stage.own.ledger }, stage.outside⟩
      (Stage.dozing ⟨{ stage.own with ledger := change stage.own.ledger }, stage.outside⟩) :=
    continues follows
  exact ⟨changed.answer, changed.beside⟩

/-- A member that neither campaigns nor leads has nothing to give up. -/
theorem yielding
    {rest : Unit → Act Member α}
    (impartial : Impartial (rest ()))
    (follows : stage.own.standing = .follower) :
    Agree
      (Act.own >>= fun member =>
        match member.role with
        | .candidate => Member.become .follower >>= rest
        | .leader => Member.become .follower >>= rest
        | .follower => rest ()
        | .sync => rest ())
      (Act.own >>= fun member =>
        match member.role with
        | .candidate => Member.become .follower >>= rest
        | .leader => Member.become .follower >>= rest
        | .follower => rest ()
        | .sync => rest ())
      stage stage.dozing := by
  refine .own_bind ?_
  have role : stage.own.role = .follower := congrArg Standing.role follows
  rw [role]
  exact of_impartial impartial follows

theorem stepDownIfNewer (term : Nat) (follows : stage.own.standing = .follower) :
    Agree (Member.stepDownIfNewer term) (Member.stepDownIfNewer term) stage stage.dozing := by
  refine .read rfl ?_
  split
  · refine modifyLedger_bind follows (yielding ?_)
    exact Impartial.rearmElectionDrawn.bind fun _ => .pure true
  · exact of_impartial (.pure false) follows

theorem onVoteRequest
    (candidate : NodeId)
    (term lastLogTerm lastLogIndex : Nat)
    (follows : stage.own.standing = .follower) :
    Agree (Member.onVoteRequest candidate term lastLogTerm lastLogIndex)
      (Member.onVoteRequest candidate term lastLogTerm lastLogIndex) stage stage.dozing := by
  refine .read rfl ?_
  dsimp only
  split
  · refine modifyLedger_bind follows (yielding ?_)
    refine Impartial.own_bind (fun _ => rfl) fun member => ?_
    exact (Impartial.rearmElection member.window.longest).bind fun _ => .pure _
  · exact of_impartial (.pure _) follows

theorem onRequest
    (sender : NodeId)
    (request : Request)
    (follows : stage.own.standing = .follower) :
    Agree (Member.onRequest registry sender request) (Member.onRequest registry sender request)
      stage stage.dozing := by
  cases request with
  | heartbeat id => exact of_impartial (.pure _) follows
  | vote term lastLogTerm lastLogIndex =>
      exact (onVoteRequest sender term lastLogTerm lastLogIndex follows).bind
        fun _ _ _ beside => Impartial.pure _ beside
  | leaderHeartbeat term leader =>
      refine .own_bind ?_
      have role : stage.own.role = .follower := congrArg Standing.role follows
      rw [role]
      exact of_impartial (.onAssertionAsFollower term leader) follows

theorem onResponse
    (sender : NodeId)
    (response : Response)
    (follows : stage.own.standing = .follower) :
    Agree (Member.onResponse registry sender response) (Member.onResponse registry sender response)
      stage stage.dozing := by
  cases response with
  | heartbeat => exact of_impartial (.pure _) follows
  | vote term granted =>
      refine (stepDownIfNewer term follows).bind fun stepped _ _ beside => ?_
      split
      · exact Impartial.pure _ beside
      · exact Impartial.countVote sender term granted beside
  | leaderHeartbeat term accepted =>
      exact (stepDownIfNewer term follows).bind fun _ _ _ beside => Impartial.pure _ beside

/-- A follower, and a member that catches up, do less than a member in general. -/
theorem own_bind_of_rests
    {next : Member → Act Member α}
    (less : Member → Act Member α)
    (rests : ∀ member : Member, member.standing = .follower ∨ member.standing = .sync →
      next member = less member)
    (same : less stage.own.dozing = less stage.own)
    (follows : stage.own.standing = .follower)
    (impartial : Impartial (less stage.own)) :
    Agree (Act.own >>= next) (Act.own >>= next) stage stage.dozing := by
  have one : next stage.own = less stage.own := rests stage.own (.inl follows)
  have other : next stage.dozing.own = less stage.own :=
    (rests stage.own.dozing (.inr rfl)).trans same
  refine .own_bind ?_
  rw [one, other]
  exact of_impartial impartial follows

theorem isLeader_of_rests
    {member : Member}
    (rests : member.standing = .follower ∨ member.standing = .sync) :
    member.isLeader = false := by
  unfold isLeader role
  rcases rests with standing | standing <;> rw [standing] <;> rfl

/-- What only a leader does, they do not do. -/
theorem own_bind_of_leaders
    {next : Member → Act Member Unit}
    (idle : ∀ member : Member, member.isLeader = false → next member = Pure.pure ())
    (follows : stage.own.standing = .follower) :
    Agree (Act.own >>= next) (Act.own >>= next) stage stage.dozing :=
  own_bind_of_rests (fun _ => Pure.pure ())
    (fun member rests => idle member (isLeader_of_rests rests)) rfl follows (.pure ())

theorem onElectionTimeout (follows : stage.own.standing = .follower) :
    Agree (Member.onElectionTimeout registry) (Member.onElectionTimeout registry)
      stage stage.dozing := by
  refine own_bind_of_rests
    (fun member =>
      if member.canCampaign registry then Member.startElection registry
      else Member.rearmElection member.electionDelay)
    (fun member rests => ?_) rfl follows ?_
  · have stands : ¬ member.role = .candidate := by
      unfold role
      rcases rests with standing | standing <;> rw [standing] <;> nofun
    rw [isLeader_of_rests rests, if_neg stands]
    rfl
  · split
    · exact .startElection
    · exact .rearmElection _

theorem onLeaderHeartbeat (follows : stage.own.standing = .follower) :
    Agree (Member.onLeaderHeartbeat registry) (Member.onLeaderHeartbeat registry)
      stage stage.dozing := by
  refine own_bind_of_leaders (fun member idle => ?_) follows
  rw [idle]
  rfl

theorem onTimer (event : TimerEvent) (follows : stage.own.standing = .follower) :
    Agree (Member.onTimer registry event) (Member.onTimer registry event) stage stage.dozing := by
  cases event with
  | electionTimeout => exact onElectionTimeout follows
  | leaderHeartbeat => exact onLeaderHeartbeat follows
  | peerKeepAlive | peerTimeout | connectionTimeout | reconnect =>
      exact of_impartial (.pure ()) follows

theorem onPeerConnected (peer : NodeId) (follows : stage.own.standing = .follower) :
    Agree (Member.onPeerConnected registry peer) (Member.onPeerConnected registry peer)
      stage stage.dozing := by
  refine own_bind_of_leaders (fun member idle => ?_) follows
  rw [idle]
  rfl

theorem onPeerDisconnected (follows : stage.own.standing = .follower) :
    Agree (Member.onPeerDisconnected registry) (Member.onPeerDisconnected registry)
      stage stage.dozing := by
  refine own_bind_of_leaders (fun member idle => ?_) follows
  rw [idle]
  rfl

/-- Whatever the occasion is, but to begin or to end catching up. -/
theorem handler
    {occasion : Occasion}
    (beginsNot : occasion ≠ .beginSync)
    (endsNot : occasion ≠ .endSync)
    (follows : stage.own.standing = .follower) :
    Agree (occasion.handler registry) (occasion.handler registry) stage stage.dozing := by
  have silently {act : Act Member Unit} (agree : Agree act act stage stage.dozing) :
      Agree (do act; return (none : Option Response)) (do act; return none)
        stage stage.dozing :=
    agree.bind fun _ _ _ beside => Impartial.pure none beside
  cases occasion with
  | start => exact silently (of_impartial .rearmElectionDrawn follows)
  | timer event => exact silently (onTimer event follows)
  | request sender request => exact onRequest sender request follows
  | response sender response => exact silently (onResponse sender response follows)
  | peerConnected peer => exact silently (onPeerConnected peer follows)
  | peerDisconnected => exact silently (onPeerDisconnected follows)
  | beginSync => exact absurd rfl beginsNot
  | endSync => exact absurd rfl endsNot
  | recordLog term index => exact silently (of_impartial (.modifyLedger _) follows)

end Agree

end Member

/-! ## Everything that is met -/

/-- Something that a member meets: an occasion, the registry at the time, and what has changed
outside of the member since it acted last. -/
structure Encounter where
  occasion : Occasion
  registry : Registry
  meanwhile : Outside → Outside

namespace Encounter

/-- The answer to an encounter, and the stage after it. -/
def meet (encounter : Encounter) (stage : Stage Member) :
    Except Failure (Option Response) × Stage Member :=
  (encounter.occasion.handler encounter.registry).perform
    ⟨stage.own, encounter.meanwhile stage.outside⟩

/-- The answers to all encounters, each with the stage after it. -/
def trail (stage : Stage Member) :
    List Encounter → List (Except Failure (Option Response) × Stage Member)
  | [] => []
  | encounter :: rest => encounter.meet stage :: trail (encounter.meet stage).2 rest

variable {encounter : Encounter} {encounters : List Encounter} {stage : Stage Member}

/-- One encounter leaves a follower and a member that catches up as they were to each other, or
makes both leave at once. -/
theorem meet_dozing
    (beginsNot : encounter.occasion ≠ .beginSync)
    (endsNot : encounter.occasion ≠ .endSync)
    (follows : stage.own.standing = .follower) :
    (encounter.meet stage.dozing = ((encounter.meet stage).1, (encounter.meet stage).2.dozing) ∧
        (encounter.meet stage).2.own.standing = .follower) ∨
      (encounter.meet stage.dozing = encounter.meet stage ∧
        (encounter.meet stage).2.own.standing.IsAway) := by
  let roused : Stage Member := ⟨stage.own, encounter.meanwhile stage.outside⟩
  have agree : Member.Agree (encounter.occasion.handler encounter.registry)
      (encounter.occasion.handler encounter.registry) roused roused.dozing :=
    .handler beginsNot endsNot follows
  have answer : (encounter.meet stage.dozing).1 = (encounter.meet stage).1 := agree.answer
  have beside : (encounter.meet stage).2.Beside (encounter.meet stage.dozing).2 := agree.beside
  rcases met : encounter.meet stage with ⟨said, after⟩
  rcases met' : encounter.meet stage.dozing with ⟨said', after'⟩
  rw [met] at answer beside
  rw [met'] at answer beside
  obtain rfl : said' = said := answer
  cases beside with
  | resting follows => exact .inl ⟨rfl, follows⟩
  | departed away => exact .inr ⟨rfl, away⟩

/-- A member that catches up answers as a follower does and leaves the same outside, whatever both
meet, and differs from it in just this, until both leave to campaign at once and are the same from
then on. -/
theorem catches_up_as_follower
    (follows : stage.own.standing = .follower)
    (others : ∀ encounter ∈ encounters,
      encounter.occasion ≠ .beginSync ∧ encounter.occasion ≠ .endSync) :
    ∃ apart together,
      trail stage encounters = apart ++ together ∧
        trail stage.dozing encounters =
          apart.map (fun step => (step.1, step.2.dozing)) ++ together ∧
        (∀ step ∈ apart, step.2.own.standing = .follower) ∧
          ∀ step ∈ together.head?, step.2.own.standing.IsAway := by
  induction encounters generalizing stage with
  | nil => exact ⟨[], [], rfl, rfl, by simp, by simp⟩
  | cons encounter rest ih =>
      obtain ⟨⟨beginsNot, endsNot⟩, others⟩ := List.forall_mem_cons.mp others
      rcases meet_dozing beginsNot endsNot follows with ⟨same, rests⟩ | ⟨same, away⟩
      · obtain ⟨apart, together, one, other, resting, leaving⟩ := ih rests others
        refine ⟨encounter.meet stage :: apart, together, ?_, ?_, ?_, leaving⟩
        · rw [trail, one, List.cons_append]
        · rw [trail, same, other, List.map_cons, List.cons_append]
        · exact List.forall_mem_cons.mpr ⟨rests, resting⟩
      · refine ⟨[], trail stage (encounter :: rest), rfl, ?_, by simp, ?_⟩
        · rw [trail, trail, same]
          rfl
        · intro step first
          obtain rfl : encounter.meet stage = step := Option.some.inj first
          exact away

end Encounter

namespace Trio

/-- Member `1` follows. -/
def listener : Stage Member := ⟨Member.ofConfig (roster.configOf "1") 0, calm⟩

/-- Member `1` hears of a leader, and of nobody for a while. -/
def abandonment : List Encounter :=
  [⟨.request "3" (.leaderHeartbeat 1 "3"), linkedTo "3" 1, id⟩,
    ⟨.timer .electionTimeout, linkedTo "3" 1, fun outside => { outside with clockMs := 700 }⟩]

end Trio

/-- Member `1` of the trio, following or catching up, accepts a leader and campaigns later. -/
theorem Encounter.catches_up_as_follower_trio :
    Trio.listener.own.standing = .follower ∧
      (∀ encounter ∈ Trio.abandonment,
        encounter.occasion ≠ .beginSync ∧ encounter.occasion ≠ .endSync) ∧
        ((trail Trio.listener Trio.abandonment).map fun step => step.2.own.role) =
            [.follower, .candidate] ∧
          ∃ apart together,
            trail Trio.listener Trio.abandonment = apart ++ together ∧
              trail Trio.listener.dozing Trio.abandonment =
                apart.map (fun step => (step.1, step.2.dozing)) ++ together ∧
              (∀ step ∈ apart, step.2.own.standing = .follower) ∧
                ∀ step ∈ together.head?, step.2.own.standing.IsAway := by
  have others : ∀ encounter ∈ Trio.abandonment,
      encounter.occasion ≠ .beginSync ∧ encounter.occasion ≠ .endSync := by decide
  exact ⟨rfl, others, by decide, catches_up_as_follower rfl others⟩

end Quorum
