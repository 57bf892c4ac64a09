import Quorum.Election.Member
import Quorum.Proofs.Handlers

/-!
# Turns of a member

An `Occasion` is anything that makes a member act.  The other members of a cluster notice three
things of a member: its id, its ledger and its standing, together its `Seat`.  A `Turn` says what
one occasion does to the seat, which requests go out on the way, and what is answered.

The rules at the end follow a handler through its parts: `Shows` is what the others have noticed of
it so far, and `Unnoticed` parts, which only arm and cancel timers, do not add to it.
-/

namespace Quorum

open Act Member

/-- What a member is made to do. -/
inductive Occasion where
  | start
  | timer (event : TimerEvent)
  | request (sender : NodeId) (request : Request)
  | response (sender : NodeId) (response : Response)
  | peerConnected (peer : NodeId)
  | peerDisconnected
  | beginSync
  | endSync
  /-- The log layer notes the position of its newest entry. -/
  | recordLog (term index : Nat)
  deriving DecidableEq, Repr

/-- The handler that an occasion calls for.  Only a request is answered. -/
def Occasion.handler (registry : Registry) : Occasion → Act Member (Option Response)
  | .start => do Member.start; return none
  | .timer event => do Member.onTimer registry event; return none
  | .request sender asked => Member.onRequest registry sender asked
  | .response sender told => do Member.onResponse registry sender told; return none
  | .peerConnected peer => do Member.onPeerConnected registry peer; return none
  | .peerDisconnected => do Member.onPeerDisconnected registry; return none
  | .beginSync => do let _ ← Member.beginSync; return none
  | .endSync => do Member.endSync; return none
  | .recordLog term index => do
      Member.modifyLedger fun ledger => ledger.recordLog term index
      return none

/-- What the other members can notice of a member. -/
structure Seat where
  id : NodeId
  ledger : Ledger
  standing : Standing
  deriving DecidableEq, Repr

def Member.seat (member : Member) : Seat := ⟨member.id, member.ledger, member.standing⟩

namespace Seat

def leads (seat : Seat) : Prop := seat.standing.role = .leader

/-- The assertion of leadership in the current term. -/
def assertion (seat : Seat) : Request := .leaderHeartbeat seat.ledger.currentTerm seat.id

/-- The request for votes in the current term. -/
def campaign (seat : Seat) : Request :=
  .vote seat.ledger.currentTerm seat.ledger.lastLogTerm seat.ledger.lastLogIndex

end Seat

/-- The standing after giving way to a newer term or to a leader. -/
def Standing.yielded : Standing → Standing
  | candidate _ | leader _ => follower
  | follower => follower
  | sync => sync

theorem Standing.leadsNot_of_resting
    {standing : Standing}
    (resting : standing.yielded = standing) :
    standing.role ≠ .leader := by
  cases standing with
  | leader heartbeat => cases resting
  | follower | candidate votes | sync => nofun

/-- The term that an answer tells. -/
def Response.term? : Response → Option Nat
  | heartbeat => none
  | vote term _ => some term
  | leaderHeartbeat term _ => some term

/-- An answer that gives the vote of a term away. -/
@[simp]
def Grants (term : Nat) (answer : Except Failure (Option Response)) : Prop :=
  answer = .ok (some (.vote term true))

/-- An answer that gives no vote away, or no answer at all. -/
@[simp]
def Refuses (answer : Except Failure (Option Response)) : Prop :=
  ∀ term, ¬ Grants term answer

/-- What one occasion does to the seat of a member.  The indices are the occasion, the seat before,
the answer, the requests that may have gone out, and the seat after. -/
inductive Turn :
    Occasion → Seat → Except Failure (Option Response) → List Request → Seat → Prop where
  /-- Nothing that the others could notice. -/
  | unmoved
      {occasion : Occasion} {seat : Seat} {answer : Except Failure (Option Response)}
      (refused : Refuses answer) :
      Turn occasion seat answer [] seat
  /-- A leader says that it leads. -/
  | asserted
      {occasion : Occasion} {seat : Seat} {answer : Except Failure (Option Response)}
      (leads : seat.leads)
      (refused : Refuses answer) :
      Turn occasion seat answer [seat.assertion] seat
  /-- A member that does not lead begins or ends to catch up, or gives up its candidacy. -/
  | rested
      {occasion : Occasion} {seat : Seat} {answer : Except Failure (Option Response)}
      {standing : Standing}
      (refused : Refuses answer)
      (resting : standing = .follower ∨ standing = .sync)
      (leadsNot : ¬ seat.leads) :
      Turn occasion seat answer [] { seat with standing }
  /-- A leader gives up because too few peers are left. -/
  | abdicated
      {occasion : Occasion} {seat : Seat} {answer : Except Failure (Option Response)}
      (refused : Refuses answer)
      (leads : seat.leads) :
      Turn occasion seat answer []
        { seat with ledger := seat.ledger.setLeader none, standing := .follower }
  /-- A newer term is taken over from a response. -/
  | adopted
      {sender : NodeId} {response : Response} {seat : Seat}
      {answer : Except Failure (Option Response)}
      {term : Nat}
      (refused : Refuses answer)
      (told : response.term? = some term)
      (newer : seat.ledger.currentTerm < term) :
      Turn (.response sender response) seat answer []
        { seat with ledger := seat.ledger.advanceTerm term, standing := seat.standing.yielded }
  /-- A vote is given to a candidate in a newer term. -/
  | granted
      {candidate : NodeId} {seat : Seat} {answer : Except Failure (Option Response)}
      {term lastLogTerm lastLogIndex : Nat}
      (granting : ∀ term', Grants term' answer → term' = term)
      (newer : seat.ledger.currentTerm < term)
      (recent : seat.ledger.isUpToDate lastLogTerm lastLogIndex = true) :
      Turn (.request candidate (.vote term lastLogTerm lastLogIndex)) seat answer []
        { seat with
          ledger := (seat.ledger.advanceTerm term).voteFor candidate
          standing := seat.standing.yielded }
  /-- A leader of this term or a newer one is accepted. -/
  | accepted
      {sender leader : NodeId} {seat : Seat} {answer : Except Failure (Option Response)}
      {term : Nat}
      (refused : Refuses answer)
      (current : seat.ledger.currentTerm ≤ term)
      (outranked : seat.leads → seat.ledger.currentTerm < term) :
      Turn (.request sender (.leaderHeartbeat term leader)) seat answer []
        { seat with
          ledger := (seat.ledger.advanceTerm term).setLeader (some leader)
          standing := seat.standing.yielded }
  /-- A new term is begun with a vote for oneself. -/
  | campaigned
      {seat after : Seat} {answer : Except Failure (Option Response)}
      {ledger : Ledger}
      (refused : Refuses answer)
      (leadsNot : ¬ seat.leads)
      (next : seat.ledger.nextTerm = .ok ledger)
      (contested : (∃ reply, answer = .ok reply) → 1 < ledger.quorum)
      (becomes : after =
        { seat with ledger := ledger.voteFor seat.id, standing := .candidate [seat.id] }) :
      Turn (.timer .electionTimeout) seat answer [after.campaign] after
  /-- A new term is begun in a cluster of one, which needs no other vote. -/
  | carried
      {seat after : Seat} {answer : Except Failure (Option Response)}
      {ledger : Ledger}
      {heartbeat : Handle}
      (refused : Refuses answer)
      (leadsNot : ¬ seat.leads)
      (next : seat.ledger.nextTerm = .ok ledger)
      (alone : ledger.quorum ≤ 1)
      (becomes : after =
        { seat with
          ledger := (ledger.voteFor seat.id).setLeader (some seat.id)
          standing := .leader heartbeat }) :
      Turn (.timer .electionTimeout) seat answer [after.campaign, after.assertion] after
  /-- A vote is counted. -/
  | counted
      {sender : NodeId} {seat : Seat} {answer : Except Failure (Option Response)}
      {term : Nat}
      {votes : List NodeId}
      (refused : Refuses answer)
      (candidate : seat.standing = .candidate votes)
      (current : term = seat.ledger.currentTerm)
      (short : (∃ reply, answer = .ok reply) →
        (votes.insert sender).length < seat.ledger.quorum) :
      Turn (.response sender (.vote term true)) seat answer []
        { seat with standing := .candidate (votes.insert sender) }
  /-- A counted vote completes a quorum. -/
  | won
      {sender : NodeId} {seat after : Seat} {answer : Except Failure (Option Response)}
      {term : Nat}
      {votes : List NodeId}
      {heartbeat : Handle}
      (refused : Refuses answer)
      (candidate : seat.standing = .candidate votes)
      (current : term = seat.ledger.currentTerm)
      (enough : seat.ledger.quorum ≤ (votes.insert sender).length)
      (becomes : after =
        { seat with
          ledger := seat.ledger.setLeader (some seat.id)
          standing := .leader heartbeat }) :
      Turn (.response sender (.vote term true)) seat answer [after.assertion] after
  /-- The log layer notes a position. -/
  | recorded
      {seat : Seat} {answer : Except Failure (Option Response)}
      {term index : Nat}
      (refused : Refuses answer) :
      Turn (.recordLog term index) seat answer []
        { seat with ledger := seat.ledger.recordLog term index }

/-- Between two stages nothing but requests among `said` was asked of the transport. -/
def Says (stage : Stage Member) (said : List Request) (after : Stage Member) : Prop :=
  ∀ entry ∈ after.outside.asked, entry ∈ stage.outside.asked ∨
    ∃ conn, ∃ request ∈ said, entry.2 = .send conn (.request request)

theorem Says.refl (stage : Stage Member) : Says stage [] stage :=
  fun _ asked => .inl asked

theorem Says.of_asked_eq
    {stage after : Stage Member}
    (asked : after.outside.asked = stage.outside.asked) :
    Says stage [] after := by
  intro entry member
  exact .inl (asked ▸ member)

theorem Says.trans
    {stage middle after : Stage Member}
    {first second : List Request}
    (before : Says stage first middle)
    (behind : Says middle second after) :
    Says stage (first ++ second) after := by
  intro entry asked
  rcases behind entry asked with old | ⟨conn, request, member, same⟩
  · rcases before entry old with older | ⟨conn, request, member, same⟩
    · exact .inl older
    · exact .inr ⟨conn, request, List.mem_append_left _ member, same⟩
  · exact .inr ⟨conn, request, List.mem_append_right _ member, same⟩

theorem Says.mono
    {stage after : Stage Member}
    {said more : List Request}
    (spoken : Says stage said after)
    (subset : said ⊆ more) :
    Says stage more after := by
  intro entry asked
  rcases spoken entry asked with old | ⟨conn, request, member, same⟩
  · exact .inl old
  · exact .inr ⟨conn, request, subset member, same⟩

/-- The stage after has the given seat, and nothing but requests among `said` went out. -/
structure Shows
    (stage : Stage Member)
    (said : List Request)
    (seat : Seat)
    (after : Stage Member) : Prop where
  seat : after.own.seat = seat
  spoken : Says stage said after

theorem Shows.refl (stage : Stage Member) : Shows stage [] stage.own.seat stage :=
  ⟨rfl, Says.refl stage⟩

theorem Shows.mono
    {stage after : Stage Member}
    {said more : List Request}
    {seat : Seat}
    (shown : Shows stage said seat after)
    (subset : said ⊆ more) :
    Shows stage more seat after :=
  ⟨shown.seat, shown.spoken.mono subset⟩

/-- A handler that no other member notices, whichever way it goes. -/
def Unnoticed {α : Type} (act : Act Member α) : Prop :=
  ∀ stage, act.Ensures stage
    (fun _ after => Shows stage [] stage.own.seat after)
    (fun _ after => Shows stage [] stage.own.seat after)

namespace Unnoticed

variable {α β : Type}

theorem pure (value : α) : Unnoticed (pure value : Act Member α) :=
  fun stage => ⟨rfl, Says.refl stage⟩

theorem bind
    {act : Act Member α}
    {next : α → Act Member β}
    (first : Unnoticed act)
    (second : ∀ value, Unnoticed (next value)) :
    Unnoticed (act >>= next) := by
  intro stage
  rw [ensures_bind]
  refine (first stage).mono ?_ fun _ _ shown => shown
  intro value middle before
  have together :
      ∀ after, Shows middle [] middle.own.seat after → Shows stage [] stage.own.seat after :=
    fun after behind => ⟨behind.seat.trans before.seat, before.spoken.trans behind.spoken⟩
  exact (second value middle).mono (fun _ => together) fun _ => together

theorem own : Unnoticed Act.own :=
  fun stage => ⟨rfl, Says.refl stage⟩

theorem modifyOwn
    {change : Member → Member}
    (same : ∀ member, (change member).seat = member.seat) :
    Unnoticed (Act.modifyOwn change) :=
  fun stage => ⟨same stage.own, Says.refl stage⟩

theorem cancelIfAny (handle : Option Handle) : Unnoticed (Act.cancelIfAny handle) :=
  fun _ => by cases handle <;> exact ⟨rfl, Says.of_asked_eq rfl⟩

theorem draw (window : Window) : Unnoticed (Act.draw window) :=
  fun _ => ⟨rfl, Says.of_asked_eq rfl⟩

theorem arm (delay : Delay) (event : TimerEvent) (repeats : Bool) :
    Unnoticed (Act.arm delay event repeats) := by
  intro _
  rw [ensures_arm]
  split <;> exact ⟨rfl, Says.of_asked_eq rfl⟩

theorem disarmElection : Unnoticed Member.disarmElection :=
  own.bind fun member =>
    (cancelIfAny member.electionTask).bind fun _ => modifyOwn fun _ => rfl

theorem rearmElection (delay : Delay) : Unnoticed (Member.rearmElection delay) :=
  disarmElection.bind fun _ =>
    (arm delay .electionTimeout false).bind fun _ => modifyOwn fun _ => rfl

theorem rearmElectionDrawn : Unnoticed Member.rearmElectionDrawn :=
  own.bind fun member => (draw member.window).bind rearmElection

end Unnoticed

/-- What was shown so far is still shown after a handler that is not noticed. -/
theorem Unnoticed.keeps_shown
    {α : Type}
    {act : Act Member α}
    {start stage : Stage Member}
    {said : List Request}
    {seat : Seat}
    (unnoticed : Unnoticed act)
    (shown : Shows start said seat stage) :
    act.Ensures stage
      (fun _ after => Shows start said seat after)
      (fun _ after => Shows start said seat after) := by
  have together :
      ∀ after, Shows stage [] stage.own.seat after → Shows start said seat after := by
    intro after behind
    exact ⟨behind.seat.trans shown.seat, by simpa using shown.spoken.trans behind.spoken⟩
  exact (unnoticed stage).mono (fun _ => together) fun _ => together

/-- Replacing the standing is noticed as just that, also if the change cannot be dated. -/
theorem become_shows
    {start stage : Stage Member}
    {said : List Request}
    {seat : Seat}
    (next : Standing)
    (shown : Shows start said seat stage) :
    (become next).Ensures stage
      (fun _ after => Shows start said { seat with standing := next } after)
      (fun _ after => Shows start said { seat with standing := next } after) := by
  obtain ⟨rfl, spoken⟩ := shown
  unfold become
  simp only [ensures_bind, ensures_own]
  split
  all_goals
    simp only [ensures_bind, ensures_cancel, ensures_modifyOwn]
    exact ensures_datedClockMs ⟨rfl, spoken⟩ fun _ => ⟨rfl, spoken⟩

/-- Changing the ledger is noticed as just that. -/
theorem modifyLedger_shows
    {start stage : Stage Member}
    {said : List Request}
    {seat : Seat}
    (change : Ledger → Ledger)
    (shown : Shows start said seat stage) :
    (modifyLedger change).Ensures stage
      (fun _ after => Shows start said { seat with ledger := change seat.ledger } after)
      fun _ _ => False := by
  obtain ⟨rfl, spoken⟩ := shown
  exact ⟨rfl, spoken⟩

theorem sendRequest_shows
    {start stage : Stage Member}
    {said : List Request}
    {seat : Seat}
    {request : Request}
    (conn : ConnId)
    (voiced : request ∈ said)
    (shown : Shows start said seat stage) :
    (sendRequest conn request : Act Member Unit).Ensures stage
      (fun _ after => Shows start said seat after)
      fun _ _ => False := by
  refine ⟨shown.seat, ?_⟩
  intro entry asked
  rcases List.mem_cons.mp asked with rfl | old
  · exact .inr ⟨conn, request, voiced, rfl⟩
  · exact shown.spoken entry old

theorem broadcast_shows
    {start stage : Stage Member}
    {said : List Request}
    {seat : Seat}
    {request : Request}
    (registry : Registry)
    (voiced : request ∈ said)
    (shown : Shows start said seat stage) :
    (broadcast registry request).Ensures stage
      (fun _ after => Shows start said seat after)
      fun _ _ => False := by
  unfold broadcast
  induction registry.connections generalizing stage with
  | nil => exact shown
  | cons conn rest ih =>
    rw [List.forM, ensures_bind]
    exact (sendRequest_shows conn voiced shown).mono (fun _ _ sent => ih sent) fun _ _ => id

/-- A member gives way by becoming a follower if it campaigns or leads, and has nothing to do
otherwise. -/
theorem ensures_yielding
    {α : Type}
    {stage : Stage Member}
    {rest : Unit → Act Member α}
    {done : α → Stage Member → Prop}
    {failed : Failure → Stage Member → Prop}
    (onActive : stage.own.standing.yielded = .follower →
      (become .follower >>= rest).Ensures stage done failed)
    (onResting : stage.own.standing.yielded = stage.own.standing →
      (rest ()).Ensures stage done failed) :
    Ensures
      (match stage.own.role with
        | .candidate => become .follower >>= rest
        | .leader => become .follower >>= rest
        | .follower => rest ()
        | .sync => rest ()) stage done failed := by
  unfold Member.role
  cases standing : stage.own.standing with
  | candidate votes => exact onActive (by rw [standing]; rfl)
  | leader heartbeat => exact onActive (by rw [standing]; rfl)
  | follower => exact onResting (by rw [standing]; rfl)
  | sync => exact onResting (by rw [standing]; rfl)

/-- A member that gives way stops campaigning or leading, and goes on from there. -/
theorem yielding_ensures
    {α : Type}
    {start stage : Stage Member}
    {said : List Request}
    {seat : Seat}
    {rest : Unit → Act Member α}
    {done : α → Stage Member → Prop}
    {failed : Failure → Stage Member → Prop}
    (shown : Shows start said seat stage)
    (onRest : ∀ after, Shows start said { seat with standing := seat.standing.yielded } after →
      (rest ()).Ensures after done failed)
    (onFailed : ∀ failure after,
      Shows start said { seat with standing := seat.standing.yielded } after →
        failed failure after) :
    Ensures
      (match stage.own.role with
        | .candidate => become .follower >>= rest
        | .leader => become .follower >>= rest
        | .follower => rest ()
        | .sync => rest ()) stage done failed := by
  have standing : stage.own.standing = seat.standing := congrArg Seat.standing shown.seat
  refine ensures_yielding (fun active => ?_) fun resting => ?_
  · rw [standing] at active
    rw [active] at onRest onFailed
    exact (ensures_bind _ _).mpr
      ((become_shows .follower shown).mono (fun _ => onRest) onFailed)
  · rw [standing] at resting
    rw [resting] at onRest
    exact onRest stage shown

/-- The outcome of a handler is a turn. -/
def Turns
    (occasion : Occasion)
    (stage : Stage Member)
    (answer : Except Failure (Option Response))
    (after : Stage Member) : Prop :=
  ∃ said, Turn occasion stage.own.seat answer said after.own.seat ∧ Says stage said after

theorem Turn.turns
    {occasion : Occasion}
    {stage after : Stage Member}
    {answer : Except Failure (Option Response)}
    {said : List Request}
    {seat : Seat}
    (turn : Turn occasion stage.own.seat answer said seat)
    (shown : Shows stage said seat after) :
    Turns occasion stage answer after :=
  ⟨said, shown.seat ▸ turn, shown.spoken⟩

/-- A last part that is not noticed ends a turn, whichever way it goes. -/
theorem Unnoticed.turns
    {α : Type}
    {act : Act Member α}
    {occasion : Occasion}
    {start stage : Stage Member}
    {said : List Request}
    {seat : Seat}
    {reply : Option Response}
    (unnoticed : Unnoticed act)
    (shown : Shows start said seat stage)
    (answered : Turn occasion start.own.seat (.ok reply) said seat)
    (failed : ∀ failure, Turn occasion start.own.seat (.error failure) said seat) :
    act.Ensures stage
      (fun _ after => Turns occasion start (.ok reply) after)
      (fun failure after => Turns occasion start (.error failure) after) :=
  (unnoticed.keeps_shown shown).mono
    (fun _ _ => answered.turns) fun failure _ => (failed failure).turns

end Quorum
