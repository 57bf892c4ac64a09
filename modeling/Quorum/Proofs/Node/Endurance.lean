import Quorum.Proofs.Election.Conduct
import Quorum.Proofs.Node.Capacity
import Quorum.Proofs.Node.Tidings
import Quorum.Proofs.Timing.Headroom

/-!
# What a node outlasts

Nothing that a node is told, and no timer that it armed, makes it lose a handler, as long as its
clock and its wheels are in range.  There is one exception.  When its election timer fires, a member
that can campaign begins the term after the current one, and there may be none
(`Course.fault_iff`).

A member comes to the last term only in two ways.  Either it has counted up to it, one term for
every election timer, or a message has named a term not far from it.  So the terms that were named,
together with the election timers that fired, tell how long a node is safe
(`Logbook.lost_only_after_last_term`).  A peer can name the last term at once, and then the node is
lost with the next election timer (`Logbook.lost_to_last_word`).
-/

namespace Quorum

open Act

/-! ## Timers in range -/

namespace Scheduler

variable
    {α : Type}
    {table : Timetable}
    {timers : Scheduler α}
    {clockMs : Nat}

/-- The clock has a date, and neither the end of the far window nor the longest delay from now on
leaves the words. -/
structure InRange (table : Timetable) (timers : Scheduler α) (clockMs : Nat) : Prop where
  dated : clockMs ≤ lastInstantMs
  window : timers.tiers.far.pastMs < Word.limit
  longest : ∀ longestMs, table.config.maxDelayMs = .ok longestMs →
    timers.nowMs clockMs + longestMs < Word.limit

namespace Prepared

/-- In range no accepted delay is lost, and the windows stay where they are. -/
theorem place_inRange
    (prepared : timers.Prepared table clockMs)
    (inRange : timers.InRange table clockMs)
    (task : Task α)
    (admitted : table.Admits task.delay) :
    match timers.place clockMs task with
    | .ok next => next.InRange table clockMs
    | .error failure => ∀ cause, failure ≠ .fault cause := by
  have checked : timers.config.checkDelay task.delayMs = .ok () := prepared.config_eq ▸ admitted
  obtain ⟨spanMs, capacity, within⟩ := TimerConfig.checkDelay_eq_ok_iff.mp admitted
  have fits : timers.nowMs clockMs + task.delayMs < Word.limit :=
    Nat.lt_of_le_of_lt (Nat.add_le_add_left within _)
      (inRange.longest _ (TimerConfig.maxDelayMs_of_capacity capacity))
  have ahead : (table.settledMs - table.epochMs) / table.config.tickMs ≤
      Task.slot table.config.tickMs
        { task with fireAtMs := timers.nowMs clockMs + task.delayMs } :=
    prepared.ahead task.delayMs
  obtain ⟨agenda, stands⟩ := prepared.stands
  -- The check and the sum succeed, so that the task can only find no place, which is no fault.
  have placed := stands.place_of_fits ahead inRange.window
  rw [place_eq, if_pos prepared.running, checked]
  dsimp only
  rw [Word.add_eq_ok fits]
  dsimp only
  split at placed
  · obtain ⟨tiers, found, same⟩ := placed
    rw [found]
    exact { inRange with window := same ▸ inRange.window }
  · rw [placed]
    dsimp only
    unfold refuse
    rw [prepared.config_eq, capacity]
    exact nofun

end Prepared

end Scheduler

/-- The timers are prepared and everything is in range.  Then nothing is lost. -/
def Regime.faultless (table : Timetable) : Regime where
  holds := fun timers clockMs => timers.Prepared table clockMs ∧ timers.InRange table clockMs
  admits := table.Admits
  fails := fun _ failure => ∀ cause, failure ≠ .fault cause
  cancel := fun ⟨prepared, inRange⟩ handle => ⟨prepared.cancel handle, { inRange with }⟩
  undated := fun ⟨_, inRange⟩ late => absurd inRange.dated (Nat.not_le.mpr late)
  armed := by
    rintro timers clockMs delay repeats event handle next ⟨prepared, inRange⟩ admitted armed
    refine ⟨prepared.schedule admitted armed, ?_⟩
    obtain ⟨_, placed, found, rfl⟩ := Scheduler.exists_place_of_schedule armed
    have after := prepared.place_inRange inRange (timers.appointment clockMs delay repeats event)
      admitted
    rw [found] at after
    exact { after with }
  refused := by
    rintro timers clockMs delay repeats event failure ⟨prepared, inRange⟩ admitted refused
    have after := prepared.place_inRange inRange (timers.appointment clockMs delay repeats event)
      admitted
    rwa [Scheduler.place_of_refused refused] at after

/-! ## The election timer -/

/-- The election timer of this member begins a new term, but the current one is the last. -/
def Member.Spent (registry : Registry) (member : Member) : Prop :=
  member.isLeader = false ∧ member.canCampaign registry = true ∧
    Word.limit ≤ member.ledger.currentTerm + 1

namespace Member

variable {stage : Stage Member} {registry : Registry}

/-- A member without a next term is lost. -/
theorem onElectionTimeout_lost (spent : stage.own.Spent registry) :
    (onElectionTimeout registry).Ensures stage (fun _ _ => False)
      fun failure _ => failure = .fault .overflow := by
  obtain ⟨idle, able, last⟩ := spent
  have exhausted : stage.own.ledger.nextTerm = .error .overflow := by
    unfold Ledger.nextTerm Word.add
    rw [if_neg (Nat.not_lt.mpr last)]
    rfl
  unfold onElectionTimeout startElection
  rw [ensures_bind, ensures_own, idle, able, if_neg Bool.false_ne_true, if_pos rfl,
    ensures_bind, ensures_own, exhausted]
  exact (ensures_bind _ _).mpr rfl

/-- Every other member obeys when its election timer fires. -/
theorem Abides.onElectionTimeout
    {regime : Regime}
    {clockMs : Nat}
    (ready : stage.Ready regime clockMs (Abides regime.admits))
    (unspent : ¬ stage.own.Spent registry) :
    (onElectionTimeout registry).Ensures stage
      (fun _ after => after.Ready regime clockMs (Abides regime.admits))
      fun failure _ => regime.fails clockMs failure := by
  have bearing : Bearing (Obeys regime (Abides regime.admits)) (Abides regime.admits)
      regime.admits := bearing
  have rearms := bearing.rearmElection ready.admitted.election
  have resigns : Obeys regime (Abides regime.admits) (become .follower) := bearing.become nofun
  unfold Member.onElectionTimeout
  rw [ensures_bind, ensures_own]
  split
  · exact ready
  next idle =>
  split
  · next able =>
    -- There is a next term, and then the campaign is one like any other.
    have fits : stage.own.ledger.currentTerm + 1 < Word.limit := by
      by_contra last
      exact unspent ⟨Bool.of_not_eq_true idle, able, Nat.not_lt.mp last⟩
    have begins := Ledger.nextTerm_eq_ok_iff.mpr ⟨fits, rfl⟩
    unfold startElection
    rw [ensures_bind, ensures_own, begins]
    exact bearing.bind (bearing.modifyLedger _) (fun _ => bearing.campaign registry _) _ _ ready
  · split
    · exact bearing.bind resigns (fun _ => rearms) _ _ ready
    · exact rearms _ _ ready

end Member

/-! ## What a node is lost to -/

namespace Core

variable {stage : Stage Core}

/-- The election timer is a matter of the member alone. -/
theorem ensures_electionTimeout
    {done : Unit → Stage Core → Prop}
    {failed : Failure → Stage Core → Prop} :
    (Impulse.timer .electionTimeout).handler.Ensures stage done failed ↔
      (Member.onElectionTimeout stage.own.registry).Ensures ⟨stage.own.member, stage.outside⟩
        (fun _ inner => done () ⟨{ stage.own with member := inner.own }, inner.outside⟩)
        fun failure inner =>
          failed failure ⟨{ stage.own with member := inner.own }, inner.outside⟩ := by
  have electing : (Impulse.timer .electionTimeout).handler = elect Member.onElectionTimeout := rfl
  rw [electing]
  unfold elect
  rw [ensures_bind, ensures_own, ensures_within]

theorem electionTimeout_lost (spent : stage.own.member.Spent stage.own.registry) :
    (Impulse.timer .electionTimeout).handler.Ensures stage (fun _ _ => False)
      fun failure _ => failure = .fault .overflow :=
  ensures_electionTimeout.mpr (Member.onElectionTimeout_lost spent)

theorem Abides.electionTimeout
    {regime : Regime}
    {clockMs : Nat}
    (ready : stage.Ready regime clockMs (Abides regime.admits))
    (unspent : ¬ stage.own.member.Spent stage.own.registry) :
    (Impulse.timer .electionTimeout).handler.Ensures stage
      (fun _ after => after.Ready regime clockMs (Abides regime.admits))
      fun failure _ => regime.fails clockMs failure := by
  have abides := ready.admitted
  have ready' : Stage.Ready regime clockMs (Member.Abides regime.admits)
      ⟨stage.own.member, stage.outside⟩ := { ready with admitted := abides.member }
  refine ensures_electionTimeout.mpr ((Member.Abides.onElectionTimeout ready' unspent).mono ?_ ?_)
  · exact fun _ inner after => { after with admitted := { abides with member := after.admitted } }
  · exact fun _ _ fails => fails

end Core

namespace Course

variable
    {config : NodeConfig}
    {table : Timetable}
    {stage : Stage Core}

/-- In range the timers lose nothing. -/
theorem ready_inRange
    (course : Course config table stage)
    (inRange : stage.outside.timers.InRange table stage.outside.clockMs) :
    stage.Ready (.faultless table) stage.outside.clockMs (Core.Abides table.Admits) :=
  { course.ready with prepared := ⟨course.ready.prepared, inRange⟩ }

/-- In range a handler is lost only if it has to begin a term after the last one. -/
theorem fault_iff
    (course : Course config table stage)
    (inRange : stage.outside.timers.InRange table stage.outside.clockMs)
    (impulse : Impulse)
    (cause : Fault) :
    (impulse.handler.perform stage).1 = .error (.fault cause) ↔
      impulse = .timer .electionTimeout ∧ cause = .overflow ∧
        stage.own.member.Spent stage.own.registry := by
  have ready := course.ready_inRange inRange
  constructor
  · intro lost
    by_cases electoral : impulse = .timer .electionTimeout
    · subst electoral
      by_cases spent : stage.own.member.Spent stage.own.registry
      · have overflows := (Core.electionTimeout_lost spent).of_perform (perform_eq lost)
        cases overflows
        exact ⟨rfl, rfl, spent⟩
      · have answers := (Core.Abides.electionTimeout ready spent).of_perform (perform_eq lost)
        exact absurd rfl (answers cause)
    · have answers := (Core.Abides.routine electoral _ _ ready).of_perform (perform_eq lost)
      exact absurd rfl (answers cause)
  · rintro ⟨rfl, rfl, spent⟩
    have lost := Core.electionTimeout_lost spent
    unfold Ensures at lost
    split at lost
    · cases lost
    · next performed =>
      rw [performed, lost]

end Course

/-! ## Where terms come from -/

/-- The term that a request names. -/
def Request.term : Request → Nat
  | heartbeat _ => 0
  | vote term _ _ => term
  | leaderHeartbeat term _ => term

/-- The term that an answer names. -/
def Response.term (response : Response) : Nat := response.term?.getD 0

namespace Occasion

/-- The term that an occasion names. -/
def term : Occasion → Nat
  | request _ asked => asked.term
  | response _ told => told.term
  | _ => 0

/-- The terms that an occasion can begin. -/
def begins : Occasion → Nat
  | timer .electionTimeout => 1
  | _ => 0

end Occasion

/-- The current term is the one before or the one that the occasion names, and the next one to it if
the occasion begins a term. -/
theorem Turn.currentTerm_le
    {occasion : Occasion}
    {seat after : Seat}
    {answer : Except Failure (Option Response)}
    {said : List Request}
    (turn : Turn occasion seat answer said after) :
    after.ledger.currentTerm ≤ max seat.ledger.currentTerm occasion.term + occasion.begins := by
  have kept : seat.ledger.currentTerm ≤
      max seat.ledger.currentTerm occasion.term + occasion.begins :=
    Nat.le_trans (Nat.le_max_left _ _) (Nat.le_add_right _ _)
  cases turn with
  | adopted _ told _ => simp [Occasion.term, Response.term, told]
  | granted => simp [Occasion.term, Request.term]
  | accepted => simp [Occasion.term, Request.term]
  | campaigned _ _ begun _ becomes =>
    simp [becomes, Ledger.currentTerm_of_nextTerm begun, Occasion.term, Occasion.begins]
  | carried _ _ begun _ becomes =>
    simp [becomes, Ledger.currentTerm_of_nextTerm begun, Occasion.term, Occasion.begins]
  | won _ _ _ _ becomes => simpa [becomes] using kept
  | abdicated => simpa using kept
  | recorded => simpa using kept
  | unmoved => exact kept
  | asserted => exact kept
  | rested => exact kept
  | counted => exact kept

namespace Impulse

/-- The term that an impulse names. -/
def term : Impulse → Nat
  | told (.reported (.received _ (.request request))) => request.term
  | told (.reported (.received _ (.response response))) => response.term
  | _ => 0

/-- The terms that an impulse can begin. -/
def begins : Impulse → Nat
  | timer event => Occasion.begins (.timer event)
  | told _ => 0

/-- As an occasion for the member an impulse names the same term, and begins as many. -/
theorem of_occasion?
    {impulse : Impulse}
    {registry : Registry}
    {occasion : Occasion}
    (meant : impulse.occasion? registry = some occasion) :
    occasion.term = impulse.term ∧ occasion.begins = impulse.begins := by
  unfold occasion? at meant
  split at meant
  · obtain ⟨sender, _, rfl⟩ := Option.map_eq_some_iff.mp meant
    exact ⟨rfl, rfl⟩
  · obtain ⟨sender, _, rfl⟩ := Option.map_eq_some_iff.mp meant
    exact ⟨rfl, rfl⟩
  · cases meant
  · cases meant
    exact ⟨rfl, rfl⟩

end Impulse

namespace Core

variable {before after : Stage Core} {impulse : Impulse}

theorem Bids.currentTerm_le
    {occasion : Option Occasion}
    {term begins : Nat}
    (bids : Bids before occasion after)
    (named : ∀ met ∈ occasion, met.term ≤ term ∧ met.begins ≤ begins) :
    after.own.member.ledger.currentTerm ≤
      max before.own.member.ledger.currentTerm term + begins := by
  cases bids with
  | idle => exact Nat.le_trans (Nat.le_max_left _ _) (Nat.le_add_right _ _)
  | met meets =>
    obtain ⟨named, begun⟩ := named _ rfl
    obtain ⟨answer, said, turn⟩ := meets.turn
    have bounded : after.own.member.ledger.currentTerm ≤
        max before.own.member.ledger.currentTerm _ + _ := turn.currentTerm_le
    omega

/-- Whatever a node does, its term is the one before or the one that was named, and the next one to
it if the election timer fired. -/
theorem Conducts.currentTerm_le (conducts : Conducts before impulse after) :
    after.own.member.ledger.currentTerm ≤
      max before.own.member.ledger.currentTerm impulse.term + impulse.begins := by
  cases conducts with
  | elected unheard bids =>
    refine bids.currentTerm_le fun occasion meant => ?_
    obtain ⟨named, begun⟩ := Impulse.of_occasion? meant
    exact ⟨Nat.le_of_eq named, Nat.le_of_eq begun⟩
  | @watched happening event effect between after heard watches bids =>
    rw [← watches.member_eq]
    refine bids.currentTerm_le fun occasion told => ?_
    obtain ⟨news, _, rfl⟩ := Option.map_eq_some_iff.mp told
    cases news <;> exact ⟨Nat.zero_le _, Nat.zero_le _⟩
  | started begins meets watches =>
    rw [watches.member_eq]
    refine Bids.currentTerm_le (.met meets) fun occasion met => ?_
    cases met
    exact ⟨Nat.zero_le _, Nat.zero_le _⟩

end Core

/-! ## Runs with their impulses -/

/-- The newest term that was named. -/
def newestTerm : List Impulse → Nat
  | [] => 0
  | impulse :: earlier => max impulse.term (newestTerm earlier)

/-- How often the election timer has fired. -/
def elections : List Impulse → Nat
  | [] => 0
  | impulse :: earlier => impulse.begins + elections earlier

/-- What made a node act in a run, the newest first. -/
inductive Logbook (config : NodeConfig) : List Impulse → Timetable → Stage Core → Prop where
  | begun
      {table : Timetable} {stage : Stage Core} {sinceMs : Nat}
      (course : Course config table stage)
      (own_eq : stage.own = Core.ofConfig config sinceMs) :
      Logbook config [] table stage
  | handled
      {impulses : List Impulse} {table : Timetable} {stage after : Stage Core} {impulse : Impulse}
      (logbook : Logbook config impulses table stage)
      (answered : impulse.handler.perform stage = (.ok (), after)) :
      Logbook config (impulse :: impulses) table after
  /-- Whatever else happens in a run, the member does not notice. -/
  | meanwhile
      {impulses : List Impulse} {earlier table : Timetable} {before stage : Stage Core}
      (logbook : Logbook config impulses earlier before)
      (course : Course config table stage)
      (member_eq : stage.own.member = before.own.member) :
      Logbook config impulses table stage

/-- Every run has its logbook. -/
theorem Course.exists_logbook
    {config : NodeConfig}
    {table : Timetable}
    {stage : Stage Core}
    (course : Course config table stage) :
    ∃ impulses, Logbook config impulses table stage := by
  induction course with
  | begun valid own_eq clock_eq made =>
    exact ⟨[], .begun (.begun valid own_eq clock_eq made) own_eq⟩
  | handled _ answered ih =>
    obtain ⟨impulses, logbook⟩ := ih
    exact ⟨_, logbook.handled answered⟩
  | received course taken ih =>
    exact ih.imp fun _ logbook => logbook.meanwhile (course.received taken) rfl
  | settled course intact ih =>
    exact ih.imp fun _ logbook => logbook.meanwhile (course.settled intact) rfl
  | fetched course ih =>
    exact ih.imp fun _ logbook => logbook.meanwhile course.fetched rfl
  | elapsed course timers_eq later ih =>
    exact ih.imp fun _ logbook => logbook.meanwhile (course.elapsed timers_eq later) rfl

namespace Logbook

variable
    {config : NodeConfig}
    {impulses : List Impulse}
    {table : Timetable}
    {stage : Stage Core}

theorem course (logbook : Logbook config impulses table stage) : Course config table stage := by
  induction logbook with
  | begun course => exact course
  | handled _ answered ih => exact ih.handled answered
  | meanwhile _ course => exact course

/-- The current term is at most as many elections past the newest one that was named. -/
theorem currentTerm_le (logbook : Logbook config impulses table stage) :
    stage.own.member.ledger.currentTerm ≤ newestTerm impulses + elections impulses := by
  induction logbook with
  | begun _ own_eq =>
    rw [own_eq]
    exact Nat.zero_le _
  | handled _ answered ih =>
    have risen := ((Core.impulse_conducts _).of_perform answered).currentTerm_le
    simp only [newestTerm, elections]
    omega
  | meanwhile _ _ member_eq ih =>
    -- The wheels and the clock have moved on, but the ledger has not.
    rwa [member_eq]

/-- While the clock and the wheels are in range, a run is lost only to an election in the last term.
As long as the newest term that was named and the number of fired election timers stay below it
together, nothing makes the node lose a handler.  And it can always shut down. -/
theorem lost_only_after_last_term
    (logbook : Logbook config impulses table stage)
    (inRange : stage.outside.timers.InRange table stage.outside.clockMs) :
    (∀ (impulse : Impulse) cause,
      (impulse.handler.perform stage).1 = .error (.fault cause) ↔
        impulse = .timer .electionTimeout ∧ cause = .overflow ∧
          stage.own.member.Spent stage.own.registry) ∧
    (newestTerm impulses + elections impulses + 1 < Word.limit →
      ∀ (impulse : Impulse) cause,
        (impulse.handler.perform stage).1 ≠ .error (.fault cause)) ∧
    ∀ cause, (Core.shutdown.perform stage).1 ≠ .error (.fault cause) := by
  have lost := logbook.course.fault_iff inRange
  have ready := logbook.course.ready_inRange inRange
  refine ⟨lost, fun early impulse cause faulty => ?_, fun cause faulty => ?_⟩
  · obtain ⟨_, _, _, _, last⟩ := (lost impulse cause).mp faulty
    have reached := logbook.currentTerm_le
    omega
  · have answers := (Core.Abides.shutdown _ _ ready).of_perform (perform_eq faulty)
    exact absurd rfl (answers cause)

end Logbook

namespace Summit

/-! ### A peer that names the last term

The peer calls, and asks for a vote in the last term that a word can hold.  It gets the vote, and
nothing more is heard of its election, so that the election timer fires. -/

def config : NodeConfig := { Lull.config with electionMinMs := 1500, electionMaxMs := 1500 }

def fresh : Stage Core := { Lull.fresh with own := Core.ofConfig config 0 }

def received (request : Request) : Impulse := .told (.reported (.received ⟨1⟩ (.request request)))

def calls : Impulse := received (.heartbeat "1")

def asks : Impulse := received (.vote 18446744073709551615 0 0)

def called : Stage Core := Borrowed.moved (Lull.told fresh .started) calls

def asked : Stage Core := Borrowed.moved called asks

def election : Task TimerEvent := ⟨⟨2⟩, Delay.ofMs 1500, none, 1500, .electionTimeout⟩

/-- The election timer has fired. -/
def due : Stage Core := Lull.settled asked 2000

/-- It has been taken from the queue. -/
def last : Stage Core := { due with outside.timers := Lull.rest due }

theorem taken : due.outside.timers.receive 2000 = .ok (some election, last.outside.timers) := by
  decide +kernel

theorem logbooks :
    Logbook config [calls, .told .started] ⟨config.timer, 0, 0⟩ called ∧
      Logbook config [asks, calls, .told .started] ⟨config.timer, 0, 2000⟩ last := by
  have act {impulses : List Impulse} {table : Timetable} {stage : Stage Core}
      (logbook : Logbook config impulses table stage) (impulse : Impulse)
      (answers : (impulse.handler.perform stage).1 = .ok ()) :
      Logbook config (impulse :: impulses) table (Borrowed.moved stage impulse) :=
    logbook.handled (perform_eq answers)
  have valid : config.validate = .ok () := by decide +kernel
  have made : Scheduler.start config.timer 0 = .ok fresh.outside.timers := by decide +kernel
  have begun : Course config ⟨config.timer, 0, 0⟩ fresh := .begun valid rfl rfl made
  have starts := act (.begun begun rfl) (.told .started) (by decide +kernel)
  have called : Logbook config _ _ called := act starts calls (by decide +kernel)
  have asked : Logbook config _ _ asked := act called asks (by decide +kernel)
  have late : Course config _ (Tight.later Summit.asked 2000) :=
    asked.course.elapsed rfl (by decide +kernel)
  have due : Course config ⟨config.timer, 0, 2000⟩ due := late.settled (by decide +kernel)
  exact ⟨called, asked.meanwhile (due.received taken) rfl⟩

theorem inRange :
    called.outside.timers.InRange ⟨config.timer, 0, 0⟩ 0 ∧
      last.outside.timers.InRange ⟨config.timer, 0, 2000⟩ 2000 := by
  have longest {longestMs nowMs : Nat} (found : config.timer.maxDelayMs = .ok longestMs)
      (soon : nowMs ≤ 2000) : nowMs + longestMs < Word.limit := by
    have exact : config.timer.maxDelayMs = .ok 399000 := by decide +kernel
    obtain rfl := Except.ok.inj (found.symm.trans exact)
    unfold Word.limit
    omega
  exact ⟨⟨by decide, by decide +kernel, fun _ found => longest found (by decide +kernel)⟩,
    ⟨by decide, by decide +kernel, fun _ found => longest found (by decide +kernel)⟩⟩

end Summit

/-- Nothing makes the node lose a handler when its peer has called. -/
theorem Logbook.lost_only_after_last_term_called :
    Logbook Summit.config [Summit.calls, .told .started]
        ⟨Summit.config.timer, 0, 0⟩ Summit.called ∧
      Summit.called.outside.timers.InRange ⟨Summit.config.timer, 0, 0⟩ 0 ∧
      (∀ (impulse : Impulse) cause,
        (impulse.handler.perform Summit.called).1 ≠ .error (.fault cause)) ∧
      ∀ cause, (Core.shutdown.perform Summit.called).1 ≠ .error (.fault cause) := by
  have logbook := Summit.logbooks.1
  have began : Summit.called.outside.clockMs = 0 := by decide +kernel
  have inRange : Summit.called.outside.timers.InRange _ Summit.called.outside.clockMs :=
    began ▸ Summit.inRange.1
  obtain ⟨_, safe, shuts⟩ := logbook.lost_only_after_last_term inRange
  exact ⟨logbook, Summit.inRange.1, safe (by decide +kernel), shuts⟩

/-- When the peer has named the last term, the node is lost with its election timer. -/
theorem Logbook.lost_to_last_word :
    Logbook Summit.config [Summit.asks, Summit.calls, .told .started]
        ⟨Summit.config.timer, 0, 2000⟩ Summit.last ∧
      Summit.last.outside.timers.InRange ⟨Summit.config.timer, 0, 2000⟩ 2000 ∧
      Summit.due.outside.timers.receive 2000 =
        .ok (some Summit.election, Summit.last.outside.timers) ∧
      ((Impulse.timer Summit.election.payload).handler.perform Summit.last).1 =
        .error (.fault .overflow) :=
  ⟨Summit.logbooks.2, Summit.inRange.2, Summit.taken, by decide +kernel⟩

end Quorum
