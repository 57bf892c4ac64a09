import Quorum.Node.Shard
import Quorum.Proofs.Node.Capacity

/-!
# A handler that fails ends the shard

A handler can fail half way, with a timer cancelled and not armed again, or a role changed and
nobody told.  Nothing may be handed to a node in such a state.  It never is, because a handler fails
only in ways that no shard goes on from: an error that comes out of it is fatal, whatever the state
of the node and of its timers (`Impulse.severe`).

So a shard either goes on and every handler has answered, or it has ended with the first one that
failed (`Shard.ends_at_failure`).  That an error can be left behind is of no use to a node.
-/

namespace Quorum

open Act

/-- A failure that no shard goes on from: a fatal error, or a fault. -/
def Failure.isSevere : Failure → Bool
  | error cause => cause.isFatal
  | fault _ => true

/-! ## What scheduling fails with -/

theorem TimerConfig.checkDelay_isSevere
    {config : TimerConfig}
    {delayMs : Nat}
    {failure : Failure}
    (failed : config.checkDelay delayMs = .error failure) :
    failure.isSevere = true := by
  unfold checkDelay maxDelayMs at failed
  cases capacity : config.capacityMs with
  | error cause =>
      rw [capacity] at failed
      cases failed
      rfl
  | ok capacityMs =>
      rw [capacity] at failed
      have refused : (if delayMs > capacityMs - config.tickMs then
          .error (.error (.capacityExceeded delayMs capacityMs)) else .ok () :
          Except Failure Unit) = .error failure := failed
      split at refused <;> cases refused
      rfl

namespace Scheduler

variable {α : Type} {scheduler : Scheduler α} {clockMs : Nat} {failure : Failure}

theorem refuse_isSevere (task : Task α) : (scheduler.refuse task).isSevere = true := by
  unfold refuse
  split <;> rfl

theorem place_isSevere
    {task : Task α}
    (failed : scheduler.place clockMs task = .error failure) :
    failure.isSevere = true := by
  rw [place_eq] at failed
  split at failed
  · split at failed
    · next found checked =>
      cases failed
      exact TimerConfig.checkDelay_isSevere checked
    split at failed
    · cases failed
      rfl
    split at failed <;> cases failed
    · rfl
    · exact refuse_isSevere task
  · cases failed
    rfl

theorem schedule_isSevere
    {delay : Delay}
    {repeats : Bool}
    {payload : α}
    (failed : scheduler.schedule clockMs delay repeats payload = .error failure) :
    failure.isSevere = true :=
  place_isSevere (place_of_refused failed)

end Scheduler

/-! ## What handlers fail with -/

/-- The handler fails only severely, wherever it is performed. -/
def Act.Severe {σ α : Type} (act : Act σ α) : Prop :=
  ∀ stage, act.Ensures stage (fun _ _ => True) fun failure _ => failure.isSevere = true

/-- Whatever the timers are and whatever they are armed with. -/
def Regime.severe : Regime where
  holds := fun _ _ => True
  admits := fun _ => True
  fails := fun _ failure => failure.isSevere = true
  cancel := fun _ _ => trivial
  undated := fun _ _ => rfl
  armed := fun _ _ _ => trivial
  refused := fun _ _ refused => Scheduler.schedule_isSevere refused

/-- Whatever makes a node act, in whatever state, its handler fails only severely. -/
theorem Impulse.severe (impulse : Impulse) : impulse.handler.Severe := by
  intro stage
  have abides : stage.own.Abides Regime.severe.admits :=
    ⟨⟨fun _ _ => trivial, trivial, trivial⟩, ⟨trivial, trivial⟩⟩
  exact (Core.Abides.obeys (fun _ => rfl) impulse _ stage ⟨abides, trivial, rfl⟩).mono
    (fun _ _ _ => trivial) fun _ _ => id

/-! ## What a shard hands to its core -/

/-- What becomes of a core. -/
inductive Call where
  /-- Something happened outside: time passed, timers fired and were taken, or wishes were passed
  on. -/
  | passed (change : Outside → Outside)
  /-- The subscribers fetched their news. -/
  | fetched
  | handled (impulse : Impulse)

/-- The core takes all calls, one after the other, and answers each that it has to handle. -/
inductive Answered : Stage Core → List Call → Stage Core → Prop where
  | done
      {stage : Stage Core} :
      Answered stage [] stage
  | passed
      {stage after : Stage Core} {change : Outside → Outside} {calls : List Call}
      (answered : Answered { stage with outside := change stage.outside } calls after) :
      Answered stage (.passed change :: calls) after
  | fetched
      {stage after : Stage Core} {calls : List Call}
      (answered : Answered { stage with own.news := [] } calls after) :
      Answered stage (.fetched :: calls) after
  | handled
      {stage between after : Stage Core} {impulse : Impulse} {calls : List Call}
      (performed : impulse.handler.perform stage = (.ok (), between))
      (answered : Answered between calls after) :
      Answered stage (.handled impulse :: calls) after

variable {stage between after failed : Stage Core} {calls calls' : List Call} {failure : Failure}

theorem Answered.append
    (answered : Answered stage calls between)
    (answered' : Answered between calls' after) :
    Answered stage (calls ++ calls') after := by
  induction answered with
  | done => exact answered'
  | passed _ ih => exact .passed (ih answered')
  | fetched _ ih => exact .fetched (ih answered')
  | handled performed _ ih => exact .handled performed (ih answered')

namespace Failure

/-- How a shard ends with a failure. -/
def phase : Failure → Phase
  | error cause => .ended (.error cause)
  | fault _ => .crashed

/-- What is left of a core whose handler has failed.  A fault leaves it where it was, and after an
error it is shut down. -/
def remains (failed : Stage Core) : Failure → Core
  | error _ => (Core.shutdown.perform failed).2.own
  | fault _ => failed.own

end Failure

namespace Shard

variable {shard shard' next : Shard}

/-- The shard has ended with a failure, and its core is left alone. -/
structure EndedWith (failure : Failure) (failed : Stage Core) (shard : Shard) : Prop where
  fatal : ∀ cause, failure = .error cause → cause.isFatal = true
  phase_eq : shard.phase = failure.phase
  member_eq : shard.stage.own.member = (failure.remains failed).member
  liveness_eq : shard.stage.own.liveness = (failure.remains failed).liveness

/-- How it goes when calls come in: either the core answers them all and the shard goes on, or one
of them fails, the shard ends with it, and those behind it never reach the core. -/
inductive Takes (stage : Stage Core) (calls : List Call) (shard : Shard) : Prop where
  | answered
      (running : shard.isRunning = true)
      (answered : Answered stage calls shard.stage)
  | failed
      {served unserved : List Call} {impulse : Impulse} {before failed : Stage Core}
      {failure : Failure}
      (calls_eq : calls = served ++ .handled impulse :: unserved)
      (answered : Answered stage served before)
      (performed : impulse.handler.perform before = (.error failure, failed))
      (ended : shard.EndedWith failure failed)

/-- A shard that has ended stays as it is, apart from its clock and its subscribers. -/
structure Settled (shard next : Shard) : Prop where
  phase_eq : next.phase = shard.phase
  member_eq : next.stage.own.member = shard.stage.own.member
  liveness_eq : next.stage.own.liveness = shard.stage.own.liveness

theorem EndedWith.not_running (ended : shard.EndedWith failure failed) :
    shard.isRunning = false := by
  unfold isRunning
  rw [ended.phase_eq]
  cases failure <;> rfl

theorem EndedWith.settled
    (ended : shard.EndedWith failure failed)
    (settled : shard.Settled next) :
    next.EndedWith failure failed where
  fatal := ended.fatal
  phase_eq := settled.phase_eq.trans ended.phase_eq
  member_eq := settled.member_eq.trans ended.member_eq
  liveness_eq := settled.liveness_eq.trans ended.liveness_eq

/-- The core of a shard that runs has answered everything. -/
theorem Takes.answered_of_running
    (takes : shard.Takes stage calls)
    (running : shard.isRunning = true) :
    Answered stage calls shard.stage := by
  cases takes with
  | answered _ answered => exact answered
  | failed _ _ _ ended =>
      rw [ended.not_running] at running
      cases running

theorem Takes.append
    (takes : shard.Takes stage calls)
    (onward : shard.isRunning = true → next.Takes shard.stage calls')
    (still : shard.isRunning = false → shard.Settled next) :
    next.Takes stage (calls ++ calls') := by
  cases takes with
  | answered running answered =>
      cases onward running with
      | answered running' answered' => exact .answered running' (answered.append answered')
      | failed calls_eq answered' performed ended =>
          subst calls_eq
          exact .failed (List.append_assoc ..).symm (answered.append answered') performed ended
  | failed calls_eq answered performed ended =>
      subst calls_eq
      have settled := ended.settled (still ended.not_running)
      exact .failed (List.append_assoc ..) answered performed settled

/-! ## The rounds of the loop -/

/-- What happens to a shard.  After everything that it handles, and after a poll, it takes what was
handed off meanwhile. -/
inductive Round where
  | passed (change : Outside → Outside)
  | fetched
  | polled (accepted : List ConnId)
  | handled (impulse : Impulse) (accepted : List ConnId)

/-- The calls to take handed-off connections. -/
def handOffs (accepted : List ConnId) : List Call :=
  accepted.map fun conn => .handled (.told (.accepted conn))

def Round.toCalls : Round → List Call
  | passed change => [.passed change]
  | fetched => [.fetched]
  | polled accepted => handOffs accepted
  | handled impulse accepted => .handled impulse :: handOffs accepted

def perform (shard : Shard) : Round → Shard
  | .passed change => { shard with stage.outside := change shard.stage.outside }
  | .fetched => shard.told
  | .polled accepted => shard.turn (pure ()) accepted
  | .handled impulse accepted => shard.turn impulse.handler accepted

/-- A shard goes through all rounds, in order. -/
def serve (shard : Shard) (rounds : List Round) : Shard := rounds.foldl perform shard

theorem Settled.refl (shard : Shard) : shard.Settled shard := ⟨rfl, rfl, rfl⟩

/-- What becomes of a shard whose handler has failed severely. -/
def lost (shard : Shard) (failed : Stage Core) : Failure → Shard
  | .error cause => { shard with stage := failed }.finish (.error cause)
  | .fault _ => { shard with stage := failed, phase := .crashed }

/-- An impulse whose handler fails ends the shard, since the failure is severe. -/
theorem lost_takes
    {impulse : Impulse}
    (performed : impulse.handler.perform shard.stage = (.error failure, failed)) :
    (shard.lost failed failure).Takes shard.stage (.handled impulse :: calls) := by
  have severe : failure.isSevere = true := (impulse.severe shard.stage).of_perform performed
  refine .failed (List.nil_append _).symm .done performed ?_
  cases failure with
  | error cause => exact ⟨fun _ same => Failure.error.inj same ▸ severe, rfl, rfl, rfl⟩
  | fault cause => exact ⟨nofun, rfl, rfl, rfl⟩

theorem attempt_takes (running : shard.isRunning = true) (impulse : Impulse) :
    (shard.attempt impulse.handler).Takes shard.stage [.handled impulse] := by
  have severe := impulse.severe shard.stage
  rcases performed : impulse.handler.perform shard.stage with ⟨_ | ⟨⟩, after⟩
  · next failure =>
    have severe : failure.isSevere = true := severe.of_perform performed
    have lost_eq : shard.attempt impulse.handler = shard.lost after failure := by
      unfold attempt
      rw [performed]
      cases failure with
      | error cause => exact if_pos severe
      | fault cause => rfl
    rw [lost_eq]
    exact lost_takes performed
  · have answers : shard.attempt impulse.handler = { shard with stage := after } := by
      unfold attempt
      rw [performed]
    rw [answers]
    exact .answered running (.handled performed .done)

theorem accept_of_ended (ended : shard.isRunning = false) (accepted : List ConnId) :
    shard.accept accepted = shard := by
  cases accepted with
  | nil => rfl
  | cons conn rest =>
      unfold accept
      simp only [ended, Bool.false_eq_true, if_false]

theorem accept_takes (running : shard.isRunning = true) (accepted : List ConnId) :
    (shard.accept accepted).Takes shard.stage (handOffs accepted) := by
  induction accepted generalizing shard with
  | nil => exact .answered running .done
  | cons conn rest ih =>
      unfold accept
      simp only [running, if_true]
      refine (attempt_takes running (.told (.accepted conn))).append ih fun ended => ?_
      exact (accept_of_ended ended rest).symm ▸ .refl _

/-- What is published changes nothing. -/
theorem publish_accept_takes (running : shard.isRunning = true) (accepted : List ConnId) :
    (shard.publish.accept accepted).Takes shard.stage (handOffs accepted) := by
  have published : shard.publish.isRunning = true := running
  exact accept_takes published accepted

theorem turn_takes
    (running : shard.isRunning = true)
    (impulse : Impulse)
    (accepted : List ConnId) :
    (shard.turn impulse.handler accepted).Takes shard.stage
      (.handled impulse :: handOffs accepted) := by
  have takes := attempt_takes running impulse
  unfold turn
  simp only [running, if_true]
  split
  · next onward =>
    exact takes.append (fun _ => publish_accept_takes onward accepted) fun ended =>
      absurd onward (Bool.eq_false_iff.mp ended)
  · next ended =>
    exact takes.append (fun onward => absurd onward ended) fun _ => .refl _

theorem perform_takes (running : shard.isRunning = true) (round : Round) :
    (shard.perform round).Takes shard.stage round.toCalls := by
  cases round with
  | passed change => exact .answered running (.passed .done)
  | fetched => exact .answered running (.fetched .done)
  | polled accepted =>
      have polls : shard.perform (.polled accepted) = shard.publish.accept accepted := by
        have idle : shard.attempt (pure ()) = shard := rfl
        unfold perform turn
        simp only [running, if_true, idle]
      rw [polls]
      exact publish_accept_takes running accepted
  | handled impulse accepted => exact turn_takes running impulse accepted

/-- A shard that has ended is not woken by any round. -/
theorem perform_settled (ended : shard.isRunning = false) (round : Round) :
    shard.Settled (shard.perform round) := by
  have turns (handler : Act Core Unit) (accepted : List ConnId) :
      shard.Settled (shard.turn handler accepted) := by
    unfold turn
    simp only [ended, Bool.false_eq_true, if_false]
    exact .refl shard
  cases round with
  | passed change | fetched => exact ⟨rfl, rfl, rfl⟩
  | polled accepted | handled impulse accepted => exact turns _ accepted

theorem Settled.trans (settled : shard.Settled shard') (settled' : shard'.Settled next) :
    shard.Settled next where
  phase_eq := settled'.phase_eq.trans settled.phase_eq
  member_eq := settled'.member_eq.trans settled.member_eq
  liveness_eq := settled'.liveness_eq.trans settled.liveness_eq

theorem Settled.not_running (settled : shard.Settled next) (ended : shard.isRunning = false) :
    next.isRunning = false := by
  unfold isRunning at ended ⊢
  rwa [settled.phase_eq]

theorem serve_settled (ended : shard.isRunning = false) (rounds : List Round) :
    shard.Settled (shard.serve rounds) := by
  induction rounds generalizing shard with
  | nil => exact .refl shard
  | cons round rest ih =>
      have settled := perform_settled ended round
      exact settled.trans (ih (settled.not_running ended))

theorem serve_takes (running : shard.isRunning = true) (rounds : List Round) :
    (shard.serve rounds).Takes shard.stage (rounds.flatMap Round.toCalls) := by
  induction rounds generalizing shard with
  | nil => exact .answered running .done
  | cons round rest ih =>
      exact (perform_takes running round).append ih fun ended => serve_settled ended rest

theorem begin_takes (running : shard.isRunning = true) (accepted : List ConnId) :
    (shard.begin accepted).Takes shard.stage (.handled (.told .started) :: handOffs accepted) := by
  rcases performed : Core.start.perform shard.stage with ⟨_ | ⟨⟩, after⟩
  · next failure =>
    have lost_eq : shard.begin accepted = shard.lost after failure := by
      unfold begin
      rw [performed]
      cases failure <;> rfl
    have performed : (Impulse.told .started).handler.perform shard.stage =
        (.error failure, after) := performed
    rw [lost_eq]
    exact lost_takes performed
  · have answers :
        shard.begin accepted = { shard with stage := after }.publish.accept accepted := by
      unfold begin
      rw [performed]
    rw [answers]
    have started : ({ shard with stage := after } : Shard).Takes shard.stage
        [.handled (.told .started)] := .answered running (.handled performed .done)
    refine started.append (publish_accept_takes · accepted) fun ended => ?_
    exact absurd running (Bool.eq_false_iff.mp ended)

/-- No error is left behind.  An error that a handler answers is fatal, whatever the node was doing.
So a shard goes on as long as every handler answers, and with the first one that fails it ends: what
the handler left half changed is shut down, and is never handed anything again. -/
theorem ends_at_failure
    (shard : Shard)
    (running : shard.isRunning = true)
    (accepted : List ConnId)
    (rounds : List Round) :
    (∀ (impulse : Impulse) (stage : Stage Core) cause,
      (impulse.handler.perform stage).1 = .error (.error cause) → cause.isFatal = true) ∧
    (shard.serve rounds).Takes shard.stage (rounds.flatMap Round.toCalls) ∧
    ((shard.begin accepted).serve rounds).Takes shard.stage
      (.handled (.told .started) :: handOffs accepted ++ rounds.flatMap Round.toCalls) := by
  refine ⟨fun impulse stage cause failed => ?_, serve_takes running rounds, ?_⟩
  · exact (impulse.severe stage).of_perform (perform_eq failed)
  · exact (begin_takes running accepted).append (fun onward => serve_takes onward rounds)
      fun ended => serve_settled ended rounds

end Shard

namespace Strained

/-! ### A connection for which there is no timer

The wheels were settled two ticks ago and cannot hold the timeout of a connection.  The handler has
listed the connection before it learns that. -/

def shard : Shard := ⟨Tight.later Tight.late 30, Tight.late.own.status, .running⟩

/-- Two more connections are handed off after the first one. -/
def rounds : List Shard.Round :=
  [.handled (.told (.accepted ⟨1⟩)) [⟨2⟩], .handled (.told (.accepted ⟨3⟩)) []]

end Strained

/-- The shard ends, and the other connections never reach it. -/
theorem Shard.ends_at_failure_strained :
    Strained.shard.isRunning = true ∧
      (Strained.shard.serve Strained.rounds).Takes Strained.shard.stage
        [.handled (.told (.accepted ⟨1⟩)), .handled (.told (.accepted ⟨2⟩)),
          .handled (.told (.accepted ⟨3⟩))] ∧
      (Strained.shard.serve Strained.rounds).phase.result? =
        some (.error (.capacityExceeded 30 40)) ∧
      Error.isFatal (.capacityExceeded 30 40) = true ∧
      (Strained.shard.serve Strained.rounds).stage.own.registry.anonymous = [⟨1⟩] := by
  have running : Strained.shard.isRunning = true := rfl
  have failed : ((Impulse.told (.accepted ⟨1⟩)).handler.perform Strained.shard.stage).1 =
      .error (.error (.capacityExceeded 30 40)) := by decide +kernel
  obtain ⟨fatal, takes, _⟩ := Strained.shard.ends_at_failure running [] Strained.rounds
  exact ⟨running, takes, by decide +kernel, fatal _ _ _ failed, by decide +kernel⟩

end Quorum
