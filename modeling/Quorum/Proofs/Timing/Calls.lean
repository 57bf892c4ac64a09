import Quorum.Proofs.Timing.Tiers
import Quorum.Timing.Scheduler

/-!
# Calls of the scheduler

What the operations of a scheduler come to, each stated once: which task a schedule call puts into
the wheels, what else it changes, and which faults it can end with.
-/

namespace Quorum.Scheduler

variable {α : Type} {scheduler next : Scheduler α} {clockMs : Nat} {task : Task α}

/-- A scheduler starts with empty wheels and an empty queue. -/
theorem start_eq_ok
    {config : TimerConfig}
    (made : Scheduler.start config clockMs = .ok scheduler) :
    ∃ tiers : TwoTier α, tiers.Stands config 0 [] ∧
      scheduler = {
        config, epochMs := clockMs, tiers, fired := [], cancelled := {}, issued := 0
        running := true, attended := true, intact := true } := by
  unfold start at made
  obtain ⟨_, valid, made⟩ := bind_eq_ok_iff.mp made
  obtain ⟨tiers, tiersMade, made⟩ := bind_eq_ok_iff.mp made
  exact ⟨tiers,
    TwoTier.ofConfig_stands (mapError_eq_ok_iff.mp valid) (mapError_eq_ok_iff.mp tiersMade),
    (Except.ok.inj made).symm⟩

/-- The task that a schedule call puts into the wheels. -/
def appointment
    (scheduler : Scheduler α)
    (clockMs : Nat)
    (delay : Delay)
    (repeats : Bool)
    (payload : α) : Task α where
  handle := scheduler.nextHandle
  delay := delay
  period := if repeats then some delay else none
  fireAtMs := scheduler.nowMs clockMs + delay.ms
  payload := payload

/-- Placing a task, case by case. -/
theorem place_eq (scheduler : Scheduler α) (clockMs : Nat) (task : Task α) :
    scheduler.place clockMs task =
      if scheduler.running then
        match scheduler.config.checkDelay task.delayMs with
        | .error failure => .error failure
        | .ok () =>
          match Word.add (scheduler.nowMs clockMs) task.delayMs with
          | .error cause => .error (.fault cause)
          | .ok fireAtMs =>
            match scheduler.tiers.place { task with fireAtMs } with
            | .error cause => .error (.fault cause)
            | .ok none => .error (scheduler.refuse task)
            | .ok (some tiers) => .ok { scheduler with tiers }
      else .error (.error .schedulerStopped) := by
  unfold place
  cases scheduler.running with
  | false => rfl
  | true =>
      simp only [Bool.not_true, Bool.false_eq_true, if_false, if_true, bind, Except.bind]
      cases scheduler.config.checkDelay task.delayMs with
      | error failure => rfl
      | ok _ =>
          cases Word.add (scheduler.nowMs clockMs) task.delayMs with
          | error cause => rfl
          | ok fireAtMs =>
              simp only [lift_ok]
              rcases scheduler.tiers.place { task with fireAtMs } with cause | _ | tiers
              · rfl
              · rfl
              · rfl

/-- When a task is placed, and what that changes: it goes into the wheels with its fire time. -/
theorem place_eq_ok_iff :
    scheduler.place clockMs task = .ok next ↔
      scheduler.running = true ∧ scheduler.config.checkDelay task.delayMs = .ok () ∧
        scheduler.nowMs clockMs + task.delayMs < Word.limit ∧
        ∃ tiers, scheduler.tiers.place
            { task with fireAtMs := scheduler.nowMs clockMs + task.delayMs } = .ok (some tiers) ∧
          next = { scheduler with tiers } := by
  rw [place_eq]
  constructor
  · intro placed
    split at placed
    · next running =>
      split at placed
      · cases placed
      · next checked =>
        split at placed
        · cases placed
        · next fireAtMs sum =>
          obtain ⟨fits, rfl⟩ := Word.add_eq_ok_iff.mp sum
          split at placed
          · cases placed
          · cases placed
          · next tiers found =>
            exact ⟨running, checked, fits, tiers, found, (Except.ok.inj placed).symm⟩
    · cases placed
  · rintro ⟨running, checked, fits, tiers, found, rfl⟩
    simp only [running, if_true, checked, Word.add_eq_ok fits, found]

theorem running_of_isTicking (ticking : scheduler.isTicking = true) :
    scheduler.running = true := by
  simp only [isTicking, Bool.and_eq_true] at ticking
  exact ticking.1.1

theorem capacityMs_fault
    {config : TimerConfig}
    {cause : Fault}
    (failed : config.capacityMs = .error cause) :
    cause = .overflow := by
  unfold TimerConfig.capacityMs at failed
  rcases bind_eq_error_iff.mp failed with spanned | ⟨spanMs, _, product⟩
  · exact (Word.mul_eq_error spanned).2
  · exact (Word.mul_eq_error product).2

theorem checkDelay_fault
    {config : TimerConfig}
    {delayMs : Nat}
    {cause : Fault}
    (failed : config.checkDelay delayMs = .error (.fault cause)) :
    cause = .overflow := by
  unfold TimerConfig.checkDelay TimerConfig.maxDelayMs at failed
  cases capacity : config.capacityMs with
  | error found =>
      rw [capacity] at failed
      cases failed
      exact capacityMs_fault capacity
  | ok capacityMs =>
      -- The capacity is known, so that the delay can only be refused.
      rw [capacity] at failed
      have refused : (if delayMs > capacityMs - config.tickMs then
          .error (.error (.capacityExceeded delayMs capacityMs)) else .ok () :
          Except Failure Unit) = .error (.fault cause) := failed
      split at refused
      · cases refused
      · cases refused

/-- A delay that the wheels accept fits into a word. -/
theorem lt_limit_of_checkDelay
    {config : TimerConfig}
    {delayMs : Nat}
    (checked : config.checkDelay delayMs = .ok ()) :
    delayMs < Word.limit := by
  unfold TimerConfig.checkDelay TimerConfig.maxDelayMs at checked
  cases capacity : config.capacityMs with
  | error found =>
      rw [capacity] at checked
      cases checked
  | ok capacityMs =>
      obtain ⟨spanMs, _, product⟩ := bind_eq_ok_iff.mp capacity
      obtain ⟨fits, rfl⟩ := Word.mul_eq_ok_iff.mp product
      rw [capacity] at checked
      have accepted : (if delayMs > spanMs * config.farBuckets - config.tickMs then
          .error (.error (.capacityExceeded delayMs (spanMs * config.farBuckets))) else .ok () :
          Except Failure Unit) = .ok () := checked
      split at accepted
      · cases accepted
      · omega

/-- Placing a task that is not behind the wheels can only be lost to a number that does not fit. -/
theorem place_fault
    {position : Nat}
    {agenda : List (Task α)}
    {cause : Fault}
    (stands : scheduler.tiers.Stands scheduler.config position agenda)
    (ahead : position ≤ (scheduler.nowMs clockMs + task.delayMs) / scheduler.config.tickMs)
    (failed : scheduler.place clockMs task = .error (.fault cause)) :
    cause = .overflow := by
  rw [place_eq] at failed
  split at failed
  · split at failed
    · next checked =>
      cases failed
      exact checkDelay_fault checked
    · split at failed
      · next sum =>
        cases failed
        exact (Word.add_eq_error sum).2
      · next fireAtMs sum =>
        obtain ⟨_, rfl⟩ := Word.add_eq_ok_iff.mp sum
        split at failed
        · next lost =>
          cases failed
          have ahead' : position ≤ Task.slot scheduler.config.tickMs
              { task with fireAtMs := scheduler.nowMs clockMs + task.delayMs } := ahead
          exact stands.place_error ahead' lost
        · unfold refuse at failed
          split at failed
          · cases failed
          · next lost =>
            cases failed
            exact capacityMs_fault lost
        · cases failed
  · cases failed

/-- Scheduling is placing the next appointment. -/
theorem schedule_eq
    (scheduler : Scheduler α)
    (clockMs : Nat)
    (delay : Delay)
    (repeats : Bool)
    (payload : α) :
    scheduler.schedule clockMs delay repeats payload =
      (scheduler.place clockMs (scheduler.appointment clockMs delay repeats payload)).map
        fun placed => (scheduler.nextHandle, { placed with issued := scheduler.issued + 1 }) := by
  unfold schedule
  cases repeats with
  | false =>
      simp only [Bool.false_eq_true, if_false, bind, Except.bind, place_eq]
      rfl
  | true =>
      simp only [if_true, bind, Except.bind, place_eq]
      rfl

/-- Once the delay and the fire time are known to be in order, a schedule call comes to what the
wheels say. -/
theorem schedule_of_checked
    {delay : Delay}
    (running : scheduler.running = true)
    (checked : scheduler.config.checkDelay delay.ms = .ok ())
    (fits : scheduler.nowMs clockMs + delay.ms < Word.limit)
    (repeats : Bool)
    (payload : α) :
    scheduler.schedule clockMs delay repeats payload =
      match scheduler.tiers.place (scheduler.appointment clockMs delay repeats payload) with
      | .error cause => .error (.fault cause)
      | .ok none => .error (scheduler.refuse (scheduler.appointment clockMs delay repeats payload))
      | .ok (some tiers) =>
        .ok (scheduler.nextHandle, { scheduler with tiers, issued := scheduler.issued + 1 }) := by
  have length : (scheduler.appointment clockMs delay repeats payload).delayMs = delay.ms := rfl
  rw [schedule_eq, place_eq, if_pos running, length, checked, Word.add_eq_ok fits]
  have same : ({ scheduler.appointment clockMs delay repeats payload with
      fireAtMs := scheduler.nowMs clockMs + delay.ms } : Task α) =
        scheduler.appointment clockMs delay repeats payload := rfl
  dsimp only
  rw [same]
  rcases scheduler.tiers.place (scheduler.appointment clockMs delay repeats payload) with
    cause | _ | tiers
  · rfl
  · rfl
  · rfl

/-- A schedule call is accepted as its appointment is placed. -/
theorem exists_place_of_schedule
    {delay : Delay}
    {repeats : Bool}
    {payload : α}
    {handle : Handle}
    (scheduled : scheduler.schedule clockMs delay repeats payload = .ok (handle, next)) :
    handle = scheduler.nextHandle ∧
      ∃ placed,
        scheduler.place clockMs (scheduler.appointment clockMs delay repeats payload) =
          .ok placed ∧
        next = { placed with issued := scheduler.issued + 1 } := by
  rw [schedule_eq] at scheduled
  cases placed : scheduler.place clockMs (scheduler.appointment clockMs delay repeats payload) with
  | error failure =>
      rw [placed] at scheduled
      cases scheduled
  | ok after =>
      rw [placed] at scheduled
      cases scheduled
      exact ⟨rfl, after, rfl, rfl⟩

theorem schedule_eq_ok
    {delay : Delay}
    {repeats : Bool}
    {payload : α}
    {handle : Handle}
    (scheduled : scheduler.schedule clockMs delay repeats payload = .ok (handle, next)) :
    handle = scheduler.nextHandle ∧ scheduler.running = true ∧
      ∃ tiers,
        scheduler.tiers.place (scheduler.appointment clockMs delay repeats payload) =
          .ok (some tiers) ∧
        next = { scheduler with tiers, issued := scheduler.issued + 1 } := by
  obtain ⟨named, after, placed, rfl⟩ := exists_place_of_schedule scheduled
  obtain ⟨running, _, _, tiers, found, rfl⟩ := place_eq_ok_iff.mp placed
  exact ⟨named, running, tiers, found, rfl⟩

/-- A schedule call is refused as its appointment is. -/
theorem place_of_refused
    {delay : Delay}
    {repeats : Bool}
    {payload : α}
    {failure : Failure}
    (refused : scheduler.schedule clockMs delay repeats payload = .error failure) :
    scheduler.place clockMs (scheduler.appointment clockMs delay repeats payload) =
      .error failure := by
  rw [schedule_eq] at refused
  cases placed : scheduler.place clockMs (scheduler.appointment clockMs delay repeats payload) with
  | error found =>
      rw [placed] at refused
      cases refused
      rfl
  | ok after =>
      rw [placed] at refused
      cases refused

theorem schedule_fault
    {position : Nat}
    {agenda : List (Task α)}
    {delay : Delay}
    {repeats : Bool}
    {payload : α}
    {cause : Fault}
    (stands : scheduler.tiers.Stands scheduler.config position agenda)
    (ahead : position ≤ (scheduler.nowMs clockMs + delay.ms) / scheduler.config.tickMs)
    (failed : scheduler.schedule clockMs delay repeats payload = .error (.fault cause)) :
    cause = .overflow := by
  have length : (scheduler.appointment clockMs delay repeats payload).delayMs = delay.ms := rfl
  exact place_fault stands (length ▸ ahead) (place_of_refused failed)

end Quorum.Scheduler
