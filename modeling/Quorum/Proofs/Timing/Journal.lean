import Quorum.Proofs.Timing.Setbacks

/-!
# Journals

A `Journal` is a run of a scheduler and its consumer, with what happened in it: which tasks went
into the wheels, which handles were cancelled and which tasks were received, each with the clock
value.  Schedule calls, cancellations, settlings and receptions come in any order and at any
instant, and a settling or the next occurrence of a recurring task may fail.  When the clock may
move on is left to a rule, so that the same lemmas serve runs with a punctual thread and runs in
which nobody wakes the wheels in time.
-/

namespace Quorum

variable {α : Type}

/-! ## What is written down -/

/-- What one step of a run leaves in the history. -/
inductive Note (α : Type) where
  /-- A task went into the wheels. -/
  | scheduled (task : Task α)
  | cancelled (handle : Handle)
  /-- A task was received, and `again` is its next occurrence, if that went into the wheels. -/
  | received (task : Task α) (again : Option (Task α))
  deriving DecidableEq, Repr

namespace Note

/-- The task that went into the wheels in this step. -/
def appointed : Note α → Option (Task α)
  | scheduled task => some task
  | cancelled _ => none
  | received _ again => again

/-- The task that was received in this step. -/
def taken : Note α → Option (Task α)
  | scheduled _ => none
  | cancelled _ => none
  | received task _ => some task

/-- What an entry says about the instant at which it was written. -/
def IsRight (config : TimerConfig) (epochMs atMs : Nat) : Note α → Prop
  | scheduled task => task.fireAtMs = atMs - epochMs + task.delayMs
  | cancelled _ => True
  | received task again =>
      task.dueMs config.tickMs epochMs ≤ atMs ∧
        ∀ next, again = some next → next = { task with fireAtMs := atMs - epochMs + task.delayMs }

/-- A task counts its delay from the instant at which it went into the wheels. -/
theorem IsRight.fireAtMs_eq
    {config : TimerConfig}
    {epochMs atMs : Nat}
    {note : Note α}
    {task : Task α}
    (right : note.IsRight config epochMs atMs)
    (appoints : note.appointed = some task) :
    task.fireAtMs = atMs - epochMs + task.delayMs := by
  cases note with
  | scheduled before =>
      cases appoints
      exact right
  | cancelled _ => cases appoints
  | received before again =>
      obtain rfl := right.2 task appoints
      rfl

end Note

/-- What happened in a run and when, the latest first. -/
abbrev History (α : Type) := List (Nat × Note α)

namespace History

variable {history : History α} {clockMs : Nat} {note : Note α} {task : Task α}

/-- Every task that went into the wheels. -/
def appointed (history : History α) : List (Task α) :=
  history.filterMap fun entry => entry.2.appointed

/-- The history after one more step. -/
def noted (history : History α) (clockMs : Nat) : Option (Note α) → History α
  | none => history
  | some note => (clockMs, note) :: history

theorem mem_appointed :
    task ∈ history.appointed ↔
      ∃ atMs note, (atMs, note) ∈ history ∧ note.appointed = some task := by
  unfold appointed
  rw [List.mem_filterMap]
  exact ⟨fun ⟨⟨atMs, note⟩, listed, same⟩ => ⟨atMs, note, listed, same⟩,
    fun ⟨atMs, note, listed, same⟩ => ⟨(atMs, note), listed, same⟩⟩

theorem appointed_cons_of_some
    (history : History α)
    (clockMs : Nat)
    (appoints : note.appointed = some task) :
    appointed ((clockMs, note) :: history) = task :: history.appointed := by
  simp [appointed, appoints]

theorem appointed_cons_of_none
    (history : History α)
    (clockMs : Nat)
    (appoints : note.appointed = none) :
    appointed ((clockMs, note) :: history) = history.appointed := by
  simp [appointed, appoints]

theorem appointed_subset_noted {note : Option (Note α)} :
    history.appointed ⊆ (history.noted clockMs note).appointed := by
  intro task listed
  obtain ⟨atMs, written, among, appoints⟩ := mem_appointed.mp listed
  refine mem_appointed.mpr ⟨atMs, written, ?_, appoints⟩
  cases note with
  | none => exact among
  | some note => exact List.mem_cons_of_mem _ among

theorem mem_noted {entry : Nat × Note α} {noted : Option (Note α)} :
    entry ∈ history.noted clockMs noted ↔
      entry ∈ history ∨ ∃ note, noted = some note ∧ entry = (clockMs, note) := by
  cases noted with
  | none => simp [History.noted]
  | some note => simp [History.noted, or_comm]

end History

/-! ## Runs -/

namespace Scheduler

variable
    {config : TimerConfig}
    {epochMs clockMs laterMs : Nat}
    {timers next : Scheduler α}
    {note : Option (Note α)}
    {history : History α}
    {task again : Task α}

/-- One step of a scheduler or of its consumer, at some clock value.  A schedule call that is
refused changes nothing and is no step. -/
inductive Step (timers : Scheduler α) (clockMs : Nat) : Option (Note α) → Scheduler α → Prop where
  | scheduled
      {next : Scheduler α} {delay : Delay} {repeats : Bool} {payload : α} {handle : Handle}
      (accepted : timers.schedule clockMs delay repeats payload = .ok (handle, next)) :
      Step timers clockMs
        (some (.scheduled (timers.appointment clockMs delay repeats payload))) next
  /-- Only a handle that was given out can be cancelled. -/
  | cancelled
      {handle : Handle}
      (issued : handle.number < timers.issued) :
      Step timers clockMs (some (.cancelled handle)) (timers.cancel handle)
  | received
      {next : Scheduler α} {task : Task α}
      (taken : timers.receive clockMs = .ok (some task, next)) :
      Step timers clockMs (some (.received task (timers.renewed clockMs task))) next
  /-- The consumer finds nothing to receive. -/
  | drained
      {next : Scheduler α}
      (taken : timers.receive clockMs = .ok (none, next)) :
      Step timers clockMs none next
  | settled : Step timers clockMs none (timers.settle clockMs)
  | stopped : Step timers clockMs none timers.shutdown

/-- A run with its history and the clock at its end.  Beside the steps the clock moves on, whenever
`mayPass` says that it may. -/
inductive Journal
    (mayPass : Scheduler α → Nat → Prop)
    (config : TimerConfig)
    (epochMs : Nat) :
    History α → Scheduler α → Nat → Prop where
  | begun
      {timers : Scheduler α}
      (made : Scheduler.start config epochMs = .ok timers) :
      Journal mayPass config epochMs [] timers epochMs
  | stepped
      {history : History α} {timers next : Scheduler α} {clockMs : Nat} {note : Option (Note α)}
      (journal : Journal mayPass config epochMs history timers clockMs)
      (step : timers.Step clockMs note next) :
      Journal mayPass config epochMs (history.noted clockMs note) next clockMs
  | elapsed
      {history : History α} {timers : Scheduler α} {clockMs laterMs : Nat}
      (journal : Journal mayPass config epochMs history timers clockMs)
      (later : clockMs ≤ laterMs)
      (allowed : mayPass timers laterMs) :
      Journal mayPass config epochMs history timers laterMs

/-! ### Single steps -/

namespace Step

theorem cancelled_iff
    (step : timers.Step clockMs note next)
    (handle : Handle) :
    next.isCancelled handle = true ↔
      timers.isCancelled handle = true ∨ note = some (.cancelled handle) := by
  cases step with
  | scheduled accepted =>
      obtain ⟨_, _, tiers, _, rfl⟩ := schedule_eq_ok accepted
      simp [isCancelled]
  | @cancelled given _ =>
      simp only [isCancelled, Scheduler.cancel, Cancellations.has_add, Bool.or_eq_true,
        decide_eq_true_eq, Option.some.injEq, Note.cancelled.injEq, eq_comm (a := handle)]
      exact or_comm
  | received taken =>
      obtain ⟨skipped, rest, _, _, _, renewal⟩ := receive_eq_some taken
      split at renewal
      · subst renewal
        simp [isCancelled]
      · obtain ⟨_, tiers, _, rfl⟩ := renewal
        simp [isCancelled]
  | drained taken =>
      rw [receive_eq_none taken]
      simp [isCancelled]
  | settled => simp [isCancelled]
  | stopped => simp [isCancelled, shutdown]

/-- No handle is taken back. -/
theorem issued_le (step : timers.Step clockMs note next) : timers.issued ≤ next.issued := by
  cases step with
  | scheduled accepted =>
      obtain ⟨_, _, tiers, _, rfl⟩ := schedule_eq_ok accepted
      exact Nat.le_succ _
  | cancelled _ => exact Nat.le_refl _
  | received taken =>
      obtain ⟨skipped, rest, _, _, _, renewal⟩ := receive_eq_some taken
      split at renewal
      · subst renewal
        exact Nat.le_refl _
      · obtain ⟨_, tiers, _, rfl⟩ := renewal
        exact Nat.le_refl _
  | drained taken =>
      obtain rfl := receive_eq_none taken
      exact Nat.le_refl _
  | settled => exact Nat.le_of_eq (issued_settle ..).symm
  | stopped => exact Nat.le_refl _

/-- Wheels that stand still are not set going again. -/
theorem isTicking
    (step : timers.Step clockMs note next)
    (ticking : next.isTicking = true) :
    timers.isTicking = true := by
  cases step with
  | scheduled accepted =>
      obtain ⟨_, _, tiers, _, rfl⟩ := schedule_eq_ok accepted
      exact ticking
  | cancelled _ => exact ticking
  | received taken =>
      obtain ⟨skipped, rest, _, _, _, renewal⟩ := receive_eq_some taken
      split at renewal
      · subst renewal
        exact ticking
      · obtain ⟨_, tiers, _, rfl⟩ := renewal
        exact ticking
  | drained taken =>
      obtain rfl := receive_eq_none taken
      exact ticking
  | settled => exact (isTicking_settle ticking).1
  | stopped => simp [Scheduler.isTicking, shutdown] at ticking

/-- Whatever is held was held before, or has just gone into the wheels. -/
theorem held_or_appointed
    (step : timers.Step clockMs note next)
    (held : task ∈ next.held) :
    task ∈ timers.held ∨ ∃ written, note = some written ∧ written.appointed = some task := by
  cases step with
  | scheduled accepted =>
      rcases List.mem_append.mp ((held_schedule accepted).mem_iff.mp held) with old | new
      · exact .inl old
      · exact .inr ⟨_, rfl, congrArg some (List.mem_singleton.mp new).symm⟩
  | cancelled _ => exact .inl held
  | received taken =>
      obtain ⟨skipped, _, kept⟩ := held_receive taken
      rcases List.mem_append.mp (kept.mem_iff.mp (List.mem_append_left _ held)) with old | new
      · exact .inl old
      · exact .inr ⟨_, rfl, Option.mem_toList.mp new⟩
  | drained taken =>
      obtain rfl := receive_eq_none taken
      exact .inl (List.mem_append_right _ held)
  | settled =>
      obtain ⟨lost, kept⟩ := timers.exists_lost clockMs
      exact .inl (kept.mem_iff.mp (List.mem_append_left _ held))
  | stopped => exact .inl held

/-- What goes into the wheels is held. -/
theorem enters
    (step : timers.Step clockMs note next)
    {written : Note α}
    (writes : note = some written)
    (appoints : written.appointed = some task) :
    task ∈ next.held := by
  cases step with
  | scheduled accepted =>
      cases writes
      cases appoints
      exact (held_schedule accepted).mem_iff.mpr
        (List.mem_append_right _ (List.mem_singleton.mpr rfl))
  | cancelled _ =>
      cases writes
      cases appoints
  | received taken =>
      cases writes
      obtain ⟨_, rest, _, _, _, renewal⟩ := receive_eq_some taken
      rw [show timers.renewed clockMs _ = some task from appoints] at renewal
      obtain ⟨_, tiers, placed, rfl⟩ := renewal
      exact List.mem_append_right _ ((TwoTier.tasks_place placed).mem_iff.mpr
        (List.mem_append_right _ (List.mem_singleton.mpr rfl)))
  | drained _ => cases writes
  | settled => cases writes
  | stopped => cases writes

/-- As long as the wheels turn, a task is held until it is received or cancelled. -/
theorem stays
    (step : timers.Step clockMs note next)
    (held : task ∈ timers.held)
    (alive : timers.isCancelled task.handle = false)
    (untaken : ∀ again, note ≠ some (.received task again))
    (ticking : next.isTicking = true) :
    task ∈ next.held := by
  cases step with
  | scheduled accepted =>
      exact (held_schedule accepted).mem_iff.mpr (List.mem_append_left _ held)
  | cancelled _ => exact held
  | @received _ other taken =>
      obtain ⟨skipped, dead, kept⟩ := held_receive taken
      rcases List.mem_append.mp (kept.mem_iff.mpr (List.mem_append_left _ held)) with stays | gone
      · exact stays
      · rcases List.mem_append.mp gone with skips | same
        · rw [dead task skips] at alive
          cases alive
        · obtain rfl := List.mem_singleton.mp same
          exact absurd rfl (untaken _)
  | drained taken =>
      rcases List.mem_append.mp held with fired | waiting
      · rw [isCancelled_of_receive_none taken fired] at alive
        cases alive
      · obtain rfl := receive_eq_none taken
        exact waiting
  | settled => exact (held_settle (isTicking_settle ticking).2).mem_iff.mpr held
  | stopped => exact held

end Step

end Scheduler

end Quorum
