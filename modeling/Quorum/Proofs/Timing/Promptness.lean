import Quorum.Proofs.Timing.Truthful

/-!
# Every task is received within one tick

The thread that advances the wheels sleeps until the end of the earliest busy near bucket, or until
the near rotation ends, and it never looks at the far wheel.  `Scheduler.Awaits` is the rule for the
clock that goes with it: the clock stops at the wake-up time of the wheels as they are, and before
it moves on the consumer has received everything that can be received.

Under this rule no task is overslept, in whichever wheel it began and however many rotations it
waited (`Journal.received_within_tick`): a task is received once, at the end of the tick in which it
fires, unless its handle was cancelled by then; and no task is received after its handle was
cancelled.  The invariant behind this is `Fate`: at any moment a task that was neither received nor
cancelled is held, and the clock has not passed the end of its tick.  The rule does not bring the
clock to a stand either: settled wheels want to be settled again later than now
(`Journal.goes_on`).
-/

namespace Quorum

variable {α : Type}

namespace History

variable
    [DecidableEq α]
    {history : History α}
    {clockMs : Nat}
    {note : Option (Note α)}
    {task : Task α}

/-- When a task was received, the latest first. -/
def receipts (history : History α) (task : Task α) : List Nat :=
  history.filterMap fun entry => if entry.2.taken = some task then some entry.1 else none

theorem receipts_noted_of_taken (again : Option (Task α)) :
    (history.noted clockMs (some (.received task again))).receipts task =
      clockMs :: history.receipts task := by
  simp [receipts, noted, Note.taken]

theorem receipts_noted_of_untaken (untaken : ∀ again, note ≠ some (.received task again)) :
    (history.noted clockMs note).receipts task = history.receipts task := by
  cases note with
  | none => rfl
  | some written =>
      have other : written.taken ≠ some task := by
        cases written with
        | scheduled _ => exact nofun
        | cancelled _ => exact nofun
        | received before again =>
            intro same
            obtain rfl := Option.some.inj same
            exact untaken again rfl
      simp [receipts, noted, other]

/-- What has never been appointed has never been received. -/
theorem receipts_eq_nil
    (received : ∀ atMs again, (atMs, Note.received task again) ∉ history) :
    history.receipts task = [] := by
  apply List.filterMap_eq_nil_iff.mpr
  rintro ⟨atMs, written⟩ listed
  apply if_neg
  intro same
  cases written with
  | scheduled _ => cases same
  | cancelled _ => cases same
  | received before again =>
      obtain rfl := Option.some.inj same
      exact received atMs again listed

end History

namespace Scheduler

variable
    {config : TimerConfig}
    {epochMs clockMs laterMs : Nat}
    {timers next : Scheduler α}
    {note : Option (Note α)}
    {history : History α}
    {task : Task α}

/-- The wheels are settled, and the consumer receives all it can, before the clock passes the
instant at which the wheels want to be settled again. -/
def Awaits (timers : Scheduler α) (laterMs : Nat) : Prop :=
  (∀ task ∈ timers.fired, timers.isCancelled task.handle = true) ∧
    ∃ wakeMs, timers.wakeMs = .ok (some wakeMs) ∧ laterMs ≤ wakeMs

/-- The wheels turn as long as anybody waits for them. -/
theorem isTicking_of_wakeMs
    {wakeMs : Nat}
    (wakes : timers.wakeMs = .ok (some wakeMs)) :
    timers.isTicking = true := by
  unfold Scheduler.wakeMs at wakes
  split at wakes
  · next ticking => exact ticking
  · cases wakes

/-- What has become of a task that went into the wheels. -/
inductive Fate [DecidableEq α]
    (config : TimerConfig)
    (epochMs : Nat)
    (history : History α)
    (timers : Scheduler α)
    (clockMs : Nat)
    (task : Task α) : Prop where
  | received
      (once : history.receipts task = [task.dueMs config.tickMs epochMs])
      (gone : task ∉ timers.held)
  | cancelled
      {atMs : Nat}
      (never : history.receipts task = [])
      (listed : (atMs, .cancelled task.handle) ∈ history)
      (before : atMs ≤ task.dueMs config.tickMs epochMs)
  | waiting
      (never : history.receipts task = [])
      (alive : timers.isCancelled task.handle = false)
      (ahead : clockMs ≤ task.dueMs config.tickMs epochMs)
      (held : timers.isTicking = true → task ∈ timers.held)

namespace Fate

variable [DecidableEq α]

/-- A task that has just gone into the wheels waits for the end of its tick. -/
theorem fresh
    (truthful : Truthful config epochMs history timers clockMs)
    (step : timers.Step clockMs note next)
    {written : Note α}
    (writes : note = some written)
    (appoints : written.appointed = some task) :
    Fate config epochMs (history.noted clockMs note) next clockMs task := by
  have unlisted := truthful.unlisted step writes appoints
  have timed := (truthful.right step writes).fireAtMs_eq appoints
  refine .waiting ?_ (truthful.alive step writes appoints) ?_ fun _ => step.enters writes appoints
  · apply History.receipts_eq_nil
    intro atMs again listed
    rcases History.mem_noted.mp listed with old | ⟨_, same, entry⟩
    · exact unlisted (truthful.received atMs task again old)
    · cases entry
      cases step with
      | received taken =>
          cases same
          exact unlisted (truthful.fired_mem taken).2
      | _ => cases same
  · have bounds := Task.dueMs_bounds truthful.steady.tick truthful.steady.begun timed
    omega

theorem step
    (truthful : Truthful config epochMs history timers clockMs)
    (listed : task ∈ history.appointed)
    (fate : Fate config epochMs history timers clockMs task)
    (step : timers.Step clockMs note next) :
    Fate config epochMs (history.noted clockMs note) next clockMs task := by
  cases fate with
  | received once gone =>
      refine .received ?_ ?_
      · rw [History.receipts_noted_of_untaken, once]
        rintro again rfl
        cases step with
        | received taken =>
            exact gone (List.mem_append_left _ (truthful.fired_mem taken).1)
      · intro held
        rcases step.held_or_appointed held with before | ⟨written, writes, appoints⟩
        · exact gone before
        · exact truthful.unlisted step writes appoints listed
  | @cancelled atMs never entry before =>
      refine .cancelled ?_ (History.mem_noted.mpr (.inl entry)) before
      rw [History.receipts_noted_of_untaken, never]
      rintro again rfl
      cases step with
      | received taken =>
          obtain ⟨_, _, _, _, alive, _⟩ := receive_eq_some taken
          rw [(truthful.cancelled _).mpr ⟨atMs, entry⟩] at alive
          cases alive
  | waiting never alive ahead held =>
      by_cases taking : ∃ again, note = some (.received task again)
      · obtain ⟨again, rfl⟩ := taking
        cases step with
        | received taken =>
            refine .received ?_ (truthful.gone taken)
            have due := truthful.steady.fired task (truthful.fired_mem taken).1
            rw [History.receipts_noted_of_taken, never, Nat.le_antisymm ahead due]
      · have untaken : ∀ again, note ≠ some (.received task again) :=
          fun again same => taking ⟨again, same⟩
        have never' : (history.noted clockMs note).receipts task = [] := by
          rw [History.receipts_noted_of_untaken untaken, never]
        cases dead : next.isCancelled task.handle with
        | true =>
            rcases (step.cancelled_iff task.handle).mp dead with old | writes
            · rw [alive] at old
              cases old
            · exact .cancelled never' (History.mem_noted.mpr (.inr ⟨_, writes, rfl⟩)) ahead
        | false =>
            refine .waiting never' dead ahead fun ticking => ?_
            exact step.stays (held (step.isTicking ticking)) alive untaken ticking

/-- The clock does not pass the end of the tick of a task that waits. -/
theorem elapsed
    (truthful : Truthful config epochMs history timers clockMs)
    (fate : Fate config epochMs history timers clockMs task)
    (waits : timers.Awaits laterMs) :
    Fate config epochMs history timers laterMs task := by
  cases fate with
  | received once gone => exact .received once gone
  | cancelled never entry before => exact .cancelled never entry before
  | waiting never alive ahead held =>
      refine .waiting never alive ?_ held
      obtain ⟨emptied, wakeMs, wakes, within⟩ := waits
      have ticking := isTicking_of_wakeMs wakes
      rcases List.mem_append.mp (held ticking) with fired | inside
      · rw [emptied task fired] at alive
        cases alive
      · exact Nat.le_trans within ((truthful.steady.punctual ticking).wake_le inside wakes)

end Fate

/-- A task that went into the wheels is received in time. -/
structure InTime [DecidableEq α]
    (config : TimerConfig)
    (epochMs : Nat)
    (history : History α)
    (clockMs : Nat)
    (task : Task α) : Prop where
  /-- It is due at the first end of a tick after its fire time. -/
  within_tick : epochMs + task.fireAtMs < task.dueMs config.tickMs epochMs ∧
    task.dueMs config.tickMs epochMs ≤ epochMs + task.fireAtMs + config.tickMs
  /-- At that instant it is received, and at no other one; unless its handle was cancelled by then,
  or that instant has not passed. -/
  once : history.receipts task = [task.dueMs config.tickMs epochMs] ∨
    history.receipts task = [] ∧
      ((∃ atMs, atMs ≤ task.dueMs config.tickMs epochMs ∧
          (atMs, .cancelled task.handle) ∈ history) ∨
        clockMs ≤ task.dueMs config.tickMs epochMs)
  /-- It is not received after its handle was cancelled. -/
  silenced : ∀ (later earlier : History α) (atMs : Nat),
    history = later ++ (atMs, .cancelled task.handle) :: earlier → later.receipts task = []

namespace Journal

/-- Every task has its fate. -/
theorem fate [DecidableEq α]
    (journal : Journal Awaits config epochMs history timers clockMs)
    (listed : task ∈ history.appointed) :
    Fate config epochMs history timers clockMs task := by
  induction journal with
  | begun made => cases listed
  | @stepped history timers next clockMs note journal step ih =>
      by_cases old : task ∈ history.appointed
      · exact (ih old).step journal.truthful old step
      · obtain ⟨atMs, written, among, appoints⟩ := History.mem_appointed.mp listed
        rcases History.mem_noted.mp among with before | ⟨_, writes, same⟩
        · exact absurd (History.mem_appointed.mpr ⟨atMs, written, before, appoints⟩) old
        · cases same
          exact .fresh journal.truthful step writes appoints
  | elapsed journal _ waits ih => exact (ih listed).elapsed journal.truthful waits

/-- Nothing keeps the clock from moving on: once the wheels are settled, and nothing is left to be
received, time can pass. -/
theorem goes_on
    (journal : Journal Awaits config epochMs history timers clockMs)
    (ticking : (timers.settle clockMs).isTicking = true)
    (emptied : ∀ task ∈ (timers.settle clockMs).fired, timers.isCancelled task.handle = true) :
    ∃ laterMs, clockMs < laterMs ∧
      Journal Awaits config epochMs history (timers.settle clockMs) laterMs := by
  obtain ⟨turning, intact⟩ := isTicking_settle ticking
  obtain ⟨wakeMs, wakes, later⟩ :=
    (journal.truthful.steady.punctual turning).exists_wake_of_settle intact
  refine ⟨wakeMs, later, ?_⟩
  refine .elapsed (journal.stepped .settled) (Nat.le_of_lt later) ⟨?_, wakeMs, wakes, Nat.le_refl _⟩
  intro task fired
  rw [isCancelled, cancelled_settle]
  exact emptied task fired

/-- If the wheels are settled and the queue is emptied whenever the wheels want to be settled, every
task is received once, within one tick after its fire time, unless it is cancelled before.  This rule
for the clock never stops it: whenever the queue is emptied, time can pass. -/
theorem received_within_tick [DecidableEq α]
    (journal : Journal Awaits config epochMs history timers clockMs) :
    (∀ task ∈ history.appointed, InTime config epochMs history clockMs task) ∧
      ((timers.settle clockMs).isTicking = true →
        (∀ task ∈ (timers.settle clockMs).fired, timers.isCancelled task.handle = true) →
        ∃ laterMs, clockMs < laterMs ∧
          Journal Awaits config epochMs history (timers.settle clockMs) laterMs) := by
  have truthful := journal.truthful
  refine ⟨fun task listed => ?_, journal.goes_on⟩
  exact {
    within_tick := by
      have timed : task.fireAtMs = epochMs - epochMs + task.fireAtMs := by omega
      exact Task.dueMs_bounds truthful.steady.tick (Nat.le_refl epochMs) timed
    once := by
      cases journal.fate listed with
      | received once _ => exact .inl once
      | cancelled never entry before => exact .inr ⟨never, .inl ⟨_, before, entry⟩⟩
      | waiting never _ ahead _ => exact .inr ⟨never, .inr ahead⟩
    silenced := by
      intro later earlier atMs split
      apply History.receipts_eq_nil
      intro againMs again received
      exact journal.unreceived_of_cancelled split againMs task again received rfl }

end Journal

namespace Dawn

/-! ### A task that begins in the far wheel

Near buckets of ten milliseconds, two to a rotation, and a scheduler that was started at 100.  A
task scheduled at 105 with a delay of 30 lies beyond the near rotation.  The near wheel is empty, so
that the wheels want to be settled at the end of its rotation, at 120; the task comes into the near
wheel then, and is received at 140, at the end of the tick in which it fires. -/

def fresh : Scheduler String where
  config := ⟨10, 2, 3⟩
  epochMs := 100
  tiers := ⟨⟨10, [[], []], 0, 0⟩, ⟨20, [[], [], []], 20, 0⟩⟩
  fired := []
  cancelled := {}
  issued := 0
  running := true
  attended := true
  intact := true

def bell : Task String := ⟨⟨0⟩, Delay.ofMs 30, none, 35, "bell"⟩

def loaded : Scheduler String :=
  { fresh with
    tiers := ⟨⟨10, [[], []], 0, 0⟩, ⟨20, [[bell], [], []], 20, 0⟩⟩
    issued := 1 }

/-- The bell has been received. -/
def rested : Scheduler String := { ((loaded.settle 120).settle 140) with fired := [] }

def notes : History String := [(140, .received bell none), (105, .scheduled bell)]

theorem journal : Journal Awaits ⟨10, 2, 3⟩ 100 notes rested 140 := by
  have begun : Journal Awaits ⟨10, 2, 3⟩ 100 [] fresh 100 := .begun rfl
  have scheduled := (begun.elapsed (show 100 ≤ 105 by decide) ⟨nofun, 120, rfl, by decide⟩).stepped
    (.scheduled (show fresh.schedule 105 (Delay.ofMs 30) false "bell" = .ok (⟨0⟩, loaded) from rfl))
  have turned := (scheduled.elapsed (show 105 ≤ 120 by decide) ⟨nofun, 120, rfl, by decide⟩).stepped
    .settled
  have rung := (turned.elapsed (show 120 ≤ 140 by decide) ⟨nofun, 140, rfl, by decide⟩).stepped
    .settled
  exact rung.stepped (.received
    (show ((loaded.settle 120).settle 140).receive 140 = .ok (some bell, _) from rfl))

end Dawn

/-- The task of the far wheel is received at 140, and only then.  The clock goes on after it. -/
theorem Journal.received_within_tick_dawn :
    Journal Awaits ⟨10, 2, 3⟩ 100 Dawn.notes Dawn.rested 140 ∧
      Dawn.bell ∈ Dawn.notes.appointed ∧ Dawn.notes.receipts Dawn.bell = [140] ∧
      InTime ⟨10, 2, 3⟩ 100 Dawn.notes 140 Dawn.bell ∧
      ∃ laterMs, 140 < laterMs ∧
        Journal Awaits ⟨10, 2, 3⟩ 100 Dawn.notes (Dawn.rested.settle 140) laterMs := by
  obtain ⟨inTime, goesOn⟩ := Dawn.journal.received_within_tick
  have appointed : Dawn.bell ∈ Dawn.notes.appointed := by decide
  exact ⟨Dawn.journal, appointed, by decide, inTime _ appointed, goesOn rfl nofun⟩

end Scheduler

end Quorum
