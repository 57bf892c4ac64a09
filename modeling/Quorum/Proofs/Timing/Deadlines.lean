import Quorum.Proofs.Timing.Calls

/-!
# The scheduler as a plain list of deadlines

A `Diary` is a run of schedule calls and settlings at clock values that never go back.  It notes
when the wheels were settled last, and the agenda: every accepted task, in the order of the calls.
Nobody receives in such a run, so the fired queue is everything that the wheels ever put there.

The scheduler refines the agenda (`Diary.refines_agenda`): whatever the run was, its fired queue is
the list of those tasks of the agenda whose slot had ended at the last settling, sorted by slot, and
the wheels hold the others.
-/

namespace Quorum.Scheduler

open Agenda

variable {α : Type}

/-- The scheduler after a run of schedule calls and settlings, with the clock value of the last
call, the instant of the last settling on the scheduler's own clock, and the agenda. -/
inductive Diary (config : TimerConfig) : Scheduler α → Nat → Nat → List (Task α) → Prop where
  | begun
      {scheduler : Scheduler α} {clockMs : Nat}
      (made : Scheduler.start config clockMs = .ok scheduler) :
      Diary config scheduler clockMs 0 []
  /-- An accepted task goes behind the agenda. -/
  | accepted
      {scheduler next : Scheduler α} {clockMs laterMs settledMs : Nat} {agenda : List (Task α)}
      {delay : Delay} {repeats : Bool} {payload : α} {handle : Handle}
      (run : Diary config scheduler clockMs settledMs agenda)
      (later : clockMs ≤ laterMs)
      (scheduled : scheduler.schedule laterMs delay repeats payload = .ok (handle, next)) :
      Diary config next laterMs settledMs
        (agenda ++ [scheduler.appointment laterMs delay repeats payload])
  /-- A refused task leaves everything as it was. -/
  | refused
      {scheduler : Scheduler α} {clockMs laterMs settledMs : Nat} {agenda : List (Task α)}
      {delay : Delay} {repeats : Bool} {payload : α} {cause : Error}
      (run : Diary config scheduler clockMs settledMs agenda)
      (later : clockMs ≤ laterMs)
      (refused : scheduler.schedule laterMs delay repeats payload = .error (.error cause)) :
      Diary config scheduler laterMs settledMs agenda
  /-- The wheels are brought up to the clock. -/
  | settled
      {scheduler : Scheduler α} {clockMs laterMs settledMs : Nat} {agenda : List (Task α)}
      (run : Diary config scheduler clockMs settledMs agenda)
      (later : clockMs ≤ laterMs)
      (intact : (scheduler.settle laterMs).intact = true) :
      Diary config (scheduler.settle laterMs) laterMs (scheduler.nowMs laterMs) agenda

/-- The invariant of a diary.  The wheels stand at the slot of the last settling and hold what is
left of the agenda, and what came before has been handed out slot by slot. -/
structure Keeps
    (config : TimerConfig)
    (scheduler : Scheduler α)
    (clockMs settledMs : Nat)
    (agenda : List (Task α)) : Prop where
  config_eq : scheduler.config = config
  ticking : scheduler.isTicking = true
  elapsed : settledMs ≤ scheduler.nowMs clockMs
  stands : scheduler.tiers.Stands config (settledMs / config.tickMs)
    (onward (Task.slot config.tickMs) (settledMs / config.tickMs) agenda)
  fired : scheduler.fired = stretch (Task.slot config.tickMs) 0 (settledMs / config.tickMs) agenda

variable
    {config : TimerConfig}
    {scheduler next : Scheduler α}
    {clockMs laterMs settledMs : Nat}
    {agenda : List (Task α)}

theorem start_keeps (made : Scheduler.start config clockMs = .ok scheduler) :
    Keeps config scheduler clockMs 0 [] := by
  obtain ⟨tiers, stands, rfl⟩ := start_eq_ok made
  exact {
    config_eq := rfl
    ticking := rfl
    elapsed := Nat.zero_le _
    stands := by
      rw [Nat.zero_div]
      exact stands
    fired := by
      rw [Nat.zero_div, stretch_self] }

namespace Keeps

theorem nowMs_mono (keeps : Keeps config scheduler clockMs settledMs agenda)
    (later : clockMs ≤ laterMs) : settledMs ≤ scheduler.nowMs laterMs :=
  Nat.le_trans keeps.elapsed (Nat.sub_le_sub_right later _)

/-- The slot of a new task is not behind the wheels. -/
theorem ahead
    (keeps : Keeps config scheduler clockMs settledMs agenda)
    (later : clockMs ≤ laterMs)
    (delayMs : Nat) :
    settledMs / config.tickMs ≤ (scheduler.nowMs laterMs + delayMs) / config.tickMs :=
  Nat.div_le_div_right (Nat.le_trans (keeps.nowMs_mono later) (Nat.le_add_right _ _))

theorem accepted
    (keeps : Keeps config scheduler clockMs settledMs agenda)
    (later : clockMs ≤ laterMs)
    {delay : Delay}
    {repeats : Bool}
    {payload : α}
    {handle : Handle}
    (scheduled : scheduler.schedule laterMs delay repeats payload = .ok (handle, next)) :
    Keeps config next laterMs settledMs
      (agenda ++ [scheduler.appointment laterMs delay repeats payload]) := by
  obtain ⟨_, _, tiers, placed, rfl⟩ := schedule_eq_ok scheduled
  have ahead : settledMs / config.tickMs ≤
      (scheduler.appointment laterMs delay repeats payload).slot config.tickMs :=
    keeps.ahead later delay.ms
  exact {
    config_eq := keeps.config_eq
    ticking := keeps.ticking
    elapsed := keeps.nowMs_mono later
    stands := by
      rw [onward_append, onward_singleton ahead]
      exact keeps.stands.place ahead placed
    fired := by
      rw [stretch_append_task agenda ahead]
      exact keeps.fired }

theorem settled
    (keeps : Keeps config scheduler clockMs settledMs agenda)
    (later : clockMs ≤ laterMs)
    (intact : (scheduler.settle laterMs).intact = true) :
    Keeps config (scheduler.settle laterMs) laterMs (scheduler.nowMs laterMs) agenda := by
  have ahead := keeps.ahead later 0
  rw [Nat.add_zero] at ahead
  have ticking := keeps.ticking
  simp only [settle, keeps.ticking, if_true] at intact ⊢
  obtain ⟨due, stands⟩ := keeps.stands.settle ahead intact
  rw [onward_onward agenda ahead] at stands
  exact {
    config_eq := keeps.config_eq
    ticking := by
      simp only [isTicking, Bool.and_eq_true] at ticking ⊢
      exact ⟨ticking.1, intact⟩
    elapsed := Nat.le_refl _
    stands := stands
    fired := by
      rw [keeps.fired, due]
      exact stretch_append_stretch agenda (Nat.zero_le _) ahead }

end Keeps

/-- The invariant holds after every run. -/
theorem Diary.keeps (diary : Diary config scheduler clockMs settledMs agenda) :
    Keeps config scheduler clockMs settledMs agenda := by
  induction diary with
  | begun made => exact start_keeps made
  | accepted _ later scheduled ih => exact ih.accepted later scheduled
  | refused _ later _ ih => exact { ih with elapsed := ih.nowMs_mono later }
  | settled _ later intact ih => exact ih.settled later intact

/-- A scheduler is as good as its agenda. -/
structure Refines
    (config : TimerConfig)
    (scheduler : Scheduler α)
    (clockMs settledMs : Nat)
    (agenda : List (Task α)) : Prop where
  /-- What has fired is what was due at the last settling, by slot and then in the order of the
  calls. -/
  fired : scheduler.fired = dueBy config.tickMs settledMs agenda
  /-- The wheels hold the rest. -/
  waiting : scheduler.tiers.tasks.Perm (leftAt config.tickMs settledMs agenda)
  pending : scheduler.pending = (leftAt config.tickMs settledMs agenda).length
  /-- Nothing is lost, and nothing is there twice. -/
  complete : scheduler.held.Perm agenda
  /-- Nothing has fired at or before its time. -/
  punctual : ∀ task ∈ scheduler.fired, task.fireAtMs < settledMs
  /-- A later call can only be lost to a number that does not fit into a word. -/
  callable : ∀ laterMs delay repeats payload cause, clockMs ≤ laterMs →
    scheduler.schedule laterMs delay repeats payload = .error (.fault cause) → cause = .overflow
  /-- The wheels can be settled as long as one more rotation fits into a word. -/
  settleable : ∀ laterMs, clockMs ≤ laterMs →
    scheduler.nowMs laterMs + config.tickMs * config.nearBuckets < Word.limit →
      (scheduler.settle laterMs).intact = true

theorem Keeps.refines (keeps : Keeps config scheduler clockMs settledMs agenda) :
    Refines config scheduler clockMs settledMs agenda := by
  have ticking := keeps.stands.ticking
  have fired : scheduler.fired = dueBy config.tickMs settledMs agenda := by
    rw [keeps.fired, dueBy_eq_stretch ticking]
  have waiting : scheduler.tiers.tasks.Perm (leftAt config.tickMs settledMs agenda) := by
    rw [leftAt_eq_onward ticking]
    exact keeps.stands.tasks_perm
  exact {
    fired := fired
    waiting := waiting
    pending := by
      rw [pending, leftAt_eq_onward ticking]
      exact keeps.stands.size_eq
    complete := by
      rw [held, fired]
      exact (waiting.append_left _).trans (dueBy_append_leftAt_perm agenda)
    punctual := by
      rw [fired]
      exact fun task listed => lt_of_mem_dueBy ticking listed
    callable := by
      intro laterMs delay repeats payload cause later failed
      have stands := keeps.stands
      have ahead := keeps.ahead later delay.ms
      rw [← keeps.config_eq] at stands ahead
      exact schedule_fault stands ahead failed
    settleable := by
      intro laterMs later fits
      have ahead := keeps.ahead later 0
      rw [Nat.add_zero] at ahead
      simp only [settle, keeps.ticking, if_true]
      exact keeps.stands.settle_intact ahead fits }

/-- After every run the scheduler is as good as its agenda, and therefore does not depend on how
often and when it was settled before the last time. -/
theorem Diary.refines_agenda (diary : Diary config scheduler clockMs settledMs agenda) :
    Refines config scheduler clockMs settledMs agenda ∧
      ∀ (other : Scheduler α) (otherMs : Nat), Diary config other otherMs settledMs agenda →
        other.fired = scheduler.fired ∧ other.pending = scheduler.pending := by
  have refines := diary.keeps.refines
  refine ⟨refines, ?_⟩
  intro other otherMs diary'
  have refines' := diary'.keeps.refines
  exact ⟨refines'.fired.trans refines.fired.symm, refines'.pending.trans refines.pending.symm⟩

namespace Sample

/-! ### Three tasks

The first and the third task are due in one slot.  The third one is scheduled much later than the
wheels were settled last, and all three are handed out by one settling over two rotations. -/

/-- Near buckets of ten milliseconds, two to a rotation, and three more rotations. -/
def dimensions : TimerConfig := ⟨10, 2, 3⟩

def fresh : Scheduler String where
  config := dimensions
  epochMs := 0
  tiers := ⟨⟨10, [[], []], 0, 0⟩, ⟨20, [[], [], []], 20, 0⟩⟩
  fired := []
  cancelled := {}
  issued := 0
  running := true
  attended := true
  intact := true

def first : Task String := ⟨⟨0⟩, Delay.ofMs 30, none, 35, "first"⟩

def second : Task String := ⟨⟨1⟩, Delay.ofMs 5, none, 10, "second"⟩

def third : Task String := ⟨⟨2⟩, Delay.ofMs 8, none, 35, "third"⟩

def loaded : Scheduler String :=
  { fresh with
    tiers := ⟨⟨10, [[], [second]], 0, 0⟩, ⟨20, [[first, third], [], []], 20, 0⟩⟩
    issued := 3 }

theorem diary : Diary dimensions (loaded.settle 45) 45 45 [first, second, third] := by
  have begun : Diary dimensions fresh 0 0 [] := Diary.begun rfl
  have one := begun.accepted (Nat.zero_le 5)
    (show fresh.schedule 5 (Delay.ofMs 30) false "first" = .ok (⟨0⟩, _) from rfl)
  have two := one.accepted (Nat.le_refl 5)
    (show Scheduler.schedule _ 5 (Delay.ofMs 5) false "second" = .ok (⟨1⟩, _) from rfl)
  have three := two.accepted (show 5 ≤ 27 by decide)
    (show Scheduler.schedule _ 27 (Delay.ofMs 8) false "third" = .ok (⟨2⟩, _) from rfl)
  exact three.settled (show 27 ≤ 45 by decide) rfl

end Sample

/-- The tasks of one slot come in the order of the calls, by whichever wheel they came. -/
theorem Diary.refines_agenda_sample :
    (Sample.loaded.settle 45).fired = [Sample.second, Sample.first, Sample.third] ∧
      Refines Sample.dimensions (Sample.loaded.settle 45) 45 45
        [Sample.first, Sample.second, Sample.third] := by
  refine ⟨rfl, ?_⟩
  exact Sample.diary.refines_agenda.1

end Quorum.Scheduler
