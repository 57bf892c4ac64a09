import Quorum.Proofs.Timing.Promptness
import Quorum.Proofs.Timing.Room

/-!
# Delays of more than a word

The timers count a delay in whole milliseconds, and keep the lowest word of this number.  What they
do with it is right: a delay longer than the wheels can hold is refused, and an accepted task is
received only after its delay, whenever the wheels are settled and however often the task recurs
(`Scheduler.Journal.counts_milliseconds`).

A delay of more milliseconds than a word can count is therefore not refused as it should be.  It
stands for what is left of it, which may be short (`Scheduler.Journal.takes_aeon_for_moment`).
-/

namespace Quorum

variable {α : Type}

/-- A delay whose milliseconds a word can count is counted exactly. -/
theorem Delay.ms_of_fits {delay : Delay} (fits : delay.wholeMs < Word.limit) :
    delay.ms = delay.wholeMs :=
  Nat.mod_eq_of_lt fits

/-- A delay beyond the longest one is refused, and the refusal names it. -/
theorem TimerConfig.checkDelay_of_long
    {config : TimerConfig}
    {longestMs delayMs : Nat}
    (longest : config.maxDelayMs = .ok longestMs)
    (long : longestMs < delayMs) :
    ∃ capacityMs, config.capacityMs = .ok capacityMs ∧
      config.checkDelay delayMs = .error (.error (.capacityExceeded delayMs capacityMs)) := by
  obtain ⟨capacityMs, capacity, _⟩ := bind_eq_ok_iff.mp longest
  refine ⟨capacityMs, capacity, ?_⟩
  simp only [checkDelay, longest, capacity, lift_ok, bind, Except.bind, if_pos long]
  rfl

namespace Scheduler

variable
    {config : TimerConfig}
    {epochMs clockMs longestMs : Nat}
    {timers next : Scheduler α}
    {history : History α}
    {delay : Delay}
    {repeats : Bool}
    {payload : α}
    {handle : Handle}

/-! ## Schedule calls -/

/-- An accepted delay is not longer than the longest one, as far as a word can tell. -/
theorem ms_le_of_schedule
    (scheduled : timers.schedule clockMs delay repeats payload = .ok (handle, next)) :
    ∃ longestMs, timers.config.maxDelayMs = .ok longestMs ∧ delay.ms ≤ longestMs := by
  obtain ⟨_, _, placed, _⟩ := exists_place_of_schedule scheduled
  obtain ⟨_, checked, _⟩ := place_eq_ok_iff.mp placed
  obtain ⟨capacityMs, capacity, within⟩ := TimerConfig.checkDelay_eq_ok_iff.mp checked
  exact ⟨_, TimerConfig.maxDelayMs_of_capacity capacity, within⟩

/-- A longer delay is refused. -/
theorem schedule_of_long
    (running : timers.running = true)
    (longest : timers.config.maxDelayMs = .ok longestMs)
    (long : longestMs < delay.ms)
    (repeats : Bool)
    (payload : α) :
    ∃ capacityMs, timers.config.capacityMs = .ok capacityMs ∧
      timers.schedule clockMs delay repeats payload =
        .error (.error (.capacityExceeded delay.ms capacityMs)) := by
  obtain ⟨capacityMs, capacity, refused⟩ := TimerConfig.checkDelay_of_long longest long
  refine ⟨capacityMs, capacity, ?_⟩
  have length : (timers.appointment clockMs delay repeats payload).delayMs = delay.ms := rfl
  rw [schedule_eq, place_eq, if_pos running, length, refused]
  rfl

/-! ## Whole runs -/

namespace Journal

variable {mayPass : Scheduler α → Nat → Prop}

/-- Nothing is received under the handle of a task before its delay has passed.  The occurrences of
a recurring task only fire later and later. -/
theorem lt_of_received
    (journal : Journal mayPass config epochMs history timers clockMs)
    {later earlier : History α}
    {atMs : Nat}
    {task : Task α}
    (split : history = later ++ (atMs, .scheduled task) :: earlier) :
    ∀ againMs other again, (againMs, .received other again) ∈ later →
      other.handle = task.handle → atMs + task.delayMs < againMs := by
  induction journal generalizing later with
  | begun made => cases later <;> cases split
  | @stepped history timers next clockMs note journal step ih =>
    cases note with
    | none => exact ih split
    | some written =>
      cases later with
      | nil => simp
      | cons head later =>
        obtain ⟨rfl, rest⟩ := List.cons.inj split
        intro againMs other again listed same
        rcases List.mem_cons.mp listed with now | before
        · cases now
          cases step with
          | received taken =>
            have truthful := journal.truthful
            have among : (atMs, Note.scheduled task) ∈ history := by simp [rest]
            have appointed : task ∈ history.appointed :=
              History.mem_appointed.mpr ⟨atMs, _, among, rfl⟩
            obtain ⟨fired, _⟩ := truthful.fired_mem taken
            obtain ⟨begun, _, timed⟩ := truthful.entries atMs _ among
            have timed : task.fireAtMs = atMs - epochMs + task.delayMs := timed
            have latest := truthful.roster.latest other (List.mem_append_left _ fired) task
              appointed same.symm
            have passed := truthful.steady.fireAtMs_lt fired
            omega
        · exact ih rest againMs other again before same
  | elapsed _ _ _ ih => exact ih split

/-- At any moment of a run, whatever the delay.  If it is accepted, then it is not longer than the
wheels can hold, unless a word cannot count its milliseconds, and nothing is received under its
handle before it has passed.  If the number that the timers keep of it is too long for the wheels,
then it is refused. -/
theorem counts_milliseconds
    (journal : Journal mayPass config epochMs history timers clockMs)
    (delay : Delay)
    (repeats : Bool)
    (payload : α) :
    (∀ handle next, timers.schedule clockMs delay repeats payload = .ok (handle, next) →
      (∃ longestMs, config.maxDelayMs = .ok longestMs ∧ delay.ms ≤ longestMs ∧
        (delay.wholeMs ≤ longestMs ∨ Word.limit ≤ delay.wholeMs)) ∧
      ∀ later after afterMs,
        Journal mayPass config epochMs
            (later ++
              (clockMs, .scheduled (timers.appointment clockMs delay repeats payload)) :: history)
            after afterMs →
          ∀ againMs task again, (againMs, .received task again) ∈ later → task.handle = handle →
            clockMs + delay.ms < againMs) ∧
    (∀ longestMs, config.maxDelayMs = .ok longestMs → longestMs < delay.ms →
      timers.running = true →
      ∃ capacityMs, config.capacityMs = .ok capacityMs ∧
        timers.schedule clockMs delay repeats payload =
          .error (.error (.capacityExceeded delay.ms capacityMs))) := by
  have same := journal.truthful.steady.config_eq
  refine ⟨fun handle next scheduled => ⟨?_, ?_⟩, ?_⟩
  · obtain ⟨longestMs, longest, within⟩ := ms_le_of_schedule scheduled
    refine ⟨longestMs, same ▸ longest, within, ?_⟩
    rcases Nat.lt_or_ge delay.wholeMs Word.limit with fits | beyond
    · exact .inl (Delay.ms_of_fits fits ▸ within)
    · exact .inr beyond
  · intro later after afterMs continued againMs task again listed named
    obtain ⟨rfl, _⟩ := schedule_eq_ok scheduled
    exact continued.lt_of_received rfl againMs task again listed named
  · intro longestMs longest long running
    subst same
    exact schedule_of_long running longest long repeats payload

end Journal

/-- The delay of thirty milliseconds has passed before the task is received, and one of fifty-one
milliseconds is refused. -/
theorem Journal.counts_milliseconds_dawn :
    (Journal Awaits ⟨10, 2, 3⟩ 100 [] Dawn.fresh 105 ∧
      Dawn.fresh.schedule 105 (Delay.ofMs 30) false "bell" = .ok (⟨0⟩, Dawn.loaded)) ∧
    105 + 30 < 140 ∧
    ∃ capacityMs, TimerConfig.capacityMs ⟨10, 2, 3⟩ = .ok capacityMs ∧
      Dawn.fresh.schedule 105 (Delay.ofMs 51) false "bell" =
        .error (.error (.capacityExceeded 51 capacityMs)) := by
  have begun : Journal Awaits ⟨10, 2, 3⟩ 100 [] Dawn.fresh 100 := .begun rfl
  have run : Journal Awaits ⟨10, 2, 3⟩ 100 [] Dawn.fresh 105 :=
    begun.elapsed (show 100 ≤ 105 by decide) ⟨nofun, 120, rfl, by decide⟩
  have accepted : Dawn.fresh.schedule 105 (Delay.ofMs 30) false "bell" = .ok (⟨0⟩, Dawn.loaded) :=
    rfl
  refine ⟨⟨run, accepted⟩, ?_, ?_⟩
  · exact ((run.counts_milliseconds (Delay.ofMs 30) false "bell").1 _ _ accepted).2
      [(140, .received Dawn.bell none)] _ 140 Dawn.journal 140 Dawn.bell none
      (List.mem_singleton.mpr rfl) rfl
  · exact (run.counts_milliseconds (Delay.ofMs 51) false "bell").2 50 rfl (by decide) rfl

namespace Aeon

/-! ### A delay of more than half a billion years

It is five milliseconds longer than a word can count, and the wheels span sixty. -/

def aeon : Delay := ⟨18446744073709551, 621000000⟩

def task : Task String := ⟨⟨0⟩, aeon, none, 5, "wake"⟩

def armed : Scheduler String :=
  { Dawn.fresh with
    tiers := ⟨⟨10, [[task], []], 0, 0⟩, ⟨20, [[], [], []], 20, 0⟩⟩
    issued := 1 }

theorem accepted : Dawn.fresh.schedule 100 aeon false "wake" = .ok (⟨0⟩, armed) := rfl

theorem journal :
    Journal Awaits ⟨10, 2, 3⟩ 100 [(110, .received task none), (100, .scheduled task)]
      { armed.settle 110 with fired := [] } 110 := by
  have begun : Journal Awaits ⟨10, 2, 3⟩ 100 [] Dawn.fresh 100 := .begun rfl
  have settled := ((begun.stepped (.scheduled accepted)).elapsed
    (show 100 ≤ 110 by decide) ⟨nofun, 110, rfl, by decide⟩).stepped .settled
  exact settled.stepped (.received
    (show (armed.settle 110).receive 110 = .ok (some task, _) from rfl))

end Aeon

open Aeon in
/-- A delay of more than half a billion years is accepted, and the task is received after ten
milliseconds. -/
theorem Journal.takes_aeon_for_moment :
    TimerConfig.maxDelayMs ⟨10, 2, 3⟩ = .ok 50 ∧ 50 < aeon.wholeMs ∧
      Dawn.fresh.schedule 100 aeon false "wake" = .ok (⟨0⟩, armed) ∧
      Journal Awaits ⟨10, 2, 3⟩ 100 [(110, .received task none), (100, .scheduled task)]
        { armed.settle 110 with fired := [] } 110 ∧
      110 < 100 + aeon.wholeMs :=
  ⟨rfl, by decide, accepted, journal, by decide⟩

end Scheduler

end Quorum
