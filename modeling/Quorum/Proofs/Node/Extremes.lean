import Quorum.Proofs.Node.Silence
import Quorum.Proofs.Timing.Deadlines
import Quorum.Proofs.Timing.Truncation

/-!
# Configurations at the end of the range

A configuration is validated with the full span of its wheels, in one word.  The wheels count
further than that: the far window begins where the first rotation of the near wheel ends, and so it
ends one rotation after the full span.  Nobody checks that this end fits into a word too, so that a
configuration can be accepted although its delays cannot be scheduled
(`NodeConfig.overflows_at_last_word`).

`NodeConfig.overflows_exactly` says when this is so.  A delay that ends within the first rotation
never needs the far window, and any other one is scheduled exactly if the end of the far window
fits.
-/

namespace Quorum

variable {α : Type}

/-! ## Validation -/

namespace TimerConfig

variable {config : TimerConfig} {delayMs : Nat} {cause : Fault}

/-- One rotation of the near wheel, however long it is. -/
def rotationMs (config : TimerConfig) : Nat := config.tickMs * config.nearBuckets

/-- Both wheels together, however long they are. -/
def fullSpanMs (config : TimerConfig) : Nat := config.rotationMs * config.farBuckets

theorem rotationMs_le (circling : 0 < config.farBuckets) :
    config.rotationMs ≤ config.fullSpanMs :=
  Nat.le_mul_of_pos_right _ circling

theorem capacityMs_of_lt
    (circling : 0 < config.farBuckets)
    (fits : config.fullSpanMs < Word.limit) :
    config.capacityMs = .ok config.fullSpanMs := by
  have rotation : config.nearSpanMs = .ok config.rotationMs :=
    Word.mul_eq_ok (Nat.lt_of_le_of_lt (rotationMs_le circling) fits)
  unfold capacityMs
  rw [rotation]
  exact Word.mul_eq_ok fits

theorem capacityMs_of_le (beyond : Word.limit ≤ config.fullSpanMs) :
    config.capacityMs = .error .overflow := by
  cases capacity : config.capacityMs with
  | error cause => rw [Scheduler.capacityMs_fault capacity]
  | ok spanMs =>
      obtain ⟨_, rotation, product⟩ := bind_eq_ok_iff.mp capacity
      obtain ⟨_, rfl⟩ := Word.mul_eq_ok_iff.mp rotation
      exact absurd (Word.mul_eq_ok_iff.mp product).1 (Nat.not_lt.mpr beyond)

/-- Whatever the delay, checking it overflows exactly if the full span does not fit into a word. -/
theorem checkDelay_fault_iff (circling : 0 < config.farBuckets) :
    config.checkDelay delayMs = .error (.fault cause) ↔
      cause = .overflow ∧ Word.limit ≤ config.fullSpanMs := by
  constructor
  · intro failed
    refine ⟨Scheduler.checkDelay_fault failed, ?_⟩
    by_contra fits
    have capacity := capacityMs_of_lt circling (Nat.not_le.mp fits)
    rcases Nat.lt_or_ge (config.fullSpanMs - config.tickMs) delayMs with long | short
    · obtain ⟨_, _, refused⟩ := checkDelay_of_long (maxDelayMs_of_capacity capacity) long
      cases refused.symm.trans failed
    · cases (checkDelay_eq_ok_iff.mpr ⟨_, capacity, short⟩).symm.trans failed
  · rintro ⟨rfl, beyond⟩
    unfold checkDelay
    rw [capacityMs_of_le beyond]
    rfl

/-- A full span that is checked against a delay fits into a word. -/
theorem fullSpanMs_lt_of_checkDelay (checked : config.checkDelay delayMs = .ok ()) :
    config.fullSpanMs < Word.limit := by
  obtain ⟨_, capacity, _⟩ := checkDelay_eq_ok_iff.mp checked
  by_contra beyond
  cases capacity.symm.trans (capacityMs_of_le (Nat.not_lt.mp beyond))

end TimerConfig

namespace NodeConfig

variable {config : NodeConfig} {cause : Fault} {ms : Nat}

/-- A validation is lost exactly if everything before the delays is in order and the full span does
not fit into a word. -/
theorem validate_fault_iff :
    config.validate = .error (.fault cause) ↔
      cause = .overflow ∧ config.problem = none ∧ config.timer.validate = .ok () ∧
        Word.limit ≤ config.timer.fullSpanMs := by
  constructor
  · intro failed
    unfold validate at failed
    split at failed
    · cases failed
    · next sound =>
      rcases bind_eq_error_iff.mp failed with refused | ⟨_, dimensions, failed⟩
      · cases dimensions : config.timer.validate with
        | error found =>
            rw [dimensions] at refused
            cases refused
        | ok _ =>
            rw [dimensions] at refused
            cases refused
      · have dimensions := mapError_eq_ok_iff.mp dimensions
        obtain ⟨_, _, circling⟩ := TwoTier.positive_of_validate dimensions
        have lost {ms : Nat} (checked : config.timer.checkDelay ms = .error (.fault cause)) :
            cause = .overflow ∧ config.problem = none ∧ config.timer.validate = .ok () ∧
              Word.limit ≤ config.timer.fullSpanMs := by
          obtain ⟨overflow, beyond⟩ := (TimerConfig.checkDelay_fault_iff circling).mp checked
          exact ⟨overflow, sound, dimensions, beyond⟩
        rcases bind_eq_error_iff.mp failed with interval | ⟨_, _, failed⟩
        · exact lost interval
        rcases bind_eq_error_iff.mp failed with timeout | ⟨_, _, election⟩
        · exact lost timeout
        · exact lost election
  · rintro ⟨rfl, sound, dimensions, beyond⟩
    obtain ⟨_, _, circling⟩ := TwoTier.positive_of_validate dimensions
    unfold validate
    rw [sound, dimensions, (TimerConfig.checkDelay_fault_iff circling).mpr ⟨rfl, beyond⟩]
    rfl

/-- A delay that the node is going to schedule. -/
def Names (config : NodeConfig) (ms : Nat) : Prop :=
  ms = config.heartbeatIntervalMs ∨ ms = config.heartbeatTimeoutMs ∨
    config.electionMinMs ≤ ms ∧ ms ≤ config.electionMaxMs

theorem Checked.delay (checked : config.Checked) (named : config.Names ms) :
    config.timer.checkDelay ms = .ok () := by
  rcases named with rfl | rfl | ⟨_, within⟩
  · exact checked.interval
  · exact checked.timeout
  · exact TimerConfig.checkDelay_of_le checked.election within

end NodeConfig

/-! ## The first schedule calls -/

namespace TwoTier

variable {config : TimerConfig} {tiers : TwoTier α} {agenda : List (Task α)} {task : Task α}

/-- Wheels are made if neither has more buckets than can be counted. -/
theorem ofConfig_eq (fits : config.rotationMs < Word.limit) :
    (ofConfig config : Except Fault (TwoTier α)) =
      if config.nearBuckets ≤ Wheel.mostBuckets ∧ config.farBuckets ≤ Wheel.mostBuckets then
        .ok ⟨⟨config.tickMs, List.replicate config.nearBuckets [], 0, 0⟩,
          ⟨config.rotationMs, List.replicate config.farBuckets [], config.rotationMs, 0⟩⟩
      else .error .tooLarge := by
  have turned : (⟨config.tickMs, List.replicate config.nearBuckets [], 0, 0⟩ : Wheel α).spanMs =
      .ok config.rotationMs := by
    unfold Wheel.spanMs Wheel.bucketCount
    rw [List.length_replicate]
    exact Word.mul_eq_ok fits
  unfold ofConfig Wheel.ofDimensions
  by_cases near : config.nearBuckets ≤ Wheel.mostBuckets
  · rw [if_neg (Nat.not_lt.mpr near)]
    by_cases far : config.farBuckets ≤ Wheel.mostBuckets
    · rw [if_pos ⟨near, far⟩]
      simp only [bind, Except.bind, turned, if_neg (Nat.not_lt.mpr far)]
      rfl
    · rw [if_neg fun both => far both.2]
      simp only [bind, Except.bind, turned, if_pos (Nat.not_le.mp far)]
  · rw [if_pos (Nat.not_le.mp near), if_neg fun both => near both.1]
    rfl

/-- In the first rotation a task goes into the near wheel if it ends within the rotation, and else
into the far wheel, if the end of the far window can be told. -/
theorem Stands.place_at_first
    (stands : tiers.Stands config 0 agenda)
    (checked : config.checkDelay task.fireAtMs = .ok ()) :
    if task.fireAtMs < config.rotationMs ∨ config.rotationMs + config.fullSpanMs < Word.limit then
      ∃ next, tiers.place task = .ok (some next)
    else tiers.place task = .error .overflow := by
  have inside : 0 + task.fireAtMs < tiers.far.pastMs :=
    stands.lt_farEnd checked (Nat.add_pos_right _ stands.ticking)
  rw [Nat.zero_add] at inside
  obtain ⟨base, tracks, position⟩ := stands
  obtain ⟨rfl, _⟩ := Nat.add_eq_zero_iff.mp position
  have nearEnd : tiers.near.pastMs = config.rotationMs := by
    rw [tracks.pastMs_near, Nat.zero_add]
    rfl
  have farEnd : tiers.far.pastMs = config.rotationMs + config.fullSpanMs := by
    rw [tracks.pastMs_far, Nat.zero_add]
    rfl
  have ahead : 0 + tiers.near.current ≤ task.slot config.tickMs :=
    Nat.le_trans (Nat.le_of_eq position) (Nat.zero_le _)
  rw [tracks.place_eq ahead, nearEnd, farEnd]
  rw [farEnd] at inside
  by_cases soon : task.fireAtMs < config.rotationMs
  · rw [if_pos soon, if_pos (.inl soon)]
    exact ⟨_, rfl⟩
  by_cases fits : config.rotationMs + config.fullSpanMs < Word.limit
  · rw [if_neg soon, if_pos fits, if_pos (.inr fits), if_neg (Nat.not_le.mpr inside)]
    exact ⟨_, rfl⟩
  · rw [if_neg soon, if_neg fits, if_neg (not_or.mpr ⟨soon, fits⟩)]

end TwoTier

namespace Scheduler

variable
    {config : TimerConfig}
    {timers : Scheduler α}
    {clockMs settledMs ms : Nat}
    {agenda : List (Task α)}

/-- Valid wheels can be started if they have no more buckets than can be counted. -/
theorem start_of_valid
    (valid : config.validate = .ok ())
    (fits : config.rotationMs < Word.limit)
    (epochMs : Nat) :
    if config.nearBuckets ≤ Wheel.mostBuckets ∧ config.farBuckets ≤ Wheel.mostBuckets then
      ∃ fresh : Scheduler α, Scheduler.start config epochMs = .ok fresh
    else (Scheduler.start config epochMs : Except Failure (Scheduler α)) =
      .error (.fault .tooLarge) := by
  unfold Scheduler.start
  rw [valid, TwoTier.ofConfig_eq fits]
  split
  · exact ⟨_, rfl⟩
  · rfl

/-- As long as the clock of a scheduler has not moved, an accepted delay is scheduled if it ends
within the first rotation, or if the end of the far window fits into a word. -/
theorem Diary.schedule_at_first
    (diary : Diary config timers clockMs settledMs agenda)
    (first : timers.nowMs clockMs = 0)
    (checked : config.checkDelay ms = .ok ())
    (repeats : Bool)
    (payload : α) :
    if ms < config.rotationMs ∨ config.rotationMs + config.fullSpanMs < Word.limit then
      ∃ next, timers.schedule clockMs (Delay.ofMs ms) repeats payload =
        .ok (timers.nextHandle, next)
    else timers.schedule clockMs (Delay.ofMs ms) repeats payload = .error (.fault .overflow) := by
  have keeps := diary.keeps
  have stands := keeps.stands
  obtain rfl : settledMs = 0 := Nat.eq_zero_of_le_zero (first ▸ keeps.elapsed)
  rw [Nat.zero_div] at stands
  have short := lt_limit_of_checkDelay checked
  have length : (Delay.ofMs ms).ms = ms := Delay.ms_ofMs short
  have due : (timers.appointment clockMs (Delay.ofMs ms) repeats payload).fireAtMs = ms := by
    unfold appointment
    rw [first, Nat.zero_add, length]
  have placed := stands.place_at_first (due.symm ▸ checked)
  rw [due] at placed
  rw [schedule_of_checked (running_of_isTicking keeps.ticking) (by rwa [length, keeps.config_eq])
    (by rwa [first, length, Nat.zero_add])]
  split at placed
  · next roomy =>
    obtain ⟨tiers, found⟩ := placed
    rw [if_pos roomy, found]
    exact ⟨_, rfl⟩
  · next tight => rw [if_neg tight, placed]

end Scheduler

/-! ## Where the range ends -/

/-- When numbers do not fit, for every configuration.  Its validation overflows exactly if all else
is in order and the full span of the wheels does not fit into a word.  If the configuration is
valid, its wheels can be started unless they have more buckets than can be counted, and whatever has
been scheduled by then at the first instant, a delay that the configuration names is scheduled too,
unless it goes beyond the first rotation and the end of the far window does not fit into a word. -/
theorem NodeConfig.overflows_exactly (config : NodeConfig) :
    (∀ cause, config.validate = .error (.fault cause) ↔
      cause = .overflow ∧ config.problem = none ∧ config.timer.validate = .ok () ∧
        Word.limit ≤ config.timer.fullSpanMs) ∧
    (config.validate = .ok () →
      (∀ epochMs,
        if config.timer.nearBuckets ≤ Wheel.mostBuckets ∧
            config.timer.farBuckets ≤ Wheel.mostBuckets then
          ∃ fresh : Scheduler α, Scheduler.start config.timer epochMs = .ok fresh
        else (Scheduler.start config.timer epochMs : Except Failure (Scheduler α)) =
          .error (.fault .tooLarge)) ∧
      ∀ (timers : Scheduler α) (clockMs settledMs : Nat) (agenda : List (Task α)),
        Scheduler.Diary config.timer timers clockMs settledMs agenda →
        timers.nowMs clockMs = 0 →
        ∀ ms, config.Names ms → ∀ repeats payload,
          if ms < config.timer.rotationMs ∨
              config.timer.rotationMs + config.timer.fullSpanMs < Word.limit then
            ∃ next, timers.schedule clockMs (Delay.ofMs ms) repeats payload =
              .ok (timers.nextHandle, next)
          else timers.schedule clockMs (Delay.ofMs ms) repeats payload =
            .error (.fault .overflow)) := by
  refine ⟨fun _ => validate_fault_iff, fun valid => ?_⟩
  have checked := checked_of_validate valid
  obtain ⟨_, _, circling⟩ := TwoTier.positive_of_validate checked.dimensions
  have fits : config.timer.rotationMs < Word.limit :=
    Nat.lt_of_le_of_lt (TimerConfig.rotationMs_le circling)
      (TimerConfig.fullSpanMs_lt_of_checkDelay checked.election)
  refine ⟨Scheduler.start_of_valid checked.dimensions fits, ?_⟩
  intro timers clockMs settledMs agenda diary first ms named
  exact diary.schedule_at_first first (checked.delay named)

/-- The settings that a node has unless it is told otherwise are far from the end of the range. -/
theorem NodeConfig.overflows_exactly_default :
    ({} : NodeConfig).validate = .ok () ∧
      ∃ fresh : Scheduler TimerEvent, Scheduler.start ({} : NodeConfig).timer 0 = .ok fresh ∧
        ∀ ms, ({} : NodeConfig).Names ms → ∀ event,
          ∃ next, fresh.schedule 0 (Delay.ofMs ms) false event = .ok (⟨0⟩, next) := by
  have valid : ({} : NodeConfig).validate = .ok () := by decide +kernel
  obtain ⟨starts, schedules⟩ := (@NodeConfig.overflows_exactly TimerEvent {}).2 valid
  have countable : ({} : NodeConfig).timer.nearBuckets ≤ Wheel.mostBuckets ∧
      ({} : NodeConfig).timer.farBuckets ≤ Wheel.mostBuckets := by decide
  have roomy : ({} : NodeConfig).timer.rotationMs + ({} : NodeConfig).timer.fullSpanMs <
      Word.limit := by decide
  obtain ⟨fresh, made⟩ := if_pos countable ▸ starts 0
  refine ⟨valid, fresh, made, fun ms named event => ?_⟩
  have scheduled := schedules fresh 0 0 [] (.begun made) (Nat.zero_sub _) ms named false event
  rw [if_pos (.inr roomy)] at scheduled
  obtain ⟨_, _, rfl⟩ := Scheduler.start_eq_ok made
  exact scheduled

namespace LastWord

/-! ### Two configurations that do not fit

The full span of the one is as long as there are numbers in a word.  The full span of the other one
fits, and its far window ends just where the range does. -/

def vast : NodeConfig where
  timer := ⟨9223372036854775808, 2, 1⟩

def brink : NodeConfig where
  electionMinMs := 4611686018427387904
  electionMaxMs := 4611686018427387904
  timer := ⟨4611686018427387904, 1, 3⟩

def fresh : Scheduler TimerEvent where
  config := brink.timer
  epochMs := 0
  tiers := ⟨⟨4611686018427387904, [[]], 0, 0⟩,
    ⟨4611686018427387904, [[], [], []], 4611686018427387904, 0⟩⟩
  fired := []
  cancelled := {}
  issued := 0
  running := true
  attended := true
  intact := true

end LastWord

open LastWord in
/-- The validation of the one is lost.  The other one is accepted, and its election timeout cannot
be scheduled. -/
theorem NodeConfig.overflows_at_last_word :
    vast.validate = .error (.fault .overflow) ∧
      brink.validate = .ok () ∧ brink.Names brink.electionMaxMs ∧
      Scheduler.start brink.timer 0 = .ok fresh ∧
      fresh.schedule 0 (Delay.ofMs brink.electionMaxMs) false .electionTimeout =
        .error (.fault .overflow) := by
  refine ⟨by decide +kernel, by decide +kernel, .inr (.inr ⟨Nat.le_refl _, Nat.le_refl _⟩), ?_, ?_⟩
  · decide +kernel
  · decide +kernel

end Quorum
