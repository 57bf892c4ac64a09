import Quorum.Proofs.Timing.Holdings

/-!
# Room in the wheels

The wheels accept a delay only if it is one tick shorter than their full span.  This tick is what
can be lost when they are settled late: the clock counts from where it is, and the far window ends
where the last settling has left it.  As long as the clock is not more than one tick ahead of the
last settling, every delay that the configuration accepts finds its place, wherever in its rotation
the near wheel stands (`Prepared.place_accepted`).  So no armed timer is refused, and no recurring
task ends because its next occurrence does not fit.
-/

namespace Quorum

/-- A number or a date that is beyond its range, as opposed to an answer of the domain. -/
def Failure.isRange : Failure → Bool
  | fault .overflow | fault .undated => true
  | _ => false

variable {α : Type}

/-! ## Accepted delays -/

/-- The dimensions of the timers, when they were started, and when they were settled last. -/
structure Timetable where
  config : TimerConfig
  epochMs : Nat
  settledMs : Nat

/-- A delay that the dimensions of the timers accept. -/
def Timetable.Admits (table : Timetable) (delay : Delay) : Prop :=
  table.config.checkDelay delay.ms = .ok ()

/-- The clock is at most one tick ahead of the last settling. -/
def Timetable.Fresh (table : Timetable) (clockMs : Nat) : Prop :=
  clockMs ≤ table.settledMs + table.config.tickMs

instance (table : Timetable) (clockMs : Nat) : Decidable (table.Fresh clockMs) :=
  inferInstanceAs (Decidable (clockMs ≤ table.settledMs + table.config.tickMs))

/-- What may still be refused in spite of an accepted delay: something is beyond its range, or the
clock has left the last settling too far behind. -/
inductive Timetable.Excuses (table : Timetable) (clockMs : Nat) : Failure → Prop where
  | range
      {failure : Failure}
      (beyond : failure.isRange = true) :
      Excuses table clockMs failure
  | late
      {delayMs spanMs : Nat}
      (stale : ¬ table.Fresh clockMs) :
      Excuses table clockMs (.error (.capacityExceeded delayMs spanMs))

/-- At a fresh clock only a range is an excuse. -/
theorem Timetable.Excuses.isRange
    {table : Timetable}
    {clockMs : Nat}
    {failure : Failure}
    (excused : table.Excuses clockMs failure)
    (fresh : table.Fresh clockMs) :
    failure.isRange = true := by
  cases excused with
  | range beyond => exact beyond
  | late stale => exact absurd fresh stale

namespace TimerConfig

variable {config : TimerConfig} {delayMs longerMs spanMs : Nat}

theorem checkDelay_eq_ok_iff :
    config.checkDelay delayMs = .ok () ↔
      ∃ spanMs, config.capacityMs = .ok spanMs ∧ delayMs ≤ spanMs - config.tickMs := by
  unfold checkDelay maxDelayMs
  cases config.capacityMs with
  | error cause => exact ⟨nofun, nofun⟩
  | ok spanMs =>
    have checked : (if delayMs > spanMs - config.tickMs then
        .error (.error (.capacityExceeded delayMs spanMs)) else .ok () :
        Except Failure Unit) = .ok () ↔ delayMs ≤ spanMs - config.tickMs := by
      split
      · next long => exact ⟨nofun, fun short => absurd short (Nat.not_le.mpr long)⟩
      · next short => exact ⟨fun _ => Nat.not_lt.mp short, fun _ => rfl⟩
    refine Iff.trans checked ?_
    simp

/-- A delay that is shorter than an accepted one is accepted. -/
theorem checkDelay_of_le
    (checked : config.checkDelay longerMs = .ok ())
    (shorter : delayMs ≤ longerMs) :
    config.checkDelay delayMs = .ok () := by
  obtain ⟨spanMs, capacity, within⟩ := checkDelay_eq_ok_iff.mp checked
  exact checkDelay_eq_ok_iff.mpr ⟨spanMs, capacity, Nat.le_trans shorter within⟩

/-- A delay in milliseconds is accepted like its number of milliseconds, which fits into a word. -/
theorem checkDelay_ofMs
    (checked : config.checkDelay longerMs = .ok ())
    (shorter : delayMs ≤ longerMs) :
    config.checkDelay (Delay.ofMs delayMs).ms = .ok () := by
  rw [Delay.ms_ofMs (Nat.lt_of_le_of_lt shorter (Scheduler.lt_limit_of_checkDelay checked))]
  exact checkDelay_of_le checked shorter

theorem capacityMs_eq_ok (capacity : config.capacityMs = .ok spanMs) :
    spanMs = config.tickMs * config.nearBuckets * config.farBuckets := by
  obtain ⟨nearMs, near, both⟩ := bind_eq_ok_iff.mp capacity
  obtain ⟨_, rfl⟩ := Word.mul_eq_ok_iff.mp near
  obtain ⟨_, rfl⟩ := Word.mul_eq_ok_iff.mp both
  rfl

theorem capacityMs_of_fits
    (fits : config.tickMs * config.nearBuckets * (config.farBuckets + 1) < Word.limit) :
    config.capacityMs = .ok (config.tickMs * config.nearBuckets * config.farBuckets) := by
  rw [Nat.mul_add, Nat.mul_one] at fits
  have near : config.tickMs * config.nearBuckets < Word.limit :=
    Nat.lt_of_le_of_lt (Nat.le_add_left _ _) fits
  have both : config.tickMs * config.nearBuckets * config.farBuckets < Word.limit :=
    Nat.lt_of_le_of_lt (Nat.le_add_right _ _) fits
  simp only [capacityMs, nearSpanMs, Word.mul_eq_ok near, bind, Except.bind, Word.mul_eq_ok both]

theorem maxDelayMs_of_capacity (capacity : config.capacityMs = .ok spanMs) :
    config.maxDelayMs = .ok (spanMs - config.tickMs) := by
  simp only [maxDelayMs, capacity, bind, Except.bind, pure, Except.pure]

end TimerConfig

/-! ## The end of the far window -/

namespace TwoTier

variable
    {config : TimerConfig}
    {tiers : TwoTier α}
    {position delayMs nowMs : Nat}
    {agenda : List (Task α)}
    {task : Task α}

/-- The far window ends one full span after the slot at which the wheels stand, or later. -/
theorem Stands.le_farEnd
    (stands : tiers.Stands config position agenda) :
    config.tickMs * (position + 1) + config.tickMs * config.nearBuckets * config.farBuckets ≤
      tiers.far.pastMs := by
  obtain ⟨base, tracks, rfl⟩ := stands
  have inside := tracks.near.current_lt
  rw [tracks.nearCount] at inside
  rw [tracks.pastMs_far]
  exact Nat.add_le_add_right (Nat.mul_le_mul_left _ (by omega)) _

/-- Only a task that fires after the end of the far window finds no place. -/
theorem Stands.le_of_place_eq_none
    (stands : tiers.Stands config position agenda)
    (ahead : position ≤ task.slot config.tickMs)
    (outside : tiers.place task = .ok none) :
    tiers.far.pastMs ≤ task.fireAtMs := by
  obtain ⟨base, tracks, rfl⟩ := stands
  have outcome := tracks.place ahead
  rwa [outside] at outcome

/-- An accepted delay ends before the far window does, if the clock is at most one tick ahead of an
instant in the slot at which the wheels stand. -/
theorem Stands.lt_farEnd
    (stands : tiers.Stands config position agenda)
    (checked : config.checkDelay delayMs = .ok ())
    (fresh : nowMs < config.tickMs * (position + 1) + config.tickMs) :
    nowMs + delayMs < tiers.far.pastMs := by
  obtain ⟨spanMs, capacity, within⟩ := TimerConfig.checkDelay_eq_ok_iff.mp checked
  obtain rfl := TimerConfig.capacityMs_eq_ok capacity
  have ended := stands.le_farEnd
  -- The span is one tick at least, so that taking one off it is no rounding.
  have room : config.tickMs ≤ config.tickMs * config.nearBuckets * config.farBuckets := by
    obtain ⟨base, tracks, _⟩ := stands
    have circling := Nat.zero_lt_of_lt tracks.far.current_lt
    rw [tracks.farCount] at circling
    rw [Nat.mul_assoc]
    exact Nat.le_mul_of_pos_right _ (Nat.mul_pos tracks.turning circling)
  omega

end TwoTier

/-! ## Timers that are settled in time -/

namespace Scheduler

variable
    {table : Timetable}
    {timers next : Scheduler α}
    {task : Task α}
    {clockMs laterMs : Nat}

theorem receive_eq (timers : Scheduler α) (clockMs : Nat) :
    timers.receive clockMs =
      match firstLive timers.cancelled timers.fired with
      | none => .ok (none, { timers with fired := [] })
      | some (task, rest) =>
        ({ timers with fired := rest }.renew clockMs task).map fun renewed =>
          (some task, renewed) := by
  unfold Scheduler.receive
  cases firstLive timers.cancelled timers.fired with
  | none => rfl
  | some taken => rfl

/-- The timers run and were settled when the table says, and whatever recurs among the tasks they
hold does so with an accepted delay. -/
structure Prepared (table : Timetable) (timers : Scheduler α) (clockMs : Nat) : Prop where
  config_eq : timers.config = table.config
  epoch_eq : timers.epochMs = table.epochMs
  ticking : timers.isTicking = true
  begun : table.epochMs ≤ table.settledMs
  reached : table.settledMs ≤ clockMs
  stands : ∃ agenda, timers.tiers.Stands table.config
    ((table.settledMs - table.epochMs) / table.config.tickMs) agenda
  renewable : ∀ task ∈ timers.held, ∀ period ∈ task.period, table.Admits period

namespace Prepared

theorem of_start
    {config : TimerConfig}
    (made : Scheduler.start config clockMs = .ok timers) :
    Prepared ⟨config, clockMs, clockMs⟩ timers clockMs := by
  obtain ⟨tiers, stands, rfl⟩ := start_eq_ok made
  exact {
    config_eq := rfl
    epoch_eq := rfl
    ticking := rfl
    begun := Nat.le_refl _
    reached := Nat.le_refl _
    stands := ⟨[], by simpa using stands⟩
    renewable := by
      have empty : tiers.tasks = [] := List.perm_nil.mp stands.tasks_perm
      simp [held, empty] }

theorem elapsed
    (prepared : timers.Prepared table clockMs)
    (later : clockMs ≤ laterMs) :
    timers.Prepared table laterMs :=
  { prepared with reached := Nat.le_trans prepared.reached later }

theorem cancel
    (prepared : timers.Prepared table clockMs)
    (handle : Handle) :
    (timers.cancel handle).Prepared table clockMs :=
  { prepared with }

/-- Some of the fired tasks have been taken. -/
theorem withFired
    (prepared : timers.Prepared table clockMs)
    {rest : List (Task α)}
    (subset : rest ⊆ timers.fired) :
    ({ timers with fired := rest } : Scheduler α).Prepared table clockMs :=
  { prepared with
    renewable := by
      intro task held
      rcases List.mem_append.mp held with fired | waiting
      · exact prepared.renewable task (List.mem_append_left _ (subset fired))
      · exact prepared.renewable task (List.mem_append_right _ waiting) }

/-- What is due after a delay lies ahead of the wheels. -/
theorem ahead
    (prepared : timers.Prepared table clockMs)
    (delayMs : Nat) :
    (table.settledMs - table.epochMs) / table.config.tickMs ≤
      (timers.nowMs clockMs + delayMs) / table.config.tickMs := by
  have reached := prepared.reached
  rw [nowMs, prepared.epoch_eq]
  exact Nat.div_le_div_right (by omega)

/-- At a fresh clock, what is due after an accepted delay lies before the end of the far window. -/
theorem lt_farEnd
    (prepared : timers.Prepared table clockMs)
    (fresh : table.Fresh clockMs)
    {delay : Delay}
    (admitted : table.Admits delay) :
    timers.nowMs clockMs + delay.ms < timers.tiers.far.pastMs := by
  obtain ⟨agenda, stands⟩ := prepared.stands
  have beyond := Nat.lt_mul_div_succ (table.settledMs - table.epochMs) stands.ticking
  have begun := prepared.begun
  refine stands.lt_farEnd admitted ?_
  unfold Timetable.Fresh at fresh
  rw [nowMs, prepared.epoch_eq]
  omega

theorem running (prepared : timers.Prepared table clockMs) : timers.running = true :=
  running_of_isTicking prepared.ticking

/-- Only a sum can be lost when a task is placed. -/
theorem place_fault
    (prepared : timers.Prepared table clockMs)
    {cause : Fault}
    (lost : timers.place clockMs task = .error (.fault cause)) :
    cause = .overflow := by
  obtain ⟨agenda, stands⟩ := prepared.stands
  refine Scheduler.place_fault (prepared.config_eq ▸ stands) ?_ lost
  exact prepared.config_eq ▸ prepared.ahead task.delayMs

/-- A task with an accepted delay is refused only with an excuse. -/
theorem place_refused
    (prepared : timers.Prepared table clockMs)
    (task : Task α)
    (admitted : table.Admits task.delay) :
    ∀ failure, timers.place clockMs task = .error failure → table.Excuses clockMs failure := by
  intro failure refused
  cases failure with
  | fault cause =>
    obtain rfl := prepared.place_fault refused
    exact .range rfl
  | error cause =>
    have checked : timers.config.checkDelay task.delayMs = .ok () :=
      prepared.config_eq ▸ admitted
    rw [place_eq, if_pos prepared.running, checked] at refused
    dsimp only at refused
    split at refused
    · cases refused
    · next fireAtMs sum =>
      obtain ⟨_, rfl⟩ := Word.add_eq_ok_iff.mp sum
      split at refused
      · cases refused
      · next outside =>
        obtain ⟨agenda, stands⟩ := prepared.stands
        obtain ⟨spanMs, capacity, _⟩ := TimerConfig.checkDelay_eq_ok_iff.mp checked
        have beyond : timers.tiers.far.pastMs ≤ timers.nowMs clockMs + task.delayMs := by
          refine stands.le_of_place_eq_none ?_ outside
          exact prepared.ahead task.delayMs
        unfold refuse at refused
        rw [capacity] at refused
        cases refused
        exact .late fun fresh =>
          absurd (prepared.lt_farEnd fresh admitted) (Nat.not_lt.mpr beyond)
      · cases refused

theorem place
    (prepared : timers.Prepared table clockMs)
    (renewable : ∀ period ∈ task.period, table.Admits period)
    (placed : timers.place clockMs task = .ok next) :
    next.Prepared table clockMs := by
  have kept := held_place placed
  have ahead : (table.settledMs - table.epochMs) / table.config.tickMs ≤
      Task.slot table.config.tickMs
        { task with fireAtMs := timers.nowMs clockMs + task.delayMs } :=
    prepared.ahead task.delayMs
  obtain ⟨agenda, stands⟩ := prepared.stands
  obtain ⟨_, _, _, tiers, found, rfl⟩ := place_eq_ok_iff.mp placed
  exact { prepared with
    stands := ⟨_, stands.place ahead found⟩
    renewable := by
      intro other held
      rcases List.mem_append.mp (kept.mem_iff.mp held) with old | new
      · exact prepared.renewable other old
      · obtain rfl := List.mem_singleton.mp new
        exact renewable }

/-- A schedule call with an accepted delay leaves the timers prepared. -/
theorem schedule
    (prepared : timers.Prepared table clockMs)
    {delay : Delay}
    {repeats : Bool}
    {payload : α}
    {handle : Handle}
    (admitted : table.Admits delay)
    (scheduled : timers.schedule clockMs delay repeats payload = .ok (handle, next)) :
    next.Prepared table clockMs := by
  obtain ⟨_, placed, found, rfl⟩ := exists_place_of_schedule scheduled
  have after : placed.Prepared table clockMs := by
    refine prepared.place ?_ found
    intro period recurs
    unfold appointment at recurs
    cases repeats with
    | false => cases recurs
    | true => exact Option.some.inj recurs ▸ admitted
  exact { after with }

/-- It is refused only with an excuse. -/
theorem schedule_refused
    (prepared : timers.Prepared table clockMs)
    {delay : Delay}
    {repeats : Bool}
    {payload : α}
    {failure : Failure}
    (admitted : table.Admits delay)
    (refused : timers.schedule clockMs delay repeats payload = .error failure) :
    table.Excuses clockMs failure :=
  prepared.place_refused (timers.appointment clockMs delay repeats payload) admitted failure
    (place_of_refused refused)

/-- Settling the wheels brings them up to the clock. -/
theorem settle
    (prepared : timers.Prepared table clockMs)
    (intact : (timers.settle clockMs).intact = true) :
    (timers.settle clockMs).Prepared { table with settledMs := clockMs } clockMs := by
  have kept := held_settle intact
  have ahead := prepared.ahead 0
  have ticking := prepared.ticking
  obtain ⟨agenda, stands⟩ := prepared.stands
  have begun := Nat.le_trans prepared.begun prepared.reached
  refine {
    config_eq := ?_
    epoch_eq := ?_
    ticking := ?_
    begun := begun
    reached := Nat.le_refl _
    stands := ?_
    renewable := fun task held => prepared.renewable task (kept.mem_iff.mp held) }
  all_goals simp only [Scheduler.settle, ticking, if_true] at intact ⊢
  · exact prepared.config_eq
  · exact prepared.epoch_eq
  · simp only [isTicking, Bool.and_eq_true] at ticking ⊢
    exact ⟨ticking.1, intact⟩
  · obtain ⟨_, standing⟩ := stands.settle ahead intact
    rw [nowMs, prepared.epoch_eq] at standing
    exact ⟨_, by simpa [nowMs, prepared.epoch_eq] using standing⟩

/-- At a fresh clock the next occurrence of a task finds its place. -/
theorem renew
    (prepared : timers.Prepared table clockMs)
    (renewable : ∀ period ∈ task.period, table.Admits period) :
    match timers.renew clockMs task with
    | .ok next => next.Prepared table clockMs ∧
        (table.Fresh clockMs → ∀ occurrence, task.nextOccurrence = some occurrence →
          ∃ placed, timers.place clockMs occurrence = .ok placed)
    | .error cause => cause = .overflow := by
  unfold Scheduler.renew Task.nextOccurrence
  cases recurs : task.period with
  | none => exact ⟨prepared, fun _ => nofun⟩
  | some period =>
    have admitted := renewable period recurs
    simp only [Option.map_some]
    have excused :=
      prepared.place_refused (Task.recurring task.handle period task.payload) admitted
    cases found : timers.place clockMs (Task.recurring task.handle period task.payload) with
    | ok placed =>
      refine ⟨prepared.place ?_ found, fun _ => ?_⟩
      · rintro _ ⟨⟩
        exact admitted
      · rintro _ ⟨⟩
        exact ⟨placed, found⟩
    | error failure =>
      cases failure with
      | error cause =>
        refine ⟨prepared, fun fresh => ?_⟩
        exact absurd ((excused _ found).isRange fresh) nofun
      | fault cause => exact prepared.place_fault found

/-- The consumer loses no recurring task at a fresh clock: when it takes one, the next occurrence is
placed. -/
theorem receive (prepared : timers.Prepared table clockMs) :
    match timers.receive clockMs with
    | .ok (some task, next) =>
        (table.Fresh clockMs → timers.Delivers clockMs task next) ∧ next.Prepared table clockMs
    | .ok (none, next) => next.Prepared table clockMs
    | .error cause => cause = .overflow := by
  rw [receive_eq]
  cases first : firstLive timers.cancelled timers.fired with
  | none => exact prepared.withFired (List.nil_subset _)
  | some taken =>
    obtain ⟨task, rest⟩ := taken
    obtain ⟨_, skipped, queue, _⟩ := firstLive_eq_some first
    have left : ({ timers with fired := rest } : Scheduler α).Prepared table clockMs :=
      prepared.withFired (by simp [queue])
    have renewable := prepared.renewable task (List.mem_append_left _ (by simp [queue]))
    have renewed := left.renew renewable
    dsimp only
    cases renewal : ({ timers with fired := rest } : Scheduler α).renew clockMs task with
    | error cause =>
      rw [renewal] at renewed
      exact renewed
    | ok next =>
      rw [renewal] at renewed
      obtain ⟨after, accepted⟩ := renewed
      refine ⟨fun fresh => ⟨?_, ?_⟩, after⟩
      · rw [receive_eq, first]
        dsimp only
        rw [renewal]
        rfl
      · intro occurrence recurs
        obtain ⟨placed, found⟩ := accepted fresh occurrence recurs
        have refilled := place_fired timers.fired found
        exact ⟨_, refilled⟩

end Prepared

end Scheduler

end Quorum
