import Quorum.Proofs.Timing.Works

/-!
# Wheels that are looked at in time

A task becomes due when the slot that it fires in has ended, at `Task.dueMs`.  Wheels are settled at
the instants that `Scheduler.wakeMs` names, and possibly in between; these instants never lie behind
the one at which a task in the wheels becomes due (`Punctual.wake_le`).  So whoever settles the
wheels at each of them, and receives what has fired, gets every task at the very instant at which it
becomes due: not before it (`Punctual.dueMs_le`) and, since the clock does not move on before, not
after it.  Once the wheels are settled the next instant lies ahead
(`Punctual.exists_wake_of_settle`).
-/

namespace Quorum

open Agenda

variable {α : Type}

/-- The instant at which a task becomes due: the end of its slot. -/
def Task.dueMs (tickMs epochMs : Nat) (task : Task α) : Nat :=
  epochMs + tickMs * (task.slot tickMs + 1)

/-- A task becomes due after its fire time, but not later than one tick after it. -/
theorem Task.dueMs_bounds
    {task : Task α}
    {tickMs epochMs clockMs delayMs : Nat}
    (ticking : 0 < tickMs)
    (begun : epochMs ≤ clockMs)
    (timed : task.fireAtMs = clockMs - epochMs + delayMs) :
    clockMs + delayMs < task.dueMs tickMs epochMs ∧
      task.dueMs tickMs epochMs ≤ clockMs + delayMs + tickMs := by
  have beyond := Nat.lt_mul_div_succ task.fireAtMs ticking
  have reached := Nat.mul_div_le task.fireAtMs tickMs
  unfold Task.dueMs Task.slot
  rw [Nat.mul_add, Nat.mul_one] at beyond ⊢
  omega

/-- A task that is to fire a tick later becomes due later. -/
theorem Task.dueMs_lt
    {task other : Task α}
    {tickMs epochMs : Nat}
    (ticking : 0 < tickMs)
    (apart : task.fireAtMs + tickMs ≤ other.fireAtMs) :
    task.dueMs tickMs epochMs < other.dueMs tickMs epochMs := by
  have slots : task.slot tickMs + 1 ≤ other.slot tickMs := by
    unfold slot
    rw [← Nat.add_div_right _ ticking]
    exact Nat.div_le_div_right apart
  exact Nat.add_lt_add_left (Nat.mul_lt_mul_of_pos_left (Nat.succ_lt_succ slots) ticking) _

/-! ## When the wheels want to be settled -/

namespace Wheel

variable {wheel : Wheel α} {agenda : List (Task α)} {task : Task α} {dueMs : Nat}

/-- The next busy bucket is not behind that of any task. -/
theorem Fills.nextDueMs_le
    (fills : wheel.Fills agenda)
    (listed : task ∈ agenda)
    {answer : Option Nat}
    (next : wheel.nextDueMs = .ok answer) :
    ∃ dueMs, answer = some dueMs ∧
      dueMs ≤ wheel.startMs + wheel.tickMs * (wheel.offset task + 1) := by
  have busy := fills.busy task listed
  have own := sorts_iff.mp fills.sorts _ (fills.bounded task listed)
  have ahead : (wheel.buckets.drop wheel.current)[wheel.offset task - wheel.current]? =
      some (only wheel.offset (wheel.offset task) agenda) := by
    rw [List.getElem?_drop, Nat.add_sub_cancel' busy]
    exact own
  have inside := List.mem_of_getElem? ahead
  have occupied : (only wheel.offset (wheel.offset task) agenda).isEmpty = false :=
    List.isEmpty_eq_false_iff_exists_mem.mpr ⟨task, mem_only.mpr ⟨listed, rfl⟩⟩
  unfold nextDueMs at next
  split at next
  · next idle =>
    have empty := List.findIdx?_eq_none_iff.mp idle _ inside
    rw [occupied] at empty
    cases empty
  · next offset found =>
    obtain ⟨_, _, first⟩ := List.findIdx?_eq_some_iff_getElem.mp found
    obtain ⟨product, multiplied, next⟩ := bind_eq_ok_iff.mp next
    obtain ⟨sum, added, next⟩ := bind_eq_ok_iff.mp next
    obtain ⟨_, rfl⟩ := Word.mul_eq_ok_iff.mp multiplied
    obtain ⟨_, rfl⟩ := Word.add_eq_ok_iff.mp added
    refine ⟨_, (Except.ok.inj next).symm, Nat.add_le_add_left ?_ _⟩
    rw [Nat.mul_comm]
    apply Nat.mul_le_mul_left
    -- A bucket before the first busy one is empty.
    have reached : offset ≤ wheel.offset task - wheel.current := by
      apply Nat.not_lt.mp
      intro before
      obtain ⟨_, same⟩ := List.getElem?_eq_some_iff.mp ahead
      apply first _ before
      rw [same, occupied]
      rfl
    omega

/-- The next busy bucket lies in the window. -/
theorem nextDueMs_le_pastMs (next : wheel.nextDueMs = .ok (some dueMs)) :
    dueMs ≤ wheel.pastMs := by
  unfold nextDueMs at next
  split at next
  · cases next
  · next offset found =>
    obtain ⟨within, _⟩ := List.findIdx?_eq_some_iff_getElem.mp found
    obtain ⟨product, multiplied, next⟩ := bind_eq_ok_iff.mp next
    obtain ⟨sum, added, next⟩ := bind_eq_ok_iff.mp next
    obtain ⟨_, rfl⟩ := Word.mul_eq_ok_iff.mp multiplied
    obtain ⟨_, rfl⟩ := Word.add_eq_ok_iff.mp added
    obtain rfl := Option.some.inj (Except.ok.inj next)
    rw [List.length_drop] at within
    refine Nat.add_le_add_left ?_ _
    rw [Nat.mul_comm]
    apply Nat.mul_le_mul_left
    unfold bucketCount
    omega

/-- The next busy bucket can be looked up if the window fits into a word. -/
theorem exists_nextDueMs (fits : wheel.pastMs < Word.limit) :
    ∃ answer, wheel.nextDueMs = .ok answer := by
  unfold nextDueMs
  split
  · exact ⟨none, rfl⟩
  · next offset found =>
    obtain ⟨inside, _⟩ := List.findIdx?_eq_some_iff_getElem.mp found
    rw [List.length_drop] at inside
    have bounded : (wheel.current + offset + 1) * wheel.tickMs ≤
        wheel.tickMs * wheel.bucketCount := by
      rw [Nat.mul_comm]
      apply Nat.mul_le_mul_left
      unfold bucketCount
      omega
    unfold pastMs at fits
    rw [Word.mul_eq_ok (by omega)]
    simp only [bind, Except.bind]
    rw [Word.add_eq_ok (by omega)]
    exact ⟨_, rfl⟩

/-- The next busy bucket is not behind the current one. -/
theorem le_nextDueMs (next : wheel.nextDueMs = .ok (some dueMs)) :
    wheel.startMs + wheel.tickMs * (wheel.current + 1) ≤ dueMs := by
  unfold nextDueMs at next
  split at next
  · cases next
  · obtain ⟨product, multiplied, next⟩ := bind_eq_ok_iff.mp next
    obtain ⟨sum, added, next⟩ := bind_eq_ok_iff.mp next
    obtain ⟨_, rfl⟩ := Word.mul_eq_ok_iff.mp multiplied
    obtain ⟨_, rfl⟩ := Word.add_eq_ok_iff.mp added
    obtain rfl := Option.some.inj (Except.ok.inj next)
    refine Nat.add_le_add_left ?_ _
    rw [Nat.mul_comm]
    apply Nat.mul_le_mul_right
    omega

end Wheel

namespace TwoTier

variable
    {config : TimerConfig}
    {tiers : TwoTier α}
    {position wakeMs : Nat}
    {agenda : List (Task α)}
    {task : Task α}

/-- The wheels want to be settled before any task in them is overdue. -/
theorem Stands.wakeMs_le
    (stands : tiers.Stands config position agenda)
    (listed : task ∈ agenda)
    (wakes : tiers.wakeMs = .ok wakeMs) :
    wakeMs ≤ config.tickMs * (task.slot config.tickMs + 1) := by
  obtain ⟨base, tracks, rfl⟩ := stands
  obtain ⟨answer, next, wakes⟩ := bind_eq_ok_iff.mp wakes
  rcases Nat.lt_or_ge (task.slot config.tickMs) (base + config.nearBuckets) with soon | late
  · obtain ⟨dueMs, rfl, bound⟩ :=
      tracks.near.nextDueMs_le (mem_below.mpr ⟨listed, soon⟩) next
    obtain rfl := Except.ok.inj wakes
    refine Nat.le_trans bound (Nat.le_of_eq ?_)
    rw [tracks.slot_eq_of_mem listed, tracks.aligned, tracks.nearTick, ← Nat.mul_add,
      ← Nat.add_assoc]
  · have ended : tiers.near.pastMs ≤ config.tickMs * (task.slot config.tickMs + 1) := by
      rw [tracks.pastMs_near]
      exact Nat.mul_le_mul_left _ (Nat.le_succ_of_le late)
    cases answer with
    | some dueMs =>
        obtain rfl := Except.ok.inj wakes
        exact Nat.le_trans (Wheel.nextDueMs_le_pastMs next) ended
    | none =>
        rw [Wheel.endMs_eq_ok tracks.fits] at wakes
        obtain rfl := Except.ok.inj wakes
        exact ended

/-- The next instant at which the wheels want to be settled can be told. -/
theorem Stands.exists_wakeMs (stands : tiers.Stands config position agenda) :
    ∃ wakeMs, tiers.wakeMs = .ok wakeMs := by
  obtain ⟨base, tracks, rfl⟩ := stands
  obtain ⟨answer, next⟩ := Wheel.exists_nextDueMs tracks.fits
  unfold TwoTier.wakeMs
  rw [next]
  cases answer with
  | some dueMs => exact ⟨dueMs, rfl⟩
  | none => exact ⟨_, Wheel.endMs_eq_ok tracks.fits⟩

/-- The wheels want to be settled only after the slot at which they stand. -/
theorem Stands.le_wakeMs
    (stands : tiers.Stands config position agenda)
    (wakes : tiers.wakeMs = .ok wakeMs) :
    config.tickMs * (position + 1) ≤ wakeMs := by
  obtain ⟨base, tracks, rfl⟩ := stands
  obtain ⟨answer, next, wakes⟩ := bind_eq_ok_iff.mp wakes
  cases answer with
  | some dueMs =>
      obtain rfl := Except.ok.inj wakes
      have ahead := Wheel.le_nextDueMs next
      rw [tracks.aligned, tracks.nearTick, ← Nat.mul_add, ← Nat.add_assoc] at ahead
      exact ahead
  | none =>
      rw [Wheel.endMs_eq_ok tracks.fits] at wakes
      obtain rfl := Except.ok.inj wakes
      rw [tracks.pastMs_near]
      apply Nat.mul_le_mul_left
      have inside := tracks.near.current_lt
      rw [tracks.nearCount] at inside
      omega

end TwoTier

/-! ## Punctual timers -/

namespace Scheduler

variable
    {config : TimerConfig}
    {epochMs clockMs laterMs wakeMs : Nat}
    {timers next : Scheduler α}
    {task : Task α}

/-- The timers run, the wheels are not ahead of the clock, and whatever has fired was due. -/
structure Punctual
    (config : TimerConfig)
    (epochMs : Nat)
    (timers : Scheduler α)
    (clockMs : Nat) : Prop where
  config_eq : timers.config = config
  epoch_eq : timers.epochMs = epochMs
  ticking : timers.isTicking = true
  begun : epochMs ≤ clockMs
  stands : ∃ position agenda, position ≤ (clockMs - epochMs) / config.tickMs ∧
    timers.tiers.Stands config position agenda
  fired : ∀ task ∈ timers.fired, task.slot config.tickMs < (clockMs - epochMs) / config.tickMs

namespace Punctual

/-- The wheels are settled again before any task in them is overdue. -/
theorem wake_le
    (punctual : Punctual config epochMs timers clockMs)
    (held : task ∈ timers.tiers.tasks)
    (wakes : timers.wakeMs = .ok (some wakeMs)) :
    wakeMs ≤ task.dueMs config.tickMs epochMs := by
  obtain ⟨position, agenda, _, stands⟩ := punctual.stands
  unfold Scheduler.wakeMs at wakes
  rw [if_pos punctual.ticking] at wakes
  obtain ⟨inner, settling, same⟩ := bind_eq_ok_iff.mp wakes
  obtain rfl := Option.some.inj (Except.ok.inj same)
  rw [punctual.epoch_eq]
  exact Nat.add_le_add_left (stands.wakeMs_le (stands.tasks_perm.mem_iff.mp held) settling) _

/-- Nothing has fired before it was due. -/
theorem dueMs_le
    (punctual : Punctual config epochMs timers clockMs)
    (fired : task ∈ timers.fired) :
    task.dueMs config.tickMs epochMs ≤ clockMs := by
  have ended : task.slot config.tickMs + 1 ≤ (clockMs - epochMs) / config.tickMs :=
    punctual.fired task fired
  have elapsed := Nat.mul_le_mul_left config.tickMs ended
  have whole := Nat.mul_div_le (clockMs - epochMs) config.tickMs
  have begun := punctual.begun
  unfold Task.dueMs
  omega

/-- Timers that have just been started are punctual. -/
theorem of_start (made : Scheduler.start config clockMs = .ok timers) :
    Punctual config clockMs timers clockMs := by
  obtain ⟨tiers, stands, rfl⟩ := start_eq_ok made
  exact {
    config_eq := rfl
    epoch_eq := rfl
    ticking := rfl
    begun := Nat.le_refl _
    stands := ⟨0, [], Nat.zero_le _, stands⟩
    fired := List.forall_mem_nil _ }

theorem elapsed
    (punctual : Punctual config epochMs timers clockMs)
    (later : clockMs ≤ laterMs) :
    Punctual config epochMs timers laterMs := by
  have further : (clockMs - epochMs) / config.tickMs ≤ (laterMs - epochMs) / config.tickMs :=
    Nat.div_le_div_right (Nat.sub_le_sub_right later _)
  obtain ⟨position, agenda, reached, stands⟩ := punctual.stands
  exact { punctual with
    begun := Nat.le_trans punctual.begun later
    stands := ⟨position, agenda, Nat.le_trans reached further, stands⟩
    fired := fun task fired => Nat.lt_of_lt_of_le (punctual.fired task fired) further }

/-- Placing a task leaves the timers punctual. -/
theorem place
    (punctual : Punctual config epochMs timers clockMs)
    {fireAtMs : Nat}
    {tiers : TwoTier α}
    (timed : task.fireAtMs = timers.nowMs clockMs + fireAtMs)
    (placed : timers.tiers.place task = .ok (some tiers)) :
    Punctual config epochMs { timers with tiers } clockMs := by
  obtain ⟨position, agenda, reached, stands⟩ := punctual.stands
  have ahead : position ≤ task.slot config.tickMs := by
    refine Nat.le_trans reached (Nat.div_le_div_right ?_)
    rw [timed, nowMs, punctual.epoch_eq]
    exact Nat.le_add_right _ _
  exact { punctual with stands := ⟨position, agenda ++ [task], reached, stands.place ahead placed⟩ }

theorem works
    {released : List Handle}
    {armed : List (Deadline α)}
    (punctual : Punctual config epochMs timers clockMs)
    (works : timers.Works clockMs released armed next) :
    Punctual config epochMs next clockMs := by
  induction works with
  | idle => exact punctual
  | cancelled _ _ ih => exact { ih with }
  | scheduled _ accepted ih =>
      obtain ⟨_, _, tiers, placed, rfl⟩ := schedule_eq_ok accepted
      exact { ih.place rfl placed with }

theorem delivers
    (punctual : Punctual config epochMs timers clockMs)
    (delivers : timers.Delivers clockMs task next) :
    Punctual config epochMs next clockMs := by
  obtain ⟨skipped, rest, queue, _, _, renewed⟩ := delivers.renewal
  have left : Punctual config epochMs { timers with fired := rest } clockMs := { punctual with
    fired := by
      intro other listed
      apply punctual.fired
      rw [queue]
      exact List.mem_append_right _ (List.mem_cons_of_mem _ listed) }
  cases recurs : task.nextOccurrence with
  | none =>
      rw [recurs] at renewed
      rw [renewed]
      exact left
  | some occurrence =>
      rw [recurs] at renewed
      obtain ⟨_, _, _, tiers, placed, rfl⟩ := place_eq_ok_iff.mp renewed
      exact left.place rfl placed

theorem drained
    (punctual : Punctual config epochMs timers clockMs)
    (received : timers.receive clockMs = .ok (none, next)) :
    Punctual config epochMs next clockMs := by
  unfold receive at received
  split at received
  · cases received
    exact { punctual with fired := List.forall_mem_nil _ }
  · obtain ⟨_, _, received⟩ := bind_eq_ok_iff.mp received
    cases received

/-- What settling puts on the queue is due. -/
theorem settle
    (punctual : Punctual config epochMs timers clockMs)
    (intact : (timers.settle clockMs).intact = true) :
    Punctual config epochMs (timers.settle clockMs) clockMs := by
  obtain ⟨position, agenda, reached, stands⟩ := punctual.stands
  have ticking := punctual.ticking
  simp only [Scheduler.settle, ticking, if_true, nowMs, punctual.epoch_eq] at intact ⊢
  obtain ⟨due, standing⟩ := stands.settle reached intact
  exact {
    config_eq := punctual.config_eq
    epoch_eq := rfl
    ticking := by
      simp only [isTicking, Bool.and_eq_true] at ticking ⊢
      exact ⟨ticking.1, intact⟩
    begun := punctual.begun
    stands := ⟨_, _, Nat.le_refl _, standing⟩
    fired := by
      refine List.forall_mem_append.mpr ⟨punctual.fired, ?_⟩
      intro task listed
      rw [due] at listed
      exact (mem_stretch.mp listed).2.2 }

/-- Wheels that have just been settled want to be settled again only later. -/
theorem exists_wake_of_settle
    (punctual : Punctual config epochMs timers clockMs)
    (intact : (timers.settle clockMs).intact = true) :
    ∃ wakeMs, (timers.settle clockMs).wakeMs = .ok (some wakeMs) ∧ clockMs < wakeMs := by
  have settled := punctual.settle intact
  obtain ⟨position, agenda, reached, stands⟩ := punctual.stands
  have ticking := punctual.ticking
  have begun := punctual.begun
  have tick : 0 < config.tickMs := by
    obtain ⟨_, tracks, _⟩ := stands
    exact tracks.ticking
  have beyond := Nat.lt_mul_div_succ (clockMs - epochMs) tick
  simp only [Scheduler.settle, ticking, if_true, nowMs, punctual.epoch_eq] at intact settled ⊢
  obtain ⟨_, standing⟩ := stands.settle reached intact
  obtain ⟨wakeMs, settling⟩ := standing.exists_wakeMs
  have ahead := standing.le_wakeMs settling
  unfold Scheduler.wakeMs
  rw [if_pos settled.ticking, settling]
  exact ⟨epochMs + wakeMs, rfl, by omega⟩

end Punctual

end Scheduler

end Quorum
