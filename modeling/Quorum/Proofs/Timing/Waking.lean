import Quorum.Proofs.Timing.Lockstep

/-!
# Settling comes to rest

The thread that advances the wheels does so again as long as a rotation is completed, without a
bound, and then sleeps until the wheels want to be looked at again.  `TwoTier.Settles` is that loop
as it stands.  It ends, however far the clock has jumped (`Tracks.settles`): each rotation moves the
near window on by its own length, whatever comes out of the far wheel meanwhile, and never past the
clock.

Where it ends, the clock lies in the current bucket of the near wheel (`TwoTier.Rests`).  So the
thread neither spins, since the wake-up time lies behind the clock, nor does it oversleep, since no
task is due before that time, in whichever wheel it is.
-/

namespace Quorum

open Agenda

variable {α : Type}

namespace Wheel

variable {wheel : Wheel α} {agenda : List (Task α)}

theorem exists_mem_tasks (busy : wheel.isEmpty = false) : ∃ task, task ∈ wheel.tasks := by
  obtain ⟨bucket, among, occupied⟩ := List.all_eq_false.mp busy
  obtain ⟨task, listed⟩ := List.isEmpty_eq_false_iff_exists_mem.mp (Bool.eq_false_iff.mpr occupied)
  exact ⟨task, List.mem_flatten.mpr ⟨bucket, among, listed⟩⟩

/-- The next busy bucket is the bucket of a task. -/
theorem Fills.exists_task_of_nextDueMs
    (fills : wheel.Fills agenda)
    {dueMs : Nat}
    (next : wheel.nextDueMs = .ok (some dueMs)) :
    ∃ task ∈ agenda, dueMs = wheel.startMs + wheel.tickMs * (wheel.offset task + 1) := by
  unfold nextDueMs at next
  split at next
  · cases next
  · next offset found =>
    obtain ⟨within, busy, _⟩ := List.findIdx?_eq_some_iff_getElem.mp found
    obtain ⟨product, multiplied, next⟩ := bind_eq_ok_iff.mp next
    obtain ⟨sum, added, next⟩ := bind_eq_ok_iff.mp next
    obtain ⟨_, rfl⟩ := Word.mul_eq_ok_iff.mp multiplied
    obtain ⟨_, rfl⟩ := Word.add_eq_ok_iff.mp added
    obtain rfl := Option.some.inj (Except.ok.inj next)
    have inside : wheel.current + offset < wheel.bucketCount := by
      rw [List.length_drop] at within
      unfold bucketCount
      omega
    have held := sorts_iff.mp fills.sorts _ inside
    obtain ⟨_, same⟩ := List.getElem?_eq_some_iff.mp held
    rw [List.getElem_drop, same, Bool.not_eq_true'] at busy
    obtain ⟨task, listed⟩ := List.isEmpty_eq_false_iff_exists_mem.mp busy
    obtain ⟨held, position⟩ := mem_only.mp listed
    refine ⟨task, held, ?_⟩
    rw [position, Nat.mul_comm]

end Wheel

namespace TwoTier

variable
    {config : TimerConfig}
    {tiers passed last : TwoTier α}
    {base nowMs : Nat}
    {agenda : List (Task α)}

/-- The wheels are advanced until no rotation is completed any more, `due` being what becomes due on
the way. -/
inductive Settles (nowMs : Nat) : TwoTier α → List (Task α) → TwoTier α → Prop where
  | rests
      {tiers : TwoTier α} {step : Advance α}
      (advanced : tiers.advance nowMs = .ok step)
      (rests : step.rotated = false) :
      Settles nowMs tiers step.due step.tiers
  | turns
      {tiers last : TwoTier α} {step : Advance α} {due : List (Task α)}
      (advanced : tiers.advance nowMs = .ok step)
      (rotated : step.rotated = true)
      (settles : Settles nowMs step.tiers due last) :
      Settles nowMs tiers (step.due ++ due) last

/-- The clock lies in the current bucket of the near wheel, and the wheels want to be looked at
again when the first of their tasks is due, or earlier. -/
structure Rests (config : TimerConfig) (tiers : TwoTier α) (nowMs : Nat) : Prop where
  current_lt : tiers.near.current < config.nearBuckets
  reached : tiers.near.startMs + tiers.near.current * config.tickMs ≤ nowMs
  ahead : nowMs < tiers.near.startMs + (tiers.near.current + 1) * config.tickMs
  wakes : ∃ wakeMs, tiers.wakeMs = .ok wakeMs ∧ nowMs < wakeMs ∧
    (∀ task ∈ tiers.tasks, wakeMs ≤ (task.fireAtMs / config.tickMs + 1) * config.tickMs) ∧
    (tiers.near.isEmpty = false →
      ∃ task ∈ tiers.tasks, wakeMs = (task.fireAtMs / config.tickMs + 1) * config.tickMs)

/-- What a settling passes through after its first rotation, it passes through. -/
theorem Midway.after
    {step : Advance α}
    (advanced : tiers.advance nowMs = .ok step)
    (rotated : step.rotated = true)
    (midway : step.tiers.Midway nowMs passed) :
    tiers.Midway nowMs passed := by
  induction midway with
  | begun => exact .rotated .begun advanced rotated
  | rotated _ advanced' rotated' ih => exact .rotated ih advanced' rotated'

namespace Tracks

/-- The loop ends: each rotation moves the start of the near window, which does not pass the
clock. -/
theorem settles
    (tracks : tiers.Tracks config base agenda)
    {turns : Nat}
    (ahead : base + tiers.near.current ≤ nowMs / config.tickMs)
    (enough : nowMs < tiers.near.startMs + turns)
    (inRange : ∀ passed, tiers.Midway nowMs passed → ∃ step, passed.advance nowMs = .ok step)
    (due : List (Task α)) :
    ∃ more last, tiers.Settles nowMs more last ∧
      TwoTier.settleWithin nowMs turns tiers due = ⟨last, due ++ more, true⟩ := by
  induction turns generalizing tiers base agenda due with
  | zero =>
    have started := (tracks.in_step ahead).begun
    omega
  | succ turns ih =>
    obtain ⟨step, advanced⟩ := inRange tiers .begun
    cases rotated : step.rotated with
    | false =>
      refine ⟨step.due, step.tiers, .rests advanced rotated, ?_⟩
      simp only [TwoTier.settleWithin, advanced, rotated, Bool.false_eq_true, if_false]
    | true =>
      obtain ⟨tracks', ahead'⟩ := tracks.rotated ahead advanced rotated
      have enough' : nowMs < step.tiers.near.startMs + turns := by
        have span := Nat.mul_pos tracks.ticking tracks.turning
        rw [tracks.aligned] at enough
        rw [tracks'.aligned, Nat.mul_add]
        omega
      obtain ⟨more, last, settles, within⟩ := ih tracks' ahead' enough'
        (fun passed midway => inRange passed (midway.after advanced rotated)) (due ++ step.due)
      refine ⟨step.due ++ more, last, .turns advanced rotated settles, ?_⟩
      simp only [TwoTier.settleWithin, advanced, rotated, if_true, within, List.append_assoc]

/-- The arithmetic of a settling is in range if a whole rotation behind the clock is. -/
theorem exists_advance
    (tracks : tiers.Tracks config base agenda)
    (ahead : base + tiers.near.current ≤ nowMs / config.tickMs)
    (fits : nowMs + config.tickMs * config.nearBuckets < Word.limit) :
    ∃ step, tiers.advance nowMs = .ok step := by
  rcases Nat.lt_or_ge (nowMs / config.tickMs) (base + config.nearBuckets) with within | past
  · obtain ⟨next, advanced, _⟩ := tracks.advance_within ahead within
    exact ⟨_, advanced⟩
  · have elapsed := (Nat.le_div_iff_mul_le tracks.ticking).mp past
    rw [Nat.mul_comm, ← tracks.farStart] at elapsed
    have advanced := tracks.advance_past past
    rw [if_pos (by rw [tracks.farTick]; omega)] at advanced
    obtain ⟨next, advanced, _⟩ := advanced
    exact ⟨_, advanced⟩

end Tracks

/-- If the near wheel is not empty, the wheels want to be looked at when one of its tasks is due. -/
theorem Tracks.exists_task_of_wakeMs
    (tracks : tiers.Tracks config base agenda)
    (busy : tiers.near.isEmpty = false)
    {wakeMs : Nat}
    (wakes : tiers.wakeMs = .ok wakeMs) :
    ∃ task ∈ tiers.tasks, wakeMs = config.tickMs * (task.slot config.tickMs + 1) := by
  obtain ⟨answer, next, wakes⟩ := bind_eq_ok_iff.mp wakes
  obtain ⟨first, held⟩ := Wheel.exists_mem_tasks busy
  have listed := (tracks.near.sorts.tasks_perm tracks.near.bounded).mem_iff.mp held
  obtain ⟨dueMs, rfl, _⟩ := tracks.near.nextDueMs_le listed next
  obtain rfl := Except.ok.inj wakes
  obtain ⟨task, among, rfl⟩ := tracks.near.exists_task_of_nextDueMs next
  have within := (mem_below.mp among).1
  refine ⟨task, tracks.tasks_perm.mem_iff.mpr within, ?_⟩
  rw [tracks.slot_eq_of_mem within, tracks.aligned, tracks.nearTick, ← Nat.mul_add,
    ← Nat.add_assoc]

/-- Wheels that stand at the slot of the clock are at rest. -/
theorem Stands.rests (stands : tiers.Stands config (nowMs / config.tickMs) agenda) :
    tiers.Rests config nowMs := by
  obtain ⟨wakeMs, wakes⟩ := stands.exists_wakeMs
  have later := stands.le_wakeMs wakes
  have beyond := Nat.lt_mul_div_succ nowMs stands.ticking
  have reached := Nat.mul_div_le nowMs config.tickMs
  have early := fun task (held : task ∈ tiers.tasks) =>
    stands.wakeMs_le (stands.tasks_perm.mem_iff.mp held) wakes
  obtain ⟨base, tracks, position⟩ := stands
  rw [← position, Nat.mul_add] at reached
  have ended := beyond
  rw [← position, Nat.add_assoc, Nat.mul_add] at ended
  exact {
    current_lt := tracks.nearCount ▸ tracks.near.current_lt
    reached := by
      rw [tracks.aligned, Nat.mul_comm tiers.near.current]
      exact reached
    ahead := by
      rw [tracks.aligned, Nat.mul_comm (tiers.near.current + 1)]
      exact ended
    wakes := by
      refine ⟨wakeMs, wakes, Nat.lt_of_lt_of_le beyond later, ?_, ?_⟩
      · intro task held
        rw [Nat.mul_comm]
        exact early task held
      · intro busy
        obtain ⟨task, held, due⟩ := tracks.exists_task_of_wakeMs busy wakes
        rw [Nat.mul_comm] at due
        exact ⟨task, held, due⟩ }

end TwoTier

namespace Scheduler

variable
    {mayPass : Scheduler α → Nat → Prop}
    {config : TimerConfig}
    {epochMs clockMs : Nat}
    {timers : Scheduler α}
    {history : History α}

namespace Punctual

theorem exists_advance
    (punctual : Punctual config epochMs timers clockMs)
    (fits : timers.nowMs clockMs + config.tickMs * config.nearBuckets < Word.limit)
    {passed : TwoTier α}
    (midway : timers.tiers.Midway (timers.nowMs clockMs) passed) :
    ∃ step, passed.advance (timers.nowMs clockMs) = .ok step := by
  obtain ⟨_, agenda, ahead, base, tracks, rfl⟩ := punctual.stands
  rw [← punctual.epoch_eq] at ahead
  obtain ⟨_, _, tracks', ahead'⟩ := tracks.midway ahead midway
  exact tracks'.exists_advance ahead' fits

end Punctual

namespace Journal

/-- In every run, and however far the clock has jumped, settling ends with the clock in the current
bucket of the near wheel.  The wheels then want to be looked at again later than now, and not later
than any of their tasks is due. -/
theorem settles_and_wakes
    (journal : Journal mayPass config epochMs history timers clockMs)
    (ticking : timers.isTicking = true)
    (inRange : ∀ passed, timers.tiers.Midway (timers.nowMs clockMs) passed →
      ∃ step, passed.advance (timers.nowMs clockMs) = .ok step) :
    ∃ due last, timers.tiers.Settles (timers.nowMs clockMs) due last ∧
      timers.settle clockMs = { timers with tiers := last, fired := timers.fired ++ due } ∧
      last.Rests config (timers.nowMs clockMs) := by
  have punctual := journal.truthful.steady.punctual ticking
  obtain ⟨position, agenda, reached, stands⟩ := punctual.stands
  have ahead : position ≤ timers.nowMs clockMs / config.tickMs := by
    rw [nowMs, punctual.epoch_eq]
    exact reached
  have enough : timers.nowMs clockMs <
      timers.tiers.near.startMs + (timers.nowMs clockMs - timers.tiers.near.startMs + 1) := by
    omega
  have intactly := stands.settle ahead
  obtain ⟨base, tracks, rfl⟩ := stands
  obtain ⟨due, last, settles, within⟩ := tracks.settles ahead enough inRange []
  have settled : timers.tiers.settle (timers.nowMs clockMs) = ⟨last, due, true⟩ := within
  rw [settled] at intactly
  refine ⟨due, last, settles, ?_, (intactly rfl).2.rests⟩
  have intact : timers.intact = true := (Bool.and_eq_true_iff.mp ticking).2
  simp only [settle, ticking, if_true, settled, intact]

end Journal

namespace Dawn

/-- A task that is put into wheels which have not been settled for three rotations. -/
def gong : Task String := ⟨⟨1⟩, Delay.ofMs 5, none, 75, "gong"⟩

def crowded : Scheduler String :=
  { loaded with
    tiers := ⟨⟨10, [[], []], 0, 0⟩, ⟨20, [[bell], [], [gong]], 20, 0⟩⟩
    issued := 2 }

end Dawn

/-- Three rotations bring the bell out of the wheels and the gong into the near wheel, which is
looked at again when the gong is due. -/
theorem Journal.settles_and_wakes_dawn :
    ∃ last, Dawn.crowded.tiers.Settles 70 [Dawn.bell] last ∧ last.near.tasks = [Dawn.gong] ∧
      last.wakeMs = .ok 80 ∧ last.Rests ⟨10, 2, 3⟩ 70 := by
  have begun : Journal (fun _ _ => True) ⟨10, 2, 3⟩ 100 [] Dawn.fresh 100 := .begun rfl
  have rung := (begun.elapsed (show 100 ≤ 105 by decide) trivial).stepped
    (.scheduled (show Dawn.fresh.schedule 105 (Delay.ofMs 30) false "bell" =
      .ok (⟨0⟩, Dawn.loaded) from rfl))
  have struck := (rung.elapsed (show 105 ≤ 170 by decide) trivial).stepped
    (.scheduled (show Dawn.loaded.schedule 170 (Delay.ofMs 5) false "gong" =
      .ok (⟨1⟩, Dawn.crowded) from rfl))
  have fits : (70 : Nat) + 10 * 2 < Word.limit := by decide
  obtain ⟨due, last, settles, settled, rests⟩ := struck.settles_and_wakes rfl
    fun passed => (struck.truthful.steady.punctual rfl).exists_advance fits
  have fired : [Dawn.bell] = due := congrArg Scheduler.fired settled
  have tiers : (Dawn.crowded.settle 170).tiers = last := congrArg Scheduler.tiers settled
  subst fired tiers
  exact ⟨_, settles, rfl, rfl, rests⟩

end Scheduler

end Quorum
