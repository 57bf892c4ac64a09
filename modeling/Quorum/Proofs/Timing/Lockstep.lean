import Quorum.Proofs.Timing.Promptness

/-!
# Two windows in step

The near window moves when the near wheel completes a rotation, the far window when a bucket is
taken out of the far wheel.  Two places rely on the far window beginning exactly where the near one
ends.  A task that the near wheel refuses is offered to the far wheel, and a far wheel that answered
that the task lies behind its window would be asked for ever, since nothing has changed meanwhile.
And a task of a cascaded bucket that the near wheel refused would fire early.

`TwoTier.InStep` says that the windows fit together and that neither of the two can happen.  It
holds of the wheels of a scheduler at any moment, and also in between the rotations of one settling
(`TwoTier.Midway`), however many there are.
-/

namespace Quorum

open Agenda

variable {α : Type}

/-! ## Single wheels -/

namespace Wheel

variable {wheel : Wheel α} {agenda : List (Task α)} {task : Task α}

/-- A near wheel refuses only tasks behind its window. -/
theorem endMs_of_insert_eq_none (refused : wheel.insert task = .ok none) :
    ∃ endMs, wheel.endMs = .ok endMs ∧ endMs ≤ task.fireAtMs := by
  obtain ⟨endMs, ended, refused⟩ := bind_eq_ok_iff.mp refused
  split at refused
  · next beyond => exact ⟨endMs, ended, beyond⟩
  · obtain ⟨tick, _, refused⟩ := bind_eq_ok_iff.mp refused
    split at refused
    · cases refused
    · cases refused

/-- A far wheel finds only tasks behind it that fire before its window begins. -/
theorem lt_startMs_of_insertFar_eq_behind (behind : wheel.insertFar task = .ok .behind) :
    task.fireAtMs < wheel.startMs := by
  obtain ⟨endMs, _, behind⟩ := bind_eq_ok_iff.mp behind
  split at behind
  · cases behind
  · split at behind
    · next before => exact before
    · obtain ⟨offset, _, behind⟩ := bind_eq_ok_iff.mp behind
      split at behind
      · cases behind
      · cases behind

/-- A near wheel whose window fits into a word answers to every task, also to one whose bucket has
been drained. -/
theorem Fills.exists_insert
    (fills : wheel.Fills agenda)
    (fits : wheel.pastMs < Word.limit)
    (task : Task α) :
    ∃ answer, wheel.insert task = .ok answer :=
  ⟨_, Wheel.insert_eq fills.ticking fills.current_lt fits task⟩

/-- A rotation is completed only at the end of the window. -/
theorem Fills.pastMs_le_of_rotated
    (fills : wheel.Fills agenda)
    {nowMs : Nat}
    {step : Advance α}
    (advanced : wheel.advance nowMs = .ok step)
    (rotated : step.rotated = true) :
    wheel.pastMs ≤ nowMs := by
  have counted := Nat.zero_lt_of_lt fills.current_lt
  rcases advance_eq_ok fills.ticking advanced with ⟨whole, _⟩ | ⟨_, rfl⟩
  · exact (elapsed_eq_bucketCount_iff fills.ticking counted).mp whole
  · cases rotated

end Wheel

/-! ## Both wheels -/

namespace TwoTier

variable
    {config : TimerConfig}
    {tiers passed : TwoTier α}
    {base nowMs : Nat}
    {agenda : List (Task α)}

/-- The wheels that one settling passes through: those it begins with, and those after each of its
rotations. -/
inductive Midway (nowMs : Nat) (tiers : TwoTier α) : TwoTier α → Prop where
  | begun : Midway nowMs tiers tiers
  | rotated
      {passed : TwoTier α} {step : Advance α}
      (midway : Midway nowMs tiers passed)
      (advanced : passed.advance nowMs = .ok step)
      (rotated : step.rotated = true) :
      Midway nowMs tiers step.tiers

/-- The two windows fit together. -/
structure InStep (tiers : TwoTier α) (nowMs : Nat) : Prop where
  /-- A far bucket is as wide as the near window. -/
  spans : tiers.near.spanMs = .ok tiers.far.tickMs
  /-- The far window begins where the near window ends. -/
  adjoins : tiers.near.endMs = .ok tiers.far.startMs
  begun : tiers.near.startMs ≤ nowMs
  /-- The tasks of the far bucket taken next lie in the near window once this has moved on. -/
  inside : ∀ laterMs step bucket far, tiers.near.advance laterMs = .ok step →
    step.rotated = true → tiers.far.takeNext = .ok (bucket, far) →
      ∃ endMs, step.wheel.endMs = .ok endMs ∧
        ∀ task ∈ bucket, step.wheel.startMs ≤ task.fireAtMs ∧ task.fireAtMs < endMs
  /-- The near wheel takes all of them, and nothing is added to what is due. -/
  cascades : ∀ laterMs step bucket far, tiers.near.advance laterMs = .ok step →
    step.rotated = true → tiers.far.takeNext = .ok (bucket, far) →
      ∃ near, cascade step.wheel bucket step.due = .ok (near, step.due)
  /-- What the near wheel refuses is not behind the far window. -/
  unretried : ∀ task, tiers.near.insert task = .ok none → tiers.far.insertFar task ≠ .ok .behind
  /-- As long as the far window fits into a word, the wheels answer to every task. -/
  answers : (∃ endMs, tiers.far.endMs = .ok endMs) → ∀ task, ∃ answer, tiers.place task = .ok answer
  /-- Nothing but a number that does not fit keeps them from answering. -/
  faults : ∀ task cause, tiers.place task = .error cause → cause = .overflow

namespace Tracks

/-- A rotation within a settling leaves the wheels in front of the clock. -/
theorem rotated
    (tracks : tiers.Tracks config base agenda)
    (ahead : base + tiers.near.current ≤ nowMs / config.tickMs)
    {step : Advance α}
    (advanced : tiers.advance nowMs = .ok step)
    (rotated : step.rotated = true) :
    step.tiers.Tracks config (base + config.nearBuckets)
        (onward (Task.slot config.tickMs) (base + config.nearBuckets) agenda) ∧
      base + config.nearBuckets + step.tiers.near.current ≤ nowMs / config.tickMs := by
  rcases Nat.lt_or_ge (nowMs / config.tickMs) (base + config.nearBuckets) with within | past
  · obtain ⟨next, stays, _⟩ := tracks.advance_within ahead within
    rw [stays] at advanced
    cases advanced
    cases rotated
  · have turns := tracks.advance_past past
    split at turns
    · obtain ⟨next, turns, tracks', first⟩ := turns
      rw [turns] at advanced
      cases advanced
      refine ⟨tracks', ?_⟩
      rw [first]
      exact past
    · rw [turns] at advanced
      cases advanced

theorem midway
    (tracks : tiers.Tracks config base agenda)
    (ahead : base + tiers.near.current ≤ nowMs / config.tickMs)
    (midway : tiers.Midway nowMs passed) :
    ∃ base agenda, passed.Tracks config base agenda ∧
      base + passed.near.current ≤ nowMs / config.tickMs := by
  induction midway with
  | begun => exact ⟨base, agenda, tracks, ahead⟩
  | rotated _ advanced rotates ih =>
    obtain ⟨base, agenda, tracks', ahead'⟩ := ih
    exact ⟨_, _, tracks'.rotated ahead' advanced rotates⟩

/-- The near wheel takes all tasks of the far bucket taken next. -/
theorem cascade_next
    (tracks : tiers.Tracks config base agenda)
    {laterMs : Nat}
    {step : Wheel.Advance α}
    {bucket : List (Task α)}
    {far : Wheel α}
    (advanced : tiers.near.advance laterMs = .ok step)
    (rotated : step.rotated = true)
    (taken : tiers.far.takeNext = .ok (bucket, far)) :
    (∃ endMs, step.wheel.endMs = .ok endMs ∧
        ∀ task ∈ bucket, step.wheel.startMs ≤ task.fireAtMs ∧ task.fireAtMs < endMs) ∧
      ∃ near, cascade step.wheel bucket step.due = .ok (near, step.due) := by
  have turns := tracks.near.advance_past (tracks.near.pastMs_le_of_rotated advanced rotated)
  rw [advanced, if_pos tracks.fits] at turns
  obtain rfl := Except.ok.inj turns
  have takes := tracks.far.takeNext_eq
  rw [taken] at takes
  split at takes
  · next fits =>
    obtain ⟨rfl, rfl⟩ := Prod.mk.inj (Except.ok.inj takes)
    have window := tracks.pastMs_turned
    have inside : ∀ task ∈ only tiers.far.offset 0
          (onward (Task.slot config.tickMs) (base + config.nearBuckets) agenda),
        tiers.near.turned.startMs ≤ task.fireAtMs ∧
          task.fireAtMs < tiers.near.turned.pastMs := by
      intro task listed
      rw [window]
      exact tracks.adjoining ▸ tracks.inside_turned listed
    obtain ⟨fuller, cascaded, _⟩ := cascade_eq tracks.near.turned.2 (window ▸ fits) rfl inside _
    exact ⟨⟨_, Wheel.endMs_eq_ok (window ▸ fits), inside⟩, fuller, cascaded⟩
  · cases takes

/-- A task that the near wheel refuses is not behind the far window. -/
theorem insertFar_ne_behind
    (tracks : tiers.Tracks config base agenda)
    {task : Task α}
    (refused : tiers.near.insert task = .ok none) :
    tiers.far.insertFar task ≠ .ok .behind := by
  intro behind
  obtain ⟨endMs, ended, beyond⟩ := Wheel.endMs_of_insert_eq_none refused
  rw [Wheel.endMs_eq_ok tracks.fits] at ended
  obtain rfl := Except.ok.inj ended
  have before := Wheel.lt_startMs_of_insertFar_eq_behind behind
  rw [tracks.adjoining] at before
  omega

/-- Whatever the fire time of a task is, the wheels answer at the first attempt, unless the end of
the far window does not fit into a word. -/
theorem exists_place
    (tracks : tiers.Tracks config base agenda)
    (task : Task α) :
    (∃ answer, tiers.place task = .ok answer) ∨
      Word.limit ≤ tiers.far.pastMs ∧ tiers.place task = .error .overflow := by
  obtain ⟨answer, inserted⟩ := tracks.near.exists_insert tracks.fits task
  cases answer with
  | some near => exact .inl ⟨_, by simp only [TwoTier.place, inserted, bind, Except.bind]; rfl⟩
  | none =>
    have unretried := tracks.insertFar_ne_behind inserted
    have offered := tracks.far.insertFar_eq task
    simp only [TwoTier.place, inserted, bind, Except.bind]
    by_cases fits : tiers.far.pastMs < Word.limit
    · left
      rw [if_pos fits] at offered
      rw [offered] at unretried ⊢
      generalize (if tiers.far.pastMs ≤ task.fireAtMs then Wheel.Placement.beyond
        else if task.fireAtMs < tiers.far.startMs then .behind
        else .placed (tiers.far.place (tiers.far.ringIndex task) task)) = outcome at unretried ⊢
      cases outcome with
      | placed far => exact ⟨_, rfl⟩
      | behind => exact absurd rfl unretried
      | beyond => exact ⟨_, rfl⟩
    · right
      rw [if_neg fits] at offered
      rw [offered]
      exact ⟨Nat.not_lt.mp fits, rfl⟩

theorem in_step
    (tracks : tiers.Tracks config base agenda)
    (ahead : base + tiers.near.current ≤ nowMs / config.tickMs) :
    tiers.InStep nowMs where
  spans := by
    rw [Wheel.spanMs_eq_ok tracks.fits, tracks.nearTick, tracks.nearCount, tracks.farTick]
  adjoins := by
    rw [Wheel.endMs_eq_ok tracks.fits, tracks.adjoining]
  begun := by
    have reached := Nat.mul_le_mul_left config.tickMs (Nat.le_of_add_right_le ahead)
    rw [tracks.aligned]
    exact Nat.le_trans reached (Nat.mul_div_le nowMs config.tickMs)
  inside := fun _ _ _ _ advanced rotated taken => (tracks.cascade_next advanced rotated taken).1
  cascades := fun _ _ _ _ advanced rotated taken => (tracks.cascade_next advanced rotated taken).2
  unretried := fun _ => tracks.insertFar_ne_behind
  answers := by
    rintro ⟨endMs, ended⟩ task
    rcases tracks.exists_place task with answered | ⟨unfit, _⟩
    · exact answered
    · rw [Wheel.endMs_eq_error unfit] at ended
      cases ended
  faults := by
    intro task cause failed
    rcases tracks.exists_place task with ⟨answer, answered⟩ | ⟨_, lost⟩
    · rw [answered] at failed
      cases failed
    · rw [lost] at failed
      exact (Except.error.inj failed).symm

end Tracks

end TwoTier

/-! ## Schedulers -/

namespace Scheduler

variable
    {mayPass : Scheduler α → Nat → Prop}
    {config : TimerConfig}
    {epochMs clockMs : Nat}
    {timers : Scheduler α}
    {history : History α}

namespace Punctual

theorem midway_in_step
    (punctual : Punctual config epochMs timers clockMs)
    {passed : TwoTier α}
    (midway : timers.tiers.Midway (timers.nowMs clockMs) passed) :
    passed.InStep (timers.nowMs clockMs) := by
  obtain ⟨_, agenda, ahead, base, tracks, rfl⟩ := punctual.stands
  rw [← punctual.epoch_eq] at ahead
  obtain ⟨_, _, tracks', ahead'⟩ := tracks.midway ahead midway
  exact tracks'.in_step ahead'

theorem running (punctual : Punctual config epochMs timers clockMs) : timers.running = true := by
  have ticking := punctual.ticking
  unfold isTicking at ticking
  rw [Bool.and_assoc, Bool.and_eq_true] at ticking
  exact ticking.1

/-- As long as the arithmetic is in range, a task is placed, or it is refused as too long. -/
theorem place_answers
    (punctual : Punctual config epochMs timers clockMs)
    {capacityMs endMs : Nat}
    (capacity : config.capacityMs = .ok capacityMs)
    (ended : timers.tiers.far.endMs = .ok endMs)
    {task : Task α}
    (fits : timers.nowMs clockMs + task.delayMs < Word.limit) :
    (∃ next, timers.place clockMs task = .ok next) ∨
      timers.place clockMs task = .error (.error (.capacityExceeded task.delayMs capacityMs)) := by
  have checked : config.checkDelay task.delayMs = .ok () ∨
      config.checkDelay task.delayMs =
        .error (.error (.capacityExceeded task.delayMs capacityMs)) := by
    unfold TimerConfig.checkDelay TimerConfig.maxDelayMs
    rw [capacity]
    change (if _ then _ else _) = _ ∨ (if _ then _ else _) = _
    split
    · exact .inr rfl
    · exact .inl rfl
  obtain ⟨answer, placed⟩ := (punctual.midway_in_step .begun).answers ⟨endMs, ended⟩
    { task with fireAtMs := timers.nowMs clockMs + task.delayMs }
  rw [Scheduler.place_eq, if_pos punctual.running, punctual.config_eq]
  rcases checked with accepted | refused
  · simp only [accepted, Word.add_eq_ok fits, placed]
    cases answer with
    | some tiers => exact .inl ⟨_, rfl⟩
    | none =>
      right
      simp only [refuse, punctual.config_eq, capacity]
  · right
    rw [refused]

end Punctual

namespace Journal

/-- In every run the two windows fit together, before each settling and after each of its rotations.
So no task that is put into the wheels is ever offered to them twice: it is placed or refused at the
first attempt, unless a number does not fit into a word. -/
theorem windows_in_step
    (journal : Journal mayPass config epochMs history timers clockMs)
    (ticking : timers.isTicking = true) :
    (∀ passed, timers.tiers.Midway (timers.nowMs clockMs) passed →
        passed.InStep (timers.nowMs clockMs)) ∧
      (∀ task cause, timers.place clockMs task = .error (.fault cause) → cause = .overflow) ∧
      ∀ task capacityMs endMs, config.capacityMs = .ok capacityMs →
        timers.tiers.far.endMs = .ok endMs →
          timers.nowMs clockMs + task.delayMs < Word.limit →
            (∃ next, timers.place clockMs task = .ok next) ∨
              timers.place clockMs task =
                .error (.error (.capacityExceeded task.delayMs capacityMs)) := by
  have punctual := journal.truthful.steady.punctual ticking
  refine ⟨fun passed => punctual.midway_in_step, ?_,
    fun task capacityMs endMs capacity ended fits => punctual.place_answers capacity ended fits⟩
  intro task cause failed
  obtain ⟨position, agenda, reached, stands⟩ := punctual.stands
  rw [← punctual.config_eq] at stands
  refine place_fault stands ?_ failed
  rw [nowMs, punctual.config_eq, punctual.epoch_eq]
  exact Nat.le_trans reached (Nat.div_le_div_right (Nat.le_add_right _ _))

/-- The bell comes into the near wheel with the first of several rotations, and the windows fit
together after it. -/
theorem windows_in_step_dawn :
    ∃ passed, Dawn.loaded.tiers.Midway 70 passed ∧ passed.near.tasks = [Dawn.bell] ∧
      passed.InStep 70 := by
  have begun : Journal (fun _ _ => True) ⟨10, 2, 3⟩ 100 [] Dawn.fresh 100 := .begun rfl
  have scheduled := (begun.elapsed (show 100 ≤ 105 by decide) trivial).stepped
    (.scheduled (show Dawn.fresh.schedule 105 (Delay.ofMs 30) false "bell" =
      .ok (⟨0⟩, Dawn.loaded) from rfl))
  have late := scheduled.elapsed (show 105 ≤ 170 by decide) trivial
  have rotation : Dawn.loaded.tiers.advance 70 =
      .ok ⟨⟨⟨10, [[], [Dawn.bell]], 20, 0⟩, ⟨20, [[], [], []], 40, 1⟩⟩, [], true⟩ := rfl
  have midway := TwoTier.Midway.begun.rotated rotation rfl
  exact ⟨_, midway, rfl, (late.windows_in_step rfl).1 _ midway⟩

end Journal

end Scheduler

end Quorum
