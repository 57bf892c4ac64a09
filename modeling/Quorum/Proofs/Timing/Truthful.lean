import Quorum.Proofs.Timing.Journal

/-!
# Histories tell the truth

What the history of a run has to do with the scheduler at its end: whatever is held went into the
wheels before, the wheels stand behind the clock, nothing has fired before it was due, no two tasks
are held under one handle, and of several tasks that went in under one handle the held one is the
latest.  `Journal.truthful` says so of every run, whatever the rule for its clock.
-/

namespace Quorum.Scheduler

variable
    {α : Type}
    {config : TimerConfig}
    {epochMs clockMs laterMs : Nat}
    {timers next : Scheduler α}
    {note : Option (Note α)}
    {history : History α}
    {task again : Task α}

/-! ### The timers of a run -/

/-- What holds of the timers at any moment, also after the wheels came to a stand. -/
structure Steady
    (config : TimerConfig)
    (epochMs : Nat)
    (timers : Scheduler α)
    (clockMs : Nat) : Prop where
  config_eq : timers.config = config
  epoch_eq : timers.epochMs = epochMs
  tick : 0 < config.tickMs
  begun : epochMs ≤ clockMs
  sound : timers.Sound
  punctual : timers.isTicking = true → timers.Punctual config epochMs clockMs
  /-- Nothing has fired before it was due. -/
  fired : ∀ task ∈ timers.fired, task.dueMs config.tickMs epochMs ≤ clockMs

theorem start_steady (made : Scheduler.start config clockMs = .ok timers) :
    timers.Steady config clockMs clockMs := by
  have punctual := Punctual.of_start made
  obtain ⟨_, _, _, stands⟩ := punctual.stands
  exact {
    config_eq := punctual.config_eq
    epoch_eq := punctual.epoch_eq
    tick := stands.ticking
    begun := Nat.le_refl _
    sound := (start_sound made).1
    punctual := fun _ => punctual
    fired := fun _ => punctual.dueMs_le }

namespace Steady

/-- What has fired was to fire before the clock. -/
theorem fireAtMs_lt
    (steady : timers.Steady config epochMs clockMs)
    (fired : task ∈ timers.fired) :
    task.fireAtMs < clockMs - epochMs := by
  have due := steady.fired task fired
  have beyond := Nat.lt_mul_div_succ task.fireAtMs steady.tick
  unfold Task.dueMs Task.slot at due
  omega

/-- The wheels take a task. -/
theorem place
    (steady : timers.Steady config epochMs clockMs)
    {tiers : TwoTier α}
    {delayMs : Nat}
    (timed : task.fireAtMs = timers.nowMs clockMs + delayMs)
    (placed : timers.tiers.place task = .ok (some tiers))
    (ticking : timers.isTicking = true) :
    { timers with tiers }.Punctual config epochMs clockMs :=
  (steady.punctual ticking).place timed placed

/-- Whatever settling adds to the queue is due. -/
theorem due_of_settle
    (steady : timers.Steady config epochMs clockMs)
    (listed : task ∈ (timers.settle clockMs).fired) :
    task.dueMs config.tickMs epochMs ≤ clockMs := by
  unfold settle at listed
  split at listed
  · next ticking =>
    rcases List.mem_append.mp listed with old | due
    · exact steady.fired task old
    · obtain ⟨position, agenda, reached, stands⟩ := (steady.punctual ticking).stands
      rw [nowMs, steady.epoch_eq] at due
      obtain ⟨past, _, ended, handed⟩ := stands.settle_due reached
      rw [handed] at due
      have inside := (Agenda.mem_stretch.mp due).2.2
      have elapsed : config.tickMs * (task.slot config.tickMs + 1) ≤
          config.tickMs * ((clockMs - epochMs) / config.tickMs) :=
        Nat.mul_le_mul_left _ (by omega)
      have whole := Nat.mul_div_le (clockMs - epochMs) config.tickMs
      have begun := steady.begun
      unfold Task.dueMs
      omega
  · exact steady.fired task listed

theorem step
    (steady : timers.Steady config epochMs clockMs)
    (step : timers.Step clockMs note next) :
    next.Steady config epochMs clockMs := by
  cases step with
  | scheduled accepted =>
      have sound := (steady.sound.schedule accepted).1
      obtain ⟨_, _, tiers, placed, rfl⟩ := schedule_eq_ok accepted
      exact { steady with
        sound := sound
        punctual := fun ticking => { steady.place rfl placed ticking with } }
  | cancelled issued =>
      exact { steady with
        sound := steady.sound.cancel issued
        punctual := fun ticking => { steady.punctual ticking with } }
  | received taken =>
      have sound := steady.sound.receive taken
      obtain ⟨skipped, rest, queue, _, _, renewal⟩ := receive_eq_some taken
      have left : ∀ other ∈ rest, other ∈ timers.fired := fun other listed =>
        queue ▸ List.mem_append_right _ (List.mem_cons_of_mem _ listed)
      have waiting : timers.isTicking = true →
          { timers with fired := rest }.Punctual config epochMs clockMs := fun ticking =>
        { steady.punctual ticking with
          fired := fun other listed => (steady.punctual ticking).fired other (left other listed) }
      split at renewal
      · subst renewal
        exact { steady with
          sound := sound
          punctual := waiting
          fired := fun other listed => steady.fired other (left other listed) }
      · obtain ⟨⟨period, _, same⟩, tiers, placed, rfl⟩ := renewal
        exact { steady with
          sound := sound
          punctual := fun ticking => (waiting ticking).place (by rw [same]; rfl) placed
          fired := fun other listed => steady.fired other (left other listed) }
  | drained taken =>
      have sound := (steady.sound.drained taken).1
      obtain rfl := receive_eq_none taken
      exact { steady with
        sound := sound
        punctual := fun ticking => (steady.punctual ticking).drained taken
        fired := List.forall_mem_nil _ }
  | settled =>
      obtain ⟨lost, kept⟩ := timers.exists_lost clockMs
      have still : (timers.settle clockMs).config = timers.config ∧
          (timers.settle clockMs).epochMs = timers.epochMs := by
        unfold settle
        split
        · exact ⟨rfl, rfl⟩
        · exact ⟨rfl, rfl⟩
      exact {
        config_eq := still.1.trans steady.config_eq
        epoch_eq := still.2.trans steady.epoch_eq
        tick := steady.tick
        begun := steady.begun
        sound := steady.sound.of_lost kept (issued_settle ..) (cancelled_settle ..)
        punctual := fun ticking =>
          have ⟨turning, intact⟩ := isTicking_settle ticking
          (steady.punctual turning).settle intact
        fired := fun _ => steady.due_of_settle }
  | stopped =>
      exact { steady with
        sound := { steady.sound with }
        punctual := fun ticking => by simp [isTicking, shutdown] at ticking }

theorem elapsed
    (steady : timers.Steady config epochMs clockMs)
    (later : clockMs ≤ laterMs) :
    timers.Steady config epochMs laterMs where
  config_eq := steady.config_eq
  epoch_eq := steady.epoch_eq
  tick := steady.tick
  begun := Nat.le_trans steady.begun later
  sound := steady.sound
  punctual := fun ticking => (steady.punctual ticking).elapsed later
  fired := fun task listed => Nat.le_trans (steady.fired task listed) later

end Steady

/-! ### The timers against the history -/

/-- What the timers hold of all the tasks that went into the wheels. -/
structure Roster (timers : Scheduler α) (appointed : List (Task α)) : Prop where
  held : ∀ task ∈ timers.held, task ∈ appointed
  issued : ∀ task ∈ appointed, task.handle.number < timers.issued
  /-- Of the tasks under one handle the held one is the latest. -/
  latest : ∀ task ∈ timers.held, ∀ other ∈ appointed, other.handle = task.handle →
    other.fireAtMs ≤ task.fireAtMs
  /-- The tasks under one handle only differ in their fire times. -/
  alike : ∀ task ∈ appointed, ∀ other ∈ appointed, other.handle = task.handle →
    other = { task with fireAtMs := other.fireAtMs }
  /-- A recurring task comes back after its delay. -/
  regular : ∀ task ∈ appointed, ∀ period, task.period = some period → period = task.delay

namespace Roster

variable {appointed : List (Task α)}

/-- Nothing new is held, and no handle is given out. -/
theorem kept
    (roster : timers.Roster appointed)
    (held : ∀ task ∈ next.held, task ∈ timers.held)
    (issued : next.issued = timers.issued) :
    next.Roster appointed where
  held := fun task listed => roster.held task (held task listed)
  issued := issued ▸ roster.issued
  latest := fun task listed => roster.latest task (held task listed)
  alike := roster.alike
  regular := roster.regular

/-- One more task is held, and it comes after all others under its handle. -/
theorem joined
    (roster : timers.Roster appointed)
    (sound : next.Sound)
    (issued : timers.issued ≤ next.issued)
    {fresh : Task α}
    (held : ∀ task ∈ next.held, task ∈ timers.held ∨ task = fresh)
    (enters : fresh ∈ next.held)
    (regular : ∀ period, fresh.period = some period → period = fresh.delay)
    (newest : ∀ other ∈ appointed, other.handle = fresh.handle →
      other.fireAtMs ≤ fresh.fireAtMs ∧ other = { fresh with fireAtMs := other.fireAtMs }) :
    next.Roster (fresh :: appointed) where
  held := by
    intro task listed
    rcases held task listed with old | rfl
    · exact List.mem_cons_of_mem _ (roster.held task old)
    · exact List.mem_cons_self
  issued := by
    intro task listed
    rcases List.mem_cons.mp listed with rfl | old
    · exact sound.issued _ enters
    · exact Nat.lt_of_lt_of_le (roster.issued task old) issued
  latest := by
    intro task listed other among same
    rcases List.mem_cons.mp among with rfl | old
    · exact Nat.le_of_eq (congrArg Task.fireAtMs (sound.eq_of_held enters listed same))
    · rcases held task listed with before | rfl
      · exact roster.latest task before other old same
      · exact (newest other old same).1
  alike := by
    intro task listed other among same
    rcases List.mem_cons.mp listed with rfl | before
    · rcases List.mem_cons.mp among with rfl | old
      · rfl
      · exact (newest other old same).2
    · rcases List.mem_cons.mp among with rfl | old
      · rw [(newest task before same.symm).2]
      · exact roster.alike task before other old same
  regular := List.forall_mem_cons.mpr ⟨regular, roster.regular⟩

theorem scheduled
    (roster : timers.Roster appointed)
    (sound : timers.Sound)
    {delay : Delay}
    {repeats : Bool}
    {payload : α}
    {handle : Handle}
    (accepted : timers.schedule clockMs delay repeats payload = .ok (handle, next)) :
    next.Roster (timers.appointment clockMs delay repeats payload :: appointed) := by
  have held := held_schedule accepted
  have after := (sound.schedule accepted).1
  obtain ⟨_, _, tiers, _, rfl⟩ := schedule_eq_ok accepted
  refine roster.joined after (Nat.le_succ _) ?_ ?_ ?_ ?_
  · intro task listed
    exact (List.mem_append.mp (held.mem_iff.mp listed)).imp_right List.mem_singleton.mp
  · exact held.mem_iff.mpr (List.mem_append_right _ (List.mem_singleton.mpr rfl))
  · intro period recurs
    unfold appointment at recurs ⊢
    cases repeats with
    | false => cases recurs
    | true => exact (Option.some.inj recurs).symm
  · intro other listed same
    have before := roster.issued other listed
    rw [same] at before
    exact absurd before (Nat.lt_irrefl _)

/-- The next occurrence of a task that is held comes after all others under its handle. -/
theorem renewed
    (roster : timers.Roster appointed)
    (steady : timers.Steady config epochMs clockMs)
    (taken : timers.receive clockMs = .ok (some task, next))
    (renewed : timers.renewed clockMs task = some again) :
    again = { task with fireAtMs := clockMs - epochMs + task.delayMs } ∧
      next.Roster (again :: appointed) := by
  obtain ⟨skipped, _, kept⟩ := held_receive taken
  obtain ⟨_, rest, queue, _, _, renewal⟩ := receive_eq_some taken
  rw [renewed] at renewal kept
  obtain ⟨⟨period, recurs, same⟩, tiers, placed, rfl⟩ := renewal
  have fired : task ∈ timers.fired := queue ▸ List.mem_append_right _ List.mem_cons_self
  have held : task ∈ timers.held := List.mem_append_left _ fired
  have regular := roster.regular task (roster.held task held)
  obtain rfl := regular period recurs
  have again_eq : again = { task with fireAtMs := clockMs - epochMs + task.delayMs } := by
    rw [same, nowMs, steady.epoch_eq]
    rfl
  have enters : again ∈ rest ++ tiers.tasks := (Step.received taken).enters rfl renewed
  refine ⟨again_eq, roster.joined (steady.sound.receive taken) (Nat.le_refl _) ?_ enters ?_ ?_⟩
  · intro other listed
    have before := kept.mem_iff.mp (List.mem_append_left _ listed)
    exact (List.mem_append.mp before).imp_right List.mem_singleton.mp
  · rw [again_eq]
    exact regular
  · intro other listed named
    rw [again_eq] at named ⊢
    refine ⟨?_, roster.alike task (roster.held task held) other listed named⟩
    have late := Nat.le_of_lt (steady.fireAtMs_lt fired)
    have before := roster.latest task held other listed named
    exact Nat.le_trans (Nat.le_trans before late) (Nat.le_add_right _ _)

end Roster

/-- What a history has to do with the scheduler at its end. -/
structure Truthful
    (config : TimerConfig)
    (epochMs : Nat)
    (history : History α)
    (timers : Scheduler α)
    (clockMs : Nat) : Prop where
  steady : timers.Steady config epochMs clockMs
  roster : timers.Roster history.appointed
  entries : ∀ atMs note, (atMs, note) ∈ history →
    epochMs ≤ atMs ∧ atMs ≤ clockMs ∧ note.IsRight config epochMs atMs
  /-- Whatever was received went into the wheels before. -/
  received : ∀ atMs task again, (atMs, .received task again) ∈ history → task ∈ history.appointed
  /-- The cancelled handles are those that the history says are. -/
  cancelled : ∀ handle,
    timers.isCancelled handle = true ↔ ∃ atMs, (atMs, .cancelled handle) ∈ history

theorem start_truthful (made : Scheduler.start config clockMs = .ok timers) :
    Truthful config clockMs [] timers clockMs := by
  have steady := start_steady made
  obtain ⟨tiers, stands, rfl⟩ := start_eq_ok made
  have empty : tiers.tasks = [] := List.perm_nil.mp stands.tasks_perm
  exact {
    steady := steady
    roster := {
      held := by simp [held, empty]
      issued := List.forall_mem_nil _
      latest := by simp [held, empty]
      alike := List.forall_mem_nil _
      regular := List.forall_mem_nil _ }
    entries := by simp
    received := by simp
    cancelled := by simp [isCancelled, Cancellations.has] }

namespace Truthful

theorem fired_mem
    (truthful : Truthful config epochMs history timers clockMs)
    (taken : timers.receive clockMs = .ok (some task, next)) :
    task ∈ timers.fired ∧ task ∈ history.appointed := by
  obtain ⟨skipped, rest, queue, _, _, _⟩ := receive_eq_some taken
  have fired : task ∈ timers.fired := queue ▸ List.mem_append_right _ List.mem_cons_self
  exact ⟨fired, truthful.roster.held task (List.mem_append_left _ fired)⟩

/-- No task fires later than its delay from now. -/
theorem fireAtMs_le
    (truthful : Truthful config epochMs history timers clockMs)
    (listed : task ∈ history.appointed) :
    task.fireAtMs ≤ clockMs - epochMs + task.delayMs := by
  obtain ⟨atMs, written, among, appoints⟩ := History.mem_appointed.mp listed
  obtain ⟨_, before, right⟩ := truthful.entries atMs written among
  rw [right.fireAtMs_eq appoints]
  omega

/-- A task that goes into the wheels has not been there before. -/
theorem unlisted
    (truthful : Truthful config epochMs history timers clockMs)
    (step : timers.Step clockMs note next)
    {written : Note α}
    (writes : note = some written)
    (appoints : written.appointed = some task) :
    task ∉ history.appointed := by
  intro listed
  cases step with
  | scheduled accepted =>
      cases writes
      cases appoints
      exact absurd (truthful.roster.issued _ listed) (Nat.lt_irrefl _)
  | cancelled _ =>
      cases writes
      cases appoints
  | @received _ before taken =>
      cases writes
      obtain ⟨fired, _⟩ := truthful.fired_mem taken
      obtain ⟨rfl, _⟩ := truthful.roster.renewed truthful.steady taken appoints
      have earlier :=
        truthful.roster.latest before (List.mem_append_left _ fired) _ listed rfl
      have late := truthful.steady.fireAtMs_lt fired
      dsimp only at earlier
      omega
  | drained _ => cases writes
  | settled => cases writes
  | stopped => cases writes

/-- A task that was received is held no more. -/
theorem gone
    (truthful : Truthful config epochMs history timers clockMs)
    (taken : timers.receive clockMs = .ok (some task, next)) :
    task ∉ next.held := by
  intro held
  obtain ⟨fired, listed⟩ := truthful.fired_mem taken
  obtain ⟨skipped, _, kept⟩ := held_receive taken
  cases renewed : timers.renewed clockMs task with
  | none =>
      rw [renewed, Option.toList_none, List.append_nil] at kept
      have distinct := (kept.map Task.handle).nodup_iff.mpr truthful.steady.sound.distinct
      rw [List.map_append] at distinct
      refine (List.nodup_append.mp distinct).2.2 _ (List.mem_map_of_mem held) _ ?_ rfl
      exact List.mem_map_of_mem (List.mem_append_right _ (List.mem_singleton.mpr rfl))
  | some again =>
      -- The next occurrence is held under the same handle, and it is another task.
      obtain ⟨_, rest, _, _, _, renewal⟩ := receive_eq_some taken
      rw [renewed] at renewal
      obtain ⟨⟨period, _, same⟩, _⟩ := renewal
      have enters := (Step.received taken).enters rfl renewed
      have one := (truthful.steady.sound.receive taken).eq_of_held held enters (by rw [same])
      have fresh := truthful.unlisted (.received taken) rfl renewed
      exact fresh (one ▸ listed)

/-- A handle is not cancelled when a task goes into the wheels under it. -/
theorem alive
    (truthful : Truthful config epochMs history timers clockMs)
    (step : timers.Step clockMs note next)
    {written : Note α}
    (writes : note = some written)
    (appoints : written.appointed = some task) :
    next.isCancelled task.handle = false := by
  rw [Bool.eq_false_iff, ne_eq, step.cancelled_iff]
  cases step with
  | scheduled accepted =>
      cases writes
      cases appoints
      rintro (old | writes)
      · exact absurd old (Bool.eq_false_iff.mp truthful.steady.sound.isCancelled_nextHandle)
      · cases writes
  | cancelled _ =>
      cases writes
      cases appoints
  | received taken =>
      cases writes
      obtain ⟨rfl, _⟩ := truthful.roster.renewed truthful.steady taken appoints
      obtain ⟨_, _, _, _, alive, _⟩ := receive_eq_some taken
      simpa using alive
  | drained _ => cases writes
  | settled => cases writes
  | stopped => cases writes

/-- What a step writes down is right. -/
theorem right
    (truthful : Truthful config epochMs history timers clockMs)
    (step : timers.Step clockMs note next)
    {written : Note α}
    (writes : note = some written) :
    written.IsRight config epochMs clockMs := by
  cases step with
  | scheduled accepted =>
      cases writes
      simp only [Note.IsRight, appointment, nowMs, truthful.steady.epoch_eq, Task.delayMs]
  | cancelled _ =>
      cases writes
      trivial
  | received taken =>
      cases writes
      refine ⟨truthful.steady.fired _ (truthful.fired_mem taken).1, ?_⟩
      intro again renewed
      exact (truthful.roster.renewed truthful.steady taken renewed).1
  | drained _ => cases writes
  | settled => cases writes
  | stopped => cases writes

/-- The tasks of a step join the roster. -/
theorem roster_step
    (truthful : Truthful config epochMs history timers clockMs)
    (step : timers.Step clockMs note next) :
    next.Roster (history.noted clockMs note).appointed := by
  have roster := truthful.roster
  cases step with
  | scheduled accepted =>
      rw [History.noted, History.appointed_cons_of_some _ _ rfl]
      exact roster.scheduled truthful.steady.sound accepted
  | cancelled _ =>
      rw [History.noted, History.appointed_cons_of_none _ _ rfl]
      exact { roster with }
  | @received _ task taken =>
      cases renewed : timers.renewed clockMs task with
      | some again =>
          rw [History.noted, History.appointed_cons_of_some _ _ rfl]
          exact (roster.renewed truthful.steady taken renewed).2
      | none =>
          rw [History.noted, History.appointed_cons_of_none _ _ rfl]
          obtain ⟨skipped, _, kept⟩ := held_receive taken
          obtain ⟨_, rest, _, _, _, renewal⟩ := receive_eq_some taken
          rw [renewed] at kept renewal
          subst renewal
          refine roster.kept (fun other listed => ?_) rfl
          rw [Option.toList_none, List.append_nil] at kept
          exact kept.mem_iff.mp (List.mem_append_left _ listed)
  | drained taken =>
      rw [receive_eq_none taken]
      exact roster.kept (fun other listed => List.mem_append_right _ listed) rfl
  | settled =>
      obtain ⟨lost, kept⟩ := timers.exists_lost clockMs
      exact roster.kept
        (fun other listed => kept.mem_iff.mp (List.mem_append_left _ listed)) (issued_settle ..)
  | stopped => exact { roster with }

theorem step
    (truthful : Truthful config epochMs history timers clockMs)
    (step : timers.Step clockMs note next) :
    Truthful config epochMs (history.noted clockMs note) next clockMs where
  steady := truthful.steady.step step
  roster := truthful.roster_step step
  entries := by
    intro atMs written listed
    rcases History.mem_noted.mp listed with old | ⟨_, writes, same⟩
    · exact truthful.entries atMs written old
    · cases same
      exact ⟨truthful.steady.begun, Nat.le_refl _, truthful.right step writes⟩
  received := by
    intro atMs task again listed
    rcases History.mem_noted.mp listed with old | ⟨_, writes, same⟩
    · exact History.appointed_subset_noted (truthful.received atMs task again old)
    · cases same
      cases step with
      | received taken =>
          cases writes
          exact History.appointed_subset_noted (truthful.fired_mem taken).2
      | _ => cases writes
  cancelled := by
    intro handle
    rw [step.cancelled_iff, truthful.cancelled]
    constructor
    · rintro (⟨atMs, listed⟩ | writes)
      · exact ⟨atMs, History.mem_noted.mpr (.inl listed)⟩
      · exact ⟨clockMs, History.mem_noted.mpr (.inr ⟨_, writes, rfl⟩)⟩
    · rintro ⟨atMs, listed⟩
      rcases History.mem_noted.mp listed with old | ⟨_, writes, same⟩
      · exact .inl ⟨atMs, old⟩
      · cases same
        exact .inr writes

theorem elapsed
    (truthful : Truthful config epochMs history timers clockMs)
    (later : clockMs ≤ laterMs) :
    Truthful config epochMs history timers laterMs :=
  { truthful with
    steady := truthful.steady.elapsed later
    entries := fun atMs note listed =>
      have ⟨begun, before, right⟩ := truthful.entries atMs note listed
      ⟨begun, Nat.le_trans before later, right⟩ }

end Truthful

namespace Journal

variable {mayPass : Scheduler α → Nat → Prop}

/-- Every history is truthful. -/
theorem truthful (journal : Journal mayPass config epochMs history timers clockMs) :
    Truthful config epochMs history timers clockMs := by
  induction journal with
  | begun made => exact start_truthful made
  | stepped _ step ih => exact ih.step step
  | elapsed _ later _ ih => exact ih.elapsed later

/-- Nothing is received under a handle after it was cancelled. -/
theorem unreceived_of_cancelled
    (journal : Journal mayPass config epochMs history timers clockMs)
    {later earlier : History α}
    {atMs : Nat}
    {handle : Handle}
    (split : history = later ++ (atMs, .cancelled handle) :: earlier) :
    ∀ againMs task again, (againMs, .received task again) ∈ later → task.handle ≠ handle := by
  induction journal generalizing later with
  | begun made => cases later <;> cases split
  | @stepped history timers next clockMs note journal step ih =>
      cases note with
      | none => exact ih split
      | some written =>
          cases later with
          | nil => simp
          | cons head later =>
              obtain ⟨rfl, rest⟩ := List.cons.inj split
              intro againMs task again listed
              rcases List.mem_cons.mp listed with same | before
              · cases same
                cases step with
                | received taken =>
                    rintro rfl
                    obtain ⟨_, _, _, _, alive, _⟩ := receive_eq_some taken
                    have dead : timers.isCancelled task.handle = true :=
                      (journal.truthful.cancelled _).mpr ⟨atMs, by simp [rest]⟩
                    rw [dead] at alive
                    cases alive
              · exact ih rest againMs task again before
  | elapsed _ _ _ ih => exact ih split

end Journal

end Quorum.Scheduler
