import Mathlib.Data.List.Nodup
import Quorum.Proofs.Timing.Calls

/-!
# What the timers hold

No operation of the wheels loses a task or makes one up: whatever an operation hands out, together
with what the wheels hold afterwards, is what they held before and what was put in.  This needs no
assumption on the windows, since even a task that a wheel puts into another bucket than its own
stays in it.

On top of that `Scheduler.Sound` says that every handle names one task at most, so that a cancelled
handle takes away that task and no other.
-/

namespace Quorum

variable {α : Type}

namespace Wheel

variable {wheel next : Wheel α} {task : Task α}

/-- Placing a task in one of the buckets adds just this task. -/
theorem tasks_place
    {index : Nat}
    (within : index < wheel.bucketCount) :
    (wheel.place index task).tasks.Perm (wheel.tasks ++ [task]) := by
  have before : wheel.buckets =
      wheel.buckets.take index ++ wheel.buckets[index] :: wheel.buckets.drop (index + 1) := by
    rw [← List.drop_eq_getElem_cons within, List.take_append_drop]
  unfold tasks place
  rw [List.modify_eq_take_cons_drop within]
  conv => rhs; rw [before]
  simp only [List.flatten_append, List.flatten_cons, List.append_assoc]
  refine List.Perm.append_left _ (List.Perm.append_left _ ?_)
  exact List.perm_append_comm

theorem tasks_insert (inserted : wheel.insert task = .ok (some next)) :
    next.tasks.Perm (wheel.tasks ++ [task]) := by
  unfold insert at inserted
  obtain ⟨endMs, _, inserted⟩ := bind_eq_ok_iff.mp inserted
  split at inserted
  · cases inserted
  · obtain ⟨tick, _, inserted⟩ := bind_eq_ok_iff.mp inserted
    split at inserted
    · cases inserted
    · next counted =>
      cases inserted
      exact tasks_place (by omega)

theorem tasks_insertFar (inserted : wheel.insertFar task = .ok (.placed next)) :
    next.tasks.Perm (wheel.tasks ++ [task]) := by
  unfold insertFar at inserted
  obtain ⟨endMs, _, inserted⟩ := bind_eq_ok_iff.mp inserted
  split at inserted
  · cases inserted
  · split at inserted
    · cases inserted
    · obtain ⟨offset, _, inserted⟩ := bind_eq_ok_iff.mp inserted
      split at inserted
      · cases inserted
      · next counted =>
        cases inserted
        exact tasks_place (Nat.mod_lt _ (Nat.pos_of_ne_zero counted))

/-- Buckets that are drained and buckets that are kept are all buckets. -/
theorem drained_append_clear
    (wheel : Wheel α)
    {first past : Nat}
    (ordered : first ≤ past) :
    (((wheel.buckets.drop first).take (past - first)).flatten ++
      (wheel.clear first past).flatten).Perm wheel.tasks := by
  have split : wheel.buckets = wheel.buckets.take first ++
      ((wheel.buckets.drop first).take (past - first) ++ wheel.buckets.drop past) := by
    have rest := List.take_append_drop (past - first) (wheel.buckets.drop first)
    rw [List.drop_drop, show first + (past - first) = past by omega] at rest
    rw [rest, List.take_append_drop]
  unfold tasks clear
  conv => rhs; rw [split]
  simp only [List.flatten_append, List.flatten_replicate_nil, List.append_nil]
  rw [← List.append_assoc, ← List.append_assoc]
  exact List.Perm.append_right _ List.perm_append_comm

theorem tasks_advance
    {nowMs : Nat}
    {step : Advance α}
    (advanced : wheel.advance nowMs = .ok step) :
    (step.due ++ step.wheel.tasks).Perm wheel.tasks := by
  unfold advance at advanced
  obtain ⟨ticks, _, advanced⟩ := bind_eq_ok_iff.mp advanced
  have ordered : min wheel.current (min ticks wheel.bucketCount) ≤ min ticks wheel.bucketCount :=
    Nat.min_le_right _ _
  have kept := wheel.drained_append_clear ordered
  dsimp only at advanced
  split at advanced
  · obtain ⟨spanMs, _, advanced⟩ := bind_eq_ok_iff.mp advanced
    obtain ⟨startMs, _, advanced⟩ := bind_eq_ok_iff.mp advanced
    cases advanced
    exact kept
  · cases advanced
    exact kept

theorem tasks_takeNext
    {bucket : List (Task α)}
    (taken : wheel.takeNext = .ok (bucket, next)) :
    (bucket ++ next.tasks).Perm wheel.tasks := by
  unfold takeNext at taken
  split at taken
  · cases taken
  · next held found =>
    obtain ⟨startMs, _, taken⟩ := bind_eq_ok_iff.mp taken
    cases taken
    obtain ⟨within, rfl⟩ := List.getElem?_eq_some_iff.mp found
    have before : wheel.buckets = wheel.buckets.take wheel.current ++
        wheel.buckets[wheel.current] :: wheel.buckets.drop (wheel.current + 1) := by
      rw [← List.drop_eq_getElem_cons within, List.take_append_drop]
    unfold tasks
    rw [List.set_eq_take_append_cons_drop, if_pos within]
    conv => rhs; rw [before]
    simp only [List.flatten_append, List.flatten_cons, List.nil_append]
    rw [← List.append_assoc, ← List.append_assoc]
    exact List.Perm.append_right _ List.perm_append_comm

end Wheel

namespace TwoTier

variable {tiers next : TwoTier α} {task : Task α}

theorem tasks_place (placed : tiers.place task = .ok (some next)) :
    next.tasks.Perm (tiers.tasks ++ [task]) := by
  unfold place at placed
  obtain ⟨answer, inserted, placed⟩ := bind_eq_ok_iff.mp placed
  cases answer with
  | some near =>
      cases placed
      unfold tasks
      rw [List.append_assoc]
      refine ((Wheel.tasks_insert inserted).append_right _).trans ?_
      rw [List.append_assoc]
      exact List.Perm.append_left _ List.perm_append_comm
  | none =>
      obtain ⟨placement, insertedFar, placed⟩ := bind_eq_ok_iff.mp placed
      cases placement with
      | placed far =>
          cases placed
          unfold tasks
          rw [List.append_assoc]
          exact (Wheel.tasks_insertFar insertedFar).append_left _
      | behind => cases placed
      | beyond => cases placed

/-- A cascade keeps every task: in the near wheel, or among those that are due. -/
theorem tasks_cascade
    {near fuller : Wheel α}
    {bucket due all : List (Task α)}
    (cascaded : cascade near bucket due = .ok (fuller, all)) :
    (all ++ fuller.tasks).Perm (due ++ near.tasks ++ bucket) := by
  induction bucket generalizing near due with
  | nil =>
      cases cascaded
      rw [List.append_nil]
  | cons task rest ih =>
      unfold cascade at cascaded
      obtain ⟨answer, inserted, cascaded⟩ := bind_eq_ok_iff.mp cascaded
      cases answer with
      | some near' =>
          refine (ih cascaded).trans ?_
          rw [List.append_assoc, List.append_assoc]
          refine List.Perm.append_left due ?_
          refine ((Wheel.tasks_insert inserted).append_right rest).trans ?_
          rw [List.append_assoc]
          exact List.Perm.refl _
      | none =>
          refine (ih cascaded).trans ?_
          rw [List.append_assoc, List.append_assoc, List.append_assoc]
          refine List.Perm.append_left due ?_
          rw [List.singleton_append]
          exact List.perm_middle.symm

theorem tasks_advance
    {nowMs : Nat}
    {step : Advance α}
    (advanced : tiers.advance nowMs = .ok step) :
    (step.due ++ step.tiers.tasks).Perm tiers.tasks := by
  unfold advance at advanced
  obtain ⟨near, nearAdvanced, advanced⟩ := bind_eq_ok_iff.mp advanced
  have nearKept := Wheel.tasks_advance nearAdvanced
  split at advanced
  · obtain ⟨⟨bucket, far⟩, taken, advanced⟩ := bind_eq_ok_iff.mp advanced
    obtain ⟨⟨fuller, due⟩, cascaded, advanced⟩ := bind_eq_ok_iff.mp advanced
    cases advanced
    have farKept := Wheel.tasks_takeNext taken
    unfold tasks
    rw [← List.append_assoc]
    refine ((tasks_cascade cascaded).append_right _).trans ?_
    rw [List.append_assoc]
    exact nearKept.append farKept
  · cases advanced
    unfold tasks
    rw [← List.append_assoc]
    exact nearKept.append_right _

/-- As long as the wheels stay intact, settling keeps every task. -/
theorem tasks_settleWithin
    {nowMs turns : Nat}
    {due : List (Task α)}
    (intact : (settleWithin nowMs turns tiers due).intact = true) :
    ((settleWithin nowMs turns tiers due).due ++
      (settleWithin nowMs turns tiers due).tiers.tasks).Perm (due ++ tiers.tasks) := by
  induction turns generalizing tiers due with
  | zero => exact List.Perm.refl _
  | succ turns ih =>
      unfold settleWithin at intact ⊢
      split at intact
      · cases intact
      · next step advanced =>
        have kept := tasks_advance advanced
        split at intact
        · next rotated =>
          rw [if_pos rotated]
          refine (ih intact).trans ?_
          rw [List.append_assoc]
          exact kept.append_left due
        · next resting =>
          rw [if_neg resting, List.append_assoc]
          exact kept.append_left due

end TwoTier

namespace Scheduler

variable {scheduler next : Scheduler α} {clockMs : Nat} {task : Task α}

theorem held_place (placed : scheduler.place clockMs task = .ok next) :
    next.held.Perm
      (scheduler.held ++ [{ task with fireAtMs := scheduler.nowMs clockMs + task.delayMs }]) := by
  obtain ⟨_, _, _, tiers, found, rfl⟩ := place_eq_ok_iff.mp placed
  unfold held
  rw [List.append_assoc]
  exact (TwoTier.tasks_place found).append_left _

theorem held_schedule
    {delay : Delay}
    {repeats : Bool}
    {payload : α}
    {handle : Handle}
    (scheduled : scheduler.schedule clockMs delay repeats payload = .ok (handle, next)) :
    next.held.Perm (scheduler.held ++ [scheduler.appointment clockMs delay repeats payload]) := by
  obtain ⟨_, _, tiers, found, rfl⟩ := schedule_eq_ok scheduled
  unfold held
  rw [List.append_assoc]
  exact (TwoTier.tasks_place found).append_left _

@[simp]
theorem issued_settle (scheduler : Scheduler α) (clockMs : Nat) :
    (scheduler.settle clockMs).issued = scheduler.issued := by
  unfold settle
  split <;> rfl

@[simp]
theorem cancelled_settle (scheduler : Scheduler α) (clockMs : Nat) :
    (scheduler.settle clockMs).cancelled = scheduler.cancelled := by
  unfold settle
  split <;> rfl

theorem held_settle (intact : (scheduler.settle clockMs).intact = true) :
    (scheduler.settle clockMs).held.Perm scheduler.held := by
  unfold settle at intact ⊢
  split at intact
  · next ticking =>
    rw [if_pos ticking]
    unfold held
    rw [List.append_assoc]
    exact (TwoTier.tasks_settleWithin intact).append_left scheduler.fired
  · next still =>
    rw [if_neg still]

/-- Every handle names one held task at most, and handles yet to be given out are new. -/
structure Sound (scheduler : Scheduler α) : Prop where
  distinct : (scheduler.held.map Task.handle).Nodup
  issued : ∀ task ∈ scheduler.held, task.handle.number < scheduler.issued
  cancelled : ∀ handle ∈ scheduler.cancelled.handles, handle.number < scheduler.issued

theorem mem_live :
    task ∈ scheduler.live ↔ task ∈ scheduler.held ∧ scheduler.isCancelled task.handle = false := by
  simp [live]

theorem live_of_held_perm
    (scheduler : Scheduler α)
    {tasks : List (Task α)}
    (held : next.held.Perm tasks)
    (cancelled : next.cancelled = scheduler.cancelled) :
    next.live.Perm (tasks.filter fun task => !scheduler.isCancelled task.handle) := by
  unfold live isCancelled
  rw [cancelled]
  exact held.filter _

namespace Sound

/-- Two held tasks under one handle are one task. -/
theorem eq_of_held
    (sound : scheduler.Sound)
    {other : Task α}
    (held : task ∈ scheduler.held)
    (held' : other ∈ scheduler.held)
    (same : task.handle = other.handle) :
    task = other :=
  List.inj_on_of_nodup_map sound.distinct held held' same

theorem isCancelled_nextHandle (sound : scheduler.Sound) :
    scheduler.isCancelled scheduler.nextHandle = false := by
  apply decide_eq_false
  intro listed
  exact Nat.lt_irrefl _ (sound.cancelled _ listed)

/-- Scheduling adds the new task to those that can be received. -/
theorem schedule
    (sound : scheduler.Sound)
    {delay : Delay}
    {repeats : Bool}
    {payload : α}
    {handle : Handle}
    (scheduled : scheduler.schedule clockMs delay repeats payload = .ok (handle, next)) :
    next.Sound ∧
      next.live.Perm (scheduler.live ++ [scheduler.appointment clockMs delay repeats payload]) := by
  have held := held_schedule scheduled
  obtain ⟨_, _, tiers, _, rfl⟩ := schedule_eq_ok scheduled
  refine ⟨?_, ?_⟩
  · exact {
      distinct := by
        refine (held.map Task.handle).nodup_iff.mpr ?_
        rw [List.map_append, List.nodup_append]
        refine ⟨sound.distinct, List.pairwise_singleton _ _, ?_⟩
        intro old listed new fresh same
        obtain ⟨task, member, rfl⟩ := List.mem_map.mp listed
        have below := sound.issued task member
        rw [same, List.mem_singleton.mp fresh] at below
        exact Nat.lt_irrefl _ below
      issued := by
        intro task listed
        rcases List.mem_append.mp (held.mem_iff.mp listed) with old | new
        · exact Nat.lt_succ_of_lt (sound.issued task old)
        · rw [List.mem_singleton.mp new]
          exact Nat.lt_succ_self _
      cancelled := fun handle listed => Nat.lt_succ_of_lt (sound.cancelled handle listed) }
  · refine (live_of_held_perm scheduler held rfl).trans ?_
    rw [List.filter_append]
    refine List.Perm.append_left _ ?_
    have fresh : scheduler.isCancelled
        (scheduler.appointment clockMs delay repeats payload).handle = false :=
      sound.isCancelled_nextHandle
    rw [List.filter_cons_of_pos (by simp [fresh]), List.filter_nil]

theorem cancel
    (sound : scheduler.Sound)
    {handle : Handle}
    (issued : handle.number < scheduler.issued) :
    (scheduler.cancel handle).Sound where
  distinct := sound.distinct
  issued := sound.issued
  cancelled := by
    intro other listed
    rcases List.mem_insert_iff.mp listed with rfl | old
    · exact issued
    · exact sound.cancelled other old

theorem settle
    (sound : scheduler.Sound)
    (intact : (scheduler.settle clockMs).intact = true) :
    (scheduler.settle clockMs).Sound ∧ (scheduler.settle clockMs).live.Perm scheduler.live := by
  have held := held_settle intact
  refine ⟨?_, live_of_held_perm scheduler held (cancelled_settle scheduler clockMs)⟩
  exact {
    distinct := (held.map Task.handle).nodup_iff.mpr sound.distinct
    issued := by
      intro task listed
      rw [issued_settle]
      exact sound.issued task (held.mem_iff.mp listed)
    cancelled := by
      rw [cancelled_settle, issued_settle]
      exact sound.cancelled }

end Sound

/-- Cancelling a handle takes its task away from those that can be received. -/
theorem live_cancel (scheduler : Scheduler α) (handle : Handle) :
    (scheduler.cancel handle).live = scheduler.live.filter fun task => task.handle ≠ handle := by
  unfold live
  rw [List.filter_filter]
  apply List.filter_congr
  intro task _
  have has := scheduler.cancelled.has_add handle task.handle
  simp only [isCancelled, Scheduler.cancel, has]
  by_cases same : task.handle = handle
  · simp [same]
  · simp [same]

section Receiving

/-- The consumer takes a task, and the wheels accept its next occurrence if it recurs. -/
structure Delivers
    (scheduler : Scheduler α)
    (clockMs : Nat)
    (task : Task α)
    (next : Scheduler α) : Prop where
  received : scheduler.receive clockMs = .ok (some task, next)
  accepted : ∀ occurrence, task.nextOccurrence = some occurrence →
    ∃ placed, scheduler.place clockMs occurrence = .ok placed

/-- The consumer takes the first task that is not cancelled. -/
theorem firstLive_eq_some
    {cancelled : Cancellations}
    {queue rest : List (Task α)}
    (first : firstLive cancelled queue = some (task, rest)) :
    cancelled.has task.handle = false ∧ ∃ skipped, queue = skipped ++ task :: rest ∧
      ∀ old ∈ skipped, cancelled.has old.handle = true := by
  induction queue with
  | nil => cases first
  | cons head queue ih =>
      unfold firstLive at first
      split at first
      · next skips =>
        obtain ⟨alive, skipped, rfl, dead⟩ := ih first
        exact ⟨alive, head :: skipped, rfl, List.forall_mem_cons.mpr ⟨skips, dead⟩⟩
      · next alive =>
        cases first
        exact ⟨Bool.eq_false_iff.mpr alive, [], rfl, List.forall_mem_nil _⟩

theorem firstLive_eq_none
    {cancelled : Cancellations}
    {queue : List (Task α)}
    (none_left : firstLive cancelled queue = none) :
    ∀ old ∈ queue, cancelled.has old.handle = true := by
  induction queue with
  | nil => exact List.forall_mem_nil _
  | cons head queue ih =>
      unfold firstLive at none_left
      split at none_left
      · next skips => exact List.forall_mem_cons.mpr ⟨skips, ih none_left⟩
      · cases none_left

/-- What the wheels accept does not depend on the fired queue. -/
theorem place_fired
    (rest : List (Task α))
    (placed : scheduler.place clockMs task = .ok next) :
    { scheduler with fired := rest }.place clockMs task = .ok { next with fired := rest } := by
  obtain ⟨running, checked, fits, tiers, found, rfl⟩ := place_eq_ok_iff.mp placed
  exact place_eq_ok_iff.mpr ⟨running, checked, fits, tiers, found, rfl⟩

/-- Taking a task and putting its next occurrence into the wheels. -/
theorem Delivers.renewal
    (delivers : scheduler.Delivers clockMs task next) :
    ∃ skipped rest,
      scheduler.fired = skipped ++ task :: rest ∧
      (∀ old ∈ skipped, scheduler.isCancelled old.handle = true) ∧
      scheduler.isCancelled task.handle = false ∧
      match task.nextOccurrence with
      | none => next = { scheduler with fired := rest }
      | some occurrence =>
          { scheduler with fired := rest }.place clockMs occurrence = .ok next := by
  have received := delivers.received
  unfold receive at received
  split at received
  · cases received
  · next found rest first =>
    obtain ⟨renewed, renewal, received⟩ := bind_eq_ok_iff.mp received
    cases received
    obtain ⟨alive, skipped, queue, dead⟩ := firstLive_eq_some first
    refine ⟨skipped, rest, queue, dead, alive, ?_⟩
    unfold renew at renewal
    cases recurs : task.nextOccurrence with
    | none =>
        rw [recurs] at renewal
        exact (Except.ok.inj renewal).symm
    | some occurrence =>
        obtain ⟨placed, accepted⟩ := delivers.accepted occurrence recurs
        have refilled := place_fired rest accepted
        rw [recurs] at renewal
        dsimp only at renewal
        rw [refilled] at renewal
        cases renewal
        exact refilled

/-- The next occurrence of a recurring task, as it is put into the wheels when the task is taken. -/
def renewal (scheduler : Scheduler α) (clockMs : Nat) (task : Task α) : List (Task α) :=
  match task.nextOccurrence with
  | none => []
  | some occurrence =>
      [{ occurrence with fireAtMs := scheduler.nowMs clockMs + occurrence.delayMs }]

/-- What is left when the consumer takes a task: the other tasks, and its next occurrence. -/
theorem Delivers.held_perm
    (delivers : scheduler.Delivers clockMs task next) :
    scheduler.isCancelled task.handle = false ∧ next.cancelled = scheduler.cancelled ∧
      next.issued = scheduler.issued ∧
      ∃ skipped others,
        scheduler.held.Perm (skipped ++ task :: others) ∧
        (∀ old ∈ skipped, scheduler.isCancelled old.handle = true) ∧
        next.held.Perm (others ++ scheduler.renewal clockMs task) := by
  obtain ⟨skipped, rest, queue, dead, alive, renewed⟩ := delivers.renewal
  have held : scheduler.held.Perm (skipped ++ task :: (rest ++ scheduler.tiers.tasks)) := by
    unfold held
    rw [queue, List.append_assoc, List.cons_append]
  unfold Scheduler.renewal
  cases recurs : task.nextOccurrence with
  | none =>
      rw [recurs] at renewed
      subst renewed
      refine ⟨alive, rfl, rfl, skipped, _, held, dead, ?_⟩
      rw [List.append_nil]
      exact List.Perm.refl _
  | some occurrence =>
      rw [recurs] at renewed
      have kept := held_place renewed
      obtain ⟨_, _, _, tiers, _, rfl⟩ := place_eq_ok_iff.mp renewed
      exact ⟨alive, rfl, rfl, skipped, _, held, dead, kept⟩

/-- A task that fires once is not renewed. -/
theorem renewal_of_once
    (scheduler : Scheduler α)
    (clockMs : Nat)
    (once : task.period = none) :
    scheduler.renewal clockMs task = [] := by
  unfold renewal Task.nextOccurrence
  rw [once]
  rfl

/-- The next occurrence of a recurring task goes on under the same handle. -/
theorem renewal_of_recurring
    (scheduler : Scheduler α)
    (clockMs : Nat)
    (recurs : task.isRecurring = true) :
    ∃ again, scheduler.renewal clockMs task = [again] ∧ again.handle = task.handle ∧
      again.payload = task.payload ∧ again.isRecurring = true := by
  obtain ⟨period, recurs⟩ := Option.isSome_iff_exists.mp recurs
  unfold renewal Task.nextOccurrence
  rw [recurs]
  exact ⟨_, rfl, rfl, rfl, rfl⟩

theorem renewal_cases
    (scheduler : Scheduler α)
    (clockMs : Nat)
    (task : Task α) :
    scheduler.renewal clockMs task = [] ∨
      ∃ again, scheduler.renewal clockMs task = [again] ∧ again.handle = task.handle ∧
        again.payload = task.payload := by
  cases recurs : task.period with
  | none => exact .inl (scheduler.renewal_of_once clockMs recurs)
  | some period =>
      obtain ⟨again, renewed, handle, payload, _⟩ :=
        scheduler.renewal_of_recurring clockMs (Option.isSome_iff_exists.mpr ⟨_, recurs⟩)
      exact .inr ⟨again, renewed, handle, payload⟩

/-- What is chosen by its payload is chosen again when it is renewed. -/
theorem filter_renewal
    (scheduler : Scheduler α)
    (clockMs : Nat)
    (task : Task α)
    (chosen : α → Bool) :
    ((scheduler.renewal clockMs task).filter fun other => chosen other.payload) =
      if chosen task.payload then scheduler.renewal clockMs task else [] := by
  rcases scheduler.renewal_cases clockMs task with ended | ⟨again, goes, _, payload⟩
  · rw [ended, List.filter_nil, ite_self]
  · rw [goes, List.filter_cons, List.filter_nil, payload]

/-- Taking a task leaves the other tasks that can be received, and its next occurrence. -/
theorem Sound.delivers
    (sound : scheduler.Sound)
    (delivers : scheduler.Delivers clockMs task next) :
    next.Sound ∧ next.issued = scheduler.issued ∧ ∃ others,
      scheduler.live.Perm (task :: others) ∧
      next.live.Perm (others ++ scheduler.renewal clockMs task) := by
  obtain ⟨alive, cancelled, issued, skipped, others, held, dead, kept⟩ := delivers.held_perm
  have distinct := (held.map Task.handle).nodup_iff.mp sound.distinct
  rw [List.map_append, List.map_cons] at distinct
  have apart := (List.nodup_append.mp distinct).2.1
  have known : ∀ other ∈ task :: others, other.handle.number < scheduler.issued :=
    fun other listed => sound.issued other (held.mem_iff.mpr (List.mem_append_right _ listed))
  refine ⟨?_, issued, others.filter fun other => !scheduler.isCancelled other.handle, ?_, ?_⟩
  · exact {
      distinct := by
        refine (kept.map Task.handle).nodup_iff.mpr ?_
        rcases scheduler.renewal_cases clockMs task with ended | ⟨again, goes, same, _⟩
        · rw [ended, List.append_nil]
          exact (List.nodup_cons.mp apart).2
        · rw [goes, List.map_append, List.map_singleton, same]
          exact List.perm_append_comm.nodup_iff.mp apart
      issued := by
        intro other listed
        rw [issued]
        rcases List.mem_append.mp (kept.mem_iff.mp listed) with old | new
        · exact known other (List.mem_cons_of_mem _ old)
        · rcases scheduler.renewal_cases clockMs task with ended | ⟨again, goes, same, _⟩
          · rw [ended] at new
            cases new
          · rw [goes, List.mem_singleton] at new
            rw [new, same]
            exact known task List.mem_cons_self
      cancelled := by
        rw [cancelled, issued]
        exact sound.cancelled }
  · have gone : (skipped.filter fun other => !scheduler.isCancelled other.handle) = [] :=
      List.filter_eq_nil_iff.mpr fun old listed => by simp [dead old listed]
    refine (live_of_held_perm scheduler held rfl).trans ?_
    rw [List.filter_append, gone, List.nil_append, List.filter_cons_of_pos (by simp [alive])]
  · have going : ((scheduler.renewal clockMs task).filter fun other =>
        !scheduler.isCancelled other.handle) = scheduler.renewal clockMs task := by
      rcases scheduler.renewal_cases clockMs task with ended | ⟨again, goes, same, _⟩
      · rw [ended, List.filter_nil]
      · rw [goes]
        exact List.filter_cons_of_pos (by simp [same, alive])
    refine (live_of_held_perm scheduler kept cancelled).trans ?_
    rw [List.filter_append, going]

/-- Taking nothing means that nothing on the queue could be received. -/
theorem Sound.drained
    (sound : scheduler.Sound)
    (received : scheduler.receive clockMs = .ok (none, next)) :
    next.Sound ∧ next.live = scheduler.live ∧ next.issued = scheduler.issued := by
  unfold receive at received
  split at received
  · next drained =>
    cases received
    have gone : (scheduler.fired.filter fun other => !scheduler.isCancelled other.handle) = [] :=
      List.filter_eq_nil_iff.mpr fun old listed => by
        simp [isCancelled, firstLive_eq_none drained old listed]
    refine ⟨?_, ?_, rfl⟩
    · exact {
        distinct := by
          have distinct := sound.distinct
          rw [held, List.map_append] at distinct
          exact (List.nodup_append.mp distinct).2.1
        issued := fun task listed => sound.issued task (List.mem_append_right _ listed)
        cancelled := sound.cancelled }
    · unfold live held
      rw [List.filter_append, List.filter_append, gone]
      rfl
  · next found rest first =>
    obtain ⟨renewed, _, received⟩ := bind_eq_ok_iff.mp received
    cases received

end Receiving

/-- A fresh scheduler holds nothing. -/
theorem held_of_start
    {config : TimerConfig}
    (made : Scheduler.start config clockMs = .ok scheduler) :
    scheduler.held = [] := by
  obtain ⟨tiers, stands, rfl⟩ := start_eq_ok made
  exact List.perm_nil.mp stands.tasks_perm

theorem start_sound
    {config : TimerConfig}
    (made : Scheduler.start config clockMs = .ok scheduler) :
    scheduler.Sound ∧ scheduler.live = [] := by
  have empty := held_of_start made
  obtain ⟨tiers, stands, rfl⟩ := start_eq_ok made
  refine ⟨?_, ?_⟩
  · exact {
      distinct := by rw [empty]; exact List.nodup_nil
      issued := by rw [empty]; exact List.forall_mem_nil _
      cancelled := List.forall_mem_nil _ }
  · rw [live, empty, List.filter_nil]

end Scheduler

end Quorum
