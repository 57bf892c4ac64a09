import Quorum.Proofs.Timing.Holdings

/-!
# Work on the timers

A handler works on the timers by arming and cancelling.  `Scheduler.Works` keeps the record of it:
the handles that were released, and the deadlines that were armed.  Whatever the order was, what can
be received afterwards is what could be received before, without the released handles and with the
new deadlines (`Works.deadlines_perm`).

A `Deadline` is a timer apart from the instant at which it fires.  The next occurrence of a
recurring timer has the same deadline, so that receiving a recurring timer changes no deadline.
-/

namespace Quorum

variable {α : Type}

/-- What a timer is for: its handle, its event, and how it was armed. -/
structure Deadline (α : Type) where
  handle : Handle
  event : α
  /-- The delay, or the period of a recurring timer. -/
  delay : Delay
  recurs : Bool
  deriving DecidableEq, Repr

def Task.deadline (task : Task α) : Deadline α where
  handle := task.handle
  event := task.payload
  delay := task.period.getD task.delay
  recurs := task.isRecurring

namespace Scheduler

/-- The deadlines of all tasks that could still be received. -/
def deadlines (timers : Scheduler α) : List (Deadline α) := timers.live.map Task.deadline

/-- The record of some work on the timers: the cancelled handles, and the armed deadlines, each in
their order. -/
inductive Works (clockMs : Nat) (timers : Scheduler α) :
    List Handle → List (Deadline α) → Scheduler α → Prop where
  | idle : Works clockMs timers [] [] timers
  | cancelled
      {released : List Handle} {armed : List (Deadline α)} {next : Scheduler α}
      (works : Works clockMs timers released armed next)
      (handle : Handle) :
      Works clockMs timers (released ++ [handle]) armed (next.cancel handle)
  | scheduled
      {released : List Handle} {armed : List (Deadline α)} {next after : Scheduler α}
      {delay : Delay} {repeats : Bool} {event : α} {handle : Handle}
      (works : Works clockMs timers released armed next)
      (accepted : next.schedule clockMs delay repeats event = .ok (handle, after)) :
      Works clockMs timers released (armed ++ [⟨handle, event, delay, repeats⟩]) after

variable
    {timers next after : Scheduler α}
    {clockMs : Nat}
    {task : Task α}
    {deadline : Deadline α}
    {released released' : List Handle}
    {armed armed' : List (Deadline α)}

theorem deadline_appointment (delay : Delay) (repeats : Bool) (event : α) :
    (timers.appointment clockMs delay repeats event).deadline =
      ⟨timers.nextHandle, event, delay, repeats⟩ := by
  cases repeats <;> rfl

theorem mem_deadlines :
    deadline ∈ timers.deadlines ↔ ∃ task ∈ timers.live, task.deadline = deadline :=
  List.mem_map

theorem Sound.handle_lt
    (sound : timers.Sound)
    (listed : deadline ∈ timers.deadlines) :
    deadline.handle.number < timers.issued := by
  obtain ⟨task, alive, rfl⟩ := mem_deadlines.mp listed
  exact sound.issued task (mem_live.mp alive).1

/-- Every handle belongs to one deadline at most. -/
theorem Sound.nodup_deadlines (sound : timers.Sound) :
    (timers.deadlines.map Deadline.handle).Nodup := by
  rw [deadlines, List.map_map]
  exact sound.distinct.sublist (List.filter_sublist.map Task.handle)

namespace Works

theorem trans
    (works : timers.Works clockMs released armed next)
    (works' : next.Works clockMs released' armed' after) :
    timers.Works clockMs (released ++ released') (armed ++ armed') after := by
  induction works' with
  | idle =>
      rw [List.append_nil, List.append_nil]
      exact works
  | cancelled _ handle ih =>
      rw [← List.append_assoc]
      exact ih.cancelled handle
  | scheduled _ accepted ih =>
      rw [← List.append_assoc]
      exact ih.scheduled accepted

theorem issued_le (works : timers.Works clockMs released armed next) :
    timers.issued ≤ next.issued := by
  induction works with
  | idle => exact Nat.le_refl _
  | cancelled _ _ ih => exact ih
  | scheduled _ accepted ih =>
      obtain ⟨_, _, tiers, _, rfl⟩ := schedule_eq_ok accepted
      exact Nat.le_succ_of_le ih

/-- Work on the timers does not touch how they run. -/
theorem fixed (works : timers.Works clockMs released armed next) :
    next.config = timers.config ∧ next.epochMs = timers.epochMs ∧ next.fired = timers.fired ∧
      next.running = timers.running ∧ next.attended = timers.attended ∧
        next.intact = timers.intact := by
  induction works with
  | idle => exact ⟨rfl, rfl, rfl, rfl, rfl, rfl⟩
  | cancelled _ _ ih => exact ih
  | scheduled _ accepted ih =>
      obtain ⟨_, _, tiers, _, rfl⟩ := schedule_eq_ok accepted
      exact ih

/-- Work on the timers does not decide whether the wheels are intact. -/
theorem intact_eq (works : timers.Works clockMs released armed next) :
    next.intact = timers.intact :=
  works.fixed.2.2.2.2.2

/-- The handles that are given out are new. -/
theorem issued_le_of_mem
    (works : timers.Works clockMs released armed next)
    (listed : deadline ∈ armed) :
    timers.issued ≤ deadline.handle.number := by
  induction works with
  | idle => cases listed
  | cancelled _ _ ih => exact ih listed
  | scheduled works accepted ih =>
      obtain ⟨rfl, _, _, _, _⟩ := schedule_eq_ok accepted
      rcases List.mem_append.mp listed with old | new
      · exact ih old
      · rw [List.mem_singleton.mp new]
        exact works.issued_le

theorem lt_issued_of_mem
    (works : timers.Works clockMs released armed next)
    (listed : deadline ∈ armed) :
    deadline.handle.number < next.issued := by
  induction works with
  | idle => cases listed
  | cancelled _ _ ih => exact ih listed
  | scheduled works accepted ih =>
      obtain ⟨rfl, _, _, _, rfl⟩ := schedule_eq_ok accepted
      rcases List.mem_append.mp listed with old | new
      · exact Nat.lt_succ_of_lt (ih old)
      · rw [List.mem_singleton.mp new]
        exact Nat.lt_succ_self _

/-- What is cancelled after some work. -/
theorem isCancelled_iff
    (works : timers.Works clockMs released armed next)
    {handle : Handle} :
    next.isCancelled handle = true ↔ timers.isCancelled handle = true ∨ handle ∈ released := by
  induction works with
  | idle => simp
  | cancelled _ other ih =>
      rw [List.mem_append, List.mem_singleton, ← or_assoc, ← ih]
      simp [isCancelled, cancel, Cancellations.has_add, or_comm]
  | scheduled _ accepted ih =>
      obtain ⟨_, _, tiers, _, rfl⟩ := schedule_eq_ok accepted
      exact ih

/-- What the timers hold after some work: what they held before, and what was armed, each with its
fire time. -/
theorem held_perm (works : timers.Works clockMs released armed next) :
    ∃ appointments : List (Task α), appointments.map Task.deadline = armed ∧
      next.held.Perm (timers.held ++ appointments) ∧
      ∀ task ∈ appointments, task.fireAtMs = timers.nowMs clockMs + task.deadline.delay.ms := by
  induction works with
  | idle => exact ⟨[], rfl, by simp, List.forall_mem_nil _⟩
  | cancelled _ _ ih => exact ih
  | @scheduled _ _ between after delay repeats event handle works accepted ih =>
      obtain ⟨appointments, deadlines, held, timed⟩ := ih
      have grown := held_schedule accepted
      obtain ⟨rfl, _, _, _, _⟩ := schedule_eq_ok accepted
      refine ⟨appointments ++ [between.appointment clockMs delay repeats event], ?_, ?_, ?_⟩
      · rw [List.map_append, deadlines, List.map_singleton, deadline_appointment]
      · rw [← List.append_assoc]
        exact grown.trans (held.append_right _)
      · refine List.forall_mem_append.mpr ⟨timed, List.forall_mem_singleton.mpr ?_⟩
        rw [deadline_appointment]
        unfold appointment nowMs
        rw [works.fixed.2.1]

/-- No handle is given out twice, whatever is cancelled meanwhile. -/
theorem numbered
    (works : timers.Works clockMs released armed next)
    (distinct : (timers.held.map Task.handle).Nodup)
    (issued : ∀ task ∈ timers.held, task.handle.number < timers.issued) :
    (next.held.map Task.handle).Nodup ∧
      ∀ task ∈ next.held, task.handle.number < next.issued := by
  induction works with
  | idle => exact ⟨distinct, issued⟩
  | cancelled _ _ ih => exact ih
  | @scheduled _ _ between after delay repeats event _ _ accepted ih =>
      obtain ⟨distinct, issued⟩ := ih
      have held := held_schedule accepted
      obtain ⟨_, _, tiers, _, rfl⟩ := schedule_eq_ok accepted
      refine ⟨(held.map Task.handle).nodup_iff.mpr ?_, fun task listed => ?_⟩
      · rw [List.map_append, List.nodup_append]
        refine ⟨distinct, List.pairwise_singleton _ _, ?_⟩
        intro old listed new fresh same
        obtain ⟨task, member, rfl⟩ := List.mem_map.mp listed
        have below := issued task member
        rw [same, List.mem_singleton.mp fresh] at below
        exact Nat.lt_irrefl _ below
      · rcases List.mem_append.mp (held.mem_iff.mp listed) with old | new
        · exact Nat.lt_succ_of_lt (issued task old)
        · rw [List.mem_singleton.mp new]
          exact Nat.lt_succ_self _

theorem sound
    (works : timers.Works clockMs released armed next)
    (sound : timers.Sound)
    (issued : ∀ handle ∈ released, handle.number < next.issued) :
    next.Sound where
  distinct := (works.numbered sound.distinct sound.issued).1
  issued := (works.numbered sound.distinct sound.issued).2
  cancelled := by
    intro handle listed
    rcases works.isCancelled_iff.mp (decide_eq_true listed) with old | new
    · exact Nat.lt_of_lt_of_le (sound.cancelled handle (of_decide_eq_true old)) works.issued_le
    · exact issued handle new

/-- What can be received after some work: what was not released, and what was armed and not released
again. -/
theorem deadlines_perm
    (works : timers.Works clockMs released armed next)
    (sound : timers.Sound) :
    next.deadlines.Perm
      ((timers.deadlines.filter fun deadline => deadline.handle ∉ released) ++
        armed.filter fun deadline => deadline.handle ∉ released) := by
  obtain ⟨appointments, rfl, held, _⟩ := works.held_perm
  have chosen (task : Task α) : (!next.isCancelled task.handle) =
      (decide (task.handle ∉ released) && !timers.isCancelled task.handle) := by
    rw [Bool.eq_iff_iff]
    simp [works.isCancelled_iff, and_comm, ← Bool.not_eq_true]
  -- The new handles have not been cancelled before.
  have fresh : (appointments.filter fun task => !next.isCancelled task.handle) =
      appointments.filter fun task => task.handle ∉ released := by
    apply List.filter_congr
    intro task listed
    have above := works.issued_le_of_mem (List.mem_map_of_mem listed)
    have alive : timers.isCancelled task.handle = false := by
      apply decide_eq_false
      intro gone
      exact absurd (sound.cancelled _ gone) (Nat.not_lt.mpr above)
    rw [chosen, alive]
    simp
  have kept : (timers.held.filter fun task => !next.isCancelled task.handle) =
      timers.live.filter fun task => task.handle ∉ released := by
    unfold live
    rw [List.filter_filter]
    exact List.filter_congr fun task _ => chosen task
  have live : next.live.Perm ((timers.live.filter fun task => task.handle ∉ released) ++
      appointments.filter fun task => task.handle ∉ released) := by
    rw [← kept, ← fresh, ← List.filter_append]
    exact held.filter _
  have mapped (tasks : List (Task α)) :
      (tasks.filter fun task => task.handle ∉ released).map Task.deadline =
        (tasks.map Task.deadline).filter fun deadline => deadline.handle ∉ released := by
    rw [List.filter_map]
    rfl
  have both := live.map Task.deadline
  rw [List.map_append, mapped, mapped] at both
  exact both

/-- If only older timers are released, what was armed can be received. -/
theorem deadlines_perm_of_issued
    (works : timers.Works clockMs released armed next)
    (sound : timers.Sound)
    (issued : ∀ handle ∈ released, handle.number < timers.issued) :
    next.deadlines.Perm
      ((timers.deadlines.filter fun deadline => deadline.handle ∉ released) ++ armed) := by
  have kept : (armed.filter fun deadline => deadline.handle ∉ released) = armed := by
    apply List.filter_eq_self.mpr
    intro deadline listed
    apply decide_eq_true
    intro gone
    exact absurd (issued _ gone) (Nat.not_lt.mpr (works.issued_le_of_mem listed))
  have live := works.deadlines_perm sound
  rw [kept] at live
  exact live

/-- A timer that is not released can still be received. -/
theorem mem_live_of_spared
    (works : timers.Works clockMs released armed next)
    (alive : task ∈ timers.live)
    (spared : task.handle ∉ released) :
    task ∈ next.live := by
  obtain ⟨held, uncancelled⟩ := mem_live.mp alive
  obtain ⟨appointments, _, grown, _⟩ := works.held_perm
  refine mem_live.mpr ⟨grown.mem_iff.mpr (List.mem_append_left _ held), ?_⟩
  rw [← Bool.not_eq_true, works.isCancelled_iff, uncancelled]
  simp [spared]

/-- A timer that was armed and not released can be received, and has its fire time. -/
theorem exists_live_of_armed
    (works : timers.Works clockMs released armed next)
    (sound : timers.Sound)
    (listed : deadline ∈ armed)
    (spared : deadline.handle ∉ released) :
    ∃ task ∈ next.live, task.deadline = deadline ∧
      task.fireAtMs = timers.nowMs clockMs + deadline.delay.ms := by
  have above := works.issued_le_of_mem listed
  obtain ⟨appointments, rfl, grown, timed⟩ := works.held_perm
  obtain ⟨task, member, rfl⟩ := List.mem_map.mp listed
  refine ⟨task, mem_live.mpr ⟨grown.mem_iff.mpr (List.mem_append_right _ member), ?_⟩, rfl,
    timed task member⟩
  rw [← Bool.not_eq_true, works.isCancelled_iff]
  rintro (old | new)
  · exact absurd (sound.cancelled _ (of_decide_eq_true old)) (Nat.not_lt.mpr above)
  · exact spared new

end Works

/-- Receiving does not decide whether the wheels are intact. -/
theorem Delivers.intact_eq (delivers : timers.Delivers clockMs task next) :
    next.intact = timers.intact := by
  obtain ⟨_, rest, _, _, _, renewed⟩ := delivers.renewal
  cases recurs : task.nextOccurrence with
  | none =>
      rw [recurs] at renewed
      rw [renewed]
  | some occurrence =>
      rw [recurs] at renewed
      obtain ⟨_, _, _, tiers, _, rfl⟩ := place_eq_ok_iff.mp renewed
      rfl

/-- Wheels that are intact after they were settled were so before. -/
theorem intact_of_settle (intact : (timers.settle clockMs).intact = true) :
    timers.intact = true := by
  unfold settle at intact
  split at intact
  · next ticking =>
    unfold isTicking at ticking
    exact (Bool.and_eq_true_iff.mp ticking).2
  · exact intact

/-- The next occurrence of a recurring timer has the same deadline, and fires one period later. -/
theorem renewal_of_deadline
    (timers : Scheduler α)
    (clockMs : Nat)
    (recurs : task.isRecurring = true) :
    ∃ again, timers.renewal clockMs task = [again] ∧ again.deadline = task.deadline ∧
      again.fireAtMs = timers.nowMs clockMs + task.deadline.delay.ms := by
  obtain ⟨period, recurs⟩ := Option.isSome_iff_exists.mp recurs
  unfold renewal Task.nextOccurrence
  rw [recurs]
  refine ⟨_, rfl, ?_, ?_⟩
  · simp [Task.deadline, Task.recurring, Task.isRecurring, recurs]
  · simp [Task.deadline, Task.delayMs, Task.recurring, recurs]

/-- Receiving a recurring timer changes no deadline; any other timer is gone. -/
theorem Sound.deadlines_delivers
    (sound : timers.Sound)
    (delivers : timers.Delivers clockMs task next) :
    if task.isRecurring then next.deadlines.Perm timers.deadlines
    else timers.deadlines.Perm (task.deadline :: next.deadlines) := by
  obtain ⟨_, _, others, before, after⟩ := sound.delivers delivers
  have before' := before.map Task.deadline
  have after' := after.map Task.deadline
  rw [List.map_append] at after'
  split
  · next recurs =>
    obtain ⟨again, renewed, same, _⟩ := timers.renewal_of_deadline clockMs recurs
    rw [renewed, List.map_singleton, same] at after'
    exact after'.trans (List.perm_append_comm.trans before'.symm)
  · next once =>
    have ended := Option.not_isSome_iff_eq_none.mp once
    rw [timers.renewal_of_once clockMs ended, List.map_nil, List.append_nil] at after'
    exact before'.trans (after'.symm.cons _)

/-- The next occurrence of a recurring timer can be received. -/
theorem Sound.exists_live_of_recurring
    (sound : timers.Sound)
    (delivers : timers.Delivers clockMs task next)
    (recurs : task.isRecurring = true) :
    ∃ again ∈ next.live, again.deadline = task.deadline ∧
      again.fireAtMs = timers.nowMs clockMs + task.deadline.delay.ms := by
  obtain ⟨_, _, others, _, after⟩ := sound.delivers delivers
  obtain ⟨again, renewed, same, timed⟩ := timers.renewal_of_deadline clockMs recurs
  rw [renewed] at after
  have alive := after.mem_iff.mpr (List.mem_append_right _ List.mem_cons_self)
  exact ⟨again, alive, same, timed⟩

end Scheduler

end Quorum
