import Quorum.Proofs.Timing.Series

/-!
# The watchdog law

A consumer guards a recurring task by a task that fires once: whenever it receives the recurring
task, it cancels the guard and schedules a fresh one.  If the period is not longer than the delay of
the guard, no guard is ever received (`Watchdog.guard_unreceived`), whatever the clock does,
whenever the wheels are settled and the consumer comes to run, and whatever else is in the
scheduler.  The two may even fall into the same tick.

The reason is the order in which tasks come out of the wheels.  They come slot by slot, and within a
slot in the order in which they went in, by whichever wheel; and the next occurrence goes in before
the fresh guard, with a fire time that is not later.  `InLine` says that the one comes out before
the other.
-/

namespace Quorum.Scheduler

open Agenda

variable
    {α : Type}
    {mayPass : Scheduler α → Nat → Prop}
    {config : TimerConfig}
    {epochMs clockMs laterMs nowMs : Nat}
    {timers next : Scheduler α}
    {note : Option (Note α)}
    {history : History α}
    {task beat : Task α}
    {first second guard : Handle}

/-! ### Coming out in order -/

/-- If a task under the second handle is about to come out, one under the first handle comes out
before it: of the fired queue, or of the queue and what the wheels hand out up to some slot. -/
inductive InLine
    (config : TimerConfig)
    (nowMs : Nat)
    (timers : Scheduler α)
    (first second : Handle) : Prop where
  | still
      (standing : timers.isTicking = false)
      (ordered : second ∈ timers.fired.map Task.handle →
        [first, second].Sublist (timers.fired.map Task.handle))
  | turning
      {position : Nat} {agenda : List (Task α)}
      (reached : position ≤ nowMs / config.tickMs)
      (stands : timers.tiers.Stands config position agenda)
      (ordered : ∀ past, position ≤ past →
        second ∈ (timers.fired ++ stretch (Task.slot config.tickMs) position past agenda).map
          Task.handle →
        [first, second].Sublist
          ((timers.fired ++ stretch (Task.slot config.tickMs) position past agenda).map
            Task.handle))

/-- Taking away a front in which the first entry is missing. -/
theorem sublist_of_front
    {entry : Handle}
    {entries front back : List Handle}
    (ordered : (entry :: entries).Sublist (front ++ back))
    (missing : entry ∉ front) :
    (entry :: entries).Sublist back := by
  obtain ⟨left, right, split, inFront, inBack⟩ := List.sublist_append_iff.mp ordered
  cases left with
  | nil => exact split ▸ inBack
  | cons head left =>
      obtain ⟨rfl, _⟩ := List.cons.inj split
      exact absurd (inFront.subset List.mem_cons_self) missing

/-- What was skipped was cancelled, so that no other handle is among it. -/
theorem not_mem_skipped
    {skipped : List (Task α)}
    (dead : ∀ old ∈ skipped, timers.isCancelled old.handle = true)
    (alive : timers.isCancelled first = false) :
    first ∉ skipped.map Task.handle := by
  intro listed
  obtain ⟨old, among, rfl⟩ := List.mem_map.mp listed
  rw [dead old among] at alive
  cases alive

namespace InLine

/-- On the fired queue the first one is ahead. -/
theorem queued
    (inLine : InLine config nowMs timers first second)
    (fired : second ∈ timers.fired.map Task.handle) :
    [first, second].Sublist (timers.fired.map Task.handle) := by
  cases inLine with
  | still _ ordered => exact ordered fired
  | @turning position agenda _ _ ordered =>
      have front := ordered position (Nat.le_refl _)
      rw [stretch_self, List.append_nil] at front
      exact front fired

theorem elapsed
    (inLine : InLine config nowMs timers first second)
    {laterMs : Nat}
    (later : nowMs ≤ laterMs) :
    InLine config laterMs timers first second := by
  cases inLine with
  | still standing ordered => exact .still standing ordered
  | turning reached stands ordered =>
      exact .turning (Nat.le_trans reached (Nat.div_le_div_right later)) stands ordered

/-- Another task goes into the wheels. -/
theorem placed
    (inLine : InLine config nowMs timers first second)
    {tiers : TwoTier α}
    (other : task.handle ≠ second)
    (timed : nowMs ≤ task.fireAtMs)
    (found : timers.tiers.place task = .ok (some tiers)) :
    InLine config nowMs { timers with tiers } first second := by
  cases inLine with
  | still standing ordered => exact .still standing ordered
  | @turning position agenda reached stands ordered =>
      have ahead : position ≤ task.slot config.tickMs :=
        Nat.le_trans reached (Nat.div_le_div_right timed)
      refine .turning reached (stands.place ahead found) fun past behind listed => ?_
      have longer : (stretch (Task.slot config.tickMs) position past agenda).Sublist
          (stretch (Task.slot config.tickMs) position past (agenda ++ [task])) :=
        stretch_sublist (List.sublist_append_left _ _) _ _
      refine (ordered past behind ?_).trans ((longer.append_left _).map _)
      obtain ⟨entry, among, rfl⟩ := List.mem_map.mp listed
      refine List.mem_map_of_mem ?_
      rcases List.mem_append.mp among with fired | waiting
      · exact List.mem_append_left _ fired
      · obtain ⟨inside, bounds⟩ := mem_stretch.mp waiting
        rcases List.mem_append.mp inside with old | new
        · exact List.mem_append_right _ (mem_stretch.mpr ⟨old, bounds⟩)
        · rw [List.mem_singleton.mp new] at other
          exact absurd rfl other

/-- The queue loses a front that does not hold the first one. -/
theorem shortened
    (inLine : InLine config nowMs timers first second)
    {front rest : List (Task α)}
    (queue : timers.fired = front ++ rest)
    (missing : first ∉ front.map Task.handle) :
    InLine config nowMs { timers with fired := rest } first second := by
  cases inLine with
  | still standing ordered =>
      refine .still standing fun listed => ?_
      rw [queue, List.map_append] at ordered
      exact sublist_of_front (ordered (List.mem_append_right _ listed)) missing
  | turning reached stands ordered =>
      refine .turning reached stands fun past behind listed => ?_
      have before := ordered past behind
      rw [queue, List.append_assoc, List.map_append] at before
      exact sublist_of_front (before (List.mem_append_right _ listed)) missing

/-- Settling moves a part of the line onto the queue, also if it fails. -/
theorem settled
    (inLine : InLine config (timers.nowMs clockMs) timers first second) :
    InLine config (timers.nowMs clockMs) (timers.settle clockMs) first second := by
  by_cases ticking : timers.isTicking = true
  · cases inLine with
    | still standing _ =>
        rw [standing] at ticking
        cases ticking
    | @turning position agenda reached stands ordered =>
        obtain ⟨past, behind, _, due⟩ := stands.settle_due reached
        unfold settle
        rw [if_pos ticking]
        cases intact : (timers.tiers.settle (timers.nowMs clockMs)).intact with
        | false =>
            refine .still ?_ ?_
            · simp [isTicking, intact]
            · dsimp only
              rw [due]
              exact ordered past behind
        | true =>
            obtain ⟨due, standing⟩ := stands.settle reached intact
            refine .turning (Nat.le_refl _) standing fun past behind => ?_
            dsimp only
            rw [due, List.append_assoc, stretch_append_stretch agenda reached behind]
            exact ordered past (Nat.le_trans reached behind)
  · unfold settle
    rw [if_neg ticking]
    exact inLine

theorem stopped
    (inLine : InLine config nowMs timers first second) :
    InLine config nowMs timers.shutdown first second :=
  .still (by simp [isTicking, shutdown]) inLine.queued

/-- A task that is not cancelled is received before the one that comes after it. -/
theorem not_received
    (inLine : InLine config nowMs timers first second)
    (sound : timers.Sound)
    (alive : timers.isCancelled first = false)
    (apart : first ≠ second)
    (taken : timers.receive clockMs = .ok (some task, next)) :
    task.handle ≠ second := by
  rintro rfl
  obtain ⟨skipped, rest, queue, dead, _, _⟩ := receive_eq_some taken
  have missing : first ∉ (skipped ++ [task]).map Task.handle := by
    rw [List.map_append, List.mem_append, List.map_singleton, List.mem_singleton]
    exact not_or.mpr ⟨not_mem_skipped dead alive, apart⟩
  have ordered := inLine.queued (by rw [queue]; simp)
  rw [queue, List.append_cons, List.map_append] at ordered
  have behind := sublist_of_front ordered missing
  have again : task.handle ∈ rest.map Task.handle := behind.subset (by simp)
  have distinct := sound.distinct
  unfold held at distinct
  rw [queue, List.append_cons, List.append_assoc, List.map_append, List.nodup_append] at distinct
  refine distinct.2.2 task.handle (by simp) task.handle ?_ rfl
  rw [List.map_append]
  exact List.mem_append_left _ again

/-- A task that goes into the wheels comes out after those that are held and fire no later. -/
theorem of_schedule
    (truthful : Truthful config epochMs history timers clockMs)
    {delay : Delay}
    {repeats : Bool}
    {payload : α}
    (accepted : timers.schedule clockMs delay repeats payload = .ok (guard, next))
    (earlier : timers.isTicking = true → ∃ occurrence ∈ timers.held,
      occurrence.handle = first ∧ occurrence.fireAtMs ≤ clockMs - epochMs + delay.ms) :
    InLine config (clockMs - epochMs) next first guard := by
  obtain ⟨rfl, _, tiers, found, rfl⟩ := schedule_eq_ok accepted
  have fresh : ∀ other ∈ timers.held, other.handle ≠ timers.nextHandle := by
    intro other held same
    have issued := truthful.steady.sound.issued other held
    rw [same] at issued
    exact Nat.lt_irrefl _ issued
  by_cases ticking : timers.isTicking = true
  · obtain ⟨position, agenda, reached, stands⟩ := (truthful.steady.punctual ticking).stands
    obtain ⟨occurrence, held, named, soon⟩ := earlier ticking
    generalize enters : timers.appointment clockMs delay repeats payload = last at found
    have timed : last.fireAtMs = clockMs - epochMs + delay.ms := by
      rw [← enters, ← truthful.steady.epoch_eq]
      rfl
    have called : last.handle = timers.nextHandle := by
      rw [← enters]
      rfl
    have ahead : position ≤ last.slot config.tickMs :=
      Nat.le_trans reached (Nat.div_le_div_right (by omega))
    refine .turning reached (stands.place ahead found) fun past behind listed => ?_
    -- Only the new task comes out under the new handle, so that the line reaches its slot.
    have within : last.slot config.tickMs < past := by
      obtain ⟨entry, among, same⟩ := List.mem_map.mp listed
      rcases List.mem_append.mp among with fired | waiting
      · exact absurd same (fresh entry (List.mem_append_left _ fired))
      · obtain ⟨inside, bounds⟩ := mem_stretch.mp waiting
        rcases List.mem_append.mp inside with old | new
        · have kept := stands.tasks_perm.mem_iff.mpr old
          exact absurd same (fresh entry (List.mem_append_right _ kept))
        · rw [List.mem_singleton.mp new] at bounds
          exact bounds.2
    rw [← stretch_append_stretch (agenda ++ [last]) (Nat.le_succ_of_le ahead) within,
      stretch_succ _ ahead, only_append, only_singleton, if_pos rfl]
    have before : occurrence ∈ timers.fired ++
        (stretch (Task.slot config.tickMs) position (last.slot config.tickMs) (agenda ++ [last]) ++
          only (Task.slot config.tickMs) (last.slot config.tickMs) agenda) := by
      rcases List.mem_append.mp held with fired | waiting
      · exact List.mem_append_left _ fired
      · have inside := stands.tasks_perm.mem_iff.mp waiting
        have slot : occurrence.slot config.tickMs ≤ last.slot config.tickMs :=
          Nat.div_le_div_right (timed ▸ soon)
        rcases Nat.lt_or_eq_of_le slot with sooner | same
        · exact List.mem_append_right _ (List.mem_append_left _ (mem_stretch.mpr
            ⟨List.mem_append_left _ inside, stands.ahead_of_mem inside, sooner⟩))
        · exact List.mem_append_right _ (List.mem_append_right _ (mem_only.mpr ⟨inside, same⟩))
    have one := (List.singleton_sublist.mpr before).append (List.Sublist.refl [last])
    have line := (one.trans (List.sublist_append_left _ (stretch (Task.slot config.tickMs)
      (last.slot config.tickMs + 1) past
      (onward (Task.slot config.tickMs) (last.slot config.tickMs + 1) (agenda ++ [last]))))).map
        Task.handle
    simpa [named, called] using line
  · refine .still (Bool.eq_false_iff.mpr ticking) fun listed => ?_
    obtain ⟨entry, fired, same⟩ := List.mem_map.mp listed
    exact absurd same (fresh entry (List.mem_append_left _ fired))

/-- Only the queue, the wheels and whether they turn matter. -/
theorem transfer
    (inLine : InLine config nowMs timers first second)
    (fired : next.fired = timers.fired)
    (tiers : next.tiers = timers.tiers)
    (ticking : next.isTicking = timers.isTicking) :
    InLine config nowMs next first second := by
  cases inLine with
  | still standing ordered => exact .still (ticking.trans standing) (fired ▸ ordered)
  | turning reached stands ordered => exact .turning reached (tiers ▸ stands) (fired ▸ ordered)

/-- The line stays in order whatever happens, except that one of the two is received. -/
theorem step
    (inLine : InLine config (clockMs - epochMs) timers first second)
    (truthful : Truthful config epochMs history timers clockMs)
    (alive : timers.isCancelled first = false)
    (issued : second.number < timers.issued)
    (step : timers.Step clockMs note next)
    (others : ∀ task again, note = some (.received task again) →
      task.handle ≠ first ∧ task.handle ≠ second) :
    InLine config (clockMs - epochMs) next first second := by
  have epoch := truthful.steady.epoch_eq
  cases step with
  | @scheduled _ delay repeats payload _ accepted =>
      obtain ⟨_, _, tiers, found, rfl⟩ := schedule_eq_ok accepted
      have other : (timers.appointment clockMs delay repeats payload).handle ≠ second := by
        rintro rfl
        exact Nat.lt_irrefl _ issued
      have timed : clockMs - epochMs ≤
          (timers.appointment clockMs delay repeats payload).fireAtMs := by
        rw [← epoch]
        exact Nat.le_add_right _ _
      exact (inLine.placed other timed found).transfer rfl rfl rfl
  | cancelled _ => exact inLine.transfer rfl rfl rfl
  | @received _ task taken =>
      obtain ⟨notFirst, notSecond⟩ := others task _ rfl
      obtain ⟨skipped, rest, queue, dead, _, renewal⟩ := receive_eq_some taken
      have missing : first ∉ (skipped ++ [task]).map Task.handle := by
        rw [List.map_append, List.mem_append, List.map_singleton, List.mem_singleton]
        exact not_or.mpr ⟨not_mem_skipped dead alive, notFirst.symm⟩
      rw [List.append_cons] at queue
      have left := inLine.shortened queue missing
      split at renewal
      · subst renewal
        exact left
      · obtain ⟨⟨period, _, rfl⟩, tiers, found, rfl⟩ := renewal
        refine (left.placed ?_ ?_ found).transfer rfl rfl rfl
        · exact notSecond
        · dsimp only [nowMs]
          omega
  | drained taken =>
      have missing : first ∉ timers.fired.map Task.handle :=
        not_mem_skipped (fun _ => isCancelled_of_receive_none taken) alive
      rw [receive_eq_none taken]
      exact inLine.shortened (List.append_nil _).symm missing
  | settled =>
      have settled := inLine
      rw [← epoch] at settled ⊢
      exact settled.settled
  | stopped => exact inLine.stopped

end InLine

/-! ### The consumer's round -/

/-- Where the consumer is in its round. -/
inductive Duty where
  /-- The guard under this handle is outstanding. -/
  | guarded (guard : Handle)
  /-- The recurring task was received; its guard is to be cancelled. -/
  | roused (guard : Handle)
  /-- The guard was cancelled, and a fresh one is to be scheduled. -/
  | unguarded

/-- The guard that was not cancelled yet. -/
def Duty.guard? : Duty → Option Handle
  | guarded guard => some guard
  | roused guard => some guard
  | unguarded => none

/-- A run in which the consumer guards the recurring task `beat` by tasks that fire once after
`delay`, with all guards so far.  Between two steps of its round anybody else may do anything, at
any instant that the rule for the clock allows. -/
inductive Watchdog
    (mayPass : Scheduler α → Nat → Prop)
    (config : TimerConfig)
    (epochMs : Nat)
    (beat : Task α)
    (delay : Delay) :
    Duty → List Handle → History α → Scheduler α → Nat → Prop where
  /-- The first guard, after the recurring task has gone into the wheels. -/
  | posted
      {history : History α} {timers next : Scheduler α} {clockMs : Nat}
      {guard : Handle} {payload : α}
      (journal : Journal mayPass config epochMs history timers clockMs)
      (listed : beat ∈ history.appointed)
      (accepted : timers.schedule clockMs delay false payload = .ok (guard, next)) :
      Watchdog mayPass config epochMs beat delay (.guarded guard) [guard]
        (history.noted clockMs
          (some (.scheduled (timers.appointment clockMs delay false payload)))) next clockMs
  | disturbed
      {duty : Duty} {guards : List Handle} {history : History α}
      {timers next : Scheduler α} {clockMs : Nat} {note : Option (Note α)}
      (watchdog : Watchdog mayPass config epochMs beat delay duty guards history timers clockMs)
      (step : timers.Step clockMs note next)
      (untaken : ∀ task again, note ≠ some (.received task again)) :
      Watchdog mayPass config epochMs beat delay duty guards (history.noted clockMs note) next
        clockMs
  | elapsed
      {duty : Duty} {guards : List Handle} {history : History α}
      {timers : Scheduler α} {clockMs laterMs : Nat}
      (watchdog : Watchdog mayPass config epochMs beat delay duty guards history timers clockMs)
      (later : clockMs ≤ laterMs)
      (allowed : mayPass timers laterMs) :
      Watchdog mayPass config epochMs beat delay duty guards history timers laterMs
  /-- The consumer receives a task, whichever it is. -/
  | took
      {guard : Handle} {guards : List Handle} {history : History α}
      {timers next : Scheduler α} {clockMs : Nat} {task : Task α}
      (watchdog : Watchdog mayPass config epochMs beat delay (.guarded guard) guards history timers
        clockMs)
      (taken : timers.receive clockMs = .ok (some task, next)) :
      Watchdog mayPass config epochMs beat delay
        (if task.handle = beat.handle then .roused guard else .guarded guard) guards
        (history.noted clockMs (some (.received task (timers.renewed clockMs task)))) next clockMs
  | dismissed
      {guard : Handle} {guards : List Handle} {history : History α}
      {timers : Scheduler α} {clockMs : Nat}
      (watchdog : Watchdog mayPass config epochMs beat delay (.roused guard) guards history timers
        clockMs) :
      Watchdog mayPass config epochMs beat delay .unguarded guards
        (history.noted clockMs (some (.cancelled guard))) (timers.cancel guard) clockMs
  | replaced
      {guards : List Handle} {history : History α} {timers next : Scheduler α} {clockMs : Nat}
      {guard : Handle} {payload : α}
      (watchdog : Watchdog mayPass config epochMs beat delay .unguarded guards history timers
        clockMs)
      (accepted : timers.schedule clockMs delay false payload = .ok (guard, next)) :
      Watchdog mayPass config epochMs beat delay (.guarded guard) (guard :: guards)
        (history.noted clockMs
          (some (.scheduled (timers.appointment clockMs delay false payload)))) next clockMs

namespace Watchdog

variable {delay : Delay} {duty : Duty} {guards : List Handle}

/-- The guards have been given out, and the outstanding one is among them. -/
theorem issued
    (watchdog : Watchdog mayPass config epochMs beat delay duty guards history timers clockMs) :
    (∀ guard ∈ guards, guard.number < timers.issued) ∧
      ∀ guard, duty.guard? = some guard → guard ∈ guards := by
  induction watchdog with
  | posted journal listed accepted =>
      obtain ⟨rfl, _, tiers, _, rfl⟩ := schedule_eq_ok accepted
      exact ⟨by simp [nextHandle], fun guard same => by simpa [Duty.guard?, eq_comm] using same⟩
  | disturbed _ step _ ih =>
      exact ⟨fun guard among => Nat.lt_of_lt_of_le (ih.1 guard among) step.issued_le, ih.2⟩
  | elapsed _ _ _ ih => exact ih
  | took _ taken ih =>
      refine ⟨fun guard among => Nat.lt_of_lt_of_le (ih.1 guard among)
        (Step.received taken).issued_le, fun guard same => ih.2 guard ?_⟩
      split at same
      · exact same
      · exact same
  | dismissed _ ih => exact ⟨ih.1, nofun⟩
  | replaced _ accepted ih =>
      have further := (Step.scheduled accepted).issued_le
      obtain ⟨rfl, _, tiers, _, rfl⟩ := schedule_eq_ok accepted
      refine ⟨List.forall_mem_cons.mpr ⟨by simp [nextHandle], fun guard among => ?_⟩, ?_⟩
      · exact Nat.lt_of_lt_of_le (ih.1 guard among) further
      · rintro guard ⟨⟩
        exact List.mem_cons_self

/-- The run of a watchdog is a run of the scheduler, in which the recurring task is appointed. -/
theorem journal
    (watchdog : Watchdog mayPass config epochMs beat delay duty guards history timers clockMs) :
    Journal mayPass config epochMs history timers clockMs ∧ beat ∈ history.appointed := by
  induction watchdog with
  | posted journal listed accepted =>
      exact ⟨journal.stepped (.scheduled accepted), History.appointed_subset_noted listed⟩
  | disturbed _ step _ ih => exact ⟨ih.1.stepped step, History.appointed_subset_noted ih.2⟩
  | elapsed _ later allowed ih => exact ⟨ih.1.elapsed later allowed, ih.2⟩
  | took _ taken ih =>
      exact ⟨ih.1.stepped (.received taken), History.appointed_subset_noted ih.2⟩
  | @dismissed guard _ _ _ _ watchdog ih =>
      have given := watchdog.issued.1 guard (watchdog.issued.2 guard rfl)
      exact ⟨ih.1.stepped (.cancelled given), History.appointed_subset_noted ih.2⟩
  | replaced _ accepted ih =>
      exact ⟨ih.1.stepped (.scheduled accepted), History.appointed_subset_noted ih.2⟩

end Watchdog

/-- The recurring task is there to be received for good: its period is not longer than `delay`,
nobody has cancelled it, and the wheels took every occurrence. -/
structure Beats (beat : Task α) (delay : Delay) (history : History α) : Prop where
  recurs : beat.isRecurring = true
  shorter : beat.delayMs ≤ delay.ms
  spared : ∀ atMs, (atMs, .cancelled beat.handle) ∉ history
  renews : history.Renews beat.handle

/-- The recurring task is not cancelled. -/
theorem Beats.alive
    {delay : Delay}
    (beats : Beats beat delay history)
    (truthful : Truthful config epochMs history timers clockMs) :
    timers.isCancelled beat.handle = false := by
  rw [Bool.eq_false_iff, ne_eq, truthful.cancelled]
  exact fun ⟨atMs, entry⟩ => beats.spared atMs entry

theorem Beats.of_noted
    {delay : Delay}
    (beats : Beats beat delay (history.noted clockMs note)) :
    Beats beat delay history where
  recurs := beats.recurs
  shorter := beats.shorter
  spared := fun atMs listed => beats.spared atMs (History.mem_noted.mpr (.inl listed))
  renews := beats.renews.of_noted

/-- What holds of the guards at any moment. -/
structure OnGuard
    (config : TimerConfig)
    (epochMs : Nat)
    (beat : Task α)
    (duty : Duty)
    (guards : List Handle)
    (history : History α)
    (timers : Scheduler α)
    (clockMs : Nat) : Prop where
  /-- All guards but the outstanding one were cancelled. -/
  retired : ∀ guard ∈ guards, duty.guard? = some guard ∨ timers.isCancelled guard = true
  unreceived : ∀ guard ∈ guards, history.occasions guard = []
  apart : ∀ guard ∈ guards, beat.handle ≠ guard
  /-- The recurring task comes out before the outstanding guard. -/
  inLine : ∀ guard, duty = .guarded guard →
    InLine config (clockMs - epochMs) timers beat.handle guard

namespace OnGuard

variable {delay : Delay} {duty : Duty} {guards : List Handle}

/-- A handle that was cancelled stays cancelled. -/
theorem retired_step
    (onGuard : OnGuard config epochMs beat duty guards history timers clockMs)
    (step : timers.Step clockMs note next) :
    ∀ guard ∈ guards, duty.guard? = some guard ∨ next.isCancelled guard = true :=
  fun guard among => (onGuard.retired guard among).imp_right fun dead =>
    (step.cancelled_iff guard).mpr (.inl dead)

/-- A fresh guard comes out after the occurrence of the recurring task that is held. -/
theorem replaced
    (journal : Journal mayPass config epochMs history timers clockMs)
    (listed : beat ∈ history.appointed)
    (beats : Beats beat delay history)
    (retired : ∀ guard ∈ guards, timers.isCancelled guard = true)
    (unreceived : ∀ guard ∈ guards, history.occasions guard = [])
    (apart : ∀ guard ∈ guards, beat.handle ≠ guard)
    {payload : α}
    (accepted : timers.schedule clockMs delay false payload = .ok (guard, next)) :
    OnGuard config epochMs beat (.guarded guard) (guard :: guards)
      (history.noted clockMs (some (.scheduled (timers.appointment clockMs delay false payload))))
      next clockMs := by
  have truthful := journal.truthful
  have step := Step.scheduled accepted
  have fresh : ∀ task ∈ history.appointed, task.handle ≠ guard := by
    obtain ⟨rfl, _⟩ := schedule_eq_ok accepted
    intro task among same
    have issued := truthful.roster.issued task among
    rw [same] at issued
    exact Nat.lt_irrefl _ issued
  have quiet : ∀ other, (history.noted clockMs (some (.scheduled
      (timers.appointment clockMs delay false payload)))).occasions other =
        history.occasions other :=
    fun other => History.occasions_noted_of_others _ nofun
  refine {
    retired := List.forall_mem_cons.mpr ⟨.inl rfl, fun other among => .inr ?_⟩
    unreceived := List.forall_mem_cons.mpr ⟨?_, fun other among => ?_⟩
    apart := List.forall_mem_cons.mpr ⟨fresh beat listed, apart⟩
    inLine := ?_ }
  · exact (step.cancelled_iff other).mpr (.inl (retired other among))
  · rw [quiet, History.occasions_eq_nil_iff]
    exact fun atMs task again entry => fresh task (truthful.received atMs task again entry)
  · rw [quiet, unreceived other among]
  · rintro _ ⟨⟩
    refine .of_schedule truthful accepted fun ticking => ?_
    obtain ⟨occurrence, held, named⟩ :=
      journal.exists_occurrence listed beats.recurs beats.renews ticking (beats.alive truthful)
    refine ⟨occurrence, held, named, ?_⟩
    have known := truthful.roster.held occurrence held
    have soon := truthful.fireAtMs_le known
    have delay_eq := (truthful.roster.isRecurring_eq listed known named).2
    have shorter := beats.shorter
    omega

/-- Somebody else does something. -/
theorem disturbed
    (onGuard : OnGuard config epochMs beat duty guards history timers clockMs)
    (truthful : Truthful config epochMs history timers clockMs)
    (alive : timers.isCancelled beat.handle = false)
    (given : ∀ guard, duty.guard? = some guard → guard.number < timers.issued)
    (step : timers.Step clockMs note next)
    (untaken : ∀ task again, note ≠ some (.received task again)) :
    OnGuard config epochMs beat duty guards (history.noted clockMs note) next clockMs where
  retired := onGuard.retired_step step
  unreceived := by
    intro guard among
    rw [History.occasions_noted_of_others, onGuard.unreceived guard among]
    exact fun task again writes => absurd writes (untaken task again)
  apart := onGuard.apart
  inLine := by
    rintro guard rfl
    refine (onGuard.inLine guard rfl).step truthful alive (given guard rfl) step ?_
    exact fun task again writes => absurd writes (untaken task again)

theorem elapsed
    (onGuard : OnGuard config epochMs beat duty guards history timers clockMs)
    (later : clockMs ≤ laterMs) :
    OnGuard config epochMs beat duty guards history timers laterMs :=
  { onGuard with
    inLine := fun guard guarded =>
      (onGuard.inLine guard guarded).elapsed (Nat.sub_le_sub_right later _) }

/-- The consumer receives a task, and it is none of the guards. -/
theorem took
    (onGuard : OnGuard config epochMs beat (.guarded guard) guards history timers clockMs)
    (truthful : Truthful config epochMs history timers clockMs)
    (alive : timers.isCancelled beat.handle = false)
    (posted : guard ∈ guards)
    (given : guard.number < timers.issued)
    (taken : timers.receive clockMs = .ok (some task, next)) :
    OnGuard config epochMs beat
      (if task.handle = beat.handle then .roused guard else .guarded guard) guards
      (history.noted clockMs (some (.received task (timers.renewed clockMs task)))) next
      clockMs := by
  have notGuard : task.handle ≠ guard := (onGuard.inLine guard rfl).not_received
    truthful.steady.sound alive (onGuard.apart guard posted) taken
  have others : ∀ other ∈ guards, task.handle ≠ other := by
    rintro other among rfl
    rcases onGuard.retired task.handle among with outstanding | dead
    · exact notGuard (Option.some.inj outstanding).symm
    · obtain ⟨_, _, _, _, living, _⟩ := receive_eq_some taken
      rw [dead] at living
      cases living
  have outstanding : (if task.handle = beat.handle then Duty.roused guard
      else .guarded guard).guard? = some guard := by
    split
    · rfl
    · rfl
  exact {
    retired := by
      rw [outstanding]
      exact onGuard.retired_step (.received taken)
    unreceived := by
      intro other among
      rw [History.occasions_noted_of_others, onGuard.unreceived other among]
      rintro _ _ ⟨⟩
      exact others other among
    apart := onGuard.apart
    inLine := by
      intro other guarded
      split at guarded
      · cases guarded
      · next notBeat =>
        cases guarded
        refine (onGuard.inLine guard rfl).step truthful alive given (.received taken) ?_
        rintro _ _ ⟨⟩
        exact ⟨notBeat, notGuard⟩ }

theorem dismissed
    (onGuard : OnGuard config epochMs beat (.roused guard) guards history timers clockMs)
    (given : guard.number < timers.issued) :
    OnGuard config epochMs beat .unguarded guards
      (history.noted clockMs (some (.cancelled guard))) (timers.cancel guard) clockMs where
  retired := by
    intro other among
    right
    have step : timers.Step clockMs _ _ := .cancelled given
    rw [step.cancelled_iff other]
    rcases onGuard.retired other among with outstanding | dead
    · obtain rfl := Option.some.inj outstanding
      exact .inr rfl
    · exact .inl dead
  unreceived := by
    intro other among
    refine (History.occasions_noted_of_others clockMs ?_).trans (onGuard.unreceived other among)
    exact nofun
  apart := onGuard.apart
  inLine := nofun

end OnGuard

namespace Watchdog

variable {delay : Delay} {duty : Duty} {guards : List Handle}

/-- The invariant holds in every run. -/
theorem onGuard
    (watchdog : Watchdog mayPass config epochMs beat delay duty guards history timers clockMs)
    (beats : Beats beat delay history) :
    OnGuard config epochMs beat duty guards history timers clockMs := by
  induction watchdog with
  | posted journal listed accepted =>
      exact .replaced journal listed beats.of_noted (List.forall_mem_nil _) (List.forall_mem_nil _)
        (List.forall_mem_nil _) accepted
  | disturbed watchdog step untaken ih =>
      have before := beats.of_noted
      have truthful := watchdog.journal.1.truthful
      exact (ih before).disturbed truthful (before.alive truthful)
        (fun guard same => watchdog.issued.1 guard (watchdog.issued.2 guard same)) step untaken
  | elapsed _ later _ ih => exact (ih beats).elapsed later
  | took watchdog taken ih =>
      have before := beats.of_noted
      have truthful := watchdog.journal.1.truthful
      have posted := watchdog.issued.2 _ rfl
      exact (ih before).took truthful (before.alive truthful) posted
        (watchdog.issued.1 _ posted) taken
  | dismissed watchdog ih =>
      exact (ih beats.of_noted).dismissed (watchdog.issued.1 _ (watchdog.issued.2 _ rfl))
  | replaced watchdog accepted ih =>
      have before := ih beats.of_noted
      obtain ⟨journal, listed⟩ := watchdog.journal
      refine .replaced journal listed beats.of_noted (fun guard among => ?_) before.unreceived
        before.apart accepted
      exact (before.retired guard among).resolve_left nofun

/-- No guard of a recurring task is ever received, if its delay is at least the period. -/
theorem guard_unreceived
    (watchdog : Watchdog mayPass config epochMs beat delay duty guards history timers clockMs)
    (beats : Beats beat delay history)
    (among : guard ∈ guards) :
    ∀ atMs task again, (atMs, .received task again) ∈ history → task.handle ≠ guard :=
  History.occasions_eq_nil_iff.mp ((watchdog.onGuard beats).unreceived guard among)

end Watchdog

namespace Sentry

/-! ### Two deadlines in one tick

A beat every twelve milliseconds and a guard of thirteen, which are due at the end of the same tick
of ten.  The clock jumps over both, and both are on the fired queue when the consumer comes to run;
it receives the beat, and the guard is cancelled where it is. -/

def fresh : Scheduler String where
  config := ⟨10, 2, 3⟩
  epochMs := 100
  tiers := ⟨⟨10, [[], []], 0, 0⟩, ⟨20, [[], [], []], 20, 0⟩⟩
  fired := []
  cancelled := {}
  issued := 0
  running := true
  attended := true
  intact := true

def stroke (fireAtMs : Nat) : Task String :=
  ⟨⟨0⟩, Delay.ofMs 12, some (Delay.ofMs 12), fireAtMs, "beat"⟩

def shot (number fireAtMs : Nat) : Task String :=
  ⟨⟨number⟩, Delay.ofMs 13, none, fireAtMs, "guard"⟩

def notes : History String :=
  [(190, .received (stroke 62) (some (stroke 102))), (150, .scheduled (shot 2 63)),
    (150, .cancelled ⟨1⟩), (150, .received (stroke 17) (some (stroke 62))),
    (105, .scheduled (shot 1 18)), (105, .scheduled (stroke 17))]

theorem watchdog :
    ∃ last, Watchdog (fun _ _ => True) ⟨10, 2, 3⟩ 100 (stroke 17) (Delay.ofMs 13) (.roused ⟨2⟩)
      [⟨2⟩, ⟨1⟩] notes last 190 := by
  have begun : Journal (fun _ _ => True) ⟨10, 2, 3⟩ 100 [] fresh 100 := .begun rfl
  have scheduled := (begun.elapsed (show 100 ≤ 105 by decide) trivial).stepped
    (.scheduled (show fresh.schedule 105 (Delay.ofMs 12) true "beat" = .ok (⟨0⟩, _) from rfl))
  have posted := Watchdog.posted scheduled
    (show stroke 17 ∈ History.appointed [(105, .scheduled (stroke 17))] by decide)
    (show Scheduler.schedule _ 105 (Delay.ofMs 13) false "guard" = .ok (⟨1⟩, _) from rfl)
  have late := (posted.elapsed (show 105 ≤ 150 by decide) trivial).disturbed .settled nofun
  have roused := late.took
    (show Scheduler.receive _ 150 = .ok (some (stroke 17), _) from rfl)
  have replaced := (Watchdog.dismissed roused).replaced
    (show Scheduler.schedule _ 150 (Delay.ofMs 13) false "guard" = .ok (⟨2⟩, _) from rfl)
  have later := (replaced.elapsed (show 150 ≤ 190 by decide) trivial).disturbed .settled nofun
  exact ⟨_, later.took (show Scheduler.receive _ 190 = .ok (some (stroke 62), _) from rfl)⟩

theorem beats : Beats (stroke 17) (Delay.ofMs 13) notes where
  recurs := rfl
  shorter := by decide +kernel
  spared := by
    intro atMs listed
    simp [notes, stroke] at listed
  renews := by
    intro atMs task again listed _ _
    simp only [notes, List.mem_cons, Prod.mk.injEq, Note.received.injEq, reduceCtorEq,
      List.not_mem_nil, and_false, or_false, false_or] at listed
    rcases listed with ⟨_, _, rfl⟩ | ⟨_, _, rfl⟩
    · rfl
    · rfl

end Sentry

/-- Neither of the two guards is received, although the first one had fired. -/
theorem Watchdog.guard_unreceived_sentry :
    (∃ last, Watchdog (fun _ _ => True) ⟨10, 2, 3⟩ 100 (Sentry.stroke 17) (Delay.ofMs 13)
      (.roused ⟨2⟩) [⟨2⟩, ⟨1⟩] Sentry.notes last 190) ∧
    Beats (Sentry.stroke 17) (Delay.ofMs 13) Sentry.notes ∧
    ∀ guard ∈ [⟨2⟩, ⟨1⟩], ∀ atMs task again,
      (atMs, .received task again) ∈ Sentry.notes → task.handle ≠ guard := by
  refine ⟨Sentry.watchdog, Sentry.beats, fun guard among => ?_⟩
  obtain ⟨last, watchdog⟩ := Sentry.watchdog
  exact watchdog.guard_unreceived Sentry.beats among

end Quorum.Scheduler
