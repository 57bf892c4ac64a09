import Quorum.Proofs.Timing.Punctual

/-!
# Setbacks

An advance fails when the far window would have to slide beyond the last word.  From then on the
wheels stand still, and what the failed advance had drained, or had taken out of the far wheel, is
lost.  That is all that goes wrong.  A settling that fails makes nothing up
(`Scheduler.exists_lost`), and what it has put on the queue by then is what was due up to some slot
that had ended, slot by slot (`TwoTier.Stands.settle_due`).

The wheels may also refuse the next occurrence of a recurring task, which the consumer has received
by then.  `Scheduler.receive_eq_some` says what receiving a task does in either case.
-/

namespace Quorum

open Agenda

variable {α : Type}

namespace Wheel

/-- Dropping a bucket leaves the other ones. -/
theorem tasks_dropNext (wheel : Wheel α) :
    ∃ lost, (wheel.dropNext.tasks ++ lost).Perm wheel.tasks := by
  unfold dropNext tasks
  rcases Nat.lt_or_ge wheel.current wheel.buckets.length with within | beyond
  · have before : wheel.buckets = wheel.buckets.take wheel.current ++
        wheel.buckets[wheel.current] :: wheel.buckets.drop (wheel.current + 1) := by
      rw [← List.drop_eq_getElem_cons within, List.take_append_drop]
    refine ⟨wheel.buckets[wheel.current], ?_⟩
    rw [List.set_eq_take_append_cons_drop, if_pos within]
    conv => rhs; rw [before]
    simp only [List.flatten_append, List.flatten_cons, List.nil_append, List.append_assoc]
    exact List.Perm.append_left _ List.perm_append_comm
  · refine ⟨[], ?_⟩
    rw [List.append_nil, List.set_eq_of_length_le beyond]

end Wheel

namespace TwoTier

variable
    {config : TimerConfig}
    {tiers : TwoTier α}
    {base position nowMs : Nat}
    {agenda : List (Task α)}

/-- Wheels that came to a stand hold nothing new. -/
theorem tasks_halted (tiers : TwoTier α) (nowMs : Nat) :
    ∃ lost, ((tiers.halted nowMs).tasks ++ lost).Perm tiers.tasks := by
  unfold halted
  split
  · next step advanced =>
    have near := Wheel.tasks_advance advanced
    obtain ⟨dropped, far⟩ := tiers.far.tasks_dropNext
    refine ⟨dropped ++ step.due, ?_⟩
    unfold tasks
    rw [← List.append_assoc, List.append_assoc step.wheel.tasks]
    refine List.perm_append_comm.trans ?_
    rw [← List.append_assoc]
    exact near.append far
  · exact ⟨[], by rw [List.append_nil]⟩

theorem exists_lost_settleWithin (nowMs turns : Nat) (tiers : TwoTier α) (due : List (Task α)) :
    ∃ lost,
      ((settleWithin nowMs turns tiers due).due ++
        (settleWithin nowMs turns tiers due).tiers.tasks ++ lost).Perm (due ++ tiers.tasks) := by
  induction turns generalizing tiers due with
  | zero => exact ⟨[], by rw [List.append_nil]; exact List.Perm.refl _⟩
  | succ turns ih =>
      unfold settleWithin
      split
      · obtain ⟨lost, kept⟩ := tiers.tasks_halted nowMs
        refine ⟨lost, ?_⟩
        rw [List.append_assoc]
        exact kept.append_left due
      · next step advanced =>
        have kept := tasks_advance advanced
        split
        · obtain ⟨lost, settled⟩ := ih step.tiers (due ++ step.due)
          refine ⟨lost, settled.trans ?_⟩
          rw [List.append_assoc]
          exact kept.append_left due
        · refine ⟨[], ?_⟩
          rw [List.append_nil, List.append_assoc]
          exact kept.append_left due

/-- Settling within enough turns hands out a stretch of slots that have ended, whether or not it
gets as far as the clock. -/
theorem Tracks.due_settleWithin
    (tracks : tiers.Tracks config base agenda)
    {turns : Nat}
    (ahead : base + tiers.near.current ≤ nowMs / config.tickMs)
    (due : List (Task α)) :
    ∃ past, base + tiers.near.current ≤ past ∧ past ≤ nowMs / config.tickMs ∧
      (TwoTier.settleWithin nowMs turns tiers due).due =
        due ++ stretch (Task.slot config.tickMs) (base + tiers.near.current) past agenda := by
  induction turns generalizing tiers base agenda due with
  | zero =>
      refine ⟨_, Nat.le_refl _, ahead, ?_⟩
      rw [stretch_self, List.append_nil]
      rfl
  | succ turns ih =>
      rcases Nat.lt_or_ge (nowMs / config.tickMs) (base + config.nearBuckets) with within | past
      · obtain ⟨next, advanced, _, _⟩ := tracks.advance_within ahead within
        refine ⟨_, ahead, Nat.le_refl _, ?_⟩
        simp only [TwoTier.settleWithin, advanced, Bool.false_eq_true, if_false]
      · have advanced := tracks.advance_past past
        split at advanced
        · obtain ⟨next, advanced, tracks', position⟩ := advanced
          have turned : base + tiers.near.current ≤ base + config.nearBuckets := by
            have current_lt := tracks.near.current_lt
            rw [tracks.nearCount] at current_lt
            omega
          have ahead' : base + config.nearBuckets + next.near.current ≤ nowMs / config.tickMs := by
            rw [position]
            exact past
          obtain ⟨reached, further, ended, handed⟩ := ih tracks' ahead'
            (due ++ stretch (Task.slot config.tickMs) (base + tiers.near.current)
              (base + config.nearBuckets) agenda)
          rw [position, Nat.add_zero] at further handed
          refine ⟨reached, Nat.le_trans turned further, ended, ?_⟩
          simp only [TwoTier.settleWithin, advanced, if_true]
          rw [handed, List.append_assoc, stretch_append_stretch agenda turned further]
        · refine ⟨_, Nat.le_refl _, ahead, ?_⟩
          simp only [TwoTier.settleWithin, advanced]
          rw [stretch_self, List.append_nil]

/-- What settling hands out is due, slot by slot, whether or not it gets as far as the clock. -/
theorem Stands.settle_due
    (stands : tiers.Stands config position agenda)
    (ahead : position ≤ nowMs / config.tickMs) :
    ∃ past, position ≤ past ∧ past ≤ nowMs / config.tickMs ∧
      (tiers.settle nowMs).due = stretch (Task.slot config.tickMs) position past agenda := by
  obtain ⟨base, tracks, rfl⟩ := stands
  exact tracks.due_settleWithin ahead []

end TwoTier

namespace Scheduler

/-- Settling makes nothing up and holds nothing twice, whether or not it gets as far as the
clock. -/
theorem exists_lost (timers : Scheduler α) (clockMs : Nat) :
    ∃ lost, ((timers.settle clockMs).held ++ lost).Perm timers.held := by
  unfold settle
  split
  · obtain ⟨lost, kept⟩ := TwoTier.exists_lost_settleWithin (timers.nowMs clockMs)
      (timers.nowMs clockMs - timers.tiers.near.startMs + 1) timers.tiers []
    refine ⟨lost, ?_⟩
    unfold held
    rw [List.append_assoc timers.fired, List.append_assoc timers.fired]
    exact kept.append_left timers.fired
  · exact ⟨[], by rw [List.append_nil]⟩

/-- Only turning wheels are settled, and they go on turning if they stay intact. -/
theorem isTicking_settle
    {timers : Scheduler α}
    {clockMs : Nat}
    (ticking : (timers.settle clockMs).isTicking = true) :
    timers.isTicking = true ∧ (timers.settle clockMs).intact = true := by
  have intact : (timers.settle clockMs).intact = true := by
    simp only [isTicking, Bool.and_eq_true] at ticking
    exact ticking.2
  refine ⟨?_, intact⟩
  unfold settle at ticking
  split at ticking
  · next turning => exact turning
  · exact ticking

end Scheduler

/-! ## Receiving, also when the next occurrence is refused -/

namespace Scheduler

variable {timers next : Scheduler α} {clockMs : Nat} {task again : Task α}

/-- The next occurrence of a task as it goes into the wheels, if they take it. -/
def renewed (timers : Scheduler α) (clockMs : Nat) (task : Task α) : Option (Task α) :=
  match task.nextOccurrence with
  | none => none
  | some occurrence =>
    match timers.place clockMs occurrence with
    | .ok _ => some { occurrence with fireAtMs := timers.nowMs clockMs + occurrence.delayMs }
    | .error _ => none

/-- The fired queue is no part of the wheels. -/
theorem place_queue
    (timers : Scheduler α)
    (clockMs : Nat)
    (task : Task α)
    (queue : List (Task α)) :
    { timers with fired := queue }.place clockMs task =
      (timers.place clockMs task).map fun placed => { placed with fired := queue } := by
  rw [place_eq, place_eq]
  dsimp only [nowMs]
  cases timers.running with
  | false => rfl
  | true =>
      cases timers.config.checkDelay task.delayMs with
      | error failure => rfl
      | ok _ =>
          cases Word.add (clockMs - timers.epochMs) task.delayMs with
          | error cause => rfl
          | ok fireAtMs =>
              dsimp only
              rcases timers.tiers.place { task with fireAtMs } with cause | _ | tiers
              · rfl
              · rfl
              · rfl

/-- What receiving a task does: it is the first one on the queue that is not cancelled, and its next
occurrence goes into the wheels unless they refuse it. -/
theorem receive_eq_some (received : timers.receive clockMs = .ok (some task, next)) :
    ∃ skipped rest,
      timers.fired = skipped ++ task :: rest ∧
      (∀ old ∈ skipped, timers.isCancelled old.handle = true) ∧
      timers.isCancelled task.handle = false ∧
      match timers.renewed clockMs task with
      | none => next = { timers with fired := rest }
      | some again =>
          (∃ period, task.period = some period ∧
            again = { task with delay := period, fireAtMs := timers.nowMs clockMs + period.ms }) ∧
          ∃ tiers, timers.tiers.place again = .ok (some tiers) ∧
            next = { timers with fired := rest, tiers } := by
  unfold receive at received
  split at received
  · cases received
  · next found rest first =>
    obtain ⟨after, renewal, received⟩ := bind_eq_ok_iff.mp received
    cases received
    obtain ⟨alive, skipped, queue, dead⟩ := firstLive_eq_some first
    refine ⟨skipped, rest, queue, dead, alive, ?_⟩
    unfold renew at renewal
    unfold renewed
    cases recurs : task.period with
    | none =>
        simp only [Task.nextOccurrence, recurs, Option.map_none] at renewal ⊢
        exact (Except.ok.inj renewal).symm
    | some period =>
        simp only [Task.nextOccurrence, recurs, Option.map_some, place_queue] at renewal ⊢
        cases placed : timers.place clockMs (Task.recurring task.handle period task.payload) with
        | error failure =>
            rw [placed] at renewal
            cases failure with
            | error cause => exact (Except.ok.inj renewal).symm
            | fault cause => cases renewal
        | ok placement =>
            rw [placed] at renewal
            obtain ⟨_, _, _, tiers, found, rfl⟩ := place_eq_ok_iff.mp placed
            obtain rfl := Except.ok.inj renewal
            exact ⟨⟨period, rfl, by simp [Task.recurring, Task.delayMs]⟩, tiers, found, rfl⟩

/-- Receiving nothing empties the queue. -/
theorem receive_eq_none (received : timers.receive clockMs = .ok (none, next)) :
    next = { timers with fired := [] } := by
  unfold receive at received
  split at received
  · exact (Prod.mk.inj (Except.ok.inj received)).2.symm
  · obtain ⟨_, _, received⟩ := bind_eq_ok_iff.mp received
    cases received

/-- If nothing is received, everything on the queue was cancelled. -/
theorem isCancelled_of_receive_none
    (received : timers.receive clockMs = .ok (none, next))
    (fired : task ∈ timers.fired) :
    timers.isCancelled task.handle = true := by
  unfold receive at received
  split at received
  · next none_left => exact firstLive_eq_none none_left task fired
  · obtain ⟨_, _, received⟩ := bind_eq_ok_iff.mp received
    cases received

/-- What is held after a task was received: less what was skipped and the task, and with its next
occurrence. -/
theorem held_receive (received : timers.receive clockMs = .ok (some task, next)) :
    ∃ skipped,
      (∀ old ∈ skipped, timers.isCancelled old.handle = true) ∧
      (next.held ++ (skipped ++ [task])).Perm
        (timers.held ++ (timers.renewed clockMs task).toList) := by
  obtain ⟨skipped, rest, queue, dead, _, renewal⟩ := receive_eq_some received
  refine ⟨skipped, dead, ?_⟩
  have taken : (rest ++ timers.tiers.tasks ++ (skipped ++ [task])).Perm timers.held := by
    refine List.perm_append_comm.trans ?_
    unfold held
    rw [queue, List.append_assoc, List.append_assoc, List.singleton_append, List.cons_append]
  cases renewed : timers.renewed clockMs task with
  | none =>
      rw [renewed] at renewal
      subst renewal
      rw [Option.toList_none, List.append_nil]
      exact taken
  | some again =>
      rw [renewed] at renewal
      obtain ⟨_, tiers, placed, rfl⟩ := renewal
      have added : (rest ++ tiers.tasks).Perm (rest ++ timers.tiers.tasks ++ [again]) := by
        rw [List.append_assoc]
        exact (TwoTier.tasks_place placed).append_left rest
      refine (added.append_right _).trans ?_
      rw [List.append_assoc]
      refine (List.perm_append_comm.append_left _).trans ?_
      rw [← List.append_assoc]
      exact taken.append_right _

/-- Receiving a task gives out and cancels no handle, and nothing new is held afterwards but the next
occurrence of the task. -/
theorem held_of_receive (received : timers.receive clockMs = .ok (some task, next)) :
    next.issued = timers.issued ∧ next.cancelled = timers.cancelled ∧ task ∈ timers.held ∧
      ∀ other ∈ next.held,
        ∃ old ∈ timers.held, old.handle = other.handle ∧ old.payload = other.payload := by
  obtain ⟨skipped, rest, queue, _, _, renewal⟩ := receive_eq_some received
  obtain ⟨_, _, kept⟩ := held_receive received
  have here : task ∈ timers.held := by
    unfold held
    rw [queue]
    exact List.mem_append_left _ (List.mem_append_right _ List.mem_cons_self)
  cases renewed : timers.renewed clockMs task with
  | none =>
      rw [renewed] at renewal kept
      rw [Option.toList_none, List.append_nil] at kept
      subst renewal
      refine ⟨rfl, rfl, here, fun other listed => ⟨other, ?_, rfl, rfl⟩⟩
      exact kept.mem_iff.mp (List.mem_append_left _ listed)
  | some again =>
      rw [renewed] at renewal kept
      obtain ⟨⟨_, _, rfl⟩, _, _, rfl⟩ := renewal
      refine ⟨rfl, rfl, here, fun other listed => ?_⟩
      rcases List.mem_append.mp (kept.mem_iff.mp (List.mem_append_left _ listed)) with old | new
      · exact ⟨other, old, rfl, rfl⟩
      · obtain rfl := List.mem_singleton.mp new
        exact ⟨task, here, rfl, rfl⟩

/-- A task that is received was held, and whatever is held afterwards carries what was held
before. -/
theorem payload_of_receive (received : timers.receive clockMs = .ok (some task, next)) :
    task ∈ timers.held ∧
      ∀ other ∈ next.held, ∃ old ∈ timers.held, old.payload = other.payload := by
  obtain ⟨_, _, here, kept⟩ := held_of_receive received
  refine ⟨here, fun other listed => ?_⟩
  obtain ⟨old, held, _, same⟩ := kept other listed
  exact ⟨old, held, same⟩

/-- Holding less leaves the handles distinct. -/
theorem Sound.of_lost
    (sound : timers.Sound)
    {lost : List (Task α)}
    (kept : (next.held ++ lost).Perm timers.held)
    (issued : next.issued = timers.issued)
    (cancelled : next.cancelled = timers.cancelled) :
    next.Sound where
  distinct := by
    have distinct := (kept.map Task.handle).nodup_iff.mpr sound.distinct
    rw [List.map_append] at distinct
    exact (List.nodup_append.mp distinct).1
  issued := by
    intro task listed
    rw [issued]
    exact sound.issued task (kept.mem_iff.mp (List.mem_append_left _ listed))
  cancelled := by
    rw [issued, cancelled]
    exact sound.cancelled

/-- Receiving a task keeps the handles distinct, whether or not its next occurrence is refused. -/
theorem Sound.receive
    (sound : timers.Sound)
    (received : timers.receive clockMs = .ok (some task, next)) :
    next.Sound := by
  obtain ⟨skipped, _, kept⟩ := held_receive received
  obtain ⟨_, rest, _, _, _, renewal⟩ := receive_eq_some received
  cases renewed : timers.renewed clockMs task with
  | none =>
      rw [renewed] at renewal kept
      rw [Option.toList_none, List.append_nil] at kept
      subst renewal
      exact sound.of_lost kept rfl rfl
  | some again =>
      -- The wheels took the next occurrence, so that the consumer took the task as usual.
      refine (sound.delivers ⟨received, ?_⟩).1
      intro occurrence recurs
      unfold Scheduler.renewed at renewed
      rw [recurs] at renewed
      dsimp only at renewed
      split at renewed
      · next placed found => exact ⟨placed, found⟩
      · cases renewed

end Scheduler

end Quorum
