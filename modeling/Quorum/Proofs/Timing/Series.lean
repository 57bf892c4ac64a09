import Quorum.Proofs.Timing.Truthful

/-!
# A recurring series

The next occurrence of a recurring task is put into the wheels by the consumer, at the moment it
receives the present one.  However settlings, receptions and cancellations come together, and
however late the consumer is, a series that was not cancelled goes on with one occurrence, and with
one only (`Journal.series_goes_on`): it is in the wheels or on the fired queue, and two receptions
are more than the period apart.

The wheels may refuse an occurrence that does not fit, and the series ends there; `History.Renews`
says that this did not happen.
-/

namespace Quorum

variable {α : Type}

/-- Whether a task was received under the handle in this step. -/
def Note.isReceipt (handle : Handle) : Note α → Bool
  | scheduled _ => false
  | cancelled _ => false
  | received task _ => decide (task.handle = handle)

namespace History

variable {history : History α} {atMs : Nat} {handle : Handle}

/-- When an occurrence under the handle was received, the latest first. -/
def occasions (history : History α) (handle : Handle) : List Nat :=
  (history.filter fun entry => entry.2.isReceipt handle).map Prod.fst

/-- Whenever a recurring task under the handle was received, the wheels took its next
occurrence. -/
def Renews (history : History α) (handle : Handle) : Prop :=
  ∀ atMs task again, (atMs, .received task again) ∈ history →
    task.handle = handle → task.isRecurring = true → again.isSome = true

theorem mem_occasions :
    atMs ∈ history.occasions handle ↔
      ∃ task again, (atMs, .received task again) ∈ history ∧ task.handle = handle := by
  unfold occasions
  rw [List.mem_map]
  constructor
  · rintro ⟨⟨_, written⟩, listed, rfl⟩
    obtain ⟨listed, receipt⟩ := List.mem_filter.mp listed
    cases written with
    | received task again => exact ⟨task, again, listed, of_decide_eq_true receipt⟩
    | scheduled _ => cases receipt
    | cancelled _ => cases receipt
  · rintro ⟨task, again, listed, named⟩
    exact ⟨_, List.mem_filter.mpr ⟨listed, decide_eq_true named⟩, rfl⟩

theorem occasions_eq_nil_iff :
    history.occasions handle = [] ↔
      ∀ atMs task again, (atMs, .received task again) ∈ history → task.handle ≠ handle := by
  rw [List.eq_nil_iff_forall_not_mem]
  constructor
  · intro none atMs task again listed named
    exact none atMs (mem_occasions.mpr ⟨task, again, listed, named⟩)
  · intro others atMs listed
    obtain ⟨task, again, among, named⟩ := mem_occasions.mp listed
    exact others atMs task again among named

theorem occasions_noted_of_received
    {task : Task α}
    (named : task.handle = handle)
    (clockMs : Nat)
    (again : Option (Task α)) :
    (history.noted clockMs (some (.received task again))).occasions handle =
      clockMs :: history.occasions handle := by
  simp [noted, occasions, Note.isReceipt, named]

theorem occasions_noted_of_others
    {note : Option (Note α)}
    (clockMs : Nat)
    (others : ∀ task again, note = some (.received task again) → task.handle ≠ handle) :
    (history.noted clockMs note).occasions handle = history.occasions handle := by
  cases note with
  | none => rfl
  | some written =>
      have unnoticed : written.isReceipt handle = false := by
        cases written with
        | received task again => exact decide_eq_false (others task again rfl)
        | scheduled _ => rfl
        | cancelled _ => rfl
      simp [noted, occasions, unnoticed]

theorem Renews.of_noted
    {clockMs : Nat}
    {note : Option (Note α)}
    (renews : (history.noted clockMs note).Renews handle) :
    history.Renews handle :=
  fun atMs task again listed => renews atMs task again (mem_noted.mpr (.inl listed))

end History

namespace Scheduler

variable
    {mayPass : Scheduler α → Nat → Prop}
    {config : TimerConfig}
    {epochMs clockMs : Nat}
    {timers next : Scheduler α}
    {note : Option (Note α)}
    {history : History α}
    {task other again : Task α}
    {handle : Handle}

/-- Tasks under one handle recur all of them, or none. -/
theorem Roster.isRecurring_eq
    {appointed : List (Task α)}
    (roster : timers.Roster appointed)
    (listed : task ∈ appointed)
    (among : other ∈ appointed)
    (same : other.handle = task.handle) :
    other.isRecurring = task.isRecurring ∧ other.delayMs = task.delayMs := by
  rw [roster.alike task listed other among same]
  exact ⟨rfl, rfl⟩

/-- When a recurring task is received, its next occurrence is held under its handle. -/
theorem Truthful.renewal_held
    (truthful : Truthful config epochMs history timers clockMs)
    (taken : timers.receive clockMs = .ok (some task, next))
    (renewed : timers.renewed clockMs task = some again) :
    again ∈ next.held ∧ again.handle = task.handle := by
  refine ⟨(Step.received taken).enters rfl renewed, ?_⟩
  rw [(truthful.roster.renewed truthful.steady taken renewed).1]

namespace Journal

/-- As long as the wheels turn and nobody cancels the handle, an occurrence is held. -/
theorem exists_occurrence
    (journal : Journal mayPass config epochMs history timers clockMs)
    (listed : task ∈ history.appointed)
    (recurs : task.isRecurring = true)
    (renews : history.Renews task.handle)
    (ticking : timers.isTicking = true)
    (alive : timers.isCancelled task.handle = false) :
    ∃ occurrence ∈ timers.held, occurrence.handle = task.handle := by
  induction journal with
  | begun made => cases listed
  | elapsed _ _ _ ih => exact ih listed renews ticking alive
  | @stepped history timers next clockMs note journal step ih =>
      have alive' : timers.isCancelled task.handle = false := by
        rw [Bool.eq_false_iff, ne_eq, step.cancelled_iff] at alive
        exact Bool.eq_false_iff.mpr fun dead => alive (.inl dead)
      by_cases old : task ∈ history.appointed
      · obtain ⟨occurrence, held, named⟩ := ih old renews.of_noted (step.isTicking ticking) alive'
        by_cases taking : ∃ again, note = some (.received occurrence again)
        · -- The occurrence is received, and the next one takes its place.
          obtain ⟨again, rfl⟩ := taking
          have kin := (journal.truthful.roster.isRecurring_eq old
            (journal.truthful.roster.held occurrence held) named).1
          have goes := renews clockMs occurrence again
            (History.mem_noted.mpr (.inr ⟨_, rfl, rfl⟩)) named (kin.trans recurs)
          obtain ⟨renewal, rfl⟩ := Option.isSome_iff_exists.mp goes
          generalize writes : some (Note.received occurrence (some renewal)) = written at step
          cases step with
          | received taken =>
              obtain ⟨rfl, renewed⟩ := Note.received.inj (Option.some.inj writes)
              obtain ⟨enters, same⟩ := journal.truthful.renewal_held taken renewed.symm
              exact ⟨renewal, enters, same.trans named⟩
          | _ => cases writes
        · exact ⟨occurrence, step.stays held (named ▸ alive')
            (fun again same => taking ⟨again, same⟩) ticking, named⟩
      · obtain ⟨atMs, written, among, appoints⟩ := History.mem_appointed.mp listed
        rcases History.mem_noted.mp among with before | ⟨_, writes, same⟩
        · exact absurd (History.mem_appointed.mpr ⟨atMs, written, before, appoints⟩) old
        · cases same
          exact ⟨task, step.enters writes appoints, rfl⟩

/-- Two receptions of one series are more than the period apart. -/
theorem pairwise_occasions
    (journal : Journal mayPass config epochMs history timers clockMs)
    {delayMs : Nat}
    (recur : ∀ task ∈ history.appointed, task.handle = handle →
      task.isRecurring = true ∧ task.delayMs = delayMs)
    (renews : history.Renews handle) :
    (history.occasions handle).Pairwise fun later earlier => earlier + delayMs < later := by
  induction journal with
  | begun made => exact List.Pairwise.nil
  | elapsed _ _ _ ih => exact ih recur renews
  | @stepped history timers next clockMs note journal step ih =>
      have before := ih (fun task listed => recur task (History.appointed_subset_noted listed))
        renews.of_noted
      by_cases receiving : ∃ task again, note = some (.received task again) ∧ task.handle = handle
      · obtain ⟨task, again, rfl, named⟩ := receiving
        rw [History.occasions_noted_of_received named]
        refine List.pairwise_cons.mpr ⟨?_, before⟩
        intro atMs earlier
        obtain ⟨prior, after, listed, same⟩ := History.mem_occasions.mp earlier
        have truthful := journal.truthful
        have known := truthful.received atMs prior after listed
        obtain ⟨recurs, delay⟩ := recur prior (History.appointed_subset_noted known) same
        -- The earlier occurrence was renewed, and of its series the one received now is the latest.
        obtain ⟨renewal, rfl⟩ :=
          Option.isSome_iff_exists.mp (renews.of_noted atMs prior after listed same recurs)
        obtain ⟨begun, _, _, placed⟩ := truthful.entries atMs _ listed
        have entered : renewal ∈ history.appointed :=
          History.mem_appointed.mpr ⟨atMs, _, listed, rfl⟩
        obtain rfl := placed renewal rfl
        cases step with
        | received taken =>
            have fired := (truthful.fired_mem taken).1
            have latest := truthful.roster.latest task (List.mem_append_left _ fired) _ entered
              (same.trans named.symm)
            have late := truthful.steady.fireAtMs_lt fired
            dsimp only at latest
            omega
      · rw [History.occasions_noted_of_others]
        · exact before
        · exact fun task again writes named => receiving ⟨task, again, writes, named⟩

end Journal

/-- A recurring series that goes on. -/
structure Series (history : History α) (timers : Scheduler α) (task : Task α) : Prop where
  /-- Of a series that was not cancelled there is one occurrence in the wheels or on the fired
  queue, and it only differs in its fire time from the others. -/
  single : timers.isTicking = true → (∀ atMs, (atMs, .cancelled task.handle) ∉ history) →
    ∃ occurrence, timers.held.filter (fun other => decide (other.handle = task.handle)) =
        [occurrence] ∧
      occurrence = { task with fireAtMs := occurrence.fireAtMs }
  /-- Two occurrences are received more than one period apart. -/
  apart : (history.occasions task.handle).Pairwise fun later earlier =>
    earlier + task.delayMs < later
  /-- No occurrence is received after the handle was cancelled. -/
  silenced : ∀ (later earlier : History α) (atMs : Nat),
    history = later ++ (atMs, .cancelled task.handle) :: earlier →
      later.occasions task.handle = []

/-- A held task is the only one under its handle. -/
theorem Sound.filter_held
    (sound : timers.Sound)
    (held : task ∈ timers.held) :
    timers.held.filter (fun other => decide (other.handle = task.handle)) = [task] := by
  have distinct := sound.distinct
  obtain ⟨front, back, split⟩ := List.append_of_mem held
  rw [split] at distinct ⊢
  rw [List.map_append, List.map_cons] at distinct
  obtain ⟨_, behind, apart⟩ := List.nodup_append.mp distinct
  have none_in_front : front.filter (fun other => decide (other.handle = task.handle)) = [] := by
    refine List.filter_eq_nil_iff.mpr fun other among same => ?_
    exact apart _ (List.mem_map_of_mem among) _ List.mem_cons_self (of_decide_eq_true same)
  have none_behind : back.filter (fun other => decide (other.handle = task.handle)) = [] := by
    refine List.filter_eq_nil_iff.mpr fun other among same => ?_
    have listed := List.mem_map_of_mem (f := Task.handle) among
    rw [of_decide_eq_true same] at listed
    exact (List.nodup_cons.mp behind).1 listed
  rw [List.filter_append, none_in_front, List.nil_append, List.filter_cons,
    if_pos (decide_eq_true rfl), none_behind]

/-- A recurring series never dies and never doubles, whatever the clock does and whenever the
consumer receives, as long as the wheels turn and take the occurrences. -/
theorem Journal.series_goes_on
    (journal : Journal mayPass config epochMs history timers clockMs)
    (listed : task ∈ history.appointed)
    (recurs : task.isRecurring = true)
    (renews : history.Renews task.handle) :
    Series history timers task where
  single := by
    intro ticking uncancelled
    have truthful := journal.truthful
    have alive : timers.isCancelled task.handle = false := by
      rw [Bool.eq_false_iff, ne_eq, truthful.cancelled]
      exact fun ⟨atMs, entry⟩ => uncancelled atMs entry
    obtain ⟨occurrence, held, named⟩ :=
      journal.exists_occurrence listed recurs renews ticking alive
    refine ⟨occurrence, ?_, ?_⟩
    · rw [← named]
      exact truthful.steady.sound.filter_held held
    · exact truthful.roster.alike task listed occurrence
        (truthful.roster.held occurrence held) named
  apart := by
    refine journal.pairwise_occasions (fun other among same => ?_) renews
    obtain ⟨recurring, delay⟩ := journal.truthful.roster.isRecurring_eq listed among same
    exact ⟨recurring.trans recurs, delay⟩
  silenced := by
    intro later earlier atMs split
    exact History.occasions_eq_nil_iff.mpr (journal.unreceived_of_cancelled split)

namespace Drum

/-! ### A late consumer

A beat of twelve milliseconds, whose wheels are settled late twice.  Each time the next occurrence
counts from the instant at which the consumer receives the present one. -/

def fresh : Scheduler String where
  config := ⟨10, 2, 3⟩
  epochMs := 100
  tiers := ⟨⟨10, [[], []], 0, 0⟩, ⟨20, [[], [], []], 20, 0⟩⟩
  fired := []
  cancelled := {}
  issued := 0
  running := true
  attended := true
  intact := true

def beat (fireAtMs : Nat) : Task String :=
  ⟨⟨0⟩, Delay.ofMs 12, some (Delay.ofMs 12), fireAtMs, "beat"⟩

def notes : History String :=
  [(190, .received (beat 62) (some (beat 102))), (150, .received (beat 17) (some (beat 62))),
    (105, .scheduled (beat 17))]

/-- The scheduler after the second reception. -/
def last : Scheduler String :=
  { fresh with
    tiers := ⟨⟨10, [[], []], 80, 1⟩, ⟨20, [[], [beat 102], []], 100, 1⟩⟩
    issued := 1 }

theorem journal : Journal (fun _ _ => True) ⟨10, 2, 3⟩ 100 notes last 190 := by
  have begun : Journal (fun _ _ => True) ⟨10, 2, 3⟩ 100 [] fresh 100 := .begun rfl
  have scheduled := (begun.elapsed (show 100 ≤ 105 by decide) trivial).stepped
    (.scheduled (show fresh.schedule 105 (Delay.ofMs 12) true "beat" = .ok (⟨0⟩, _) from rfl))
  have late := (scheduled.elapsed (show 105 ≤ 150 by decide) trivial).stepped .settled
  have once := late.stepped
    (.received (show Scheduler.receive _ 150 = .ok (some (beat 17), _) from rfl))
  have later := (once.elapsed (show 150 ≤ 190 by decide) trivial).stepped .settled
  exact later.stepped
    (.received (show Scheduler.receive _ 190 = .ok (some (beat 62), last) from rfl))

theorem renews : notes.Renews ⟨0⟩ := by
  intro atMs task again listed _ _
  simp only [notes, List.mem_cons, Prod.mk.injEq, Note.received.injEq, reduceCtorEq,
    List.not_mem_nil, and_false, or_false] at listed
  rcases listed with ⟨_, _, rfl⟩ | ⟨_, _, rfl⟩
  · rfl
  · rfl

end Drum

/-- After two late receptions one occurrence is held, and the receptions are forty milliseconds
apart. -/
theorem Journal.series_goes_on_drum :
    Drum.notes.occasions ⟨0⟩ = [190, 150] ∧ Series Drum.notes Drum.last (Drum.beat 17) :=
  ⟨by decide, Drum.journal.series_goes_on (by decide) rfl Drum.renews⟩

end Scheduler

end Quorum
