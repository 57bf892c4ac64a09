import Quorum.Proofs.Timing.Ring

/-!
# One wheel around its ring

A far wheel that is used by itself is offered tasks with any fire time, and asked for its next bucket
again and again.  Its window slides by one bucket each time, and the bucket that has just been taken
stands for the last tick of the window from then on.

`Orbit` is a run of such a wheel.  However often the ring has come round, a bucket that is taken
holds the tasks of its own tick and no others (`Orbit.hands_out_own_tick`).
-/

namespace Quorum.Wheel

open Agenda

variable {α : Type}

/-- The tasks that fire within some time from an instant on, in their order. -/
def window (beginMs widthMs : Nat) (tasks : List (Task α)) : List (Task α) :=
  tasks.filter fun task => beginMs ≤ task.fireAtMs ∧ task.fireAtMs < beginMs + widthMs

/-- The tasks that do not fire before an instant, in their order. -/
def notBefore (beginMs : Nat) (tasks : List (Task α)) : List (Task α) :=
  tasks.filter fun task => beginMs ≤ task.fireAtMs

/-- A far wheel after some uses, beginning with a fresh one: the tasks that it took in, and the
buckets that were taken out of it, each with the beginning of the window at that time. -/
inductive Orbit (tickMs bucketCount startMs : Nat) :
    Wheel α → List (Task α) → List (Nat × List (Task α)) → Prop where
  | begun
      {wheel : Wheel α}
      (made : ofDimensions tickMs bucketCount startMs = .ok wheel) :
      Orbit tickMs bucketCount startMs wheel [] []
  | placed
      {wheel next : Wheel α} {tasks : List (Task α)} {taken : List (Nat × List (Task α))}
      {task : Task α}
      (orbit : Orbit tickMs bucketCount startMs wheel tasks taken)
      (offered : wheel.insertFar task = .ok (.placed next)) :
      Orbit tickMs bucketCount startMs next (tasks ++ [task]) taken
  /-- A task outside of the window leaves the wheel as it was. -/
  | declined
      {wheel : Wheel α} {tasks : List (Task α)} {taken : List (Nat × List (Task α))}
      {task : Task α}
      (orbit : Orbit tickMs bucketCount startMs wheel tasks taken)
      (offered : wheel.insertFar task = .ok .behind ∨ wheel.insertFar task = .ok .beyond) :
      Orbit tickMs bucketCount startMs wheel tasks taken
  | taken
      {wheel next : Wheel α} {tasks bucket : List (Task α)} {taken : List (Nat × List (Task α))}
      (orbit : Orbit tickMs bucketCount startMs wheel tasks taken)
      (took : wheel.takeNext = .ok (bucket, next)) :
      Orbit tickMs bucketCount startMs next tasks (taken ++ [(wheel.startMs, bucket)])

variable
    {wheel next : Wheel α}
    {tasks bucket : List (Task α)}
    {taken : List (Nat × List (Task α))}
    {task : Task α}
    {tickMs bucketCount startMs : Nat}

/-! ## Single steps -/

theorem window_append_singleton
    {beginMs widthMs : Nat}
    (behind : beginMs + widthMs ≤ task.fireAtMs) :
    window beginMs widthMs (tasks ++ [task]) = window beginMs widthMs tasks := by
  have outside : window beginMs widthMs [task] = [] := by
    apply List.filter_eq_nil_iff.mpr
    intro other listed
    obtain rfl := List.mem_singleton.mp listed
    rw [decide_eq_true_eq]
    omega
  have split : window beginMs widthMs (tasks ++ [task]) =
      window beginMs widthMs tasks ++ window beginMs widthMs [task] := List.filter_append ..
  rw [split, outside, List.append_nil]

theorem notBefore_append_singleton
    {beginMs : Nat}
    (started : beginMs ≤ task.fireAtMs) :
    notBefore beginMs (tasks ++ [task]) = notBefore beginMs tasks ++ [task] := by
  simp [notBefore, started]

/-- The first bucket stands for the first tick of the window. -/
theorem only_notBefore (ticking : 0 < wheel.tickMs) (tasks : List (Task α)) :
    only wheel.offset 0 (notBefore wheel.startMs tasks) =
      window wheel.startMs wheel.tickMs tasks := by
  unfold only notBefore window
  rw [List.filter_filter]
  apply List.filter_congr
  intro task _
  by_cases started : wheel.startMs ≤ task.fireAtMs
  · have first := offset_lt_iff ticking started 1
    rw [Nat.lt_one_iff, Nat.mul_one] at first
    simp [started, first]
  · simp [started]

theorem onward_notBefore (ticking : 0 < wheel.tickMs) (tasks : List (Task α)) :
    onward wheel.offset 1 (notBefore wheel.startMs tasks) =
      notBefore (wheel.startMs + wheel.tickMs) tasks := by
  unfold onward notBefore
  rw [List.filter_filter]
  apply List.filter_congr
  intro task _
  rw [← Bool.decide_and, decide_eq_decide]
  by_cases started : wheel.startMs ≤ task.fireAtMs
  · have later := le_offset_iff ticking started 1
    rw [Nat.mul_one] at later
    rw [later]
    exact and_iff_left started
  · exact ⟨fun both => (started both.2).elim, fun later => by omega⟩

/-- As long as the end of the window fits into a word, the wheel tells for every task on which side
of the window it is, or takes it in. -/
theorem Circles.insertFar_answers
    (circles : wheel.Circles tasks)
    (fits : wheel.pastMs < Word.limit)
    (task : Task α) :
    (wheel.insertFar task = .ok .beyond ↔ wheel.pastMs ≤ task.fireAtMs) ∧
      (wheel.insertFar task = .ok .behind ↔ task.fireAtMs < wheel.startMs) ∧
      (wheel.startMs ≤ task.fireAtMs → task.fireAtMs < wheel.pastMs →
        wheel.insertFar task = .ok (.placed (wheel.place (wheel.ringIndex task) task))) := by
  have ordered : wheel.startMs ≤ wheel.pastMs := Nat.le_add_right _ _
  rw [circles.insertFar_eq, if_pos fits]
  by_cases beyond : wheel.pastMs ≤ task.fireAtMs
  · have notBehind : ¬ task.fireAtMs < wheel.startMs := by omega
    simp [beyond, notBehind]
  · by_cases behind : task.fireAtMs < wheel.startMs
    · simp [beyond, behind]
    · simp [beyond, behind]

theorem Circles.placed
    (circles : wheel.Circles tasks)
    (offered : wheel.insertFar task = .ok (.placed next)) :
    wheel.startMs ≤ task.fireAtMs ∧ task.fireAtMs < wheel.pastMs ∧
      next = wheel.place (wheel.ringIndex task) task := by
  rw [circles.insertFar_eq] at offered
  split at offered
  · have answer := Except.ok.inj offered
    split at answer
    · cases answer
    · next before =>
      split at answer
      · cases answer
      · next started =>
        cases answer
        exact ⟨Nat.not_lt.mp started, Nat.not_le.mp before, rfl⟩
  · cases offered

/-! ## Every run -/

/-- The invariant of a run.  The wheel holds the tasks from the beginning of its window on, and each
bucket taken out of it was the content of its own tick, which lies behind the window now. -/
structure Revolves
    (wheel : Wheel α)
    (tickMs startMs : Nat)
    (tasks : List (Task α))
    (taken : List (Nat × List (Task α))) : Prop where
  tickMs_eq : wheel.tickMs = tickMs
  circles : wheel.Circles (notBefore wheel.startMs tasks)
  slid : wheel.startMs = startMs + tickMs * taken.length
  begins : taken.map Prod.fst = (List.range taken.length).map fun turn => startMs + tickMs * turn
  passed : ∀ entry ∈ taken, entry.1 + tickMs ≤ wheel.startMs
  own : ∀ entry ∈ taken, entry.2 = window entry.1 tickMs tasks

namespace Revolves

theorem placed
    (revolves : wheel.Revolves tickMs startMs tasks taken)
    (offered : wheel.insertFar task = .ok (.placed next)) :
    next.Revolves tickMs startMs (tasks ++ [task]) taken := by
  obtain ⟨started, within, rfl⟩ := revolves.circles.placed offered
  exact { revolves with
    circles := by
      have circles := revolves.circles.place started within
      rw [← notBefore_append_singleton started] at circles
      exact circles
    own := by
      intro entry listed
      rw [window_append_singleton (Nat.le_trans (revolves.passed entry listed) started)]
      exact revolves.own entry listed }

/-- The next bucket is the content of the first tick of the window. -/
theorem takeNext_eq (revolves : wheel.Revolves tickMs startMs tasks taken) :
    wheel.takeNext =
      if wheel.startMs + tickMs < Word.limit then
        .ok (window wheel.startMs tickMs tasks, wheel.slid)
      else .error .overflow := by
  rw [revolves.circles.takeNext_eq, only_notBefore revolves.circles.ticking, revolves.tickMs_eq]

theorem slides
    (revolves : wheel.Revolves tickMs startMs tasks taken)
    (took : wheel.takeNext = .ok (bucket, next)) :
    next.Revolves tickMs startMs tasks (taken ++ [(wheel.startMs, bucket)]) := by
  rw [revolves.takeNext_eq] at took
  split at took
  · cases took
    have moved : wheel.slid.startMs = wheel.startMs + tickMs := by
      rw [← revolves.tickMs_eq]
      rfl
    have circles := revolves.circles.slid.2
    rw [onward_notBefore revolves.circles.ticking] at circles
    exact {
      tickMs_eq := revolves.tickMs_eq
      circles
      slid := by
        rw [moved, revolves.slid, List.length_append, List.length_singleton, Nat.mul_succ,
          Nat.add_assoc]
      begins := by
        rw [List.map_append, revolves.begins, List.length_append, List.length_singleton,
          List.range_succ, List.map_append, revolves.slid]
        rfl
      passed := by
        rw [moved]
        refine List.forall_mem_append.mpr ⟨fun entry listed => ?_, ?_⟩
        · exact Nat.le_add_right_of_le (revolves.passed entry listed)
        · exact List.forall_mem_singleton.mpr (Nat.le_refl _)
      own := List.forall_mem_append.mpr ⟨revolves.own, List.forall_mem_singleton.mpr rfl⟩ }
  · cases took

end Revolves

namespace Orbit

theorem revolves
    (orbit : Orbit tickMs bucketCount startMs wheel tasks taken)
    (ticking : 0 < tickMs)
    (counted : 0 < bucketCount) :
    wheel.Revolves tickMs startMs tasks taken := by
  induction orbit with
  | begun made =>
    obtain rfl := ofDimensions_eq made
    exact {
      tickMs_eq := rfl
      circles := circles_fresh ticking counted
      slid := rfl
      begins := rfl
      passed := List.forall_mem_nil _
      own := List.forall_mem_nil _ }
  | placed _ offered ih => exact ih.placed offered
  | declined _ _ ih => exact ih
  | taken _ took ih => exact ih.slides took

/-- However a far wheel is used, it declines exactly the tasks behind its window and those beyond
it, and takes the others in.  The windows of the buckets that are taken out of it follow each other
without a gap, and each of these buckets is what fires in its own tick, among all that the wheel took
in during the whole run. -/
theorem hands_out_own_tick
    (orbit : Orbit tickMs bucketCount startMs wheel tasks taken)
    (ticking : 0 < tickMs)
    (counted : 0 < bucketCount) :
    (∀ endMs, wheel.endMs = .ok endMs → ∀ task,
      (wheel.insertFar task = .ok .beyond ↔ endMs ≤ task.fireAtMs) ∧
      (wheel.insertFar task = .ok .behind ↔ task.fireAtMs < wheel.startMs) ∧
      (wheel.startMs ≤ task.fireAtMs → task.fireAtMs < endMs →
        ∃ next, wheel.insertFar task = .ok (.placed next) ∧ next.startMs = wheel.startMs)) ∧
      (wheel.startMs + tickMs < Word.limit →
        ∃ next, wheel.takeNext = .ok (window wheel.startMs tickMs tasks, next) ∧
          next.startMs = wheel.startMs + tickMs) ∧
      wheel.startMs = startMs + tickMs * taken.length ∧
      taken.map Prod.fst = (List.range taken.length).map (fun turn => startMs + tickMs * turn) ∧
      ∀ beginMs bucket, (beginMs, bucket) ∈ taken → bucket = window beginMs tickMs tasks := by
  have revolves := orbit.revolves ticking counted
  refine ⟨?_, fun fits => ?_, revolves.slid, revolves.begins, fun _ _ => revolves.own _⟩
  · intro endMs ends task
    obtain ⟨fits, rfl⟩ := endMs_eq_ok_iff.mp ends
    obtain ⟨beyond, behind, placed⟩ := revolves.circles.insertFar_answers fits task
    exact ⟨beyond, behind, fun started within => ⟨_, placed started within, rfl⟩⟩
  · rw [revolves.takeNext_eq, if_pos fits]
    refine ⟨_, rfl, ?_⟩
    rw [← revolves.tickMs_eq]
    rfl

end Orbit

/-! ### A ring that has come round

Three buckets of forty milliseconds each.  Once the first one has been taken, it stands for the time
from 160 on.  Two tasks go into it then, with one between them that comes out before them. -/

namespace Roundabout

def first : Task String := ⟨⟨0⟩, Delay.ofMs 10, none, 50, "first"⟩

def second : Task String := ⟨⟨1⟩, Delay.ofMs 90, none, 170, "second"⟩

def third : Task String := ⟨⟨2⟩, Delay.ofMs 10, none, 90, "third"⟩

def fourth : Task String := ⟨⟨3⟩, Delay.ofMs 80, none, 160, "fourth"⟩

def late : Task String := ⟨⟨4⟩, Delay.ofMs 1, none, 79, "late"⟩

def distant : Task String := ⟨⟨5⟩, Delay.ofMs 120, none, 200, "distant"⟩

/-- The wheel before the first bucket is taken a second time. -/
def ring : Wheel String := ⟨40, [[second, fourth], [], []], 160, 0⟩

theorem orbit :
    Orbit 40 3 40 ring [first, second, third, fourth] [(40, [first]), (80, [third]), (120, [])] := by
  have begun : Orbit 40 3 40 (⟨40, [[], [], []], 40, 0⟩ : Wheel String) [] [] := .begun rfl
  have filled := begun.placed (show Wheel.insertFar _ first =
    .ok (.placed ⟨40, [[first], [], []], 40, 0⟩) from rfl)
  have moved := filled.taken (show Wheel.takeNext _ =
    .ok ([first], ⟨40, [[], [], []], 80, 1⟩) from rfl)
  have wrapped := moved.placed (show Wheel.insertFar _ second =
    .ok (.placed ⟨40, [[second], [], []], 80, 1⟩) from rfl)
  have between := wrapped.placed (show Wheel.insertFar _ third =
    .ok (.placed ⟨40, [[second], [third], []], 80, 1⟩) from rfl)
  have again := between.placed (show Wheel.insertFar _ fourth =
    .ok (.placed ⟨40, [[second, fourth], [third], []], 80, 1⟩) from rfl)
  have declined := (again.declined (.inl (show Wheel.insertFar _ late = _ from rfl))).declined
    (.inr (show Wheel.insertFar _ distant = _ from rfl))
  have passed := declined.taken (show Wheel.takeNext _ =
    .ok ([third], ⟨40, [[second, fourth], [], []], 120, 2⟩) from rfl)
  exact passed.taken (show Wheel.takeNext _ = .ok ([], ring) from rfl)

end Roundabout

theorem Orbit.hands_out_own_tick_roundabout :
    Orbit 40 3 40 Roundabout.ring
        [Roundabout.first, Roundabout.second, Roundabout.third, Roundabout.fourth]
        [(40, [Roundabout.first]), (80, [Roundabout.third]), (120, [])] ∧
      (∃ next, Roundabout.ring.takeNext =
          .ok ([Roundabout.second, Roundabout.fourth], next) ∧ next.startMs = 200) ∧
      Roundabout.ring.insertFar Roundabout.late = .ok .behind ∧
      (∃ next, Roundabout.ring.insertFar Roundabout.distant = .ok (.placed next)) ∧
      [Roundabout.third] = window 80 40
        [Roundabout.first, Roundabout.second, Roundabout.third, Roundabout.fourth] := by
  obtain ⟨answers, takes, _, _, own⟩ :=
    Roundabout.orbit.hands_out_own_tick (by decide) (by decide)
  obtain ⟨_, behind, _⟩ := answers 280 rfl Roundabout.late
  obtain ⟨_, _, placed⟩ := answers 280 rfl Roundabout.distant
  obtain ⟨next, inserted, _⟩ := placed (by decide) (by decide)
  refine ⟨Roundabout.orbit, takes (by decide), behind.mpr (by decide), ⟨next, inserted⟩, ?_⟩
  exact own 80 _ (by decide)

end Quorum.Wheel
