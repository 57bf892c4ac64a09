import Quorum.Proofs.Timing.Agenda
import Quorum.Timing.Wheel

/-!
# One wheel against its agenda

A wheel holds the tasks of an agenda if each bucket lists, in the order of the agenda, exactly the
tasks whose index it has.  What the index of a task is depends on the use of the wheel: in a near
wheel (`Wheel.Fills`) it is the offset of the task in the window, in a far wheel (`Wheel.Circles`)
that offset is counted around the ring from the current bucket.

Each operation is stated once for each use, in terms of the agenda alone.
-/

namespace Quorum.Wheel

open Agenda

variable {α : Type} {wheel : Wheel α} {agenda : List (Task α)} {task : Task α}

/-- How many ticks after the start of the window a task becomes due. -/
def offset (wheel : Wheel α) (task : Task α) : Nat :=
  (task.fireAtMs - wheel.startMs) / wheel.tickMs

/-- The same, counted around the ring from the current bucket. -/
def ringIndex (wheel : Wheel α) (task : Task α) : Nat :=
  (wheel.current + wheel.offset task) % wheel.bucketCount

/-- Each bucket lists the tasks of the agenda with its own index, and nothing else. -/
def Sorts (wheel : Wheel α) (index : Task α → Nat) (agenda : List (Task α)) : Prop :=
  wheel.buckets = (List.range wheel.bucketCount).map fun bucket => only index bucket agenda

section Buckets

variable {index : Task α → Nat}

theorem Sorts.congr
    {other : Task α → Nat}
    (sorts : wheel.Sorts index agenda)
    (same : ∀ task ∈ agenda, index task = other task) :
    wheel.Sorts other agenda := by
  unfold Sorts at sorts ⊢
  rw [sorts]
  apply List.map_congr_left
  intro bucket _
  exact only_congr fun task listed => by rw [same task listed]

theorem sorts_iff :
    wheel.Sorts index agenda ↔
      ∀ bucket < wheel.bucketCount, wheel.buckets[bucket]? = some (only index bucket agenda) := by
  constructor
  · intro sorts bucket within
    rw [sorts, List.getElem?_map, List.getElem?_range within]
    rfl
  · intro each
    apply List.ext_getElem?
    intro bucket
    by_cases within : bucket < wheel.bucketCount
    · rw [each bucket within, List.getElem?_map, List.getElem?_range within]
      rfl
    · rw [List.getElem?_eq_none (Nat.not_lt.mp within), List.getElem?_eq_none]
      simpa using within

@[simp]
theorem bucketCount_place (place : Nat) :
    (wheel.place place task).bucketCount = wheel.bucketCount :=
  List.length_modify ..

/-- A task goes behind everything else in its bucket. -/
theorem Sorts.place (sorts : wheel.Sorts index agenda) :
    (wheel.place (index task) task).Sorts index (agenda ++ [task]) := by
  rw [sorts_iff] at sorts ⊢
  intro bucket within
  rw [bucketCount_place] at within
  simp only [Wheel.place, List.getElem?_modify]
  rw [sorts bucket within, only_append, only_singleton]
  by_cases same : index task = bucket
  · simp [same]
  · simp [same]

/-- A wheel that sorts an agenda holds its tasks. -/
theorem Sorts.tasks_perm
    (sorts : wheel.Sorts index agenda)
    (bounded : ∀ task ∈ agenda, index task < wheel.bucketCount) :
    wheel.tasks.Perm agenda := by
  have listed : wheel.tasks = stretch index 0 wheel.bucketCount agenda := by
    unfold tasks stretch
    rw [sorts, List.flatMap_def, Nat.sub_zero, ← List.range_eq_range']
  have all : below index wheel.bucketCount agenda = agenda :=
    List.filter_eq_self.mpr fun task member => decide_eq_true (bounded task member)
  rw [listed, ← mergeSort_below, all]
  exact List.mergeSort_perm _ _

/-- The content of some buckets in a row is a stretch of the agenda. -/
theorem Sorts.flatten_eq_stretch
    (sorts : wheel.Sorts index agenda)
    {first past : Nat}
    (ordered : first ≤ past)
    (within : past ≤ wheel.bucketCount) :
    ((wheel.buckets.drop first).take (past - first)).flatten = stretch index first past agenda := by
  unfold stretch
  rw [sorts, ← List.map_drop, ← List.map_take, List.flatMap_def, List.range_eq_range',
    List.drop_range', List.take_range'_of_length_ge (by omega)]
  simp

theorem getElem?_clear
    {first past : Nat}
    (ordered : first ≤ past)
    (within : past ≤ wheel.bucketCount)
    (bucket : Nat) :
    (wheel.clear first past)[bucket]? =
      if first ≤ bucket ∧ bucket < past then some [] else wheel.buckets[bucket]? := by
  have total : (wheel.buckets.take first).length = first := by
    rw [List.length_take]
    exact Nat.min_eq_left (Nat.le_trans ordered within)
  simp only [clear, List.append_assoc]
  rcases Nat.lt_or_ge bucket first with front | behind
  · rw [List.getElem?_append_left (by omega), List.getElem?_take_of_lt front, if_neg (by omega)]
  · rw [List.getElem?_append_right (by omega), total]
    rcases Nat.lt_or_ge bucket past with middle | back
    · rw [List.getElem?_append_left (by simp; omega), if_pos ⟨behind, middle⟩,
        List.getElem?_replicate_of_lt (by omega)]
    · rw [List.getElem?_append_right (by simp; omega), if_neg (by omega), List.getElem?_drop,
        List.length_replicate]
      congr 1
      omega

theorem length_clear
    {first past : Nat}
    (ordered : first ≤ past)
    (within : past ≤ wheel.bucketCount) :
    (wheel.clear first past).length = wheel.bucketCount := by
  unfold bucketCount at within ⊢
  simp only [clear, List.length_append, List.length_take, List.length_replicate, List.length_drop]
  omega

/-- Clearing the first busy buckets leaves the tasks behind them. -/
theorem Sorts.clear
    {next : Wheel α}
    {first past : Nat}
    (sorts : wheel.Sorts index agenda)
    (cleared : next.buckets = wheel.clear first past)
    (ordered : first ≤ past)
    (within : past ≤ wheel.bucketCount)
    (busy : ∀ task ∈ agenda, first ≤ index task) :
    next.Sorts index (onward index past agenda) := by
  rw [sorts_iff] at sorts ⊢
  intro bucket held
  rw [bucketCount, cleared, length_clear ordered within] at held
  rw [cleared, getElem?_clear ordered within, sorts bucket held]
  rcases Nat.lt_or_ge bucket past with ahead | behind
  · rw [only_onward_of_lt agenda ahead]
    split
    · rfl
    · next idle =>
      -- A bucket before the first busy one is empty already.
      have empty : only index bucket agenda = [] := by
        apply List.filter_eq_nil_iff.mpr
        intro task listed
        have := busy task listed
        simp only [decide_eq_true_eq]
        omega
      rw [empty]
  · rw [only_onward agenda behind, if_neg (by omega)]

end Buckets

section Windows

/-- The first instant behind the window, whether or not it fits into a word. -/
def pastMs (wheel : Wheel α) : Nat := wheel.startMs + wheel.tickMs * wheel.bucketCount

@[simp]
theorem pastMs_place (place : Nat) : (wheel.place place task).pastMs = wheel.pastMs := by
  unfold pastMs
  rw [bucketCount_place]
  rfl

theorem spanMs_eq_ok (fits : wheel.pastMs < Word.limit) :
    wheel.spanMs = .ok (wheel.tickMs * wheel.bucketCount) :=
  Word.mul_eq_ok (Nat.lt_of_le_of_lt (Nat.le_add_left _ _) fits)

theorem endMs_eq_ok (fits : wheel.pastMs < Word.limit) : wheel.endMs = .ok wheel.pastMs := by
  simp only [endMs, spanMs_eq_ok fits, bind, Except.bind]
  exact Word.add_eq_ok fits

/-- If the end of the window does not fit into a word, the product or the sum says so. -/
theorem spanMs_of_unfit (unfit : Word.limit ≤ wheel.pastMs) :
    wheel.spanMs = .error .overflow ∨
      wheel.spanMs = .ok (wheel.tickMs * wheel.bucketCount) ∧
        Word.add wheel.startMs (wheel.tickMs * wheel.bucketCount) = .error .overflow := by
  by_cases product : wheel.tickMs * wheel.bucketCount < Word.limit
  · exact .inr ⟨Word.mul_eq_ok product, if_neg (Nat.not_lt.mpr unfit)⟩
  · exact .inl (if_neg product)

theorem endMs_eq_error (unfit : Word.limit ≤ wheel.pastMs) : wheel.endMs = .error .overflow := by
  rcases spanMs_of_unfit unfit with product | ⟨product, sum⟩
  · simp only [endMs, product, bind, Except.bind]
  · simp only [endMs, product, sum, bind, Except.bind]

theorem endMs_eq_ok_iff {endMs : Nat} :
    wheel.endMs = .ok endMs ↔ wheel.pastMs < Word.limit ∧ endMs = wheel.pastMs := by
  by_cases fits : wheel.pastMs < Word.limit
  · simp [endMs_eq_ok fits, fits, eq_comm]
  · simp [endMs_eq_error (Nat.not_lt.mp fits), fits]

theorem offset_lt_iff
    (ticking : 0 < wheel.tickMs)
    (started : wheel.startMs ≤ task.fireAtMs)
    (count : Nat) :
    wheel.offset task < count ↔ task.fireAtMs < wheel.startMs + wheel.tickMs * count := by
  rw [offset, Nat.div_lt_iff_lt_mul ticking, Nat.mul_comm]
  omega

theorem le_offset_iff
    (ticking : 0 < wheel.tickMs)
    (started : wheel.startMs ≤ task.fireAtMs)
    (count : Nat) :
    count ≤ wheel.offset task ↔ wheel.startMs + wheel.tickMs * count ≤ task.fireAtMs := by
  rw [offset, Nat.le_div_iff_mul_le ticking, Nat.mul_comm]
  omega

end Windows

section Near

/-- The bucket that a task goes into: the one of its own tick, or the current one if that one has
been drained. -/
def index (wheel : Wheel α) (task : Task α) : Nat := max (wheel.offset task) wheel.current

theorem index_eq_offset (ahead : wheel.current ≤ wheel.offset task) :
    wheel.index task = wheel.offset task :=
  Nat.max_eq_left ahead

/-- A task before the end of the window has a bucket, also if it is behind the window. -/
theorem index_lt
    (ticking : 0 < wheel.tickMs)
    (current_lt : wheel.current < wheel.bucketCount)
    (within : task.fireAtMs < wheel.pastMs) :
    wheel.index task < wheel.bucketCount := by
  refine Nat.max_lt.mpr ⟨?_, current_lt⟩
  have positive := Nat.mul_pos ticking (Nat.zero_lt_of_lt current_lt)
  unfold pastMs at within
  exact Nat.div_lt_of_lt_mul (by omega)

/-- As long as the end of the window fits into a word, a task is taken exactly if it is before that
end. -/
theorem insert_eq
    (ticking : 0 < wheel.tickMs)
    (current_lt : wheel.current < wheel.bucketCount)
    (fits : wheel.pastMs < Word.limit)
    (task : Task α) :
    wheel.insert task =
      .ok (if task.fireAtMs < wheel.pastMs then some (wheel.place (wheel.index task) task)
        else none) := by
  have counted : wheel.bucketCount ≠ 0 := Nat.ne_of_gt (Nat.zero_lt_of_lt current_lt)
  simp only [insert, endMs_eq_ok fits, bind, Except.bind, pure, Except.pure]
  by_cases within : task.fireAtMs < wheel.pastMs
  · have bounded := index_lt ticking current_lt within
    rw [if_neg (Nat.not_le.mpr within), if_pos within, Word.div_eq_ok (Nat.ne_of_gt ticking)]
    simp only [if_neg counted]
    rw [← offset, ← index, Nat.min_eq_left (by omega)]
  · rw [if_pos (Nat.not_lt.mp within), if_neg within]

/-- A task that was taken is before the end of the window, and in its bucket. -/
theorem insert_eq_some
    {next : Wheel α}
    (ticking : 0 < wheel.tickMs)
    (current_lt : wheel.current < wheel.bucketCount)
    (inserted : wheel.insert task = .ok (some next)) :
    task.fireAtMs < wheel.pastMs ∧ next = wheel.place (wheel.index task) task := by
  obtain ⟨_, ends, _⟩ := bind_eq_ok_iff.mp inserted
  rw [insert_eq ticking current_lt (endMs_eq_ok_iff.mp ends).1] at inserted
  split at inserted
  · next within =>
    cases inserted
    exact ⟨within, rfl⟩
  · cases inserted

/-- How many buckets of the present rotation have ended. -/
def elapsed (wheel : Wheel α) (nowMs : Nat) : Nat :=
  min ((nowMs - wheel.startMs) / wheel.tickMs) wheel.bucketCount

theorem elapsed_eq_bucketCount_iff
    {nowMs : Nat}
    (ticking : 0 < wheel.tickMs)
    (counted : 0 < wheel.bucketCount) :
    wheel.elapsed nowMs = wheel.bucketCount ↔ wheel.pastMs ≤ nowMs := by
  have positive := Nat.mul_pos ticking counted
  have reached := Nat.le_div_iff_mul_le (x := wheel.bucketCount) (y := nowMs - wheel.startMs) ticking
  rw [Nat.mul_comm] at reached
  unfold elapsed pastMs
  omega

/-- The buckets without the tasks of those that have ended. -/
def swept (wheel : Wheel α) (nowMs : Nat) : List (List (Task α)) :=
  wheel.clear (min wheel.current (wheel.elapsed nowMs)) (wheel.elapsed nowMs)

/-- The tasks in the buckets that have ended. -/
def due (wheel : Wheel α) (nowMs : Nat) : List (Task α) :=
  let first := min wheel.current (wheel.elapsed nowMs)
  ((wheel.buckets.drop first).take (wheel.elapsed nowMs - first)).flatten

/-- The wheel after an advance that does not complete the rotation. -/
def progressed (wheel : Wheel α) (nowMs : Nat) : Wheel α :=
  { wheel with buckets := wheel.swept nowMs, current := max wheel.current (wheel.elapsed nowMs) }

/-- The wheel after an advance that completes the rotation. -/
def restarted (wheel : Wheel α) (nowMs : Nat) : Wheel α :=
  { wheel with buckets := wheel.swept nowMs, startMs := wheel.pastMs, current := 0 }

/-- An advance fails only where the next window cannot begin. -/
theorem advance_eq (ticking : 0 < wheel.tickMs) (nowMs : Nat) :
    wheel.advance nowMs =
      if wheel.elapsed nowMs = wheel.bucketCount then
        if wheel.pastMs < Word.limit then .ok ⟨wheel.restarted nowMs, wheel.due nowMs, true⟩
        else .error .overflow
      else .ok ⟨wheel.progressed nowMs, wheel.due nowMs, false⟩ := by
  simp only [advance, Word.div_eq_ok (Nat.ne_of_gt ticking), bind, Except.bind]
  rw [← elapsed, ← swept]
  split
  · by_cases fits : wheel.pastMs < Word.limit
    · rw [spanMs_eq_ok fits, if_pos fits]
      simp only [show Word.add wheel.startMs (wheel.tickMs * wheel.bucketCount) = .ok wheel.pastMs
        from Word.add_eq_ok fits]
      rfl
    · rw [if_neg fits]
      rcases spanMs_of_unfit (Nat.not_lt.mp fits) with product | ⟨product, sum⟩
      · rw [product]
      · simp only [product, sum]
  · rfl

/-- An advance either completes the rotation or stays in it. -/
theorem advance_eq_ok
    {nowMs : Nat}
    {step : Advance α}
    (ticking : 0 < wheel.tickMs)
    (advanced : wheel.advance nowMs = .ok step) :
    wheel.elapsed nowMs = wheel.bucketCount ∧
        step = ⟨wheel.restarted nowMs, wheel.due nowMs, true⟩ ∨
      wheel.elapsed nowMs ≠ wheel.bucketCount ∧
        step = ⟨wheel.progressed nowMs, wheel.due nowMs, false⟩ := by
  rw [advance_eq ticking] at advanced
  split at advanced
  · next whole =>
    split at advanced
    · exact .inl ⟨whole, (Except.ok.inj advanced).symm⟩
    · cases advanced
  · next partly => exact .inr ⟨partly, (Except.ok.inj advanced).symm⟩

theorem bucketCount_progressed (wheel : Wheel α) (nowMs : Nat) :
    (wheel.progressed nowMs).bucketCount = wheel.bucketCount :=
  length_clear (Nat.min_le_right _ _) (Nat.min_le_right _ _)

theorem bucketCount_restarted (wheel : Wheel α) (nowMs : Nat) :
    (wheel.restarted nowMs).bucketCount = wheel.bucketCount :=
  length_clear (Nat.min_le_right _ _) (Nat.min_le_right _ _)

/-- A near wheel holds the tasks of an agenda, each in the bucket of its own tick, and the buckets
before the current one are empty. -/
structure Fills (wheel : Wheel α) (agenda : List (Task α)) : Prop where
  ticking : 0 < wheel.tickMs
  current_lt : wheel.current < wheel.bucketCount
  started : ∀ task ∈ agenda, wheel.startMs ≤ task.fireAtMs
  busy : ∀ task ∈ agenda, wheel.current ≤ wheel.offset task
  bounded : ∀ task ∈ agenda, wheel.offset task < wheel.bucketCount
  sorts : wheel.Sorts wheel.offset agenda

/-- Inserting a task that is not behind the current bucket: the window decides. -/
theorem Fills.insert_eq
    (fills : wheel.Fills agenda)
    (fits : wheel.pastMs < Word.limit)
    (ahead : wheel.current ≤ wheel.offset task) :
    wheel.insert task =
      .ok (if task.fireAtMs < wheel.pastMs then some (wheel.place (wheel.offset task) task)
        else none) := by
  rw [Wheel.insert_eq fills.ticking fills.current_lt fits, index_eq_offset ahead]

theorem Fills.place
    (fills : wheel.Fills agenda)
    (started : wheel.startMs ≤ task.fireAtMs)
    (ahead : wheel.current ≤ wheel.offset task)
    (within : task.fireAtMs < wheel.pastMs) :
    (wheel.place (wheel.offset task) task).Fills (agenda ++ [task]) where
  ticking := fills.ticking
  current_lt := by
    rw [bucketCount_place]
    exact fills.current_lt
  started := List.forall_mem_append.mpr ⟨fills.started, List.forall_mem_singleton.mpr started⟩
  busy := List.forall_mem_append.mpr ⟨fills.busy, List.forall_mem_singleton.mpr ahead⟩
  bounded := by
    rw [bucketCount_place]
    exact List.forall_mem_append.mpr ⟨fills.bounded, List.forall_mem_singleton.mpr
      ((offset_lt_iff fills.ticking started _).mpr within)⟩
  sorts := fills.sorts.place

/-- The wheel after its buckets up to `ticks` have been drained. -/
def drained (wheel : Wheel α) (ticks : Nat) : Wheel α :=
  { wheel with buckets := wheel.clear wheel.current ticks, current := ticks }

/-- The wheel after a complete rotation. -/
def turned (wheel : Wheel α) : Wheel α :=
  { wheel with
    buckets := wheel.clear wheel.current wheel.bucketCount
    startMs := wheel.pastMs
    current := 0 }

/-- An advance inside of the window drains the buckets up to the tick of the clock. -/
theorem Fills.advance_within
    (fills : wheel.Fills agenda)
    {nowMs ticks : Nat}
    (elapsed : (nowMs - wheel.startMs) / wheel.tickMs = ticks)
    (ahead : wheel.current ≤ ticks)
    (within : ticks < wheel.bucketCount) :
    wheel.advance nowMs =
      .ok ⟨wheel.drained ticks, stretch wheel.offset wheel.current ticks agenda, false⟩ := by
  have reached : wheel.elapsed nowMs = ticks := by
    rw [Wheel.elapsed, elapsed, Nat.min_eq_left (Nat.le_of_lt within)]
  have next : wheel.progressed nowMs = wheel.drained ticks := by
    rw [progressed, swept, reached, Nat.min_eq_left ahead, Nat.max_eq_right ahead]
    rfl
  have handed : wheel.due nowMs = stretch wheel.offset wheel.current ticks agenda := by
    unfold due
    rw [reached, Nat.min_eq_left ahead]
    exact fills.sorts.flatten_eq_stretch ahead (Nat.le_of_lt within)
  rw [advance_eq fills.ticking, reached, if_neg (Nat.ne_of_lt within), next, handed]

theorem Fills.drained
    (fills : wheel.Fills agenda)
    {ticks : Nat}
    (ahead : wheel.current ≤ ticks)
    (within : ticks < wheel.bucketCount) :
    (wheel.drained ticks).bucketCount = wheel.bucketCount ∧
      (wheel.drained ticks).Fills (onward wheel.offset ticks agenda) := by
  have count : (wheel.drained ticks).bucketCount = wheel.bucketCount :=
    length_clear ahead (Nat.le_of_lt within)
  refine ⟨count, ?_⟩
  exact {
    ticking := fills.ticking
    current_lt := by
      rw [count]
      exact within
    started := fun task listed => fills.started task (mem_onward.mp listed).1
    busy := fun task listed => (mem_onward.mp listed).2
    bounded := by
      rw [count]
      exact fun task listed => fills.bounded task (mem_onward.mp listed).1
    sorts := fills.sorts.clear rfl ahead (Nat.le_of_lt within) fills.busy }

/-- An advance to the end of the window or beyond it drains everything, and completes the rotation
if the next window can begin at all. -/
theorem Fills.advance_past
    (fills : wheel.Fills agenda)
    {nowMs : Nat}
    (elapsed : wheel.pastMs ≤ nowMs) :
    wheel.advance nowMs =
      if wheel.pastMs < Word.limit then
        .ok ⟨wheel.turned, stretch wheel.offset wheel.current wheel.bucketCount agenda, true⟩
      else .error .overflow := by
  have counted := Nat.zero_lt_of_lt fills.current_lt
  have reached := (elapsed_eq_bucketCount_iff fills.ticking counted).mpr elapsed
  have first : min wheel.current wheel.bucketCount = wheel.current :=
    Nat.min_eq_left (Nat.le_of_lt fills.current_lt)
  have next : wheel.restarted nowMs = wheel.turned := by
    rw [restarted, swept, reached, first]
    rfl
  have handed :
      wheel.due nowMs = stretch wheel.offset wheel.current wheel.bucketCount agenda := by
    unfold due
    rw [reached, first]
    exact fills.sorts.flatten_eq_stretch (Nat.le_of_lt fills.current_lt) (Nat.le_refl _)
  rw [advance_eq fills.ticking, if_pos reached, next, handed]

/-- After a complete rotation the wheel is empty. -/
theorem Fills.turned (fills : wheel.Fills agenda) :
    wheel.turned.bucketCount = wheel.bucketCount ∧ wheel.turned.Fills [] := by
  have count : wheel.turned.bucketCount = wheel.bucketCount :=
    length_clear (Nat.le_of_lt fills.current_lt) (Nat.le_refl _)
  have cleared := @Sorts.clear _ _ _ _ wheel.turned _ _ fills.sorts rfl
    (Nat.le_of_lt fills.current_lt) (Nat.le_refl _) fills.busy
  have nothing : onward wheel.offset wheel.bucketCount agenda = [] := by
    apply List.filter_eq_nil_iff.mpr
    intro task listed
    have := fills.bounded task listed
    simp only [decide_eq_true_eq]
    omega
  rw [nothing] at cleared
  refine ⟨count, ?_⟩
  exact {
    ticking := fills.ticking
    current_lt := by
      rw [count]
      exact Nat.zero_lt_of_lt fills.current_lt
    started := List.forall_mem_nil _
    busy := List.forall_mem_nil _
    bounded := List.forall_mem_nil _
    sorts := cleared.congr (List.forall_mem_nil _) }

end Near

section Far

/-- A far wheel holds the tasks of an agenda, each in the bucket of its own tick, counted around the
ring from the current bucket. -/
structure Circles (wheel : Wheel α) (agenda : List (Task α)) : Prop where
  ticking : 0 < wheel.tickMs
  current_lt : wheel.current < wheel.bucketCount
  started : ∀ task ∈ agenda, wheel.startMs ≤ task.fireAtMs
  bounded : ∀ task ∈ agenda, wheel.offset task < wheel.bucketCount
  sorts : wheel.Sorts wheel.ringIndex agenda

/-- Inserting a task: the window decides. -/
theorem Circles.insertFar_eq
    (circles : wheel.Circles agenda)
    (task : Task α) :
    wheel.insertFar task =
      if wheel.pastMs < Word.limit then
        .ok (if wheel.pastMs ≤ task.fireAtMs then .beyond
          else if task.fireAtMs < wheel.startMs then .behind
          else .placed (wheel.place (wheel.ringIndex task) task))
      else .error .overflow := by
  have counted : wheel.bucketCount ≠ 0 := Nat.ne_of_gt (Nat.zero_lt_of_lt circles.current_lt)
  by_cases fits : wheel.pastMs < Word.limit
  · rw [if_pos fits]
    simp only [insertFar, endMs_eq_ok fits, bind, Except.bind, pure, Except.pure]
    by_cases beyond : wheel.pastMs ≤ task.fireAtMs
    · rw [if_pos beyond, if_pos beyond]
    · rw [if_neg beyond, if_neg beyond]
      by_cases behind : task.fireAtMs < wheel.startMs
      · simp only [if_pos behind]
      · simp only [if_neg behind, Word.div_eq_ok (Nat.ne_of_gt circles.ticking), if_neg counted]
        rfl
  · rw [if_neg fits]
    simp only [insertFar, endMs_eq_error (Nat.not_lt.mp fits), bind, Except.bind]

theorem Circles.place
    (circles : wheel.Circles agenda)
    (started : wheel.startMs ≤ task.fireAtMs)
    (within : task.fireAtMs < wheel.pastMs) :
    (wheel.place (wheel.ringIndex task) task).Circles (agenda ++ [task]) where
  ticking := circles.ticking
  current_lt := by
    rw [bucketCount_place]
    exact circles.current_lt
  started := List.forall_mem_append.mpr ⟨circles.started, List.forall_mem_singleton.mpr started⟩
  bounded := by
    rw [bucketCount_place]
    exact List.forall_mem_append.mpr ⟨circles.bounded, List.forall_mem_singleton.mpr
      ((offset_lt_iff circles.ticking started _).mpr within)⟩
  sorts := by
    have sorts : (wheel.place (wheel.ringIndex task) task).Sorts wheel.ringIndex
        (agenda ++ [task]) := circles.sorts.place
    unfold ringIndex at sorts ⊢
    rw [bucketCount_place]
    exact sorts

/-- A task is in the current bucket exactly if it is due in the first tick of the window. -/
theorem Circles.ringIndex_eq_current
    (circles : wheel.Circles agenda)
    (listed : task ∈ agenda) :
    wheel.ringIndex task = wheel.current ↔ wheel.offset task = 0 := by
  have bounded := circles.bounded task listed
  have current_lt := circles.current_lt
  unfold ringIndex
  rcases Nat.lt_or_ge (wheel.current + wheel.offset task) wheel.bucketCount with straight | wraps
  · rw [Nat.mod_eq_of_lt straight]
    omega
  · rw [Nat.mod_eq_sub_mod wraps, Nat.mod_eq_of_lt (by omega)]
    omega

/-- The wheel after its window has moved by one tick. -/
def slid (wheel : Wheel α) : Wheel α :=
  { wheel with
    buckets := wheel.buckets.set wheel.current []
    startMs := wheel.startMs + wheel.tickMs
    current := (wheel.current + 1) % wheel.bucketCount }

/-- Taking the first bucket hands out the tasks of the first tick. -/
theorem Circles.takeNext_eq
    (circles : wheel.Circles agenda) :
    wheel.takeNext =
      if wheel.startMs + wheel.tickMs < Word.limit then .ok (only wheel.offset 0 agenda, wheel.slid)
      else .error .overflow := by
  have first : wheel.buckets[wheel.current]? = some (only wheel.offset 0 agenda) := by
    rw [sorts_iff.mp circles.sorts wheel.current circles.current_lt]
    congr 1
    exact only_congr fun task listed => circles.ringIndex_eq_current listed
  simp only [takeNext, first]
  by_cases fits : wheel.startMs + wheel.tickMs < Word.limit
  · simp only [Word.add_eq_ok fits, bind, Except.bind, pure, Except.pure, if_pos fits]
    rfl
  · simp only [Word.add, if_neg fits, bind, Except.bind]

theorem offset_slid
    (ticking : 0 < wheel.tickMs)
    (started : wheel.startMs ≤ task.fireAtMs)
    (later : 1 ≤ wheel.offset task) :
    wheel.offset task = wheel.slid.offset task + 1 := by
  rw [le_offset_iff ticking started] at later
  unfold offset slid
  rw [Nat.div_eq_sub_div ticking (by omega), Nat.sub_sub]

/-- Emptying the first bucket leaves the tasks of the other ticks where they are. -/
theorem Circles.emptied (circles : wheel.Circles agenda) :
    wheel.slid.Sorts wheel.ringIndex (onward wheel.offset 1 agenda) := by
  have count : wheel.slid.bucketCount = wheel.bucketCount := List.length_set
  rw [sorts_iff, count]
  intro bucket within
  have old := sorts_iff.mp circles.sorts bucket within
  by_cases same : wheel.current = bucket
  · have nothing : only wheel.ringIndex bucket (onward wheel.offset 1 agenda) = [] := by
      apply List.filter_eq_nil_iff.mpr
      intro task listed
      obtain ⟨held, later⟩ := mem_onward.mp listed
      rw [decide_eq_true_eq, ← same, circles.ringIndex_eq_current held]
      omega
    rw [nothing, ← same]
    exact List.getElem?_set_self circles.current_lt
  · have kept : only wheel.ringIndex bucket (onward wheel.offset 1 agenda) =
        only wheel.ringIndex bucket agenda := by
      unfold only onward
      rw [List.filter_filter]
      apply List.filter_congr
      intro task listed
      have first := circles.ringIndex_eq_current listed
      by_cases index : wheel.ringIndex task = bucket
      · have later : 1 ≤ wheel.offset task := by omega
        simp [index, later]
      · simp [index]
    rw [kept, ← old]
    exact List.getElem?_set_ne same

/-- After a slide the wheel holds the tasks of the other ticks. -/
theorem Circles.slid (circles : wheel.Circles agenda) :
    wheel.slid.bucketCount = wheel.bucketCount ∧
      wheel.slid.Circles (onward wheel.offset 1 agenda) := by
  have count : wheel.slid.bucketCount = wheel.bucketCount := List.length_set
  have positive : 0 < wheel.bucketCount := Nat.zero_lt_of_lt circles.current_lt
  have shifted : ∀ task ∈ onward wheel.offset 1 agenda,
      wheel.offset task = wheel.slid.offset task + 1 := by
    intro task listed
    obtain ⟨held, later⟩ := mem_onward.mp listed
    exact offset_slid circles.ticking (circles.started task held) later
  refine ⟨count, ?_⟩
  exact {
    ticking := circles.ticking
    current_lt := by
      rw [count]
      exact Nat.mod_lt _ positive
    started := by
      intro task listed
      obtain ⟨held, later⟩ := mem_onward.mp listed
      rw [le_offset_iff circles.ticking (circles.started task held), Nat.mul_one] at later
      exact later
    bounded := by
      intro task listed
      have bounded := circles.bounded task (mem_onward.mp listed).1
      have := shifted task listed
      rw [count]
      omega
    sorts := by
      -- Both the start of the count and the offset have moved by one bucket.
      apply circles.emptied.congr
      intro task listed
      rw [ringIndex, ringIndex, count, shifted task listed]
      change _ = ((wheel.current + 1) % wheel.bucketCount + _) % _
      rw [Nat.mod_add_mod]
      congr 1
      omega }

end Far

section Fresh

variable {tickMs bucketCount startMs : Nat}

theorem ofDimensions_eq
    (made : ofDimensions tickMs bucketCount startMs = .ok wheel) :
    wheel = ⟨tickMs, List.replicate bucketCount [], startMs, 0⟩ := by
  unfold ofDimensions at made
  split at made
  · cases made
  · exact (Except.ok.inj made).symm

/-- A fresh wheel sorts nothing, whatever the indices are. -/
theorem sorts_fresh
    (index : Task α → Nat) :
    (⟨tickMs, List.replicate bucketCount [], startMs, 0⟩ : Wheel α).Sorts index [] := by
  rw [sorts_iff]
  intro bucket within
  simp only [Wheel.bucketCount, List.length_replicate] at within
  exact List.getElem?_replicate_of_lt within

theorem fills_fresh
    (ticking : 0 < tickMs)
    (counted : 0 < bucketCount) :
    (⟨tickMs, List.replicate bucketCount [], startMs, 0⟩ : Wheel α).Fills [] where
  ticking := ticking
  current_lt := by simpa [Wheel.bucketCount] using counted
  started := List.forall_mem_nil _
  busy := List.forall_mem_nil _
  bounded := List.forall_mem_nil _
  sorts := sorts_fresh _

theorem circles_fresh
    (ticking : 0 < tickMs)
    (counted : 0 < bucketCount) :
    (⟨tickMs, List.replicate bucketCount [], startMs, 0⟩ : Wheel α).Circles [] where
  ticking := ticking
  current_lt := by simpa [Wheel.bucketCount] using counted
  started := List.forall_mem_nil _
  bounded := List.forall_mem_nil _
  sorts := sorts_fresh _

end Fresh

end Quorum.Wheel
