import Quorum.Timing.Task

/-!
# Agendas

An agenda is a plain list of tasks in the order in which they were scheduled.  Time is cut into
slots of one tick each, and a task is due when its slot has ended.  `Agenda.dueBy` sorts what is due
by slot and leaves the tasks of one slot in their order; `Agenda.leftAt` is the rest.

Wheels hand tasks out bucket by bucket, so the same list is also built as a `stretch`: one slot
after the other, from a first one up to a last one.
-/

namespace Quorum

variable {α : Type}

/-- The tick of the clock in which a task becomes due. -/
def Task.slot (tickMs : Nat) (task : Task α) : Nat := task.fireAtMs / tickMs

/-- Whether the slot of a task has ended. -/
def Task.isDue (tickMs nowMs : Nat) (task : Task α) : Bool :=
  decide ((task.slot tickMs + 1) * tickMs ≤ nowMs)

namespace Agenda

/-- Whether a task does not come after another one, going by a key. -/
def byKey (key : Task α → Nat) (left right : Task α) : Bool := decide (key left ≤ key right)

/-- What is due, by slot and then in the order of the agenda. -/
def dueBy (tickMs nowMs : Nat) (agenda : List (Task α)) : List (Task α) :=
  (agenda.filter fun task => task.isDue tickMs nowMs).mergeSort (byKey (Task.slot tickMs))

/-- What is not due yet. -/
def leftAt (tickMs nowMs : Nat) (agenda : List (Task α)) : List (Task α) :=
  agenda.filter fun task => !task.isDue tickMs nowMs

variable {key : Task α → Nat}

/-- The entries with one key. -/
def only (key : Task α → Nat) (index : Nat) (agenda : List (Task α)) : List (Task α) :=
  agenda.filter fun task => key task = index

/-- The entries with a key below `past`. -/
def below (key : Task α → Nat) (past : Nat) (agenda : List (Task α)) : List (Task α) :=
  agenda.filter fun task => key task < past

/-- The entries with a key from `first` on. -/
def onward (key : Task α → Nat) (first : Nat) (agenda : List (Task α)) : List (Task α) :=
  agenda.filter fun task => first ≤ key task

/-- The entries with the keys from `first` up to `past`, key by key. -/
def stretch (key : Task α → Nat) (first past : Nat) (agenda : List (Task α)) : List (Task α) :=
  (List.range' first (past - first)).flatMap fun index => only key index agenda

theorem mem_only
    {task : Task α}
    {index : Nat}
    {agenda : List (Task α)} :
    task ∈ only key index agenda ↔ task ∈ agenda ∧ key task = index := by
  simp [only]

theorem mem_onward
    {task : Task α}
    {first : Nat}
    {agenda : List (Task α)} :
    task ∈ onward key first agenda ↔ task ∈ agenda ∧ first ≤ key task := by
  simp [onward]

theorem mem_below
    {task : Task α}
    {past : Nat}
    {agenda : List (Task α)} :
    task ∈ below key past agenda ↔ task ∈ agenda ∧ key task < past := by
  simp [below]

theorem only_append
    (index : Nat)
    (front back : List (Task α)) :
    only key index (front ++ back) = only key index front ++ only key index back :=
  List.filter_append ..

theorem only_singleton
    (index : Nat)
    (task : Task α) :
    only key index [task] = if key task = index then [task] else [] := by
  by_cases same : key task = index
  · simp [only, same]
  · simp [only, same]

theorem only_congr
    {other : Task α → Nat}
    {agenda : List (Task α)}
    {index index' : Nat}
    (same : ∀ task ∈ agenda, (key task = index ↔ other task = index')) :
    only key index agenda = only other index' agenda := by
  apply List.filter_congr
  intro task listed
  simp only [same task listed]

/-- A later start takes nothing away from the keys behind it. -/
theorem only_onward
    {first index : Nat}
    (agenda : List (Task α))
    (behind : first ≤ index) :
    only key index (onward key first agenda) = only key index agenda := by
  unfold only onward
  rw [List.filter_filter]
  apply List.filter_congr
  intro task _
  by_cases same : key task = index
  · simp [same, behind]
  · simp [same]

theorem only_onward_of_lt
    {first index : Nat}
    (agenda : List (Task α))
    (ahead : index < first) :
    only key index (onward key first agenda) = [] := by
  apply List.filter_eq_nil_iff.mpr
  intro task listed
  have from_first := (mem_onward.mp listed).2
  simp only [decide_eq_true_eq]
  omega

theorem below_append
    (past : Nat)
    (front back : List (Task α)) :
    below key past (front ++ back) = below key past front ++ below key past back :=
  List.filter_append ..

theorem below_singleton
    {past : Nat}
    {task : Task α}
    (ahead : key task < past) :
    below key past [task] = [task] := by
  simp [below, ahead]

theorem below_singleton_of_le
    {past : Nat}
    {task : Task α}
    (behind : past ≤ key task) :
    below key past [task] = [] := by
  simp [below, behind]

theorem onward_append
    (first : Nat)
    (front back : List (Task α)) :
    onward key first (front ++ back) = onward key first front ++ onward key first back :=
  List.filter_append ..

theorem onward_singleton
    {first : Nat}
    {task : Task α}
    (behind : first ≤ key task) :
    onward key first [task] = [task] := by
  simp [onward, behind]

theorem onward_singleton_of_lt
    {first : Nat}
    {task : Task α}
    (ahead : key task < first) :
    onward key first [task] = [] := by
  simp [onward, ahead]

theorem onward_onward
    {first later : Nat}
    (agenda : List (Task α))
    (ordered : first ≤ later) :
    onward key later (onward key first agenda) = onward key later agenda := by
  unfold onward
  rw [List.filter_filter]
  apply List.filter_congr
  intro task _
  by_cases behind : later ≤ key task
  · simp [behind, Nat.le_trans ordered behind]
  · simp [behind]

theorem onward_congr
    {other : Task α → Nat}
    {agenda : List (Task α)}
    {first first' : Nat}
    (same : ∀ task ∈ agenda, (first ≤ key task ↔ first' ≤ other task)) :
    onward key first agenda = onward other first' agenda := by
  apply List.filter_congr
  intro task listed
  simp only [same task listed]

theorem below_onward
    (first past : Nat)
    (agenda : List (Task α)) :
    below key past (onward key first agenda) = onward key first (below key past agenda) := by
  unfold below onward
  rw [List.filter_filter, List.filter_filter]
  apply List.filter_congr
  intro task _
  exact Bool.and_comm ..

theorem onward_eq_self
    {first : Nat}
    {agenda : List (Task α)}
    (behind : ∀ task ∈ agenda, first ≤ key task) :
    onward key first agenda = agenda := by
  apply List.filter_eq_self.mpr
  intro task listed
  exact decide_eq_true (behind task listed)

theorem mem_stretch
    {task : Task α}
    {first past : Nat}
    {agenda : List (Task α)} :
    task ∈ stretch key first past agenda ↔ task ∈ agenda ∧ first ≤ key task ∧ key task < past := by
  unfold stretch
  rw [List.mem_flatMap]
  constructor
  · rintro ⟨index, within, member⟩
    obtain ⟨listed, rfl⟩ := mem_only.mp member
    have bounds := List.mem_range'_1.mp within
    exact ⟨listed, bounds.1, by omega⟩
  · rintro ⟨listed, behind, ahead⟩
    exact ⟨key task, List.mem_range'_1.mpr ⟨behind, by omega⟩, mem_only.mpr ⟨listed, rfl⟩⟩

/-- A longer agenda has longer stretches. -/
theorem stretch_sublist
    {agenda longer : List (Task α)}
    (within : agenda.Sublist longer)
    (first past : Nat) :
    (stretch key first past agenda).Sublist (stretch key first past longer) := by
  unfold stretch
  induction List.range' first (past - first) with
  | nil => exact List.Sublist.refl _
  | cons index rest ih =>
      rw [List.flatMap_cons, List.flatMap_cons]
      exact (within.filter _).append ih

/-- Two stretches that meet are one stretch, also when the second one is taken from what the first
one left. -/
theorem stretch_append_stretch
    {first middle past : Nat}
    (agenda : List (Task α))
    (ordered : first ≤ middle)
    (ordered' : middle ≤ past) :
    stretch key first middle agenda ++ stretch key middle past (onward key middle agenda) =
      stretch key first past agenda := by
  have rest : stretch key middle past (onward key middle agenda) =
      (List.range' middle (past - middle)).flatMap fun index => only key index agenda := by
    unfold stretch
    rw [List.flatMap_def, List.flatMap_def]
    congr 1
    apply List.map_congr_left
    intro index listed
    exact only_onward agenda (List.mem_range'_1.mp listed).1
  rw [rest]
  unfold stretch
  rw [← List.flatMap_append]
  have joined := List.range'_append_1 (s := first) (m := middle - first) (n := past - middle)
  rw [show first + (middle - first) = middle by omega,
    show middle - first + (past - middle) = past - first by omega] at joined
  rw [joined]

/-- A task behind a stretch does not change it. -/
theorem stretch_append_task
    {first past : Nat}
    {task : Task α}
    (agenda : List (Task α))
    (behind : past ≤ key task) :
    stretch key first past (agenda ++ [task]) = stretch key first past agenda := by
  unfold stretch
  rw [List.flatMap_def, List.flatMap_def]
  congr 1
  apply List.map_congr_left
  intro index listed
  have within := List.mem_range'_1.mp listed
  rw [only_append, only_singleton, if_neg (by omega), List.append_nil]

@[simp]
theorem stretch_self
    (first : Nat)
    (agenda : List (Task α)) :
    stretch key first first agenda = [] := by
  simp [stretch]

theorem stretch_succ
    {first past : Nat}
    (agenda : List (Task α))
    (ordered : first ≤ past) :
    stretch key first (past + 1) agenda =
      stretch key first past agenda ++ only key past agenda := by
  unfold stretch
  rw [show past + 1 - first = past - first + 1 by omega, List.range'_1_concat,
    show first + (past - first) = past by omega]
  simp

/-- Shifting all keys shifts the stretches. -/
theorem stretch_shift
    {other : Task α → Nat}
    {agenda : List (Task α)}
    {base first past : Nat}
    (shifted : ∀ task ∈ agenda, other task = base + key task) :
    stretch other (base + first) (base + past) agenda = stretch key first past agenda := by
  unfold stretch
  rw [show base + past - (base + first) = past - first by omega, Nat.add_comm base first,
    List.range'_eq_map_range, List.range'_eq_map_range, List.flatMap_map, List.flatMap_map]
  rw [List.flatMap_def, List.flatMap_def]
  congr 1
  apply List.map_congr_left
  intro index _
  apply only_congr
  intro task listed
  rw [shifted task listed]
  omega

/-- A stretch only looks at the entries key by key. -/
theorem stretch_congr
    {agenda other : List (Task α)}
    {first past : Nat}
    (same : ∀ index, first ≤ index → index < past → only key index agenda = only key index other) :
    stretch key first past agenda = stretch key first past other := by
  unfold stretch
  rw [List.flatMap_def, List.flatMap_def]
  congr 1
  apply List.map_congr_left
  intro index listed
  have within := List.mem_range'_1.mp listed
  exact same index within.1 (by omega)

section Sorting

theorem only_below
    {past index : Nat}
    (agenda : List (Task α))
    (ahead : index < past) :
    only key index (below key past agenda) = only key index agenda := by
  unfold only below
  rw [List.filter_filter]
  apply List.filter_congr
  intro task _
  by_cases same : key task = index
  · simp [same, ahead]
  · simp [same]

/-- In a sorted list the tasks below a bound come first. -/
theorem below_append_onward
    {agenda : List (Task α)}
    (sorted : agenda.Pairwise fun left right => key left ≤ key right)
    (bound : Nat) :
    below key bound agenda ++ onward key bound agenda = agenda := by
  induction sorted with
  | nil => rfl
  | @cons task rest ordered _ ih =>
      by_cases ahead : key task < bound
      · have front : below key bound (task :: rest) = task :: below key bound rest := by
          simp [below, ahead]
        have back : onward key bound (task :: rest) = onward key bound rest := by
          simp [onward, ahead]
        rw [front, back, List.cons_append, ih]
      · have behind : ∀ later ∈ task :: rest, bound ≤ key later := by
          intro later listed
          rcases List.mem_cons.mp listed with rfl | listed
          · omega
          · have := ordered later listed
            omega
        have front : below key bound (task :: rest) = [] := by
          apply List.filter_eq_nil_iff.mpr
          intro later listed
          have := behind later listed
          simp only [decide_eq_true_eq]
          omega
        rw [onward_eq_self behind, front, List.nil_append]

/-- A sorted list is its own stretch. -/
theorem stretch_of_sorted
    {past : Nat}
    {agenda : List (Task α)}
    (sorted : agenda.Pairwise fun left right => key left ≤ key right)
    (bounded : ∀ task ∈ agenda, key task < past) :
    stretch key 0 past agenda = agenda := by
  induction past generalizing agenda with
  | zero =>
      rw [stretch_self]
      exact (List.eq_nil_iff_forall_not_mem.mpr fun task listed =>
        Nat.not_lt_zero _ (bounded task listed)).symm
  | succ past ih =>
      have last : onward key past agenda = only key past agenda := by
        apply List.filter_congr
        intro task listed
        have := bounded task listed
        rw [decide_eq_decide]
        omega
      have front : stretch key 0 past agenda = stretch key 0 past (below key past agenda) :=
        stretch_congr fun index _ ahead => (only_below agenda ahead).symm
      have settled : stretch key 0 past (below key past agenda) = below key past agenda :=
        ih (sorted.filter _) fun task listed => (mem_below.mp listed).2
      rw [stretch_succ agenda (Nat.zero_le past), front, settled, ← last]
      exact below_append_onward sorted past

theorem byKey_trans
    (one two three : Task α)
    (ordered : byKey key one two)
    (ordered' : byKey key two three) :
    byKey key one three := by
  simp only [byKey, decide_eq_true_eq] at ordered ordered' ⊢
  exact Nat.le_trans ordered ordered'

theorem byKey_total (one two : Task α) : byKey key one two || byKey key two one := by
  simpa [byKey] using Nat.le_total (key one) (key two)

/-- Sorting by a key leaves the entries with one key in their order. -/
theorem only_mergeSort
    (index : Nat)
    (agenda : List (Task α)) :
    only key index (agenda.mergeSort (byKey key)) = only key index agenda := by
  have level : (only key index agenda).Pairwise fun left right => byKey key left right := by
    apply List.pairwise_of_forall_mem_list
    intro left inLeft right inRight
    apply decide_eq_true
    exact Nat.le_of_eq ((mem_only.mp inLeft).2.trans (mem_only.mp inRight).2.symm)
  have kept : (only key index agenda).Sublist (agenda.mergeSort (byKey key)) :=
    List.sublist_mergeSort byKey_trans byKey_total level List.filter_sublist
  have within := kept.filter fun task => key task = index
  rw [only, List.filter_filter] at within
  simp only [Bool.and_self] at within
  apply Eq.symm
  apply within.eq_of_length
  exact ((List.mergeSort_perm agenda _).filter _).length_eq.symm

/-- Sorting what lies below a bound lists it key by key. -/
theorem mergeSort_below
    (past : Nat)
    (agenda : List (Task α)) :
    (below key past agenda).mergeSort (byKey key) = stretch key 0 past agenda := by
  have sorted : ((below key past agenda).mergeSort (byKey key)).Pairwise fun left right =>
      key left ≤ key right := by
    simpa [byKey] using
      List.pairwise_mergeSort (@byKey_trans _ key) byKey_total (below key past agenda)
  have bounded : ∀ task ∈ (below key past agenda).mergeSort (byKey key), key task < past :=
    fun task listed => (mem_below.mp (List.mem_mergeSort.mp listed)).2
  rw [← stretch_of_sorted sorted bounded]
  apply stretch_congr
  intro index _ ahead
  rw [only_mergeSort, only_below agenda ahead]

end Sorting

section Slots

variable {tickMs nowMs : Nat}

theorem isDue_iff
    (ticking : 0 < tickMs)
    (task : Task α) :
    task.isDue tickMs nowMs = true ↔ task.slot tickMs < nowMs / tickMs := by
  rw [Task.isDue, decide_eq_true_eq, ← Nat.le_div_iff_mul_le ticking, Nat.succ_le_iff]

/-- What is due is handed out slot by slot. -/
theorem dueBy_eq_stretch
    (ticking : 0 < tickMs)
    (agenda : List (Task α)) :
    dueBy tickMs nowMs agenda = stretch (Task.slot tickMs) 0 (nowMs / tickMs) agenda := by
  rw [← mergeSort_below]
  unfold dueBy below
  congr 1
  apply List.filter_congr
  intro task _
  rw [Bool.eq_iff_iff, isDue_iff ticking, decide_eq_true_eq]

theorem leftAt_eq_onward
    (ticking : 0 < tickMs)
    (agenda : List (Task α)) :
    leftAt tickMs nowMs agenda = onward (Task.slot tickMs) (nowMs / tickMs) agenda := by
  apply List.filter_congr
  intro task _
  rw [Bool.eq_iff_iff, Bool.not_eq_true', ← Bool.not_eq_true, isDue_iff ticking, decide_eq_true_eq,
    Nat.not_lt]

/-- What is due and what is left are the whole agenda. -/
theorem dueBy_append_leftAt_perm (agenda : List (Task α)) :
    (dueBy tickMs nowMs agenda ++ leftAt tickMs nowMs agenda).Perm agenda :=
  ((List.mergeSort_perm _ _).append_right _).trans (List.filter_append_perm _ agenda)

/-- Nothing is due before its time has passed. -/
theorem lt_of_mem_dueBy
    (ticking : 0 < tickMs)
    {agenda : List (Task α)}
    {task : Task α}
    (listed : task ∈ dueBy tickMs nowMs agenda) :
    task.fireAtMs < nowMs := by
  have due := (List.mem_filter.mp (List.mem_mergeSort.mp listed)).2
  rw [Task.isDue, decide_eq_true_eq] at due
  exact Nat.lt_of_lt_of_le (Nat.lt_mul_of_div_lt (Nat.lt_succ_self _) ticking) due

end Slots

end Agenda

end Quorum
