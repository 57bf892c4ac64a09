import Quorum.Proofs.Timing.Entries
import Quorum.Proofs.Timing.Ring

/-!
# One wheel through its rounds

A near wheel that is used by itself takes any task before the end of its window, also one whose time
is long past, and can be advanced to any clock value, also to an earlier one.  A task goes into the
bucket of its own tick, or into the current bucket if that one has been drained.

`Rounds` is a run of such a wheel with everything that was done to it.  The advances alone tell where
the wheel stands (`Wheel.Stands`).  In every run it holds the waiting entries bucket by bucket
(`Wheel.Awaits`), and each advance hands out those whose bucket has ended
(`Rounds.hands_out_in_turn`).
-/

namespace Quorum.Wheel

variable {α : Type}

/-- The end of a bucket of the present rotation. -/
def closesMs (wheel : Wheel α) (index : Nat) : Nat :=
  wheel.startMs + wheel.tickMs * (index + 1)

/-- A task with the end of the bucket that the wheel would put it into. -/
def entry (wheel : Wheel α) (task : Task α) : Entry α := ⟨task, wheel.closesMs (wheel.index task)⟩

/-- A near wheel after some uses, beginning with a fresh one. -/
inductive Rounds (tickMs bucketCount startMs : Nat) : Uses α → Wheel α → Prop where
  | begun
      {wheel : Wheel α}
      (made : ofDimensions tickMs bucketCount startMs = .ok wheel) :
      Rounds tickMs bucketCount startMs [] wheel
  | taken
      {uses : Uses α} {wheel next : Wheel α} {task : Task α}
      (rounds : Rounds tickMs bucketCount startMs uses wheel)
      (inserted : wheel.insert task = .ok (some next)) :
      Rounds tickMs bucketCount startMs (.taken (wheel.entry task) :: uses) next
  /-- A task that is refused leaves the wheel as it was. -/
  | refused
      {uses : Uses α} {wheel : Wheel α} {task : Task α}
      (rounds : Rounds tickMs bucketCount startMs uses wheel)
      (inserted : wheel.insert task = .ok none) :
      Rounds tickMs bucketCount startMs (.refused task :: uses) wheel
  | advanced
      {uses : Uses α} {wheel : Wheel α} {nowMs : Nat} {step : Advance α}
      (rounds : Rounds tickMs bucketCount startMs uses wheel)
      (advanced : wheel.advance nowMs = .ok step) :
      Rounds tickMs bucketCount startMs (.advanced nowMs step.due step.rotated :: uses) step.wheel

variable
    {wheel : Wheel α}
    {entries : List (Entry α)}
    {tasks : List (Task α)}
    {uses : Uses α}
    {entry : Entry α}
    {task : Task α}
    {tickMs bucketCount startMs nowMs : Nat}

/-! ## Buckets -/

theorem closesMs_le_closesMs
    {first second : Nat}
    (ordered : first ≤ second) :
    wheel.closesMs first ≤ wheel.closesMs second :=
  Nat.add_le_add_left (Nat.mul_le_mul_left _ (Nat.succ_le_succ ordered)) _

theorem closesMs_inj
    (ticking : 0 < wheel.tickMs)
    {first second : Nat} :
    wheel.closesMs first = wheel.closesMs second ↔ first = second := by
  constructor
  · intro same
    exact Nat.succ.inj (Nat.eq_of_mul_eq_mul_left ticking (Nat.add_left_cancel same))
  · rintro rfl
    rfl

/-- A task fires before the bucket that it goes into has ended. -/
theorem fireAtMs_lt_closesMs
    (ticking : 0 < wheel.tickMs)
    (task : Task α) :
    task.fireAtMs < wheel.closesMs (wheel.index task) := by
  have beyond := Nat.lt_mul_div_succ (task.fireAtMs - wheel.startMs) ticking
  have own : wheel.closesMs (wheel.offset task) ≤ wheel.closesMs (wheel.index task) :=
    closesMs_le_closesMs (Nat.le_max_left _ _)
  have inside : task.fireAtMs < wheel.closesMs (wheel.offset task) := by
    unfold closesMs offset
    omega
  exact Nat.lt_of_lt_of_le inside own

theorem closesMs_le_iff
    (ticking : 0 < wheel.tickMs)
    {index : Nat}
    (within : index < wheel.bucketCount) :
    wheel.closesMs index ≤ nowMs ↔ index < wheel.elapsed nowMs := by
  have positive := Nat.mul_pos ticking (Nat.add_one_pos index)
  rw [elapsed, Nat.lt_min, Nat.lt_iff_add_one_le, Nat.le_div_iff_mul_le ticking, Nat.mul_comm]
  unfold closesMs
  omega

/-- The entries in the buckets from `first` up to `past`, bucket by bucket. -/
def gathered (wheel : Wheel α) (first past : Nat) (entries : List (Entry α)) : List (Entry α) :=
  (List.range' first (past - first)).flatMap fun index =>
    endingAt (wheel.closesMs index) entries

/-- Where only one part gives anything, the whole is what that part gives. -/
theorem flatMap_eq_of_single
    {β γ : Type}
    {parts : List β}
    {give : β → List γ}
    {part : β}
    (distinct : parts.Nodup)
    (listed : part ∈ parts)
    (others : ∀ other ∈ parts, other ≠ part → give other = []) :
    parts.flatMap give = give part := by
  induction parts with
  | nil => cases listed
  | cons first rest ih =>
    obtain ⟨unlisted, distinct⟩ := List.nodup_cons.mp distinct
    have later (other : β) (among : other ∈ rest) : other ≠ part → give other = [] :=
      others other (List.mem_cons_of_mem _ among)
    rw [List.flatMap_cons]
    rcases List.mem_cons.mp listed with rfl | listed
    · have idle : rest.flatMap give = [] := List.flatMap_eq_nil_iff.mpr fun other among =>
        later other among fun same => unlisted (same ▸ among)
      rw [idle, List.append_nil]
    · have apart : first ≠ part := fun same => unlisted (same ▸ listed)
      rw [others first List.mem_cons_self apart, List.nil_append]
      exact ih distinct listed later

theorem gathered_sorted
    (first past : Nat)
    (entries : List (Entry α)) :
    (wheel.gathered first past entries).Pairwise fun former latter =>
      former.closesMs ≤ latter.closesMs := by
  refine List.pairwise_flatMap.mpr ⟨fun index _ => ?_, ?_⟩
  · apply List.pairwise_of_forall_mem_list
    intro former inFormer latter inLatter
    exact Nat.le_of_eq ((mem_endingAt.mp inFormer).2.trans (mem_endingAt.mp inLatter).2.symm)
  · have ordered : (List.range' first (past - first)).Pairwise (· < ·) := List.pairwise_lt_range'
    refine ordered.imp ?_
    intro one two ordered former inFormer latter inLatter
    rw [(mem_endingAt.mp inFormer).2, (mem_endingAt.mp inLatter).2]
    exact closesMs_le_closesMs (Nat.le_of_lt ordered)

/-- The buckets that a choice of entries comes from, bucket by bucket, are the chosen entries in
turn. -/
theorem inTurn_gathered
    (ticking : 0 < wheel.tickMs)
    {first past : Nat}
    {chosen : Entry α → Bool}
    (exact : ∀ entry ∈ entries, chosen entry = true ↔
      ∃ index, first ≤ index ∧ index < past ∧ entry.closesMs = wheel.closesMs index) :
    InTurn (entries.filter chosen) ((wheel.gathered first past entries).map Entry.task) := by
  refine ⟨_, rfl, gathered_sorted first past entries, fun endMs => ?_⟩
  have joined : endingAt endMs (wheel.gathered first past entries) =
      (List.range' first (past - first)).flatMap fun index =>
        endingAt endMs (endingAt (wheel.closesMs index) entries) :=
    List.filter_flatMap ..
  have elsewhere (index : Nat) (apart : wheel.closesMs index ≠ endMs) :
      endingAt endMs (endingAt (wheel.closesMs index) entries) = [] :=
    endingAt_eq_nil fun entry listed same =>
      apart ((mem_endingAt.mp listed).2.symm.trans same)
  rw [joined]
  by_cases present : ∃ index, first ≤ index ∧ index < past ∧ wheel.closesMs index = endMs
  · obtain ⟨index, behind, ahead, rfl⟩ := present
    have listed : index ∈ List.range' first (past - first) :=
      List.mem_range'_1.mpr ⟨behind, by omega⟩
    rw [flatMap_eq_of_single List.nodup_range' listed fun other _ apart =>
      elsewhere other (mt (closesMs_inj ticking).mp apart)]
    have whole : endingAt (wheel.closesMs index) (endingAt (wheel.closesMs index) entries) =
        endingAt (wheel.closesMs index) entries :=
      endingAt_filter fun entry _ same => decide_eq_true same
    rw [whole]
    exact (endingAt_filter fun entry among same =>
      (exact entry among).mpr ⟨index, behind, ahead, same⟩).symm
  · have nothing : endingAt endMs (entries.filter chosen) = [] := by
      apply endingAt_eq_nil
      rintro entry listed rfl
      obtain ⟨among, picked⟩ := List.mem_filter.mp listed
      obtain ⟨index, behind, ahead, same⟩ := (exact entry among).mp picked
      exact present ⟨index, behind, ahead, same.symm⟩
    rw [nothing]
    apply List.flatMap_eq_nil_iff.mpr
    intro index listed
    have within := List.mem_range'_1.mp listed
    exact elsewhere index fun same => present ⟨index, within.1, by omega, same⟩

/-! ## What a wheel holds -/

/-- A near wheel holds some entries, each in its bucket and in the order of the list, and the
buckets before the current one are empty. -/
structure Awaits (wheel : Wheel α) (entries : List (Entry α)) : Prop where
  ticking : 0 < wheel.tickMs
  current_lt : wheel.current < wheel.bucketCount
  buckets : ∀ index < wheel.bucketCount,
    wheel.buckets[index]? = some ((endingAt (wheel.closesMs index) entries).map Entry.task)
  ahead : ∀ entry ∈ entries, ∃ index, wheel.current ≤ index ∧ index < wheel.bucketCount ∧
    entry.closesMs = wheel.closesMs index
  unripe : ∀ entry ∈ entries, entry.task.fireAtMs < entry.closesMs

namespace Awaits

/-- No entry belongs to a bucket that has been drained. -/
theorem endingAt_passed
    (awaits : wheel.Awaits entries)
    {index : Nat}
    (passed : index < wheel.current) :
    endingAt (wheel.closesMs index) entries = [] := by
  apply endingAt_eq_nil
  intro entry listed same
  obtain ⟨own, behind, _, closes⟩ := awaits.ahead entry listed
  have := (closesMs_inj awaits.ticking).mp (closes.symm.trans same)
  omega

theorem passed_empty
    (awaits : wheel.Awaits entries)
    {index : Nat}
    (passed : index < wheel.current) :
    wheel.buckets[index]? = some [] := by
  rw [awaits.buckets index (Nat.lt_trans passed awaits.current_lt), awaits.endingAt_passed passed]
  rfl

/-- The content of some buckets in a row. -/
theorem flatten_eq_gathered
    (awaits : wheel.Awaits entries)
    {first past : Nat}
    (ordered : first ≤ past)
    (within : past ≤ wheel.bucketCount) :
    ((wheel.buckets.drop first).take (past - first)).flatten =
      (wheel.gathered first past entries).map Entry.task := by
  have listed : wheel.buckets = (List.range wheel.bucketCount).map fun index =>
      (endingAt (wheel.closesMs index) entries).map Entry.task := by
    apply List.ext_getElem?
    intro index
    by_cases inside : index < wheel.bucketCount
    · rw [awaits.buckets index inside, List.getElem?_map, List.getElem?_range inside]
      rfl
    · rw [List.getElem?_eq_none (Nat.not_lt.mp inside), List.getElem?_eq_none]
      simpa using inside
  unfold gathered
  rw [listed, ← List.map_drop, ← List.map_take, List.map_flatMap, List.flatMap_def,
    List.range_eq_range', List.drop_range', List.take_range'_of_length_ge (by omega)]
  simp

theorem inTurn_tasks (awaits : wheel.Awaits entries) : InTurn entries wheel.tasks := by
  have whole := awaits.flatten_eq_gathered (Nat.zero_le wheel.bucketCount) (Nat.le_refl _)
  rw [List.drop_zero, Nat.sub_zero, bucketCount, List.take_length] at whole
  have all : InTurn (entries.filter fun _ => true)
      ((wheel.gathered 0 wheel.bucketCount entries).map Entry.task) := by
    apply inTurn_gathered awaits.ticking
    intro entry listed
    obtain ⟨index, _, within, closes⟩ := awaits.ahead entry listed
    exact ⟨fun _ => ⟨index, Nat.zero_le _, within, closes⟩, fun _ => rfl⟩
  rw [List.filter_eq_self.mpr fun _ _ => rfl] at all
  unfold tasks
  rw [whole]
  exact all

theorem place
    (awaits : wheel.Awaits entries)
    (within : task.fireAtMs < wheel.pastMs) :
    (wheel.place (wheel.index task) task).Awaits (entries ++ [wheel.entry task]) where
  ticking := awaits.ticking
  current_lt := by
    rw [bucketCount_place]
    exact awaits.current_lt
  buckets := by
    intro bucket inside
    rw [bucketCount_place] at inside
    change (wheel.buckets.modify (wheel.index task) (· ++ [task]))[bucket]? =
      some ((endingAt (wheel.closesMs bucket) (entries ++ [wheel.entry task])).map Entry.task)
    rw [List.getElem?_modify, awaits.buckets bucket inside, endingAt_append, endingAt_singleton]
    by_cases same : wheel.index task = bucket
    · simp [Wheel.entry, same]
    · have apart : (wheel.entry task).closesMs ≠ wheel.closesMs bucket :=
        mt (closesMs_inj awaits.ticking).mp same
      simp [same, apart]
  ahead := by
    rw [bucketCount_place]
    refine List.forall_mem_append.mpr ⟨awaits.ahead, List.forall_mem_singleton.mpr ?_⟩
    exact ⟨wheel.index task, Nat.le_max_right _ _,
      index_lt awaits.ticking awaits.current_lt within, rfl⟩
  unripe := List.forall_mem_append.mpr ⟨awaits.unripe,
    List.forall_mem_singleton.mpr (fireAtMs_lt_closesMs awaits.ticking task)⟩

/-- What an advance drains are the entries whose bucket has ended. -/
theorem inTurn_due (awaits : wheel.Awaits entries) (nowMs : Nat) :
    InTurn (ended nowMs entries) (wheel.due nowMs) := by
  have most : wheel.elapsed nowMs ≤ wheel.bucketCount := Nat.min_le_right _ _
  unfold due
  rw [awaits.flatten_eq_gathered (Nat.min_le_right _ _) most]
  apply inTurn_gathered awaits.ticking
  intro entry listed
  obtain ⟨own, behind, within, closes⟩ := awaits.ahead entry listed
  rw [decide_eq_true_eq, closes, closesMs_le_iff awaits.ticking within]
  constructor
  · intro reached
    exact ⟨own, by omega, reached, rfl⟩
  · rintro ⟨index, _, reached, same⟩
    rw [(closesMs_inj awaits.ticking).mp same]
    exact reached

/-- The others stay in their buckets. -/
theorem getElem?_swept
    (awaits : wheel.Awaits entries)
    (nowMs : Nat)
    {index : Nat}
    (within : index < wheel.bucketCount) :
    (wheel.swept nowMs)[index]? =
      some ((endingAt (wheel.closesMs index) (unended nowMs entries)).map Entry.task) := by
  have most : wheel.elapsed nowMs ≤ wheel.bucketCount := Nat.min_le_right _ _
  have reached : wheel.closesMs index ≤ nowMs ↔ index < wheel.elapsed nowMs :=
    closesMs_le_iff awaits.ticking within
  rw [swept, getElem?_clear (Nat.min_le_right _ _) most, awaits.buckets index within]
  by_cases ends : index < wheel.elapsed nowMs
  · have nothing : endingAt (wheel.closesMs index) (unended nowMs entries) = [] := by
      apply endingAt_eq_nil
      intro entry listed same
      have later := (mem_unended.mp listed).2
      have passed := reached.mpr ends
      omega
    rw [nothing]
    split
    · rfl
    · rw [awaits.endingAt_passed (by omega)]
  · have kept : endingAt (wheel.closesMs index) (unended nowMs entries) =
        endingAt (wheel.closesMs index) entries := by
      apply endingAt_filter
      intro entry _ same
      have later := mt reached.mp ends
      rw [decide_eq_true_eq]
      omega
    rw [kept, if_neg (by omega)]

theorem progressed
    (awaits : wheel.Awaits entries)
    (partly : wheel.elapsed nowMs ≠ wheel.bucketCount) :
    (wheel.progressed nowMs).Awaits (unended nowMs entries) where
  ticking := awaits.ticking
  current_lt := by
    have most : wheel.elapsed nowMs ≤ wheel.bucketCount := Nat.min_le_right _ _
    rw [bucketCount_progressed]
    exact Nat.max_lt.mpr ⟨awaits.current_lt, by omega⟩
  buckets := by
    rw [bucketCount_progressed]
    exact fun index => awaits.getElem?_swept nowMs
  ahead := by
    rw [bucketCount_progressed]
    intro entry waits
    obtain ⟨listed, later⟩ := mem_unended.mp waits
    obtain ⟨index, behind, within, closes⟩ := awaits.ahead entry listed
    have reached : wheel.closesMs index ≤ nowMs ↔ index < wheel.elapsed nowMs :=
      closesMs_le_iff awaits.ticking within
    exact ⟨index, Nat.max_le.mpr ⟨behind, by omega⟩, within, closes⟩
  unripe := fun entry waits => awaits.unripe entry (mem_unended.mp waits).1

/-- At the end of the window every bucket has ended. -/
theorem unended_eq_nil
    (awaits : wheel.Awaits entries)
    (past : wheel.pastMs ≤ nowMs) :
    unended nowMs entries = [] := by
  have counted := Nat.zero_lt_of_lt awaits.current_lt
  have all := (elapsed_eq_bucketCount_iff awaits.ticking counted).mpr past
  apply List.eq_nil_iff_forall_not_mem.mpr
  intro entry waits
  obtain ⟨listed, later⟩ := mem_unended.mp waits
  obtain ⟨index, _, within, closes⟩ := awaits.ahead entry listed
  have reached := (closesMs_le_iff awaits.ticking within).mpr (all ▸ within)
  omega

theorem restarted
    (awaits : wheel.Awaits entries)
    (past : wheel.pastMs ≤ nowMs) :
    (wheel.restarted nowMs).Awaits [] where
  ticking := awaits.ticking
  current_lt := by
    rw [bucketCount_restarted]
    exact Nat.zero_lt_of_lt awaits.current_lt
  buckets := by
    rw [bucketCount_restarted]
    intro index within
    have cleared := awaits.getElem?_swept nowMs within
    rw [awaits.unended_eq_nil past] at cleared
    exact cleared
  ahead := List.forall_mem_nil _
  unripe := List.forall_mem_nil _

/-- An advance hands out the entries whose bucket has ended, whatever the clock says, and holds the
others.  It completes the rotation at the end of the window. -/
theorem advanced
    (awaits : wheel.Awaits entries)
    {step : Advance α}
    (advanced : wheel.advance nowMs = .ok step) :
    InTurn (ended nowMs entries) step.due ∧ step.wheel.Awaits (unended nowMs entries) ∧
      (step.rotated = true ↔ wheel.pastMs ≤ nowMs) := by
  have counted := Nat.zero_lt_of_lt awaits.current_lt
  have whole : wheel.elapsed nowMs = wheel.bucketCount ↔ wheel.pastMs ≤ nowMs :=
    elapsed_eq_bucketCount_iff awaits.ticking counted
  rcases advance_eq_ok awaits.ticking advanced with ⟨all, rfl⟩ | ⟨partly, rfl⟩
  · have past := whole.mp all
    rw [awaits.unended_eq_nil past]
    exact ⟨awaits.inTurn_due nowMs, awaits.restarted past, fun _ => past, fun _ => rfl⟩
  · exact ⟨awaits.inTurn_due nowMs, awaits.progressed partly, nofun,
      fun past => (partly (whole.mpr past)).elim⟩

/-- As long as the end of the window fits into a word, the wheel can be advanced to any clock
value. -/
theorem exists_advance
    (awaits : wheel.Awaits entries)
    (fits : wheel.pastMs < Word.limit)
    (nowMs : Nat) :
    ∃ step, wheel.advance nowMs = .ok step := by
  rw [advance_eq awaits.ticking, if_pos fits]
  split
  · exact ⟨_, rfl⟩
  · exact ⟨_, rfl⟩

end Awaits

/-! ## Every run -/

/-- Where a near wheel stands after some uses. -/
structure Stands (wheel : Wheel α) (tickMs bucketCount startMs : Nat) (uses : Uses α) : Prop where
  tickMs_eq : wheel.tickMs = tickMs
  bucketCount_eq : wheel.bucketCount = bucketCount
  /-- Each complete rotation has moved the window by its own length. -/
  startMs_eq : wheel.startMs = startMs + tickMs * bucketCount * uses.rotations
  /-- The buckets from the current one on are those that no advance in this rotation has reached. -/
  current_le_iff : ∀ index < wheel.bucketCount,
    wheel.current ≤ index ↔ uses.present.Spares (wheel.closesMs index)

theorem Stands.advanced
    (stands : wheel.Stands tickMs bucketCount startMs uses)
    (ticking : 0 < wheel.tickMs)
    {step : Advance α}
    (advanced : wheel.advance nowMs = .ok step) :
    step.wheel.Stands tickMs bucketCount startMs (.advanced nowMs step.due step.rotated :: uses) := by
  rcases advance_eq_ok ticking advanced with ⟨_, rfl⟩ | ⟨_, rfl⟩
  · exact {
      tickMs_eq := stands.tickMs_eq
      bucketCount_eq := (bucketCount_restarted wheel nowMs).trans stands.bucketCount_eq
      startMs_eq := by
        have counted : Uses.rotations (.advanced nowMs (wheel.due nowMs) true :: uses) =
            uses.rotations + 1 := List.countP_cons_of_pos rfl
        change wheel.startMs + wheel.tickMs * wheel.bucketCount = _
        rw [counted, stands.startMs_eq, stands.tickMs_eq, stands.bucketCount_eq, Nat.mul_succ,
          Nat.add_assoc]
      current_le_iff := fun index _ => ⟨fun _ => List.forall_mem_nil _, fun _ => Nat.zero_le _⟩ }
  · exact {
      tickMs_eq := stands.tickMs_eq
      bucketCount_eq := (bucketCount_progressed wheel nowMs).trans stands.bucketCount_eq
      startMs_eq := stands.startMs_eq
      current_le_iff := by
        rw [bucketCount_progressed]
        intro index within
        change max wheel.current (wheel.elapsed nowMs) ≤ index ↔ _
        have reached : wheel.closesMs index ≤ nowMs ↔ index < wheel.elapsed nowMs :=
          closesMs_le_iff ticking within
        rw [Uses.spares_present_cons rfl, Nat.max_le, stands.current_le_iff index within,
          ← Nat.not_lt, ← reached, Nat.not_le]
        exact and_comm }

/-- What one advance hands out, by what was done to the wheel before. -/
structure HandsOut
    (earlier : Uses α)
    (nowMs : Nat)
    (due : List (Task α))
    (rotated : Bool) : Prop where
  /-- It hands out bucket by bucket what waits in the buckets that have ended. -/
  inTurn : InTurn (ended nowMs earlier.waiting) due
  /-- So a task comes out at the first advance at or after the end of its bucket. -/
  first : ∀ task, task ∈ due ↔ ∃ entry since before,
    earlier = since ++ .taken entry :: before ∧ entry.task = task ∧
      Uses.Spares since entry.closesMs ∧ entry.closesMs ≤ nowMs
  /-- Its time is over by then. -/
  ripe : ∀ task ∈ due, task.fireAtMs < nowMs
  /-- When the rotation is complete, all that was taken before has come out. -/
  emptied : rotated = true → Uses.waiting (.advanced nowMs due rotated :: earlier) = []

theorem Awaits.handsOut
    (awaits : wheel.Awaits uses.waiting)
    {step : Advance α}
    (advanced : wheel.advance nowMs = .ok step) :
    HandsOut uses nowMs step.due step.rotated := by
  obtain ⟨inTurn, _, whole⟩ := awaits.advanced advanced
  exact {
    inTurn
    first := by
      intro task
      rw [inTurn.mem_iff]
      constructor
      · rintro ⟨entry, listed, same⟩
        obtain ⟨waits, reached⟩ := mem_ended.mp listed
        obtain ⟨since, before, split, spares⟩ := Uses.mem_waiting_iff.mp waits
        exact ⟨entry, since, before, split, same, spares, reached⟩
      · rintro ⟨entry, since, before, split, same, spares, reached⟩
        have waits := Uses.mem_waiting_iff.mpr ⟨since, before, split, spares⟩
        exact ⟨entry, mem_ended.mpr ⟨waits, reached⟩, same⟩
    ripe := by
      intro task listed
      obtain ⟨entry, among, rfl⟩ := inTurn.mem_iff.mp listed
      obtain ⟨waits, reached⟩ := mem_ended.mp among
      exact Nat.lt_of_lt_of_le (awaits.unripe entry waits) reached
    emptied := fun rotated => awaits.unended_eq_nil (whole.mp rotated) }

namespace Rounds

theorem awaits
    (rounds : Rounds tickMs bucketCount startMs uses wheel)
    (ticking : 0 < tickMs)
    (counted : 0 < bucketCount) :
    wheel.Awaits uses.waiting := by
  induction rounds with
  | begun made =>
    obtain rfl := ofDimensions_eq made
    exact {
      ticking
      current_lt := by simpa [Wheel.bucketCount] using counted
      buckets := sorts_iff.mp (sorts_fresh fun _ => 0)
      ahead := List.forall_mem_nil _
      unripe := List.forall_mem_nil _ }
  | taken _ inserted ih =>
    obtain ⟨within, rfl⟩ := insert_eq_some ih.ticking ih.current_lt inserted
    exact ih.place within
  | refused _ _ ih => exact ih
  | advanced _ advanced ih => exact (ih.advanced advanced).2.1

theorem stands
    (rounds : Rounds tickMs bucketCount startMs uses wheel)
    (ticking : 0 < tickMs)
    (counted : 0 < bucketCount) :
    wheel.Stands tickMs bucketCount startMs uses := by
  induction rounds with
  | begun made =>
    obtain rfl := ofDimensions_eq made
    exact {
      tickMs_eq := rfl
      bucketCount_eq := List.length_replicate
      startMs_eq := rfl
      current_le_iff := fun _ _ => ⟨fun _ => List.forall_mem_nil _, fun _ => Nat.zero_le _⟩ }
  | taken rounds inserted ih =>
    have awaits := rounds.awaits ticking counted
    obtain ⟨_, rfl⟩ := insert_eq_some awaits.ticking awaits.current_lt inserted
    exact {
      tickMs_eq := ih.tickMs_eq
      bucketCount_eq := (bucketCount_place _).trans ih.bucketCount_eq
      startMs_eq := ih.startMs_eq
      current_le_iff := by
        rw [bucketCount_place]
        intro index within
        rw [Uses.spares_present_cons rfl]
        exact (ih.current_le_iff index within).trans (and_iff_right trivial).symm }
  | refused _ _ ih =>
    exact { ih with
      current_le_iff := by
        intro index within
        rw [Uses.spares_present_cons rfl]
        exact (ih.current_le_iff index within).trans (and_iff_right trivial).symm }
  | advanced rounds advanced ih =>
    exact ih.advanced (rounds.awaits ticking counted).ticking advanced

/-- Whatever was taken has either come out or still waits. -/
theorem taken_perm
    (rounds : Rounds tickMs bucketCount startMs uses wheel)
    (ticking : 0 < tickMs)
    (counted : 0 < bucketCount) :
    uses.taken.Perm (uses.drained ++ uses.waiting.map Entry.task) := by
  induction rounds with
  | begun _ => exact .nil
  | @taken uses wheel _ task _ _ ih =>
    change ([task] ++ uses.taken).Perm
      (uses.drained ++ (uses.waiting ++ [wheel.entry task]).map Entry.task)
    rw [List.map_append, ← List.append_assoc]
    exact List.perm_append_comm.trans (ih.append_right [task])
  | refused _ _ ih => exact ih
  | @advanced uses wheel nowMs step rounds advanced ih =>
    have due := ((rounds.awaits ticking counted).advanced advanced).1.perm
    have split := (ended_append_unended_perm nowMs uses.waiting).map Entry.task
    rw [List.map_append] at split
    calc
      uses.taken.Perm (uses.drained ++ uses.waiting.map Entry.task) := ih
      _ |>.Perm (uses.drained ++ ((ended nowMs uses.waiting).map Entry.task ++
          (unended nowMs uses.waiting).map Entry.task)) := split.symm.append_left _
      _ |>.Perm (uses.drained ++ (step.due ++ (unended nowMs uses.waiting).map Entry.task)) :=
        (due.symm.append_right _).append_left _
      _ |>.Perm (step.due ++ uses.drained ++ (unended nowMs uses.waiting).map Entry.task) := by
        rw [← List.append_assoc]
        exact List.perm_append_comm.append_right _

/-- Each advance in a history was made on a wheel that had come so far. -/
theorem exists_advance
    {later earlier : Uses α}
    {due : List (Task α)}
    {rotated : Bool}
    (rounds : Rounds tickMs bucketCount startMs
      (later ++ .advanced nowMs due rotated :: earlier) wheel) :
    ∃ before step, Rounds tickMs bucketCount startMs earlier before ∧
      before.advance nowMs = .ok step ∧ step.due = due ∧ step.rotated = rotated := by
  induction later generalizing wheel with
  | nil =>
    cases rounds with
    | advanced rounds advanced => exact ⟨_, _, rounds, advanced, rfl, rfl⟩
  | cons latest later ih =>
    cases rounds with
    | taken rounds _ => exact ih rounds
    | refused rounds _ => exact ih rounds
    | advanced rounds _ => exact ih rounds

/-- However a near wheel is used, the buckets before its current one are empty, and where it stands
is known from the advances alone.  It refuses exactly the tasks from the end of its window on, and
can be advanced to any clock value.  What it took has come out or is still held, each task once.
Every advance hands out, in turn, what waits in the buckets that have ended: each task comes out at
the first advance at or after the end of its bucket, not before its time is over, and when the
rotation is complete at the latest. -/
theorem hands_out_in_turn
    (rounds : Rounds tickMs bucketCount startMs uses wheel)
    (ticking : 0 < tickMs)
    (counted : 0 < bucketCount) :
    wheel.current < wheel.bucketCount ∧
      (∀ index < wheel.current, wheel.buckets[index]? = some []) ∧
      wheel.Stands tickMs bucketCount startMs uses ∧
      (∀ endMs, wheel.endMs = .ok endMs →
        (∀ task, ∃ answer, wheel.insert task = .ok answer ∧
          (answer = none ↔ endMs ≤ task.fireAtMs)) ∧
        ∀ nowMs, ∃ step, wheel.advance nowMs = .ok step ∧
          (step.rotated = true ↔ endMs ≤ nowMs)) ∧
      uses.taken.Perm (uses.drained ++ wheel.tasks) ∧
      InTurn uses.waiting wheel.tasks ∧
      ∀ later nowMs due rotated earlier,
        uses = later ++ .advanced nowMs due rotated :: earlier →
          HandsOut earlier nowMs due rotated := by
  have awaits := rounds.awaits ticking counted
  have held := awaits.inTurn_tasks
  refine ⟨awaits.current_lt, fun index => awaits.passed_empty, rounds.stands ticking counted,
    ?_, ?_, held, ?_⟩
  · intro endMs ends
    obtain ⟨fits, rfl⟩ := endMs_eq_ok_iff.mp ends
    refine ⟨fun task => ?_, fun nowMs => ?_⟩
    · rw [insert_eq awaits.ticking awaits.current_lt fits]
      exact ⟨_, rfl, by simp⟩
    · obtain ⟨step, advanced⟩ := awaits.exists_advance fits nowMs
      exact ⟨step, advanced, (awaits.advanced advanced).2.2⟩
  · exact (rounds.taken_perm ticking counted).trans (held.perm.symm.append_left _)
  · rintro later nowMs due rotated earlier rfl
    obtain ⟨before, step, reached, advanced, rfl, rfl⟩ := rounds.exists_advance
    exact (reached.awaits ticking counted).handsOut advanced

end Rounds

/-! ### A task that comes too late

The wheel has been advanced into its third bucket when a task comes whose time was over long before.
It goes into that bucket, behind the task that is there already, and both come out before the task
of the last bucket, although that was the first to be taken. -/

namespace Belated

def dusk : Task String := ⟨⟨0⟩, Delay.ofMs 35, none, 135, "dusk"⟩

def noon : Task String := ⟨⟨1⟩, Delay.ofMs 25, none, 125, "noon"⟩

def dawn : Task String := ⟨⟨2⟩, Delay.ofMs 3, none, 3, "dawn"⟩

/-- Its time is the end of the window. -/
def night : Task String := ⟨⟨3⟩, Delay.ofMs 40, none, 140, "night"⟩

/-- What is done before the rotation is completed, the clock going back once. -/
def morning : Uses String :=
  [.advanced 90 [] false, .refused night, .taken ⟨dawn, 130⟩, .advanced 127 [] false,
    .taken ⟨noon, 130⟩, .taken ⟨dusk, 140⟩]

def day : Uses String := .advanced 1000 [noon, dawn, dusk] true :: morning

/-- The wheel after that, in its next rotation. -/
def renewed : Wheel String := ⟨10, [[], [], [], []], 140, 0⟩

theorem rounds : Rounds 10 4 100 day renewed := by
  have begun : Rounds 10 4 100 [] (⟨10, [[], [], [], []], 100, 0⟩ : Wheel String) := .begun rfl
  have first : Rounds 10 4 100 (morning.drop 5) ⟨10, [[], [], [], [dusk]], 100, 0⟩ :=
    begun.taken (show Wheel.insert _ dusk = _ from rfl)
  have second : Rounds 10 4 100 (morning.drop 4) ⟨10, [[], [], [noon], [dusk]], 100, 0⟩ :=
    first.taken (show Wheel.insert _ noon = _ from rfl)
  have third : Rounds 10 4 100 (morning.drop 3) ⟨10, [[], [], [noon], [dusk]], 100, 2⟩ :=
    second.advanced (show Wheel.advance _ 127 = .ok ⟨_, [], false⟩ from rfl)
  have fourth : Rounds 10 4 100 (morning.drop 2) ⟨10, [[], [], [noon, dawn], [dusk]], 100, 2⟩ :=
    third.taken (show Wheel.insert _ dawn = _ from rfl)
  have fifth : Rounds 10 4 100 (morning.drop 1) ⟨10, [[], [], [noon, dawn], [dusk]], 100, 2⟩ :=
    fourth.refused (show Wheel.insert _ night = _ from rfl)
  have sixth : Rounds 10 4 100 morning ⟨10, [[], [], [noon, dawn], [dusk]], 100, 2⟩ :=
    fifth.advanced (show Wheel.advance _ 90 = .ok ⟨_, [], false⟩ from rfl)
  exact sixth.advanced (show Wheel.advance _ 1000 = .ok ⟨renewed, _, true⟩ from rfl)

end Belated

theorem Rounds.hands_out_in_turn_belated :
    Rounds 10 4 100 Belated.day Belated.renewed ∧
      HandsOut Belated.morning 1000 [Belated.noon, Belated.dawn, Belated.dusk] true ∧
      Belated.day.taken.Perm [Belated.noon, Belated.dawn, Belated.dusk] ∧
      Belated.day.waiting = [] ∧
      (∃ answer, Belated.renewed.insert Belated.night = .ok answer ∧ answer ≠ none) ∧
      ∃ step, Belated.renewed.advance 0 = .ok step ∧ step.rotated = false := by
  obtain ⟨_, _, _, answers, kept, _, handsOut⟩ :=
    Belated.rounds.hands_out_in_turn (by decide) (by decide)
  have out := handsOut [] 1000 _ true Belated.morning rfl
  obtain ⟨inserts, advances⟩ := answers 180 rfl
  obtain ⟨answer, inserted, refusal⟩ := inserts Belated.night
  obtain ⟨step, advanced, whole⟩ := advances 0
  refine ⟨Belated.rounds, out, kept, out.emptied rfl, ?_, step, advanced, ?_⟩
  · exact ⟨answer, inserted, mt refusal.mp (by decide)⟩
  · exact Bool.eq_false_iff.mpr (mt whole.mp (by decide))

end Quorum.Wheel
