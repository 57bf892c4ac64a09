import Quorum.Timing.Task

/-!
# What a near wheel is told

A near wheel puts each task that it takes into a bucket, and an advance of the clock brings out the
buckets that have ended.  An `Entry` is a task together with the end of its bucket, and a list of
`Uses` is everything that was done to a wheel.

The uses alone say which entries still wait (`Uses.waiting`): those whose bucket had not ended at any
advance since they were taken (`Uses.mem_waiting_iff`).  Waiting entries are kept in the order in
which they came, while a wheel hands tasks out bucket by bucket; `InTurn` says that it does so
without changing the order within a bucket.
-/

namespace Quorum.Wheel

variable {α : Type}

/-! ## What is written down -/

/-- A task that a near wheel took, with the end of the bucket that it went into. -/
structure Entry (α : Type) where
  task : Task α
  closesMs : Nat
  deriving DecidableEq, Repr

/-- One use of a near wheel, and what came of it. -/
inductive Use (α : Type) where
  | taken (entry : Entry α)
  | refused (task : Task α)
  | advanced (nowMs : Nat) (due : List (Task α)) (rotated : Bool)
  deriving DecidableEq, Repr

/-- Whether an advance completed the rotation. -/
def Use.rotates : Use α → Bool
  | taken _ => false
  | refused _ => false
  | advanced _ _ rotated => rotated

/-- An advance to a time before the end of a bucket does not reach it. -/
def Use.Spares (endMs : Nat) : Use α → Prop
  | taken _ => True
  | refused _ => True
  | advanced nowMs _ _ => nowMs < endMs

/-- Everything that was done to a near wheel, the latest first. -/
abbrev Uses (α : Type) := List (Use α)

/-- The entries whose bucket ends at one instant. -/
def endingAt (endMs : Nat) (entries : List (Entry α)) : List (Entry α) :=
  entries.filter fun entry => entry.closesMs = endMs

/-- The entries whose bucket has ended. -/
def ended (nowMs : Nat) (entries : List (Entry α)) : List (Entry α) :=
  entries.filter fun entry => entry.closesMs ≤ nowMs

/-- The entries whose bucket has not ended. -/
def unended (nowMs : Nat) (entries : List (Entry α)) : List (Entry α) :=
  entries.filter fun entry => nowMs < entry.closesMs

/-- These are the tasks of the entries bucket by bucket: what is in a bucket that ends earlier comes
first, and in each bucket the order is that of the entries. -/
def InTurn (entries : List (Entry α)) (tasks : List (Task α)) : Prop :=
  ∃ sorted : List (Entry α), tasks = sorted.map Entry.task ∧
    (sorted.Pairwise fun former latter => former.closesMs ≤ latter.closesMs) ∧
    ∀ endMs, endingAt endMs sorted = endingAt endMs entries

namespace Uses

/-- Every task that the wheel took. -/
def taken (uses : Uses α) : List (Task α) :=
  uses.flatMap fun
    | .taken entry => [entry.task]
    | .refused _ => []
    | .advanced _ _ _ => []

/-- Every task that the wheel handed out. -/
def drained (uses : Uses α) : List (Task α) :=
  uses.flatMap fun
    | .taken _ => []
    | .refused _ => []
    | .advanced _ due _ => due

/-- The entries that no advance has reached yet, in the order in which they were taken. -/
def waiting : Uses α → List (Entry α)
  | [] => []
  | .taken entry :: earlier => waiting earlier ++ [entry]
  | .refused _ :: earlier => waiting earlier
  | .advanced nowMs _ _ :: earlier => unended nowMs (waiting earlier)

/-- The uses since a rotation was completed last. -/
def present (uses : Uses α) : Uses α := uses.takeWhile fun use => !use.rotates

/-- How many rotations were completed. -/
def rotations (uses : Uses α) : Nat := uses.countP Use.rotates

/-- No advance among these reached the end of a bucket. -/
def Spares (uses : Uses α) (endMs : Nat) : Prop := ∀ use ∈ uses, use.Spares endMs

end Uses

variable
    {entries : List (Entry α)}
    {tasks : List (Task α)}
    {uses : Uses α}
    {entry : Entry α}
    {task : Task α}
    {nowMs : Nat}

/-! ## Entries -/

theorem mem_endingAt {endMs : Nat} :
    entry ∈ endingAt endMs entries ↔ entry ∈ entries ∧ entry.closesMs = endMs := by
  simp [endingAt]

theorem mem_ended : entry ∈ ended nowMs entries ↔ entry ∈ entries ∧ entry.closesMs ≤ nowMs := by
  simp [ended]

theorem mem_unended :
    entry ∈ unended nowMs entries ↔ entry ∈ entries ∧ nowMs < entry.closesMs := by
  simp [unended]

theorem endingAt_append (endMs : Nat) (front back : List (Entry α)) :
    endingAt endMs (front ++ back) = endingAt endMs front ++ endingAt endMs back :=
  List.filter_append ..

theorem endingAt_singleton (endMs : Nat) (entry : Entry α) :
    endingAt endMs [entry] = if entry.closesMs = endMs then [entry] else [] := by
  by_cases same : entry.closesMs = endMs
  · simp [endingAt, same]
  · simp [endingAt, same]

theorem endingAt_eq_nil
    {endMs : Nat}
    (elsewhere : ∀ entry ∈ entries, entry.closesMs ≠ endMs) :
    endingAt endMs entries = [] := by
  apply List.filter_eq_nil_iff.mpr
  intro entry listed
  rw [decide_eq_true_eq]
  exact elsewhere entry listed

/-- A choice that spares one bucket does not change it. -/
theorem endingAt_filter
    {endMs : Nat}
    {chosen : Entry α → Bool}
    (spared : ∀ entry ∈ entries, entry.closesMs = endMs → chosen entry = true) :
    endingAt endMs (entries.filter chosen) = endingAt endMs entries := by
  unfold endingAt
  rw [List.filter_filter]
  apply List.filter_congr
  intro entry listed
  by_cases same : entry.closesMs = endMs
  · simp [same, spared entry listed same]
  · simp [same]

theorem ended_append_unended_perm (nowMs : Nat) (entries : List (Entry α)) :
    (ended nowMs entries ++ unended nowMs entries).Perm entries := by
  have rest : unended nowMs entries =
      entries.filter fun entry => !decide (entry.closesMs ≤ nowMs) := by
    apply List.filter_congr
    intro entry _
    rw [← decide_not, decide_eq_decide, Nat.not_le]
  rw [rest]
  exact List.filter_append_perm _ entries

/-- Lists that agree bucket by bucket have the same entries, each as often. -/
theorem perm_of_endingAt_eq
    {sorted : List (Entry α)}
    (same : ∀ endMs, endingAt endMs sorted = endingAt endMs entries) :
    sorted.Perm entries := by
  classical
  have counted (among : List (Entry α)) (entry : Entry α) :
      (endingAt entry.closesMs among).count entry = among.count entry := by
    unfold endingAt
    exact List.count_filter (by simp)
  rw [List.perm_iff_count]
  intro entry
  rw [← counted, same, counted]

theorem InTurn.perm (inTurn : InTurn entries tasks) : tasks.Perm (entries.map Entry.task) := by
  obtain ⟨sorted, rfl, _, same⟩ := inTurn
  exact (perm_of_endingAt_eq same).map _

theorem InTurn.mem_iff (inTurn : InTurn entries tasks) :
    task ∈ tasks ↔ ∃ entry ∈ entries, entry.task = task := by
  rw [inTurn.perm.mem_iff, List.mem_map]

/-! ## Histories -/

namespace Uses

/-- Only an advance that completes the rotation makes what was done before it a thing of the past. -/
theorem spares_present_cons
    {use : Use α}
    {endMs : Nat}
    (partly : use.rotates = false) :
    Spares (present (use :: uses)) endMs ↔ use.Spares endMs ∧ Spares (present uses) endMs := by
  have kept : present (use :: uses) = use :: present uses :=
    List.takeWhile_cons_of_pos (by simp [partly])
  rw [kept]
  exact List.forall_mem_cons

/-- What waits are the entries whose bucket had not ended at any advance since they were taken. -/
theorem mem_waiting_iff :
    entry ∈ uses.waiting ↔
      ∃ since before, uses = since ++ .taken entry :: before ∧ Spares since entry.closesMs := by
  induction uses with
  | nil => simp [waiting]
  | cons use earlier ih =>
    constructor
    · intro waits
      have old (kept : entry ∈ waiting earlier) (spares : use.Spares entry.closesMs) :
          ∃ since before, use :: earlier = since ++ .taken entry :: before ∧
            Spares since entry.closesMs := by
        obtain ⟨since, before, rfl, spared⟩ := ih.mp kept
        exact ⟨use :: since, before, rfl, List.forall_mem_cons.mpr ⟨spares, spared⟩⟩
      cases use with
      | taken other =>
        rcases List.mem_append.mp waits with kept | new
        · exact old kept trivial
        · obtain rfl := List.mem_singleton.mp new
          exact ⟨[], earlier, rfl, List.forall_mem_nil _⟩
      | refused _ => exact old waits trivial
      | advanced nowMs _ _ =>
        obtain ⟨kept, later⟩ := mem_unended.mp waits
        exact old kept later
    · rintro ⟨since, before, split, spares⟩
      cases since with
      | nil =>
        cases split
        exact List.mem_append_right _ (List.mem_singleton.mpr rfl)
      | cons _ since =>
        cases split
        obtain ⟨later, spares⟩ := List.forall_mem_cons.mp spares
        have kept : entry ∈ waiting (since ++ .taken entry :: before) :=
          ih.mpr ⟨since, before, rfl, spares⟩
        cases use with
        | taken other => exact List.mem_append_left _ kept
        | refused _ => exact kept
        | advanced nowMs due rotated => exact mem_unended.mpr ⟨kept, later⟩

end Uses

end Quorum.Wheel
