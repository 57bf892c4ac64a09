import Quorum.Proofs.Timing.Ring
import Quorum.Timing.TwoTier

/-!
# Both wheels against one agenda

The near wheel holds the tasks of an agenda whose slot lies in the present rotation, the far wheel
holds the later ones, and the far window always begins where the near window ends.  The two windows
are moved by different operations; `TwoTier.Tracks` is what keeps them in step.

`TwoTier.Stands` forgets where the present rotation began, and only says at which slot the wheels
stand.  In these terms settling is what it is on a plain list: everything up to the slot of the
clock is handed out slot by slot, and the rest stays.
-/

namespace Quorum.TwoTier

open Agenda

variable
    {α : Type}
    {config : TimerConfig}
    {tiers : TwoTier α}
    {base : Nat}
    {agenda : List (Task α)}

/-- The wheels hold the agenda, and the present rotation began with the slot `base`. -/
structure Tracks
    (config : TimerConfig)
    (tiers : TwoTier α)
    (base : Nat)
    (agenda : List (Task α)) : Prop where
  nearTick : tiers.near.tickMs = config.tickMs
  nearCount : tiers.near.bucketCount = config.nearBuckets
  farTick : tiers.far.tickMs = config.tickMs * config.nearBuckets
  farCount : tiers.far.bucketCount = config.farBuckets
  aligned : tiers.near.startMs = config.tickMs * base
  adjoining : tiers.far.startMs = tiers.near.pastMs
  fits : tiers.near.pastMs < Word.limit
  near : tiers.near.Fills
    (below (Task.slot config.tickMs) (base + config.nearBuckets) agenda)
  far : tiers.far.Circles
    (onward (Task.slot config.tickMs) (base + config.nearBuckets) agenda)

/-- The wheels hold the agenda, and everything before the slot `position` has been handed out. -/
def Stands
    (config : TimerConfig)
    (tiers : TwoTier α)
    (position : Nat)
    (agenda : List (Task α)) : Prop :=
  ∃ base, tiers.Tracks config base agenda ∧ base + tiers.near.current = position

namespace Tracks

theorem ticking (tracks : tiers.Tracks config base agenda) : 0 < config.tickMs :=
  tracks.nearTick ▸ tracks.near.ticking

theorem turning (tracks : tiers.Tracks config base agenda) : 0 < config.nearBuckets :=
  tracks.nearCount ▸ Nat.zero_lt_of_lt tracks.near.current_lt

theorem pastMs_near (tracks : tiers.Tracks config base agenda) :
    tiers.near.pastMs = config.tickMs * (base + config.nearBuckets) := by
  rw [Wheel.pastMs, tracks.aligned, tracks.nearTick, tracks.nearCount, Nat.mul_add]

theorem farStart (tracks : tiers.Tracks config base agenda) :
    tiers.far.startMs = config.tickMs * (base + config.nearBuckets) :=
  tracks.adjoining.trans tracks.pastMs_near

/-- The far window ends a full span after the near one. -/
theorem pastMs_far (tracks : tiers.Tracks config base agenda) :
    tiers.far.pastMs = config.tickMs * (base + config.nearBuckets) +
      config.tickMs * config.nearBuckets * config.farBuckets := by
  rw [Wheel.pastMs, tracks.farStart, tracks.farTick, tracks.farCount]

theorem slot_lt_iff
    (tracks : tiers.Tracks config base agenda)
    (task : Task α)
    (count : Nat) :
    task.slot config.tickMs < count ↔ task.fireAtMs < config.tickMs * count := by
  rw [Task.slot, Nat.div_lt_iff_lt_mul tracks.ticking, Nat.mul_comm]

theorem le_slot_iff
    (tracks : tiers.Tracks config base agenda)
    (task : Task α)
    (count : Nat) :
    count ≤ task.slot config.tickMs ↔ config.tickMs * count ≤ task.fireAtMs := by
  rw [Task.slot, Nat.le_div_iff_mul_le tracks.ticking, Nat.mul_comm]

theorem started_iff
    (tracks : tiers.Tracks config base agenda)
    (task : Task α) :
    base ≤ task.slot config.tickMs ↔ tiers.near.startMs ≤ task.fireAtMs := by
  rw [tracks.le_slot_iff, tracks.aligned]

/-- In the present rotation the slot of a task is the first slot plus its offset. -/
theorem slot_eq
    (tracks : tiers.Tracks config base agenda)
    {task : Task α}
    (started : base ≤ task.slot config.tickMs) :
    task.slot config.tickMs = base + tiers.near.offset task := by
  rw [Wheel.offset, tracks.nearTick, tracks.aligned, Nat.sub_mul_div, ← Task.slot]
  omega

/-- The tick of the far wheel that a later task is in. -/
theorem le_farOffset_iff
    (tracks : tiers.Tracks config base agenda)
    {task : Task α}
    (later : base + config.nearBuckets ≤ task.slot config.tickMs) :
    1 ≤ tiers.far.offset task ↔
      base + config.nearBuckets + config.nearBuckets ≤ task.slot config.tickMs := by
  have started : tiers.far.startMs ≤ task.fireAtMs := by
    rw [tracks.farStart, ← tracks.le_slot_iff]
    exact later
  rw [Wheel.le_offset_iff tracks.far.ticking started, tracks.farStart, tracks.farTick,
    tracks.le_slot_iff, Nat.mul_one, Nat.mul_add config.tickMs (base + config.nearBuckets)]

/-- Whatever the wheels hold is still ahead of them. -/
theorem ahead_of_mem
    (tracks : tiers.Tracks config base agenda)
    {task : Task α}
    (listed : task ∈ agenda) :
    base + tiers.near.current ≤ task.slot config.tickMs := by
  rcases Nat.lt_or_ge (task.slot config.tickMs) (base + config.nearBuckets) with soon | late
  · have held := mem_below.mpr ⟨listed, soon⟩
    have started := (tracks.started_iff task).mpr (tracks.near.started task held)
    have busy := tracks.near.busy task held
    rw [tracks.slot_eq started]
    omega
  · have current_lt := tracks.near.current_lt
    rw [tracks.nearCount] at current_lt
    omega

/-- The wheels hold the tasks of the agenda, and nothing else. -/
theorem tasks_perm (tracks : tiers.Tracks config base agenda) : tiers.tasks.Perm agenda := by
  have near := tracks.near.sorts.tasks_perm tracks.near.bounded
  have far := tracks.far.sorts.tasks_perm fun task _ =>
    Nat.mod_lt _ (Nat.zero_lt_of_lt tracks.far.current_lt)
  have split : onward (Task.slot config.tickMs) (base + config.nearBuckets) agenda =
      agenda.filter fun task =>
        !decide (task.slot config.tickMs < base + config.nearBuckets) := by
    apply List.filter_congr
    intro task _
    rw [← decide_not, decide_eq_decide, Nat.not_lt]
  refine (near.append far).trans ?_
  rw [split]
  exact List.filter_append_perm _ agenda

/-- A task that is not behind the wheels lies in or behind the current bucket of the near wheel. -/
theorem busy_of_ahead
    (tracks : tiers.Tracks config base agenda)
    {task : Task α}
    (ahead : base + tiers.near.current ≤ task.slot config.tickMs) :
    tiers.near.startMs ≤ task.fireAtMs ∧ tiers.near.current ≤ tiers.near.offset task := by
  have started : base ≤ task.slot config.tickMs := Nat.le_of_add_right_le ahead
  refine ⟨(tracks.started_iff task).mp started, ?_⟩
  rw [tracks.slot_eq started] at ahead
  omega

/-- Where a task goes that is not behind the wheels: the two windows decide. -/
theorem place_eq
    (tracks : tiers.Tracks config base agenda)
    {task : Task α}
    (ahead : base + tiers.near.current ≤ task.slot config.tickMs) :
    tiers.place task =
      if task.fireAtMs < tiers.near.pastMs then
        .ok (some { tiers with near := tiers.near.place (tiers.near.offset task) task })
      else if tiers.far.pastMs < Word.limit then
        .ok (if tiers.far.pastMs ≤ task.fireAtMs then none
          else some { tiers with far := tiers.far.place (tiers.far.ringIndex task) task })
      else .error .overflow := by
  have busy := (tracks.busy_of_ahead ahead).2
  simp only [TwoTier.place, tracks.near.insert_eq tracks.fits busy, bind, Except.bind,
    pure, Except.pure]
  by_cases soon : task.fireAtMs < tiers.near.pastMs
  · rw [if_pos soon, if_pos soon]
  · have startedFar : ¬ task.fireAtMs < tiers.far.startMs := tracks.adjoining ▸ soon
    rw [if_neg soon, if_neg soon]
    simp only [tracks.far.insertFar_eq task]
    by_cases fits : tiers.far.pastMs < Word.limit
    · simp only [if_pos fits, if_neg startedFar]
      by_cases beyond : tiers.far.pastMs ≤ task.fireAtMs
      · simp only [if_pos beyond]
      · simp only [if_neg beyond]
    · simp only [if_neg fits]

/-- Placing a task that is not behind the wheels: it is added to the agenda, or lies behind both
windows, or the end of the far window does not fit into a word. -/
theorem place
    (tracks : tiers.Tracks config base agenda)
    {task : Task α}
    (ahead : base + tiers.near.current ≤ task.slot config.tickMs) :
    match tiers.place task with
    | .ok (some next) => next.Tracks config base (agenda ++ [task]) ∧
        next.near.current = tiers.near.current
    | .ok none => tiers.far.pastMs ≤ task.fireAtMs
    | .error cause => cause = .overflow := by
  obtain ⟨startedMs, busy⟩ := tracks.busy_of_ahead ahead
  rw [tracks.place_eq ahead]
  by_cases soon : task.fireAtMs < tiers.near.pastMs
  · have slot : task.slot config.tickMs < base + config.nearBuckets := by
      rw [tracks.slot_lt_iff, ← tracks.pastMs_near]
      exact soon
    rw [if_pos soon]
    refine ⟨?_, rfl⟩
    exact { tracks with
      nearCount := (Wheel.bucketCount_place _).trans tracks.nearCount
      adjoining := tracks.adjoining.trans (Wheel.pastMs_place _).symm
      fits := (Wheel.pastMs_place _).symm ▸ tracks.fits
      near := by
        rw [below_append, below_singleton slot]
        exact tracks.near.place startedMs busy soon
      far := by
        rw [onward_append, onward_singleton_of_lt slot, List.append_nil]
        exact tracks.far }
  · have late : tiers.near.pastMs ≤ task.fireAtMs := Nat.not_lt.mp soon
    have slot : base + config.nearBuckets ≤ task.slot config.tickMs := by
      rw [tracks.le_slot_iff, ← tracks.pastMs_near]
      exact late
    have startedFar : tiers.far.startMs ≤ task.fireAtMs := tracks.adjoining ▸ late
    rw [if_neg soon]
    by_cases fits : tiers.far.pastMs < Word.limit
    · rw [if_pos fits]
      by_cases beyond : tiers.far.pastMs ≤ task.fireAtMs
      · rw [if_pos beyond]
        exact beyond
      · rw [if_neg beyond]
        refine ⟨?_, rfl⟩
        exact { tracks with
          farCount := (Wheel.bucketCount_place _).trans tracks.farCount
          near := by
            rw [below_append, below_singleton_of_le slot, List.append_nil]
            exact tracks.near
          far := by
            rw [onward_append, onward_singleton slot]
            exact tracks.far.place startedFar (Nat.not_le.mp beyond) }
    · rw [if_neg fits]

theorem slot_eq_of_mem
    (tracks : tiers.Tracks config base agenda)
    {task : Task α}
    (listed : task ∈ agenda) :
    task.slot config.tickMs = base + tiers.near.offset task :=
  tracks.slot_eq (Nat.le_of_add_right_le (tracks.ahead_of_mem listed))

/-- What the near wheel hands out, in terms of slots. -/
theorem stretch_near
    (tracks : tiers.Tracks config base agenda)
    {ticks : Nat}
    (within : ticks ≤ config.nearBuckets) :
    stretch tiers.near.offset tiers.near.current ticks
        (below (Task.slot config.tickMs) (base + config.nearBuckets) agenda) =
      stretch (Task.slot config.tickMs) (base + tiers.near.current) (base + ticks) agenda := by
  rw [← stretch_shift fun task listed => tracks.slot_eq_of_mem (mem_below.mp listed).1]
  apply stretch_congr
  intro index _ ahead
  exact only_below agenda (by omega)

/-- An advance inside of the present rotation hands out everything up to the slot of the clock. -/
theorem advance_within
    (tracks : tiers.Tracks config base agenda)
    {nowMs : Nat}
    (ahead : base + tiers.near.current ≤ nowMs / config.tickMs)
    (within : nowMs / config.tickMs < base + config.nearBuckets) :
    ∃ next, tiers.advance nowMs =
        .ok ⟨next, stretch (Task.slot config.tickMs) (base + tiers.near.current)
          (nowMs / config.tickMs) agenda, false⟩ ∧
      next.Tracks config base (onward (Task.slot config.tickMs) (nowMs / config.tickMs) agenda) ∧
      base + next.near.current = nowMs / config.tickMs := by
  obtain ⟨ticks, reached⟩ := Nat.exists_eq_add_of_le (Nat.le_of_add_right_le ahead)
  rw [reached] at ahead within ⊢
  have elapsed : (nowMs - tiers.near.startMs) / tiers.near.tickMs = ticks := by
    rw [tracks.nearTick, tracks.aligned, Nat.sub_mul_div, reached]
    omega
  have ahead : tiers.near.current ≤ ticks := by omega
  have inside : ticks < tiers.near.bucketCount := by
    rw [tracks.nearCount]
    omega
  obtain ⟨count, drained⟩ := tracks.near.drained ahead inside
  refine ⟨⟨tiers.near.drained ticks, tiers.far⟩, ?_, ?_, rfl⟩
  · simp only [advance, tracks.near.advance_within elapsed ahead inside, bind, Except.bind, pure,
      Except.pure, Bool.false_eq_true, if_false]
    rw [tracks.stretch_near (by omega)]
  · have window : (tiers.near.drained ticks).pastMs = tiers.near.pastMs := by
      rw [Wheel.pastMs, count]
      rfl
    exact { tracks with
      nearCount := count.trans tracks.nearCount
      adjoining := tracks.adjoining.trans window.symm
      fits := window ▸ tracks.fits
      near := by
        have same : onward tiers.near.offset ticks
              (below (Task.slot config.tickMs) (base + config.nearBuckets) agenda) =
            onward (Task.slot config.tickMs) (base + ticks)
              (below (Task.slot config.tickMs) (base + config.nearBuckets) agenda) := by
          apply onward_congr
          intro task listed
          rw [tracks.slot_eq_of_mem (mem_below.mp listed).1]
          omega
        rw [below_onward, ← same]
        exact drained
      far := by
        rw [onward_onward agenda (Nat.le_of_lt within)]
        exact tracks.far }

/-- Moving tasks into the near wheel that all lie in its window adds them to its agenda. -/
theorem cascade_eq
    {near : Wheel α}
    {held bucket : List (Task α)}
    (fills : near.Fills held)
    (fits : near.pastMs < Word.limit)
    (first : near.current = 0)
    (inside : ∀ task ∈ bucket, near.startMs ≤ task.fireAtMs ∧ task.fireAtMs < near.pastMs)
    (due : List (Task α)) :
    ∃ fuller, cascade near bucket due = .ok (fuller, due) ∧
      fuller.Fills (held ++ bucket) ∧ fuller.current = 0 ∧ fuller.tickMs = near.tickMs ∧
      fuller.startMs = near.startMs ∧ fuller.bucketCount = near.bucketCount := by
  induction bucket generalizing near held with
  | nil =>
      refine ⟨near, rfl, ?_, first, rfl, rfl, rfl⟩
      rw [List.append_nil]
      exact fills
  | cons task rest ih =>
      obtain ⟨started, within⟩ := inside task List.mem_cons_self
      have busy : near.current ≤ near.offset task := first ▸ Nat.zero_le _
      have inserted := fills.insert_eq fits busy
      rw [if_pos within] at inserted
      obtain ⟨fuller, moved, fills', current, tick, start, count⟩ :=
        ih (fills.place started busy within) ((Wheel.pastMs_place _).symm ▸ fits) first
          fun later listed =>
            (Wheel.pastMs_place _).symm ▸ inside later (List.mem_cons_of_mem _ listed)
      refine ⟨fuller, ?_, ?_, current, tick, start, count.trans (Wheel.bucketCount_place _)⟩
      · simp only [cascade, inserted, bind, Except.bind]
        exact moved
      · rw [List.append_assoc] at fills'
        exact fills'

/-- The first far bucket is the rotation after the present one. -/
theorem only_far
    (tracks : tiers.Tracks config base agenda) :
    only tiers.far.offset 0 (onward (Task.slot config.tickMs) (base + config.nearBuckets) agenda) =
      below (Task.slot config.tickMs) (base + config.nearBuckets + config.nearBuckets)
        (onward (Task.slot config.tickMs) (base + config.nearBuckets) agenda) := by
  apply List.filter_congr
  intro task listed
  have later := tracks.le_farOffset_iff (mem_onward.mp listed).2
  rw [decide_eq_decide]
  omega

theorem onward_far
    (tracks : tiers.Tracks config base agenda) :
    onward tiers.far.offset 1
        (onward (Task.slot config.tickMs) (base + config.nearBuckets) agenda) =
      onward (Task.slot config.tickMs) (base + config.nearBuckets + config.nearBuckets)
        (onward (Task.slot config.tickMs) (base + config.nearBuckets) agenda) :=
  onward_congr fun _ listed => tracks.le_farOffset_iff (mem_onward.mp listed).2

/-- The tasks of the first far bucket lie in the window of the near wheel after its rotation. -/
theorem inside_turned
    (tracks : tiers.Tracks config base agenda)
    {task : Task α}
    (listed : task ∈
      only tiers.far.offset 0
        (onward (Task.slot config.tickMs) (base + config.nearBuckets) agenda)) :
    tiers.far.startMs ≤ task.fireAtMs ∧ task.fireAtMs < tiers.far.startMs + tiers.far.tickMs := by
  obtain ⟨held, first⟩ := mem_only.mp listed
  have started := tracks.far.started task held
  have within := (Wheel.offset_lt_iff tracks.far.ticking started 1).mp (by omega)
  rw [Nat.mul_one] at within
  exact ⟨started, within⟩

/-- Once it has turned, the near window is the first tick of the far window. -/
theorem pastMs_turned
    (tracks : tiers.Tracks config base agenda) :
    tiers.near.turned.pastMs = tiers.far.startMs + tiers.far.tickMs := by
  rw [Wheel.pastMs, tracks.near.turned.1, tracks.nearCount, tracks.adjoining, tracks.farTick]
  change _ + tiers.near.tickMs * _ = _
  rw [tracks.nearTick]
  rfl

/-- An advance beyond the present rotation hands out all of it, and brings in the next far bucket
if the far window can move on. -/
theorem advance_past
    (tracks : tiers.Tracks config base agenda)
    {nowMs : Nat}
    (past : base + config.nearBuckets ≤ nowMs / config.tickMs) :
    if tiers.far.startMs + tiers.far.tickMs < Word.limit then
      ∃ next, tiers.advance nowMs =
          .ok ⟨next, stretch (Task.slot config.tickMs) (base + tiers.near.current)
            (base + config.nearBuckets) agenda, true⟩ ∧
        next.Tracks config (base + config.nearBuckets)
          (onward (Task.slot config.tickMs) (base + config.nearBuckets) agenda) ∧
        next.near.current = 0
    else tiers.advance nowMs = .error .overflow := by
  have elapsed : tiers.near.pastMs ≤ nowMs := by
    rw [tracks.pastMs_near, Nat.mul_comm]
    exact (Nat.le_div_iff_mul_le tracks.ticking).mp past
  have advanced := tracks.near.advance_past elapsed
  rw [if_pos tracks.fits, tracks.nearCount, tracks.stretch_near (Nat.le_refl _)] at advanced
  have taken := tracks.far.takeNext_eq
  split
  · next fits =>
    obtain ⟨count, turned⟩ := tracks.near.turned
    obtain ⟨slidCount, slid⟩ := tracks.far.slid
    have window := tracks.pastMs_turned
    obtain ⟨fuller, cascaded, fills, current, tick, start, fullerCount⟩ :=
      cascade_eq turned (window ▸ fits) rfl
        (fun task listed => by
          rw [window]
          exact tracks.adjoining ▸ tracks.inside_turned listed)
        (stretch (Task.slot config.tickMs) (base + tiers.near.current)
          (base + config.nearBuckets) agenda)
    have fullerWindow : fuller.pastMs = tiers.near.turned.pastMs := by
      rw [Wheel.pastMs, start, tick, fullerCount]
      rfl
    rw [if_pos fits] at taken
    refine ⟨⟨fuller, tiers.far.slid⟩, ?_, ?_, current⟩
    · simp only [advance, advanced, taken, cascaded, bind, Except.bind, pure, Except.pure, if_true]
    · exact {
        nearTick := tick.trans tracks.nearTick
        nearCount := fullerCount.trans (count.trans tracks.nearCount)
        farTick := tracks.farTick
        farCount := slidCount.trans tracks.farCount
        aligned := start.trans tracks.pastMs_near
        adjoining := (fullerWindow.trans window).symm
        fits := by
          rw [fullerWindow, window]
          exact fits
        near := by
          rw [← tracks.only_far, ← List.nil_append (only ..)]
          exact fills
        far := by
          rw [← tracks.onward_far]
          exact slid }
  · next unfit =>
    rw [if_neg unfit] at taken
    simp only [advance, advanced, taken, bind, Except.bind, if_true]

/-- Settling within enough turns.  Each turn of the loop hands out one rotation, so that the
stretches of all turns meet; and it moves the start of the window, which bounds the number of
turns. -/
theorem settleWithin
    (tracks : tiers.Tracks config base agenda)
    {nowMs turns : Nat}
    (ahead : base + tiers.near.current ≤ nowMs / config.tickMs)
    (enough : nowMs < tiers.near.startMs + turns)
    (due : List (Task α)) :
    ((settleWithin nowMs turns tiers due).intact = true →
      (settleWithin nowMs turns tiers due).due =
          due ++ stretch (Task.slot config.tickMs) (base + tiers.near.current)
            (nowMs / config.tickMs) agenda ∧
        (settleWithin nowMs turns tiers due).tiers.Stands config (nowMs / config.tickMs)
          (onward (Task.slot config.tickMs) (nowMs / config.tickMs) agenda)) ∧
    (nowMs + config.tickMs * config.nearBuckets < Word.limit →
      (settleWithin nowMs turns tiers due).intact = true) := by
  induction turns generalizing tiers base agenda due with
  | zero =>
      have started := (Nat.le_div_iff_mul_le tracks.ticking).mp (Nat.le_of_add_right_le ahead)
      rw [Nat.mul_comm, ← tracks.aligned] at started
      omega
  | succ turns ih =>
      rcases Nat.lt_or_ge (nowMs / config.tickMs) (base + config.nearBuckets) with within | past
      · obtain ⟨next, advanced, tracks', position⟩ := tracks.advance_within ahead within
        simp only [TwoTier.settleWithin, advanced, Bool.false_eq_true, if_false]
        exact ⟨fun _ => ⟨trivial, base, tracks', position⟩, fun _ => trivial⟩
      · have advanced := tracks.advance_past past
        split at advanced
        · obtain ⟨next, advanced, tracks', position⟩ := advanced
          simp only [TwoTier.settleWithin, advanced, if_true]
          have ahead' : base + config.nearBuckets + next.near.current ≤ nowMs / config.tickMs := by
            rw [position]
            exact past
          have enough' : nowMs < next.near.startMs + turns := by
            have turning := Nat.mul_pos tracks.ticking tracks.turning
            have start := tracks.aligned
            have start' := tracks'.aligned
            rw [Nat.mul_add] at start'
            omega
          have settled := ih tracks' ahead' enough'
            (due ++ stretch (Task.slot config.tickMs) (base + tiers.near.current)
              (base + config.nearBuckets) agenda)
          rw [position, Nat.add_zero, onward_onward agenda past, List.append_assoc,
            stretch_append_stretch agenda _ past] at settled
          · exact settled
          · have current_lt := tracks.near.current_lt
            rw [tracks.nearCount] at current_lt
            omega
        · next unfit =>
          simp only [TwoTier.settleWithin, advanced]
          refine ⟨fun absurd => (Bool.false_ne_true absurd).elim, fun fits => absurd ?_ unfit⟩
          have elapsed := (Nat.le_div_iff_mul_le tracks.ticking).mp past
          rw [Nat.mul_comm, ← tracks.farStart] at elapsed
          rw [tracks.farTick]
          omega

end Tracks

/-! ### The wheels as a whole -/

namespace Stands

variable {position : Nat}

theorem ticking (stands : tiers.Stands config position agenda) : 0 < config.tickMs := by
  obtain ⟨_, tracks, _⟩ := stands
  exact tracks.ticking

theorem ahead_of_mem
    (stands : tiers.Stands config position agenda)
    {task : Task α}
    (listed : task ∈ agenda) :
    position ≤ task.slot config.tickMs := by
  obtain ⟨_, tracks, rfl⟩ := stands
  exact tracks.ahead_of_mem listed

theorem tasks_perm (stands : tiers.Stands config position agenda) : tiers.tasks.Perm agenda := by
  obtain ⟨_, tracks, _⟩ := stands
  exact tracks.tasks_perm

theorem size_eq (stands : tiers.Stands config position agenda) : tiers.size = agenda.length := by
  rw [← stands.tasks_perm.length_eq, tasks, List.length_append]
  rfl

/-- A placed task is added to the agenda. -/
theorem place
    (stands : tiers.Stands config position agenda)
    {task : Task α}
    {next : TwoTier α}
    (ahead : position ≤ task.slot config.tickMs)
    (placed : tiers.place task = .ok (some next)) :
    next.Stands config position (agenda ++ [task]) := by
  obtain ⟨base, tracks, rfl⟩ := stands
  have outcome := tracks.place ahead
  rw [placed] at outcome
  exact ⟨base, outcome.1, congrArg (base + ·) outcome.2⟩

/-- The search for a place never goes round in circles: only a sum or a product can go wrong. -/
theorem place_error
    (stands : tiers.Stands config position agenda)
    {task : Task α}
    {cause : Fault}
    (ahead : position ≤ task.slot config.tickMs)
    (failed : tiers.place task = .error cause) :
    cause = .overflow := by
  obtain ⟨base, tracks, rfl⟩ := stands
  have outcome := tracks.place ahead
  rw [failed] at outcome
  exact outcome

theorem settle
    (stands : tiers.Stands config position agenda)
    {nowMs : Nat}
    (ahead : position ≤ nowMs / config.tickMs)
    (intact : (tiers.settle nowMs).intact = true) :
    (tiers.settle nowMs).due =
        stretch (Task.slot config.tickMs) position (nowMs / config.tickMs) agenda ∧
      (tiers.settle nowMs).tiers.Stands config (nowMs / config.tickMs)
        (onward (Task.slot config.tickMs) (nowMs / config.tickMs) agenda) := by
  obtain ⟨base, tracks, rfl⟩ := stands
  exact (tracks.settleWithin ahead (by omega) []).1 intact

/-- The wheels can be brought up to any instant that is followed by a whole rotation. -/
theorem settle_intact
    (stands : tiers.Stands config position agenda)
    {nowMs : Nat}
    (ahead : position ≤ nowMs / config.tickMs)
    (fits : nowMs + config.tickMs * config.nearBuckets < Word.limit) :
    (tiers.settle nowMs).intact = true := by
  obtain ⟨base, tracks, rfl⟩ := stands
  exact (tracks.settleWithin ahead (by omega) []).2 fits

end Stands

theorem positive_of_validate (valid : config.validate = .ok ()) :
    0 < config.tickMs ∧ 0 < config.nearBuckets ∧ 0 < config.farBuckets := by
  unfold TimerConfig.validate at valid
  split at valid
  · cases valid
  · omega

/-- Fresh wheels of valid dimensions stand at the first slot and hold nothing. -/
theorem ofConfig_stands
    (valid : config.validate = .ok ())
    (made : ofConfig config = .ok tiers) :
    tiers.Stands config 0 [] := by
  obtain ⟨ticking, turning, circling⟩ := positive_of_validate valid
  unfold ofConfig at made
  obtain ⟨near, nearMade, made⟩ := bind_eq_ok_iff.mp made
  obtain ⟨spanMs, spanned, made⟩ := bind_eq_ok_iff.mp made
  obtain ⟨far, farMade, made⟩ := bind_eq_ok_iff.mp made
  obtain rfl := Except.ok.inj made
  obtain rfl := Wheel.ofDimensions_eq nearMade
  obtain rfl := Wheel.ofDimensions_eq farMade
  obtain ⟨fits, rfl⟩ := Word.mul_eq_ok_iff.mp spanned
  simp only [Wheel.bucketCount, List.length_replicate] at fits
  refine ⟨0, ?_, rfl⟩
  exact {
    nearTick := rfl
    nearCount := List.length_replicate
    farTick := by simp [Wheel.bucketCount]
    farCount := List.length_replicate
    aligned := rfl
    adjoining := by simp [Wheel.pastMs, Wheel.bucketCount]
    fits := by simpa [Wheel.pastMs, Wheel.bucketCount] using fits
    near := Wheel.fills_fresh ticking turning
    far := Wheel.circles_fresh (Nat.mul_pos ticking (by simpa [Wheel.bucketCount] using turning))
      circling }

end Quorum.TwoTier
