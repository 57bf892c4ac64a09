import Quorum.Proofs.Timing.Deadlines
import Quorum.Proofs.Timing.Room

/-!
# One tick of headroom

Wheels that are settled late are asked for places at a clock that is ahead of them.  The far window
is then nearest to its end if they were settled at the last millisecond of a rotation, and the clock
is one tick ahead since.  A delay that finds a place there finds one always, and
`TimerConfig.maxDelayMs` is the longest one that does (`Scheduler.longest_delay_is_exact`).
-/

namespace Quorum

variable {α : Type}

/-! ## Where a task finds a place -/

namespace TwoTier

variable
    {config : TimerConfig}
    {tiers : TwoTier α}
    {base position nowMs : Nat}
    {agenda : List (Task α)}
    {task : Task α}

/-- If the end of the far window fits into a word, then the tasks before it find a place and the
others do not. -/
theorem Stands.place_of_fits
    (stands : tiers.Stands config position agenda)
    (ahead : position ≤ task.slot config.tickMs)
    (fits : tiers.far.pastMs < Word.limit) :
    if task.fireAtMs < tiers.far.pastMs then
      ∃ next, tiers.place task = .ok (some next) ∧ next.far.pastMs = tiers.far.pastMs
    else tiers.place task = .ok none := by
  obtain ⟨base, tracks, rfl⟩ := stands
  have adjoining : tiers.near.pastMs ≤ tiers.far.pastMs :=
    tracks.adjoining ▸ Nat.le_add_right _ _
  rw [tracks.place_eq ahead, if_pos fits]
  split
  · next before =>
    by_cases soon : task.fireAtMs < tiers.near.pastMs
    · rw [if_pos soon]
      exact ⟨_, rfl, rfl⟩
    · rw [if_neg soon, if_neg (Nat.not_le.mpr before)]
      exact ⟨_, rfl, Wheel.pastMs_place _⟩
  · next behind =>
    rw [if_neg (by omega), if_pos (Nat.not_lt.mp behind)]

/-- Settling inside of the present rotation leaves the windows where they are. -/
theorem Tracks.settle_within
    (tracks : tiers.Tracks config base agenda)
    (ahead : base + tiers.near.current ≤ nowMs / config.tickMs)
    (within : nowMs / config.tickMs < base + config.nearBuckets) :
    (tiers.settle nowMs).intact = true ∧
      ∃ left, (tiers.settle nowMs).tiers.Tracks config base left := by
  obtain ⟨next, advanced, tracks', _⟩ := tracks.advance_within ahead within
  simp only [settle, TwoTier.settleWithin, advanced, Bool.false_eq_true, if_false]
  exact ⟨trivial, _, tracks'⟩

end TwoTier

/-! ## The longest delay -/

namespace Scheduler

variable
    {config : TimerConfig}
    {scheduler fresh : Scheduler α}
    {epochMs clockMs : Nat}

/-- The scheduler has come from schedule calls and settlings, the last settling is at most one tick
ago, and the end of the far window fits into a word. -/
def Lags (config : TimerConfig) (scheduler : Scheduler α) (clockMs : Nat) : Prop :=
  ∃ calledMs settledMs agenda,
    Diary config scheduler calledMs settledMs agenda ∧ calledMs ≤ clockMs ∧
      scheduler.nowMs clockMs ≤ settledMs + config.tickMs ∧
      scheduler.tiers.far.pastMs < Word.limit

/-- Where the wheels lag by one tick at most, a delay finds a place exactly if it ends before the
far window. -/
theorem Lags.place
    (lags : Lags config scheduler clockMs)
    {task : Task α}
    {delayMs : Nat}
    (due : task.fireAtMs = scheduler.nowMs clockMs + delayMs) :
    if scheduler.nowMs clockMs + delayMs < scheduler.tiers.far.pastMs then
      ∃ tiers, scheduler.tiers.place task = .ok (some tiers)
    else scheduler.tiers.place task = .ok none := by
  obtain ⟨calledMs, settledMs, agenda, diary, later, -, fits⟩ := lags
  have ahead := diary.keeps.ahead later delayMs
  rw [← due] at ahead ⊢
  have placed := diary.keeps.stands.place_of_fits ahead fits
  split at placed
  · next before =>
    rw [if_pos before]
    exact placed.imp fun _ found => found.1
  · next behind =>
    rw [if_neg behind]
    exact placed

/-- An accepted delay ends before the far window of wheels that lag by one tick at most. -/
theorem Lags.lt_farEnd
    (lags : Lags config scheduler clockMs)
    {delayMs : Nat}
    (checked : config.checkDelay delayMs = .ok ()) :
    scheduler.nowMs clockMs + delayMs < scheduler.tiers.far.pastMs := by
  obtain ⟨calledMs, settledMs, agenda, diary, later, late, -⟩ := lags
  have ended := Nat.lt_mul_div_succ settledMs diary.keeps.stands.ticking
  exact diary.keeps.stands.lt_farEnd checked (by omega)

@[simp]
theorem epochMs_settle : (scheduler.settle clockMs).epochMs = scheduler.epochMs := by
  unfold settle
  split <;> rfl

theorem epochMs_of_start (made : Scheduler.start config epochMs = .ok fresh) :
    fresh.epochMs = epochMs := by
  obtain ⟨_, _, rfl⟩ := start_eq_ok made
  rfl

/-- Wheels that are settled at the last millisecond of their first rotation are still in it. -/
theorem settle_last
    (made : Scheduler.start config epochMs = .ok fresh)
    {lastMs : Nat}
    (last : lastMs + 1 = config.tickMs * config.nearBuckets) :
    (fresh.settle (epochMs + lastMs)).intact = true ∧
      (fresh.settle (epochMs + lastMs)).tiers.far.pastMs =
        config.tickMs * config.nearBuckets +
          config.tickMs * config.nearBuckets * config.farBuckets := by
  obtain ⟨tiers, ⟨base, tracks, position⟩, rfl⟩ := start_eq_ok made
  obtain ⟨rfl, first⟩ := Nat.add_eq_zero_iff.mp position
  have ahead : 0 + tiers.near.current ≤ lastMs / config.tickMs :=
    position.symm ▸ Nat.zero_le _
  have within : lastMs / config.tickMs < 0 + config.nearBuckets := by
    rw [Nat.zero_add, Nat.div_lt_iff_lt_mul tracks.ticking, Nat.mul_comm, ← last]
    exact Nat.lt_succ_self lastMs
  obtain ⟨intact, left, tracks'⟩ := tracks.settle_within ahead within
  simp only [Scheduler.settle, isTicking, nowMs, Bool.and_self, if_true, Nat.add_sub_cancel_left]
  refine ⟨intact, ?_⟩
  rw [tracks'.pastMs_far, Nat.zero_add]

/-- The wheels are settled at the last millisecond of their first rotation, and one tick goes by.
Then the longest delay ends at the last millisecond of the far window. -/
theorem exists_lagging
    (made : Scheduler.start config epochMs = .ok fresh)
    (fits : config.tickMs * config.nearBuckets * (config.farBuckets + 1) < Word.limit) :
    ∃ (late : Scheduler α) (lateMs : Nat), Lags config late lateMs ∧
      late.tiers.far.pastMs = late.nowMs lateMs +
        (config.tickMs * config.nearBuckets * config.farBuckets - config.tickMs) + 1 := by
  have diary := Diary.begun made
  obtain ⟨base, tracks, _⟩ := diary.keeps.stands
  have circling := Nat.zero_lt_of_lt tracks.far.current_lt
  rw [tracks.farCount] at circling
  have turning := Nat.mul_pos tracks.ticking tracks.turning
  obtain ⟨lastMs, last⟩ := Nat.exists_eq_add_of_le' turning
  obtain ⟨intact, farEnd⟩ := settle_last made last.symm
  have settled := diary.settled (Nat.le_add_right epochMs lastMs) intact
  -- The capacity is one tick at least, so that taking one off it is no rounding.
  have room : config.tickMs ≤ config.tickMs * config.nearBuckets * config.farBuckets := by
    rw [Nat.mul_assoc]
    exact Nat.le_mul_of_pos_right _ (Nat.mul_pos tracks.turning circling)
  rw [Nat.mul_add, Nat.mul_one] at fits
  refine ⟨_, epochMs + lastMs + config.tickMs,
    ⟨_, _, _, settled, Nat.le_add_right _ _, ?_, ?_⟩, ?_⟩
  · simp only [nowMs, epochMs_settle, epochMs_of_start made]
    omega
  · rw [farEnd]
    omega
  · rw [farEnd, nowMs, epochMs_settle, epochMs_of_start made]
    omega

/-- Whatever is due so long after the clock finds a place in one of the wheels. -/
def HasRoom (scheduler : Scheduler α) (clockMs delayMs : Nat) : Prop :=
  ∀ task : Task α, task.fireAtMs = scheduler.nowMs clockMs + delayMs →
    ∃ tiers, scheduler.tiers.place task = .ok (some tiers)

/-- The delays up to the longest one are those for which there is always room, as long as the wheels
lag by one tick at most.  There is one such moment at which no longer delay finds a place. -/
theorem longest_delay_is_exact
    [Inhabited α]
    (made : Scheduler.start config epochMs = .ok fresh)
    (fits : config.tickMs * config.nearBuckets * (config.farBuckets + 1) < Word.limit) :
    ∃ longestMs, config.maxDelayMs = .ok longestMs ∧
      (∀ delayMs, delayMs ≤ longestMs ↔
        ∀ (scheduler : Scheduler α) (clockMs : Nat),
          Lags config scheduler clockMs → HasRoom scheduler clockMs delayMs) ∧
      ∃ (late : Scheduler α) (lateMs : Nat), Lags config late lateMs ∧
        ∀ task : Task α, late.nowMs lateMs + longestMs < task.fireAtMs →
          late.tiers.place task = .ok none := by
  have capacity := TimerConfig.capacityMs_of_fits fits
  obtain ⟨late, lateMs, lags, farEnd⟩ := exists_lagging made fits
  have refuses : ∀ task : Task α,
      late.nowMs lateMs +
          (config.tickMs * config.nearBuckets * config.farBuckets - config.tickMs) <
        task.fireAtMs → late.tiers.place task = .ok none := by
    intro task long
    obtain ⟨delayMs, due⟩ := Nat.exists_eq_add_of_le (Nat.le_of_add_right_le (Nat.le_of_lt long))
    have placed := lags.place due
    rwa [if_neg (by omega)] at placed
  refine ⟨_, TimerConfig.maxDelayMs_of_capacity capacity, fun delayMs => ⟨?_, ?_⟩,
    late, lateMs, lags, refuses⟩
  · intro short scheduler clockMs lagging task due
    have placed := lagging.place due
    rwa [if_pos (lagging.lt_farEnd
      (TimerConfig.checkDelay_eq_ok_iff.mpr ⟨_, capacity, short⟩))] at placed
  · intro roomy
    by_contra long
    obtain ⟨tiers, placed⟩ := roomy late lateMs lags
      { (default : Task α) with fireAtMs := late.nowMs lateMs + delayMs } rfl
    rw [refuses _ (Nat.add_lt_add_left (Nat.not_le.mp long) _)] at placed
    cases placed

end Scheduler

/-- Near buckets of ten milliseconds, two to a rotation, and three more rotations: what is due
within fifty milliseconds finds its place, and what is due later may not. -/
theorem Scheduler.longest_delay_is_exact_sample :
    Scheduler.start Sample.dimensions 0 = .ok Sample.fresh ∧
      Sample.dimensions.maxDelayMs = .ok 50 ∧
      ∀ delayMs, delayMs ≤ 50 ↔
        ∀ (scheduler : Scheduler String) (clockMs : Nat),
          Lags Sample.dimensions scheduler clockMs → HasRoom scheduler clockMs delayMs := by
  have made : Scheduler.start Sample.dimensions 0 = .ok Sample.fresh := rfl
  obtain ⟨longestMs, found, exact, -⟩ :=
    Scheduler.longest_delay_is_exact made (show 10 * 2 * (3 + 1) < Word.limit by decide)
  obtain rfl : 50 = longestMs := Except.ok.inj found
  exact ⟨made, found, exact⟩

end Quorum
