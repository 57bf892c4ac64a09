import Quorum.Proofs.Election.Discretion
import Quorum.Proofs.Election.Vigil
import Quorum.Proofs.Timing.Setbacks

/-!
# The timers in a member's custody

A member can only cancel the timers whose handles it holds.  So every timer of the election that
could still be received has to be in its custody.  A timer may have been lost together with the
wheels, and the next occurrence of a heartbeat may have been refused, but none is left that the
member knows nothing of.

`Stage.InHand` says this of a stage, and every handler that answers keeps it.  `Stage.Reached`
describes the stages that a member can get to from its start on.  The member handles any occasion
at any time, the log layer may rewrite its ledger, and the timers run on without it.
-/

namespace Quorum

open Act

namespace Scheduler

variable
    {timers next : Scheduler TimerEvent}
    {handles rest : List Handle}
    {clockMs : Nat}
    {handle : Handle}

/-- Every live timer of the election is under one of these handles, which have all been given
out. -/
structure Entrusted (timers : Scheduler TimerEvent) (handles : List Handle) : Prop where
  sound : timers.Sound
  issued : ∀ handle ∈ handles, handle.number < timers.issued
  owned : ∀ task ∈ timers.elections, task.handle ∈ handles

namespace Entrusted

/-- The order of the handles does not matter. -/
theorem congr
    (entrusted : timers.Entrusted handles)
    (same : ∀ handle, handle ∈ rest ↔ handle ∈ handles) :
    timers.Entrusted rest where
  sound := entrusted.sound
  issued := fun handle kept => entrusted.issued handle ((same handle).mp kept)
  owned := fun task listed => (same task.handle).mpr (entrusted.owned task listed)

/-- A handle need not be kept any longer once it was cancelled. -/
theorem cancel
    (entrusted : timers.Entrusted handles)
    (held : handle ∈ handles)
    (kept : ∀ other ∈ handles, other ≠ handle → other ∈ rest)
    (subset : rest ⊆ handles) :
    (timers.cancel handle).Entrusted rest where
  sound := entrusted.sound.cancel (entrusted.issued handle held)
  issued := fun other listed => entrusted.issued other (subset listed)
  owned := by
    intro task listed
    rw [elections_cancel] at listed
    obtain ⟨before, spared⟩ := List.mem_filter.mp listed
    exact kept task.handle (entrusted.owned task before) (of_decide_eq_true spared)

/-- A handle that is given out is kept. -/
theorem schedule
    {delay : Delay}
    {repeats : Bool}
    {event : TimerEvent}
    (entrusted : timers.Entrusted handles)
    (scheduled : timers.schedule clockMs delay repeats event = .ok (handle, next)) :
    next.Entrusted (handle :: handles) := by
  obtain ⟨sound, live⟩ := entrusted.sound.schedule scheduled
  obtain ⟨rfl, _, tiers, _, rfl⟩ := schedule_eq_ok scheduled
  refine ⟨sound, List.forall_mem_cons.mpr ⟨Nat.lt_succ_self _, fun old kept => ?_⟩, ?_⟩
  · exact Nat.lt_succ_of_lt (entrusted.issued old kept)
  · intro task listed
    obtain ⟨alive, electoral⟩ := List.mem_filter.mp listed
    rcases List.mem_append.mp (live.mem_iff.mp alive) with old | new
    · exact List.mem_cons_of_mem _ (entrusted.owned task (List.mem_filter.mpr ⟨old, electoral⟩))
    · rw [List.mem_singleton.mp new]
      exact List.mem_cons_self

/-- Nothing has to be done as long as no timer of the election comes in under another handle. -/
theorem of_elections
    (entrusted : timers.Entrusted handles)
    (sound : next.Sound)
    (issued : timers.issued ≤ next.issued)
    (kept : ∀ task ∈ next.elections, ∃ old ∈ timers.elections, old.handle = task.handle) :
    next.Entrusted handles where
  sound := sound
  issued := fun handle held => Nat.lt_of_lt_of_le (entrusted.issued handle held) issued
  owned := by
    intro task listed
    obtain ⟨old, before, same⟩ := kept task listed
    exact same ▸ entrusted.owned old before

end Entrusted

/-! ## What the timers do without the member -/

/-- What happens to the timers of a node while the member does nothing. -/
inductive Runs (clockMs : Nat) (timers : Scheduler TimerEvent) : Scheduler TimerEvent → Prop where
  /-- The consumer asks for a timer, whether or not there is one, and whether or not the wheels take
  its next occurrence. -/
  | received
      {answer : Option (Task TimerEvent)} {next : Scheduler TimerEvent}
      (received : timers.receive clockMs = .ok (answer, next)) :
      Runs clockMs timers next
  /-- The wheels are brought up to the clock, or stop at the end of their range. -/
  | settled : Runs clockMs timers (timers.settle clockMs)
  /-- Another component arms a timer. -/
  | armed
      {delay : Delay} {repeats : Bool} {event : TimerEvent} {handle : Handle}
      {next : Scheduler TimerEvent}
      (foreign : event.isElection = false)
      (scheduled : timers.schedule clockMs delay repeats event = .ok (handle, next)) :
      Runs clockMs timers next
  /-- Another component cancels a timer of its own. -/
  | cancelled
      {handle : Handle}
      (issued : handle.number < timers.issued)
      (foreign : ∀ task ∈ timers.held, task.handle = handle → task.payload.isElection = false) :
      Runs clockMs timers (timers.cancel handle)
  | stopped : Runs clockMs timers timers.shutdown
  | abandoned : Runs clockMs timers timers.abandon

/-- Where nothing new is held, no timer of the election comes in. -/
theorem elections_of_held
    (cancelled : next.cancelled = timers.cancelled)
    (kept : ∀ task ∈ next.held,
      ∃ old ∈ timers.held, old.handle = task.handle ∧ old.payload = task.payload) :
    ∀ task ∈ next.elections, ∃ old ∈ timers.elections, old.handle = task.handle := by
  intro task listed
  obtain ⟨alive, electoral⟩ := List.mem_filter.mp listed
  obtain ⟨held, uncancelled⟩ := mem_live.mp alive
  obtain ⟨old, before, handle, payload⟩ := kept task held
  refine ⟨old, List.mem_filter.mpr ⟨mem_live.mpr ⟨before, ?_⟩, ?_⟩, handle⟩
  · rw [handle, isCancelled, ← cancelled]
    exact uncancelled
  · rw [payload]
    exact electoral

/-- Whatever happens to the timers without the member, they stay in its custody. -/
theorem Entrusted.runs
    (entrusted : timers.Entrusted handles)
    (runs : timers.Runs clockMs next) :
    next.Entrusted handles := by
  have sound := entrusted.sound
  cases runs with
  | @received answer _ received =>
      cases answer with
      | none =>
          obtain ⟨sound', live, issued⟩ := sound.drained received
          refine entrusted.of_elections sound' (Nat.le_of_eq issued.symm) fun task listed => ?_
          unfold elections at listed
          rw [live] at listed
          exact ⟨task, listed, rfl⟩
      | some task =>
          obtain ⟨issued, cancelled, _, kept⟩ := held_of_receive received
          exact entrusted.of_elections (sound.receive received) (Nat.le_of_eq issued.symm)
            (elections_of_held cancelled kept)
  | settled =>
      obtain ⟨lost, kept⟩ := timers.exists_lost clockMs
      have issued := timers.issued_settle clockMs
      have cancelled := timers.cancelled_settle clockMs
      refine entrusted.of_elections (sound.of_lost kept issued cancelled) (Nat.le_of_eq issued.symm)
        (elections_of_held cancelled fun task listed => ⟨task, ?_, rfl, rfl⟩)
      exact kept.mem_iff.mp (List.mem_append_left _ listed)
  | armed foreign scheduled =>
      have kept := elections_armedElsewhere sound foreign scheduled
      obtain ⟨sound', _⟩ := sound.schedule scheduled
      obtain ⟨_, _, tiers, _, rfl⟩ := schedule_eq_ok scheduled
      exact entrusted.of_elections sound' (Nat.le_succ _) fun task listed =>
        ⟨task, kept.mem_iff.mp listed, rfl⟩
  | cancelled issued foreign =>
      have kept := elections_cancelledElsewhere foreign
      exact entrusted.of_elections (sound.cancel issued) (Nat.le_refl _) fun task listed =>
        ⟨task, kept ▸ listed, rfl⟩
  | stopped => exact ⟨⟨sound.distinct, sound.issued, sound.cancelled⟩, entrusted.issued,
      entrusted.owned⟩
  | abandoned =>
      have kept : (timers.abandon.held ++ timers.fired).Perm timers.held :=
        List.perm_append_comm
      refine entrusted.of_elections (sound.of_lost kept rfl rfl) (Nat.le_refl _)
        (elections_of_held rfl fun task listed => ⟨task, ?_, rfl, rfl⟩)
      exact kept.mem_iff.mp (List.mem_append_left _ listed)

end Scheduler

/-! ## What the member does -/

/-- The member holds the handle of every live timer of the election. -/
def Stage.InHand (stage : Stage Member) : Prop :=
  stage.outside.timers.Entrusted stage.own.handles

/-- A handler that keeps the timers in the hand of the member, if it answers. -/
def Member.Careful {α : Type} (act : Act Member α) : Prop :=
  ∀ stage : Stage Member, stage.InHand →
    act.Ensures stage (fun _ after => after.InHand) fun _ _ => True

namespace Member.Careful

variable {α β : Type}

theorem pure (value : α) : Careful (Pure.pure value) :=
  fun _ hand => hand

theorem bind
    {act : Act Member α}
    {next : α → Act Member β}
    (first : Careful act)
    (second : ∀ value, Careful (next value)) :
    Careful (act >>= next) :=
  fun stage hand => (first stage hand).andThen fun value after => second value after

theorem own_bind
    {next : Member → Act Member α}
    (continues : ∀ member, Careful (next member)) :
    Careful (Act.own >>= next) :=
  fun stage hand => (ensures_bind Act.own next).mpr (continues stage.own stage hand)

theorem ask (wish : Ask) : Careful (Act.ask wish) :=
  fun _ hand => hand

theorem modifyLedger (change : Ledger → Ledger) : Careful (Member.modifyLedger change) :=
  fun _ hand => hand

theorem broadcast (registry : Registry) (request : Request) :
    Careful (Member.broadcast registry request) := by
  unfold Member.broadcast
  induction registry.connections with
  | nil => exact pure ()
  | cons conn rest ih => exact (ask _).bind fun _ => ih

/-- A new standing takes custody of its heartbeat, and that of the former one is cancelled. -/
theorem becoming
    {stage : Stage Member}
    {standing : Standing}
    (hand : stage.outside.timers.Entrusted (standing.heartbeat?.toList ++ stage.own.handles)) :
    (become standing).Ensures stage (fun _ after => after.InHand) fun _ _ => True := by
  unfold handles at hand
  unfold become
  rw [ensures_bind, ensures_own]
  cases former : stage.own.standing with
  | leader heartbeat =>
      rw [former] at hand
      have ended : (stage.outside.timers.cancel heartbeat).Entrusted
          (stage.own.electionTask.toList ++ standing.heartbeat?.toList) := by
        refine hand.cancel (by simp [Standing.heartbeat?]) ?_ ?_
        · simp only [Standing.heartbeat?, List.mem_append, Option.toList_some, List.mem_singleton]
          tauto
        · intro other
          simp only [List.mem_append]
          tauto
      simp only [ensures_bind, ensures_cancel, ensures_modifyOwn]
      exact ensures_datedClockMs ended fun _ => trivial
  | follower | candidate votes | sync =>
      rw [former] at hand
      have moved : stage.outside.timers.Entrusted
          (stage.own.electionTask.toList ++ standing.heartbeat?.toList) := by
        refine hand.congr fun handle => ?_
        simp only [Standing.heartbeat?, List.mem_append, Option.toList_none, List.append_nil]
        exact or_comm
      simp only [ensures_bind, ensures_modifyOwn]
      exact ensures_datedClockMs moved fun _ => trivial

theorem become {standing : Standing} (resting : standing.role ≠ .leader) :
    Careful (Member.become standing) := by
  intro stage hand
  apply becoming
  rw [Standing.heartbeat?_of_leadsNot resting]
  exact hand

/-- The handle of the election timer is let go when it was cancelled. -/
theorem disarming {stage : Stage Member} (hand : stage.InHand) :
    Member.disarmElection.Ensures stage
      (fun _ after => after.own.electionTask = none ∧ after.InHand) fun _ _ => True := by
  unfold Stage.InHand handles at hand
  unfold Member.disarmElection
  simp only [ensures_bind, ensures_own, ensures_modifyOwn]
  cases armed : stage.own.electionTask with
  | none =>
      rw [armed] at hand
      exact ⟨trivial, hand⟩
  | some task =>
      rw [armed] at hand
      refine ⟨trivial, hand.cancel List.mem_cons_self (fun other listed distinct => ?_) ?_⟩
      · exact (List.mem_cons.mp listed).resolve_left distinct
      · exact List.subset_cons_self _ _

theorem disarmElection : Careful Member.disarmElection :=
  fun _ hand => (disarming hand).mono (fun _ _ => And.right) fun _ _ _ => trivial

theorem rearmElection (delay : Delay) : Careful (Member.rearmElection delay) := by
  intro stage hand
  refine (disarming hand).andThen ?_
  rintro _ after ⟨disarmed, hand⟩
  unfold Stage.InHand handles at hand
  rw [disarmed] at hand
  rw [ensures_bind, ensures_arm]
  split
  · next handle timers scheduled => exact hand.schedule scheduled
  · trivial

theorem rearmElectionDrawn : Careful Member.rearmElectionDrawn :=
  own_bind fun _ stage hand =>
    (ensures_bind _ _).mpr (rearmElection _ { stage with outside.drawn := _ } hand)

theorem takeOver (registry : Registry) : Careful (Member.takeOver registry) := by
  refine disarmElection.bind fun _ => own_bind fun member stage hand => ?_
  rw [ensures_bind, ensures_arm]
  split
  · next heartbeat timers scheduled =>
    rw [ensures_bind]
    refine (becoming ?_).andThen fun _ led held => ?_
    · exact hand.schedule scheduled
    · exact own_bind (fun leader => broadcast registry leader.assertion) led held
  · trivial

theorem countVote (registry : Registry) (sender : NodeId) (term : Nat) (granted : Bool) :
    Careful (Member.countVote registry sender term granted) := by
  intro stage hand
  unfold Member.countVote
  rw [ensures_bind, ensures_own]
  split
  · next votes standing =>
    split
    · rw [ensures_bind, ensures_modifyOwn]
      have counted : Stage.InHand
          { stage with own.standing := .candidate (votes.insert sender) } := by
        unfold Stage.InHand handles at hand ⊢
        rw [standing] at hand
        exact hand
      split
      · exact takeOver registry _ counted
      · exact counted
    · exact hand
  · exact hand

/-- Every handler is careful. -/
theorem manner : Manner Careful (fun _ => True) (fun _ => True) where
  pure := pure
  overflow := fun _ _ => trivial
  bind := bind
  own_bind := fun continues => own_bind fun member => continues member trivial
  ask := fun _ => ask _
  modifyLedger := modifyLedger
  become := become
  rearmElection := fun _ => rearmElection _
  rearmElectionDrawn := rearmElectionDrawn
  takeOver := takeOver
  countVote := countVote
  longest := fun _ => trivial
  present := fun _ => trivial

/-- A member that stops cancels its heartbeat, and goes on holding the handle. -/
theorem stop : Careful Member.stop := by
  intro stage hand
  refine (disarming hand).andThen ?_
  rintro _ after ⟨_, hand⟩
  rw [ensures_bind, ensures_own]
  split
  · next heartbeat standing =>
    have held : heartbeat ∈ after.own.handles := by
      unfold handles
      rw [standing]
      exact List.mem_append_right _ List.mem_cons_self
    exact hand.cancel held (fun _ listed _ => listed) (List.Subset.refl _)
  · exact hand

end Member.Careful

/-! ## The stages that a member can get to -/

/-- A stage that a member can get to from its start on. -/
inductive Stage.Reached (config : NodeConfig) : Stage Member → Prop where
  | started
      {fresh after : Stage Member} {sinceMs : Nat}
      (own_eq : fresh.own = Member.ofConfig config sinceMs)
      (sound : fresh.outside.timers.Sound)
      (silent : fresh.outside.timers.elections = [])
      (performed : Member.start.perform fresh = (.ok (), after)) :
      Stage.Reached config after
  /-- The member handles whatever it meets. -/
  | handled
      {stage after : Stage Member} {registry : Registry} {occasion : Occasion}
      {answer : Option Response}
      (reached : Stage.Reached config stage)
      (performed : (occasion.handler registry).perform stage = (.ok answer, after)) :
      Stage.Reached config after
  /-- The log layer changes the ledger in any way. -/
  | recorded
      {stage : Stage Member}
      (ledger : Ledger)
      (reached : Stage.Reached config stage) :
      Stage.Reached config { stage with own.ledger := ledger }
  | stopped
      {stage after : Stage Member}
      (reached : Stage.Reached config stage)
      (performed : Member.stop.perform stage = (.ok (), after)) :
      Stage.Reached config after
  /-- The timers run on, time passes, or something else happens outside. -/
  | elsewhere
      {stage : Stage Member} {outside : Outside}
      (reached : Stage.Reached config stage)
      (ran : outside.timers = stage.outside.timers ∨
        stage.outside.timers.Runs stage.outside.clockMs outside.timers) :
      Stage.Reached config { stage with outside }

namespace Stage.Reached

variable {config : NodeConfig} {stage after : Stage Member}

/-- Every live timer of the election is in the hand of the member, wherever it has got to. -/
theorem inHand (reached : stage.Reached config) : stage.InHand := by
  induction reached with
  | @started fresh after sinceMs own_eq sound silent performed =>
      have empty : fresh.InHand := {
        sound := sound
        issued := by
          rw [own_eq]
          exact List.forall_mem_nil _
        owned := by
          rw [silent]
          exact List.forall_mem_nil _ }
      exact (Member.Careful.rearmElectionDrawn fresh empty).of_perform performed
  | handled _ performed ih =>
      exact (Member.Careful.manner.occasion _ _ _ ih).of_perform performed
  | recorded _ _ ih => exact ih
  | stopped _ performed ih => exact (Member.Careful.stop _ ih).of_perform performed
  | elsewhere _ ran ih =>
      rcases ran with kept | runs
      · unfold Stage.InHand
        rw [kept]
        exact ih
      · exact ih.runs runs

/-- One step of a vigil leads on. -/
theorem shifted (reached : stage.Reached config) (shift : Shift stage after) :
    after.Reached config := by
  cases shift with
  | called _ performed => exact reached.handled performed
  | woken delivers performed =>
      exact (reached.elsewhere (.inr (.received delivers.received))).handled performed
  | drained received => exact reached.elsewhere (.inr (.received received))
  | settled => exact reached.elsewhere (.inr .settled)
  | armedElsewhere foreign scheduled => exact reached.elsewhere (.inr (.armed foreign scheduled))
  | cancelledElsewhere issued foreign => exact reached.elsewhere (.inr (.cancelled issued foreign))
  | elsewhere kept => exact reached.elsewhere (.inl kept)

end Stage.Reached

/-- The stages of a vigil can be got to. -/
theorem Vigil.reached
    {config : NodeConfig}
    {stage : Stage Member}
    {earlier : List (Stage Member)}
    (vigil : Vigil config (stage :: earlier)) :
    stage.Reached config := by
  induction earlier generalizing stage with
  | nil =>
      cases vigil with
      | started own_eq sound silent performed =>
          exact .started own_eq sound silent performed
  | cons before earlier ih =>
      cases vigil with
      | shifted vigil shift => exact (ih vigil).shifted shift

end Quorum
