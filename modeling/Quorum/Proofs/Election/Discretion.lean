import Quorum.Proofs.Effects
import Quorum.Proofs.Election.Clockwork
import Quorum.Proofs.Election.Manners

/-!
# A member minds its own timers

A member shares the timers with the other components of its node.  It releases only handles that it
holds itself or has just been given, and what it arms are timers of the election.  So it leaves the
timers of the others alone, whatever it does.  It leaves their connections alone as well: it opens
none and closes none, and never says who is calling.

`Discreet` says this of a handler.  It is a manner, so that it is enough to look at the few parts
that arm and cancel.
-/

namespace Quorum

open Act

/-- The handle of the heartbeat, in a leadership. -/
def Standing.heartbeat? : Standing → Option Handle
  | leader heartbeat => some heartbeat
  | _ => none

theorem Standing.heartbeat?_of_leadsNot
    {standing : Standing}
    (leadsNot : standing.role ≠ .leader) :
    standing.heartbeat? = none := by
  cases standing with
  | leader heartbeat => exact absurd rfl leadsNot
  | follower | candidate votes | sync => rfl

namespace Member

variable {own between next : Member} {effect effect' : Effect} {handle : Handle}

/-- The handles that a member holds. -/
def handles (member : Member) : List Handle :=
  member.electionTask.toList ++ member.standing.heartbeat?.toList

/-- A handle that a member holds, or has just been given. -/
def Commands (own : Member) (effect : Effect) (handle : Handle) : Prop :=
  handle ∈ own.handles ∨ handle ∈ effect.armed.map Deadline.handle

/-- What a member may do to the timers and ask of the transport. -/
structure Minds (own : Member) (effect : Effect) (next : Member) : Prop where
  talks : ∀ ask ∈ effect.asks, ask.isTalk = true
  released : ∀ handle ∈ effect.released, own.Commands effect handle
  electoral : ∀ deadline ∈ effect.armed, deadline.event.isElection = true
  holds : ∀ handle ∈ next.handles, own.Commands effect handle

namespace Minds

/-- A member that keeps its handles may talk. -/
theorem of_asks
    {asks : List Ask}
    (talks : ∀ ask ∈ asks, ask.isTalk = true)
    (kept : next.handles = own.handles) :
    own.Minds { asks } next where
  talks := talks
  released := List.forall_mem_nil _
  electoral := List.forall_mem_nil _
  holds := fun _ held => .inl (kept ▸ held)

/-- And it may do nothing at all. -/
theorem idle (kept : next.handles = own.handles) : own.Minds {} next :=
  .of_asks (List.forall_mem_nil _) kept

theorem trans (minds : own.Minds effect between) (minds' : between.Minds effect' next) :
    own.Minds (effect ++ effect') next := by
  have grown {handle : Handle} (commands : own.Commands effect handle) :
      own.Commands (effect ++ effect') handle := by
    refine commands.imp_right fun given => ?_
    rw [Effect.armed_append, List.map_append]
    exact List.mem_append_left _ given
  have carried {handle : Handle} (commands : between.Commands effect' handle) :
      own.Commands (effect ++ effect') handle := by
    rcases commands with held | given
    · exact grown (minds.holds handle held)
    · refine .inr ?_
      rw [Effect.armed_append, List.map_append]
      exact List.mem_append_right _ given
  exact {
    talks := List.forall_mem_append.mpr ⟨minds.talks, minds'.talks⟩
    released := List.forall_mem_append.mpr
      ⟨fun handle gone => grown (minds.released handle gone),
        fun handle gone => carried (minds'.released handle gone)⟩
    electoral := List.forall_mem_append.mpr ⟨minds.electoral, minds'.electoral⟩
    holds := fun handle held => carried (minds'.holds handle held) }

end Minds

/-- A handler that minds the timers of the member, whenever it answers. -/
def Discreet {α : Type} (act : Act Member α) : Prop :=
  ∀ own outside, act.Yields own outside fun _ effect next => own.Minds effect next

namespace Discreet

variable {α β : Type}

theorem pure (value : α) : Discreet (Pure.pure value) :=
  fun _ _ => yields_pure (.idle rfl)

theorem throw (failure : Failure) : Discreet (throw failure : Act Member α) :=
  fun _ _ => trivial

theorem bind
    {act : Act Member α}
    {next : α → Act Member β}
    (first : Discreet act)
    (second : ∀ value, Discreet (next value)) :
    Discreet (act >>= next) := by
  intro own outside
  refine (first own outside).andThen ?_
  intro value effect between outside' minds
  exact (second value between outside').mono fun _ _ _ => minds.trans

/-- Reading the member does nothing. -/
theorem own_bind
    {next : Member → Act Member α}
    (continues : ∀ member, Discreet (next member)) :
    Discreet (Act.own >>= next) :=
  fun own outside => yields_own (continues own own outside)

theorem modifyOwn
    {change : Member → Member}
    (kept : ∀ member, (change member).handles = member.handles) :
    Discreet (Act.modifyOwn change) :=
  fun own _ => (does_modifyOwn change).yields (.idle (kept own))

theorem modifyLedger (change : Ledger → Ledger) : Discreet (Member.modifyLedger change) :=
  modifyOwn fun _ => rfl

theorem ask {wish : Ask} (talks : wish.isTalk = true) : Discreet (Act.ask wish) :=
  fun _ _ => (does_ask wish).yields (.of_asks (List.forall_mem_singleton.mpr talks) rfl)

theorem broadcast
    (registry : Registry)
    {request : Request}
    (talks : ∀ conn, (Ask.send conn (.request request)).isTalk = true) :
    Discreet (Member.broadcast registry request) := by
  unfold Member.broadcast
  induction registry.connections with
  | nil => exact pure ()
  | cons conn rest ih => exact (ask (talks conn)).bind fun _ => ih

theorem draw (window : Window) : Discreet (Act.draw window) :=
  fun _ _ => ⟨{}, ⟨rfl, rfl, .idle⟩, .idle rfl⟩

/-! ## The parts that arm and cancel -/

theorem disarmElection : Discreet Member.disarmElection := by
  intro own outside
  unfold Member.disarmElection
  apply yields_own
  refine (does_cancelIfAny own.electionTask).andThen fun outside' => ?_
  refine (does_modifyOwn _).yields ?_
  exact {
    talks := List.forall_mem_nil _
    released := by
      intro handle gone
      rw [Effect.released_append, List.append_nil] at gone
      exact .inl (List.mem_append_left _ gone)
    electoral := List.forall_mem_nil _
    holds := fun handle held => .inl (List.mem_append_right _ held) }

/-- Only the heartbeat is released when the standing is replaced. -/
theorem become_yields (own : Member) (outside : Outside) (standing : Standing) :
    (become standing).Yields own outside fun _ effect next =>
      effect = { released := own.standing.heartbeat?.toList } ∧
        next.electionTask = own.electionTask ∧ next.standing = standing := by
  have dated (effect : Effect) (outside' : Outside) (turns : outside.Turns effect outside') :
      Ensures (do
        let sinceMs ← datedClockMs
        Act.modifyOwn fun member => { member with sinceMs })
        ⟨{ own with standing }, outside'⟩
        (fun _ after => ∃ effect', outside.Turns effect' after.outside ∧
          effect' = effect ∧ after.own.electionTask = own.electionTask ∧
            after.own.standing = standing)
        fun _ _ => True := by
    rw [ensures_bind]
    exact ensures_datedClockMs ⟨effect, turns, rfl, rfl, rfl⟩ fun _ => trivial
  unfold Yields become
  rw [ensures_bind, ensures_own]
  cases former : own.standing with
  | leader heartbeat =>
      simp only [ensures_bind, ensures_cancel, ensures_modifyOwn] at dated ⊢
      exact dated { released := [heartbeat] } _
        ⟨rfl, rfl, Scheduler.Works.idle.cancelled heartbeat⟩
  | follower | candidate votes | sync =>
      simp only [ensures_bind, ensures_modifyOwn] at dated ⊢
      exact dated {} _ (.refl outside)

theorem become {standing : Standing} (resting : standing.role ≠ .leader) :
    Discreet (Member.become standing) := by
  intro own outside
  refine (become_yields own outside standing).mono ?_
  rintro _ _ next ⟨rfl, task, replaced⟩
  exact {
    talks := List.forall_mem_nil _
    released := fun handle gone => .inl (List.mem_append_right _ gone)
    electoral := List.forall_mem_nil _
    holds := by
      intro handle held
      unfold handles at held
      rw [task, replaced, Standing.heartbeat?_of_leadsNot resting] at held
      exact .inl (List.mem_append_left _ (by simpa using held)) }

theorem rearmElection (delay : Delay) : Discreet (Member.rearmElection delay) := by
  refine disarmElection.bind fun _ own outside => ?_
  refine yields_arm_andThen fun handle outside' => ?_
  refine (does_modifyOwn _).yields ?_
  exact {
    talks := List.forall_mem_nil _
    released := List.forall_mem_nil _
    electoral := List.forall_mem_singleton.mpr rfl
    holds := by
      intro other held
      rcases List.mem_append.mp held with armed | beats
      · exact .inr (by simpa using armed)
      · exact .inl (List.mem_append_right _ beats) }

theorem rearmElectionDrawn : Discreet Member.rearmElectionDrawn :=
  own_bind fun member => (draw member.window).bind rearmElection

theorem takeOver (registry : Registry) : Discreet (Member.takeOver registry) := by
  refine disarmElection.bind fun _ => own_bind fun member own outside => ?_
  refine yields_arm_andThen fun handle outside' => ?_
  apply yields_modifyOwn
  refine (become_yields _ outside' (.leader handle)).andThen ?_
  rintro _ _ next outside'' ⟨rfl, task, replaced⟩
  have led : own.Minds
      ({ armed := [⟨handle, .leaderHeartbeat, member.heartbeatInterval, true⟩] } ++
        { released := own.standing.heartbeat?.toList }) next := {
    talks := List.forall_mem_nil _
    released := fun handle gone => .inl (List.mem_append_right _ gone)
    electoral := List.forall_mem_singleton.mpr rfl
    holds := by
      intro other held
      unfold handles at held
      rw [task, replaced] at held
      rcases List.mem_append.mp held with armed | beats
      · exact .inl (List.mem_append_left _ armed)
      · exact .inr (by simpa [Standing.heartbeat?] using beats) }
  have rest : Discreet (do Member.broadcast registry (← Act.own).assertion) :=
    own_bind fun member => broadcast registry fun _ => rfl
  refine (rest next outside'').mono fun _ _ _ minds => ?_
  rw [← Effect.append_assoc]
  exact led.trans minds

theorem countVote (registry : Registry) (sender : NodeId) (term : Nat) (granted : Bool) :
    Discreet (Member.countVote registry sender term granted) := by
  refine fun own outside => yields_own ?_
  split
  · next votes standing =>
    split
    · -- Another vote replaces the candidacy, which holds no heartbeat.
      have counts : own.Minds {}
          { own with standing := .candidate (votes.insert sender) } := .idle (by
        unfold handles
        rw [standing]
        rfl)
      refine (does_modifyOwn _).andThen fun outside' => ?_
      have wins : Discreet (if own.ledger.quorum ≤ (votes.insert sender).length then
          Member.takeOver registry else Pure.pure ()) := by
        split
        · exact takeOver registry
        · exact pure ()
      exact (wins _ outside').mono fun _ _ _ => counts.trans
    · exact pure () own outside
  · exact pure () own outside

/-- Every handler is discreet. -/
theorem manner : Manner Discreet (fun _ => True) (fun _ => True) where
  pure := pure
  overflow := throw _
  bind := bind
  own_bind := fun continues => own_bind fun member => continues member trivial
  ask := ask
  modifyLedger := modifyLedger
  become := become
  rearmElection := fun _ => rearmElection _
  rearmElectionDrawn := rearmElectionDrawn
  takeOver := takeOver
  countVote := countVote
  longest := fun _ => trivial
  present := fun _ => trivial

/-- Whatever the occasion is. -/
theorem occasion (registry : Registry) (occasion : Occasion) :
    Discreet (occasion.handler registry) :=
  manner.occasion registry occasion

end Discreet

end Member

end Quorum
