import Quorum.Proofs.Handlers
import Quorum.Proofs.Timing.Works

/-!
# What a handler does outside

Besides changing the state of its own component, a handler asks things of the transport, releases
timers and arms new ones.  An `Effect` is the record of this.  `Act.Yields` says of a handler which
answers, effects and changes of its own state it can have, if it answers; its rules execute a
handler from the first statement to the last, and the effects add up on the way.
-/

namespace Quorum

/-- What a handler did outside of its component: what it asked for, the handles that it released,
and the deadlines that it armed, each in their order. -/
structure Effect where
  asks : List Ask := []
  released : List Handle := []
  armed : List (Deadline TimerEvent) := []

namespace Effect

instance : Append Effect where
  append first second :=
    ⟨first.asks ++ second.asks, first.released ++ second.released, first.armed ++ second.armed⟩

@[simp]
theorem asks_append (first second : Effect) :
    (first ++ second).asks = first.asks ++ second.asks :=
  rfl

@[simp]
theorem released_append (first second : Effect) :
    (first ++ second).released = first.released ++ second.released :=
  rfl

@[simp]
theorem armed_append (first second : Effect) :
    (first ++ second).armed = first.armed ++ second.armed :=
  rfl

@[simp]
theorem mk_append_mk
    (asks asks' : List Ask)
    (released released' : List Handle)
    (armed armed' : List (Deadline TimerEvent)) :
    (⟨asks, released, armed⟩ : Effect) ++ ⟨asks', released', armed'⟩ =
      ⟨asks ++ asks', released ++ released', armed ++ armed'⟩ :=
  rfl

@[simp]
theorem append_nil (effect : Effect) : effect ++ ⟨[], [], []⟩ = effect := by
  obtain ⟨asks, released, armed⟩ := effect
  simp

@[simp]
theorem nil_append (effect : Effect) : ⟨[], [], []⟩ ++ effect = effect :=
  rfl

theorem append_assoc (first second third : Effect) :
    first ++ second ++ third = first ++ (second ++ third) := by
  obtain ⟨asks, released, armed⟩ := first
  obtain ⟨asks', released', armed'⟩ := second
  obtain ⟨asks'', released'', armed''⟩ := third
  simp

/-- The effects of a list of things, one after the other. -/
def ofList {α : Type} (effect : α → Effect) (list : List α) : Effect where
  asks := list.flatMap fun entry => (effect entry).asks
  released := list.flatMap fun entry => (effect entry).released
  armed := list.flatMap fun entry => (effect entry).armed

end Effect

/-- The outside after an effect. -/
structure Outside.Turns (before : Outside) (effect : Effect) (after : Outside) : Prop where
  clock_eq : after.clockMs = before.clockMs
  asked_eq : after.asked =
    (effect.asks.map fun ask => (before.clockMs, ask)).reverse ++ before.asked
  works : before.timers.Works before.clockMs effect.released effect.armed after.timers

namespace Outside.Turns

variable {before between after : Outside} {effect effect' : Effect}

theorem refl (outside : Outside) : outside.Turns {} outside :=
  ⟨rfl, rfl, .idle⟩

theorem trans (turns : before.Turns effect between) (turns' : between.Turns effect' after) :
    before.Turns (effect ++ effect') after where
  clock_eq := turns'.clock_eq.trans turns.clock_eq
  asked_eq := by
    rw [turns'.asked_eq, turns.asked_eq, turns.clock_eq, Effect.asks_append, List.map_append,
      List.reverse_append, List.append_assoc]
  works := turns.works.trans (turns.clock_eq ▸ turns'.works)

/-- What was asked for once stays on record. -/
theorem mem_asked
    (turns : before.Turns effect after)
    {entry : Nat × Ask} :
    entry ∈ after.asked ↔
      entry ∈ before.asked ∨ entry.1 = before.clockMs ∧ entry.2 ∈ effect.asks := by
  have asked : entry ∈ effect.asks.map (fun ask => (before.clockMs, ask)) ↔
      entry.1 = before.clockMs ∧ entry.2 ∈ effect.asks := by
    obtain ⟨ms, ask⟩ := entry
    simp [eq_comm (a := ms), and_comm (b := ask ∈ effect.asks)]
  rw [turns.asked_eq, List.mem_append, List.mem_reverse, asked, or_comm]

end Outside.Turns

namespace Act

variable
    {σ α β : Type}
    {act : Act σ α}
    {own own' : σ}
    {outside : Outside}
    {value : α}
    {effect : Effect}

/-- If the handler answers, then with one of these outcomes. -/
def Yields
    (act : Act σ α)
    (own : σ)
    (outside : Outside)
    (outcome : α → Effect → σ → Prop) : Prop :=
  act.Ensures ⟨own, outside⟩
    (fun value after => ∃ effect, outside.Turns effect after.outside ∧
      outcome value effect after.own)
    fun _ _ => True

/-- If the handler answers, then with just this outcome. -/
def Does
    (act : Act σ α)
    (own : σ)
    (outside : Outside)
    (value : α)
    (effect : Effect)
    (next : σ) : Prop :=
  act.Yields own outside fun value' effect' next' =>
    value' = value ∧ effect' = effect ∧ next' = next

theorem Yields.of_perform
    {outcome : α → Effect → σ → Prop}
    {after : Stage σ}
    (yields : act.Yields own outside outcome)
    (performed : act.perform ⟨own, outside⟩ = (.ok value, after)) :
    ∃ effect, outside.Turns effect after.outside ∧ outcome value effect after.own :=
  Ensures.of_perform yields performed

theorem Yields.mono
    {outcome outcome' : α → Effect → σ → Prop}
    (yields : act.Yields own outside outcome)
    (weaken : ∀ value effect next, outcome value effect next → outcome' value effect next) :
    act.Yields own outside outcome' := by
  refine Ensures.mono yields ?_ fun _ _ => id
  rintro value after ⟨effect, turns, reached⟩
  exact ⟨effect, turns, weaken value effect after.own reached⟩

/-- A handler that cannot fail has one of its outcomes. -/
theorem Yields.ensures
    {outcome : α → Effect → σ → Prop}
    {done : α → Stage σ → Prop}
    {failed : Failure → Stage σ → Prop}
    (yields : act.Yields own outside outcome)
    (succeeds : act.Succeeds)
    (reached : ∀ value effect next outside', outside.Turns effect outside' →
      outcome value effect next → done value ⟨next, outside'⟩) :
    act.Ensures ⟨own, outside⟩ done failed := by
  refine succeeds.ensures (Ensures.mono yields ?_ fun _ _ => id)
  rintro value after ⟨effect, turns, came⟩
  exact reached value effect after.own after.outside turns came

theorem Yields.andThen
    {next : α → Act σ β}
    {between : α → Effect → σ → Prop}
    {outcome : β → Effect → σ → Prop}
    (first : act.Yields own outside between)
    (second : ∀ value effect own' outside', between value effect own' →
      (next value).Yields own' outside' fun value' effect' => outcome value' (effect ++ effect')) :
    (act >>= next).Yields own outside outcome := by
  refine Ensures.andThen first ?_
  rintro value ⟨own', outside'⟩ ⟨effect, turns, reached⟩
  refine Ensures.mono (second value effect own' outside' reached) ?_ fun _ _ => id
  rintro value' after ⟨effect', turns', reached'⟩
  exact ⟨effect ++ effect', turns.trans turns', reached'⟩

theorem Does.andThen
    {next : α → Act σ β}
    {outcome : β → Effect → σ → Prop}
    (first : act.Does own outside value effect own')
    (second : ∀ outside',
      (next value).Yields own' outside' fun value' effect' => outcome value' (effect ++ effect')) :
    (act >>= next).Yields own outside outcome := by
  refine Yields.andThen first ?_
  rintro _ _ _ outside' ⟨rfl, rfl, rfl⟩
  exact second outside'

theorem Does.yields
    {outcome : α → Effect → σ → Prop}
    (does : act.Does own outside value effect own')
    (reached : outcome value effect own') :
    act.Yields own outside outcome := by
  refine Yields.mono does ?_
  rintro _ _ _ ⟨rfl, rfl, rfl⟩
  exact reached

theorem does_pure (value : α) : (pure value : Act σ α).Does own outside value {} own :=
  ⟨{}, .refl outside, rfl, rfl, rfl⟩

theorem yields_pure
    {outcome : α → Effect → σ → Prop}
    (reached : outcome value {} own) :
    (pure value : Act σ α).Yields own outside outcome :=
  (does_pure value).yields reached

/-- Reading the own state has no effect. -/
theorem yields_own
    {next : σ → Act σ β}
    {outcome : β → Effect → σ → Prop}
    (continues : (next own).Yields own outside outcome) :
    (Act.own >>= next).Yields own outside outcome :=
  (ensures_bind Act.own next).mpr continues

/-- Changing the own state has no effect outside. -/
theorem yields_modifyOwn
    {change : σ → σ}
    {next : Unit → Act σ β}
    {outcome : β → Effect → σ → Prop}
    (continues : (next ()).Yields (change own) outside outcome) :
    (modifyOwn change >>= next).Yields own outside outcome :=
  (ensures_bind (modifyOwn change) next).mpr continues

theorem does_modifyOwn (change : σ → σ) :
    (modifyOwn change).Does own outside () {} (change own) :=
  ⟨{}, .refl outside, rfl, rfl, rfl⟩

theorem does_ask (wish : Ask) :
    (ask wish : Act σ Unit).Does own outside () { asks := [wish] } own :=
  ⟨{ asks := [wish] }, ⟨rfl, rfl, .idle⟩, rfl, rfl, rfl⟩

theorem does_cancel (handle : Handle) :
    (cancel handle : Act σ Unit).Does own outside () { released := [handle] } own :=
  ⟨{ released := [handle] }, ⟨rfl, rfl, Scheduler.Works.idle.cancelled handle⟩, rfl, rfl, rfl⟩

theorem does_cancelIfAny (handle : Option Handle) :
    (cancelIfAny handle : Act σ Unit).Does own outside () { released := handle.toList } own := by
  cases handle with
  | none => exact does_pure ()
  | some held => exact does_cancel held

/-- A handler that is run on each entry of a list, and leaves the own state alone. -/
theorem does_forM
    {each : α → Act σ Unit}
    {list : List α}
    (effect : α → Effect)
    (does : ∀ entry ∈ list, ∀ outside, (each entry).Does own outside () (effect entry) own) :
    (list.forM each).Does own outside () (Effect.ofList effect list) own := by
  induction list generalizing outside with
  | nil => exact does_pure ()
  | cons entry rest ih =>
      obtain ⟨first, others⟩ := List.forall_mem_cons.mp does
      refine Does.andThen (first outside) fun between => ?_
      exact (ih others).yields ⟨rfl, rfl, rfl⟩

/-- An armed timer has a handle that the scheduler chose. -/
theorem yields_arm
    {delay : Delay}
    {event : TimerEvent}
    {repeats : Bool}
    {outcome : Handle → Effect → σ → Prop}
    (reached : ∀ handle, outcome handle { armed := [⟨handle, event, delay, repeats⟩] } own) :
    (arm delay event repeats).Yields own outside outcome := by
  unfold Yields
  rw [ensures_arm]
  split
  · next handle timers accepted =>
    exact ⟨_, ⟨rfl, rfl, Scheduler.Works.idle.scheduled accepted⟩, reached handle⟩
  · trivial

/-- Arming a timer leaves the own state alone. -/
theorem yields_arm_andThen
    {delay : Delay}
    {event : TimerEvent}
    {repeats : Bool}
    {next : Handle → Act σ β}
    {outcome : β → Effect → σ → Prop}
    (continues : ∀ handle outside', (next handle).Yields own outside' fun value effect =>
      outcome value ({ armed := [⟨handle, event, delay, repeats⟩] } ++ effect)) :
    (arm delay event repeats >>= next).Yields own outside outcome := by
  let armed (handle : Handle) (effect : Effect) (own' : σ) :=
    effect = { armed := [⟨handle, event, delay, repeats⟩] } ∧ own' = own
  have arming : (arm delay event repeats).Yields own outside armed :=
    yields_arm fun handle => ⟨rfl, rfl⟩
  refine arming.andThen ?_
  rintro handle _ _ outside' ⟨rfl, rfl⟩
  exact continues handle outside'

end Act

end Quorum
