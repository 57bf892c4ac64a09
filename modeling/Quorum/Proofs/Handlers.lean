import Quorum.Act

/-!
# Reasoning about handlers

A handler answers or fails, and leaves a stage behind either way.  `Act.Ensures` states what holds
after it from a given stage: one condition on the answer and the stage if it answered, another on
the stage if it failed.  The rules below compute this statement from the outside of a handler
inwards, so that a handler is executed symbolically by rewriting with them.
-/

namespace Quorum.Act

variable {σ τ α β : Type}

/-- Running two handlers one after the other.  The second one does not run if the first one
fails. -/
theorem perform_bind
    (act : Act σ α)
    (next : α → Act σ β)
    (stage : Stage σ) :
    (act >>= next).perform stage =
      match act.perform stage with
      | (.ok value, after) => (next value).perform after
      | (.error failure, after) => (.error failure, after) := by
  unfold perform ExceptT.run StateT.run
  simp only [bind, ExceptT.bind, ExceptT.mk, StateT.bind]
  rcases act stage with ⟨_ | value, after⟩ <;> rfl

/-- A handler is performed with the answer it has. -/
theorem perform_eq
    {act : Act σ α}
    {stage : Stage σ}
    {answer : Except Failure α}
    (answered : (act.perform stage).1 = answer) :
    act.perform stage = (answer, (act.perform stage).2) := by
  rw [← answered]

/-- After the handler `done` holds if it answered, and `failed` if it did not. -/
def Ensures
    (act : Act σ α)
    (stage : Stage σ)
    (done : α → Stage σ → Prop)
    (failed : Failure → Stage σ → Prop) : Prop :=
  match act.perform stage with
  | (.ok value, after) => done value after
  | (.error failure, after) => failed failure after

section Rules

variable
    {stage : Stage σ}
    {done : α → Stage σ → Prop}
    {failed : Failure → Stage σ → Prop}

theorem Ensures.mono
    {act : Act σ α}
    {done' : α → Stage σ → Prop}
    {failed' : Failure → Stage σ → Prop}
    (ensures : act.Ensures stage done failed)
    (onDone : ∀ value after, done value after → done' value after)
    (onFailed : ∀ failure after, failed failure after → failed' failure after) :
    act.Ensures stage done' failed' := by
  unfold Ensures at ensures ⊢
  split at ensures
  · exact onDone _ _ ensures
  · exact onFailed _ _ ensures

/-- What holds of every outcome is ensured. -/
theorem ensures_of_forall
    {act : Act σ α}
    (onDone : ∀ value after, done value after)
    (onFailed : ∀ failure after, failed failure after) :
    act.Ensures stage done failed := by
  unfold Ensures
  split
  · exact onDone _ _
  · exact onFailed _ _

/-- What a handler ensures holds of the outcome it has. -/
theorem Ensures.of_perform
    {act : Act σ α}
    {answer : Except Failure α}
    {after : Stage σ}
    (ensures : act.Ensures stage done failed)
    (performed : act.perform stage = (answer, after)) :
    match answer with
    | .ok value => done value after
    | .error failure => failed failure after := by
  simp only [Ensures, performed] at ensures
  cases answer <;> exact ensures

@[simp]
theorem ensures_pure
    (value : α) :
    Ensures (pure value : Act σ α) stage done failed ↔ done value stage :=
  Iff.rfl

@[simp]
theorem ensures_throw
    (failure : Failure) :
    Ensures (throw failure : Act σ α) stage done failed ↔ failed failure stage :=
  Iff.rfl

@[simp]
theorem ensures_bind
    {done : β → Stage σ → Prop}
    (act : Act σ α)
    (next : α → Act σ β) :
    Ensures (act >>= next) stage done failed ↔
      Ensures act stage (fun value after => Ensures (next value) after done failed) failed := by
  unfold Ensures
  rw [perform_bind]
  rcases act.perform stage with ⟨_ | value, after⟩ <;> rfl

@[simp]
theorem ensures_own
    {done : σ → Stage σ → Prop} :
    Ensures own stage done failed ↔ done stage.own stage :=
  Iff.rfl

@[simp]
theorem ensures_setOwn
    {done : Unit → Stage σ → Prop}
    (next : σ) :
    Ensures (setOwn next) stage done failed ↔ done () { stage with own := next } :=
  Iff.rfl

@[simp]
theorem ensures_modifyOwn
    {done : Unit → Stage σ → Prop}
    (change : σ → σ) :
    Ensures (modifyOwn change) stage done failed ↔
      done () { stage with own := change stage.own } :=
  Iff.rfl

@[simp]
theorem ensures_clockMs
    {done : Nat → Stage σ → Prop} :
    Ensures clockMs stage done failed ↔ done stage.outside.clockMs stage :=
  Iff.rfl

theorem ensures_datedClockMs_iff
    {done : Nat → Stage σ → Prop} :
    Ensures datedClockMs stage done failed ↔
      if stage.outside.clockMs ≤ lastInstantMs then done stage.outside.clockMs stage
      else failed (.fault .undated) stage := by
  unfold datedClockMs datedInstant
  rw [ensures_bind, ensures_clockMs]
  by_cases dated : stage.outside.clockMs ≤ lastInstantMs
  · rw [if_pos dated, if_pos dated, ensures_pure]
  · rw [if_neg dated, if_neg dated, ensures_throw]

theorem ensures_datedClockMs
    {done : Nat → Stage σ → Prop}
    (onDone : done stage.outside.clockMs stage)
    (onFailed : ∀ failure, failed failure stage) :
    Ensures datedClockMs stage done failed := by
  rw [ensures_datedClockMs_iff]
  split
  · exact onDone
  · exact onFailed _

@[simp]
theorem ensures_ask
    {done : Unit → Stage σ → Prop}
    (wish : Ask) :
    Ensures (ask wish) stage done failed ↔
      done ()
        { stage with outside.asked := (stage.outside.clockMs, wish) :: stage.outside.asked } :=
  Iff.rfl

@[simp]
theorem ensures_cancel
    {done : Unit → Stage σ → Prop}
    (handle : Handle) :
    Ensures (cancel handle) stage done failed ↔
      done () { stage with outside.timers := stage.outside.timers.cancel handle } :=
  Iff.rfl

@[simp]
theorem ensures_draw
    {done : Delay → Stage σ → Prop}
    (window : Window) :
    Ensures (draw window) stage done failed ↔
      done (window.sample (stage.outside.draws stage.outside.drawn))
        { stage with outside.drawn := stage.outside.drawn + 1 } :=
  Iff.rfl

/-- A handler in two parts ensures what the second part does from wherever the first one leads,
if nothing is asked of it when it fails. -/
theorem Ensures.andThen
    {act : Act σ α}
    {next : α → Act σ β}
    {between : α → Stage σ → Prop}
    {done : β → Stage σ → Prop}
    (first : act.Ensures stage between fun _ _ => True)
    (second : ∀ value after, between value after →
      (next value).Ensures after done fun _ _ => True) :
    (act >>= next).Ensures stage done fun _ _ => True :=
  (ensures_bind act next).mpr (first.mono second fun _ _ => id)

theorem ensures_ofExcept
    {result : Except Failure α} :
    Ensures (ofExcept result : Act σ α) stage done failed ↔
      match result with
      | .ok value => done value stage
      | .error failure => failed failure stage := by
  cases result <;> rfl

/-- Arming a timer changes the timers alone, and not even them if it is refused. -/
theorem ensures_arm
    {done : Handle → Stage σ → Prop}
    {delay : Delay}
    {event : TimerEvent}
    {repeats : Bool} :
    Ensures (arm delay event repeats) stage done failed ↔
      match stage.outside.timers.schedule stage.outside.clockMs delay repeats event with
      | .ok (handle, timers) => done handle { stage with outside.timers := timers }
      | .error failure => failed failure stage := by
  have got {done : Stage σ → Stage σ → Prop} :
      Ensures (get : Act σ (Stage σ)) stage done failed ↔ done stage stage :=
    Iff.rfl
  unfold arm
  rw [ensures_bind, got, ensures_bind, ensures_ofExcept]
  cases stage.outside.timers.schedule stage.outside.clockMs delay repeats event with
  | ok armed => exact Iff.rfl
  | error failure => exact Iff.rfl

/-- Running a handler of a part on the whole. -/
@[simp]
theorem ensures_within
    {part : σ → τ}
    {replace : τ → σ → σ}
    {act : Act τ α} :
    Ensures (within part replace act) stage done failed ↔
      act.Ensures ⟨part stage.own, stage.outside⟩
        (fun value inner => done value ⟨replace inner.own stage.own, inner.outside⟩)
        (fun failure inner => failed failure ⟨replace inner.own stage.own, inner.outside⟩) := by
  have performed : (within part replace act).perform stage =
      ((act.perform ⟨part stage.own, stage.outside⟩).1,
        ⟨replace (act.perform ⟨part stage.own, stage.outside⟩).2.own stage.own,
          (act.perform ⟨part stage.own, stage.outside⟩).2.outside⟩) :=
    rfl
  unfold Ensures
  rw [performed]
  rcases act.perform ⟨part stage.own, stage.outside⟩ with ⟨_ | value, inner⟩ <;> rfl

end Rules

/-! ## Handlers that cannot fail -/

/-- The handler answers, on every stage. -/
def Succeeds (act : Act σ α) : Prop :=
  ∀ stage, act.Ensures stage (fun _ _ => True) fun _ _ => False

namespace Succeeds

protected theorem pure (value : α) : Succeeds (Pure.pure value : Act σ α) :=
  fun _ => trivial

protected theorem bind
    {act : Act σ α}
    {next : α → Act σ β}
    (first : Succeeds act)
    (second : ∀ value, Succeeds (next value)) :
    Succeeds (act >>= next) := by
  intro stage
  rw [ensures_bind]
  exact (first stage).mono (fun value after _ => second value after) fun _ _ => id

theorem own_bind
    {next : σ → Act σ α}
    (continues : ∀ own, Succeeds (next own)) :
    Succeeds (Act.own >>= next) :=
  .bind (fun _ => trivial) continues

theorem modifyOwn (change : σ → σ) : Succeeds (Act.modifyOwn change) :=
  fun _ => trivial

theorem setOwn (next : σ) : Succeeds (Act.setOwn next) :=
  fun _ => trivial

theorem ask (wish : Ask) : Succeeds (Act.ask wish : Act σ Unit) :=
  fun _ => trivial

theorem cancel (handle : Handle) : Succeeds (Act.cancel handle : Act σ Unit) :=
  fun _ => trivial

theorem cancelIfAny (handle : Option Handle) : Succeeds (Act.cancelIfAny handle : Act σ Unit) := by
  cases handle with
  | none => exact .pure ()
  | some held => exact .cancel held

theorem forM
    {body : α → Act σ Unit}
    (succeeds : ∀ item, Succeeds (body item))
    (list : List α) :
    Succeeds (list.forM body) := by
  induction list with
  | nil => exact .pure ()
  | cons item rest ih => exact .bind (succeeds item) fun _ => ih

theorem within
    {part : σ → τ}
    {replace : τ → σ → σ}
    {act : Act τ α}
    (succeeds : Succeeds act) :
    Succeeds (Act.within part replace act) :=
  fun _ => ensures_within.mpr (succeeds _)

theorem perform
    {act : Act σ α}
    (succeeds : Succeeds act)
    (stage : Stage σ) :
    ∃ value after, act.perform stage = (.ok value, after) := by
  have answered := succeeds stage
  unfold Ensures at answered
  rcases performed : act.perform stage with ⟨failure | value, after⟩
  · rw [performed] at answered
    cases answered
  · exact ⟨value, after, rfl⟩

/-- What a handler ensures if it answers is all there is to it if it cannot fail. -/
theorem ensures
    {act : Act σ α}
    {stage : Stage σ}
    {done : α → Stage σ → Prop}
    {failed failed' : Failure → Stage σ → Prop}
    (succeeds : Succeeds act)
    (answered : act.Ensures stage done failed) :
    act.Ensures stage done failed' := by
  obtain ⟨value, after, performed⟩ := succeeds.perform stage
  unfold Ensures at answered ⊢
  rw [performed] at answered ⊢
  exact answered

end Succeeds

end Quorum.Act
